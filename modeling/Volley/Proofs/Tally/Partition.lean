import Mathlib.Algebra.BigOperators.Group.List.Basic
import Mathlib.Data.List.Nodup
import Volley.Proofs.Tally
import Volley.Saturate

/-!
# A tally divides the results among the scenarios

A tally keeps the same totals at two levels: over all results, and for each scenario in a list that
grows when a new name comes up. With few enough results and events no counter starts over, and then
the two levels agree: every result is in the totals of exactly one scenario and of exactly one way
to end, so the parts add up to the whole. None of it depends on the order of the results.

## Main definitions

* `ScenarioTotals.Counts`, `Tally.Counts`: totals that are exactly the sums over results.
* `Tally.Countable`: results that are few enough for the counters of a tally.
* `ScenarioTotals.AddsUp`: totals that are those of several parts together.
* `Tally.Partitions`: a tally that divides results.

## Main results

* `sum_sum_filter`: a sum over a list is the sum over the keys of its elements.
* `Tally.Countable.counts_tally`: counters that add up few enough results are exact.
* `Tally.partitions_foldl_merge`: merging results in any order divides them.
-/

namespace Volley

variable {results others : List WorkerResult}

/-! ## Exact totals -/

/-- The totals are exactly the sums over `results`. -/
structure ScenarioTotals.Counts (totals : ScenarioTotals) (results : List WorkerResult) :
    Prop where
  workers : totals.workers.toNat = results.length
  attempted : totals.attempted.toNat = (results.map (·.attempted.toNat)).sum
  sent : totals.sent.toNat = (results.map (·.sent.toNat)).sum
  errors : totals.errors.toNat = (results.map (·.errors.toNat)).sum

/-- Every counter of a tally is exactly the sum over `results`. -/
structure Tally.Counts (tally : Tally) (results : List WorkerResult) : Prop where
  overall : tally.overall.Counts results
  outcomes : ∀ outcome, (tally.outcomes.of outcome).toNat =
    results.countP fun result => result.outcome = outcome
  scenarios : ∀ name,
    (tally.ofScenario name).Counts (results.filter fun result => result.scenario = name)

/-- Results that a tally can count: there are no more than `maxWord` of them, nor have they more
events of any kind. -/
structure Tally.Countable (results : List WorkerResult) : Prop where
  length : results.length ≤ maxWord
  attempted : (results.map (·.attempted.toNat)).sum ≤ maxWord
  sent : (results.map (·.sent.toNat)).sum ≤ maxWord
  errors : (results.map (·.errors.toNat)).sum ≤ maxWord

namespace Tally.Countable

/-- Some of `Countable` results are `Countable` as well. -/
theorem sublist (h : Countable results) (hsublist : others.Sublist results) : Countable others := by
  have hsum (counter : WorkerResult → Nat) : (others.map counter).sum ≤ (results.map counter).sum :=
    (hsublist.map counter).sum_le_sum fun _ _ => Nat.zero_le _
  exact ⟨hsublist.length_le.trans h.length, (hsum _).trans h.attempted, (hsum _).trans h.sent,
    (hsum _).trans h.errors⟩

/-- Totals with the `Sums` of `Countable` results count them exactly. -/
theorem counts {totals : ScenarioTotals} (h : Countable results) (hsums : totals.Sums results) :
    totals.Counts results where
  workers := by rw [hsums.workers, toNat_ofNat_of_le h.length]
  attempted := by rw [hsums.attempted, toNat_ofNat_of_le h.attempted]
  sent := by rw [hsums.sent, toNat_ofNat_of_le h.sent]
  errors := by rw [hsums.errors, toNat_ofNat_of_le h.errors]

/-- So does every counter of a tally that has their `Sums`. -/
theorem counts_tally {tally : Tally} (h : Countable results) (hsums : tally.Sums results) :
    tally.Counts results where
  overall := h.counts hsums.overall
  outcomes outcome := by
    rw [hsums.outcomes, toNat_ofNat_of_le (List.countP_le_length.trans h.length)]
  scenarios name := (h.sublist List.filter_sublist).counts (hsums.scenarios name)

end Tally.Countable

/-! ## Sums over keys -/

section Fibers

variable {α κ : Type} [DecidableEq κ] (key : α → κ) {keys : List κ}

/-- A sum of `weight` over a list is the sum over `keys`, which are distinct and cover the list, of
the sums over the elements with each `key`. -/
theorem sum_sum_filter (weight : α → Nat) (hnodup : keys.Nodup) {values : List α}
    (hkeys : ∀ value ∈ values, key value ∈ keys) :
    (keys.map fun k => ((values.filter fun value => key value = k).map weight).sum).sum =
      (values.map weight).sum := by
  induction values with
  | nil => simp only [List.filter_nil, List.map_nil, List.sum_nil, List.map_const',
      List.sum_replicate_nat, Nat.mul_zero]
  | cons value values ih =>
    obtain ⟨hkey, hrest⟩ := List.forall_mem_cons.mp hkeys
    -- The first element weighs in at its own key only, which is one of the keys once.
    have hfiber (k : κ) :
        (((value :: values).filter fun value => key value = k).map weight).sum =
          (if key value = k then weight value else 0) +
            ((values.filter fun value => key value = k).map weight).sum := by
      by_cases heq : key value = k
      · rw [List.filter_cons_of_pos (by simpa using heq), List.map_cons, List.sum_cons,
          if_pos heq]
      · rw [List.filter_cons_of_neg (by simpa using heq), if_neg heq, Nat.zero_add]
    have hfirst : (keys.map fun k => if key value = k then weight value else 0).sum =
        weight value := by
      rw [List.sum_map_eq_nsmul_single (key value) _ fun k hne _ => if_neg hne.symm,
        List.count_eq_one_of_mem hnodup hkey, one_nsmul, if_pos rfl]
    simp only [hfiber]
    rw [List.sum_map_add, hfirst, ih hrest, List.map_cons, List.sum_cons]

/-- So it is with the number of elements. -/
theorem sum_length_filter (hnodup : keys.Nodup) {values : List α}
    (hkeys : ∀ value ∈ values, key value ∈ keys) :
    (keys.map fun k => (values.filter fun value => key value = k).length).sum =
      values.length := by
  have hsum := sum_sum_filter key (fun _ => 1) hnodup hkeys
  simpa only [List.map_const', List.sum_replicate_nat, Nat.mul_one] using hsum

end Fibers

/-! ## Parts of a tally -/

/-- The totals are those of `parts` together. -/
structure ScenarioTotals.AddsUp (totals : ScenarioTotals) (parts : List ScenarioTotals) :
    Prop where
  workers : totals.workers.toNat = (parts.map (·.workers.toNat)).sum
  attempted : totals.attempted.toNat = (parts.map (·.attempted.toNat)).sum
  sent : totals.sent.toNat = (parts.map (·.sent.toNat)).sum
  errors : totals.errors.toNat = (parts.map (·.errors.toNat)).sum

namespace Tally

/-- The four outcomes, in the order in which `OutcomeCounts` has them. -/
def ends : List Outcome := [.completed, .transportFailed, .connectFailed, .abandoned]

/-- A tally divides `results`: its totals are their number and their sums, and the longest time is
that of one of them; each of them is counted with one way to end and in the entry of one scenario,
where the entries are those of the scenarios that occur, so that the parts add up to the whole. -/
structure Partitions (tally : Tally) (results : List WorkerResult) : Prop where
  overall : tally.overall.Counts results
  longest : tally.elapsed.nanos = (results.map (·.elapsed.nanos)).max?.getD 0
  outcomes : ∀ outcome, (tally.outcomes.of outcome).toNat =
    results.countP fun result => result.outcome = outcome
  ends_add_up : (ends.map fun outcome => (tally.outcomes.of outcome).toNat).sum =
    tally.workers.toNat
  ascending : (tally.perScenario.map Prod.fst).Pairwise (· < ·)
  names : ∀ name, name ∈ tally.perScenario.map Prod.fst ↔ name ∈ results.map (·.scenario)
  entries : ∀ entry ∈ tally.perScenario,
    entry.2.Counts (results.filter fun result => result.scenario = entry.1)
  entries_add_up : tally.overall.AddsUp (tally.perScenario.map Prod.snd)

/-- An entry of `perScenario` has the totals of `Tally.ofScenario`. -/
theorem ofScenario_of_mem {tally : Tally}
    (h : (tally.perScenario.map Prod.fst).Pairwise (· < ·)) {entry : String × ScenarioTotals}
    (hentry : entry ∈ tally.perScenario) : tally.ofScenario entry.1 = entry.2 := by
  obtain ⟨before, after, hsplit⟩ := List.append_of_mem hentry
  -- The names are ascending, so no entry before this one has the same name.
  have hbefore : ∀ other ∈ before, (entry.1 != other.1) = true := by
    intro other hother
    rw [hsplit, List.map_append, List.pairwise_append] at h
    have hlt := h.2.2 other.1 (List.mem_map_of_mem hother) entry.1 List.mem_cons_self
    exact bne_iff_ne.mpr hlt.ne'
  have hlookup : tally.perScenario.lookup entry.1 = some entry.2 :=
    List.lookup_eq_some_iff.mpr ⟨before, after, hsplit, hbefore⟩
  rw [ofScenario, hlookup, Option.getD_some]

/-- The `elapsed` of a tally only grows, to that of each result that took longer. -/
theorem elapsed_foldl_merge (results : List WorkerResult) (tally : Tally) :
    (results.foldl merge tally).elapsed.nanos =
      (results.map (·.elapsed.nanos)).foldl max tally.elapsed.nanos := by
  induction results generalizing tally with
  | nil => rfl
  | cons result results ih =>
    rw [List.foldl_cons, ih, List.map_cons, List.foldl_cons]
    rfl

/-- The `elapsed` of an empty tally becomes the longest one of `results`, if there are any. -/
theorem longest_foldl_merge (results : List WorkerResult) :
    (results.foldl merge zero).elapsed.nanos =
      (results.map (·.elapsed.nanos)).max?.getD 0 := by
  rw [elapsed_foldl_merge]
  cases results with
  | nil => rfl
  | cons result results =>
    -- The empty tally has taken no time, so the first result is the longest so far.
    rw [List.map_cons, List.max?_cons', Option.getD_some, List.foldl_cons]
    exact congrArg (List.foldl max · _) (Nat.zero_max result.elapsed.nanos)

/-- The names in `perScenario` after several `results` are theirs, beside those that were there. -/
theorem mem_names_foldl_merge (results : List WorkerResult) (tally : Tally) {name : String} :
    name ∈ (results.foldl merge tally).perScenario.map Prod.fst ↔
      name ∈ results.map (·.scenario) ∨ name ∈ tally.perScenario.map Prod.fst := by
  induction results generalizing tally with
  | nil => simp only [List.foldl_nil, List.map_nil, List.not_mem_nil, false_or]
  | cons result results ih =>
    have hfirst : name ∈ (tally.merge result).perScenario.map Prod.fst ↔
        name = result.scenario ∨ name ∈ tally.perScenario.map Prod.fst := mem_names_addTo
    rw [List.foldl_cons, ih, hfirst, List.map_cons, List.mem_cons, or_left_comm, or_assoc]

/-- Every outcome is one of the four `ends`. -/
theorem mem_ends (outcome : Outcome) : outcome ∈ ends := by
  cases outcome <;> decide

/-- The counts of the four `ends` add up to the number of `workers`. -/
theorem Counts.ends_add_up {tally : Tally} (h : tally.Counts results) :
    (ends.map fun outcome => (tally.outcomes.of outcome).toNat).sum = tally.workers.toNat := by
  simp only [h.outcomes, List.countP_eq_length_filter]
  calc (ends.map fun outcome => (results.filter fun result => result.outcome = outcome).length).sum
      = results.length :=
        sum_length_filter WorkerResult.outcome (by decide) fun result _ => mem_ends result.outcome
    _ = tally.workers.toNat := h.overall.workers.symm

/-- If the entries of a tally count the results of the scenarios that occur, `totals` over all
results `AddsUp` over the entries. -/
theorem addsUp_entries {totals : ScenarioTotals} {entries : List (String × ScenarioTotals)}
    (htotals : totals.Counts results) (hnodup : (entries.map Prod.fst).Nodup)
    (hnames : ∀ result ∈ results, result.scenario ∈ entries.map Prod.fst)
    (hentries : ∀ entry ∈ entries,
      entry.2.Counts (results.filter fun result => result.scenario = entry.1)) :
    totals.AddsUp (entries.map Prod.snd) := by
  have hlength := sum_length_filter WorkerResult.scenario hnodup hnames
  have hsum (total : ScenarioTotals → Nat) (counter : WorkerResult → Nat)
      (hentry : ∀ entry ∈ entries, total entry.2 =
        ((results.filter fun result => result.scenario = entry.1).map counter).sum) :
      (results.map counter).sum = ((entries.map Prod.snd).map total).sum := by
    rw [← sum_sum_filter WorkerResult.scenario counter hnodup hnames, List.map_map, List.map_map]
    exact congrArg List.sum (List.map_congr_left fun entry h => (hentry entry h).symm)
  refine ⟨?_, ?_, ?_, ?_⟩
  · rw [htotals.workers, ← hlength, List.map_map, List.map_map]
    exact congrArg List.sum (List.map_congr_left fun entry h => (hentries entry h).workers.symm)
  · exact htotals.attempted.trans (hsum _ _ fun entry h => (hentries entry h).attempted)
  · exact htotals.sent.trans (hsum _ _ fun entry h => (hentries entry h).sent)
  · exact htotals.errors.trans (hsum _ _ fun entry h => (hentries entry h).errors)

/-- Merged into `Tally.zero`, `Countable` results are what the tally `Partitions`. -/
theorem Countable.partitions (h : Countable results) :
    (results.foldl merge zero).Partitions results := by
  have hsums := sums_foldl results
  have hcounts := h.counts_tally hsums
  have hnames (name : String) :
      name ∈ (results.foldl merge zero).perScenario.map Prod.fst ↔
        name ∈ results.map (·.scenario) := by
    rw [mem_names_foldl_merge]
    exact or_iff_left List.not_mem_nil
  have hentries : ∀ entry ∈ (results.foldl merge zero).perScenario,
      entry.2.Counts (results.filter fun result => result.scenario = entry.1) := by
    intro entry hentry
    rw [← ofScenario_of_mem hsums.ascending hentry]
    exact hcounts.scenarios entry.1
  refine ⟨hcounts.overall, longest_foldl_merge results, hcounts.outcomes, hcounts.ends_add_up,
    hsums.ascending, hnames, hentries, ?_⟩
  refine addsUp_entries hcounts.overall (hsums.ascending.imp ne_of_lt) ?_ hentries
  intro result hresult
  exact (hnames _).mpr (List.mem_map_of_mem hresult)

/-- In whatever order `Countable` results are merged, the tally is the same, and it `Partitions`
them: among the four `ends`, and among the scenarios. -/
theorem partitions_foldl_merge (h : Countable results) :
    (∀ others, results.Perm others → others.foldl merge zero = results.foldl merge zero) ∧
      (results.foldl merge zero).Partitions results :=
  ⟨fun _ hperm => (foldl_merge_perm zero hperm).symm, h.partitions⟩

/-- Two workers of one scenario, with another one between them. -/
def interleaved : List WorkerResult :=
  [⟨0, "sweep", 210, 200, 10, .ofMillis 7, .transportFailed⟩,
    ⟨1, "burst", 5, 5, 0, .ofMillis 9, .completed⟩,
    ⟨2, "sweep", 105, 105, 0, .ofMillis 4, .completed⟩]

/-- The results of `interleaved`: two scenarios share the events of three workers. -/
theorem partitions_foldl_merge_interleaved :
    Countable interleaved ∧
      interleaved.reverse.foldl merge zero = interleaved.foldl merge zero ∧
      (interleaved.foldl merge zero).Partitions interleaved ∧
      interleaved.foldl merge zero =
        ⟨3, 320, 310, 10, .ofMillis 9, ⟨2, 1, 0, 0⟩,
          [("burst", ⟨1, 5, 5, 0⟩), ("sweep", ⟨2, 315, 305, 10⟩)]⟩ := by
  have hcountable : Countable interleaved := ⟨by decide, by decide, by decide, by decide⟩
  obtain ⟨hperm, hpartitions⟩ := partitions_foldl_merge hcountable
  exact ⟨hcountable, hperm _ (List.reverse_perm interleaved).symm, hpartitions, by decide +kernel⟩

end Tally

end Volley
