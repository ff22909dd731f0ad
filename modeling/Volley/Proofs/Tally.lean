import Mathlib.Algebra.BigOperators.Group.List.Basic
import Mathlib.Algebra.GroupWithZero.Nat
import Mathlib.Algebra.Order.BigOperators.Group.List
import Mathlib.Data.List.Induction
import Mathlib.Data.String.Basic
import Volley.Tally

/-!
# What a tally adds up

The results of workers can be merged in any order. Each counter of a tally is the sum of that
counter over the results merged into it: overall, for every way to end, and for every scenario. The
counters are words, so the sums are exact as long as the attempted events are fewer than there are
words.

## Main definitions

* `ScenarioTotals.Sums`: totals that are sums over results, up to the end of a word.
* `ScenarioTotals.Exact`: totals that are exactly the sums over results.
* `Outcome.isLoss`: the ways to end that make a run fail.
* `Tally.Sums`: a tally that adds up results.
* `Tally.timeless`: a tally without the times that workers took.

## Main results

* `Tally.sums_foldl`: merging results adds them up.
* `Tally.Sums.perm`: the order of the results does not matter.
* `Tally.foldl_merge_perm`: nor does it matter for the tally as a whole.
* `Tally.timeless_foldl_merge`: the time that workers took matters for nothing else.
* `Tally.Sums.connectionsHeld_iff`: what decides whether every worker has kept its connection.
* `ScenarioTotals.Sums.exact`: sums over results with few enough events are exact.
-/

namespace Volley

/-- The account of a worker with `elapsed` at zero. -/
def WorkerResult.timeless (result : WorkerResult) : WorkerResult :=
  { result with elapsed := .zero }

/-- Two words are added to a third in any order. -/
private theorem word_add_comm (word first second : UInt64) :
    word + first + second = word + second + first := by
  rw [UInt64.add_assoc, UInt64.add_comm first, ← UInt64.add_assoc]

/-! ## Totals -/

namespace ScenarioTotals

/-- The totals are the sums over `results`, up to the end of a word. -/
structure Sums (totals : ScenarioTotals) (results : List WorkerResult) : Prop where
  workers : totals.workers = .ofNat results.length
  attempted : totals.attempted = .ofNat (results.map (·.attempted.toNat)).sum
  sent : totals.sent = .ofNat (results.map (·.sent.toNat)).sum
  errors : totals.errors = .ofNat (results.map (·.errors.toNat)).sum

/-- The totals of events are exactly the sums over `results`. -/
structure Exact (totals : ScenarioTotals) (results : List WorkerResult) : Prop where
  workers : totals.workers = .ofNat results.length
  attempted : totals.attempted.toNat = (results.map (·.attempted.toNat)).sum
  sent : totals.sent.toNat = (results.map (·.sent.toNat)).sum
  errors : totals.errors.toNat = (results.map (·.errors.toNat)).sum

variable {totals : ScenarioTotals} {results others : List WorkerResult}

/-- The order in which two results are added by `ScenarioTotals.add` does not matter. -/
theorem add_add_comm (first second : WorkerResult) :
    (totals.add first).add second = (totals.add second).add first := by
  simp only [add, word_add_comm _ first.attempted, word_add_comm _ first.sent,
    word_add_comm _ first.errors]

theorem sums_zero : zero.Sums [] :=
  ⟨rfl, rfl, rfl, rfl⟩

/-- A sum of words over one more result. -/
private theorem ofNat_sum_concat (counter : WorkerResult → UInt64) (results : List WorkerResult)
    (result : WorkerResult) :
    UInt64.ofNat ((results ++ [result]).map fun other => (counter other).toNat).sum =
      .ofNat (results.map fun other => (counter other).toNat).sum + counter result := by
  rw [List.map_append, List.sum_append, List.map_singleton, List.sum_singleton,
    UInt64.ofNat_add, UInt64.ofNat_toNat]

/-- What `ScenarioTotals.add` adds to the totals is added to the sums. -/
theorem Sums.add (h : totals.Sums results) (result : WorkerResult) :
    (totals.add result).Sums (results ++ [result]) := by
  refine ⟨?_, ?_, ?_, ?_⟩
  · rw [List.length_append, List.length_singleton, UInt64.ofNat_add]
    exact congrArg (· + 1) h.workers
  · rw [ofNat_sum_concat]
    exact congrArg (· + result.attempted) h.attempted
  · rw [ofNat_sum_concat]
    exact congrArg (· + result.sent) h.sent
  · rw [ofNat_sum_concat]
    exact congrArg (· + result.errors) h.errors

/-- The order of `results` does not matter to their `Sums`. -/
theorem Sums.perm (h : totals.Sums results) (hperm : results.Perm others) :
    totals.Sums others := by
  have hsum (counter : WorkerResult → Nat) :
      (others.map counter).sum = (results.map counter).sum := (hperm.map counter).sum_eq.symm
  refine ⟨?_, ?_, ?_, ?_⟩
  · rw [← hperm.length_eq]
    exact h.workers
  · rw [hsum]
    exact h.attempted
  · rw [hsum]
    exact h.sent
  · rw [hsum]
    exact h.errors

/-- If no result has more events `sent` and in `errors` than `attempted`, nor do their sums. -/
theorem sum_sent_add_errors_le
    (h : ∀ result ∈ results,
      result.sent.toNat + result.errors.toNat ≤ result.attempted.toNat) :
    (results.map (·.sent.toNat)).sum + (results.map (·.errors.toNat)).sum ≤
      (results.map (·.attempted.toNat)).sum := by
  rw [← List.sum_map_add]
  exact List.sum_le_sum h

/-- The `Sums` over results with few enough events `attempted` are `Exact`. -/
theorem Sums.exact (h : totals.Sums results)
    (hle : ∀ result ∈ results,
      result.sent.toNat + result.errors.toNat ≤ result.attempted.toNat)
    (hlt : (results.map (·.attempted.toNat)).sum < 0x10000000000000000) :
    totals.Exact results := by
  -- The sums of sent and failed events stay below that of attempted ones.
  have hsums := sum_sent_add_errors_le hle
  refine ⟨h.workers, ?_, ?_, ?_⟩
  · rw [h.attempted, UInt64.toNat_ofNat']
    exact Nat.mod_eq_of_lt hlt
  · rw [h.sent, UInt64.toNat_ofNat']
    exact Nat.mod_eq_of_lt (by omega)
  · rw [h.errors, UInt64.toNat_ofNat']
    exact Nat.mod_eq_of_lt (by omega)

end ScenarioTotals

/-! ## Ways to end -/

/-- Whether a worker ended without the session that it needed: by `transportFailed` or
`connectFailed`. -/
def Outcome.isLoss : Outcome → Bool
  | completed => false
  | transportFailed => true
  | connectFailed => true
  | abandoned => false

theorem Outcome.isLoss_iff {outcome : Outcome} :
    outcome.isLoss = true ↔ outcome = .connectFailed ∨ outcome = .transportFailed := by
  cases outcome <;> decide

namespace OutcomeCounts

/-- The number of workers that ended with an outcome. -/
def of (counts : OutcomeCounts) : Outcome → UInt64
  | .completed => counts.completed
  | .transportFailed => counts.transportFailed
  | .connectFailed => counts.connectFailed
  | .abandoned => counts.abandoned

/-- The number of workers that ended with any of the four outcomes. -/
def total (counts : OutcomeCounts) : UInt64 :=
  counts.completed + counts.transportFailed + counts.connectFailed + counts.abandoned

theorem of_record (counts : OutcomeCounts) (recorded outcome : Outcome) :
    (counts.record recorded).of outcome =
      if recorded = outcome then counts.of outcome + 1 else counts.of outcome := by
  cases recorded <;> cases outcome <;> rfl

/-- The order in which two outcomes are recorded does not matter. -/
theorem record_comm (counts : OutcomeCounts) (first second : Outcome) :
    (counts.record first).record second = (counts.record second).record first := by
  cases first <;> cases second <;> rfl

/-- To `record` an outcome adds one to the `total`. -/
theorem total_record (counts : OutcomeCounts) (outcome : Outcome) :
    (counts.record outcome).total = counts.total + 1 := by
  cases outcome <;> simp only [record, total] <;> ac_rfl

end OutcomeCounts

/-! ## Scenarios -/

namespace Tally

/-- The counters of a tally over all scenarios, as totals. -/
def overall (tally : Tally) : ScenarioTotals :=
  ⟨tally.workers, tally.attempted, tally.sent, tally.errors⟩

/-- The totals of the scenario with a `name`, at zero if there is no entry. -/
def ofScenario (tally : Tally) (name : String) : ScenarioTotals :=
  (tally.perScenario.lookup name).getD .zero

variable {entries : List (String × ScenarioTotals)} {result : WorkerResult}

/-- By `addTo`, the name of the result is added to those of the list. -/
theorem mem_names_addTo {name : String} :
    name ∈ (addTo result entries).map Prod.fst ↔
      name = result.scenario ∨ name ∈ entries.map Prod.fst := by
  induction entries with
  | nil => simp only [addTo, List.map_cons, List.map_nil, List.mem_cons]
  | cons entry rest ih =>
    unfold addTo
    split
    · next heq =>
      simp only [List.map_cons, List.mem_cons, heq, or_self_left]
    · split
      · simp only [List.map_cons, List.mem_cons]
      · rw [List.map_cons, List.mem_cons, ih, List.map_cons, List.mem_cons]
        exact or_left_comm

/-- By `addTo`, a list with ascending names stays one. -/
theorem ascending_addTo (h : (entries.map Prod.fst).Pairwise (· < ·)) :
    ((addTo result entries).map Prod.fst).Pairwise (· < ·) := by
  induction entries with
  | nil => exact List.pairwise_singleton _ _
  | cons entry rest ih =>
    obtain ⟨hhead, hrest⟩ := List.pairwise_cons.mp h
    unfold addTo
    split
    · exact h
    · next hne =>
      split
      · next hlt =>
        refine List.pairwise_cons.mpr ⟨?_, h⟩
        intro name hname
        rcases List.mem_cons.mp hname with hfirst | hlater
        · rw [hfirst]
          exact hlt
        · exact lt_trans hlt (hhead name hlater)
      · next hge =>
        -- The result goes further down, so the head is before it as well.
        refine List.pairwise_cons.mpr ⟨?_, ih hrest⟩
        intro name hname
        rcases mem_names_addTo.mp hname with hself | hin
        · rw [hself]
          exact lt_of_le_of_ne (not_lt.mp hge) (Ne.symm hne)
        · exact hhead name hin

/-- A `name` that comes before all names of the list is not in it. -/
theorem lookup_of_lt {name : String} (h : ∀ other ∈ entries.map Prod.fst, name < other) :
    entries.lookup name = none := by
  rw [List.lookup_eq_none_iff]
  intro entry hentry
  have hlt := h entry.1 (List.mem_map_of_mem hentry)
  exact bne_iff_ne.mpr (ne_of_lt hlt)

/-- By `addTo`, the result is added to the totals of its scenario. -/
theorem lookup_addTo_self (h : (entries.map Prod.fst).Pairwise (· < ·)) :
    (addTo result entries).lookup result.scenario =
      some (((entries.lookup result.scenario).getD .zero).add result) := by
  induction entries with
  | nil => simp only [addTo, List.lookup_cons_self, List.lookup_nil, Option.getD_none]
  | cons entry rest ih =>
    obtain ⟨hhead, hrest⟩ := List.pairwise_cons.mp h
    unfold addTo
    split
    · next heq =>
      rw [heq, List.lookup_cons_self, List.lookup_cons_self, Option.getD_some]
    · next hne =>
      split
      · next hlt =>
        -- The list is ascending, so a name before its head is a new one.
        have hnone : (entry :: rest).lookup result.scenario = none := by
          refine lookup_of_lt ?_
          intro other hother
          rcases List.mem_cons.mp hother with hfirst | hlater
          · rw [hfirst]
            exact hlt
          · exact lt_trans hlt (hhead other hlater)
        rw [List.lookup_cons_self, hnone, Option.getD_none]
      · have hskip : (result.scenario == entry.1) = false := beq_eq_false_iff_ne.mpr hne
        rw [List.lookup_cons, hskip, ih hrest, List.lookup_cons, hskip]

/-- By `addTo`, nothing is added to the totals of another scenario. -/
theorem lookup_addTo_of_ne {name : String} (hne : name ≠ result.scenario) :
    (addTo result entries).lookup name = entries.lookup name := by
  have hskip : (name == result.scenario) = false := beq_eq_false_iff_ne.mpr hne
  induction entries with
  | nil => simp only [addTo, List.lookup_cons, hskip, List.lookup_nil]
  | cons entry rest ih =>
    unfold addTo
    split
    · next heq =>
      rw [List.lookup_cons, List.lookup_cons, ← heq, hskip]
    · split
      · rw [List.lookup_cons, hskip]
      · rw [List.lookup_cons, List.lookup_cons, ih]

/-- What `Tally.merge` does to the totals of each scenario. -/
theorem ofScenario_merge {tally : Tally} (h : (tally.perScenario.map Prod.fst).Pairwise (· < ·))
    (result : WorkerResult) (name : String) :
    (tally.merge result).ofScenario name =
      if result.scenario = name then (tally.ofScenario name).add result
      else tally.ofScenario name := by
  unfold ofScenario
  split
  · next heq =>
    rw [← heq, merge, lookup_addTo_self h, Option.getD_some]
  · next hne => rw [merge, lookup_addTo_of_ne (Ne.symm hne)]

/-! ## Sums -/

/-- A tally adds up `results`: overall, for each way to end, and for each scenario. -/
structure Sums (tally : Tally) (results : List WorkerResult) : Prop where
  overall : tally.overall.Sums results
  outcomes : ∀ outcome, tally.outcomes.of outcome =
    .ofNat (results.countP fun result => result.outcome = outcome)
  total : tally.outcomes.total = .ofNat results.length
  ascending : (tally.perScenario.map Prod.fst).Pairwise (· < ·)
  scenarios : ∀ name,
    (tally.ofScenario name).Sums (results.filter fun result => result.scenario = name)

variable {tally : Tally} {results others : List WorkerResult}

theorem sums_zero : zero.Sums [] where
  overall := ScenarioTotals.sums_zero
  outcomes outcome := by cases outcome <;> rfl
  total := rfl
  ascending := .nil
  scenarios _ := ScenarioTotals.sums_zero

/-- What `Tally.merge` adds to a tally is added to its `Sums`. -/
theorem Sums.merge (h : tally.Sums results) (result : WorkerResult) :
    (tally.merge result).Sums (results ++ [result]) := by
  refine ⟨h.overall.add result, ?_, ?_, ascending_addTo h.ascending, ?_⟩
  · intro outcome
    rw [Tally.merge, OutcomeCounts.of_record, List.countP_append, List.countP_singleton,
      h.outcomes outcome]
    by_cases heq : result.outcome = outcome
    · rw [if_pos heq, if_pos (decide_eq_true heq), UInt64.ofNat_add]
      rfl
    · rw [if_neg heq, if_neg (by simpa using heq), Nat.add_zero]
  · rw [Tally.merge, OutcomeCounts.total_record, h.total, List.length_append,
      List.length_singleton, UInt64.ofNat_add]
    rfl
  · intro name
    rw [ofScenario_merge h.ascending, List.filter_append]
    by_cases heq : result.scenario = name
    · rw [if_pos heq, List.filter_cons_of_pos (by simpa using heq), List.filter_nil]
      exact (h.scenarios name).add result
    · rw [if_neg heq, List.filter_cons_of_neg (by simpa using heq), List.filter_nil,
        List.append_nil]
      exact h.scenarios name

/-- Merging `results` adds them up: the tally has their `Sums`. -/
theorem sums_foldl (results : List WorkerResult) : (results.foldl merge zero).Sums results := by
  -- The last result is the last to be merged, so the induction is from the end of the list.
  induction results using List.reverseRecOn with
  | nil => exact sums_zero
  | append_singleton results result ih =>
    rw [List.foldl_append, List.foldl_cons, List.foldl_nil]
    exact ih.merge result

/-- With fewer `results` than there are words, an outcome has the count zero only if nobody ended
so. -/
theorem Sums.of_eq_zero_iff (h : tally.Sums results)
    (hlength : results.length < 0x10000000000000000) (outcome : Outcome) :
    tally.outcomes.of outcome = 0 ↔ ∀ result ∈ results, result.outcome ≠ outcome := by
  have hle : (results.countP fun result => result.outcome = outcome) ≤ results.length :=
    List.countP_le_length
  have hzero : tally.outcomes.of outcome = 0 ↔
      (results.countP fun result => result.outcome = outcome) = 0 := by
    rw [h.outcomes outcome, ← UInt64.toNat_inj, UInt64.toNat_ofNat', UInt64.toNat_zero,
      Nat.mod_eq_of_lt (by omega)]
  rw [hzero, List.countP_eq_zero]
  simp only [decide_eq_true_eq, ne_eq]

/-- A tally says `connectionsHeld` exactly if none of the `results` has an outcome that `isLoss`. -/
theorem Sums.connectionsHeld_iff (h : tally.Sums results)
    (hlength : results.length < 0x10000000000000000) :
    tally.connectionsHeld = true ↔ ∀ result ∈ results, result.outcome.isLoss = false := by
  have hconnect := h.of_eq_zero_iff hlength .connectFailed
  have htransport := h.of_eq_zero_iff hlength .transportFailed
  simp only [OutcomeCounts.of] at hconnect htransport
  rw [connectionsHeld, Bool.and_eq_true, beq_iff_eq, beq_iff_eq, hconnect, htransport]
  constructor
  · rintro ⟨hconnected, hkept⟩ result hresult
    rw [Bool.eq_false_iff, Ne, Outcome.isLoss_iff]
    exact not_or.mpr ⟨hconnected result hresult, hkept result hresult⟩
  · intro hheld
    refine ⟨fun result hresult hlost => ?_, fun result hresult hlost => ?_⟩
    · have hfalse := hheld result hresult
      rw [hlost] at hfalse
      cases hfalse
    · have hfalse := hheld result hresult
      rw [hlost] at hfalse
      cases hfalse

/-- Nor does it matter to the `Sums` of a tally. -/
theorem Sums.perm (h : tally.Sums results) (hperm : results.Perm others) : tally.Sums others where
  overall := h.overall.perm hperm
  outcomes outcome := by
    rw [← hperm.countP_eq]
    exact h.outcomes outcome
  total := by
    rw [← hperm.length_eq]
    exact h.total
  ascending := h.ascending
  scenarios name := (h.scenarios name).perm (hperm.filter _)

/-! ## Order -/

theorem addTo_cons_of_eq {name : String} (h : result.scenario = name) (totals : ScenarioTotals)
    (rest : List (String × ScenarioTotals)) :
    addTo result ((name, totals) :: rest) = (name, totals.add result) :: rest := by
  rw [addTo, if_pos h]

theorem addTo_cons_of_lt {name : String} (h : result.scenario < name) (totals : ScenarioTotals)
    (rest : List (String × ScenarioTotals)) :
    addTo result ((name, totals) :: rest) =
      (result.scenario, ScenarioTotals.zero.add result) :: (name, totals) :: rest := by
  rw [addTo, if_neg h.ne, if_pos h]

theorem addTo_cons_of_gt {name : String} (h : name < result.scenario) (totals : ScenarioTotals)
    (rest : List (String × ScenarioTotals)) :
    addTo result ((name, totals) :: rest) = (name, totals) :: addTo result rest := by
  rw [addTo, if_neg h.ne', if_neg h.not_gt]

private theorem addTo_comm_of_le {first second : WorkerResult}
    (hle : first.scenario ≤ second.scenario) :
    addTo second (addTo first entries) = addTo first (addTo second entries) := by
  induction entries with
  | nil =>
    rcases hle.lt_or_eq with hlt | heq
    · rw [addTo, addTo, addTo_cons_of_gt hlt, addTo_cons_of_lt hlt, addTo]
    · rw [addTo, addTo, addTo_cons_of_eq heq.symm, addTo_cons_of_eq heq, heq,
        ScenarioTotals.add_add_comm]
  | cons entry rest ih =>
    obtain ⟨name, totals⟩ := entry
    rcases lt_trichotomy first.scenario name with hfirst | hfirst | hfirst
    · rw [addTo_cons_of_lt hfirst]
      rcases hle.lt_or_eq with hlt | heq
      · -- The first one stays ahead of wherever the second one goes.
        rw [addTo_cons_of_gt hlt]
        rcases lt_trichotomy second.scenario name with hsecond | hsecond | hsecond
        · rw [addTo_cons_of_lt hsecond, addTo_cons_of_lt hlt]
        · rw [addTo_cons_of_eq hsecond, addTo_cons_of_lt hfirst]
        · rw [addTo_cons_of_gt hsecond, addTo_cons_of_lt hfirst]
      · rw [addTo_cons_of_eq heq.symm, addTo_cons_of_lt (heq ▸ hfirst), addTo_cons_of_eq heq, heq,
          ScenarioTotals.add_add_comm]
    · rw [addTo_cons_of_eq hfirst]
      rcases hle.lt_or_eq with hlt | heq
      · have hsecond : name < second.scenario := hfirst ▸ hlt
        rw [addTo_cons_of_gt hsecond, addTo_cons_of_gt hsecond, addTo_cons_of_eq hfirst]
      · have hsecond : second.scenario = name := heq.symm.trans hfirst
        rw [addTo_cons_of_eq hsecond, addTo_cons_of_eq hsecond, addTo_cons_of_eq hfirst,
          ScenarioTotals.add_add_comm]
    · have hsecond : name < second.scenario := hfirst.trans_le hle
      rw [addTo_cons_of_gt hfirst, addTo_cons_of_gt hsecond, addTo_cons_of_gt hsecond,
        addTo_cons_of_gt hfirst, ih]

/-- By `addTo`, two results find their places in the list whichever comes first. -/
theorem addTo_comm (first second : WorkerResult) :
    addTo second (addTo first entries) = addTo first (addTo second entries) := by
  rcases le_total first.scenario second.scenario with hle | hle
  · exact addTo_comm_of_le hle
  · exact (addTo_comm_of_le hle).symm

/-- The order of two results does not matter to `Tally.merge`. -/
theorem merge_comm (tally : Tally) (first second : WorkerResult) :
    (tally.merge first).merge second = (tally.merge second).merge first := by
  simp only [merge, addTo_comm first second, OutcomeCounts.record_comm,
    word_add_comm _ first.attempted, word_add_comm _ first.sent, word_add_comm _ first.errors,
    Duration.max, Nat.max_eq_max, max_right_comm _ first.elapsed.nanos]

/-- The tally of several `results` does not depend on their order. -/
theorem foldl_merge_perm (tally : Tally) (hperm : results.Perm others) :
    results.foldl merge tally = others.foldl merge tally :=
  have : RightCommutative merge := ⟨merge_comm⟩
  hperm.foldl_eq tally

/-! ## Time -/

/-- A tally with `elapsed` at zero. -/
def timeless (tally : Tally) : Tally :=
  { tally with elapsed := .zero }

theorem addTo_timeless (result : WorkerResult) (entries : List (String × ScenarioTotals)) :
    addTo result.timeless entries = addTo result entries := by
  induction entries with
  | nil => rfl
  | cons entry rest ih =>
    unfold addTo
    rw [ih]
    rfl

/-- The `elapsed` of a result matters for nothing but that of the tally. -/
theorem timeless_merge (tally : Tally) (result : WorkerResult) :
    (tally.merge result).timeless = tally.timeless.merge result.timeless := by
  simp only [timeless, merge, addTo_timeless]
  rfl

/-- So it is when several `results` are merged. -/
theorem timeless_foldl_merge (results : List WorkerResult) (tally : Tally) :
    (results.foldl merge tally).timeless =
      (results.map WorkerResult.timeless).foldl merge tally.timeless := by
  induction results generalizing tally with
  | nil => rfl
  | cons result results ih =>
    rw [List.foldl_cons, List.map_cons, List.foldl_cons, ih, timeless_merge]

end Tally

end Volley
