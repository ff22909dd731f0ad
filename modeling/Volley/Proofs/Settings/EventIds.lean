import Volley.Proofs.Scenario.Buildable
import Volley.Proofs.Scenario.Fresh
import Volley.Settings

/-!
# Event ids of a load run

Every worker has a range of event ids of its own: the stride from one range to the next is at least
the largest number of events that a selected scenario plans, and a configuration for which the
ranges do not all fit into a word is refused. So an id is never cut off at the top of a word, events
of different workers have different ids, and within a worker only an event that is sent again has
the id of another.

## Main definitions

* `Settings.Spaced`: the ranges of the workers fit and are long enough.
* `Settings.Takes`: what settings have from the configuration that they are made of.

## Main results

* `Settings.spaced_of_ofConfig`: the settings of every accepted configuration are spaced.
* `Settings.event_ids`: the ids of the events of all workers.
-/

namespace Volley

namespace Scenario.Catalog

/-- The `count` of an entry's spec does not depend on the seed, and its `sizes` are those of the
`params`. -/
theorem count_build {entry : Entry} (h : entry ∈ entries) (name : String) (params : Params)
    (seed : UInt64) :
    (entry.build name { params with seed }).count = (entry.build name params).count ∧
      (entry.build name { params with seed }).sizes = params.sizes := by
  have hall : ∀ entry ∈ entries,
      (entry.build name { params with seed }).count = (entry.build name params).count ∧
        (entry.build name { params with seed }).sizes = params.sizes := by
    simp only [entries, List.forall_mem_cons]
    and_intros
    all_goals first | exact List.forall_mem_nil _ | rfl
  exact hall entry h

/-- What `select` returns are entries of the catalogue `entries`. -/
theorem mem_of_select {names : String} {scenarios : List Entry}
    (h : select names = .ok scenarios) : ∀ entry ∈ scenarios, entry ∈ entries := by
  unfold select at h
  generalize Text.listItems names.toList = items at h
  induction items generalizing scenarios with
  | nil =>
    cases h
    exact List.forall_mem_nil _
  | cons name rest ih =>
    unfold select.go at h
    split at h
    · cases h
    · next entry hentry =>
      split at h
      · cases h
      · next hrest =>
        cases h
        exact List.forall_mem_cons.mpr ⟨List.mem_of_find?_eq_some hentry, ih hrest⟩

end Scenario.Catalog

namespace Settings

/-- Both words are at most their `max`. -/
private theorem le_max (a b : UInt64) : a ≤ max a b ∧ b ≤ max a b := by
  show a ≤ (if a ≤ b then b else a) ∧ b ≤ (if a ≤ b then b else a)
  split
  · next hle => exact ⟨hle, UInt64.le_refl b⟩
  · next hle => exact ⟨UInt64.le_refl a, UInt64.le_of_lt (UInt64.not_le.mp hle)⟩

/-- The result of `widenStride` is at least the `stride` it is given. -/
theorem le_widenStride (stride : UInt64) (scenarios : List Scenario.Entry)
    (params : Scenario.Params) : stride ≤ widenStride stride scenarios params := by
  unfold widenStride
  induction scenarios generalizing stride with
  | nil => exact UInt64.le_refl stride
  | cons entry rest ih => exact UInt64.le_trans (le_max _ _).1 (ih _)

/-- The result of `widenStride` is at least the `count` that each of the `scenarios` builds. -/
theorem count_le_widenStride {scenarios : List Scenario.Entry} {entry : Scenario.Entry}
    (h : entry ∈ scenarios) (stride : UInt64) (params : Scenario.Params) :
    (entry.build entry.name params).count ≤ widenStride stride scenarios params := by
  induction scenarios generalizing stride with
  | nil => cases h
  | cons first rest ih =>
    rcases List.mem_cons.mp h with rfl | hmem
    · exact UInt64.le_trans (le_max _ _).2 (le_widenStride _ rest params)
    · exact ih hmem _

/-- The ranges of ids of all workers fit into a word, each range is as long as `idStride`, and that
is at least the `count` of its worker's spec. -/
structure Spaced (settings : Settings) : Prop where
  fits : settings.idStride.toNat * settings.workers.toNat ≤ maxWord
  covers : ∀ worker, (settings.spec worker).count ≤ settings.idStride
  sizes : ∀ worker, (settings.spec worker).sizes = settings.params.sizes

/-- The `count` of `settings.spec worker` is that of one of the selected entries, and its `sizes`
are those of the settings. -/
theorem count_spec {settings : Settings}
    (h : ∀ entry ∈ settings.scenarios, entry ∈ Scenario.Catalog.entries) (worker : Nat) :
    (∃ entry ∈ settings.scenarios,
      (settings.spec worker).count = (entry.build entry.name settings.params).count) ∧
      (settings.spec worker).sizes = settings.params.sizes := by
  have hmem : settings.scenarioOf worker ∈ settings.scenarios := List.get_mem _ _
  obtain ⟨hcount, hsizes⟩ := Scenario.Catalog.count_build (h _ hmem)
    (settings.scenarioOf worker).name settings.params (settings.params.seed + UInt64.ofNat worker)
  exact ⟨⟨_, hmem, hcount⟩, hsizes⟩

/-- What `settings` have from the `config` that they are made of, with `widenStride` applied to its
stride. -/
structure Takes (settings : Settings) (config : Config) : Prop where
  workers : settings.workers = config.workers
  select : Scenario.Catalog.select config.scenario = .ok settings.scenarios
  events : settings.params.events = config.eventsPerWorker
  overflowCapacity : settings.params.overflowCapacity = config.overflowCapacity
  duplicateInterval : settings.params.duplicateInterval = config.duplicateInterval
  idStride : settings.idStride = widenStride config.idStride settings.scenarios settings.params
  fits : settings.idStride.toNat * settings.workers.toNat ≤ maxWord

/-- If `ofConfig` accepts a configuration, the settings are those that it `Takes`. -/
theorem takes_of_ofConfig {config : Config} {fallbackSeed : UInt64} {settings : Settings}
    (h : ofConfig config fallbackSeed = .ok settings) : settings.Takes config := by
  unfold ofConfig at h
  split at h
  · cases h
  split at h
  · cases h
  split at h
  · cases h
  split at h
  · cases h
  next hselect =>
  split at h
  · cases h
  extract_lets params stride at h
  split at h
  · next hfits =>
    rw [← Except.ok.inj h]
    exact ⟨rfl, hselect, rfl, rfl, rfl, rfl, hfits⟩
  · cases h

/-- If `ofConfig` accepts a configuration, the settings are `Spaced`. -/
theorem spaced_of_ofConfig {config : Config} {fallbackSeed : UInt64} {settings : Settings}
    (h : ofConfig config fallbackSeed = .ok settings) : settings.Spaced := by
  have htakes := takes_of_ofConfig h
  have hentries := Scenario.Catalog.mem_of_select htakes.select
  refine ⟨htakes.fits, fun worker => ?_, fun worker => (count_spec hentries worker).2⟩
  obtain ⟨⟨entry, hmem, hcount⟩, -⟩ := count_spec hentries worker
  rw [hcount, htakes.idStride]
  exact count_le_widenStride hmem _ _

/-! ## The ids of all workers -/

namespace Spaced

variable {settings : Settings}

/-- The range of every `worker` ends within a word, as the range of the last one does. -/
theorem range_le (h : settings.Spaced) {worker : Nat} (hworker : worker < settings.workers.toNat) :
    worker * settings.idStride.toNat + settings.idStride.toNat ≤ maxWord := by
  have hnext : (worker + 1) * settings.idStride.toNat ≤
      settings.workers.toNat * settings.idStride.toNat := Nat.mul_le_mul_right _ hworker
  have hfits := h.fits
  rw [Nat.mul_comm] at hfits
  rw [← Nat.succ_mul]
  exact Nat.le_trans hnext hfits

/-- The `idBase` of a `worker` is exactly `worker * idStride`, without saturation. -/
theorem toNat_idBase (h : settings.Spaced) {worker : Nat}
    (hworker : worker < settings.workers.toNat) :
    (settings.spec worker).idBase.toNat = worker * settings.idStride.toNat := by
  have hrange := h.range_le hworker
  show (saturate (worker * settings.idStride.toNat)).toNat = _
  rw [toNat_saturate]
  omega

/-- The `idBase` of a worker and the `count` of its plan come to at most `maxWord`. -/
theorem room (h : settings.Spaced) {worker : Nat} (hworker : worker < settings.workers.toNat) :
    (settings.spec worker).idBase.toNat + (settings.spec worker).count.toNat ≤ maxWord := by
  have hrange := h.range_le hworker
  have hcovers := UInt64.le_iff_toNat_le.mp (h.covers worker)
  rw [h.toNat_idBase hworker]
  omega

/-- The events of a worker are `Plan.Numbered`, and `idBase` with the number of all of them is at
most `maxWord`. -/
theorem numbered (h : settings.Spaced) {worker : Nat} (hworker : worker < settings.workers.toNat)
    {timestamps : Nat → Int} {writes : List Step}
    (hwrites : (Plan.start (settings.spec worker) timestamps).steps = .ok writes) :
    ∃ plan : Plan, plan.spec = settings.spec worker ∧
      plan.Numbered (writes.flatMap Step.events) ∧
      plan.spec.idBase.toNat + (writes.flatMap Step.events).length ≤ maxWord := by
  obtain ⟨plan, hspec, hnumbered⟩ := Plan.numbered_of_steps hwrites
  refine ⟨plan, hspec, hnumbered, ?_⟩
  rw [hspec, Plan.length_events_of_steps hwrites, Plan.remaining_start]
  exact h.room hworker

/-- The ids of a `worker` are from `worker * idStride` on and below `(worker + 1) * idStride`. -/
theorem id_range (h : settings.Spaced) {worker : Nat} (hworker : worker < settings.workers.toNat)
    {timestamps : Nat → Int} {writes : List Step}
    (hwrites : (Plan.start (settings.spec worker) timestamps).steps = .ok writes) {event : Event}
    (hevent : event ∈ writes.flatMap Step.events) :
    worker * settings.idStride.toNat ≤ event.id.toNat ∧
      event.id.toNat < (worker + 1) * settings.idStride.toNat := by
  obtain ⟨plan, hspec, hnumbered, hroom⟩ := h.numbered hworker hwrites
  obtain ⟨hle, hlt⟩ := hnumbered.id_range hroom hevent
  have hcovers := UInt64.le_iff_toNat_le.mp (h.covers worker)
  rw [hspec, h.toNat_idBase hworker] at hle hlt
  rw [Plan.length_events_of_steps hwrites, Plan.remaining_start] at hlt
  refine ⟨hle, ?_⟩
  rw [Nat.succ_mul]
  omega

end Spaced

/-- Entry number `worker` of `settings.jobs` has `settings.spec worker`, and there are entries for
numbers below `workers` only. -/
theorem getElem?_jobs {settings : Settings} {stream datagram : Address} {worker : Nat} {job : Job}
    (h : (settings.jobs stream datagram)[worker]? = some job) :
    worker < settings.workers.toNat ∧ job.workerId.toNat = worker ∧
      job.spec = settings.spec worker := by
  unfold jobs at h
  rw [List.getElem?_map, Option.map_eq_some_iff] at h
  obtain ⟨number, hnumber, rfl⟩ := h
  obtain ⟨hlt, heq⟩ := List.getElem?_eq_some_iff.mp hnumber
  rw [List.length_range] at hlt
  rw [List.getElem_range] at heq
  subst heq
  refine ⟨hlt, ?_, rfl⟩
  have hword := settings.workers.toNat_lt
  show (UInt64.ofNat worker).toNat = worker
  rw [UInt64.toNat_ofNat']
  omega

/-- For every configuration that `ofConfig` accepts, with payload sizes up to `Payload.maxPadding`:
the plans of all jobs can be built. The event at `position` in the plan of worker `w` is fresh, with
the id `w * idStride + freshBefore position`, or `spec.repeats position`, and then it is the one at
`origin`, an interval before. Events of different workers have different ids. Events of one worker
with the same id are equal, and if they are at different positions, the strategy is `.duplicates`.
-/
theorem event_ids {config : Config} {fallbackSeed : UInt64} {settings : Settings}
    (haccepted : ofConfig config fallbackSeed = .ok settings)
    (hsizes : ∀ size ∈ settings.params.sizes.toList, size.toNat ≤ Payload.maxPadding)
    (stream datagram : Address) (timestamps : Nat → Nat → Int) :
    ∃ events : Nat → List Event,
      (∀ w job, (settings.jobs stream datagram)[w]? = some job →
        job.workerId.toNat = w ∧ job.spec.idBase.toNat = w * settings.idStride.toNat ∧
        (∃ writes, (Plan.start job.spec (timestamps w)).steps = .ok writes ∧
          events w = writes.flatMap Step.events) ∧
        (events w).length = job.spec.count.toNat ∧
        ∀ (position : Nat) (event : Event), (events w)[position]? = some event →
          (job.spec.repeats position = false →
            event.id.toNat = w * settings.idStride.toNat + job.spec.freshBefore position) ∧
          (job.spec.repeats position = true → ∃ (interval : UInt32) (origin : Nat),
            job.spec.strategy = .duplicates interval ∧
              position = origin + max interval.toNat 1 ∧ (events w)[origin]? = some event)) ∧
      (∀ w v job job' (event other : Event), (settings.jobs stream datagram)[w]? = some job →
        (settings.jobs stream datagram)[v]? = some job' → w ≠ v → event ∈ events w →
          other ∈ events v → event.id ≠ other.id) ∧
      (∀ w job (position place : Nat) (event other : Event),
        (settings.jobs stream datagram)[w]? = some job →
        (events w)[position]? = some event → (events w)[place]? = some other →
        event.id = other.id →
          event = other ∧
            (position ≠ place → ∃ interval, job.spec.strategy = .duplicates interval)) := by
  have hspaced := spaced_of_ofConfig haccepted
  have hplan : ∀ w, ∃ writes, (Plan.start (settings.spec w) (timestamps w)).steps = .ok writes := by
    intro w
    refine Plan.exists_steps ?_ (timestamps w)
    rw [hspaced.sizes w]
    exact hsizes
  choose writes hwrites using hplan
  refine ⟨fun w => (writes w).flatMap Step.events, ?_, ?_, ?_⟩
  · intro w job hjob
    obtain ⟨hw, hid, hspec⟩ := getElem?_jobs hjob
    obtain ⟨plan, hplan, hnumbered, hroom⟩ := hspaced.numbered hw (hwrites w)
    have hbase := hspaced.toNat_idBase hw
    rw [hspec]
    rw [hplan] at hroom
    refine ⟨hid, hbase, ⟨writes w, hwrites w, rfl⟩, ?_, fun position event hevent => ⟨?_, ?_⟩⟩
    · rw [Plan.length_events_of_steps (hwrites w), Plan.remaining_start]
    · intro hfresh
      rw [← hplan] at hroom hfresh
      rw [hnumbered.toNat_id hroom hevent hfresh, hplan, hbase]
    · intro hrepeats
      rw [← hplan] at hrepeats ⊢
      obtain ⟨n, hn⟩ := Scenario.Spec.exists_window?_of_repeats hrepeats
      obtain ⟨interval, hstrategy, rfl⟩ := Scenario.Spec.exists_of_window? hn
      have hle : max interval.toNat 1 ≤ position := by
        rw [← (Scenario.Spec.repeats_iff hn position).mp hrepeats]
        exact Nat.mod_le _ _
      exact ⟨interval, position - max interval.toNat 1, hstrategy, by omega,
        hnumbered.again hevent hn hrepeats⟩
  · intro w v job job' event other hw hv hne hevent hother hsame
    obtain ⟨hw, -, -⟩ := getElem?_jobs hw
    obtain ⟨hv, -, -⟩ := getElem?_jobs hv
    obtain ⟨hle, hlt⟩ := hspaced.id_range hw (hwrites w) hevent
    obtain ⟨hle', hlt'⟩ := hspaced.id_range hv (hwrites v) hother
    rw [hsame] at hle hlt
    -- One of the two ranges ends before the other begins.
    rcases Nat.lt_or_gt_of_ne hne with hbefore | hbefore
    · have hends := Nat.mul_le_mul_right settings.idStride.toNat (show w + 1 ≤ v from hbefore)
      omega
    · have hends := Nat.mul_le_mul_right settings.idStride.toNat (show v + 1 ≤ w from hbefore)
      omega
  · intro w job position place event other hjob hevent hother hsame
    obtain ⟨hw, -, hspec⟩ := getElem?_jobs hjob
    obtain ⟨plan, hplan, hnumbered, hroom⟩ := hspaced.numbered hw (hwrites w)
    obtain ⟨heq, hagain⟩ := hnumbered.eq_of_id_eq hroom hevent hother hsame
    refine ⟨heq, fun hne => ?_⟩
    obtain ⟨n, hn⟩ := hagain hne
    rw [hplan, ← hspec] at hn
    obtain ⟨interval, hstrategy, -⟩ := Scenario.Spec.exists_of_window? hn
    exact ⟨interval, hstrategy⟩

/-- Three workers that take duplicates and chaos in turn, twelve events each, with an `idStride` of
five. -/
def narrowConfig : Config where
  workers := 3
  scenario := "duplicates, chaos"
  payloadSizes := "64"
  eventsPerWorker := 12
  idStride := 5

/-- The stride of `narrowConfig` is widened to twelve, and the first worker and the last, who both
send duplicates, have no id in common. -/
theorem event_ids_narrow :
    ∃ (settings : Settings) (events : Nat → List Event),
      ofConfig narrowConfig 7 = .ok settings ∧
      (∀ size ∈ settings.params.sizes.toList, size.toNat ≤ Payload.maxPadding) ∧
      settings.idStride = 12 ∧ (events 0).length = 12 ∧ (events 2).length = 12 ∧
      ∀ event ∈ events 0, ∀ other ∈ events 2, event.id ≠ other.id := by
  obtain ⟨settings, haccepted, hstride, hlist, hcounts⟩ : ∃ settings : Settings,
      ofConfig narrowConfig 7 = .ok settings ∧ settings.idStride = 12 ∧
        settings.params.sizes.toList = [64] ∧
        (settings.jobs "" "").map (fun job => job.spec.count) = [12, 12, 12] :=
    ⟨_, rfl, rfl, rfl, rfl⟩
  have hsizes : ∀ size ∈ settings.params.sizes.toList, size.toNat ≤ Payload.maxPadding := by
    intro size hmem
    rw [hlist, List.mem_singleton] at hmem
    rw [hmem]
    decide
  obtain ⟨events, hworkers, hdiffer, -⟩ := event_ids haccepted hsizes "" "" fun _ _ => 0
  -- Each of the three jobs is there, and its count is the one in the list.
  have hjob : ∀ w < 3, ∃ job, (settings.jobs "" "")[w]? = some job ∧ job.spec.count = 12 := by
    intro w hw
    have hlength : (settings.jobs "" "").length = 3 := by
      have hlengths := congrArg List.length hcounts
      rwa [List.length_map] at hlengths
    refine ⟨_, List.getElem?_eq_getElem (by omega), ?_⟩
    have hmem : (settings.jobs "" "")[w].spec.count ∈
        (settings.jobs "" "").map fun job => job.spec.count :=
      List.mem_map_of_mem (List.getElem_mem _)
    rw [hcounts] at hmem
    simpa using hmem
  obtain ⟨first, hfirst, hcount⟩ := hjob 0 (by decide)
  obtain ⟨last, hlast, hcount'⟩ := hjob 2 (by decide)
  obtain ⟨-, -, -, hlength, -⟩ := hworkers 0 first hfirst
  obtain ⟨-, -, -, hlength', -⟩ := hworkers 2 last hlast
  rw [hcount] at hlength
  rw [hcount'] at hlength'
  refine ⟨settings, events, haccepted, hsizes, hstride, hlength, hlength', ?_⟩
  intro event hevent other hother
  exact hdiffer 0 2 first last event other hfirst hlast (by decide) hevent hother

end Settings

end Volley
