import Volley.Pool.Schedule
import Volley.Proofs.Pool.Course
import Volley.Proofs.Scenario.Volume
import Volley.Proofs.Settings.EventIds
import Volley.Sink.Recorder

/-!
# Accepted configurations that cannot run

A configuration is accepted without a look at the rules that its scenarios have to keep; these are
checked when the run begins, on the scenarios that the workers are assigned. Three of the knobs have
a value with which some scenarios break a rule: duplicates need an interval, a burst in fragments
needs more than one event, and no number of events is beyond a capacity at the top of a word.
Nothing else in the catalogue can break a rule, and a scenario that is selected but that no worker
gets is not looked at.

## Main definitions

* `Scenario.Catalog.check`: whether the scenario of a name keeps the rules, and if not, which one
  it breaks.
* `Config.FirstDefect`: the first worker whose scenario breaks a rule.

## Main results

* `Scenario.Catalog.validate_build`: the validation of every entry, for all knobs.
* `Settings.validate_spec`: the validation of what a worker of an accepted configuration sends.
* `Settings.invalidScenario_iff_firstDefect`: which accepted configurations cannot run.
-/

namespace Volley

/-! ## The validation of the catalogue -/

namespace Scenario.Catalog

/-- Whether the scenario called `name` passes `validate`, by the `events` that each worker is asked
for, the `capacity` of the receiver's queue and the `interval` of duplicates. -/
def check (events capacity : UInt64) (interval : UInt32) (name : String) : Except Error Unit :=
  match name with
  | "duplicates" => if interval = 0 then .error (.zeroPeriod name) else .ok ()
  | "fragmented" => if events = 1 then .error (.singleFragment name) else .ok ()
  | "sticky" => if events = 1 then .error (.singleFragment name) else .ok ()
  | "overflow" =>
    if capacity.toNat = maxWord then .error (.overflowBelowCapacity name capacity capacity)
    else .ok ()
  | _ => .ok ()

/-- With at least two `frames`, a `.fragmented` entry fails `validate` only for `params.events = 1`.
-/
theorem validate_fragmented {frames : UInt64} (hframes : 2 ≤ frames) (mode : FragmentMode)
    (name : String) (params : Params) :
    (base (.fragmented frames mode) name params).validate =
      if params.events = 1 then .error (.singleFragment name) else .ok () := by
  have hmany : ¬ frames < 2 := UInt64.not_lt.mpr hframes
  have hrules : (base (.fragmented frames mode) name params).validate =
      if frames < 2 then .error (.tooFewFramesPerWrite name frames)
      else if params.events = 1 then .error (.singleFragment name) else .ok () := rfl
  rw [hrules, if_neg hmany]

/-- The catalogue's `overflow` fails `validate` only if `overflowCapacity` is `maxWord`; then it is
planned with as many events as its capacity. -/
theorem validate_overflow (name : String) (params : Params) :
    (overflow name params).validate =
      if params.overflowCapacity.toNat = maxWord then
        .error (.overflowBelowCapacity name params.overflowCapacity params.overflowCapacity)
      else .ok () := by
  have hrule : (overflow name params).validate =
      if (overflow name params).count ≤ params.overflowCapacity then
        .error (.overflowBelowCapacity name (overflow name params).count params.overflowCapacity)
      else .ok () := rfl
  rw [hrule]
  by_cases htop : params.overflowCapacity.toNat = maxWord
  · have hsame : (overflow name params).count = params.overflowCapacity := by
      have hevents := params.events.toNat_lt
      rw [← UInt64.toNat_inj, toNat_count_overflow]
      rw [maxWord] at htop ⊢
      omega
    rw [if_pos htop, hsame, if_pos (UInt64.le_refl _)]
  · have hbeyond : ¬ (overflow name params).count ≤ params.overflowCapacity :=
      UInt64.not_le.mpr (lt_count_overflow htop)
    rw [if_neg htop, if_neg hbeyond]

/-- What an entry builds of any `params` passes `validate` exactly as the `check` of its name says,
whatever `sizes`, `seed` and `pace` are. -/
theorem validate_build {entry : Entry} (h : entry ∈ entries) (params : Params) :
    (entry.build entry.name params).validate =
      check params.events params.overflowCapacity params.duplicateInterval entry.name := by
  have hall : ∀ entry ∈ entries, (entry.build entry.name params).validate =
      check params.events params.overflowCapacity params.duplicateInterval entry.name := by
    simp only [entries, List.forall_mem_cons]
    refine ⟨?sweep, rfl, rfl, ?fragmented, ?sticky, ?overflow, rfl, rfl, rfl, rfl, rfl, rfl,
      List.forall_mem_nil _⟩
    case sweep =>
      obtain ⟨repeats, -, -, hvalid⟩ := exists_sweep "sweep" params
      exact hvalid
    case fragmented => exact validate_fragmented (by decide) .split "fragmented" params
    case sticky => exact validate_fragmented (by decide) .sticky "sticky" params
    case overflow => exact validate_overflow "overflow" params
  exact hall entry h

/-- The entries that `select` returns have the names of `listItems`, in this order. -/
theorem names_of_select {names : String} {scenarios : List Entry}
    (h : select names = .ok scenarios) :
    scenarios.map Entry.name = (Text.listItems names.toList).map String.ofList := by
  unfold select at h
  generalize Text.listItems names.toList = items at h ⊢
  induction items generalizing scenarios with
  | nil =>
    cases h
    rfl
  | cons item rest ih =>
    unfold select.go at h
    split at h
    · cases h
    · next entry hentry =>
      split at h
      · cases h
      · next hrest =>
        cases h
        unfold find? at hentry
        have hname : entry.name = String.ofList item := by simpa using List.find?_some hentry
        rw [List.map_cons, List.map_cons, ih hrest, hname]

end Scenario.Catalog

/-! ## The first invalid job -/

/-- What `firstInvalid?` returns is the first job whose spec fails `validate`, with the `cause`; the
jobs before it pass. -/
theorem Pool.firstInvalid?_eq_some_iff {jobs : List Job} {worker : UInt64}
    {cause : Scenario.Error} :
    firstInvalid? jobs = some (worker, cause) ↔
      ∃ (number : Nat) (job : Job), jobs[number]? = some job ∧ job.workerId = worker ∧
        job.spec.validate = .error cause ∧
        ∀ earlier < number, ∀ other, jobs[earlier]? = some other →
          other.spec.validate = .ok () := by
  induction jobs with
  | nil => simp [firstInvalid?]
  | cons job rest ih =>
    cases hvalidate : job.spec.validate with
    | error rule =>
      -- The first job breaks a rule, so it is the one that is found, and no later one can be.
      have hfound : firstInvalid? (job :: rest) = some (job.workerId, rule) := by
        simp only [firstInvalid?, List.findSome?_cons, hvalidate]
      rw [hfound]
      constructor
      · intro hsame
        cases hsame
        exact ⟨0, job, rfl, rfl, hvalidate, fun earlier hlt => absurd hlt earlier.not_lt_zero⟩
      · rintro ⟨number, other, hat, rfl, hbreaks, hbefore⟩
        cases number with
        | zero =>
          cases hat
          rw [← Except.error.inj (hvalidate.symm.trans hbreaks)]
        | succ number =>
          have hkeeps := hbefore 0 number.succ_pos job rfl
          rw [hvalidate] at hkeeps
          cases hkeeps
    | ok =>
      -- The first job keeps the rules, and what is found among the rest moves up by one.
      have hrest : firstInvalid? (job :: rest) = firstInvalid? rest := by
        simp only [firstInvalid?, List.findSome?_cons, hvalidate]
      rw [hrest, ih]
      constructor
      · rintro ⟨number, other, hat, hworker, hbreaks, hbefore⟩
        refine ⟨number + 1, other, hat, hworker, hbreaks, fun earlier hlt before hearlier => ?_⟩
        cases earlier with
        | zero =>
          cases hearlier
          exact hvalidate
        | succ earlier =>
          exact hbefore earlier (Nat.lt_of_succ_lt_succ hlt) before hearlier
      · rintro ⟨number, other, hat, hworker, hbreaks, hbefore⟩
        cases number with
        | zero =>
          cases hat
          rw [hvalidate] at hbreaks
          cases hbreaks
        | succ number =>
          exact ⟨number, other, hat, hworker, hbreaks, fun earlier hlt =>
            hbefore (earlier + 1) (Nat.succ_lt_succ hlt)⟩

/-! ## What the workers are assigned -/

namespace Config

/-- The names of the scenarios that a `Config` selects. -/
def scenarioNames (config : Config) : List String :=
  (Text.listItems config.scenario.toList).map String.ofList

/-- The name of the scenario that `worker` is assigned: the workers take `scenarioNames` in turn. -/
def assigned (config : Config) (worker : Nat) : String :=
  config.scenarioNames.getD (worker % config.scenarioNames.length) ""

/-- The `Scenario.Catalog.check` of the scenario that `worker` is assigned. -/
def check (config : Config) (worker : Nat) : Except Scenario.Error Unit :=
  Scenario.Catalog.check config.eventsPerWorker config.overflowCapacity config.duplicateInterval
    (config.assigned worker)

/-- The first `worker` whose `check` fails, with the `cause`. -/
structure FirstDefect (config : Config) (worker : UInt64) (cause : Scenario.Error) : Prop where
  lt : worker.toNat < config.workers.toNat
  breaks : config.check worker.toNat = .error cause
  first : ∀ earlier < worker.toNat, config.check earlier = .ok ()

/-- If the `check` of some worker fails, there is a `FirstDefect`. -/
theorem exists_firstDefect {config : Config} {worker : Nat} {cause : Scenario.Error}
    (hworker : worker < config.workers.toNat) (hbreaks : config.check worker = .error cause) :
    ∃ first rule, config.FirstDefect first rule := by
  classical
  have hexists : ∃ worker, ∃ cause, config.check worker = .error cause :=
    ⟨worker, cause, hbreaks⟩
  obtain ⟨rule, hrule⟩ := Nat.find_spec hexists
  have hlt : Nat.find hexists < config.workers.toNat :=
    Nat.lt_of_le_of_lt (Nat.find_min' hexists ⟨cause, hbreaks⟩) hworker
  have hword := config.workers.toNat_lt
  have hnumber : (UInt64.ofNat (Nat.find hexists)).toNat = Nat.find hexists :=
    UInt64.toNat_ofNat_of_lt' (by simp only [UInt64.size]; omega)
  refine ⟨.ofNat (Nat.find hexists), rule, ?_, ?_, ?_⟩
  · rw [hnumber]
    exact hlt
  · rw [hnumber]
    exact hrule
  · intro earlier hearlier
    rw [hnumber] at hearlier
    have hkeeps := Nat.find_min hexists hearlier
    cases hcheck : config.check earlier with
    | ok => rfl
    | error other => exact absurd ⟨other, hcheck⟩ hkeeps

end Config

namespace Settings

variable {config : Config} {fallbackSeed : UInt64} {settings : Settings}

/-- The spec of a `worker` passes `validate` exactly as `config.check` says. -/
theorem validate_spec (h : ofConfig config fallbackSeed = .ok settings) (worker : Nat) :
    (settings.spec worker).validate = config.check worker := by
  have htakes := takes_of_ofConfig h
  have hassigned : (settings.scenarioOf worker).name = config.assigned worker := by
    have hnames : settings.scenarios.map Scenario.Entry.name = config.scenarioNames :=
      Scenario.Catalog.names_of_select htakes.select
    have hlength : config.scenarioNames.length = settings.scenarios.length := by
      rw [← hnames, List.length_map]
    have hlt : worker % settings.scenarios.length < settings.scenarios.length :=
      Nat.mod_lt _ settings.scenarios_length_pos
    rw [Config.assigned, hlength, ← hnames, List.getD_eq_getElem?_getD, List.getElem?_map,
      List.getElem?_eq_getElem hlt]
    rfl
  have hmem : settings.scenarioOf worker ∈ settings.scenarios := List.get_mem _ _
  rw [Config.check, ← hassigned, ← htakes.events, ← htakes.overflowCapacity,
    ← htakes.duplicateInterval]
  exact Scenario.Catalog.validate_build (Scenario.Catalog.mem_of_select htakes.select _ hmem)
    { settings.params with seed := settings.params.seed + UInt64.ofNat worker }

/-- Every `worker` below `settings.workers` has a job. -/
theorem exists_job {worker : Nat} (hworker : worker < settings.workers.toNat)
    (stream datagram : Address) : ∃ job, (settings.jobs stream datagram)[worker]? = some job := by
  have hlength : (settings.jobs stream datagram).length = settings.workers.toNat := by
    rw [jobs, List.length_map, List.length_range]
  exact ⟨_, List.getElem?_eq_getElem (hlength.symm ▸ hworker)⟩

/-- The `firstInvalid?` of the jobs is the `FirstDefect` of the configuration. -/
theorem firstInvalid?_jobs (h : ofConfig config fallbackSeed = .ok settings)
    (stream datagram : Address) (worker : UInt64) (cause : Scenario.Error) :
    Pool.firstInvalid? (settings.jobs stream datagram) = some (worker, cause) ↔
      config.FirstDefect worker cause := by
  have hworkers := (takes_of_ofConfig h).workers
  -- The jobs are numbered by their workers, so the first job is that of the first worker.
  have hvalidate : ∀ {number job}, (settings.jobs stream datagram)[number]? = some job →
      job.spec.validate = config.check number := by
    intro number job hat
    rw [(getElem?_jobs hat).2.2, validate_spec h]
  rw [Pool.firstInvalid?_eq_some_iff]
  constructor
  · rintro ⟨number, job, hat, rfl, hbreaks, hbefore⟩
    obtain ⟨hlt, hnumber, -⟩ := getElem?_jobs hat
    refine ⟨?_, ?_, fun earlier hearlier => ?_⟩
    · rw [hnumber, ← hworkers]
      exact hlt
    · rw [hnumber, ← hvalidate hat]
      exact hbreaks
    · rw [hnumber] at hearlier
      obtain ⟨other, hother⟩ := exists_job (Nat.lt_trans hearlier hlt) stream datagram
      rw [← hvalidate hother]
      exact hbefore earlier hearlier other hother
  · intro hfirst
    obtain ⟨job, hat⟩ := exists_job (hworkers ▸ hfirst.lt) stream datagram
    refine ⟨worker.toNat, job, hat, ?_, ?_, fun earlier hearlier other hother => ?_⟩
    · exact UInt64.toNat_inj.mp (getElem?_jobs hat).2.1
    · rw [hvalidate hat]
      exact hfirst.breaks
    · rw [hvalidate hother]
      exact hfirst.first earlier hearlier

end Settings

/-! ## Runs that fail before they begin -/

namespace Pool

variable {σ : Type}

/-- The `totals` of a pool are never `.invalidScenario`. -/
theorem totals_ne_invalidScenario (pool : Pool σ) (worker : UInt64) (cause : Scenario.Error) :
    pool.totals ≠ .error (.invalidScenario worker cause) := by
  unfold totals
  split <;> simp

variable [Sink σ]

/-- A `run` is `.invalidScenario` exactly if `firstInvalid?` of its jobs is this worker and cause.
-/
theorem run_eq_invalidScenario_iff (policy : Policy) (surroundings : Surroundings σ)
    (account : Account) (jobs : List Job) (worker : UInt64) (cause : Scenario.Error) :
    (run policy surroundings account jobs).1 = .error (.invalidScenario worker cause) ↔
      firstInvalid? jobs = some (worker, cause) := by
  unfold run
  cases hvalid : firstInvalid? jobs with
  | some broken =>
    obtain ⟨first, rule⟩ := broken
    simp
  | none => simp [totals_ne_invalidScenario]

namespace Course

/-- What a course has `returned` is what it had at the start, or the `totals` of some pool. -/
theorem returned_of_reaches {first last : Course σ} (h : first.Reaches last) :
    last.returned = first.returned ∨ ∃ pool : Pool σ, last.returned = some pool.totals := by
  induction h with
  | refl => exact .inl rfl
  | tail _ hmoves ih =>
    cases hmoves with
    | pass => exact ih
    | raise => exact ih
    | wake => exact ih
    | finish pool hend => exact .inr ⟨pool.sweep, rfl⟩

/-- A course that has `returned`, and has no `workers`, stays so, with its `tally`. -/
theorem idle_of_reaches {first last : Course σ} (h : first.Reaches last)
    (hreturned : first.returned.isSome = true) (hworkers : first.pool.workers = []) :
    last.returned = first.returned ∧ last.pool.workers = [] ∧
      last.pool.tally = first.pool.tally := by
  induction h with
  | refl => exact ⟨rfl, hworkers, rfl⟩
  | @tail course _ _ hmoves ih =>
    cases hmoves with
    | pass => exact ih
    | raise => exact ih
    | wake pool returned surroundings i =>
      have hnobody : pool.wake surroundings i = pool := by
        have hnone : pool.workers[i]? = none := by
          rw [show pool.workers = [] from ih.2.1]
          rfl
        simp only [wake, hnone]
      rw [hnobody]
      exact ih
    | finish pool hend =>
      rw [← ih.1] at hreturned
      cases hreturned

variable {policy : Policy} {tally : Tally} {jobs : List Job} {last : Course σ}

/-- What a course from `launch` has `returned` is `.invalidScenario` exactly if `firstInvalid?` of
the jobs is this worker and cause. -/
theorem returned_eq_invalidScenario_iff (h : (launch policy tally jobs).Reaches last)
    (worker : UInt64) (cause : Scenario.Error) :
    last.returned = some (.error (.invalidScenario worker cause)) ↔
      firstInvalid? jobs = some (worker, cause) := by
  cases hvalid : firstInvalid? jobs with
  | some broken =>
    obtain ⟨first, rule⟩ := broken
    simp only [launch, hvalid] at h
    rw [(idle_of_reaches h rfl rfl).1]
    simp
  | none =>
    simp only [launch, hvalid] at h
    rcases returned_of_reaches h with hrunning | ⟨pool, htotals⟩
    · rw [hrunning]
      simp
    · rw [htotals]
      simp [totals_ne_invalidScenario]

/-- If `firstInvalid?` finds a job, a course from `launch` never has `workers`, and its `tally`
stays as it is. -/
theorem idle_of_firstInvalid? (h : (launch policy tally jobs).Reaches last)
    (hinvalid : (firstInvalid? jobs).isSome = true) :
    last.pool.workers = [] ∧ last.pool.tally = tally := by
  obtain ⟨broken, hbroken⟩ := Option.isSome_iff_exists.mp hinvalid
  simp only [launch, hbroken] at h
  exact (idle_of_reaches h rfl rfl).2

end Course

end Pool

namespace Settings

/-- For a configuration that `ofConfig` accepts: an entry of the catalogue passes `validate` as
`check` of its name says, for all `params`. `Pool.run` and every `Pool.Course` return
`.invalidScenario` exactly if the `config.check` of some worker fails, and then for the
`FirstDefect`. There is no worker then, who could open a session, and the `account` stays as it is.
-/
theorem invalidScenario_iff_firstDefect {config : Config} {fallbackSeed : UInt64}
    {settings : Settings} (haccepted : ofConfig config fallbackSeed = .ok settings)
    (stream datagram : Address) :
    (∀ entry ∈ Scenario.Catalog.entries, ∀ params : Scenario.Params,
      (entry.build entry.name params).validate =
        Scenario.Catalog.check params.events params.overflowCapacity params.duplicateInterval
          entry.name) ∧
    ∀ {σ : Type} [Sink σ] (policy : Pool.Policy) (surroundings : Surroundings σ)
      (account : Pool.Account),
      let jobs := settings.jobs stream datagram
      let run := Pool.run policy surroundings account jobs
      let launched : Pool.Course σ := Pool.Course.launch policy account.tally jobs
      ((∃ worker cause, run.1 = .error (.invalidScenario worker cause)) ↔
        ∃ worker < config.workers.toNat, ∃ cause, config.check worker = .error cause) ∧
      ∀ worker cause,
        (run.1 = .error (.invalidScenario worker cause) ↔ config.FirstDefect worker cause) ∧
        (config.FirstDefect worker cause →
          run.2 = (account, Pool.start policy account.tally [])) ∧
        ∀ last, launched.Reaches last →
          (last.returned = some (.error (.invalidScenario worker cause)) ↔
            config.FirstDefect worker cause) ∧
          (config.FirstDefect worker cause →
            last.pool.workers = [] ∧ last.pool.tally = account.tally) := by
  refine ⟨fun entry hentry params => Scenario.Catalog.validate_build hentry params, ?_⟩
  intro σ hsink policy surroundings account jobs run launched
  have hinvalid := firstInvalid?_jobs haccepted stream datagram
  -- The run and its courses ask for the first invalid job, which is that of the first defect.
  have hblames : ∀ worker cause,
      run.1 = .error (.invalidScenario worker cause) ↔ config.FirstDefect worker cause :=
    fun worker cause =>
      (Pool.run_eq_invalidScenario_iff policy surroundings account jobs worker cause).trans
        (hinvalid worker cause)
  refine ⟨⟨?_, ?_⟩, fun worker cause => ⟨hblames worker cause, ?_, fun last hlast => ⟨?_, ?_⟩⟩⟩
  · rintro ⟨worker, cause, hrun⟩
    have hfirst := (hblames worker cause).mp hrun
    exact ⟨worker.toNat, hfirst.lt, cause, hfirst.breaks⟩
  · rintro ⟨worker, hworker, cause, hbreaks⟩
    obtain ⟨first, rule, hfirst⟩ := Config.exists_firstDefect hworker hbreaks
    exact ⟨first, rule, (hblames first rule).mpr hfirst⟩
  · intro hfirst
    simp only [run, jobs, Pool.run, (hinvalid worker cause).mpr hfirst]
  · exact (Pool.Course.returned_eq_invalidScenario_iff hlast worker cause).trans
      (hinvalid worker cause)
  · intro hfirst
    refine Pool.Course.idle_of_firstInvalid? hlast ?_
    rw [(hinvalid worker cause).mpr hfirst]
    rfl

/-- Workers that take a burst and duplicates in turn, with a `duplicateInterval` of zero. -/
def withoutInterval (workers : UInt32) : Config where
  workers
  scenario := "burst, duplicates"
  duplicateInterval := 0

/-- Of three workers the second one is the `FirstDefect`. A single worker is assigned the burst, and
it does not matter that the duplicates are selected, too. -/
theorem invalidScenario_second_worker :
    ∃ settings alone : Settings, ofConfig (withoutInterval 3) 7 = .ok settings ∧
      ofConfig (withoutInterval 1) 7 = .ok alone ∧
      (withoutInterval 3).FirstDefect 1 (.zeroPeriod "duplicates") ∧
      ∀ (policy : Pool.Policy) (surroundings : Surroundings Recorder) (account : Pool.Account),
        Pool.run policy surroundings account (settings.jobs "" "") =
          (.error (.invalidScenario 1 (.zeroPeriod "duplicates")), account,
            Pool.start policy account.tally []) ∧
        ∀ worker cause, (Pool.run policy surroundings account (alone.jobs "" "")).1 ≠
          .error (.invalidScenario worker cause) := by
  obtain ⟨settings, haccepted⟩ : ∃ settings, ofConfig (withoutInterval 3) 7 = .ok settings :=
    ⟨_, rfl⟩
  obtain ⟨alone, haccepted'⟩ : ∃ settings, ofConfig (withoutInterval 1) 7 = .ok settings :=
    ⟨_, rfl⟩
  have hkeeps : ∀ workers, (withoutInterval workers).check 0 = .ok () := by
    intro workers
    cbv
  have hfirst : (withoutInterval 3).FirstDefect 1 (.zeroPeriod "duplicates") := by
    refine ⟨by decide, rfl, fun earlier hearlier => ?_⟩
    obtain rfl : earlier = 0 := Nat.lt_one_iff.mp hearlier
    exact hkeeps 3
  refine ⟨settings, alone, haccepted, haccepted', hfirst, ?_⟩
  intro policy surroundings account
  constructor
  · obtain ⟨-, hruns⟩ := invalidScenario_iff_firstDefect haccepted "" ""
    obtain ⟨hblames, hnothing, -⟩ :=
      (hruns policy surroundings account).2 1 (.zeroPeriod "duplicates")
    exact Prod.ext (hblames.mpr hfirst) (hnothing hfirst)
  · intro worker cause hrun
    obtain ⟨-, hruns⟩ := invalidScenario_iff_firstDefect haccepted' "" ""
    obtain ⟨number, hnumber, rule, hbreaks⟩ :=
      (hruns policy surroundings account).1.mp ⟨worker, cause, hrun⟩
    obtain rfl : number = 0 := Nat.lt_one_iff.mp hnumber
    rw [hkeeps 1] at hbreaks
    cases hbreaks

end Settings

end Volley
