import Mathlib.Algebra.Order.Floor.Div
import Mathlib.Order.Bounds.Defs
import Volley.Proofs.Scenario.Sweeping

/-!
# How many events the catalogue plans

Every worker is asked for a number of events, and most entries of the catalogue plan exactly so
many. An overflow plans more if that is needed to go beyond the capacity. A sweep rounds up to whole
passes, but a pair can only be repeated as often as a word of 32 bits can say: with more events than
so many passes have, it plans fewer events than it is asked for.

## Main definitions

* `Scenario.Catalog.sweepLimit`: the most events that a sweep can plan.

## Main results

* `Scenario.Catalog.isLeast_count_sweep`: up to this limit a sweep rounds up.
* `Scenario.Catalog.lt_count_overflow`: an overflow goes beyond its capacity.
* `Scenario.Catalog.le_count_build_iff`: which entries plan as many events as they are asked for.
-/

namespace Volley.Scenario.Catalog

/-- The most events that a sweep can plan: `TopicSet.all.pairs` for each pass, and as many passes as
`repeats` can say. -/
def sweepLimit : Nat :=
  TopicSet.all.pairs * 0xFFFFFFFF

variable {params : Params} {name : String}

/-! ## Sweeps -/

/-- The passes that `params.events` take are at most `0xFFFFFFFF` exactly if `params.events` are at
most `sweepLimit`. -/
theorem passes_le_iff :
    params.events.toNat ⌈/⌉ TopicSet.all.pairs ≤ 0xFFFFFFFF ↔ params.events.toNat ≤ sweepLimit :=
  ceilDiv_le_iff_le_mul (by decide)

theorem count_sweep_eq :
    (sweep name params).count.toNat =
      TopicSet.all.pairs * min (params.events.toNat ⌈/⌉ TopicSet.all.pairs) 0xFFFFFFFF :=
  toNat_count_sweep name params

/-- The least multiple of `d` that is at least `n` is `d` times the quotient rounded up. -/
theorem isLeast_mul_ceilDiv {d : Nat} (hd : 0 < d) (n : Nat) :
    IsLeast {m | d ∣ m ∧ n ≤ m} (d * (n ⌈/⌉ d)) := by
  refine ⟨⟨Nat.dvd_mul_right _ _, ?_⟩, ?_⟩
  · exact (ceilDiv_le_iff_le_mul hd).mp le_rfl
  · rintro m ⟨⟨q, rfl⟩, hle⟩
    exact Nat.mul_le_mul_left _ ((ceilDiv_le_iff_le_mul hd).mpr hle)

/-- Up to `sweepLimit`, the `count` of the catalogue's `sweep` is the least number of whole passes
that has all of `params.events`. -/
theorem isLeast_count_sweep (h : params.events.toNat ≤ sweepLimit) :
    IsLeast {n | TopicSet.all.pairs ∣ n ∧ params.events.toNat ≤ n}
      (sweep name params).count.toNat := by
  rw [count_sweep_eq, Nat.min_eq_left (passes_le_iff.mpr h)]
  exact isLeast_mul_ceilDiv (by decide) params.events.toNat

/-- With more events than `sweepLimit`, the `count` of the catalogue's `sweep` stays at this limit.
-/
theorem count_sweep_of_lt (h : sweepLimit < params.events.toNat) :
    (sweep name params).count.toNat = sweepLimit := by
  have hmany : 0xFFFFFFFF < params.events.toNat ⌈/⌉ TopicSet.all.pairs := by
    rw [← Nat.not_le, passes_le_iff, Nat.not_le]
    exact h
  rw [count_sweep_eq, Nat.min_eq_right hmany.le]
  rfl

/-! ## Overflows -/

/-- The `count` of the catalogue's `overflow`: at least `params.events`, and beyond its capacity by
a quarter and by one, up to `maxWord`. -/
theorem toNat_count_overflow (name : String) (params : Params) :
    (overflow name params).count.toNat = max params.events.toNat
      (max (min (params.overflowCapacity.toNat + params.overflowCapacity.toNat / 4) maxWord)
        (min (params.overflowCapacity.toNat + 1) maxWord)) := by
  rw [← toNat_saturate, ← toNat_saturate, ← UInt64.toNat_max, ← UInt64.toNat_max]
  rfl

/-- The `count` of the catalogue's `overflow` is above `overflowCapacity`, unless that is `maxWord`.
-/
theorem lt_count_overflow (h : params.overflowCapacity.toNat ≠ maxWord) :
    params.overflowCapacity < (overflow name params).count := by
  have hcapacity := params.overflowCapacity.toNat_lt
  rw [UInt64.lt_iff_toNat_lt, toNat_count_overflow]
  rw [maxWord] at h ⊢
  omega

/-! ## The catalogue -/

/-- An entry of the catalogue is `sweep` or `overflow`, or its `count` is `params.events`. -/
theorem build_cases {entry : Entry} (h : entry ∈ entries) :
    (entry.name = "sweep" ∧ entry.build = sweep) ∨
      (entry.name = "overflow" ∧ entry.build = overflow) ∨
      (entry.name ≠ "sweep" ∧ entry.name ≠ "overflow" ∧
        ∀ name params, (entry.build name params).count = params.events) := by
  have hall : ∀ entry ∈ entries, (entry.name = "sweep" ∧ entry.build = sweep) ∨
      (entry.name = "overflow" ∧ entry.build = overflow) ∨
      (entry.name ≠ "sweep" ∧ entry.name ≠ "overflow" ∧
        ∀ name params, (entry.build name params).count = params.events) := by
    simp only [entries, List.forall_mem_cons]
    refine ⟨.inl ⟨trivial, trivial⟩, ?_, ?_, ?_, ?_, .inr (.inl ⟨trivial, trivial⟩), ?_, ?_, ?_, ?_,
      ?_, ?_, List.forall_mem_nil _⟩
    all_goals exact .inr (.inr ⟨by decide, by decide, fun _ _ => rfl⟩)
  exact hall entry h

/-- An entry of the catalogue has at least `params.events` as its `count`, except for the sweep,
which does so exactly up to `sweepLimit`. Up to there its `count` is the least multiple of `pairs`
that is enough, and beyond it is `sweepLimit`. The `count` of the overflow is above
`overflowCapacity`, unless that is `maxWord`. -/
theorem le_count_build_iff {entry : Entry} (h : entry ∈ entries) (params : Params) :
    let spec := entry.build entry.name params
    (params.events ≤ spec.count ↔
      (entry.name = "sweep" → params.events.toNat ≤ sweepLimit)) ∧
    (entry.name = "sweep" →
      (params.events.toNat ≤ sweepLimit →
        IsLeast {n | spec.topics.pairs ∣ n ∧ params.events.toNat ≤ n} spec.count.toNat) ∧
      (sweepLimit < params.events.toNat → spec.count.toNat = sweepLimit)) ∧
    (entry.name = "overflow" → params.overflowCapacity.toNat < maxWord →
      params.overflowCapacity < spec.count) := by
  intro spec
  rcases build_cases h with ⟨hname, hbuild⟩ | ⟨hname, hbuild⟩ | ⟨hsweep, hoverflow, hcount⟩
  · have hspec : spec = sweep "sweep" params := by rw [← hname, ← hbuild]
    rw [hspec, hname, UInt64.le_iff_toNat_le]
    refine ⟨⟨fun hle _ => ?_, fun hlimit => ?_⟩, fun _ => ⟨fun hlimit => ?_, ?_⟩, ?_⟩
    · -- Beyond its limit the sweep plans fewer events than it is asked for.
      by_contra hbeyond
      have hlimit := Nat.lt_of_not_le hbeyond
      rw [count_sweep_of_lt hlimit] at hle
      omega
    · exact (isLeast_count_sweep (hlimit rfl)).1.2
    · exact isLeast_count_sweep hlimit
    · exact count_sweep_of_lt
    · intro hother
      exact absurd hother (by decide)
  · have hspec : spec = overflow "overflow" params := by rw [← hname, ← hbuild]
    have hevents : params.events ≤ (overflow "overflow" params).count := by
      rw [UInt64.le_iff_toNat_le, toNat_count_overflow]
      exact Nat.le_max_left _ _
    rw [hspec, hname]
    exact ⟨iff_of_true hevents fun hother => absurd hother (by decide),
      fun hother => absurd hother (by decide), fun _ hroom => lt_count_overflow hroom.ne⟩
  · refine ⟨iff_of_true ?_ fun hother => absurd hother hsweep, fun hother => absurd hother hsweep,
      fun hother => absurd hother hoverflow⟩
    rw [show spec.count = params.events from hcount _ _]
    exact UInt64.le_refl _

/-- Parameters with so many `events`, and the usual values for the rest. -/
def asking (events : UInt64) : Params where
  events
  sizes := .single 256
  seed := 0
  pace := .zero
  overflowCapacity := 16384
  duplicateInterval := 10

/-- With one event more than all passes but the last have, the sweep's `count` is one pass more,
which is `sweepLimit`. -/
theorem le_count_build_iff_last_pass :
    ∃ entry ∈ entries, entry.name = "sweep" ∧
      (asking 450971565871).events.toNat = sweepLimit - 105 + 1 ∧
      IsLeast {n | 105 ∣ n ∧ 450971565871 ≤ n}
        (entry.build entry.name (asking 450971565871)).count.toNat ∧
      (entry.build entry.name (asking 450971565871)).count.toNat = sweepLimit := by
  have hentry : ⟨"sweep", _, sweep⟩ ∈ entries := List.mem_cons_self
  obtain ⟨-, hsweep, -⟩ := le_count_build_iff hentry (asking 450971565871)
  exact ⟨_, hentry, rfl, rfl, (hsweep rfl).1 (by decide), rfl⟩

/-- With one event more than `sweepLimit`, the sweep's `count` is one less than the `events` it is
asked for. -/
theorem count_lt_of_sweep_beyond_limit :
    ∃ entry ∈ entries, entry.name = "sweep" ∧
      (entry.build entry.name (asking 450971565976)).count = 450971565975 ∧
      ¬ (asking 450971565976).events ≤
        (entry.build entry.name (asking 450971565976)).count :=
  ⟨⟨"sweep", _, sweep⟩, List.mem_cons_self, rfl, rfl, by decide⟩

end Volley.Scenario.Catalog
