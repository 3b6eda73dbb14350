import Mathlib.Algebra.Order.Floor.Ring
import Mathlib.Data.Rat.Floor
import SmoothDemon.Pacer.Estimate

/-!
# The wakeup in closed form

Where the clock and the anchor leave room below 2 ^ 64, `CalculateNextWakeup` computes in exact
arithmetic (`NoWrap`) and its catch-up loop is a rounded-up division (`calculateNextWakeup_exact`).
The loop needs a positive interval for that, and the interval is positive only for rates up to
10^9 Hz: beyond them it leaves only when it need not run at all (`terminates_iff`).
-/

namespace SmoothDemon.PresentationPacer

open Loop

/-- No sum and no difference that `CalculateNextWakeup(now)` computes wraps: the reserved time, the
first target, the deadline, the next target of every round it runs, and the wakeup. -/
structure NoWrap (p : PresentationPacer) (now : UInt64) : Prop where
  offset : p.rollingMaxDrawTimeNs.toNat + p.redZoneNs.toNat < 2 ^ 64
  first : p.lastVBlankNs.toNat + p.refreshIntervalNs.toNat < 2 ^ 64
  deadline : now.toNat + p.offsetNs.toNat < 2 ^ 64
  round : ∀ m, (∀ j ≤ m, p.visited j < now + p.offsetNs) →
    (p.visited m).toNat + p.refreshIntervalNs.toNat < 2 ^ 64
  wakeup : ∀ m, (∀ j < m, p.visited j < now + p.offsetNs) → ¬ p.visited m < now + p.offsetNs →
    p.offsetNs ≤ p.visited m

section Rounds

variable {p : PresentationPacer} {now : UInt64} {n : ℕ}

theorem Rounds.noWrap (h : p.Rounds now n) (fits : p.FitsU64 now) : p.NoWrap now where
  offset := fits.offset
  first := fits.first
  deadline := by
    rw [toNat_offsetNs fits.offset]
    exact fits.deadline
  round m running := by
    have before : m < n := by
      by_contra past
      exact h.due (running n (by omega))
    have next : (m + 1 + 1) * p.refreshIntervalNs.toNat ≤ (n + 1) * p.refreshIntervalNs.toNat :=
      Nat.mul_le_mul_right _ (by omega)
    have inRange := h.inRange
    rw [h.exactly m before.le]
    rw [Nat.succ_mul (m + 1)] at next
    omega
  wakeup m running left := by
    have last : m = n := by
      rcases lt_trichotomy m n with lt | eq | gt
      · exact absurd (h.early m lt) left
      · exact eq
      · exact absurd (running n gt) h.due
    rw [last]
    exact h.offset_le fits.offset

/-- The least `k ≥ 1` with `now + offset ≤ V + k * I`. -/
theorem Rounds.isLeast (h : p.Rounds now n) :
    IsLeast {k : ℕ | 1 ≤ k ∧
      now.toNat + p.offset ≤ p.lastVBlankNs.toNat + k * p.refreshIntervalNs.toNat} (n + 1) := by
  refine ⟨⟨Nat.le_add_left 1 n, h.least.1⟩, ?_⟩
  rintro k ⟨one, due⟩
  obtain ⟨m, rfl⟩ := Nat.exists_eq_add_of_le' one
  have le : n ≤ m := h.least.2 due
  omega

end Rounds

/-- The least multiple of the interval that covers a stretch of time is a division rounded up. -/
theorem eq_max_ceil {V I D k : ℕ} (positive : 0 < I)
    (h : IsLeast {k : ℕ | 1 ≤ k ∧ D ≤ V + k * I} k) :
    (k : ℤ) = max 1 ⌈((D : ℚ) - V) / I⌉ := by
  have covers (m : ℕ) : D ≤ V + m * I ↔ ⌈((D : ℚ) - V) / I⌉ ≤ m := by
    have pos : (0 : ℚ) < I := Nat.cast_pos.2 positive
    rw [Int.ceil_le, div_le_iff₀ pos, sub_le_iff_le_add']
    exact_mod_cast Iff.rfl
  obtain ⟨⟨one, due⟩, least⟩ := h
  apply le_antisymm
  · have nonneg : (0 : ℤ) ≤ max 1 ⌈((D : ℚ) - V) / I⌉ := le_max_of_le_left zero_le_one
    obtain ⟨m, hm⟩ := Int.eq_ofNat_of_zero_le nonneg
    rw [hm, Nat.cast_le]
    refine least ⟨?_, (covers m).2 ?_⟩
    · have := le_max_left 1 ⌈((D : ℚ) - V) / I⌉
      omega
    · rw [← hm]
      exact le_max_right _ _
  · exact max_le (Nat.one_le_cast.2 one) ((covers k).1 due)

/-- With a positive interval and room for one more of it above the deadline and above the anchor,
the call returns, nothing in it wraps, and the wakeup is the reserved time before the VBlank that
the rounded-up division selects. -/
theorem calculateNextWakeup_exact (p : PresentationPacer) (now : UInt64)
    (positive : 0 < p.refreshIntervalNs)
    (first : p.lastVBlankNs.toNat + p.refreshIntervalNs.toNat < 2 ^ 64)
    (bound : now.toNat + p.offset + p.refreshIntervalNs.toNat < 2 ^ 64) :
    p.NoWrap now ∧ ∃ (w : UInt64) (k : ℕ), p.calculateNextWakeup now = some w ∧
      IsLeast {k : ℕ | 1 ≤ k ∧
        now.toNat + p.offset ≤ p.lastVBlankNs.toNat + k * p.refreshIntervalNs.toNat} k ∧
      (k : ℤ) = max 1 ⌈(((now.toNat + p.offset : ℕ) : ℚ) - p.lastVBlankNs.toNat) /
        p.refreshIntervalNs.toNat⌉ ∧
      (w.toNat : ℤ) = p.lastVBlankNs.toNat + k * p.refreshIntervalNs.toNat - p.offset ∧
      now ≤ w ∧
      (p.lastVBlankNs.toNat ≤ now.toNat + p.offset →
        w.toNat ≤ now.toNat + p.refreshIntervalNs.toNat) := by
  have fits : p.FitsU64 now := .of_bound first bound
  obtain ⟨n, rounds⟩ := exists_rounds positive fits
  have aims := rounds.toNat_wakeup fits.offset
  have least := rounds.isLeast
  have reached : now.toNat + p.offset ≤ _ := rounds.least.1
  refine ⟨rounds.noWrap fits, _, n + 1, rounds.returned, least,
    eq_max_ceil (UInt64.lt_iff_toNat_lt.1 positive) least, ?_, ?_, fun anchor => ?_⟩
  · have exactly := congrArg (Nat.cast : ℕ → ℤ) aims
    push_cast at exactly ⊢
    linarith
  · rw [UInt64.le_iff_toNat_le]
    omega
  · -- one interval less would have been too early, unless the first target was already due
    cases n with
    | zero => omega
    | succ m =>
      have early : ¬ now.toNat + p.offset ≤
          p.lastVBlankNs.toNat + (m + 1) * p.refreshIntervalNs.toNat := fun due =>
        absurd (rounds.least.2 due) (by omega)
      rw [Nat.succ_mul (m + 1)] at aims
      omega

theorem calculateNextWakeup_exact_sixty : (construct 60).NoWrap 20000000 ∧
    ∃ w, (construct 60).calculateNextWakeup 20000000 = some w ∧ 20000000 ≤ w := by
  obtain ⟨noWrap, w, k, returned, -, -, -, future, -⟩ :=
    calculateNextWakeup_exact (construct 60) 20000000 (by decide) (by decide) (by decide)
  exact ⟨noWrap, w, returned, future⟩

/-! ### Termination -/

theorem refreshHzToIntervalNs_pos_iff (hz : Int32) :
    0 < refreshHzToIntervalNs hz ↔ hz ≤ 1000000000 := by
  have bound : hz ≤ 1000000000 ↔ hz.toInt ≤ 1000000000 := Int32.le_iff_toInt_le
  rw [UInt64.lt_iff_toNat_lt, UInt64.toNat_zero, bound, toNat_refreshHzToIntervalNs]
  split_ifs with negative
  · exact iff_of_true (by decide) (by omega)
  · rw [Nat.div_pos_iff]
    omega

/-- With the interval 0 every target is the anchor, so the loop leaves at once or never. -/
theorem returns_iff_of_zero {p : PresentationPacer} {now : UInt64} (zero : p.refreshIntervalNs = 0)
    (bound : now.toNat + p.offset < 2 ^ 64) :
    (∃ w, p.calculateNextWakeup now = some w) ↔
      now.toNat + p.offset ≤ p.lastVBlankNs.toNat := by
  have still (m : ℕ) : p.visited m = p.lastVBlankNs := by
    rw [visited, zero]
    simp only [UInt64.add_zero]
    exact Function.iterate_fixed rfl m
  have due : ¬ p.visited 0 < now + p.offsetNs ↔ now.toNat + p.offset ≤ p.lastVBlankNs.toNat := by
    rw [still, UInt64.lt_iff_toNat_lt, toNat_deadline bound, not_lt]
  rw [← due]
  constructor
  · rintro ⟨w, returned⟩
    obtain ⟨n, ⟨-, left⟩, -⟩ := (p.calculateNextWakeup_eq_some_iff now w).1 returned
    have out : ¬ p.visited n < now + p.offsetNs := of_decide_eq_false left
    rwa [still n, ← still 0] at out
  · intro left
    refine ⟨_, (p.calculateNextWakeup_eq_some_iff now _).2 ⟨0, ⟨fun m hm => ?_, ?_⟩, rfl⟩⟩
    · exact absurd hm (Nat.not_lt_zero m)
    · exact decide_eq_false left

/-- Whatever the anchor, the estimate, the red zone and the clock: for an interval computed from the
rate `hz` the loop ends iff the rate is at most 10^9 Hz or there is nothing to catch up with. -/
theorem terminates_iff (hz : Int32) (p : PresentationPacer) (now : UInt64)
    (rate : p.refreshIntervalNs = refreshHzToIntervalNs hz)
    (first : p.lastVBlankNs.toNat + p.refreshIntervalNs.toNat < 2 ^ 64)
    (bound : now.toNat + p.offset + p.refreshIntervalNs.toNat < 2 ^ 64) :
    (0 < p.refreshIntervalNs ↔ hz ≤ 1000000000) ∧
      ((∃ w, p.calculateNextWakeup now = some w) ↔
        hz ≤ 1000000000 ∨ now.toNat + p.offset ≤ p.lastVBlankNs.toNat) := by
  have positive : 0 < p.refreshIntervalNs ↔ hz ≤ 1000000000 :=
    rate ▸ refreshHzToIntervalNs_pos_iff hz
  refine ⟨positive, ?_⟩
  by_cases inRange : hz ≤ 1000000000
  · obtain ⟨w, returned, -⟩ :=
      calculateNextWakeup_spec (positive.2 inRange) (.of_bound first bound)
    exact iff_of_true ⟨w, returned⟩ (.inl inRange)
  · have zero : p.refreshIntervalNs = 0 := by
      have none := mt positive.1 inRange
      rw [UInt64.lt_iff_toNat_lt, UInt64.toNat_zero] at none
      rw [← UInt64.toNat_inj, UInt64.toNat_zero]
      omega
    rw [returns_iff_of_zero zero (by omega)]
    exact ⟨.inr, fun h => h.resolve_left inRange⟩

theorem terminates_iff_sixty : ∃ w, (construct 60).calculateNextWakeup 0 = some w :=
  (terminates_iff 60 (construct 60) 0 rfl (by decide) (by decide)).2.2 (.inl (by decide))

/-- A rate of 2 GHz makes the interval 0 and the loop endless. -/
theorem not_terminates : ¬ ∀ (hz : Int32) (p : PresentationPacer) (now : UInt64),
    p.refreshIntervalNs = refreshHzToIntervalNs hz →
    p.lastVBlankNs.toNat + p.refreshIntervalNs.toNat < 2 ^ 64 →
    now.toNat + p.offset + p.refreshIntervalNs.toNat < 2 ^ 64 →
    ∃ w, p.calculateNextWakeup now = some w := by
  intro claim
  have returned := claim 2000000000 (construct 2000000000) 0 rfl (by decide) (by decide)
  have caughtUp := (returns_iff_of_zero (by decide) (by decide)).1 returned
  exact absurd caughtUp (by decide)

end SmoothDemon.PresentationPacer
