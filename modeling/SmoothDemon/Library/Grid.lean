import Mathlib.Algebra.Order.Monoid.Defs
import Mathlib.Algebra.Order.Monoid.Unbundled.Pow
import Mathlib.Order.Bounds.Basic

/-!
# Periodic grids

The ticks of a clock with a given period after an anchor, and the first tick not before a deadline.
Anchoring the clock at one of its own ticks keeps its phase (`mem_ticks_trans`); anchoring it at
another instant keeps the phase exactly under the condition of `advances_iff`.
-/

namespace Grid

section Ticks

variable {M : Type*} [AddCommMonoid M] {anchor period t t' : M}

/-- The instants one, two, three, ... periods after the anchor. -/
def ticks (anchor period : M) : Set M := {t | ∃ k : ℕ, t = anchor + (k + 1) • period}

theorem first_mem_ticks : anchor + period ∈ ticks anchor period :=
  ⟨0, congrArg (anchor + ·) (one_nsmul period).symm⟩

theorem mem_ticks_trans (h : t ∈ ticks anchor period) (h' : t' ∈ ticks t period) :
    t' ∈ ticks anchor period := by
  obtain ⟨k, rfl⟩ := h
  obtain ⟨l, rfl⟩ := h'
  refine ⟨k + l + 1, ?_⟩
  rw [add_assoc, ← add_nsmul]
  congr 2
  omega

private theorem nsmul_split {k m : ℕ} (h : m ≤ k) (period : M) :
    k • period = m • period + (k - m) • period := by
  rw [← add_nsmul, Nat.add_sub_cancel' h]

end Ticks

section Next

variable {M : Type*} [AddCommMonoid M] [LinearOrder M] {anchor period deadline t t' : M}

/-- `t` is the first tick at or after the deadline. -/
def IsNextTick (anchor period deadline t : M) : Prop :=
  IsLeast {t | t ∈ ticks anchor period ∧ deadline ≤ t} t

/-- `t'` follows `t` on the grid through `t`, and at once when the deadline leaves time for it. -/
def Advances (period deadline t t' : M) : Prop :=
  t' ∈ ticks t period ∧ (deadline ≤ t + period → t' = t + period)

namespace IsNextTick

theorem mem (h : IsNextTick anchor period deadline t) : t ∈ ticks anchor period := h.1.1

theorem le (h : IsNextTick anchor period deadline t) : deadline ≤ t := h.1.2

/-- The next tick lies before an instant iff some tick does that is not before the deadline. -/
theorem lt_iff (h : IsNextTick anchor period deadline t) (x : M) :
    t < x ↔ ∃ u ∈ ticks anchor period, deadline ≤ u ∧ u < x := by
  constructor
  · intro hx
    exact ⟨t, h.mem, h.le, hx⟩
  · rintro ⟨u, mem, due, hx⟩
    exact (h.2 ⟨mem, due⟩).trans_lt hx

end IsNextTick

end Next

section Ordered

variable {M : Type*} [AddCommMonoid M] [LinearOrder M] [IsOrderedCancelAddMonoid M]
variable {anchor period deadline offset t t' : M}

theorem lt_of_mem_ticks (positive : 0 < period) (h : t ∈ ticks anchor period) : anchor < t := by
  obtain ⟨k, rfl⟩ := h
  exact lt_add_of_pos_right anchor (nsmul_pos positive (Nat.succ_ne_zero k))

theorem first_le_of_mem_ticks (positive : 0 < period) (h : t ∈ ticks anchor period) :
    anchor + period ≤ t := by
  obtain ⟨k, rfl⟩ := h
  have one : 1 • period ≤ (k + 1) • period := nsmul_le_nsmul_left positive.le (by omega)
  rw [one_nsmul] at one
  gcongr

/-- No tick is skipped when there is time for the next one. -/
theorem IsNextTick.eq_first (h : IsNextTick anchor period deadline t) (positive : 0 < period)
    (early : deadline ≤ anchor + period) : t = anchor + period :=
  le_antisymm (h.2 ⟨first_mem_ticks, early⟩) (first_le_of_mem_ticks positive h.mem)

/-- It is at most a period away from the anchor or from the deadline. -/
theorem IsNextTick.le_max_add (h : IsNextTick anchor period deadline t) (positive : 0 < period) :
    t ≤ max anchor deadline + period := by
  obtain ⟨k, hk⟩ := h.mem
  cases k with
  | zero =>
    have first : t = anchor + period := hk.trans (congrArg (anchor + ·) (one_nsmul period))
    rw [first]
    gcongr
    exact le_max_left _ _
  | succ k =>
    -- one period less would have been a tick before the deadline
    have split : t = anchor + (k + 1) • period + period := by
      rw [hk, succ_nsmul, add_assoc]
    have early : anchor + (k + 1) • period < deadline := by
      by_contra due
      have least := h.2 ⟨⟨k, rfl⟩, not_lt.1 due⟩
      rw [split] at least
      exact absurd least (not_le.2 (lt_add_of_pos_right _ positive))
    rw [split]
    gcongr
    exact early.le.trans (le_max_right _ _)

theorem IsNextTick.advances (h : IsNextTick t period deadline t') (positive : 0 < period) :
    Advances period deadline t t' :=
  ⟨h.mem, h.eq_first positive⟩

/-- A clock whose anchor lies `offset` before `t` advances past `t` in phase iff the offset is zero,
or is a whole number of periods while the deadline has moved beyond `t`. -/
theorem advances_iff (positive : 0 < period) (nonneg : 0 ≤ offset) (back : anchor + offset = t)
    (h : IsNextTick anchor period deadline t') :
    Advances period deadline t t' ↔
      offset = 0 ∨ (∃ q : ℕ, offset = q • period) ∧ t < deadline := by
  obtain ⟨k, hk⟩ := h.mem
  constructor
  · rintro ⟨⟨m, hm⟩, -⟩
    rcases nonneg.eq_or_lt with zero | pos
    · exact Or.inl zero.symm
    have balance : (k + 1) • period = offset + (m + 1) • period := by
      have both : anchor + (k + 1) • period = anchor + (offset + (m + 1) • period) := by
        rw [← hk, hm, ← back, add_assoc]
      exact add_left_cancel both
    have more : m + 1 ≤ k + 1 := by
      by_contra less
      have shrink : (k + 1) • period ≤ (m + 1) • period :=
        nsmul_le_nsmul_left positive.le (by omega)
      rw [balance] at shrink
      exact absurd shrink (not_le.2 (lt_add_of_pos_left _ pos))
    have multiple : offset = (k + 1 - (m + 1)) • period := by
      rw [nsmul_split more period, add_comm] at balance
      exact (add_right_cancel balance).symm
    refine Or.inr ⟨⟨_, multiple⟩, ?_⟩
    by_contra late
    -- then `t` itself is a tick of the shifted clock and the clock stops there
    obtain ⟨q, hq⟩ : ∃ q : ℕ, k + 1 - (m + 1) = q + 1 :=
      Nat.exists_eq_succ_of_ne_zero fun z => by
        rw [multiple, z, zero_nsmul] at pos
        exact absurd pos (lt_irrefl 0)
    have tick : t ∈ ticks anchor period := ⟨q, by rw [← back, multiple, hq]⟩
    have before : t' ≤ t := h.2 ⟨tick, not_lt.1 late⟩
    exact absurd before (not_le.2 (lt_of_mem_ticks positive ⟨m, hm⟩))
  · rintro (zero | ⟨⟨q, multiple⟩, late⟩)
    · rw [zero, add_zero] at back
      subst back
      exact h.advances positive
    have beyond : q • period < (k + 1) • period := by
      have shifted : anchor + q • period < anchor + (k + 1) • period := by
        rw [← multiple, back, ← hk]
        exact late.trans_le h.le
      exact lt_of_add_lt_add_left shifted
    have more : q < k + 1 := lt_of_not_ge fun ge =>
      absurd (nsmul_le_nsmul_left positive.le ge) (not_le.2 beyond)
    have mem : t' ∈ ticks t period := by
      refine ⟨k - q, ?_⟩
      rw [hk, ← back, multiple, add_assoc, ← add_nsmul]
      congr 2
      omega
    refine ⟨mem, fun early => ?_⟩
    have next : t + period ∈ ticks anchor period :=
      ⟨q, by rw [← back, multiple, add_assoc, succ_nsmul]⟩
    exact le_antisymm (h.2 ⟨next, early⟩) (first_le_of_mem_ticks positive mem)

end Ordered

end Grid
