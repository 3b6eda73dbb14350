import Mathlib.Algebra.Order.Floor.Semiring
import Mathlib.Algebra.Order.Field.Basic
import Mathlib.Data.List.Sort
import Mathlib.Order.Bounds.Basic
import Mathlib.Tactic.Linarith

/-!
# Nearest ranks

The nearest-rank percentile of a list of samples: the least sample that the given share of them does
not exceed.  In ascending order it stands at the rounded-up rank, counted from one
(`isNearestRank_getElem`); the sample after it has the same value iff the samples are tied there
(`getElem_eq_iff_tied`).
-/

namespace Samples

section Sorted

variable {K : Type*} [LinearOrder K] {s : List K}

/-- In ascending order the samples below a bound come first. -/
theorem getElem_iff_lt_countP (sorted : s.Pairwise (· ≤ ·)) {p : K → Prop} [DecidablePred p]
    (below : ∀ x y, x ≤ y → p y → p x) {i : ℕ} (hi : i < s.length) :
    p s[i] ↔ i < s.countP (fun x => p x) := by
  induction s generalizing i with
  | nil => exact absurd hi (Nat.not_lt_zero i)
  | cons x s ih =>
    obtain ⟨least, sorted⟩ := List.pairwise_cons.1 sorted
    rw [List.countP_cons]
    by_cases first : p x
    · cases i with
      | zero => simp [first]
      | succ i =>
        rw [List.getElem_cons_succ, ih sorted (by simpa using hi)]
        simp [first]
    · have none : s.countP (fun x => p x) = 0 := by
        rw [List.countP_eq_zero]
        intro y hy later
        exact first (below x y (least y hy) (of_decide_eq_true later))
      cases i with
      | zero => simp [first, none]
      | succ i =>
        have shorter : i < s.length := by simpa using hi
        have above : ¬ p s[i] := fun later =>
          first (below x _ (least _ (List.getElem_mem shorter)) later)
        simp [none, first, above]

theorem getElem_le_iff (sorted : s.Pairwise (· ≤ ·)) {i : ℕ} (hi : i < s.length) (v : K) :
    s[i] ≤ v ↔ i < s.countP (· ≤ v) :=
  getElem_iff_lt_countP sorted (p := (· ≤ v)) (fun _ _ le later => le.trans later) hi

theorem getElem_lt_iff (sorted : s.Pairwise (· ≤ ·)) {i : ℕ} (hi : i < s.length) (v : K) :
    s[i] < v ↔ i < s.countP (· < v) :=
  getElem_iff_lt_countP sorted (p := (· < v)) (fun _ _ le later => le.trans_lt later) hi

end Sorted

section Ranks

variable {K F : Type*} [LinearOrder K] [Field F] [LinearOrder F]
variable {xs s : List K} {p : F} {v : K}

/-- The least sample that at least the share `p` of the samples does not exceed. -/
def IsNearestRank (p : F) (xs : List K) (v : K) : Prop :=
  IsLeast {v | v ∈ xs ∧ p * xs.length ≤ xs.countP (· ≤ v)} v

/-- One value stands both at the rank `r` and right after it: fewer than `r` samples are below it
and more than `r` are not above it. -/
def TiedAt (xs : List K) (r : ℕ) : Prop :=
  ∃ v ∈ xs, xs.countP (· < v) < r ∧ r < xs.countP (· ≤ v)

instance (xs : List K) (r : ℕ) : Decidable (TiedAt xs r) :=
  inferInstanceAs (Decidable (∃ v ∈ xs, xs.countP (· < v) < r ∧ r < xs.countP (· ≤ v)))

theorem isNearestRank_perm {ys : List K} (perm : xs.Perm ys) :
    IsNearestRank p xs v ↔ IsNearestRank p ys v := by
  unfold IsNearestRank
  simp only [perm.mem_iff, perm.length_eq, perm.countP_eq]

theorem tiedAt_perm {ys : List K} (perm : xs.Perm ys) {r : ℕ} : TiedAt xs r ↔ TiedAt ys r := by
  unfold TiedAt
  simp only [perm.mem_iff, perm.countP_eq]

/-- Two neighbours in ascending order are equal iff the samples are tied at their rank. -/
theorem getElem_eq_iff_tied (sorted : s.Pairwise (· ≤ ·)) {r : ℕ} (pos : 0 < r)
    (hr : r < s.length) : s[r] = s[r - 1] ↔ TiedAt s r := by
  have order : s[r - 1] ≤ s[r] := List.pairwise_iff_getElem.1 sorted _ _ _ _ (by omega)
  constructor
  · intro same
    refine ⟨s[r - 1], List.getElem_mem _, ?_, ?_⟩
    · have := mt (getElem_lt_iff sorted (i := r - 1) (by omega) s[r - 1]).2 (lt_irrefl _)
      omega
    · exact (getElem_le_iff sorted hr _).1 same.le
  · rintro ⟨v, -, below, notAbove⟩
    have high : s[r] ≤ v := (getElem_le_iff sorted hr v).2 notAbove
    have low : v ≤ s[r - 1] := by
      rw [← not_lt, getElem_lt_iff sorted (by omega)]
      omega
    exact le_antisymm (high.trans low) order

section Positions

variable [FloorSemiring F]

theorem isNearestRank_getElem (sorted : s.Pairwise (· ≤ ·)) (hr : ⌈p * s.length⌉₊ - 1 < s.length)
    (pos : 0 < ⌈p * s.length⌉₊) : IsNearestRank p s s[⌈p * s.length⌉₊ - 1] := by
  refine ⟨⟨List.getElem_mem hr, ?_⟩, ?_⟩
  · have enough := (getElem_le_iff sorted hr _).1 le_rfl
    rw [← Nat.ceil_le]
    omega
  · rintro v ⟨-, share⟩
    rw [← Nat.ceil_le] at share
    exact (getElem_le_iff sorted hr v).2 (by omega)

/-- The position that the rank selects when it is counted from zero is the one after the nearest
rank. -/
theorem isNearestRank_getElem_iff (sorted : s.Pairwise (· ≤ ·)) (pos : 0 < ⌈p * s.length⌉₊)
    (hr : ⌈p * s.length⌉₊ < s.length) :
    IsNearestRank p s s[⌈p * s.length⌉₊] ↔ TiedAt s ⌈p * s.length⌉₊ := by
  have nearest := isNearestRank_getElem (p := p) sorted (by omega) pos
  rw [← getElem_eq_iff_tied sorted pos hr]
  constructor
  · intro also
    exact also.unique nearest
  · intro same
    rw [same]
    exact nearest

end Positions

/-- When fewer than the remaining share of the samples are above `t`, the nearest rank is not. -/
theorem IsNearestRank.le_of_few [IsStrictOrderedRing F] (h : IsNearestRank p xs v)
    (nonneg : 0 ≤ p) {t : K} (few : (xs.countP (t < ·) : F) < (1 - p) * xs.length) : v ≤ t := by
  have sorted : (xs.mergeSort).Pairwise (· ≤ ·) := List.pairwise_mergeSort' _ xs
  have perm : (xs.mergeSort).Perm xs := List.mergeSort_perm xs _
  set s := xs.mergeSort
  have split : (xs.length : F) = xs.countP (· ≤ t) + xs.countP (t < ·) := by
    have parts := xs.length_eq_countP_add_countP (· ≤ t)
    simp only [decide_eq_true_eq, not_le] at parts
    exact_mod_cast parts
  have many : p * xs.length < xs.countP (· ≤ t) := by
    rw [sub_mul, one_mul] at few
    linarith
  have some : 0 < xs.countP (· ≤ t) := by
    have share : (0 : F) ≤ p * xs.length := mul_nonneg nonneg (Nat.cast_nonneg _)
    exact_mod_cast share.trans_lt many
  have short : xs.countP (· ≤ t) ≤ s.length := perm.length_eq ▸ List.countP_le_length
  -- the last sample that is at most `t` has the same samples at most it as `t` itself
  have last : xs.countP (· ≤ t) - 1 < s.length := by omega
  have low : s[xs.countP (· ≤ t) - 1] ≤ t := by
    rw [getElem_le_iff sorted last, perm.countP_eq]
    omega
  have share : xs.countP (· ≤ t) ≤ xs.countP (· ≤ s[xs.countP (· ≤ t) - 1]) := by
    have own := (getElem_le_iff sorted last _).1 le_rfl
    rw [perm.countP_eq] at own
    omega
  refine (h.2 ⟨perm.mem_iff.1 (List.getElem_mem last), ?_⟩).trans low
  exact many.le.trans (Nat.cast_le.2 share)

end Ranks

end Samples
