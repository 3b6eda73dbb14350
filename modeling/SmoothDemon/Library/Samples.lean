import Mathlib.Algebra.Order.BigOperators.Group.List
import Mathlib.Algebra.Order.Field.Basic
import Mathlib.Order.Bounds.Basic
import Mathlib.Tactic.Linarith
import Mathlib.Tactic.Positivity
import Mathlib.Tactic.Ring

/-!
# Samples

Mean and population variance of a list of samples over an ordered field, and the extremes found by
one pass over the list.  The mean lies between the extremes, the variance is bounded by its
distances from them (`variance_le`), and of positive samples fewer than half exceed twice the mean
(`two_mul_countP_lt`).  The rises of a sequence make up the whole way iff it never goes down
(`sum_rises_eq_iff`).
-/

namespace Samples

section Extremes

variable {K : Type*} [LinearOrder K]

theorem isLeast_foldl_min (x : K) (xs : List K) : IsLeast {y | y ∈ x :: xs} (xs.foldl min x) := by
  induction xs generalizing x with
  | nil => simp [IsLeast, lowerBounds]
  | cons y xs ih =>
    obtain ⟨mem, lower⟩ := ih (min x y)
    have below : xs.foldl min (min x y) ≤ min x y := lower List.mem_cons_self
    refine ⟨?_, ?_⟩
    · rcases List.mem_cons.1 mem with first | later
      · show xs.foldl min (min x y) ∈ x :: y :: xs
        rw [first]
        rcases min_choice x y with h | h <;> simp [h]
      · exact List.mem_cons_of_mem _ (List.mem_cons_of_mem _ later)
    · intro z hz
      show xs.foldl min (min x y) ≤ z
      rcases List.mem_cons.1 hz with rfl | hz
      · exact below.trans (min_le_left _ _)
      rcases List.mem_cons.1 hz with rfl | hz
      · exact below.trans (min_le_right _ _)
      · exact lower (List.mem_cons_of_mem _ hz)

theorem isGreatest_foldl_max (x : K) (xs : List K) :
    IsGreatest {y | y ∈ x :: xs} (xs.foldl max x) :=
  isLeast_foldl_min (K := Kᵒᵈ) x xs

end Extremes

section Moments

variable {K : Type*} [Field K] [LinearOrder K] [IsStrictOrderedRing K]

def mean (xs : List K) : K := xs.sum / xs.length

/-- The population variance. -/
def variance (xs : List K) : K := (xs.map fun x => (x - mean xs) ^ 2).sum / xs.length

theorem variance_nonneg (xs : List K) : 0 ≤ variance xs := by
  apply div_nonneg
  · apply List.sum_nonneg
    simp only [List.mem_map]
    rintro _ ⟨x, -, rfl⟩
    exact sq_nonneg _
  · exact Nat.cast_nonneg _

section Bounds

variable {xs : List K} {a b : K}

theorem length_mul_mean (nonempty : xs ≠ []) : xs.length * mean xs = xs.sum := by
  have count : (xs.length : K) ≠ 0 := by simpa using nonempty
  rw [mean, mul_div_cancel₀ _ count]

theorem mean_le (nonempty : xs ≠ []) (bound : ∀ x ∈ xs, x ≤ b) : mean xs ≤ b := by
  have count : (0 : K) < xs.length := Nat.cast_pos.2 (List.length_pos_iff.2 nonempty)
  rw [mean, div_le_iff₀ count, mul_comm, ← nsmul_eq_mul]
  exact List.sum_le_card_nsmul xs b bound

theorem le_mean (nonempty : xs ≠ []) (bound : ∀ x ∈ xs, a ≤ x) : a ≤ mean xs := by
  have count : (0 : K) < xs.length := Nat.cast_pos.2 (List.length_pos_iff.2 nonempty)
  rw [mean, le_div_iff₀ count, mul_comm, ← nsmul_eq_mul]
  exact List.card_nsmul_le_sum xs a bound

/-- Around any `m`; the last term vanishes when `m` is the mean. -/
theorem sum_sq_sub_le (m : K) (bounds : ∀ x ∈ xs, a ≤ x ∧ x ≤ b) :
    (xs.map fun x => (x - m) ^ 2).sum ≤
      xs.length * ((b - m) * (m - a)) + (xs.sum - xs.length * m) * (a + b - 2 * m) := by
  induction xs with
  | nil => simp
  | cons x xs ih =>
    obtain ⟨⟨low, high⟩, rest⟩ := List.forall_mem_cons.1 bounds
    have between : 0 ≤ (b - x) * (x - a) := mul_nonneg (sub_nonneg.2 high) (sub_nonneg.2 low)
    have tail := ih rest
    simp only [List.map_cons, List.sum_cons, List.length_cons, Nat.cast_add, Nat.cast_one]
    calc (x - m) ^ 2 + (xs.map fun x => (x - m) ^ 2).sum
        ≤ (x - m) ^ 2 + (b - x) * (x - a) +
            (xs.length * ((b - m) * (m - a)) + (xs.sum - xs.length * m) * (a + b - 2 * m)) := by
          linarith
      _ = (xs.length + 1) * ((b - m) * (m - a)) +
            (x + xs.sum - (xs.length + 1) * m) * (a + b - 2 * m) := by ring

theorem variance_le (nonempty : xs ≠ []) (bounds : ∀ x ∈ xs, a ≤ x ∧ x ≤ b) :
    variance xs ≤ (b - mean xs) * (mean xs - a) := by
  have count : (0 : K) < xs.length := Nat.cast_pos.2 (List.length_pos_iff.2 nonempty)
  have sum := sum_sq_sub_le (mean xs) bounds
  rw [length_mul_mean nonempty, sub_self, zero_mul, add_zero] at sum
  rwa [variance, div_le_iff₀ count, mul_comm _ (xs.length : K)]

/-- What exceeds `t` accounts for more than `t` each. -/
theorem countP_mul_lt_sum (nonempty : xs ≠ []) (pos : ∀ x ∈ xs, 0 < x) (t : K) :
    (xs.countP (t < ·) : K) * t < xs.sum := by
  induction xs with
  | nil => exact absurd rfl nonempty
  | cons x xs ih =>
    obtain ⟨first, rest⟩ := List.forall_mem_cons.1 pos
    have tail : (xs.countP (t < ·) : K) * t ≤ xs.sum := by
      by_cases empty : xs = []
      · simp [empty]
      · exact (ih empty rest).le
    rw [List.countP_cons, List.sum_cons]
    by_cases more : t < x
    · simp only [more, decide_true, if_true, Nat.cast_add, Nat.cast_one]
      linarith
    · simp only [more, decide_false, Bool.false_eq_true, if_false, Nat.add_zero]
      linarith

theorem two_mul_countP_lt (nonempty : xs ≠ []) (pos : ∀ x ∈ xs, 0 < x) :
    2 * xs.countP (2 * mean xs < ·) < xs.length := by
  have count : (0 : K) < xs.length := Nat.cast_pos.2 (List.length_pos_iff.2 nonempty)
  have sum : 0 < xs.sum := List.sum_pos xs pos nonempty
  have mean_pos : 0 < mean xs := div_pos sum count
  have share := countP_mul_lt_sum nonempty pos (2 * mean xs)
  rw [← length_mul_mean nonempty, ← mul_assoc] at share
  have fewer := lt_of_mul_lt_mul_right share mean_pos.le
  rw [mul_comm] at fewer
  exact_mod_cast fewer

end Bounds

end Moments

section Rises

variable {K : Type*} [AddCommGroup K] [LinearOrder K]

/-- The steps from one sample to the next that go up. -/
def rises : List K → List K
  | x :: y :: xs => if x < y then (y - x) :: rises (y :: xs) else rises (y :: xs)
  | _ => []

theorem rises_cons_cons (x y : K) (xs : List K) :
    rises (x :: y :: xs) = if x < y then (y - x) :: rises (y :: xs) else rises (y :: xs) := rfl

theorem rises_concat (x y : K) (xs : List K) : rises (x :: (xs ++ [y])) =
    rises (x :: xs) ++ if xs.getLastD x < y then [y - xs.getLastD x] else [] := by
  induction xs generalizing x with
  | nil => simp [rises]
  | cons z xs ih =>
    rw [List.cons_append, rises_cons_cons, rises_cons_cons, ih z, List.getLastD_cons]
    split_ifs <;> rfl

theorem length_rises_le (xs : List K) : (rises xs).length ≤ xs.length := by
  induction xs with
  | nil => exact le_rfl
  | cons x xs ih =>
    cases xs with
    | nil => exact Nat.zero_le _
    | cons y xs =>
      rw [rises_cons_cons]
      split_ifs with up
      · exact Nat.succ_le_succ ih
      · exact ih.trans (Nat.le_succ _)

theorem rises_lt {xs : List K} {b : K} (apart : ∀ x ∈ xs, ∀ y ∈ xs, y - x < b) :
    ∀ d ∈ rises xs, d < b := by
  induction xs with
  | nil => nofun
  | cons x xs ih =>
    have rest := ih fun y hy z hz =>
      apart y (List.mem_cons_of_mem x hy) z (List.mem_cons_of_mem x hz)
    cases xs with
    | nil => nofun
    | cons y xs =>
      rw [rises_cons_cons]
      split_ifs with up
      · exact List.forall_mem_cons.2 ⟨apart x (by simp) y (by simp), rest⟩
      · exact rest

variable [IsOrderedAddMonoid K]

theorem rises_pos {xs : List K} : ∀ d ∈ rises xs, 0 < d := by
  induction xs with
  | nil => nofun
  | cons x xs ih =>
    cases xs with
    | nil => nofun
    | cons y xs =>
      rw [rises_cons_cons]
      split_ifs with up
      · exact List.forall_mem_cons.2 ⟨sub_pos.2 up, ih⟩
      · exact ih

theorem sub_le_sum_rises (x : K) (xs : List K) : xs.getLastD x - x ≤ (rises (x :: xs)).sum := by
  induction xs generalizing x with
  | nil => simp [rises]
  | cons y xs ih =>
    have later := ih y
    rw [List.getLastD_cons, rises_cons_cons]
    split_ifs with up
    · rw [List.sum_cons]
      calc xs.getLastD y - x = (y - x) + (xs.getLastD y - y) := (sub_add_sub_cancel' ..).symm
        _ ≤ (y - x) + (rises (y :: xs)).sum := add_le_add_right later _
    · exact (sub_le_sub_left (not_lt.1 up) _).trans later

/-- The rises make up the whole way iff the samples never go down. -/
theorem sum_rises_eq_iff (x : K) (xs : List K) :
    (rises (x :: xs)).sum = xs.getLastD x - x ↔ (x :: xs).Pairwise (· ≤ ·) := by
  rw [← List.isChain_iff_pairwise]
  induction xs generalizing x with
  | nil => simp [rises]
  | cons y xs ih =>
    rw [List.getLastD_cons, rises_cons_cons, List.isChain_cons_cons, ← ih y]
    rcases lt_trichotomy x y with up | rfl | down
    · rw [if_pos up, List.sum_cons, ← sub_add_sub_cancel' y x (xs.getLastD y),
        add_right_inj, and_iff_right up.le]
    · rw [if_neg (lt_irrefl x), and_iff_right le_rfl]
    · rw [if_neg down.not_gt]
      have more : xs.getLastD y - x < (rises (y :: xs)).sum :=
        (sub_lt_sub_left down _).trans_le (sub_le_sum_rises y xs)
      exact iff_of_false more.ne' fun order => absurd order.1 (not_le.2 down)

end Rises

end Samples
