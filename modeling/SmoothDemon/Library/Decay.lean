import Mathlib.Algebra.Order.Field.Basic
import Mathlib.Data.Nat.Cast.Order.Field
import Mathlib.Logic.Function.Iterate
import Mathlib.Order.Monotone.Basic
import Mathlib.Tactic.FieldSimp
import Mathlib.Tactic.Linarith
import Mathlib.Tactic.Ring

/-!
# Geometric decay in whole numbers

A process whose steps keep at least the fraction `q` of a quantity, up to a rounding loss `c` each,
never loses more than `c / (1 - q)` to rounding in all (`sub_le_foldl_of_loss`).  `decay a b g` is
`g * a / b` rounded down, which only makes it smaller: repeated, it stays below the geometric decay
and, with `a < b`, loses at least one each time until it is zero.
-/

namespace Decay

section Fold

variable {K : Type*} [Field K] [LinearOrder K] [IsStrictOrderedRing K]
variable {σ α : Type*} {f : σ → α → σ} {I : σ → Prop} {m : σ → K} {q c : K}

theorem pow_mul_le_foldl (nonneg : 0 ≤ q) (keeps : ∀ s a, I s → I (f s a))
    (decays : ∀ s a, I s → q * m s ≤ m (f s a)) (as : List α) {s : σ} (start : I s) :
    q ^ as.length * m s ≤ m (as.foldl f s) := by
  induction as generalizing s with
  | nil => simp
  | cons a as ih =>
    calc q ^ (as.length + 1) * m s = q ^ as.length * (q * m s) := by ring
      _ ≤ q ^ as.length * m (f s a) :=
        mul_le_mul_of_nonneg_left (decays s a start) (pow_nonneg nonneg _)
      _ ≤ m (as.foldl f (f s a)) := ih (keeps s a start)

/-- The quantity together with all the rounding still to come decays without loss. -/
theorem sub_le_foldl_of_loss (nonneg : 0 ≤ q) (lt_one : q < 1) (loss : 0 ≤ c)
    (keeps : ∀ s a, I s → I (f s a)) (loses : ∀ s a, I s → q * m s - c ≤ m (f s a))
    (as : List α) {s : σ} (start : I s) :
    q ^ as.length * m s - c / (1 - q) ≤ m (as.foldl f s) := by
  have rest : 0 < 1 - q := sub_pos.2 lt_one
  have total : 0 ≤ c / (1 - q) := div_nonneg loss rest.le
  have balance : q * (c / (1 - q)) = c / (1 - q) - c := by
    field_simp
    ring
  have decays (s : σ) (a : α) (h : I s) :
      q * (m s + c / (1 - q)) ≤ m (f s a) + c / (1 - q) := by
    rw [mul_add, balance]
    linarith [loses s a h]
  have whole := pow_mul_le_foldl (m := fun s => m s + c / (1 - q)) nonneg keeps decays as start
  have extra : 0 ≤ q ^ as.length * (c / (1 - q)) := mul_nonneg (pow_nonneg nonneg _) total
  rw [mul_add] at whole
  linarith

end Fold

/-! ### Decay rounded down -/

def decay (a b g : ℕ) : ℕ := g * a / b

section Decay

variable {a b : ℕ}

theorem decay_le_pred (lt : a < b) (g : ℕ) : decay a b g ≤ g - 1 := by
  cases g with
  | zero => simp [decay]
  | succ g =>
    have less : (g + 1) * a < (g + 1) * b := Nat.mul_lt_mul_of_pos_left lt (Nat.succ_pos g)
    have below : decay a b (g + 1) < g + 1 := Nat.div_lt_of_lt_mul (by rwa [mul_comm b])
    omega

theorem iterate_decay_le_sub (lt : a < b) (n g : ℕ) : (decay a b)^[n] g ≤ g - n := by
  induction n with
  | zero => rfl
  | succ n ih =>
    rw [Function.iterate_succ_apply']
    have step := decay_le_pred lt ((decay a b)^[n] g)
    omega

theorem iterate_decay_le_pow {K : Type*} [Field K] [LinearOrder K] [IsStrictOrderedRing K]
    (n g : ℕ) : (((decay a b)^[n] g : ℕ) : K) ≤ ((a : K) / b) ^ n * g := by
  have ratio : (0 : K) ≤ (a : K) / b := div_nonneg (Nat.cast_nonneg a) (Nat.cast_nonneg b)
  induction n with
  | zero => simp
  | succ n ih =>
    rw [Function.iterate_succ_apply']
    set x := (decay a b)^[n] g
    calc ((decay a b x : ℕ) : K) ≤ ((x * a : ℕ) : K) / b := Nat.cast_div_le
      _ = (a : K) / b * x := by
        push_cast
        ring
      _ ≤ (a : K) / b * (((a : K) / b) ^ n * g) := mul_le_mul_of_nonneg_left ih ratio
      _ = ((a : K) / b) ^ (n + 1) * g := by ring

theorem iterate_decay_antitone (lt : a < b) (g : ℕ) : Antitone fun n => (decay a b)^[n] g := by
  refine antitone_nat_of_succ_le fun n => ?_
  rw [Function.iterate_succ_apply']
  have step := decay_le_pred lt ((decay a b)^[n] g)
  omega

end Decay

end Decay
