import Mathlib.Algebra.Order.Field.Rat
import Mathlib.Data.Int.Log
import Mathlib.Data.Rat.Floor
import Mathlib.Tactic.FieldSimp
import Mathlib.Tactic.Linarith
import Mathlib.Tactic.Positivity
import Mathlib.Tactic.Ring

/-!
# Rounding to `p` binary digits

Rationals rounded to the nearest number with `p` binary digits, ties to even, as IEEE arithmetic
does between its smallest normal and its greatest number; `double` has 53.  A rounding moves a
number by at most one part in `2 ^ p` (`abs_round_sub_le`).  What is computed in several roundings
is `Near` the exact value, and the number of roundings adds up over products and quotients, while
sums only take the greatest.
-/

namespace Rounding

/-- The nearest integer, and the even one of two. -/
def nearestEven (x : ℚ) : ℤ :=
  if x - ⌊x⌋ < 1 / 2 ∨ x - ⌊x⌋ = 1 / 2 ∧ Even ⌊x⌋ then ⌊x⌋ else ⌊x⌋ + 1

variable (p : ℕ)

/-- That of the last of the `p` digits of `x`. -/
def exponent (x : ℚ) : ℤ := Int.log 2 |x| + 1 - p

def round (x : ℚ) : ℚ := nearestEven (x / 2 ^ exponent p x) * 2 ^ exponent p x

abbrev double : ℚ → ℚ := round 53

example : double (2 ^ 53 + 3) = 2 ^ 53 + 4 := by decide +kernel

theorem abs_nearestEven_sub_le (x : ℚ) : |nearestEven x - x| ≤ 1 / 2 := by
  have below := Int.floor_le x
  have above := Int.lt_floor_add_one x
  unfold nearestEven
  rw [abs_le]
  split_ifs with down
  · have near : x - ⌊x⌋ ≤ 1 / 2 := down.elim le_of_lt fun tie => le_of_eq tie.1
    constructor <;> linarith
  · have near : 1 / 2 ≤ x - ⌊x⌋ := not_lt.1 fun less => down (.inl less)
    push_cast
    constructor <;> linarith

@[simp] theorem round_zero : round p 0 = 0 := by
  simp [round, nearestEven]

variable {p}

theorem abs_round_sub_le (x : ℚ) : |round p x - x| ≤ |x| / 2 ^ p := by
  rcases eq_or_ne x 0 with rfl | nonzero
  · simp
  have grain : (0 : ℚ) < 2 ^ exponent p x := zpow_pos two_pos _
  have scaled : round p x - x =
      (nearestEven (x / 2 ^ exponent p x) - x / 2 ^ exponent p x) * 2 ^ exponent p x := by
    rw [sub_mul, div_mul_cancel₀ _ grain.ne']
    rfl
  -- half of the last digit, which is that many binary places below the first
  have first : (2 : ℚ) ^ Int.log 2 |x| ≤ |x| :=
    Int.zpow_log_le_self one_lt_two (abs_pos.2 nonzero)
  have last : (2 : ℚ) ^ exponent p x = 2 * (2 ^ Int.log 2 |x| / 2 ^ p) := by
    rw [exponent, zpow_sub₀ two_ne_zero, zpow_add_one₀ two_ne_zero, zpow_natCast]
    ring
  calc |round p x - x|
      = |nearestEven (x / 2 ^ exponent p x) - x / 2 ^ exponent p x| * 2 ^ exponent p x := by
        rw [scaled, abs_mul, abs_of_pos grain]
    _ ≤ 1 / 2 * 2 ^ exponent p x :=
        mul_le_mul_of_nonneg_right (abs_nearestEven_sub_le _) grain.le
    _ = 2 ^ Int.log 2 |x| / 2 ^ p := by rw [last, ← mul_assoc, one_div, inv_mul_cancel₀ two_ne_zero,
        one_mul]
    _ ≤ |x| / 2 ^ p := div_le_div_of_nonneg_right first (by positivity)

theorem round_nonpos {x : ℚ} (nonpos : x ≤ 0) : round p x ≤ 0 := by
  have close := (abs_le.1 (abs_round_sub_le (p := p) x)).2
  have whole : |x| / 2 ^ p ≤ |x| := div_le_self (abs_nonneg x) (one_le_pow₀ one_le_two)
  rw [abs_of_nonpos nonpos] at close whole
  linarith

/-! ### A number of roundings -/

variable (p)

/-- More than what one rounding can multiply or divide a number by. -/
def slack : ℚ := 1 + 2 / 2 ^ p

/-- Not farther apart than `k` roundings can bring two equal numbers. -/
def Near (k : ℕ) (x y : ℚ) : Prop := x ≤ y * slack p ^ k ∧ y ≤ x * slack p ^ k

theorem one_le_slack : 1 ≤ slack p := le_add_of_nonneg_right (by positivity)

theorem slack_pow_pos (k : ℕ) : 0 < slack p ^ k :=
  pow_pos (lt_of_lt_of_le one_pos (one_le_slack p)) k

variable {p} {k l : ℕ} {x y z a b : ℚ}

namespace Near

theorem symm (h : Near p k x y) : Near p k y x := ⟨h.2, h.1⟩

theorem trans (h : Near p k x y) (h' : Near p l y z) : Near p (k + l) x z := by
  constructor
  · calc x ≤ y * slack p ^ k := h.1
      _ ≤ z * slack p ^ l * slack p ^ k :=
          mul_le_mul_of_nonneg_right h'.1 (slack_pow_pos p k).le
      _ = z * slack p ^ (k + l) := by rw [pow_add]; ring
  · calc z ≤ y * slack p ^ l := h'.2
      _ ≤ x * slack p ^ k * slack p ^ l :=
          mul_le_mul_of_nonneg_right h.2 (slack_pow_pos p l).le
      _ = x * slack p ^ (k + l) := by rw [pow_add]; ring

theorem add (h : Near p k x y) (h' : Near p k a b) : Near p k (x + a) (y + b) := by
  constructor
  · rw [add_mul]
    exact add_le_add h.1 h'.1
  · rw [add_mul]
    exact add_le_add h.2 h'.2

theorem mul_right (h : Near p k x y) (nonneg : 0 ≤ a) : Near p k (x * a) (y * a) := by
  constructor
  · rw [mul_right_comm]
    exact mul_le_mul_of_nonneg_right h.1 nonneg
  · rw [mul_right_comm]
    exact mul_le_mul_of_nonneg_right h.2 nonneg

theorem div_right (h : Near p k x y) (nonneg : 0 ≤ a) : Near p k (x / a) (y / a) := by
  rw [div_eq_mul_inv, div_eq_mul_inv]
  exact h.mul_right (inv_nonneg.2 nonneg)

theorem inv (h : Near p k x y) (hx : 0 < x) (hy : 0 < y) : Near p k x⁻¹ y⁻¹ := by
  constructor
  · rw [inv_mul_eq_div, le_div_iff₀ hy, inv_mul_le_iff₀ hx]
    exact h.2
  · rw [inv_mul_eq_div, le_div_iff₀ hx, inv_mul_le_iff₀ hy]
    exact h.1

theorem mul (h : Near p k x y) (h' : Near p l a b) (ha : 0 ≤ a) (hy : 0 ≤ y) :
    Near p (k + l) (x * a) (y * b) := by
  have left : Near p k (x * a) (y * a) := h.mul_right ha
  have right : Near p l (y * a) (y * b) := by
    rw [mul_comm y a, mul_comm y b]
    exact h'.mul_right hy
  exact left.trans right

theorem div (h : Near p k x y) (h' : Near p l a b) (ha : 0 < a) (hb : 0 < b) (hy : 0 ≤ y) :
    Near p (k + l) (x / a) (y / b) := by
  rw [div_eq_mul_inv, div_eq_mul_inv]
  exact h.mul (h'.inv ha hb) (inv_nonneg.2 ha.le) hy

theorem pos (h : Near p k x y) (hy : 0 < y) : 0 < x :=
  pos_of_mul_pos_left (hy.trans_le h.2) (slack_pow_pos p k).le

theorem nonneg (h : Near p k x y) (hy : 0 ≤ y) : 0 ≤ x :=
  nonneg_of_mul_nonneg_left (hy.trans h.2) (slack_pow_pos p k)

theorem le (h : Near p k x y) (le : y ≤ z) (h' : Near p l z a) : x ≤ a * slack p ^ (k + l) := by
  calc x ≤ y * slack p ^ k := h.1
    _ ≤ z * slack p ^ k := mul_le_mul_of_nonneg_right le (slack_pow_pos p k).le
    _ ≤ a * slack p ^ l * slack p ^ k := mul_le_mul_of_nonneg_right h'.1 (slack_pow_pos p k).le
    _ = a * slack p ^ (k + l) := by rw [pow_add]; ring

theorem mono (h : Near p k x y) (hy : 0 ≤ y) (more : k ≤ l) : Near p l x y := by
  have grows : slack p ^ k ≤ slack p ^ l := pow_le_pow_right₀ (one_le_slack p) more
  constructor
  · exact h.1.trans (mul_le_mul_of_nonneg_left grows hy)
  · exact h.2.trans (mul_le_mul_of_nonneg_left grows (h.nonneg hy))

end Near

theorem near_zero_iff : Near p 0 x y ↔ x = y := by
  simp [Near, le_antisymm_iff]

theorem near_round (digits : 0 < p) (nonneg : 0 ≤ x) : Near p 1 (round p x) x := by
  obtain ⟨lower, upper⟩ := abs_le.1 (abs_round_sub_le (p := p) x)
  rw [abs_of_nonneg nonneg] at lower upper
  have grain : (0 : ℚ) < 2 ^ p := by positivity
  have two : (2 : ℚ) ≤ 2 ^ p := by
    simpa using pow_le_pow_right₀ (one_le_two (α := ℚ)) digits
  have part : x / 2 ^ p ≤ x / 2 := div_le_div_of_nonneg_left nonneg two_pos two
  have split : 2 / 2 ^ p = 1 / 2 ^ p + 1 / (2 : ℚ) ^ p := by ring
  rw [Near, pow_one, slack]
  constructor
  · have more : 0 ≤ x / 2 ^ p := by positivity
    calc round p x ≤ x + x / 2 ^ p := by linarith
      _ ≤ x + x / 2 ^ p + x / 2 ^ p := le_add_of_nonneg_right more
      _ = x * (1 + 2 / 2 ^ p) := by ring
  · have half : x / 2 ≤ round p x := by linarith
    have back : x / 2 ^ p ≤ round p x * (2 / 2 ^ p) := by
      calc x / 2 ^ p = x / 2 * (2 / 2 ^ p) := by ring
        _ ≤ round p x * (2 / 2 ^ p) := mul_le_mul_of_nonneg_right half (by positivity)
    calc x ≤ round p x + x / 2 ^ p := by linarith
      _ ≤ round p x + round p x * (2 / 2 ^ p) := by linarith
      _ = round p x * (1 + 2 / 2 ^ p) := by ring

variable (p)

/-- `d` over a number `n` that needs no rounding. -/
def ratio (d n : ℚ) : ℚ := round p (round p d / n)

variable {p}

theorem near_ratio (digits : 0 < p) {d n : ℚ} (nonneg : 0 ≤ d) (positive : 0 < n) :
    Near p 2 (ratio p d n) (d / n) := by
  have given : Near p 1 (round p d) d := near_round digits nonneg
  have whole : 0 ≤ round p d / n := div_nonneg (given.nonneg nonneg) positive.le
  exact (near_round digits whole).trans (given.div_right positive.le)

theorem ratio_pos_iff (digits : 0 < p) {d n : ℚ} (positive : 0 < n) : 0 < ratio p d n ↔ 0 < d := by
  constructor
  · intro above
    by_contra nonpos
    have count : round p d / n ≤ 0 :=
      div_nonpos_of_nonpos_of_nonneg (round_nonpos (not_lt.1 nonpos)) positive.le
    exact absurd above (not_lt.2 (round_nonpos count))
  · exact fun above => (near_ratio digits above.le positive).pos (div_pos above positive)

end Rounding
