import Mathlib.Data.UInt
import Mathlib.Algebra.Order.Field.Rat
import Mathlib.Tactic.Linarith
import Mathlib.Tactic.FieldSimp
import Mathlib.Tactic.Positivity
import Mathlib.Tactic.Ring

/-!
# Metrics of two CPU samples

The arithmetic of src/cpu.cpp.  Tick differences and their sum are taken in 64 bits; the percentages
are rational.  Between two samples whose counters do not go back the metrics are the exact
percentages (`calculateMetrics_delta`).  Whatever the counters do, the percentages are consistent
iff no sum of their movements carries out of the word in the wrong place (`consistent_iff`), which
for movements far below 2 ^ 64 is a matter of which of them go back (`adds_iff_of_small`).
-/

namespace SmoothDemon

structure CpuSample where
  user : UInt64 := 0
  nice : UInt64 := 0
  system : UInt64 := 0
  idle : UInt64 := 0
  iowait : UInt64 := 0
  irq : UInt64 := 0
  softirq : UInt64 := 0
  steal : UInt64 := 0
  deriving DecidableEq

structure CpuMetrics where
  totalPercent : ℚ := 0
  userPercent : ℚ := 0
  systemPercent : ℚ := 0
  iowaitPercent : ℚ := 0
  deriving DecidableEq

def getTotalTicks (s : CpuSample) : UInt64 :=
  s.user + s.nice + s.system + s.idle + s.iowait + s.irq + s.softirq + s.steal

def calculateDelta (prev curr : CpuSample) : CpuSample where
  user := curr.user - prev.user
  nice := curr.nice - prev.nice
  system := curr.system - prev.system
  idle := curr.idle - prev.idle
  iowait := curr.iowait - prev.iowait
  irq := curr.irq - prev.irq
  softirq := curr.softirq - prev.softirq
  steal := curr.steal - prev.steal

def clampPct (v : ℚ) : ℚ := if v < 0 then 0 else if 100 < v then 100 else v

def calculateMetrics (delta : CpuSample) : CpuMetrics :=
  let total := getTotalTicks delta
  if total = 0 then {}
  else
    let idleTime := delta.idle + delta.iowait
    let inv : ℚ := 100 / total.toNat
    { totalPercent := clampPct ((1 - idleTime.toNat / total.toNat) * 100)
      userPercent := clampPct (delta.user.toNat * inv)
      systemPercent := clampPct (delta.system.toNat * inv)
      iowaitPercent := clampPct (delta.iowait.toNat * inv) }

namespace CpuMetrics

/-- The percentages can be shares of one total. -/
structure Consistent (m : CpuMetrics) : Prop where
  shares : m.userPercent + m.systemPercent + m.iowaitPercent ≤ 100
  busy : m.userPercent + m.systemPercent ≤ m.totalPercent

end CpuMetrics

namespace CpuSample

/-- The eight values, added without wrapping. -/
def ticks (d : CpuSample) : ℕ :=
  d.user.toNat + d.nice.toNat + d.system.toNat + d.idle.toNat + d.iowait.toNat + d.irq.toNat +
    d.softirq.toNat + d.steal.toNat

/-- How far a counter moved, back or forth. -/
def moved (prev curr : CpuSample) (counter : CpuSample → UInt64) : ℤ :=
  (counter curr).toNat - (counter prev).toNat

/-- How often 2 ^ 64 is borrowed for a movement: once if it goes back by at most that much. -/
def borrowed (move : ℤ) : ℤ := -(move / 2 ^ 64)

/-- At most one of `a`, `b` and `c` moves; or the four parts advance together by less than 2 ^ 64,
and by 2 ^ 64 less for each of them that goes back. -/
def Adds (a b c rest : ℤ) : Prop :=
  (a % 2 ^ 64 = 0 ∧ b % 2 ^ 64 = 0 ∨ a % 2 ^ 64 = 0 ∧ c % 2 ^ 64 = 0 ∨
      b % 2 ^ 64 = 0 ∧ c % 2 ^ 64 = 0) ∨
    a + b + c + rest < 2 ^ 64 * (1 - (borrowed a + borrowed b + borrowed c + borrowed rest))

instance (a b c rest : ℤ) : Decidable (Adds a b c rest) :=
  inferInstanceAs (Decidable ((_ ∧ _ ∨ _ ∧ _ ∨ _ ∧ _) ∨ _ < _))

/-- The counters stand still together; or user, system and iowait add up with the other counters,
and user, system and idle time do. -/
def Coherent (prev curr : CpuSample) : Prop :=
  let moved := moved prev curr
  let others := moved nice + moved irq + moved softirq + moved steal
  (moved user + moved system + moved iowait + (moved idle + others)) % 2 ^ 64 = 0 ∨
    Adds (moved user) (moved system) (moved iowait) (moved idle + others) ∧
      Adds (moved user) (moved system) (moved idle + moved iowait) others

instance (prev curr : CpuSample) : Decidable (Coherent prev curr) :=
  inferInstanceAs (Decidable (_ = _ ∨ _ ∧ _))

variable {d : CpuSample}

theorem toNat_getTotalTicks : (getTotalTicks d).toNat = d.ticks % 2 ^ 64 := by
  simp only [getTotalTicks, ticks, UInt64.toNat_add]
  omega

section Shares

variable {total : ℕ}

theorem share_mul (positive : 0 < total) : (100 : ℚ) / total * total = 100 := by
  have nonzero : (total : ℚ) ≠ 0 := by exact_mod_cast positive.ne'
  field_simp

theorem share_pos (positive : 0 < total) : (0 : ℚ) < 100 / total := by
  positivity

/-- A clamped percentage is a share of the total, cut at the total. -/
theorem clampPct_share (positive : 0 < total) (n : ℕ) :
    clampPct (n * (100 / total)) = 100 / total * (min n total : ℕ) := by
  have whole := share_mul positive
  have share := share_pos positive
  unfold clampPct
  rw [if_neg (not_lt.2 (by positivity))]
  rcases Nat.le_total n total with le | le
  · have bound : (100 : ℚ) / total * n ≤ 100 / total * total := by gcongr
    rw [min_eq_left le, if_neg (by linarith), mul_comm]
  · rw [min_eq_right le, whole]
    have bound : (100 : ℚ) / total * total ≤ 100 / total * n := by gcongr
    split_ifs with above
    · rfl
    · linarith

theorem clampPct_rest (positive : 0 < total) (n : ℕ) :
    clampPct ((1 - n / total) * 100) = 100 - 100 / total * (min n total : ℕ) := by
  have whole := share_mul positive
  have share := share_pos positive
  have expand : (1 - (n : ℚ) / total) * 100 = 100 - 100 / total * n := by ring
  rw [expand]
  unfold clampPct
  rcases Nat.le_total n total with le | le
  · have bound : (100 : ℚ) / total * n ≤ 100 / total * total := by gcongr
    have sign : (0 : ℚ) ≤ 100 / total * n := by positivity
    rw [min_eq_left le, if_neg (by linarith), if_neg (by linarith)]
  · have bound : (100 : ℚ) / total * total ≤ 100 / total * n := by gcongr
    rw [min_eq_right le, whole, sub_self]
    split_ifs with below above
    · rfl
    · linarith
    · linarith

/-- Shares compare as what they are shares of. -/
theorem share_le_iff (positive : 0 < total) (n : ℕ) :
    (100 : ℚ) / total * n ≤ 100 ↔ n ≤ total := by
  rw [← Nat.cast_le (α := ℚ)]
  nth_rewrite 2 [← share_mul positive]
  exact mul_le_mul_iff_right₀ (share_pos positive)

end Shares

/-- The metrics as shares of the wrapped total. -/
theorem calculateMetrics_eq (positive : 0 < d.ticks % 2 ^ 64) :
    let total := d.ticks % 2 ^ 64
    calculateMetrics d =
      { totalPercent := 100 - 100 / total * (min ((d.idle.toNat + d.iowait.toNat) % 2 ^ 64) total : ℕ)
        userPercent := 100 / total * (min d.user.toNat total : ℕ)
        systemPercent := 100 / total * (min d.system.toNat total : ℕ)
        iowaitPercent := 100 / total * (min d.iowait.toNat total : ℕ) } := by
  have nonzero : getTotalTicks d ≠ 0 := by
    intro zero
    rw [← toNat_getTotalTicks, zero] at positive
    exact absurd positive (by decide)
  have idle : (d.idle + d.iowait).toNat = (d.idle.toNat + d.iowait.toNat) % 2 ^ 64 :=
    UInt64.toNat_add ..
  rw [calculateMetrics, if_neg nonzero]
  simp only [toNat_getTotalTicks, idle]
  rw [clampPct_rest positive, clampPct_share positive, clampPct_share positive,
    clampPct_share positive]

theorem calculateMetrics_zero (zero : d.ticks % 2 ^ 64 = 0) : calculateMetrics d = {} := by
  have none : getTotalTicks d = 0 := UInt64.toNat_inj.1 (toNat_getTotalTicks.trans zero)
  rw [calculateMetrics, if_pos none]

/-- Where the values add up in 64 bits, nothing is cut. -/
theorem calculateMetrics_of_fits (fits : d.ticks < 2 ^ 64) :
    calculateMetrics d =
      { totalPercent := 100 * (d.ticks - d.idle.toNat - d.iowait.toNat) / d.ticks
        userPercent := 100 * d.user.toNat / d.ticks
        systemPercent := 100 * d.system.toNat / d.ticks
        iowaitPercent := 100 * d.iowait.toNat / d.ticks } := by
  have whole : d.ticks % 2 ^ 64 = d.ticks := Nat.mod_eq_of_lt fits
  rcases Nat.eq_zero_or_pos d.ticks with zero | positive
  · rw [calculateMetrics_zero (whole.trans zero), zero]
    simp
  · have nonzero : (d.ticks : ℚ) ≠ 0 := by exact_mod_cast positive.ne'
    have rest : (d.idle.toNat + d.iowait.toNat) % 2 ^ 64 = d.idle.toNat + d.iowait.toNat := by
      unfold ticks at fits
      omega
    rw [calculateMetrics_eq (whole.symm ▸ positive), whole, rest,
      min_eq_left (by unfold ticks; omega), min_eq_left (by unfold ticks; omega),
      min_eq_left (by unfold ticks; omega), min_eq_left (by unfold ticks; omega)]
    congr 1
    · push_cast
      field_simp
      ring
    all_goals ring

/-- The percentages compare as the differences do, each cut at the wrapped total. -/
theorem consistent_iff_cut {total : ℕ} (wrapped : d.ticks % 2 ^ 64 = total)
    (positive : 0 < total) : (calculateMetrics d).Consistent ↔
      min d.user.toNat total + min d.system.toNat total + min d.iowait.toNat total ≤ total ∧
        min d.user.toNat total + min d.system.toNat total +
          min ((d.idle.toNat + d.iowait.toNat) % 2 ^ 64) total ≤ total := by
  rw [calculateMetrics_eq (wrapped ▸ positive), wrapped]
  constructor
  · rintro ⟨shares, busy⟩
    refine ⟨?_, ?_⟩
    · rw [← share_le_iff positive]
      push_cast at shares ⊢
      linarith
    · rw [← share_le_iff positive]
      push_cast at busy ⊢
      linarith
  · rintro ⟨shares, busy⟩
    rw [← share_le_iff positive] at shares busy
    push_cast at shares busy
    refine ⟨?_, ?_⟩
    · push_cast
      linarith
    · push_cast
      linarith

/-! ### Movements -/

section Movements

variable {a b c rest : ℤ} {prev curr : CpuSample}

theorem toNat_sub_eq_emod (x y : UInt64) :
    ((x - y).toNat : ℤ) = ((x.toNat : ℤ) - y.toNat) % 2 ^ 64 := by
  have bound := y.toNat_lt
  rw [UInt64.toNat_sub]
  omega

/-- Of the words of four movements the first three, each cut at the wrapped sum, stay below it iff
the four add up. -/
theorem cut_le_iff {total : ℤ} (wrapped : (a + b + c + rest) % 2 ^ 64 = total) (moves : total ≠ 0) :
    min (a % 2 ^ 64) total + min (b % 2 ^ 64) total + min (c % 2 ^ 64) total ≤ total ↔
      Adds a b c rest := by
  have words : (a % 2 ^ 64 + b % 2 ^ 64 + c % 2 ^ 64 + rest % 2 ^ 64) % 2 ^ 64 = total := by
    omega
  have carries : a + b + c + rest <
        2 ^ 64 * (1 - (borrowed a + borrowed b + borrowed c + borrowed rest)) ↔
      a % 2 ^ 64 + b % 2 ^ 64 + c % 2 ^ 64 + rest % 2 ^ 64 < 2 ^ 64 := by
    unfold borrowed
    omega
  have bounds (x : ℤ) : 0 ≤ x % 2 ^ 64 ∧ x % 2 ^ 64 < 2 ^ 64 := by omega
  have ha := bounds a
  have hb := bounds b
  have hc := bounds c
  have hrest := bounds rest
  rw [Adds, carries]
  clear carries bounds wrapped
  -- from here on the words are any four words
  generalize a % 2 ^ 64 = x at *
  generalize b % 2 ^ 64 = y at *
  generalize c % 2 ^ 64 = z at *
  generalize rest % 2 ^ 64 = w at *
  omega

/-- Movements far below 2 ^ 64 add up iff at most one of the first three parts moves, or none of the
four goes back, or one does and the total goes back with it. -/
theorem adds_iff_of_small (ha : |a| < 2 ^ 62) (hb : |b| < 2 ^ 62) (hc : |c| < 2 ^ 62)
    (hrest : |rest| < 2 ^ 62) :
    Adds a b c rest ↔ (a = 0 ∧ b = 0 ∨ a = 0 ∧ c = 0 ∨ b = 0 ∧ c = 0) ∨
      [a, b, c, rest].countP (· < 0) = 0 ∨
      [a, b, c, rest].countP (· < 0) = 1 ∧ a + b + c + rest < 0 := by
  have still {x : ℤ} (small : |x| < 2 ^ 62) : x % 2 ^ 64 = 0 ↔ x = 0 := by
    rw [abs_lt] at small
    omega
  have back {x : ℤ} (small : |x| < 2 ^ 62) : borrowed x = if x < 0 then 1 else 0 := by
    rw [abs_lt] at small
    unfold borrowed
    split_ifs <;> omega
  rw [Adds, still ha, still hb, still hc, back ha, back hb, back hc, back hrest]
  rw [abs_lt] at ha hb hc hrest
  simp only [List.countP_cons, List.countP_nil, decide_eq_true_eq]
  split_ifs <;> norm_num <;> omega

/-- The metrics between two samples are consistent iff the movements of the counters are. -/
theorem consistent_iff :
    (calculateMetrics (calculateDelta prev curr)).Consistent ↔ Coherent prev curr := by
  have word (counter : CpuSample → UInt64) :
      ((counter curr - counter prev).toNat : ℤ) = moved prev curr counter % 2 ^ 64 :=
    toNat_sub_eq_emod ..
  have waits : (((calculateDelta prev curr).idle.toNat + (calculateDelta prev curr).iowait.toNat) %
      2 ^ 64 : ℕ) = (moved prev curr idle + moved prev curr iowait) % 2 ^ 64 := by
    rw [Int.natCast_mod, Nat.cast_add, calculateDelta, word idle, word iowait]
    exact (Int.add_emod ..).symm
  have wrapped : (moved prev curr user + moved prev curr system + moved prev curr iowait +
      (moved prev curr idle + (moved prev curr nice + moved prev curr irq +
        moved prev curr softirq + moved prev curr steal))) % 2 ^ 64 =
      ((calculateDelta prev curr).ticks % 2 ^ 64 : ℕ) := by
    simp only [ticks, calculateDelta, Int.natCast_mod, Nat.cast_add, word]
    push_cast
    omega
  unfold Coherent
  rcases Nat.eq_zero_or_pos ((calculateDelta prev curr).ticks % 2 ^ 64) with zero | positive
  · rw [calculateMetrics_zero zero]
    rw [zero] at wrapped
    exact iff_of_true ⟨by norm_num, by norm_num⟩ (.inl wrapped)
  · have moves : (((calculateDelta prev curr).ticks % 2 ^ 64 : ℕ) : ℤ) ≠ 0 := by
      exact_mod_cast positive.ne'
    have regrouped : (moved prev curr user + moved prev curr system +
        (moved prev curr idle + moved prev curr iowait) + (moved prev curr nice +
          moved prev curr irq + moved prev curr softirq + moved prev curr steal)) % 2 ^ 64 =
        ((calculateDelta prev curr).ticks % 2 ^ 64 : ℕ) := by
      rw [← wrapped]
      congr 1
      ring
    rw [or_iff_right (wrapped.trans_ne moves), consistent_iff_cut rfl positive,
      ← cut_le_iff wrapped moves, ← cut_le_iff regrouped moves, ← waits, ← word user,
      ← word system, ← word iowait]
    norm_cast

end Movements

/-! ### Counters that do not go back -/

section Advances

variable {prev curr : CpuSample}

/-- No counter goes back, and together they grow by less than 2 ^ 64. -/
structure Advances (prev curr : CpuSample) : Prop where
  user : prev.user ≤ curr.user
  nice : prev.nice ≤ curr.nice
  system : prev.system ≤ curr.system
  idle : prev.idle ≤ curr.idle
  iowait : prev.iowait ≤ curr.iowait
  irq : prev.irq ≤ curr.irq
  softirq : prev.softirq ≤ curr.softirq
  steal : prev.steal ≤ curr.steal
  fits : curr.ticks - prev.ticks < 2 ^ 64

/-- The percentages of the tick differences; without a tick they are 0, as is any number over 0. -/
def percentages (prev curr : CpuSample) : CpuMetrics :=
  let diff (counter : CpuSample → UInt64) : ℚ := (counter curr).toNat - (counter prev).toNat
  let total : ℚ := curr.ticks - prev.ticks
  { totalPercent := 100 * (total - diff idle - diff iowait) / total
    userPercent := 100 * diff user / total
    systemPercent := 100 * diff system / total
    iowaitPercent := 100 * diff iowait / total }

theorem Advances.ticks_le (h : Advances prev curr) : prev.ticks ≤ curr.ticks := by
  obtain ⟨user, nice, system, idle, iowait, irq, softirq, steal, -⟩ := h
  rw [UInt64.le_iff_toNat_le] at user nice system idle iowait irq softirq steal
  unfold ticks
  omega

theorem Advances.ticks_delta (h : Advances prev curr) :
    (calculateDelta prev curr).ticks = curr.ticks - prev.ticks := by
  obtain ⟨user, nice, system, idle, iowait, irq, softirq, steal, -⟩ := h
  simp only [ticks, calculateDelta, UInt64.toNat_sub_of_le _ _ user,
    UInt64.toNat_sub_of_le _ _ nice, UInt64.toNat_sub_of_le _ _ system,
    UInt64.toNat_sub_of_le _ _ idle, UInt64.toNat_sub_of_le _ _ iowait,
    UInt64.toNat_sub_of_le _ _ irq,
    UInt64.toNat_sub_of_le _ _ softirq, UInt64.toNat_sub_of_le _ _ steal]
  rw [UInt64.le_iff_toNat_le] at user nice system idle iowait irq softirq steal
  omega

/-- Nothing goes back. -/
theorem Advances.coherent (h : Advances prev curr) : Coherent prev curr := by
  obtain ⟨user, nice, system, idle, iowait, irq, softirq, steal, fits⟩ := h
  rw [UInt64.le_iff_toNat_le] at user nice system idle iowait irq softirq steal
  have forth {move : ℤ} (le : 0 ≤ move) (lt : move < 2 ^ 64) : borrowed move = 0 := by
    unfold borrowed
    omega
  unfold ticks at fits
  refine .inr ⟨.inr ?_, .inr ?_⟩
  · simp only [moved]
    rw [forth, forth, forth, forth] <;> omega
  · simp only [moved]
    rw [forth, forth, forth, forth] <;> omega

theorem cast_sub_counter {a b : UInt64} (h : a ≤ b) : ((b - a).toNat : ℚ) = b.toNat - a.toNat := by
  rw [UInt64.toNat_sub_of_le _ _ h, Nat.cast_sub (UInt64.le_iff_toNat_le.1 h)]

theorem calculateMetrics_delta (h : Advances prev curr) :
    calculateMetrics (calculateDelta prev curr) = percentages prev curr := by
  have fits : (calculateDelta prev curr).ticks < 2 ^ 64 := h.ticks_delta ▸ h.fits
  have total : ((calculateDelta prev curr).ticks : ℚ) = curr.ticks - prev.ticks := by
    rw [h.ticks_delta, Nat.cast_sub h.ticks_le]
  rw [calculateMetrics_of_fits fits, total]
  simp only [calculateDelta, percentages, cast_sub_counter h.user, cast_sub_counter h.system,
    cast_sub_counter h.idle, cast_sub_counter h.iowait]

/-- The exact percentages leave idle time out of the total and count nothing twice. -/
theorem percentages_le (h : Advances prev curr) :
    (percentages prev curr).Consistent ∧
      (percentages prev curr).totalPercent + (percentages prev curr).iowaitPercent ≤ 100 := by
  refine ⟨calculateMetrics_delta h ▸ consistent_iff.2 h.coherent, ?_⟩
  have idle : (prev.idle.toNat : ℚ) ≤ curr.idle.toNat :=
    Nat.cast_le.2 (UInt64.le_iff_toNat_le.1 h.idle)
  have total : (prev.ticks : ℚ) ≤ curr.ticks := Nat.cast_le.2 h.ticks_le
  unfold percentages
  rw [← add_div]
  refine div_le_of_le_mul₀ ?_ (by norm_num) ?_
  · linarith
  · linarith

end Advances

end CpuSample

end SmoothDemon
