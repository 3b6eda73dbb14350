import Mathlib.Algebra.Group.Action.Defs
import Mathlib.Data.UInt
import SmoothDemon.Library.Grid
import SmoothDemon.Library.While

/-!
# The presentation pacer

`PresentationPacer` (include/pacer/PresentationPacer.h, src/pacer/PresentationPacer.cpp) in the
unsigned 64-bit arithmetic of the source.  `calculateNextWakeup_spec` is what the rest of the
development knows about its catch-up loop: while no sum leaves the 64-bit range, the deadline
returned is the first VBlank of the schedule that can still be met, minus the reserved time.
-/

namespace SmoothDemon

open Grid Loop

def kDefaultRedZoneNs : UInt64 := 1650000

def kStartingDrawTimeNs : UInt64 := 3000000

def kDecayAlpha : UInt64 := 980

def kDecayMax : UInt64 := 1000

/-- A non-positive rate stands for 60 Hz; rates above 10^9 give the interval 0. -/
def refreshHzToIntervalNs (refreshRateHz : Int32) : UInt64 :=
  let refreshRateHz := if refreshRateHz ≤ 0 then 60 else refreshRateHz
  1000000000 / UInt64.ofNat refreshRateHz.toNatClampNeg

structure PresentationPacer where
  refreshIntervalNs : UInt64
  lastVBlankNs : UInt64 := 0
  rollingMaxDrawTimeNs : UInt64 := kStartingDrawTimeNs
  redZoneNs : UInt64 := kDefaultRedZoneNs
  deriving DecidableEq

namespace PresentationPacer

/-- The constructor. -/
def construct (refreshRateHz : Int32) : PresentationPacer :=
  { refreshIntervalNs := refreshHzToIntervalNs refreshRateHz }

def setRefreshRateHz (p : PresentationPacer) (refreshRateHz : Int32) : PresentationPacer :=
  { p with refreshIntervalNs := refreshHzToIntervalNs refreshRateHz }

def setRedZoneNs (p : PresentationPacer) (redZoneNs : UInt64) : PresentationPacer :=
  { p with redZoneNs := redZoneNs }

def markVBlank (p : PresentationPacer) (vblankMonotonicNs : UInt64) : PresentationPacer :=
  { p with lastVBlankNs := vblankMonotonicNs }

/-- The rolling maximum before it is clamped: up to a spike at once, down by 2 % of the gap. -/
def decayed (p : PresentationPacer) (drawTimeNs : UInt64) : UInt64 :=
  if p.rollingMaxDrawTimeNs < drawTimeNs then drawTimeNs
  else (kDecayAlpha * p.rollingMaxDrawTimeNs + (kDecayMax - kDecayAlpha) * drawTimeNs) / kDecayMax

def updateLastDrawDuration (p : PresentationPacer) (drawTimeNs : UInt64) : PresentationPacer :=
  { p with
    rollingMaxDrawTimeNs :=
      if p.redZoneNs < p.refreshIntervalNs then
        min (p.decayed drawTimeNs) (p.refreshIntervalNs - p.redZoneNs)
      else 0 }

def offsetNs (p : PresentationPacer) : UInt64 := p.rollingMaxDrawTimeNs + p.redZoneNs

/-- `none` is a catch-up loop that never ends: a `while` over 64-bit values that has not ended after
one test per value never does. -/
def calculateNextWakeup (p : PresentationPacer) (currentMonotonicNs : UInt64) : Option UInt64 :=
  let targetVBlank := p.lastVBlankNs + p.refreshIntervalNs
  (whileLoop (fun target => decide (target < currentMonotonicNs + p.offsetNs))
    (fun target => target + p.refreshIntervalNs) UInt64.size targetVBlank).map
    fun target => target - p.offsetNs

@[simp] theorem updateLastDrawDuration_refreshIntervalNs (p : PresentationPacer) (d : UInt64) :
    (p.updateLastDrawDuration d).refreshIntervalNs = p.refreshIntervalNs := rfl

@[simp] theorem updateLastDrawDuration_lastVBlankNs (p : PresentationPacer) (d : UInt64) :
    (p.updateLastDrawDuration d).lastVBlankNs = p.lastVBlankNs := rfl

@[simp] theorem updateLastDrawDuration_redZoneNs (p : PresentationPacer) (d : UInt64) :
    (p.updateLastDrawDuration d).redZoneNs = p.redZoneNs := rfl

/-- The loop leaves iff it leaves after some number of rounds, whatever the bound on them. -/
theorem calculateNextWakeup_eq_some_iff (p : PresentationPacer) (now w : UInt64) :
    p.calculateNextWakeup now = some w ↔
      ∃ n, LeavesAfter (fun target => decide (target < now + p.offsetNs))
          (fun target => target + p.refreshIntervalNs) n (p.lastVBlankNs + p.refreshIntervalNs) ∧
        w = (fun target => target + p.refreshIntervalNs)^[n]
          (p.lastVBlankNs + p.refreshIntervalNs) - p.offsetNs := by
  simp only [calculateNextWakeup, Option.map_eq_some_iff, whileLoop_eq_some_iff]
  constructor
  · rintro ⟨target, ⟨n, -, leaves, rfl⟩, rfl⟩
    exact ⟨n, leaves, rfl⟩
  · rintro ⟨n, leaves, rfl⟩
    have fuel : n < UInt64.size :=
      leaves.lt_of_bounded UInt64.toNat (fun _ _ => UInt64.toNat_inj.1) UInt64.toNat_lt_size
    exact ⟨_, ⟨n, fuel, leaves, rfl⟩, rfl⟩

/-! ### The wakeup in exact arithmetic -/

/-- The reserved time before a VBlank, added without wrapping. -/
def offset (p : PresentationPacer) : ℕ := p.rollingMaxDrawTimeNs.toNat + p.redZoneNs.toNat

/-- No sum that `calculateNextWakeup now` computes exceeds `2 ^ 64 - 1`. -/
structure FitsU64 (p : PresentationPacer) (now : UInt64) : Prop where
  offset : p.offset < 2 ^ 64
  deadline : now.toNat + p.offset < 2 ^ 64
  first : p.lastVBlankNs.toNat + p.refreshIntervalNs.toNat < 2 ^ 64
  later : ∀ k, p.lastVBlankNs.toNat + (k + 1) * p.refreshIntervalNs.toNat < now.toNat + p.offset →
    p.lastVBlankNs.toNat + (k + 2) * p.refreshIntervalNs.toNat < 2 ^ 64

theorem FitsU64.of_bound {p : PresentationPacer} {now : UInt64}
    (first : p.lastVBlankNs.toNat + p.refreshIntervalNs.toNat < 2 ^ 64)
    (bound : now.toNat + p.offset + p.refreshIntervalNs.toNat < 2 ^ 64) : p.FitsU64 now where
  offset := by omega
  deadline := by omega
  first := first
  later k early := by
    have step : (k + 2) * p.refreshIntervalNs.toNat =
        (k + 1) * p.refreshIntervalNs.toNat + p.refreshIntervalNs.toNat := Nat.succ_mul (k + 1) _
    omega

theorem toNat_offsetNs {p : PresentationPacer} (h : p.offset < 2 ^ 64) :
    p.offsetNs.toNat = p.offset := by
  rw [offsetNs, UInt64.toNat_add]
  exact Nat.mod_eq_of_lt h

/-- The catch-up loop after `m` rounds. -/
def visited (p : PresentationPacer) (m : ℕ) : UInt64 :=
  (fun target => target + p.refreshIntervalNs)^[m] (p.lastVBlankNs + p.refreshIntervalNs)

theorem toNat_visited {p : PresentationPacer} {m : ℕ}
    (h : p.lastVBlankNs.toNat + (m + 1) * p.refreshIntervalNs.toNat < 2 ^ 64) :
    (p.visited m).toNat = p.lastVBlankNs.toNat + (m + 1) * p.refreshIntervalNs.toNat := by
  induction m with
  | zero =>
    rw [zero_add, one_mul] at h ⊢
    exact (UInt64.toNat_add _ _).trans (Nat.mod_eq_of_lt h)
  | succ m ih =>
    have step : (m + 1 + 1) * p.refreshIntervalNs.toNat =
        (m + 1) * p.refreshIntervalNs.toNat + p.refreshIntervalNs.toNat := Nat.succ_mul (m + 1) _
    have before := ih (by omega)
    rw [visited] at before ⊢
    rw [Function.iterate_succ_apply', UInt64.toNat_add, before, Nat.mod_eq_of_lt (by omega)]
    omega

theorem toNat_deadline {p : PresentationPacer} {now : UInt64} (h : now.toNat + p.offset < 2 ^ 64) :
    (now + p.offsetNs).toNat = now.toNat + p.offset := by
  rw [UInt64.toNat_add, toNat_offsetNs (by omega)]
  exact Nat.mod_eq_of_lt h

/-- The catch-up loop runs `n` rounds, and none of its targets wraps. -/
structure Rounds (p : PresentationPacer) (now : UInt64) (n : ℕ) : Prop where
  early : ∀ m < n, p.visited m < now + p.offsetNs
  due : ¬ p.visited n < now + p.offsetNs
  exactly : ∀ m ≤ n,
    (p.visited m).toNat = p.lastVBlankNs.toNat + (m + 1) * p.refreshIntervalNs.toNat
  inRange : p.lastVBlankNs.toNat + (n + 1) * p.refreshIntervalNs.toNat < 2 ^ 64
  least : IsLeast {m | now.toNat + p.offset ≤
    p.lastVBlankNs.toNat + (m + 1) * p.refreshIntervalNs.toNat} n

/-- The number of rounds is the least that reaches the deadline in exact arithmetic. -/
theorem exists_rounds {p : PresentationPacer} {now : UInt64} (positive : 0 < p.refreshIntervalNs)
    (fits : p.FitsU64 now) : ∃ n, p.Rounds now n := by
  set V := p.lastVBlankNs.toNat with hV
  set I := p.refreshIntervalNs.toNat with hI
  have pos : 0 < I := UInt64.lt_iff_toNat_lt.1 positive
  have deadline := toNat_deadline fits.deadline
  have reaches : ∃ n, now.toNat + p.offset ≤ V + (n + 1) * I := by
    refine ⟨now.toNat + p.offset, ?_⟩
    have enough := Nat.le_mul_of_pos_right (now.toNat + p.offset + 1) pos
    omega
  set n := Nat.find reaches
  have reached : now.toNat + p.offset ≤ V + (n + 1) * I := Nat.find_spec reaches
  have before (m : ℕ) (hm : m < n) : V + (m + 1) * I < now.toNat + p.offset :=
    not_le.1 (Nat.find_min reaches hm)
  have inRange : V + (n + 1) * I < 2 ^ 64 := by
    rcases Nat.eq_zero_or_pos n with zero | pos
    · rw [zero, zero_add, one_mul]
      exact fits.first
    · obtain ⟨m, hm⟩ := Nat.exists_eq_add_of_le' pos
      rw [hm]
      exact fits.later m (before m (by omega))
  have exactly (m : ℕ) (hm : m ≤ n) : (p.visited m).toNat = V + (m + 1) * I := by
    have le : (m + 1) * I ≤ (n + 1) * I := Nat.mul_le_mul_right I (by omega)
    exact toNat_visited (lt_of_le_of_lt (Nat.add_le_add_left le V) inRange)
  refine ⟨n, fun m hm => ?_, ?_, exactly, inRange, reached, fun m hm => Nat.find_min' reaches hm⟩
  · rw [UInt64.lt_iff_toNat_lt, deadline]
    exact (exactly m hm.le).trans_lt (before m hm)
  · rw [UInt64.lt_iff_toNat_lt, deadline, not_lt]
    exact reached.trans_eq (exactly n le_rfl).symm

namespace Rounds

variable {p : PresentationPacer} {now : UInt64} {n : ℕ}

theorem returned (h : p.Rounds now n) :
    p.calculateNextWakeup now = some (p.visited n - p.offsetNs) := by
  refine (p.calculateNextWakeup_eq_some_iff now _).2 ⟨n, ⟨fun m hm => ?_, ?_⟩, rfl⟩
  · exact decide_eq_true (h.early m hm)
  · exact decide_eq_false h.due

theorem offset_le (h : p.Rounds now n) (fits : p.offset < 2 ^ 64) : p.offsetNs ≤ p.visited n := by
  have reached : now.toNat + p.offset ≤ _ := h.least.1
  rw [UInt64.le_iff_toNat_le, h.exactly n le_rfl, toNat_offsetNs fits]
  omega

/-- The wakeup lies the reserved time before the last target. -/
theorem toNat_wakeup (h : p.Rounds now n) (fits : p.offset < 2 ^ 64) :
    (p.visited n - p.offsetNs).toNat + p.offset =
      p.lastVBlankNs.toNat + (n + 1) * p.refreshIntervalNs.toNat := by
  have reached : now.toNat + p.offset ≤ _ := h.least.1
  rw [UInt64.toNat_sub_of_le _ _ (h.offset_le fits), h.exactly n le_rfl, toNat_offsetNs fits]
  omega

end Rounds

/-- Without overflow and with a positive interval the call returns, and it aims at the first VBlank
after the anchor that `now` plus the reserved time does not pass. -/
theorem calculateNextWakeup_spec {p : PresentationPacer} {now : UInt64}
    (positive : 0 < p.refreshIntervalNs) (fits : p.FitsU64 now) :
    ∃ w, p.calculateNextWakeup now = some w ∧ w.toNat + p.offset < 2 ^ 64 ∧
      IsNextTick p.lastVBlankNs.toNat p.refreshIntervalNs.toNat (now.toNat + p.offset)
        (w.toNat + p.offset) := by
  obtain ⟨n, rounds⟩ := exists_rounds positive fits
  refine ⟨_, rounds.returned, ?_⟩
  rw [rounds.toNat_wakeup fits.offset]
  refine ⟨rounds.inRange, ⟨⟨n, by rw [smul_eq_mul]⟩, rounds.least.1⟩, ?_⟩
  rintro t ⟨⟨m, rfl⟩, due⟩
  rw [smul_eq_mul] at due ⊢
  have le : n ≤ m := rounds.least.2 due
  exact Nat.add_le_add_left (Nat.mul_le_mul_right _ (by omega)) _

end PresentationPacer

end SmoothDemon
