import Mathlib.Data.UInt
import SmoothDemon.Library.Rounding

/-!
# The high resolution timer

`HighResTimer` (src/benchmark/HighResTimer.cpp) on a steady clock in nanoseconds.  Between two
resets the deltas that `Tick*` reports, in whatever units they are asked for, add up to what
`Elapsed*` reports, up to the roundings of one report on either side (`elapsed_near_ticked`).
-/

namespace SmoothDemon

structure HighResTimer where
  start : ℤ
  lastTick : ℤ
  deriving DecidableEq

namespace HighResTimer

open Rounding

/-- The constructor. -/
def construct (now : ℤ) : HighResTimer := { start := now, lastTick := now }

def reset (_t : HighResTimer) (now : ℤ) : HighResTimer := { start := now, lastTick := now }

def elapsedNs (t : HighResTimer) (now : ℤ) : UInt64 := UInt64.ofInt (now - t.start)

/-- A duration in units of `unit` nanoseconds: its count, as a `double`, is divided. -/
def elapsedIn (unit : ℚ) (t : HighResTimer) (now : ℤ) : ℚ := ratio 53 (now - t.start : ℤ) unit

def elapsedUs : HighResTimer → ℤ → ℚ := elapsedIn 1000

def elapsedMs : HighResTimer → ℤ → ℚ := elapsedIn 1000000

def elapsedSec : HighResTimer → ℤ → ℚ := elapsedIn 1000000000

def tickNs (t : HighResTimer) (now : ℤ) : HighResTimer × UInt64 :=
  ({ t with lastTick := now }, UInt64.ofInt (now - t.lastTick))

def tickIn (unit : ℚ) (t : HighResTimer) (now : ℤ) : HighResTimer × ℚ :=
  ({ t with lastTick := now }, ratio 53 (now - t.lastTick : ℤ) unit)

def tickUs : HighResTimer → ℤ → HighResTimer × ℚ := tickIn 1000

def tickMs : HighResTimer → ℤ → HighResTimer × ℚ := tickIn 1000000

def tickSec : HighResTimer → ℤ → HighResTimer × ℚ := tickIn 1000000000

/-! ### What is reported -/

inductive Scale where
  | ns
  | us
  | ms
  | sec
  deriving DecidableEq

def Scale.nanos : Scale → ℚ
  | .ns => 1
  | .us => 1000
  | .ms => 1000000
  | .sec => 1000000000

theorem Scale.nanos_pos (scale : Scale) : 0 < scale.nanos := by
  cases scale <;> norm_num [Scale.nanos]

/-- How often a report is rounded. -/
def Scale.roundings : Scale → ℕ
  | .ns => 0
  | _ => 2

theorem Scale.roundings_le (scale : Scale) : scale.roundings ≤ 2 := by
  cases scale <;> decide

def elapsed (t : HighResTimer) (now : ℤ) : Scale → ℚ
  | .ns => (t.elapsedNs now).toNat
  | .us => t.elapsedUs now
  | .ms => t.elapsedMs now
  | .sec => t.elapsedSec now

def tick (t : HighResTimer) (now : ℤ) : Scale → HighResTimer × ℚ
  | .ns => ((t.tickNs now).1, (t.tickNs now).2.toNat)
  | .us => t.tickUs now
  | .ms => t.tickMs now
  | .sec => t.tickSec now

inductive Call where
  | reset
  | elapsed (scale : Scale)
  | tick (scale : Scale)

/-- A tick is rounded `k` times at most. -/
def Call.Within (k : ℕ) : Call → Prop
  | .tick scale => scale.roundings ≤ k
  | _ => True

/-- A timer, and the nanoseconds its ticks have reported since the last reset. -/
structure Ticked where
  timer : HighResTimer
  reported : ℚ := 0

namespace Ticked

def step (s : Ticked) (now : ℤ) : Call → Ticked
  | .reset => { timer := s.timer.reset now }
  | .elapsed _ => s
  | .tick scale =>
    { timer := (s.timer.tick now scale).1
      reported := s.reported + (s.timer.tick now scale).2 * scale.nanos }

/-- A timer constructed at `now`, after calls that each read the clock. -/
def run (now : ℤ) (calls : List (ℤ × Call)) : Ticked :=
  calls.foldl (fun s call => s.step call.1 call.2) { timer := construct now }

end Ticked

/-! ### Deltas add up -/

theorem toNat_ofInt {d : ℤ} (nonneg : 0 ≤ d) (fits : d < 2 ^ 64) :
    ((UInt64.ofInt d).toNat : ℤ) = d := by
  rw [UInt64.ofInt, UInt64.toNat_ofNat']
  omega

theorem near_ratio_mul {d : ℤ} (nonneg : 0 ≤ d) {unit : ℚ} (positive : 0 < unit) :
    Near 53 2 (ratio 53 d unit * unit) d := by
  have count : (0 : ℚ) ≤ d := Int.cast_nonneg nonneg
  have scaled := (near_ratio (p := 53) (by decide) count positive).mul_right positive.le
  rwa [div_mul_cancel₀ _ positive.ne'] at scaled

/-- A report times its unit is the duration, but for its roundings, as long as the clock does not go
back and the duration fits the word of the nanoseconds. -/
theorem near_elapsed (t : HighResTimer) {now : ℤ} (forward : t.start ≤ now)
    (fits : now - t.start < 2 ^ 64) (scale : Scale) :
    Near 53 scale.roundings (t.elapsed now scale * scale.nanos) (now - t.start : ℤ) := by
  have nonneg : 0 ≤ now - t.start := by omega
  cases scale with
  | ns =>
    have value := toNat_ofInt nonneg fits
    refine near_zero_iff.2 ?_
    rw [elapsed, Scale.nanos, mul_one, ← value]
    rfl
  | us => exact near_ratio_mul nonneg (Scale.nanos_pos .us)
  | ms => exact near_ratio_mul nonneg (Scale.nanos_pos .ms)
  | sec => exact near_ratio_mul nonneg (Scale.nanos_pos .sec)

theorem near_tick (t : HighResTimer) {now : ℤ} (forward : t.lastTick ≤ now)
    (fits : now - t.lastTick < 2 ^ 64) (scale : Scale) :
    (t.tick now scale).1 = { t with lastTick := now } ∧ Near 53 scale.roundings
      ((t.tick now scale).2 * scale.nanos) (now - t.lastTick : ℤ) := by
  have nonneg : 0 ≤ now - t.lastTick := by omega
  cases scale with
  | ns =>
    have value := toNat_ofInt nonneg fits
    refine ⟨rfl, near_zero_iff.2 ?_⟩
    rw [tick, Scale.nanos, mul_one, ← value]
    rfl
  | us => exact ⟨rfl, near_ratio_mul nonneg (Scale.nanos_pos .us)⟩
  | ms => exact ⟨rfl, near_ratio_mul nonneg (Scale.nanos_pos .ms)⟩
  | sec => exact ⟨rfl, near_ratio_mul nonneg (Scale.nanos_pos .sec)⟩

/-- The anchors lie in order between the construction and the latest call, and the ticks so far,
each rounded `k` times at most, cover the time between them. -/
structure Balanced (k : ℕ) (created now : ℤ) (s : Ticked) : Prop where
  created : created ≤ s.timer.start
  order : s.timer.start ≤ s.timer.lastTick
  latest : s.timer.lastTick ≤ now
  reported : Near 53 k s.reported (s.timer.lastTick - s.timer.start : ℤ)

variable {k : ℕ}

theorem Balanced.tick {created now : ℤ} {s : Ticked} (h : Balanced k created now s)
    (fits : now - created < 2 ^ 64) {scale : Scale} (within : scale.roundings ≤ k) :
    (s.timer.tick now scale).1 = { s.timer with lastTick := now } ∧
      Near 53 k (s.reported + (s.timer.tick now scale).2 * scale.nanos)
        (now - s.timer.start : ℤ) := by
  obtain ⟨created', order, latest, reported⟩ := h
  obtain ⟨timer, delta⟩ := near_tick s.timer latest (by omega) scale
  have nonneg : (0 : ℚ) ≤ (now - s.timer.lastTick : ℤ) := Int.cast_nonneg (by omega)
  have whole : ((s.timer.lastTick - s.timer.start : ℤ) : ℚ) + (now - s.timer.lastTick : ℤ) =
      (now - s.timer.start : ℤ) := by
    push_cast
    ring
  exact ⟨timer, whole ▸ reported.add (delta.mono nonneg within)⟩

theorem Balanced.step {created before now : ℤ} {s : Ticked} (h : Balanced k created before s)
    (forward : before ≤ now) (fits : now - created < 2 ^ 64) {call : Call}
    (within : call.Within k) : Balanced k created now (s.step now call) := by
  have waited : Balanced k created now s :=
    ⟨h.created, h.order, h.latest.trans forward, h.reported⟩
  cases call with
  | reset =>
    have reset : created ≤ now := h.created.trans (h.order.trans waited.latest)
    refine ⟨reset, le_rfl, le_rfl, ?_⟩
    simp [Ticked.step, HighResTimer.reset, Near]
  | elapsed scale => exact waited
  | tick scale =>
    obtain ⟨timer, reported⟩ := waited.tick fits within
    have order : s.timer.start ≤ now := h.order.trans waited.latest
    simp only [Ticked.step, timer]
    exact ⟨h.created, order, le_rfl, reported⟩

theorem balanced_foldl {created before now : ℤ} {s : Ticked} {calls : List (ℤ × Call)}
    (h : Balanced k created before s)
    (ordered : (before :: (calls.map Prod.fst ++ [now])).Pairwise (· ≤ ·))
    (fits : now - created < 2 ^ 64) (within : ∀ call ∈ calls, call.2.Within k) :
    Balanced k created now (calls.foldl (fun s call => s.step call.1 call.2) s) := by
  induction calls generalizing before s with
  | nil =>
    have forward : before ≤ now := by simpa using ordered
    exact ⟨h.created, h.order, h.latest.trans forward, h.reported⟩
  | cons call calls ih =>
    obtain ⟨first, rest⟩ := List.pairwise_cons.1 ordered
    obtain ⟨here, later⟩ := List.forall_mem_cons.1 within
    have forward : before ≤ call.1 := first _ (by simp)
    have ahead : call.1 ≤ now := (List.pairwise_cons.1 rest).1 _ (by simp)
    exact ih (h.step forward (by omega) here) rest later

theorem near_of_within (created : ℤ) (calls : List (ℤ × Call)) (now : ℤ)
    (ordered : (created :: (calls.map Prod.fst ++ [now])).Pairwise (· ≤ ·))
    (fits : now - created < 2 ^ 64) (within : ∀ call ∈ calls, call.2.Within k) {scale : Scale}
    (asked : scale.roundings ≤ k) :
    let s := Ticked.run created calls
    Near 53 (k + k) (s.timer.elapsed now scale * scale.nanos)
      (s.reported + (s.timer.tick now scale).2 * scale.nanos) := by
  intro s
  have start : Balanced k created created { timer := construct created } :=
    ⟨le_rfl, le_rfl, le_rfl, by simp [construct, Near]⟩
  have balanced : Balanced k created now s := balanced_foldl start ordered fits within
  have created' := balanced.created
  have forward : s.timer.start ≤ now := balanced.order.trans balanced.latest
  have nonneg : (0 : ℚ) ≤ (now - s.timer.start : ℤ) := Int.cast_nonneg (by omega)
  have elapsed := near_elapsed s.timer forward (by omega) scale
  exact (elapsed.mono nonneg asked).trans (balanced.tick fits asked).2.symm

/-- On a clock that never goes back, what `Elapsed*` reports in any unit is what the ticks since the
last reset reported, each in its own unit, and the time since the last of them: but for the two
roundings of a report on either side, and exactly when everything is reported in nanoseconds. -/
theorem elapsed_near_ticked (created : ℤ) (calls : List (ℤ × Call)) (now : ℤ)
    (ordered : (created :: (calls.map Prod.fst ++ [now])).Pairwise (· ≤ ·))
    (fits : now - created < 2 ^ 64) (scale : Scale) :
    let s := Ticked.run created calls
    let elapsed := s.timer.elapsed now scale * scale.nanos
    let ticked := s.reported + (s.timer.tick now scale).2 * scale.nanos
    Near 53 4 elapsed ticked ∧
      (scale = .ns → (∀ call ∈ calls, call.2.Within 0) → elapsed = ticked) := by
  constructor
  · refine near_of_within created calls now ordered fits (fun call _ => ?_) scale.roundings_le
    cases call.2 with
    | tick scale => exact scale.roundings_le
    | _ => trivial
  · rintro rfl exactly
    exact near_zero_iff.1 (near_of_within created calls now ordered fits exactly (Nat.le_refl 0))

/-- Ticks in two units around a reset. -/
theorem elapsed_near_ticked_mixed :
    let s := Ticked.run 5
      [(1005, .tick .us), (2000, .reset), (4500, .tick .ms), (4600, .elapsed .ns)]
    Near 53 4 (s.timer.elapsed 5000 .ns * Scale.ns.nanos)
      (s.reported + (s.timer.tick 5000 .ns).2 * Scale.ns.nanos) :=
  (elapsed_near_ticked 5 _ 5000 (by decide) (by decide) .ns).1

end HighResTimer

end SmoothDemon
