import SmoothDemon.Library.Run
import SmoothDemon.Pacer.PresentationPacer

/-!
# The draw time estimate

`UpdateLastDrawDuration` clamps the estimate so that it and the red zone fit in one refresh interval
(`LeavesRoom`).  No other operation clamps, so over a run of arbitrary calls the room survives
exactly when the constructor's rate leaves it for the starting estimate and every setter leaves it
for the estimate in force (`always_leavesRoom_iff`).
-/

namespace SmoothDemon

open Transition

namespace PresentationPacer

inductive Op
  | updateLastDrawDuration (drawTimeNs : UInt64)
  | setRefreshRateHz (refreshRateHz : Int32)
  | setRedZoneNs (redZoneNs : UInt64)
  | markVBlank (vblankMonotonicNs : UInt64)
  | calculateNextWakeup (currentMonotonicNs : UInt64)

/-- One call; a wakeup calculation that never returns has no next state. -/
def step (p : PresentationPacer) : Op → Option PresentationPacer
  | .updateLastDrawDuration d => some (p.updateLastDrawDuration d)
  | .setRefreshRateHz hz => some (p.setRefreshRateHz hz)
  | .setRedZoneNs r => some (p.setRedZoneNs r)
  | .markVBlank t => some (p.markVBlank t)
  | .calculateNextWakeup now => (p.calculateNextWakeup now).map fun _ => p

/-- The estimate leaves somewhere to schedule a wakeup. -/
def LeavesRoom (p : PresentationPacer) : Prop :=
  if p.redZoneNs < p.refreshIntervalNs then
    p.rollingMaxDrawTimeNs.toNat + p.redZoneNs.toNat ≤ p.refreshIntervalNs.toNat
  else p.rollingMaxDrawTimeNs = 0

instance (p : PresentationPacer) : Decidable p.LeavesRoom :=
  inferInstanceAs (Decidable (ite _ _ _))

/-- What a setter, which does not clamp, must leave for the estimate in force. -/
def KeepsRoom (p : PresentationPacer) : Op → Prop
  | .setRefreshRateHz hz =>
      p.rollingMaxDrawTimeNs.toNat ≤ (refreshHzToIntervalNs hz).toNat - p.redZoneNs.toNat
  | .setRedZoneNs r => p.rollingMaxDrawTimeNs.toNat ≤ p.refreshIntervalNs.toNat - r.toNat
  | _ => True

/-- In natural numbers, where the difference is zero once the red zone fills the interval, both
branches are one bound. -/
theorem leavesRoom_iff (p : PresentationPacer) :
    p.LeavesRoom ↔
      p.rollingMaxDrawTimeNs.toNat ≤ p.refreshIntervalNs.toNat - p.redZoneNs.toNat := by
  unfold LeavesRoom
  split_ifs with room
  · have := UInt64.lt_iff_toNat_lt.1 room
    omega
  · have none := mt UInt64.lt_iff_toNat_lt.2 room
    rw [← UInt64.toNat_inj, UInt64.toNat_zero]
    omega

theorem toNat_min (a b : UInt64) : (min a b).toNat = min a.toNat b.toNat := by
  change (if a ≤ b then a else b).toNat = _
  split_ifs with h <;> rw [UInt64.le_iff_toNat_le] at h <;> omega

/-- The clamp, whatever was added up before it. -/
theorem toNat_clamped (p : PresentationPacer) (drawTimeNs : UInt64) :
    (p.updateLastDrawDuration drawTimeNs).rollingMaxDrawTimeNs.toNat =
      min (p.decayed drawTimeNs).toNat (p.refreshIntervalNs.toNat - p.redZoneNs.toNat) := by
  simp only [updateLastDrawDuration]
  split_ifs with room
  · have lt := UInt64.lt_iff_toNat_lt.1 room
    rw [toNat_min, UInt64.toNat_sub_of_le _ _ (UInt64.le_iff_toNat_le.2 lt.le)]
  · have full := mt UInt64.lt_iff_toNat_lt.2 room
    rw [UInt64.toNat_zero]
    omega

theorem leavesRoom_updateLastDrawDuration (p : PresentationPacer) (drawTimeNs : UInt64) :
    (p.updateLastDrawDuration drawTimeNs).LeavesRoom := by
  rw [leavesRoom_iff, toNat_clamped]
  exact Nat.min_le_right _ _

theorem leavesRoom_step {p p' : PresentationPacer} {op : Op} (room : p.LeavesRoom)
    (h : p.step op = some p') : p'.LeavesRoom ↔ p.KeepsRoom op := by
  cases op with
  | updateLastDrawDuration d =>
    cases h
    exact iff_of_true (p.leavesRoom_updateLastDrawDuration d) trivial
  | setRefreshRateHz hz =>
    cases h
    exact leavesRoom_iff _
  | setRedZoneNs r =>
    cases h
    exact leavesRoom_iff _
  | markVBlank t =>
    cases h
    exact iff_of_true room trivial
  | calculateNextWakeup now =>
    obtain ⟨w, -, rfl⟩ := Option.map_eq_some_iff.1 h
    exact iff_of_true room trivial

/-! ### The interval -/

theorem toNat_refreshHzToIntervalNs (hz : Int32) :
    (refreshHzToIntervalNs hz).toNat =
      1000000000 / if hz.toInt ≤ 0 then 60 else hz.toInt.toNat := by
  have rate : (if hz ≤ 0 then (60 : Int32) else hz).toNatClampNeg =
      if hz.toInt ≤ 0 then 60 else hz.toInt.toNat := by
    have sign : hz ≤ 0 ↔ hz.toInt ≤ 0 := Int32.le_iff_toInt_le
    by_cases h : hz.toInt ≤ 0
    · rw [if_pos (sign.2 h), if_pos h]
      rfl
    · rw [if_neg (mt sign.1 h), if_neg h]
      rfl
  have small := hz.toInt_lt
  rw [refreshHzToIntervalNs, UInt64.toNat_div, rate, UInt64.toNat_ofNat_of_lt' ?_]
  · rfl
  · split_ifs
    · decide
    · change _ < 2 ^ 64
      omega

/-- No rate gives an interval of more than a second. -/
theorem refreshHzToIntervalNs_le (hz : Int32) : (refreshHzToIntervalNs hz).toNat ≤ 1000000000 := by
  rw [toNat_refreshHzToIntervalNs]
  exact Nat.div_le_self _ _

/-- The rate last given to the constructor or to `SetRefreshRateHz`. -/
def lastRate (hz : Int32) (ops : List Op) : Int32 :=
  ops.foldl (fun hz op => match op with
    | .setRefreshRateHz hz => hz
    | _ => hz) hz

/-- The interval is one that some rate gives. -/
def Rated (p : PresentationPacer) : Prop := ∃ hz, p.refreshIntervalNs = refreshHzToIntervalNs hz

theorem interval_of_run {hz : Int32} {ops : List Op} {p : PresentationPacer}
    (run : Run step (construct hz) ops p) :
    p.refreshIntervalNs = refreshHzToIntervalNs (lastRate hz ops) := by
  induction ops using List.reverseRecOn generalizing p with
  | nil =>
    obtain rfl := run_nil.1 run
    rfl
  | append_singleton ops op ih =>
    obtain ⟨q, before, last⟩ := run_concat.1 run
    have old := ih before
    rw [lastRate, List.foldl_append] at *
    cases op with
    | calculateNextWakeup now =>
      obtain ⟨w, -, rfl⟩ := Option.map_eq_some_iff.1 last
      exact old
    | setRefreshRateHz hz' =>
      cases last
      rfl
    | _ =>
      cases last
      exact old

/-- Nothing else writes the interval. -/
theorem rated_of_run {hz : Int32} {ops : List Op} {p : PresentationPacer}
    (run : Run step (construct hz) ops p) : p.Rated :=
  ⟨_, interval_of_run run⟩

theorem Rated.interval_le {p : PresentationPacer} (h : p.Rated) :
    p.refreshIntervalNs.toNat ≤ 1000000000 := by
  obtain ⟨hz, rate⟩ := h
  rw [rate]
  exact refreshHzToIntervalNs_le hz

/-! ### The starting estimate -/

/-- The starting estimate of 3 ms and the default red zone fit up to 215 Hz. -/
theorem leavesRoom_construct_iff (hz : Int32) : (construct hz).LeavesRoom ↔ hz ≤ 215 := by
  have start : (construct hz).LeavesRoom ↔ 4650000 ≤ (refreshHzToIntervalNs hz).toNat := by
    have estimate : kStartingDrawTimeNs.toNat = 3000000 := rfl
    have redZone : kDefaultRedZoneNs.toNat = 1650000 := rfl
    rw [leavesRoom_iff]
    simp only [construct, estimate, redZone]
    omega
  have bound : hz ≤ 215 ↔ hz.toInt ≤ 215 := Int32.le_iff_toInt_le
  rw [start, bound, toNat_refreshHzToIntervalNs]
  split_ifs with negative
  · exact iff_of_true (by decide) (by omega)
  · rw [Nat.le_div_iff_mul_le (by omega)]
    omega

/-- The room is there throughout a run iff the rate given to the constructor is at most 215 Hz and
every setter leaves enough of it for the estimate it meets. -/
theorem always_leavesRoom_iff (hz : Int32) (ops : List Op) :
    Always step LeavesRoom (construct hz) ops ↔
      hz ≤ 215 ∧ Each step KeepsRoom (construct hz) ops := by
  rw [← leavesRoom_construct_iff]
  have free : ∀ (p : PresentationPacer) op p', True → p.step op = some p' → True :=
    fun _ _ _ _ _ => trivial
  exact always_iff_each free (fun _ _ _ _ => leavesRoom_step) trivial

/-- A 240 Hz display: 3 ms and 1.65 ms do not fit in the interval of 4.17 ms. -/
theorem construct_no_room : 0 < (construct 240).refreshIntervalNs ∧
    ¬ Always step LeavesRoom (construct 240) [] :=
  ⟨by decide, fun h => absurd (h.last (run_nil.2 rfl)) (by decide)⟩

end PresentationPacer

end SmoothDemon
