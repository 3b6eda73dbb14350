import SmoothDemon.Pacer.DrawTime

/-!
# Durations of events

include/compute/OpenCLProfiling.h with the answers of `clGetEventProfilingInfo` as inputs, and what
its durations do to the estimate of the pacer.  A query that fails leaves a 0, which
`GetEventDurationNs` takes for a timestamp.  Where the start alone is missing, the duration is all
the time on the device clock; in every other case it is right, and no failed query raises the
estimate (`reliable_iff`).
-/

namespace SmoothDemon

/-- `CL_PROFILING_COMMAND_START` and `CL_PROFILING_COMMAND_END`. -/
inductive ProfilingInfo
  | commandStart
  | commandEnd

/-- The timestamp that each query of an event writes, `none` where the query fails. -/
abbrev ClEvent := ProfilingInfo → Option UInt64

namespace OpenCLProfiling

/-- What the call leaves of the variable it is given. -/
def clGetEventProfilingInfo (event : ClEvent) (info : ProfilingInfo) (value : UInt64) : UInt64 :=
  (event info).getD value

def getEventStartNs (event : ClEvent) : UInt64 := clGetEventProfilingInfo event .commandStart 0

def getEventEndNs (event : ClEvent) : UInt64 := clGetEventProfilingInfo event .commandEnd 0

def getEventDurationNs (event : ClEvent) : UInt64 :=
  let start := getEventStartNs event
  let endNs := getEventEndNs event
  if start < endNs then endNs - start else 0

/-! ### What a duration should be -/

/-- The time between the timestamps, 0 where one is missing or the end is not the later one. -/
def executionNs (event : ClEvent) : ℕ :=
  match event .commandStart, event .commandEnd with
  | some start, some endNs => endNs.toNat - start.toNat
  | _, _ => 0

def Failed (event : ClEvent) : Prop := event .commandStart = none ∨ event .commandEnd = none

/-- The duration is the time between the timestamps, and a failed query does not raise the estimate
of the pacer it is fed to. -/
structure Reliable (event : ClEvent) (p : PresentationPacer) : Prop where
  measured : (getEventDurationNs event).toNat = executionNs event
  notRaised : Failed event →
    (p.updateLastDrawDuration (getEventDurationNs event)).rollingMaxDrawTimeNs ≤
      p.rollingMaxDrawTimeNs

/-- An end other than 0 comes with a start. -/
def Paired (event : ClEvent) : Prop :=
  ∀ endNs ∈ event .commandEnd, 0 < endNs → (event .commandStart).isSome

/-! ### What it is -/

variable {event : ClEvent} {endNs : UInt64}

/-- A missing timestamp counts as 0. -/
theorem toNat_getEventDurationNs (event : ClEvent) :
    (getEventDurationNs event).toNat =
      ((event .commandEnd).getD 0).toNat - ((event .commandStart).getD 0).toNat := by
  unfold getEventDurationNs getEventStartNs getEventEndNs clGetEventProfilingInfo
  dsimp only
  split_ifs with later
  · have le := (UInt64.lt_iff_toNat_lt.1 later).le
    exact UInt64.toNat_sub_of_le _ _ (UInt64.le_iff_toNat_le.2 le)
  · have early := mt UInt64.lt_iff_toNat_lt.2 later
    rw [UInt64.toNat_zero]
    omega

theorem executionNs_of_failed (failed : Failed event) : executionNs event = 0 := by
  unfold executionNs
  split
  · rename_i start endNs hasStart hasEnd
    rcases failed with missing | missing
    · rw [missing] at hasStart
      cases hasStart
    · rw [missing] at hasEnd
      cases hasEnd
  · rfl

theorem measured_iff (event : ClEvent) :
    (getEventDurationNs event).toNat = executionNs event ↔ Paired event := by
  rw [toNat_getEventDurationNs, Paired, executionNs]
  cases event .commandEnd with
  | none => cases event .commandStart <;> simp
  | some endNs =>
    cases event .commandStart with
    | none => simp [UInt64.lt_iff_toNat_lt]
    | some start => simp

theorem getEventDurationNs_of_paired (failed : Failed event) (paired : Paired event) :
    getEventDurationNs event = 0 := by
  have measured := (measured_iff event).2 paired
  rwa [executionNs_of_failed failed, ← UInt64.toNat_zero, UInt64.toNat_inj] at measured

/-- With the start missing, the duration is the end. -/
theorem lt_getEventDurationNs_iff (failed : Failed event) (estimate : UInt64) :
    estimate < getEventDurationNs event ↔
      event .commandStart = none ∧ ∃ endNs ∈ event .commandEnd, estimate < endNs := by
  rw [UInt64.lt_iff_toNat_lt, toNat_getEventDurationNs]
  cases ending : event .commandEnd with
  | none => simp
  | some endNs =>
    have missing : event .commandStart = none := by
      refine failed.resolve_right fun none => ?_
      rw [ending] at none
      cases none
    simp [missing, UInt64.lt_iff_toNat_lt]

/-! ### What it does to the pacer -/

open PresentationPacer

/-- A failed query raises the estimate iff the start is missing, the end exceeds the estimate, and
the cap leaves room for more. -/
theorem raised_iff (failed : Failed event) (p : PresentationPacer) :
    p.rollingMaxDrawTimeNs <
        (p.updateLastDrawDuration (getEventDurationNs event)).rollingMaxDrawTimeNs ↔
      (event .commandStart = none ∧ ∃ endNs ∈ event .commandEnd, p.rollingMaxDrawTimeNs < endNs) ∧
        p.rollingMaxDrawTimeNs.toNat < p.cap := by
  rw [lt_updateLastDrawDuration_iff, lt_getEventDurationNs_iff failed]

/-- The duration of an event is right, and does no harm to any pacer where a query failed, iff an
end other than 0 comes with a start. -/
theorem reliable_iff (event : ClEvent) (p : PresentationPacer) :
    Reliable event p ↔ Paired event := by
  constructor
  · intro h
    exact (measured_iff event).1 h.measured
  · intro paired
    refine ⟨(measured_iff event).2 paired, fun failed => ?_⟩
    rw [getEventDurationNs_of_paired failed paired, ← UInt64.not_lt, lt_updateLastDrawDuration_iff]
    exact fun raised => UInt64.not_lt_zero raised.1

section Example

/-- The start query fails, five seconds after the device was started. -/
def lostStart : ClEvent
  | .commandStart => none
  | .commandEnd => some 5000000000

/-- The estimate goes up from 3 ms to all the room there is. -/
theorem not_reliable_lostStart :
    (construct 60).LeavesRoom ∧ Failed lostStart ∧ ¬ Reliable lostStart (construct 60) := by
  refine ⟨by decide, .inl rfl, fun h => ?_⟩
  exact absurd (h.notRaised (.inl rfl)) (by decide)

end Example

/-! ### Runs -/

variable {p : PresentationPacer} {hz : Int32}

/-- An event with both timestamps. -/
def executed (start endNs : UInt64) : ClEvent
  | .commandStart => some start
  | .commandEnd => some endNs

/-- Over events that are paired the estimate of any pacer that calls lead to stays within what was
executed and what it was. -/
theorem updates_le_of_paired (reached : Transition.Reachable step (construct hz) p)
    {events : List ClEvent} (paired : ∀ event ∈ events, Paired event) :
    (p.updates (events.map getEventDurationNs)).rollingMaxDrawTimeNs.toNat ≤
      (events.map executionNs).foldl max p.rollingMaxDrawTimeNs.toNat := by
  have within := withinSecond_of_reachable reached
  have same : (events.map getEventDurationNs).map UInt64.toNat = events.map executionNs := by
    rw [List.map_map]
    exact List.map_congr_left fun event member => (measured_iff event).2 (paired event member)
  rw [toNat_updates within.interval within.estimate, same]
  exact foldl_smoothed_le_max _

/-- A new pacer at 240 Hz starts above the cap. -/
theorem updates_le_of_paired_two :
    ((construct 240).updates ([executed 100 2000100, executed 200 1000200].map
        getEventDurationNs)).rollingMaxDrawTimeNs.toNat ≤
      ([executed 100 2000100, executed 200 1000200].map executionNs).foldl max
        (construct 240).rollingMaxDrawTimeNs.toNat := by
  have new : Transition.Reachable step (construct 240) (construct 240) := ⟨[], rfl⟩
  refine updates_le_of_paired new ?_
  simp [Paired, executed]

/-- An event that is not paired is remembered by any pacer that calls lead to, and fades by 2 % with
each one after it. -/
theorem le_updates_of_missing (reached : Transition.Reachable step (construct hz) p)
    (older newer : List ClEvent) (missing : event .commandStart = none)
    (ended : event .commandEnd = some endNs) :
    (49 / 50 : ℚ) ^ newer.length * (min endNs.toNat p.cap : ℕ) - 50 ≤
      (p.updates ((older ++ event :: newer).map
        getEventDurationNs)).rollingMaxDrawTimeNs.toNat := by
  have within := withinSecond_of_reachable reached
  have duration : (getEventDurationNs event).toNat = endNs.toNat := by
    simp [toNat_getEventDurationNs, missing, ended]
  have spike := spike_le_foldl_smoothed p.cap p.rollingMaxDrawTimeNs.toNat
    ((older.map getEventDurationNs).map UInt64.toNat)
    ((newer.map getEventDurationNs).map UInt64.toNat) endNs.toNat
  rw [List.length_map, List.length_map, ← duration, ← List.map_cons, ← List.map_append,
    ← List.map_cons, ← List.map_append] at spike
  rw [toNat_updates within.interval within.estimate, ← duration]
  exact spike

theorem le_updates_of_missing_lostStart :
    (49 / 50 : ℚ) ^ (List.replicate 2 (executed 100 2000100)).length *
        (min (5000000000 : UInt64).toNat (construct 240).cap : ℕ) - 50 ≤
      ((construct 240).updates (([] ++ lostStart ::
        List.replicate 2 (executed 100 2000100)).map
          getEventDurationNs)).rollingMaxDrawTimeNs.toNat := by
  have new : Transition.Reachable step (construct 240) (construct 240) := ⟨[], rfl⟩
  exact le_updates_of_missing new [] _ rfl rfl

end OpenCLProfiling

end SmoothDemon
