import SmoothDemon.Benchmark.HighResTimer
import SmoothDemon.Pacer.Estimate
import SmoothDemon.Pacer.TimerFd
import SmoothDemon.Pacer.Wakeup

/-!
# The paced loop

The loop of tests/test_pacer.cpp is where the pacer, the timer and the clock meet.  The thread reads
a `HighResTimer`, which counts from its construction, and arms a `TimerFd` with the wakeup computed
from that reading, which the kernel takes as an instant of its monotonic clock.  With a timer that
could be created and polls that do not fail, which the loop does not look at, work therefore never
starts before its wakeup on the kernel's clock (`always_due`); but on a machine that was up for as
many intervals as there are frames, every wakeup has passed when the timer is armed, and the loop
never sleeps (`always_awake`).
-/

namespace SmoothDemon

/-- Where the thread of the loop is, with its locals. -/
inductive LoopPc where
  | anchoring
  | top
  | arming (wakeupNs : UInt64)
  | calling (wakeupNs : UInt64)
  | waiting (wakeupNs : UInt64)
  | working (wakeupNs workStart : UInt64)
  deriving DecidableEq

structure PacedLoop where
  timer : TimerFd
  clock : HighResTimer
  pacer : PresentationPacer
  frame : ℕ := 0
  pc : LoopPc := .anchoring
  deriving DecidableEq

namespace PacedLoop

/-- The state after the three constructors, none of which failed, `start` being the monotonic clock
at the last. -/
def launch (refreshRateHz : Int32) (start : ℕ) : PacedLoop where
  timer := { now := start }
  clock := HighResTimer.construct start
  pacer := PresentationPacer.construct refreshRateHz

def elapsed (s : PacedLoop) : UInt64 := s.clock.elapsedNs s.timer.now

def simulatedWorkMs (frame : ℕ) : ℕ := if frame % 30 = 0 then 9 else 4

inductive Action where
  | tick (n : ℕ)
  | markVBlank
  | calculateNextWakeup
  | armAbsolute
  | callWait
  | interrupted
  | pollReturns
  | drainRead
  | readTimer
  | startWork
  | endWork
  deriving DecidableEq

variable (capacity : ℕ+) (frames : ℕ)

/-- A call of the thread on the timer, after which it is at `pc`. -/
def onTimer (s : PacedLoop) (a : TimerFd.Action) (pc : LoopPc) : Option PacedLoop :=
  (s.timer.step capacity a).map fun timer => { s with timer, pc }

def step (s : PacedLoop) : Action → Option PacedLoop
  | .tick n => s.onTimer capacity (.tick n) s.pc
  | .markVBlank =>
    if s.pc = .anchoring then some { s with pacer := s.pacer.markVBlank s.elapsed, pc := .top }
    else none
  | .calculateNextWakeup =>
    if s.pc = .top ∧ s.frame < frames then
      (s.pacer.calculateNextWakeup s.elapsed).map fun wakeupNs => { s with pc := .arming wakeupNs }
    else none
  | .armAbsolute =>
    match s.pc with
    | .arming wakeupNs => s.onTimer capacity (.armAbsolute wakeupNs) (.calling wakeupNs)
    | _ => none
  | .callWait =>
    match s.pc with
    | .calling wakeupNs => s.onTimer capacity .callWait (.waiting wakeupNs)
    | _ => none
  | .interrupted => s.onTimer capacity .interrupted s.pc
  | .pollReturns => s.onTimer capacity .pollReturns s.pc
  | .drainRead => s.onTimer capacity .drainRead s.pc
  | .readTimer => s.onTimer capacity .readTimer s.pc
  | .startWork =>
    match s.pc with
    | .waiting wakeupNs =>
      if s.timer.waiter = .out then some { s with pc := .working wakeupNs s.elapsed } else none
    | _ => none
  | .endWork =>
    match s.pc with
    | .working wakeupNs workStart =>
      -- the sleep takes at least as long as it is asked to
      if workStart.toNat + simulatedWorkMs s.frame * 1000000 ≤ s.elapsed.toNat then
        some { s with
          pacer := (s.pacer.updateLastDrawDuration (s.elapsed - workStart)).markVBlank wakeupNs
          frame := s.frame + 1
          pc := .top }
      else none
    | _ => none

/-- What a step does, one case for each outcome. -/
inductive Step (s : PacedLoop) : PacedLoop → Prop
  | tick (n : ℕ) : Step s { s with timer := { s.timer with now := s.timer.now + n } }
  | anchor (pc : s.pc = .anchoring) :
      Step s { s with pacer := s.pacer.markVBlank s.elapsed, pc := .top }
  | calculate {w : UInt64} (pc : s.pc = .top) (left : s.frame < frames)
      (returned : s.pacer.calculateNextWakeup s.elapsed = some w) :
      Step s { s with pc := .arming w }
  | arm {w : UInt64} {timer : TimerFd} (pc : s.pc = .arming w)
      (taken : s.timer.Step (.armAbsolute w) timer) : Step s { s with timer, pc := .calling w }
  | call {w : UInt64} {timer : TimerFd} (pc : s.pc = .calling w)
      (taken : s.timer.Step .callWait timer) : Step s { s with timer, pc := .waiting w }
  | wait {a : TimerFd.Action} {timer : TimerFd} (inside : a = .interrupted ∨ a.ofWaiter)
      (taken : s.timer.Step a timer) : Step s { s with timer }
  | start {w : UInt64} (pc : s.pc = .waiting w) (out : s.timer.waiter = .out) :
      Step s { s with pc := .working w s.elapsed }
  | finish {w workStart : UInt64} (pc : s.pc = .working w workStart) (slept : 0 < s.elapsed.toNat) :
      Step s { s with
        pacer := (s.pacer.updateLastDrawDuration (s.elapsed - workStart)).markVBlank w
        frame := s.frame + 1
        pc := .top }

variable {capacity frames} {s s' : PacedLoop}

theorem simulatedWorkMs_pos (frame : ℕ) : 0 < simulatedWorkMs frame := by
  unfold simulatedWorkMs
  split_ifs <;> decide

theorem onTimer_cases {a : TimerFd.Action} {pc : LoopPc}
    (h : s.onTimer capacity a pc = some s') :
    ∃ timer, s.timer.Step a timer ∧ s' = { s with timer, pc } := by
  obtain ⟨timer, taken, rfl⟩ := Option.map_eq_some_iff.1 h
  exact ⟨timer, TimerFd.step_cases taken, rfl⟩

theorem step_cases {a : Action} (h : s.step capacity frames a = some s') : s.Step frames s' := by
  cases a with
  | tick n =>
    cases h
    exact .tick n
  | markVBlank =>
    simp only [step, Option.ite_none_right_eq_some] at h
    obtain ⟨pc, ⟨⟩⟩ := h
    exact .anchor pc
  | calculateNextWakeup =>
    simp only [step, Option.ite_none_right_eq_some, Option.map_eq_some_iff] at h
    obtain ⟨⟨pc, left⟩, w, returned, rfl⟩ := h
    exact .calculate pc left returned
  | armAbsolute =>
    simp only [step] at h
    split at h
    · next w pc =>
      obtain ⟨timer, taken, rfl⟩ := onTimer_cases h
      exact .arm pc taken
    · cases h
  | callWait =>
    simp only [step] at h
    split at h
    · next w pc =>
      obtain ⟨timer, taken, rfl⟩ := onTimer_cases h
      exact .call pc taken
    · cases h
  | interrupted =>
    obtain ⟨timer, taken, rfl⟩ := onTimer_cases h
    exact .wait (.inl rfl) taken
  | pollReturns =>
    obtain ⟨timer, taken, rfl⟩ := onTimer_cases h
    exact .wait (.inr (.inl rfl)) taken
  | drainRead =>
    obtain ⟨timer, taken, rfl⟩ := onTimer_cases h
    exact .wait (.inr (.inr (.inl rfl))) taken
  | readTimer =>
    obtain ⟨timer, taken, rfl⟩ := onTimer_cases h
    exact .wait (.inr (.inr (.inr rfl))) taken
  | startWork =>
    simp only [step] at h
    split at h
    · next w pc =>
      simp only [Option.ite_none_right_eq_some] at h
      obtain ⟨out, ⟨⟩⟩ := h
      exact .start pc out
    · cases h
  | endWork =>
    simp only [step] at h
    split at h
    · next w workStart pc =>
      simp only [Option.ite_none_right_eq_some] at h
      obtain ⟨slept, ⟨⟩⟩ := h
      have some := simulatedWorkMs_pos s.frame
      exact .finish pc (by omega)
    · cases h

/-- The clock of the loop counts from `start`. -/
theorem elapsed_add {start : ℕ} (clock : s.clock.start = start) (later : start ≤ s.timer.now)
    (fits : s.timer.now < 2 ^ 64) : s.elapsed.toNat + start = s.timer.now := by
  have value := HighResTimer.toNat_ofInt (d := (s.timer.now : ℤ) - start) (by omega) (by omega)
  rw [elapsed, HighResTimer.elapsedNs, clock]
  omega

theorem timer_now_le {timer timer' : TimerFd} {a : TimerFd.Action}
    (taken : timer.Step a timer') : timer.now ≤ timer'.now := by
  cases taken with
  | tick n => exact Nat.le_add_right _ n
  | _ => exact le_rfl

theorem now_le (taken : s.Step frames s') : s.timer.now ≤ s'.timer.now := by
  cases taken with
  | tick n => exact Nat.le_add_right _ n
  | arm pc taken => exact timer_now_le taken
  | call pc taken => exact timer_now_le taken
  | wait inside taken => exact timer_now_le taken
  | _ => exact le_rfl

/-! ### Work never starts early -/

/-- Where the thread is in `Wait`, and the timer it has armed. -/
def DueAt (start : ℕ) (timer : TimerFd) : LoopPc → Prop
  | .anchoring => timer.waiter = .out
  | .top => timer.waiter = .out
  | .arming _ => timer.waiter = .out
  | .calling w => timer.waiter = .out ∧ timer.timer = (Itimerspec.ofNanos w).deadline?
  | .waiting w => (timer.waiter = .out ∧ w.toNat ≤ timer.now) ∨
      ((timer.waiter = .polling ∨ timer.waiter = .reading) ∧
        timer.timer = (Itimerspec.ofNanos w).deadline?)
  | .working w workStart => timer.waiter = .out ∧ w.toNat ≤ start + workStart.toNat

structure Due (start : ℕ) (s : PacedLoop) : Prop where
  clock : s.clock.start = start
  later : start ≤ s.timer.now
  pipe : s.timer.pipe = 0
  phase : DueAt start s.timer s.pc

/-- A call inside `Wait` while the pipe is empty. -/
theorem wait_cases {timer timer' : TimerFd} {a : TimerFd.Action}
    (inside : a = .interrupted ∨ a.ofWaiter) (empty : timer.pipe = 0)
    (taken : timer.Step a timer') :
    (timer.waiter = .polling ∧ timer' = timer) ∨
      (timer.waiter = .polling ∧ timer' = { timer with waiter := .reading }) ∨
      (timer.waiter = .draining) ∨
      (timer.waiter = .reading ∧ timer' = { timer with waiter := .polling }) ∨
      (timer.waiter = .reading ∧ timer.Expired ∧ timer' =
        { timer with timer := none, waiter := .out, log := .returned true timer.now :: timer.log })
      := by
  cases taken with
  | interrupt polling => exact .inl ⟨polling, rfl⟩
  | wake polling bytes => exact absurd bytes (by omega)
  | expire polling _ expired => exact .inr (.inl ⟨polling, rfl⟩)
  | drain draining bytes => exact .inr (.inr (.inl draining))
  | bail draining _ => exact .inr (.inr (.inl draining))
  | fire reading expired => exact .inr (.inr (.inr (.inr ⟨reading, expired, rfl⟩)))
  | again reading pending => exact .inr (.inr (.inr (.inl ⟨reading, rfl⟩)))
  | _ => simp [TimerFd.Action.ofWaiter] at inside

/-- Outside of `Wait` the thread makes none of its calls. -/
theorem DueAt.waiting {start : ℕ} {timer : TimerFd} {pc : LoopPc} (h : DueAt start timer pc)
    (inside : timer.waiter ≠ .out) : ∃ w, pc = .waiting w ∧
      (timer.waiter = .polling ∨ timer.waiter = .reading) ∧
        timer.timer = (Itimerspec.ofNanos w).deadline? := by
  cases pc with
  | anchoring => exact absurd h inside
  | top => exact absurd h inside
  | arming w => exact absurd h inside
  | calling w => exact absurd h.1 inside
  | waiting w => exact ⟨w, rfl, h.resolve_left fun out => inside out.1⟩
  | working w workStart => exact absurd h.1 inside

/-- An expired timer is one that was armed with an instant of the past. -/
theorem le_of_expired {timer : TimerFd} {w : UInt64}
    (armed : timer.timer = (Itimerspec.ofNanos w).deadline?) (expired : timer.Expired) :
    w.toNat ≤ timer.now := by
  obtain ⟨d, some, passed⟩ := expired
  rw [armed, Itimerspec.deadline?_ofNanos] at some
  split_ifs at some with zero
  · cases some
  · cases some
    exact passed

theorem DueAt.tick {start : ℕ} {timer : TimerFd} {pc : LoopPc} (h : DueAt start timer pc) (n : ℕ) :
    DueAt start { timer with now := timer.now + n } pc := by
  cases pc with
  | waiting w => exact h.imp_left fun out => ⟨out.1, out.2.trans (Nat.le_add_right _ n)⟩
  | _ => exact h

theorem Due.step {start : ℕ} (h : s.Due start) (fits : s.timer.now < 2 ^ 64)
    (taken : s.Step frames s') : s'.Due start := by
  have exact_elapsed := elapsed_add h.clock h.later fits
  obtain ⟨clock, later, pipe, phase⟩ := h
  cases taken with
  | tick n =>
    exact ⟨clock, later.trans (Nat.le_add_right _ n), pipe, phase.tick n⟩
  | anchor pc =>
    rw [pc] at phase
    exact ⟨clock, later, pipe, phase⟩
  | calculate pc left returned =>
    rw [pc] at phase
    exact ⟨clock, later, pipe, phase⟩
  | arm pc taken =>
    rw [pc] at phase
    cases taken
    exact ⟨clock, later, pipe, phase, rfl⟩
  | call pc taken =>
    rw [pc] at phase
    cases taken
    exact ⟨clock, later, pipe, .inr ⟨.inl rfl, phase.2⟩⟩
  | wait inside taken =>
    have same := timer_now_le taken
    rcases wait_cases inside pipe taken with ⟨at_poll, rfl⟩ | ⟨at_poll, rfl⟩ | draining |
      ⟨reading, rfl⟩ | ⟨reading, expired, rfl⟩
    · exact ⟨clock, later, pipe, phase⟩
    · obtain ⟨w, pc, -, armed⟩ := phase.waiting (by simp [at_poll])
      exact ⟨clock, later, pipe, pc ▸ .inr ⟨.inr rfl, armed⟩⟩
    · obtain ⟨w, pc, other, armed⟩ := phase.waiting (by simp [draining])
      simp [draining] at other
    · obtain ⟨w, pc, -, armed⟩ := phase.waiting (by simp [reading])
      exact ⟨clock, later, pipe, pc ▸ .inr ⟨.inl rfl, armed⟩⟩
    · obtain ⟨w, pc, -, armed⟩ := phase.waiting (by simp [reading])
      have passed : w.toNat ≤ s.timer.now := le_of_expired armed expired
      exact ⟨clock, later, pipe, pc ▸ .inl ⟨rfl, passed⟩⟩
  | start pc out =>
    rw [pc] at phase
    obtain ⟨-, passed⟩ | ⟨inside, -⟩ := phase
    · exact ⟨clock, later, pipe, out, by omega⟩
    · simp [out] at inside
  | finish pc slept =>
    rw [pc] at phase
    exact ⟨clock, later, pipe, phase.1⟩

/-- In every run, while the monotonic clock fits its word, the work of a frame starts at an instant
of that clock that its wakeup has reached. -/
theorem always_due (capacity : ℕ+) (frames : ℕ) (hz : Int32) (start : ℕ) (as : List Action) :
    Transition.Always (step capacity frames)
      (fun s => s.timer.now < 2 ^ 64 → ∀ w workStart, s.pc = .working w workStart →
        w.toNat ≤ start + workStart.toNat)
      (launch hz start) as := by
  have first : (launch hz start).Due start := ⟨rfl, le_rfl, rfl, rfl⟩
  have anything : Transition.Each (step capacity frames) (fun _ _ => True) (launch hz start) as :=
    fun _ _ _ _ _ _ _ => trivial
  have due : Transition.Always (step capacity frames) (fun s => s.timer.now < 2 ^ 64 → s.Due start)
      (launch hz start) as :=
    Transition.always_of_each (fun s a s' h _ taken fits => by
      have before := lt_of_le_of_lt (now_le (step_cases taken)) fits
      exact (h before).step before (step_cases taken)) (fun _ => first) anything
  refine due.mono fun s h fits w workStart pc => ?_
  have phase := (h fits).phase
  rw [pc] at phase
  exact phase.2

/-! ### The loop never sleeps -/

/-- The wakeup is not zero, and at most a frame's share of intervals ahead of the monotonic
clock. -/
def Lead (interval start : ℕ) (s : PacedLoop) (w : UInt64) : Prop :=
  0 < w.toNat ∧ w.toNat + start ≤ s.timer.now + (s.frame + 1) * interval

def AheadAt (interval start frames : ℕ) (s : PacedLoop) : LoopPc → Prop
  | .anchoring => s.frame = 0 ∧ ¬ interval ∣ s.pacer.offset
  | .top => (start < s.timer.now ∨ s.pacer.lastVBlankNs = 0 ∧ ¬ interval ∣ s.pacer.offset) ∧
      s.pacer.lastVBlankNs.toNat + start ≤ s.timer.now + s.frame * interval
  | .arming w => s.frame < frames ∧ s.Lead interval start w
  | .calling w => s.frame < frames ∧ s.Lead interval start w
  | .waiting w => s.frame < frames ∧ s.Lead interval start w
  | .working w _ => s.frame < frames ∧ s.Lead interval start w

structure Ahead (interval start frames : ℕ) (s : PacedLoop) : Prop where
  rate : s.pacer.refreshIntervalNs.toNat = interval
  redZone : s.pacer.redZoneNs = kDefaultRedZoneNs
  reserved : s.pacer.offset ≤ 5000000 + interval
  counted : s.frame ≤ frames
  phase : s.AheadAt interval start frames s.pc

section Ahead

variable {interval start : ℕ}

/-- Time that passes is no harm, nor is a change that leaves the pacer and the counter alone. -/
theorem Lead.mono {w : UInt64} (h : s.Lead interval start w) (later : s.timer.now ≤ s'.timer.now)
    (frame : s'.frame = s.frame) : s'.Lead interval start w := by
  refine ⟨h.1, ?_⟩
  have lead := h.2
  rw [frame]
  omega

theorem AheadAt.mono {pc : LoopPc} (h : s.AheadAt interval start frames pc)
    (later : s.timer.now ≤ s'.timer.now) (frame : s'.frame = s.frame)
    (pacer : s'.pacer = s.pacer) : s'.AheadAt interval start frames pc := by
  cases pc with
  | anchoring =>
    obtain ⟨zero, apart⟩ := h
    exact ⟨frame.trans zero, pacer ▸ apart⟩
  | top =>
    obtain ⟨started, anchored⟩ := h
    refine ⟨started.imp (fun lt => lt.trans_le later) fun rest => pacer ▸ rest, ?_⟩
    rw [pacer, frame]
    omega
  | arming w => exact ⟨frame ▸ h.1, h.2.mono later frame⟩
  | calling w => exact ⟨frame ▸ h.1, h.2.mono later frame⟩
  | waiting w => exact ⟨frame ▸ h.1, h.2.mono later frame⟩
  | working w workStart => exact ⟨frame ▸ h.1, h.2.mono later frame⟩

/-- The shares of the frames so far do not exceed the time the machine was up. -/
theorem share_le (up : frames * interval ≤ start) {n : ℕ} (n_le : n ≤ frames) :
    n * interval ≤ start :=
  (Nat.mul_le_mul_right interval n_le).trans up

/-- With the interval 0 the loop hangs in its first `CalculateNextWakeup`. -/
theorem not_returned_of_zero (h : s.Ahead 0 start frames) (due : s.Due start)
    (fits : s.timer.now < 2 ^ 62) (pc : s.pc = .top) {w : UInt64} :
    s.pacer.calculateNextWakeup s.elapsed ≠ some w := by
  intro returned
  have read := elapsed_add due.clock due.later (by omega)
  obtain ⟨rate, redZone, reserved, -, phase⟩ := h
  rw [pc] at phase
  have behind := phase.2
  have zone : s.pacer.redZoneNs.toNat = 1650000 := by rw [redZone]; rfl
  have some : 0 < s.pacer.offset := by
    rw [PresentationPacer.offset]
    omega
  have zero : s.pacer.refreshIntervalNs = 0 := UInt64.toNat_inj.1 rate
  have early : s.elapsed.toNat + s.pacer.offset < 2 ^ 64 := by omega
  have ahead := (PresentationPacer.returns_iff_of_zero zero early).1 ⟨w, returned⟩
  omega

theorem lead_of_calculate (h : s.Ahead interval start frames) (due : s.Due start)
    (second : interval ≤ 1000000000) (up : frames * interval ≤ start)
    (fits : s.timer.now < 2 ^ 62) (pc : s.pc = .top) {w : UInt64}
    (returned : s.pacer.calculateNextWakeup s.elapsed = some w) : s.Lead interval start w := by
  rcases Nat.eq_zero_or_pos interval with rfl | positive
  · exact absurd returned (not_returned_of_zero h due fits pc)
  have read := elapsed_add due.clock due.later (by omega)
  have later := due.later
  obtain ⟨rate, -, reserved, counted, phase⟩ := h
  rw [pc] at phase
  obtain ⟨started, anchored⟩ := phase
  have share := share_le up counted
  have room : s.pacer.FitsU64 s.elapsed :=
    .of_bound (by rw [rate]; omega) (by rw [rate]; omega)
  have nonzero : 0 < s.pacer.refreshIntervalNs := by
    rw [UInt64.lt_iff_toNat_lt, rate]
    exact positive
  obtain ⟨w', returned', -, aims⟩ := PresentationPacer.calculateNextWakeup_spec nonzero room
  obtain rfl : w = w' := Option.some.inj (returned.symm.trans returned')
  rw [rate] at aims
  have bound := aims.le_max_add positive
  have due' := aims.le
  refine ⟨?_, ?_⟩
  · rcases started with started | ⟨zero, apart⟩
    · omega
    · by_contra none
      obtain ⟨k, hk⟩ := aims.mem
      refine apart ⟨k + 1, ?_⟩
      have anchor : s.pacer.lastVBlankNs.toNat = 0 := by rw [zero]; rfl
      rw [anchor, smul_eq_mul] at hk
      rw [mul_comm]
      omega
  · rw [Nat.succ_mul]
    omega

/-- The clamp of the estimate bounds what is reserved. -/
theorem reserved_le (h : s.Ahead interval start frames) (d w : UInt64) :
    ((s.pacer.updateLastDrawDuration d).markVBlank w).offset ≤ 5000000 + interval := by
  show (s.pacer.updateLastDrawDuration d).rollingMaxDrawTimeNs.toNat + s.pacer.redZoneNs.toNat ≤ _
  have zone : s.pacer.redZoneNs.toNat = 1650000 := by rw [h.redZone]; rfl
  rw [PresentationPacer.toNat_clamped, h.rate, zone]
  omega

theorem Ahead.step (h : s.Ahead interval start frames) (due : s.Due start)
    (second : interval ≤ 1000000000) (up : frames * interval ≤ start)
    (fits : s.timer.now < 2 ^ 62) (taken : s.Step frames s') : s'.Ahead interval start frames := by
  have read := elapsed_add due.clock due.later (by omega)
  have lead := lead_of_calculate h due second up fits
  have clamped := reserved_le h
  have later := now_le taken
  obtain ⟨rate, redZone, reserved, counted, phase⟩ := h
  cases taken with
  | tick n => exact ⟨rate, redZone, reserved, counted, phase.mono later rfl rfl⟩
  | anchor pc =>
    rw [pc] at phase
    obtain ⟨zero, apart⟩ := phase
    refine ⟨rate, redZone, reserved, counted, ?_, ?_⟩
    · show start < s.timer.now ∨ s.elapsed = 0 ∧ _
      rcases due.later.lt_or_eq with started | same
      · exact .inl started
      · refine .inr ⟨?_, apart⟩
        rw [← UInt64.toNat_inj, UInt64.toNat_zero]
        omega
    · show s.elapsed.toNat + start ≤ s.timer.now + s.frame * interval
      omega
  | calculate pc left returned =>
    exact ⟨rate, redZone, reserved, counted, left, lead pc returned⟩
  | arm pc taken =>
    rw [pc] at phase
    exact ⟨rate, redZone, reserved, counted, phase.1, phase.2.mono later rfl⟩
  | call pc taken =>
    rw [pc] at phase
    exact ⟨rate, redZone, reserved, counted, phase.1, phase.2.mono later rfl⟩
  | wait inside taken => exact ⟨rate, redZone, reserved, counted, phase.mono later rfl rfl⟩
  | start pc out =>
    rw [pc] at phase
    exact ⟨rate, redZone, reserved, counted, phase⟩
  | finish pc slept =>
    rw [pc] at phase
    exact ⟨rate, redZone, clamped _ _, phase.1, .inl (by omega), phase.2.2⟩

end Ahead

/-- A thread in `Wait` has nothing to wait for. -/
def Awake (s : PacedLoop) : Prop :=
  s.timer.waiter ≠ .out → s.timer.waiter ≠ .draining ∧ s.timer.Expired

theorem awake_of_ahead {interval start : ℕ} (h : s.Ahead interval start frames)
    (due : s.Due start) (up : frames * interval ≤ start) : s.Awake := by
  intro inside
  obtain ⟨w, pc, at_call, armed⟩ := due.phase.waiting inside
  have phase := h.phase
  rw [pc] at phase
  obtain ⟨left, nonzero, lead⟩ := phase
  have share := share_le up (Nat.succ_le_of_lt left)
  refine ⟨?_, w.toNat, ?_, ?_⟩
  · rcases at_call with polling | reading
    · simp [polling]
    · simp [reading]
  · rw [armed, Itimerspec.deadline?_ofNanos, if_neg (by omega)]
    rfl
  · rw [Nat.succ_eq_add_one] at share
    omega

/-- On a machine that has been up for as many intervals as the loop has frames, every wakeup has
passed when it is armed: in every state of every run in which the thread is in `Wait`, the timer has
expired. -/
theorem always_awake (capacity : ℕ+) (frames : ℕ) (hz : Int32) (start : ℕ)
    (apart : ¬ (refreshHzToIntervalNs hz).toNat ∣ (PresentationPacer.construct hz).offset)
    (up : frames * (refreshHzToIntervalNs hz).toNat ≤ start) (as : List Action) :
    Transition.Always (step capacity frames) (fun s => s.timer.now < 2 ^ 62 → s.Awake)
      (launch hz start) as := by
  set interval := (refreshHzToIntervalNs hz).toNat
  have second : interval ≤ 1000000000 := PresentationPacer.refreshHzToIntervalNs_le hz
  have due : (launch hz start).Due start := ⟨rfl, le_rfl, rfl, rfl⟩
  have ahead : (launch hz start).Ahead interval start frames := by
    refine ⟨rfl, rfl, ?_, Nat.zero_le frames, rfl, apart⟩
    show kStartingDrawTimeNs.toNat + kDefaultRedZoneNs.toNat ≤ 5000000 + interval
    have zone : kStartingDrawTimeNs.toNat + kDefaultRedZoneNs.toNat = 4650000 := rfl
    omega
  have anything : Transition.Each (step capacity frames) (fun _ _ => True) (launch hz start) as :=
    fun _ _ _ _ _ _ _ => trivial
  have both : Transition.Always (step capacity frames)
      (fun s => s.timer.now < 2 ^ 62 → s.Due start ∧ s.Ahead interval start frames)
      (launch hz start) as :=
    Transition.always_of_each (fun s a s' h _ taken fits => by
      have taken := step_cases taken
      have before := lt_of_le_of_lt (now_le taken) fits
      obtain ⟨due, ahead⟩ := h before
      exact ⟨due.step (by omega) taken, ahead.step due second up before taken⟩)
      (fun _ => ⟨due, ahead⟩) anything
  exact both.mono fun s h fits => awake_of_ahead (h fits).2 (h fits).1 up

/-- The 120 frames of the test at 60 Hz, two seconds after boot. -/
theorem always_awake_sixty :
    Transition.Always (step 65536 120) (fun s => s.timer.now < 2 ^ 62 → s.Awake)
      (launch 60 2000000000)
      [.tick 5, .markVBlank, .calculateNextWakeup, .armAbsolute, .callWait, .pollReturns] :=
  always_awake 65536 120 60 2000000000 (by decide) (by decide) _

end PacedLoop

end SmoothDemon
