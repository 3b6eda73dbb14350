import Mathlib.Data.PNat.Basic
import Mathlib.Data.UInt
import SmoothDemon.Library.Run

/-!
# The timer of the pacer

`TimerFd` (src/pacer/TimerFd.cpp) at the granularity of its system calls: one thread in `Wait`, and
any number of `ArmAbsolute` and `Disarm` calls of others.  The kernel keeps a one-shot timer and a
pipe of bounded capacity.  `Disarm` is two calls, and `Wait` a loop of poll, drain and read; a byte
in the pipe stays there until a `Wait` leaves its loop, so a `Disarm` that has completed is never
lost (`always_wakes`), and the timer in the kernel is the arming in force (`inForce`), so `Wait`
returns true only after the deadline of that one.
-/

namespace SmoothDemon

/-- What `settime` is given: seconds and nanoseconds of `it_value`. -/
structure Itimerspec where
  sec : ℕ
  nsec : ℕ

namespace Itimerspec

def ofNanos (monotonicNanos : UInt64) : Itimerspec where
  sec := monotonicNanos.toNat / 1000000000
  nsec := monotonicNanos.toNat % 1000000000

/-- A value of zero disarms the timer. -/
def deadline? (ts : Itimerspec) : Option ℕ :=
  if ts.sec = 0 ∧ ts.nsec = 0 then none else some (ts.sec * 1000000000 + ts.nsec)

theorem deadline?_ofNanos (t : UInt64) :
    (ofNanos t).deadline? = if t.toNat = 0 then none else some t.toNat := by
  unfold deadline? ofNanos
  split_ifs <;> grind

end Itimerspec

/-- Where the thread is in `Wait`. -/
inductive Waiter where
  | out
  | polling
  | draining
  | reading
  deriving DecidableEq

/-- What has happened: a timer set by `ArmAbsolute`, one cleared by `Disarm`, a `Disarm` completed,
a `Wait` entered, and the time at which one returned. -/
inductive TimerEvent where
  | armed (t : UInt64)
  | cleared
  | disarmed
  | entered
  | returned (fired : Bool) (time : ℕ)
  deriving DecidableEq

/-- The two descriptors and who uses them.  `timer` is the deadline of a timer whose expiration has
not been read, `disarming` the number of `Disarm` calls between their two system calls; the newest
event of `log` stands first. -/
structure TimerFd where
  now : ℕ := 0
  timer : Option ℕ := none
  pipe : ℕ := 0
  disarming : ℕ := 0
  waiter : Waiter := .out
  log : List TimerEvent := []
  deriving DecidableEq

namespace TimerFd

def Expired (s : TimerFd) : Prop := ∃ d ∈ s.timer, d ≤ s.now

instance (s : TimerFd) : Decidable s.Expired :=
  inferInstanceAs (Decidable (∃ d ∈ s.timer, d ≤ s.now))

/-- One of the descriptors is readable. -/
def PollReady (s : TimerFd) : Prop := 0 < s.pipe ∨ s.Expired

instance (s : TimerFd) : Decidable s.PollReady := inferInstanceAs (Decidable (_ ∨ _))

inductive Action where
  | tick (n : ℕ)
  | armAbsolute (monotonicNanos : UInt64)
  | disarmSettime
  | disarmWrite
  | callWait
  | interrupted
  | pollReturns
  | drainRead
  | readTimer
  deriving DecidableEq

/-- The calls of the thread in `Wait`. -/
def Action.ofWaiter (a : Action) : Prop := a = .pollReturns ∨ a = .drainRead ∨ a = .readTimer

variable (capacity : ℕ+)

def step (s : TimerFd) : Action → Option TimerFd
  | .tick n => some { s with now := s.now + n }
  | .armAbsolute t =>
    some { s with timer := (Itimerspec.ofNanos t).deadline?, log := .armed t :: s.log }
  | .disarmSettime =>
    some { s with timer := none, disarming := s.disarming + 1, log := .cleared :: s.log }
  | .disarmWrite =>
    if 0 < s.disarming then
      -- a full pipe refuses the byte
      some { s with
        pipe := if s.pipe < capacity then s.pipe + 1 else s.pipe
        disarming := s.disarming - 1
        log := .disarmed :: s.log }
    else none
  | .callWait =>
    if s.waiter = .out then some { s with waiter := .polling, log := .entered :: s.log } else none
  | .interrupted => if s.waiter = .polling then some s else none
  | .pollReturns =>
    if s.waiter = .polling ∧ s.PollReady then
      some { s with waiter := if 0 < s.pipe then .draining else .reading }
    else none
  | .drainRead =>
    if s.waiter = .draining then
      if 0 < s.pipe then some { s with pipe := s.pipe - 1 }
      else some { s with waiter := .out, log := .returned false s.now :: s.log }
    else none
  | .readTimer =>
    if s.waiter = .reading then
      if s.Expired then
        some { s with timer := none, waiter := .out, log := .returned true s.now :: s.log }
      else some { s with waiter := .polling } -- EAGAIN
    else none

/-- What a step does, one case for each outcome of the call. -/
inductive Step (s : TimerFd) : Action → TimerFd → Prop
  | tick (n : ℕ) : Step s (.tick n) { s with now := s.now + n }
  | arm (t : UInt64) : Step s (.armAbsolute t)
      { s with timer := (Itimerspec.ofNanos t).deadline?, log := .armed t :: s.log }
  | clear : Step s .disarmSettime
      { s with timer := none, disarming := s.disarming + 1, log := .cleared :: s.log }
  | nudge (pending : 0 < s.disarming) {pipe : ℕ} (byte : s.pipe ≤ pipe) (some : 0 < pipe) :
      Step s .disarmWrite
        { s with pipe, disarming := s.disarming - 1, log := .disarmed :: s.log }
  | enter (out : s.waiter = .out) : Step s .callWait
      { s with waiter := .polling, log := .entered :: s.log }
  | interrupt (polling : s.waiter = .polling) : Step s .interrupted s
  | wake (polling : s.waiter = .polling) (bytes : 0 < s.pipe) : Step s .pollReturns
      { s with waiter := .draining }
  | expire (polling : s.waiter = .polling) (empty : s.pipe = 0) (expired : s.Expired) :
      Step s .pollReturns { s with waiter := .reading }
  | drain (draining : s.waiter = .draining) (bytes : 0 < s.pipe) : Step s .drainRead
      { s with pipe := s.pipe - 1 }
  | bail (draining : s.waiter = .draining) (empty : s.pipe = 0) : Step s .drainRead
      { s with waiter := .out, log := .returned false s.now :: s.log }
  | fire (reading : s.waiter = .reading) (expired : s.Expired) : Step s .readTimer
      { s with timer := none, waiter := .out, log := .returned true s.now :: s.log }
  | again (reading : s.waiter = .reading) (pending : ¬ s.Expired) : Step s .readTimer
      { s with waiter := .polling }

variable {capacity} {s s' : TimerFd} {a : Action}

theorem step_cases (h : step capacity s a = some s') : Step s a s' := by
  cases a with
  | tick n =>
    cases h
    exact .tick n
  | armAbsolute t =>
    cases h
    exact .arm t
  | disarmSettime =>
    cases h
    exact .clear
  | disarmWrite =>
    have room := capacity.pos
    simp only [step, Option.ite_none_right_eq_some] at h
    obtain ⟨pending, ⟨⟩⟩ := h
    exact .nudge pending (by split_ifs <;> omega) (by split_ifs <;> omega)
  | callWait =>
    simp only [step, Option.ite_none_right_eq_some] at h
    obtain ⟨out, ⟨⟩⟩ := h
    exact .enter out
  | interrupted =>
    simp only [step, Option.ite_none_right_eq_some] at h
    obtain ⟨polling, ⟨⟩⟩ := h
    exact .interrupt polling
  | pollReturns =>
    simp only [step, Option.ite_none_right_eq_some] at h
    obtain ⟨⟨polling, ready⟩, ⟨⟩⟩ := h
    split_ifs with bytes
    · exact .wake polling bytes
    · exact .expire polling (by omega) (ready.resolve_left bytes)
  | drainRead =>
    simp only [step, Option.ite_none_right_eq_some] at h
    obtain ⟨draining, h⟩ := h
    split_ifs at h with bytes
    · cases h
      exact .drain draining bytes
    · cases h
      exact .bail draining (by omega)
  | readTimer =>
    simp only [step, Option.ite_none_right_eq_some] at h
    obtain ⟨reading, h⟩ := h
    split_ifs at h with expired
    · cases h
      exact .fire reading expired
    · cases h
      exact .again reading expired

/-! ### No `Disarm` is lost -/

/-- A `Disarm` has completed since the current `Wait` was entered. -/
def Nudged (s : TimerFd) : Prop := .disarmed ∈ s.log.takeWhile (· ≠ .entered)

/-- The deadline of the arming in force whose expiration has not been read, after these events. -/
def inForce : List TimerEvent → Option ℕ
  | [] => none
  | .armed t :: _ => if t.toNat = 0 then none else some t.toNat
  | .cleared :: _ => none
  | .returned true _ :: _ => none
  | .returned false _ :: log => inForce log
  | .disarmed :: log => inForce log
  | .entered :: log => inForce log

/-- No completed `Disarm` is lost on the thread in `Wait`, and a true result comes from the arming
then in force. -/
structure Wakes (capacity : ℕ+) (s : TimerFd) : Prop where
  ready : s.waiter = .polling ∨ s.waiter = .reading → s.Nudged → s.PollReady
  leaves : s.waiter ≠ .out → s.Nudged → ∃ as t, (∀ a ∈ as, a.ofWaiter) ∧
    Transition.Run (step capacity) s as t ∧ t.waiter = .out
  fired : ∀ time log, .returned true time :: log <:+ s.log → ∃ d ∈ inForce log, d ≤ time

/-- What holds between the kernel and the events. -/
structure Tracks (s : TimerFd) : Prop where
  timer : s.timer = inForce s.log
  bytes : s.waiter = .polling ∨ s.waiter = .reading → s.Nudged → 0 < s.pipe
  fired : ∀ time log, .returned true time :: log <:+ s.log → ∃ d ∈ inForce log, d ≤ time

/-- A property of every return so far, after one more event. -/
theorem returns_cons {P : ℕ → List TimerEvent → Prop} {fired : Bool} {e : TimerEvent}
    {log : List TimerEvent} (h : ∀ time rest, .returned fired time :: rest <:+ log → P time rest)
    (new : ∀ time, e = .returned fired time → P time log) :
    ∀ time rest, .returned fired time :: rest <:+ e :: log → P time rest := by
  intro time rest part
  rcases List.suffix_cons_iff.1 part with whole | part
  · obtain ⟨rfl, rfl⟩ := List.cons.inj whole
    exact new time rfl
  · exact h time rest part

theorem nudged_cons {e : TimerEvent} {log : List TimerEvent} (other : e ≠ .entered) :
    .disarmed ∈ (e :: log).takeWhile (· ≠ .entered) ↔
      .disarmed = e ∨ .disarmed ∈ log.takeWhile (· ≠ .entered) := by
  simp [other]

theorem Tracks.step (h : s.Tracks) (taken : Step s a s') : s'.Tracks := by
  have silent (e : TimerEvent) (other : e ≠ .entered) (quiet : e ≠ .disarmed)
      (nudged : .disarmed ∈ (e :: s.log).takeWhile (· ≠ .entered)) : s.Nudged :=
    ((nudged_cons other).1 nudged).resolve_left quiet.symm
  cases taken with
  | tick n => exact ⟨h.timer, h.bytes, h.fired⟩
  | arm t =>
    refine ⟨Itimerspec.deadline?_ofNanos t, fun inside nudged => ?_, returns_cons h.fired (by simp)⟩
    exact h.bytes inside (silent _ (by simp) (by simp) nudged)
  | clear =>
    refine ⟨rfl, fun inside nudged => ?_, returns_cons h.fired (by simp)⟩
    exact h.bytes inside (silent _ (by simp) (by simp) nudged)
  | nudge pending byte some => exact ⟨h.timer, fun _ _ => some, returns_cons h.fired (by simp)⟩
  | enter out =>
    refine ⟨h.timer, fun _ nudged => ?_, returns_cons h.fired (by simp)⟩
    -- the events of this `Wait` start here
    exact absurd nudged (by simp [Nudged])
  | interrupt polling => exact h
  | wake polling bytes => exact ⟨h.timer, by simp, h.fired⟩
  | expire polling empty expired => exact ⟨h.timer, fun _ => h.bytes (.inl polling), h.fired⟩
  | drain draining bytes => exact ⟨h.timer, by simp [draining], h.fired⟩
  | bail draining empty => exact ⟨h.timer, by simp, returns_cons h.fired (by simp)⟩
  | fire reading expired =>
    refine ⟨rfl, by simp, returns_cons h.fired ?_⟩
    rintro time ⟨⟩
    exact h.timer ▸ expired
  | again reading pending => exact ⟨h.timer, fun _ => h.bytes (.inr reading), h.fired⟩

/-- A thread that is draining the pipe reads what is in it and leaves. -/
theorem leaves_of_draining (capacity : ℕ+) (draining : s.waiter = .draining) :
    ∃ as t, (∀ a ∈ as, a.ofWaiter) ∧
      Transition.Run (step capacity) s as t ∧ t.waiter = .out := by
  induction bytes : s.pipe generalizing s with
  | zero =>
    have empty : ¬ 0 < s.pipe := by omega
    have bails : step capacity s .drainRead =
        some { s with waiter := .out, log := .returned false s.now :: s.log } :=
      (if_pos draining).trans (if_neg empty)
    exact ⟨[.drainRead], _, by simp [Action.ofWaiter],
      Transition.run_cons.2 ⟨_, bails, Transition.run_nil.2 rfl⟩, rfl⟩
  | succ n ih =>
    have some : 0 < s.pipe := by omega
    obtain ⟨as, t, waiter, run, out⟩ := ih (s := { s with pipe := s.pipe - 1 }) draining
      (by simp [bytes])
    refine ⟨.drainRead :: as, t, ?_, Transition.run_cons.2 ⟨_, ?_, run⟩, out⟩
    · exact List.forall_mem_cons.2 ⟨.inr (.inl rfl), waiter⟩
    · exact (if_pos draining).trans (if_pos some)

theorem leaves_of_polling (capacity : ℕ+) (polling : s.waiter = .polling) (bytes : 0 < s.pipe) :
    ∃ as t, (∀ a ∈ as, a.ofWaiter) ∧ Transition.Run (step capacity) s as t ∧ t.waiter = .out := by
  have woken : step capacity s .pollReturns = some { s with waiter := .draining } := by
    rw [step, if_pos ⟨polling, .inl bytes⟩, if_pos bytes]
  obtain ⟨as, t, waiter, run, out⟩ :=
    leaves_of_draining capacity (s := { s with waiter := .draining }) rfl
  exact ⟨.pollReturns :: as, t, List.forall_mem_cons.2 ⟨.inl rfl, waiter⟩,
    Transition.run_cons.2 ⟨_, woken, run⟩, out⟩

theorem leaves_of_reading (capacity : ℕ+) (reading : s.waiter = .reading) (bytes : 0 < s.pipe) :
    ∃ as t, (∀ a ∈ as, a.ofWaiter) ∧ Transition.Run (step capacity) s as t ∧ t.waiter = .out := by
  by_cases expired : s.Expired
  · have fires : step capacity s .readTimer =
        some { s with timer := none, waiter := .out, log := .returned true s.now :: s.log } :=
      (if_pos reading).trans (if_pos expired)
    exact ⟨[.readTimer], _, by simp [Action.ofWaiter],
      Transition.run_cons.2 ⟨_, fires, Transition.run_nil.2 rfl⟩, rfl⟩
  · have again : step capacity s .readTimer = some { s with waiter := .polling } :=
      (if_pos reading).trans (if_neg expired)
    obtain ⟨as, t, waiter, run, out⟩ :=
      leaves_of_polling capacity (s := { s with waiter := .polling }) rfl bytes
    exact ⟨.readTimer :: as, t, List.forall_mem_cons.2 ⟨.inr (.inr rfl), waiter⟩,
      Transition.run_cons.2 ⟨_, again, run⟩, out⟩

theorem Tracks.wakes (h : s.Tracks) : s.Wakes capacity where
  ready inside nudged := .inl (h.bytes inside nudged)
  leaves inside nudged :=
    match waiter : s.waiter with
    | .out => absurd waiter inside
    | .polling => leaves_of_polling capacity waiter (h.bytes (.inl waiter) nudged)
    | .draining => leaves_of_draining capacity waiter
    | .reading => leaves_of_reading capacity waiter (h.bytes (.inr waiter) nudged)
  fired := h.fired

/-- In every state of every interleaving: after a `Disarm` the thread in `Wait` finds poll ready and
can leave by its own calls, and it has returned true only on an expiration of the arming then in
force. -/
theorem always_wakes (capacity : ℕ+) (now : ℕ) (as : List Action) :
    Transition.Always (step capacity) (Wakes capacity) { now } as := by
  have start : Tracks { now } := ⟨rfl, by simp, by simp⟩
  have anything : Transition.Each (step capacity) (fun _ _ => True) { now } as :=
    fun _ _ _ _ _ _ _ => trivial
  have tracks : Transition.Always (step capacity) Tracks { now } as :=
    Transition.always_of_each (fun _ _ _ h _ taken => h.step (step_cases taken)) start anything
  exact tracks.mono fun _ h => h.wakes

end TimerFd

end SmoothDemon
