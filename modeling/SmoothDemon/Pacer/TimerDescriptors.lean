import SmoothDemon.Library.Custody
import SmoothDemon.Pacer.TimerFd

/-!
# The descriptors of the timer

The constructor of `TimerFd` goes on without what the kernel refuses, and every method looks at the
descriptors it needs.  What was opened is closed once, whatever was refused; but a timer without its
pipe has nothing that wakes the thread in `Wait`, so `Disarm` wakes it in every interleaving iff the
pipe is there or the timer is not (`always_leaves_iff`).
-/

namespace SmoothDemon

open Custody

/-- What the kernel answers to the constructor: numbers that are in no other use. -/
structure TimerAnswer where
  timerfd : Option ℕ
  pipe : Option (ℕ × ℕ)
  distinct : (timerfd.toList ++ pipe.toList.flatMap fun p => [p.1, p.2]).Nodup

/-- `m_fd` and `m_shutdownPipe`; -1 is `none`. -/
structure TimerDescriptors where
  fd : Option ℕ := none
  readEnd : Option ℕ := none
  writeEnd : Option ℕ := none
  log : List (Event ℕ) := []

namespace TimerDescriptors

def construct (a : TimerAnswer) : TimerDescriptors :=
  match a.timerfd with
  | none => {}
  | some fd =>
    match a.pipe with
    | none => { fd := some fd, log := [.acquire fd] }
    | some (readEnd, writeEnd) =>
      { fd := some fd
        readEnd := some readEnd
        writeEnd := some writeEnd
        log := [.acquire writeEnd, .acquire readEnd, .acquire fd] }

def close (log : List (Event ℕ)) : Option ℕ → List (Event ℕ)
  | none => log
  | some fd => .release fd :: log

/-- The destructor, after its `Disarm`. -/
def destroy (d : TimerDescriptors) : TimerDescriptors :=
  { log := close (close (close d.log d.fd) d.readEnd) d.writeEnd }

/-- What is open. -/
def custody (d : TimerDescriptors) : List ℕ :=
  d.fd.toList ++ d.readEnd.toList ++ d.writeEnd.toList

theorem tracks_construct (a : TimerAnswer) : Tracks (construct a).custody (construct a).log := by
  have distinct := a.distinct
  unfold construct
  cases timerfd : a.timerfd with
  | none => exact .nil
  | some fd =>
    have first : Tracks [fd] [.acquire fd] := Tracks.nil.acquire (by simp [Out]) (List.Perm.refl _)
    cases pipe : a.pipe with
    | none => exact first
    | some ends =>
      obtain ⟨readEnd, writeEnd⟩ := ends
      rw [timerfd, pipe] at distinct
      have apart : (fd ≠ readEnd ∧ fd ≠ writeEnd) ∧ readEnd ≠ writeEnd := by simpa using distinct
      obtain ⟨⟨fd_read, fd_write⟩, read_write⟩ := apart
      have second : Tracks [readEnd, fd] [.acquire readEnd, .acquire fd] :=
        first.acquire (by simp [← first.mem_iff, Ne.symm fd_read]) (List.Perm.refl _)
      have third : Tracks [writeEnd, readEnd, fd]
          [.acquire writeEnd, .acquire readEnd, .acquire fd] :=
        second.acquire (by simp [← second.mem_iff, Ne.symm fd_write, Ne.symm read_write])
          (List.Perm.refl _)
      exact third.perm (List.reverse_perm [writeEnd, readEnd, fd])

theorem tracks_close {log : List (Event ℕ)} {fd : Option ℕ} {rest : List ℕ}
    (h : Tracks (fd.toList ++ rest) log) : Tracks rest (close log fd) := by
  cases fd with
  | none => exact h
  | some fd => exact h.release (List.Perm.refl _)

/-- Every descriptor that was opened is closed once, and none is closed that was not. -/
theorem releasedOnce_destroy (a : TimerAnswer) : ReleasedOnce (construct a).destroy.log := by
  have opened := tracks_construct a
  rw [custody, List.append_assoc] at opened
  have last := tracks_close (tracks_close opened)
  rw [← List.append_nil (construct a).writeEnd.toList] at last
  exact (tracks_close last).releasedOnce

end TimerDescriptors

namespace TimerFd

/-! ### The calls on the descriptors there are -/

/-- Without the pipe nothing is ever written to it, and `poll` is given the timer alone. -/
def stepWith (d : TimerDescriptors) (capacity : ℕ+) (s : TimerFd) : Action → Option TimerFd
  | .armAbsolute t => if d.fd.isSome then s.step capacity (.armAbsolute t) else some s
  | .disarmSettime =>
    if d.fd.isSome then s.step capacity .disarmSettime
    else some { s with disarming := s.disarming + 1 }
  | .disarmWrite =>
    if d.writeEnd.isSome then s.step capacity .disarmWrite
    else if 0 < s.disarming then
      some { s with disarming := s.disarming - 1, log := .disarmed :: s.log }
    else none
  | .callWait =>
    if d.fd.isSome then s.step capacity .callWait
    else if s.waiter = .out then
      some { s with log := .returned false s.now :: .entered :: s.log }
    else none
  | .pollReturns =>
    if d.readEnd.isSome then s.step capacity .pollReturns
    else if s.waiter = .polling ∧ s.Expired then some { s with waiter := .reading }
    else none
  | .tick n => s.step capacity (.tick n)
  | .interrupted => s.step capacity .interrupted
  | .drainRead => s.step capacity .drainRead
  | .readTimer => s.step capacity .readTimer

/-- The thread in `Wait` gets out by its own calls once a `Disarm` has completed. -/
def Leaves (d : TimerDescriptors) (capacity : ℕ+) (s : TimerFd) : Prop :=
  s.waiter ≠ .out → s.Nudged → ∃ as t, (∀ a ∈ as, a.ofWaiter) ∧
    Transition.Run (stepWith d capacity) s as t ∧ t.waiter = .out

variable {d : TimerDescriptors} {capacity : ℕ+} {s s' : TimerFd} {a : Action}

theorem stepWith_all (fd : d.fd.isSome) (readEnd : d.readEnd.isSome)
    (writeEnd : d.writeEnd.isSome) : stepWith d capacity = step capacity := by
  funext s a
  cases a with
  | armAbsolute t => exact if_pos fd
  | disarmSettime => exact if_pos fd
  | disarmWrite => exact if_pos writeEnd
  | callWait => exact if_pos fd
  | pollReturns => exact if_pos readEnd
  | _ => rfl

/-- Nobody waits on a timer that could not be created. -/
theorem out_stepWith (fd : d.fd = none) (out : s.waiter = .out)
    (taken : stepWith d capacity s a = some s') : s'.waiter = .out := by
  cases a with
  | tick n =>
    cases taken
    exact out
  | armAbsolute t =>
    rw [stepWith, fd] at taken
    cases taken
    exact out
  | disarmSettime =>
    rw [stepWith, fd] at taken
    cases taken
    exact out
  | disarmWrite =>
    rw [stepWith] at taken
    split_ifs at taken with pipe
    · cases step_cases taken with
      | nudge => exact out
    · cases taken
      exact out
  | callWait =>
    rw [stepWith, fd] at taken
    obtain ⟨-, ⟨⟩⟩ := Option.ite_none_right_eq_some.1 taken
    exact out
  | interrupted =>
    obtain ⟨polling, -⟩ := Option.ite_none_right_eq_some.1 taken
    cases out.symm.trans polling
  | pollReturns =>
    rw [stepWith] at taken
    split_ifs at taken with pipe ready
    · obtain ⟨⟨polling, -⟩, -⟩ := Option.ite_none_right_eq_some.1 taken
      cases out.symm.trans polling
    · cases out.symm.trans ready.1
  | drainRead =>
    obtain ⟨draining, -⟩ := Option.ite_none_right_eq_some.1 taken
    cases out.symm.trans draining
  | readTimer =>
    obtain ⟨reading, -⟩ := Option.ite_none_right_eq_some.1 taken
    cases out.symm.trans reading

/-- A thread in `Wait` for a timer that is not set, with no pipe to wake it. -/
structure Stuck (s : TimerFd) : Prop where
  waits : s.waiter = .polling ∨ s.waiter = .reading
  timer : s.timer = none

theorem Stuck.not_expired (h : s.Stuck) : ¬ s.Expired := by
  rintro ⟨d, set, -⟩
  rw [h.timer] at set
  cases set

/-- It stays there until somebody arms the timer. -/
theorem Stuck.step (h : s.Stuck) (fd : d.fd.isSome) (readEnd : d.readEnd = none)
    (writeEnd : d.writeEnd = none) (unarmed : ∀ t, a ≠ .armAbsolute t)
    (taken : stepWith d capacity s a = some s') : s'.Stuck := by
  cases a with
  | tick n =>
    cases taken
    exact ⟨h.waits, h.timer⟩
  | armAbsolute t => exact absurd rfl (unarmed t)
  | disarmSettime =>
    rw [stepWith, if_pos fd] at taken
    cases taken
    exact ⟨h.waits, rfl⟩
  | disarmWrite =>
    rw [stepWith, writeEnd] at taken
    obtain ⟨-, ⟨⟩⟩ := Option.ite_none_right_eq_some.1 taken
    exact ⟨h.waits, h.timer⟩
  | callWait =>
    rw [stepWith, if_pos fd] at taken
    obtain ⟨out, -⟩ := Option.ite_none_right_eq_some.1 taken
    rcases h.waits with polling | reading
    · cases out.symm.trans polling
    · cases out.symm.trans reading
  | interrupted =>
    obtain ⟨-, ⟨⟩⟩ := Option.ite_none_right_eq_some.1 taken
    exact h
  | pollReturns =>
    rw [stepWith, readEnd] at taken
    obtain ⟨⟨-, expired⟩, -⟩ := Option.ite_none_right_eq_some.1 taken
    exact absurd expired h.not_expired
  | drainRead =>
    obtain ⟨draining, -⟩ := Option.ite_none_right_eq_some.1 taken
    rcases h.waits with polling | reading
    · cases draining.symm.trans polling
    · cases draining.symm.trans reading
  | readTimer =>
    have same : TimerFd.step capacity s .readTimer = some s' := taken
    cases step_cases same with
    | fire reading expired => exact absurd expired h.not_expired
    | again reading pending => exact ⟨.inl rfl, h.timer⟩

/-- Without the pipe a thread that entered `Wait` before a `Disarm` stays there. -/
theorem not_leaves_of_noPipe (fd : d.fd.isSome) (readEnd : d.readEnd = none)
    (writeEnd : d.writeEnd = none) : ¬ ∀ now as,
      Transition.Always (stepWith d capacity) (Leaves d capacity) { now } as := by
  intro leaves
  let as : List Action := [.callWait, .disarmSettime, .disarmWrite]
  have reached : Transition.Run (stepWith d capacity) {} as
      { waiter := .polling, log := [.disarmed, .cleared, .entered] } := by
    simp [as, Transition.run_cons, stepWith, fd, writeEnd, TimerFd.step]
  obtain ⟨bs, t, waiter, run, out⟩ := (leaves 0 as).last reached (by decide) (by simp [Nudged])
  have stuck : Stuck { waiter := .polling, log := [.disarmed, .cleared, .entered] } :=
    ⟨.inl rfl, rfl⟩
  have allowed : Transition.Each (stepWith d capacity) (fun _ a => ∀ t, a ≠ .armAbsolute t)
      { waiter := .polling, log := [.disarmed, .cleared, .entered] } bs := by
    refine Transition.each_of_forall fun a ha _ t eq => ?_
    rcases waiter a ha with h | h | h <;> cases h.symm.trans eq
  have still := (Transition.always_of_each
    (fun _ _ _ h ok taken => Stuck.step h fd readEnd writeEnd ok taken) stuck allowed).last run
  rcases still.waits with polling | reading
  · cases polling.symm.trans out
  · cases reading.symm.trans out

theorem always_out (fd : d.fd = none) (now : ℕ) (as : List Action) :
    Transition.Always (stepWith d capacity) (fun s => s.waiter = .out) { now } as := by
  have anything : Transition.Each (stepWith d capacity) (fun _ _ => True) { now } as :=
    Transition.each_of_forall fun _ _ _ => trivial
  exact Transition.always_of_each (fun _ _ _ out _ taken => out_stepWith fd out taken) rfl anything

theorem always_tracks (now : ℕ) (as : List Action) :
    Transition.Always (step capacity) Tracks { now } as := by
  have anything : Transition.Each (step capacity) (fun _ _ => True) { now } as :=
    Transition.each_of_forall fun _ _ _ => trivial
  have start : Tracks { now } := ⟨rfl, by simp, by simp⟩
  exact Transition.always_of_each (fun _ _ _ h _ taken => h.step (step_cases taken)) start anything

/-- Whatever the kernel refuses to the constructor, the destructor closes what was opened once; and
in every interleaving a `Disarm` gets the thread in `Wait` out, iff not the pipe alone was
refused. -/
theorem always_leaves_iff (a : TimerAnswer) (capacity : ℕ+) :
    ReleasedOnce (TimerDescriptors.construct a).destroy.log ∧
      ((∀ now as, Transition.Always (stepWith (.construct a) capacity)
          (Leaves (.construct a) capacity) { now } as) ↔
        (a.timerfd ≠ none → a.pipe ≠ none)) := by
  refine ⟨TimerDescriptors.releasedOnce_destroy a, ?_⟩
  cases timerfd : a.timerfd with
  | none =>
    have fd : (TimerDescriptors.construct a).fd = none := by
      rw [TimerDescriptors.construct, timerfd]
    exact iff_of_true (fun now as => (always_out fd now as).mono fun s out inside =>
      absurd out inside) fun created => absurd rfl created
  | some fd =>
    cases pipe : a.pipe with
    | none =>
      have alone : TimerDescriptors.construct a = { fd := some fd, log := [.acquire fd] } := by
        rw [TimerDescriptors.construct, timerfd, pipe]
      rw [alone]
      exact iff_of_false (not_leaves_of_noPipe rfl rfl rfl) (by simp)
    | some ends =>
      have whole : stepWith (.construct a) capacity = step capacity := by
        rw [TimerDescriptors.construct, timerfd, pipe]
        exact stepWith_all rfl rfl rfl
      refine iff_of_true (fun now as => ?_) (by simp)
      unfold Leaves
      rw [whole]
      exact (always_tracks now as).mono fun s h => h.wakes.leaves

end TimerFd

end SmoothDemon
