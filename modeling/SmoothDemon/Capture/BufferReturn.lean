import SmoothDemon.Capture.Transfers

/-!
# Every buffer goes back once

The buffers of one stream, from the end of a successful `Start` until the next `Stop` invalidates
the recycler.  A dequeued buffer is in the hands of `HandleProcess` or of one live frame, and
whoever gives it up queues it, as long as a frame is only built when there is a callback to pass it
to (`matched_of_covered`).  Without a callback `HandleProcess` queues the buffer by hand and the
destructor of its frame queues it again (`not_matched_without_callback`).
-/

namespace SmoothDemon.PipeWireCapture

open Custody

namespace State

/-- Each dequeue of a buffer is followed by at most one queue of it before its next dequeue, and by
exactly one once the buffer is in nobody's hands. -/
def Matched (i : ℕ) (s : State) : Prop :=
  ∀ newer since older b, s.bufferLog i = newer ++ since ++ .acquire b :: older →
    .acquire b ∉ since →
      since.count (.release b) ≤ 1 ∧
        (newer = [] → b ∉ s.inHand i → since.count (.release b) = 1)

/-! ### A stream nobody has used yet -/

def Untouched (i : ℕ) (s : State) : Prop := s.inHand i = [] ∧ s.bufferLog i = []

end State

/-- No loop thread runs yet, or any more. -/
def Controller.Quiescent : Controller → Prop
  | .stopped | .starting _ => True
  | _ => False

namespace State

/-- Only streams that were created are touched, and the one of the object not before its loop thread
is there. -/
structure Fresh (s : State) : Prop where
  touched : ∀ i, ¬ s.Untouched i → i < s.next
  unused : s.controller.Quiescent → ∀ i, s.impl.stream = some i → s.Untouched i

section Steps

variable {i : ℕ} {s s' : State} {a : Action}

theorem Transfer.untouched (t : Transfer i s s' a) (h : s.Untouched i) :
    s'.Untouched i ∨ s.impl.stream = some i ∧ s.thread ≠ .absent := by
  obtain ⟨hand, log⟩ := h
  cases t with
  | keep log' hand' =>
    rw [hand] at hand'
    exact .inl ⟨hand'.eq_nil, log'.trans log⟩
  | acquire _ _ stream there => exact .inr ⟨stream, there⟩
  | release b _ hand' =>
    rw [hand] at hand'
    exact absurd hand'.nil_eq nofun
  | drop b _ _ _ _ _ _ _ _ hand' =>
    rw [hand] at hand'
    exact absurd hand'.nil_eq nofun
  | double b held =>
    rw [hand] at held
    cases held

theorem Quiet.untouched (q : Quiet i s s') (h : s.Untouched i) : s'.Untouched i := by
  refine ⟨?_, q.log.trans h.2⟩
  rw [inHand, q.buffer, q.frames]
  exact h.1

theorem absent_of_quiescent (h : s.Session) (phase : s.Phase)
    (quiescent : s.controller.Quiescent) : s.thread = .absent := by
  apply h.absent
  unfold State.Phase at phase
  cases controller : s.controller with
  | stopped =>
    rw [controller] at phase
    exact phase.2
  | starting rest =>
    rw [controller] at phase
    exact phase.2.1
  | running =>
    rw [controller] at quiescent
    exact quiescent.elim
  | stopping rest =>
    rw [controller] at quiescent
    exact quiescent.elim

theorem next_startStep {step : StartStep} {rest : List StartStep} {succeeds : Bool}
    (taken : s.startStep step rest succeeds = some s') : s.next ≤ s'.next ∧
      (s'.impl.stream = none ∨ s'.impl.stream = s.impl.stream ∨ s'.impl.stream = some s.next) := by
  cases step with
  | create c =>
    cases succeeds <;> cases taken
    · cases c with
      | connectFd =>
        simp only [State.fail, State.connectFdFails]
        split <;> exact ⟨Nat.le_refl _, .inr (.inl rfl)⟩
      | stream => exact ⟨Nat.le_refl _, .inl rfl⟩
      | _ => exact ⟨Nat.le_refl _, .inr (.inl rfl)⟩
    · cases c with
      | connectFd =>
        simp only [execStart, State.succeed, State.connectFd]
        split
        · exact ⟨Nat.le_refl _, .inr (.inl rfl)⟩
        · exact ⟨Nat.le_succ _, .inr (.inl rfl)⟩
      | stream => exact ⟨Nat.le_succ _, .inr (.inr rfl)⟩
      | streamConnect => exact ⟨Nat.le_refl _, .inr (.inl rfl)⟩
      | _ => exact ⟨Nat.le_succ _, .inr (.inl rfl)⟩
  | setupRecycler =>
    cases succeeds <;> cases taken
    exact ⟨Nat.le_succ _, .inr (.inl rfl)⟩
  | spawnLoopThread =>
    cases succeeds <;> cases taken
    simp only [execStart, State.spawnLoopThread]
    split <;> exact ⟨Nat.le_refl _, .inr (.inl rfl)⟩

theorem next_execStop (step : StopStep) : (s.execStop step).next = s.next := by
  cases step <;> simp only [execStop, State.invalidateRecycler, State.invoke] <;> split <;>
    first | rfl | (split <;> rfl)

/-- The end of a `Stop` leaves no stream. -/
theorem stream_stopStep {step : StopStep} {rest : List StopStep}
    (phase : (Controller.stopping (step :: rest)).Phase s)
    (taken : s.stopStep step rest = some s') :
    s'.next = s.next ∧ (s'.controller.Quiescent → s'.impl.stream = none) := by
  rw [stopStep_eq taken]
  refine ⟨next_execStop step, fun quiescent => ?_⟩
  obtain ⟨suffix, -, -, ended⟩ := phase
  by_cases last : rest = []
  · subst last
    simp only [stopSteps, List.suffix_cons_iff, List.cons.injEq] at suffix
    obtain rfl : step = .clearStreaming := by simpa using suffix
    exact ended (by decide)
  · simp only [if_neg last] at quiescent
    exact quiescent.elim

/-- What the controller's steps do to the stream of the object. -/
theorem stream_controlStep (phase : s.Phase) {c : ControlAction}
    (taken : s.controlStep c = some s') : s.next ≤ s'.next ∧
      (s'.controller.Quiescent → s'.impl.stream = none ∨ s.controller.Quiescent ∧
        (s'.impl.stream = s.impl.stream ∨ s'.impl.stream = some s.next)) := by
  unfold State.Phase at phase
  cases controlled_of_controlStep taken with
  | callStart stopped =>
    refine ⟨Nat.le_refl _, fun _ => .inr ⟨?_, .inl rfl⟩⟩
    rw [stopped]
    trivial
  | startStep step rest succeeds _ starting moved =>
    obtain ⟨next, stream⟩ := next_startStep moved
    refine ⟨next, fun _ => stream.imp_right fun stream => ⟨?_, stream⟩⟩
    rw [starting]
    trivial
  | callStop waits => exact ⟨Nat.le_refl _, fun quiescent => quiescent.elim⟩
  | stopStep step rest _ stopping moved =>
    rw [stopping] at phase
    obtain ⟨next, stream⟩ := stream_stopStep phase moved
    exact ⟨Nat.le_of_eq next.symm, fun quiescent => .inl (stream quiescent)⟩
  | _ => exact ⟨Nat.le_refl _, fun quiescent => .inr ⟨quiescent, .inl rfl⟩⟩

theorem Fresh.controlStep (h : s.Fresh) (session : s.Session) (phase : s.Phase)
    {c : ControlAction} (taken : s.controlStep c = some s') : s'.Fresh := by
  have quiet : ∀ i, Quiet i s s' := fun i => quiet_controlStep session taken
  obtain ⟨next, origin⟩ := stream_controlStep phase taken
  refine ⟨fun i hi => ?_, fun quiescent i stream => ?_⟩
  · have before : ¬ s.Untouched i := fun untouched => hi ((quiet i).untouched untouched)
    exact Nat.lt_of_lt_of_le (h.touched i before) next
  · apply (quiet i).untouched
    rcases origin quiescent with none | ⟨quiescent, same | new⟩
    · rw [none] at stream
      cases stream
    · exact h.unused quiescent i (same.symm.trans stream)
    · obtain rfl : s.next = i := Option.some.inj (new.symm.trans stream)
      by_contra touched
      exact Nat.lt_irrefl _ (h.touched _ touched)

theorem Fresh.other (h : s.Fresh) (session : s.Session) (phase : s.Phase)
    (transfer : ∀ i, Transfer i s s' a)
    (same : s'.controller = s.controller ∧ s'.next = s.next ∧ SameOwner s s') : s'.Fresh := by
  obtain ⟨controller, next, owner⟩ := same
  refine ⟨fun i hi => ?_, fun quiescent i stream => ?_⟩
  · rw [next]
    by_contra new
    have untouched : s.Untouched i := by
      by_contra touched
      exact new (h.touched i touched)
    rcases (transfer i).untouched untouched with still | ⟨stream, -⟩
    · exact hi still
    · exact new (session.stream_lt i stream)
  · rw [controller] at quiescent
    rw [owner.stream] at stream
    rcases (transfer i).untouched (h.unused quiescent i stream) with still | ⟨-, there⟩
    · exact still
    · exact absurd (absent_of_quiescent session phase quiescent) there

theorem Fresh.step (h : s.Fresh) (session : s.Session) (phase : s.Phase)
    (taken : s.step a = some s') : s'.Fresh := by
  rcases step_cases taken with ⟨c, -, moved⟩ | ⟨-, same⟩
  · exact h.controlStep session phase moved
  · exact h.other session phase (fun i => transfer_step session taken) same

end Steps

theorem fresh_of_run {as : List Action} {t : State} (run : Transition.Run step {} as t) :
    t.Fresh := by
  have start : ({} : State).Fresh := ⟨fun i hi => absurd ⟨rfl, rfl⟩ hi, fun _ i => nofun⟩
  have h := Transition.Reachable.invariant (I := fun s => (s.Session ∧ s.Phase) ∧ s.Fresh)
    (fun s a s' h taken => ⟨step_keeps a h.1 taken, h.2.step h.1.1 h.1.2 taken⟩)
    ⟨session_start, start⟩ ⟨as, run⟩
  exact h.2

/-! ### A session -/

/-- Between a successful `Start` and the first step of the next `Stop`, with `i` the stream of the
session. -/
structure Serving (i : ℕ) (s : State) : Prop where
  session : s.Session
  phase : s.Phase
  serves : s.controller = .running ∨ s.controller = .stopping stopSteps
  stream : s.impl.stream = some i
  attached : ∃ r, s.impl.recycler = some r ∧ s.recyclers r = some i
  owner : ∀ frame ∈ s.liveFrames, ∀ done, frame.destroy = some done → done.b.home = some i →
    done.recycler = s.impl.recycler
  tracks : Tracks (s.inHand i) (s.bufferLog i)

section Serving

variable {i : ℕ} {s s' : State} {a : Action}

theorem tracks_transfer (serving : s.Serving i) (t : Transfer i s s' a) (promised : s.Promised a)
    (covered : s.Covered a) : Tracks (s'.inHand i) (s'.bufferLog i) := by
  have tracks := serving.tracks
  cases t with
  | keep log hand =>
    rw [log]
    exact tracks.perm hand
  | acquire b _ _ _ free log hand =>
    rw [log]
    exact tracks.acquire (free promised) hand
  | release b log hand =>
    rw [log]
    exact tracks.release hand
  | drop b frame live done destroy same home detached =>
    -- the recycler of a frame of this stream still has the stream
    obtain ⟨r, recycler, attached⟩ := serving.attached
    have owner := serving.owner frame live done destroy (same ▸ home)
    have lost := detached r (owner.trans recycler)
    rw [attached] at lost
    cases lost
  | double _ _ uncovered => exact absurd covered uncovered

theorem origin_dispatch (b : Buffer) (buf : SpaBuffer) (now : Int64) :
    ∀ frame ∈ (s.dispatch b buf now).liveFrames, frame ∈ s.liveFrames ∨
      frame.destroy = some { recycler := s.impl.recycler, b := b } := by
  intro frame live
  rcases s.dispatch_cases b buf now with ⟨made, destroy, moved⟩ | ⟨made, destroy, moved, -⟩ | moved
  · rw [moved, liveFrames, List.mem_append] at live
    rcases List.mem_cons.1 (live.resolve_right List.not_mem_nil) with rfl | old
    · exact .inr destroy
    · exact .inl (List.mem_append_left _ old)
  · rw [moved, liveFrames, List.mem_append] at live
    rcases live with old | new
    · exact .inl (List.mem_append_left _ old)
    · obtain rfl := List.mem_singleton.1 new
      exact .inr destroy
  · rw [moved, liveFrames, List.mem_append] at live
    exact .inl (List.mem_append_left _ (live.resolve_right List.not_mem_nil))

theorem origin_insideStep {pc : LoopPc} (inside : s.thread = .inside pc) {l : LoopAction}
    (taken : s.insideStep pc l = some s') : ∀ frame ∈ s'.liveFrames, frame ∈ s.liveFrames ∨
      ∃ b, frame.destroy = some { recycler := s.impl.recycler, b := b } := by
  by_cases handles : Handles l
  · intro frame live
    cases inside_of_insideStep taken with
    | buffer index buf b _ =>
      rw [liveFrames, List.mem_append] at live
      exact .inl (List.mem_append_left _ (live.resolve_right List.not_mem_nil))
    | dispatch b buf now => exact (origin_dispatch b buf now frame live).imp_right fun h => ⟨b, h⟩
    | queueBuffer b held =>
      rw [liveFrames, inside]
      exact .inl live
    | leaveProcess held =>
      rw [liveFrames, List.mem_append] at live
      have old : frame ∈ (s.dropFrame held).frames := live.resolve_right List.not_mem_nil
      cases held with
      | none => exact .inl (List.mem_append_left _ old)
      | some held =>
        rw [show (s.dropFrame (some held)).frames = s.frames from frames_destroyFrame held] at old
        exact .inl (List.mem_append_left _ old)
    | _ => exact handles.elim
  · intro frame live
    rw [(quiet_insideStep (i := 0) inside handles taken).frames] at live
    exact .inl live

/-- A live frame was live before, or carries the recycler of the object. -/
theorem origin_step (h : s.Session) (taken : s.step a = some s') :
    ∀ frame ∈ s'.liveFrames, frame ∈ s.liveFrames ∨
      ∃ b, frame.destroy = some { recycler := s.impl.recycler, b := b } := by
  intro frame live
  cases stepped_of_step taken with
  | control c _ moved =>
    rw [(quiet_controlStep (i := 0) h moved).frames] at live
    exact .inl live
  | enterLoop spawned =>
    rw [liveFrames, spawned]
    exact .inl live
  | inside pc l _ inside moved => exact origin_insideStep inside moved frame live
  | destroyFrame j held at_j =>
    rw [liveFrames_destroyFrame, liveFrames, List.mem_append] at live
    left
    rcases live with old | mine
    · exact List.mem_append_left _ (List.mem_of_mem_eraseIdx old)
    · exact List.mem_append_right _ mine

theorem Serving.step (h : s.Serving i) (on : a ≠ .control .stopStep) (promised : s.Promised a)
    (covered : s.Covered a) (taken : s.step a = some s') : s'.Serving i := by
  obtain ⟨session, phase⟩ := step_keeps a ⟨h.session, h.phase⟩ taken
  have same : (s'.controller = .running ∨ s'.controller = .stopping stopSteps) ∧
      SameOwner s s' := by
    rcases step_cases taken with ⟨c, rfl, moved⟩ | ⟨-, controller, -, owner⟩
    · cases controlled_of_controlStep moved with
      | stopStep => exact absurd rfl on
      | callStop => exact ⟨.inr rfl, rfl, rfl, rfl, rfl⟩
      | callStart stopped =>
        rcases h.serves with running | stopping
        · cases running.symm.trans stopped
        · cases stopping.symm.trans stopped
      | startStep step rest succeeds _ starting moved =>
        rcases h.serves with running | stopping
        · cases running.symm.trans starting
        · cases stopping.symm.trans starting
      | _ => exact ⟨h.serves, rfl, rfl, rfl, rfl⟩
    · exact ⟨controller ▸ h.serves, owner⟩
  obtain ⟨serves, recyclers, loopThread, stream, recycler⟩ := same
  refine ⟨session, phase, serves, stream.trans h.stream, ?_, ?_,
    tracks_transfer h (transfer_step h.session taken) promised covered⟩
  · rw [recycler, recyclers]
    exact h.attached
  · intro frame live done destroy home
    rw [recycler]
    rcases origin_step h.session taken frame live with old | ⟨b, made⟩
    · exact h.owner frame old done destroy home
    · rw [made] at destroy
      cases destroy
      rfl

/-- A successful `Start` leaves a session on a stream nobody has used. -/
theorem serving_of_started {s₀ : State} (keeps : s₀.Session ∧ s₀.Phase) (fresh : s₀.Fresh)
    (started : Started s₀ s) : ∃ i, s.impl.stream = some i ∧ s.Serving i := by
  obtain ⟨last, taken⟩ := started
  obtain ⟨session, phase⟩ := step_keeps _ keeps taken
  have before : (Controller.starting [.spawnLoopThread]).Phase s₀ := last ▸ keeps.2
  obtain ⟨-, unjoined, -, stream, recycler⟩ := before
  obtain ⟨i, stream⟩ := Option.isSome_iff_exists.1 (stream (by simp))
  have moved : s = { s₀.spawnLoopThread with controller := .running } := by
    rcases step_cases taken with ⟨c, same, moved⟩ | ⟨other, -⟩
    · cases same
      simp only [State.controlStep, last, State.startStep, execStart, if_true] at moved
      exact (Option.some.inj moved).symm
    · exact absurd rfl (other _)
  have spawned : s₀.spawnLoopThread = { s₀ with
      impl := { s₀.impl with loopThread := true }, thread := .spawned } := by
    simp [State.spawnLoopThread, unjoined]
  rw [spawned] at moved
  have quiet : Quiet i s₀ s := by
    rcases step_cases taken with ⟨c, -, moved⟩ | ⟨other, -⟩
    · exact quiet_controlStep keeps.1 moved
    · exact absurd rfl (other _)
  have untouched : s.Untouched i := by
    refine quiet.untouched (fresh.unused ?_ i stream)
    rw [last]
    trivial
  have stream' : s.impl.stream = some i := by rw [moved]; exact stream
  refine ⟨i, stream', session, phase, .inl (by rw [moved]), stream', ?_, ?_, ?_⟩
  · obtain ⟨r, hr, attached⟩ := recycler (by simp)
    rw [moved]
    exact ⟨r, hr, attached.trans stream⟩
  · intro frame live done destroy home
    have held : done.b ∈ s.inHand i := by
      simp only [inHand, List.mem_filter, List.mem_append, List.mem_filterMap]
      exact ⟨.inr ⟨frame, live, by simp [Frame.buffer?, destroy]⟩, by simpa using home⟩
    rw [untouched.1] at held
    cases held
  · rw [untouched.1, untouched.2]
    exact Tracks.nil

theorem Serving.matched (h : s.Serving i) : s.Matched i := by
  intro newer since older b log again
  have fair := h.tracks.fair
  rw [log, List.append_assoc] at fair
  have count := fair.suffix.count_release again
  constructor
  · rw [count]
    split_ifs <;> omega
  · rintro rfl free
    rw [h.tracks.mem_iff, log, List.nil_append] at free
    rw [count, if_neg free]

end Serving

/-- In every run from a successful `Start` on, up to the invalidation of the recycler by the next
`Stop`, that builds frames only for callbacks that are set, every buffer dequeued is queued at most
once, and exactly once as soon as nobody holds it. -/
theorem matched_of_covered (before : List Action) (s₀ s : State)
    (reached : Transition.Run step {} before s₀) (started : Started s₀ s) (as : List Action)
    (session : .control .stopStep ∉ as) (promised : Transition.Each step Promised s as)
    (covered : Transition.Each step Covered s as) :
    Transition.Always step (fun t => ∀ i, s.impl.stream = some i → t.Matched i) s as := by
  obtain ⟨i, stream, serving⟩ := serving_of_started (session_of_run reached) (fresh_of_run reached)
    started
  have on : Transition.Each step (fun _ a => a ≠ .control .stopStep) s as := by
    rintro bs a t t' hb - - rfl
    exact session (hb.subset (by simp))
  have always : Transition.Always step (Serving i) s as := by
    have allowed : Transition.Each step
        (fun t a => a ≠ .control .stopStep ∧ t.Promised a ∧ t.Covered a) s as :=
      fun bs a t t' hb run taken => ⟨on bs a t t' hb run taken, promised bs a t t' hb run taken,
        covered bs a t t' hb run taken⟩
    exact Transition.always_of_each (fun t a t' h ok taken => h.step ok.1 ok.2.1 ok.2.2 taken)
      serving allowed
  refine always.mono fun t h j hj => ?_
  obtain rfl : i = j := Option.some.inj (stream.symm.trans hj)
  exact h.matched

/-- The first buffer of a session is nobody's, and no other one follows. -/
theorem promised_oneBuffer (dmaCb : Bool) {as : List Action}
    (rest : ∀ result, .loop (.dequeueBuffer result) ∉ as) :
    Transition.Each step Promised (justStarted dmaCb) (oneBuffer ++ as) := by
  refine Transition.each_cons.2 ?_
  rintro _ ⟨⟩
  refine ⟨trivial, Transition.each_cons.2 ?_⟩
  rintro _ ⟨⟩
  refine ⟨trivial, Transition.each_cons.2 ?_⟩
  rintro _ ⟨⟩
  refine ⟨trivial, Transition.each_cons.2 ?_⟩
  rintro _ ⟨⟩
  refine ⟨?_, fun bs a t t' hb _ _ => ?_⟩
  · rintro i ⟨⟩
    exact id
  · have mem : a ∈ as := hb.subset (by simp)
    cases a with
    | loop l =>
      cases l with
      | dequeueBuffer result => exact absurd mem (rest result)
      | _ => trivial
    | _ => trivial

theorem matched_of_covered_dmaBuf :
    Transition.Always step (fun t => ∀ i, (justStarted true).impl.stream = some i → t.Matched i)
      (justStarted true)
      (oneBuffer ++ [.loop (.dispatch 0), .loop .callbackReturns, .control .callStop,
        .destroyFrame 0]) := by
  refine matched_of_covered _ _ _ (run_nearlyStarted true) (started_nearlyStarted true) _
    (by simp [oneBuffer]) (promised_oneBuffer true (by simp)) ?_
  refine Transition.each_cons.2 ?_
  rintro _ ⟨⟩
  refine ⟨trivial, Transition.each_cons.2 ?_⟩
  rintro _ ⟨⟩
  refine ⟨trivial, Transition.each_cons.2 ?_⟩
  rintro _ ⟨⟩
  refine ⟨trivial, Transition.each_cons.2 ?_⟩
  rintro _ ⟨⟩
  refine ⟨trivial, Transition.each_cons.2 ?_⟩
  rintro _ ⟨⟩
  refine ⟨?_, Transition.each_cons.2 ?_⟩
  · rintro b buf ⟨⟩
    rfl
  rintro _ ⟨⟩
  refine ⟨trivial, Transition.each_cons.2 ?_⟩
  rintro _ ⟨⟩
  refine ⟨trivial, Transition.each_cons.2 ?_⟩
  rintro _ ⟨⟩
  exact ⟨trivial, Transition.each_nil⟩

/-- Without a callback `HandleProcess` queues the buffer and the destructor of the frame queues it
again. -/
theorem not_matched_without_callback :
    ¬ ∀ (before : List Action) (s₀ s : State), Transition.Run step {} before s₀ → Started s₀ s →
      ∀ as : List Action, .control .stopStep ∉ as → Transition.Each step Promised s as →
        Transition.Always step (fun t => ∀ i, s.impl.stream = some i → t.Matched i) s as := by
  intro claim
  have always := claim _ _ _ (run_nearlyStarted false) (started_nearlyStarted false)
    (oneBuffer ++ [.loop (.dispatch 0), .loop .queueBuffer, .loop .leaveProcess])
    (by simp [oneBuffer]) (promised_oneBuffer false (by simp))
  have matched := always.last rfl 4 rfl
  let b : Buffer := { home := some 4, index := 0 }
  have once := (matched [] [.release b, .release b] [] b rfl (by simp)).1
  exact absurd once (by decide)

end State

end SmoothDemon.PipeWireCapture
