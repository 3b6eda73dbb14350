import SmoothDemon.Capture.Sessions
import SmoothDemon.Library.Custody

/-!
# How buffers change hands

The buffers of one stream `i`: the history of taking and returning them (`bufferLog`), and the ones
that `HandleProcess` works on or a live frame holds (`inHand`).  `Transfer` lists what one step of
any thread can do to the two, and `transfer_step` proves that it can do nothing else.
-/

namespace SmoothDemon.PipeWireCapture

open Custody

/-- A buffer of stream `i` taken (`acquire`) or given back (`release`). -/
def Call.transfer? (i : ℕ) : Call → Option (Event Buffer)
  | .dequeueBuffer _ (some b) => if b.home = some i then some (.acquire b) else none
  | .queueBuffer _ b => if b.home = some i then some (.release b) else none
  | _ => none

def Frame.buffer? (frame : Frame) : Option Buffer := frame.destroy.map (·.b)

namespace State

def bufferLog (i : ℕ) (s : State) : List (Event Buffer) := s.trace.filterMap (Call.transfer? i)

/-- The buffers of stream `i` that `HandleProcess` works on or a live frame holds. -/
def inHand (i : ℕ) (s : State) : List Buffer :=
  (s.thread.buffer.toList ++ s.liveFrames.filterMap Frame.buffer?).filter (·.home = some i)

/-- PipeWire's part: a buffer that is out is not dequeued. -/
def Promised (s : State) : Action → Prop
  | .loop (.dequeueBuffer (some (index, _))) =>
    ∀ i, s.impl.stream = some i → ¬ Out { home := some i, index := index } (s.bufferLog i)
  | _ => True

/-- A frame is only built when the callback for it is set. -/
def Covered (s : State) : Action → Prop
  | .loop (.dispatch _) =>
    ∀ b buf, s.thread = .inside (.dispatch b buf) →
      match buf.first.type with
      | .DmaBuf => s.dmaCb = true
      | .MemPtr | .MemFd => s.memCb = true
      | .other _ => True
  | _ => True

/-- What a step does to the buffers of stream `i`. -/
inductive Transfer (i : ℕ) (s s' : State) (a : Action) : Prop
  | keep (log : s'.bufferLog i = s.bufferLog i) (hand : (s'.inHand i).Perm (s.inHand i))
  | acquire (b : Buffer) (home : b.home = some i) (stream : s.impl.stream = some i)
      (there : s.thread ≠ .absent) (promised : s.Promised a → ¬ Out b (s.bufferLog i))
      (log : s'.bufferLog i = .acquire b :: s.bufferLog i)
      (hand : (s'.inHand i).Perm (b :: s.inHand i))
  | release (b : Buffer) (log : s'.bufferLog i = .release b :: s.bufferLog i)
      (hand : (s.inHand i).Perm (b :: s'.inHand i))
  | drop (b : Buffer) (frame : Frame) (live : frame ∈ s.liveFrames) (done : Closure)
      (destroy : frame.destroy = some done) (same : done.b = b) (home : b.home = some i)
      (detached : ∀ r, done.recycler = some r → s.recyclers r = none)
      (log : s'.bufferLog i = s.bufferLog i) (hand : (s.inHand i).Perm (b :: s'.inHand i))
  | double (b : Buffer) (held : b ∈ s.inHand i) (uncovered : ¬ s.Covered a)
      (log : s'.bufferLog i = s.bufferLog i) (hand : (s'.inHand i).Perm (b :: s.inHand i))

section Steps

variable {i : ℕ} {s s' : State} {a : Action}

theorem bufferLog_call (c : Call) :
    (s.call c).bufferLog i = (c.transfer? i).toList ++ s.bufferLog i := by
  unfold bufferLog State.call
  rw [List.filterMap_cons]
  cases c.transfer? i <;> rfl

theorem bufferLog_goto (pc : LoopPc) : (s.goto pc).bufferLog i = s.bufferLog i := rfl

theorem inHand_goto (pc : LoopPc) : (s.goto pc).inHand i =
    (pc.buffer.toList ++ (s.frames ++ pc.frame).filterMap Frame.buffer?).filter
      (·.home = some i) := rfl

theorem inHand_inside {pc : LoopPc} (inside : s.thread = .inside pc) : s.inHand i =
    (pc.buffer.toList ++ (s.frames ++ pc.frame).filterMap Frame.buffer?).filter
      (·.home = some i) := by
  rw [inHand, liveFrames, inside]
  rfl

/-- Nothing happens to buffers and frames. -/
structure Quiet (i : ℕ) (s s' : State) : Prop where
  log : s'.bufferLog i = s.bufferLog i
  buffer : s'.thread.buffer = s.thread.buffer
  frames : s'.liveFrames = s.liveFrames

theorem Quiet.transfer (h : Quiet i s s') : Transfer i s s' a :=
  .keep h.log (by simp [inHand, h.buffer, h.frames])

theorem quiet_refl : Quiet i s s := ⟨rfl, rfl, rfl⟩

theorem quiet_succeed (c : Creation) : Quiet i s (s.succeed c) := by
  cases c with
  | connectFd =>
    simp only [State.succeed, State.connectFd]
    split <;> exact ⟨rfl, rfl, rfl⟩
  | _ => exact ⟨rfl, rfl, rfl⟩

theorem quiet_fail (c : Creation) : Quiet i s (s.fail c) := by
  cases c with
  | connectFd =>
    simp only [State.fail, State.connectFdFails]
    split <;> exact ⟨rfl, rfl, rfl⟩
  | _ => exact ⟨rfl, rfl, rfl⟩

theorem quiet_spawnLoopThread (h : s.Session) : Quiet i s s.spawnLoopThread := by
  unfold State.spawnLoopThread
  split
  · exact ⟨rfl, rfl, rfl⟩
  · next unjoined =>
    have absent := h.absent (by simpa using unjoined)
    refine ⟨rfl, ?_, ?_⟩
    · rw [absent]
      rfl
    · simp only [liveFrames, absent]
      rfl

theorem quiet_startStep (h : s.Session) {step : StartStep} {rest : List StartStep}
    {succeeds : Bool} (taken : s.startStep step rest succeeds = some s') : Quiet i s s' := by
  cases step with
  | create c =>
    cases succeeds <;> cases taken
    · obtain ⟨log, buffer, frames⟩ := quiet_fail (i := i) (s := s) c
      exact ⟨log, buffer, frames⟩
    · obtain ⟨log, buffer, frames⟩ := quiet_succeed (i := i) (s := s) c
      exact ⟨log, buffer, frames⟩
  | setupRecycler =>
    cases succeeds <;> cases taken
    exact ⟨rfl, rfl, rfl⟩
  | spawnLoopThread =>
    cases succeeds <;> cases taken
    obtain ⟨log, buffer, frames⟩ := quiet_spawnLoopThread (i := i) h
    exact ⟨log, buffer, frames⟩

theorem quiet_invoke (item : Item) : Quiet i s (s.invoke item) := by
  unfold State.invoke
  cases item <;> split <;> exact ⟨rfl, rfl, rfl⟩

theorem quiet_execStop (step : StopStep) (other : step ≠ .joinLoopThread) :
    Quiet i s (s.execStop step) := by
  cases step with
  | joinLoopThread => exact absurd rfl other
  | invalidateRecycler =>
    simp only [execStop, State.invalidateRecycler]
    split <;> exact ⟨rfl, rfl, rfl⟩
  | invokeDeactivate =>
    simp only [execStop]
    split
    · exact quiet_invoke _
    · exact quiet_refl
  | quitMainLoop =>
    simp only [execStop]
    split
    · exact quiet_refl
    · exact quiet_invoke _
  | clearStreaming => exact ⟨rfl, rfl, rfl⟩
  | _ =>
    simp only [execStop]
    split <;> exact ⟨rfl, rfl, rfl⟩

/-- The loop thread that `join` waited for has nothing in hand. -/
theorem quiet_join {rest : List StopStep} (taken : s.stopStep .joinLoopThread rest = some s') :
    Quiet i s s' := by
  cases joinable : s.impl.loopThread with
  | false =>
    rw [stopStep_eq taken]
    simp only [execStop, joinable]
    exact ⟨rfl, rfl, rfl⟩
  | true =>
    have gone : s.thread.buffer = none ∧ s.thread.frame = [] := by
      unfold State.stopStep at taken
      rw [joinable] at taken
      cases thread : s.thread with
      | inside pc =>
        rw [thread] at taken
        cases taken
      | _ => exact ⟨rfl, rfl⟩
    rw [stopStep_eq taken]
    simp only [execStop, joinable]
    refine ⟨rfl, gone.1.symm, ?_⟩
    show s.frames ++ [] = s.frames ++ s.thread.frame
    rw [gone.2]

theorem quiet_controlStep (h : s.Session) {c : ControlAction}
    (taken : s.controlStep c = some s') : Quiet i s s' := by
  cases controlled_of_controlStep taken with
  | startStep step rest succeeds _ starting moved => exact quiet_startStep h moved
  | stopStep step rest _ stopping moved =>
    by_cases join : step = .joinLoopThread
    · subst join
      exact quiet_join moved
    · obtain ⟨log, buffer, frames⟩ := quiet_execStop (i := i) (s := s) step join
      rw [stopStep_eq moved]
      exact ⟨log, buffer, frames⟩
  | _ => exact ⟨rfl, rfl, rfl⟩

/-! ### The loop thread and the consumers -/

theorem frames_destroyFrame (frame : Frame) : (s.destroyFrame frame).frames = s.frames := by
  unfold State.destroyFrame State.recycle
  split
  · rfl
  · split
    · rfl
    · split <;> rfl

theorem liveFrames_destroyFrame (frame : Frame) :
    (s.destroyFrame frame).liveFrames = s.liveFrames := by
  rw [liveFrames, frames_destroyFrame, thread_destroyFrame, liveFrames]

/-- A frame is destroyed: its buffer goes back to the stream, unless the recycler has lost it. -/
theorem transfer_destroyFrame (h : s.Session) {frame : Frame} (live : frame ∈ s.liveFrames)
    {u : State} (trace : u.trace = s.trace) (recyclers : u.recyclers = s.recyclers)
    (log : s'.bufferLog i = (u.destroyFrame frame).bufferLog i)
    (hand : (s.inHand i).Perm
      (frame.buffer?.toList.filter (·.home = some i) ++ s'.inHand i)) : Transfer i s s' a := by
  obtain ⟨done, r, destroy, recycler, -, home⟩ := h.returns frame live
  have buffer : frame.buffer? = some done.b := by simp [Frame.buffer?, destroy]
  have same : u.bufferLog i = s.bufferLog i := by simp [bufferLog, trace]
  have unfolded : u.destroyFrame frame = u.recycle done := by simp [State.destroyFrame, destroy]
  rw [unfolded] at log
  rw [buffer] at hand
  simp only [State.recycle, recycler, recyclers] at log
  by_cases mine : done.b.home = some i
  · have hand : (s.inHand i).Perm (done.b :: s'.inHand i) := by simpa [mine] using hand
    cases attached : s.recyclers r with
    | none =>
      refine .drop done.b frame live done destroy rfl mine (fun q hq => ?_) ?_ hand
      · obtain rfl : r = q := Option.some.inj (recycler.symm.trans hq)
        exact attached
      · simpa [attached, same] using log
    | some j =>
      refine .release done.b ?_ hand
      simpa [attached, bufferLog_call, Call.transfer?, mine, same] using log
  · have hand : (s.inHand i).Perm (s'.inHand i) := by simpa [mine] using hand
    refine .keep ?_ hand.symm
    cases attached : s.recyclers r with
    | none => simpa [attached, same] using log
    | some j => simpa [attached, bufferLog_call, Call.transfer?, mine, same] using log

theorem transfer_dispatch {b : Buffer} {buf : SpaBuffer}
    (inside : s.thread = .inside (.dispatch b buf)) (now : Int64) :
    Transfer i s (s.dispatch b buf now) (.loop (.dispatch now)) := by
  have hand : s.inHand i = ([b] ++ s.frames.filterMap Frame.buffer?).filter (·.home = some i) := by
    simp [inHand, liveFrames, inside, LoopThread.buffer, LoopThread.frame, LoopPc.buffer,
      LoopPc.frame]
  have pass : ∀ frame : Frame, frame.buffer? = some b →
      Transfer i s { s.goto .callback with frames := frame :: s.frames }
        (.loop (.dispatch now)) := by
    intro frame buffer
    refine .keep rfl (List.Perm.of_eq ?_)
    rw [hand]
    simp [inHand, liveFrames, State.goto, LoopThread.buffer, LoopThread.frame, LoopPc.buffer,
      LoopPc.frame, buffer]
  have hold : ∀ frame : Frame, frame.buffer? = some b → ¬ s.Covered (.loop (.dispatch now)) →
      Transfer i s (s.goto (.queueing b (some frame))) (.loop (.dispatch now)) := by
    intro frame buffer uncovered
    have hand' : ((s.goto (.queueing b (some frame))).inHand i).Perm
        (([b] : List Buffer).filter (·.home = some i) ++ s.inHand i) := by
      rw [hand, ← List.filter_append]
      refine List.Perm.filter _ ?_
      simp only [liveFrames, State.goto, LoopThread.buffer, LoopThread.frame, LoopPc.buffer,
        LoopPc.frame, Option.toList_some, List.filterMap_append, List.filterMap_cons, buffer,
        List.filterMap_nil, List.cons_append]
      exact (List.perm_append_singleton b _).cons b
    by_cases mine : b.home = some i
    · refine .double b ?_ uncovered rfl (by simpa [mine] using hand')
      rw [hand]
      simp [mine]
    · exact .keep rfl (by simpa [mine] using hand')
  obtain ⟨frame, destroy, passed⟩ | ⟨frame, destroy, held, unset⟩ | other :=
    s.dispatch_cases b buf now
  · rw [passed]
    exact pass frame (by simp [Frame.buffer?, destroy])
  · rw [held]
    refine hold frame (by simp [Frame.buffer?, destroy]) fun covered => ?_
    have set := covered b buf inside
    rcases unset with ⟨type, unset⟩ | ⟨type | type, unset⟩ <;> simp [type, unset] at set
  · rw [other]
    refine .keep rfl (List.Perm.of_eq ?_)
    rw [hand]
    simp [inHand, liveFrames, State.goto, LoopThread.buffer, LoopThread.frame, LoopPc.buffer,
      LoopPc.frame]

theorem transfer_dequeue (inside : s.thread = .inside .dequeue) (index : ℕ) (buf : SpaBuffer) :
    let b : Buffer := { home := s.impl.stream, index := index }
    Transfer i s ((s.call (.dequeueBuffer s.impl.stream (some b))).goto (.dispatch b buf))
      (.loop (.dequeueBuffer (some (index, buf)))) := by
  intro b
  have hand : ((s.call (.dequeueBuffer s.impl.stream (some b))).goto (.dispatch b buf)).inHand i =
      [b].filter (·.home = some i) ++ s.inHand i := by
    rw [inHand_inside inside, ← List.filter_append]
    rfl
  have log := bufferLog_call (s := s) (i := i) (.dequeueBuffer s.impl.stream (some b))
  rw [← bufferLog_goto (.dispatch b buf)] at log
  by_cases mine : b.home = some i
  · refine .acquire b mine mine (by simp [inside]) (fun promised => ?_) ?_ (.of_eq ?_)
    · have free := promised i mine
      rwa [← show b.home = some i from mine] at free
    · simpa [Call.transfer?, mine] using log
    · simpa [mine] using hand
  · refine .keep ?_ (.of_eq ?_)
    · simpa [Call.transfer?, mine] using log
    · simpa [mine] using hand

theorem transfer_queueBuffer {b : Buffer} {frame : Option Frame}
    (inside : s.thread = .inside (.queueing b frame)) :
    Transfer i s ((s.call (.queueBuffer s.impl.stream b)).goto (.returning frame)) a := by
  have hand : s.inHand i = [b].filter (·.home = some i) ++
      ((s.call (.queueBuffer s.impl.stream b)).goto (.returning frame)).inHand i := by
    rw [inHand_inside inside, inHand_goto, ← List.filter_append]
    rfl
  have log := bufferLog_call (s := s) (i := i) (.queueBuffer s.impl.stream b)
  rw [← bufferLog_goto (.returning frame)] at log
  by_cases mine : b.home = some i
  · refine .release b ?_ (.of_eq ?_)
    · simpa [Call.transfer?, mine] using log
    · simpa [mine] using hand
  · refine .keep ?_ (.of_eq ?_)
    · simpa [Call.transfer?, mine] using log
    · simpa [mine] using hand.symm

theorem transfer_leave (h : s.Session) {frame : Frame}
    (inside : s.thread = .inside (.returning (some frame))) :
    Transfer i s ((s.destroyFrame frame).goto .idle) a := by
  have live : frame ∈ s.liveFrames := by
    simp [liveFrames, inside, LoopThread.frame, LoopPc.frame]
  refine transfer_destroyFrame h live rfl rfl (bufferLog_goto _) ?_
  rw [inHand_inside inside, inHand_goto, frames_destroyFrame, ← List.filter_append]
  refine List.Perm.filter _ ?_
  cases buffer : frame.buffer? with
  | none => simp [LoopPc.buffer, LoopPc.frame, buffer]
  | some b => simp [LoopPc.buffer, LoopPc.frame, buffer]

/-- The points of `HandleProcess` at which a buffer or a frame changes hands. -/
def Handles : LoopAction → Prop
  | .dequeueBuffer (some _) | .dispatch _ | .queueBuffer | .leaveProcess => True
  | _ => False

theorem quiet_goto {pc pc' : LoopPc} (inside : s.thread = .inside pc)
    (buffer : pc'.buffer = pc.buffer) (frame : pc'.frame = pc.frame) : Quiet i s (s.goto pc') := by
  refine ⟨rfl, ?_, ?_⟩
  · rw [inside]
    exact buffer
  · simp only [liveFrames, inside]
    exact congrArg (s.frames ++ ·) frame

theorem quiet_insideStep {pc : LoopPc} (inside : s.thread = .inside pc) {l : LoopAction}
    (other : ¬ Handles l) (taken : s.insideStep pc l = some s') : Quiet i s s' := by
  cases inside_of_insideStep taken with
  | leaveLoop quit => refine ⟨rfl, ?_, ?_⟩ <;> simp only [liveFrames, inside] <;> rfl
  | runItem item items head => cases item <;> exact ⟨rfl, rfl, rfl⟩
  | stateChanged old new =>
    unfold State.onStateChanged
    split_ifs <;> exact ⟨rfl, rfl, rfl⟩
  | paramChanged id param now =>
    cases param with
    | none => exact quiet_refl
    | some param =>
      simp only [State.onParamChanged]
      split_ifs <;> exact ⟨rfl, rfl, rfl⟩
  | process => exact quiet_goto inside rfl rfl
  | streaming => exact quiet_goto inside rfl rfl
  | notStreaming state _ => exact quiet_goto inside rfl rfl
  | noBuffer =>
    obtain ⟨-, buffer, frames⟩ : Quiet i s (s.goto .idle) := quiet_goto inside rfl rfl
    exact ⟨bufferLog_call (.dequeueBuffer s.impl.stream none), buffer, frames⟩
  | callbackReturns => exact quiet_goto inside rfl rfl
  | _ => exact absurd trivial other

theorem transfer_insideStep (h : s.Session) {pc : LoopPc} (inside : s.thread = .inside pc)
    {l : LoopAction} (taken : s.insideStep pc l = some s') : Transfer i s s' (.loop l) := by
  by_cases handles : Handles l
  · cases inside_of_insideStep taken with
    | buffer index buf b eq =>
      subst eq
      exact transfer_dequeue inside index buf
    | dispatch b buf now => exact transfer_dispatch inside now
    | queueBuffer b frame => exact transfer_queueBuffer inside
    | leaveProcess frame =>
      cases frame with
      | none =>
        have quiet : Quiet i s (s.goto .idle) := quiet_goto inside rfl rfl
        exact quiet.transfer
      | some frame => exact transfer_leave h inside
    | _ => exact handles.elim
  · exact (quiet_insideStep inside handles taken).transfer

/-- What a step does to the buffers of stream `i`. -/
theorem transfer_step (h : s.Session) (taken : s.step a = some s') : Transfer i s s' a := by
  cases stepped_of_step taken with
  | control c _ moved => exact (quiet_controlStep h moved).transfer
  | enterLoop spawned =>
    refine Quiet.transfer ⟨rfl, ?_, ?_⟩ <;> simp only [liveFrames, spawned] <;> rfl
  | inside pc l _ inside moved => exact transfer_insideStep h inside moved
  | destroyFrame j frame at_j =>
    have live : frame ∈ s.liveFrames := List.mem_append_left _ (List.mem_of_getElem? at_j)
    refine transfer_destroyFrame (u := { s with frames := s.frames.eraseIdx j }) h live rfl rfl
      rfl ?_
    have split : s.liveFrames.Perm (frame :: (s.frames.eraseIdx j ++ s.thread.frame)) := by
      obtain ⟨bound, rfl⟩ := List.getElem?_eq_some_iff.1 at_j
      exact (List.getElem_cons_eraseIdx_perm bound).symm.append_right s.thread.frame
    have buffers := split.filterMap Frame.buffer?
    unfold inHand
    rw [thread_destroyFrame, liveFrames_destroyFrame, ← List.filter_append]
    refine List.Perm.filter _ ((buffers.append_left _).trans ?_)
    cases buffer : frame.buffer? with
    | none => simp [buffer, liveFrames]
    | some b => simp [buffer, liveFrames]

end Steps

end State

end SmoothDemon.PipeWireCapture
