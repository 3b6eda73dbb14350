import SmoothDemon.Capture.PipeWireCapture
import SmoothDemon.Library.Run

/-!
# The threads around a capture

One step of the controller that calls `Start` and `Stop`, of the loop thread that runs the main loop
and `HandleProcess` in it, or of a consumer that destroys a frame it was given.  A region under the
recycler's lock is one step.  PipeWire's answers (whether a creation succeeds, the state of the
stream, the buffer a dequeue returns) are part of the action, so a run may contain any of them.
-/

namespace SmoothDemon.PipeWireCapture

/-- What the thread that owns the capture object does. -/
inductive ControlAction
  | callStart
  | startStep (succeeds : Bool)
  | callStop
  | stopStep
  | setDmaBufCallback (set : Bool)
  | setMemoryCallback (set : Bool)
  | setStateCallback (set : Bool)

/-- What the loop thread does. -/
inductive LoopAction
  | enterLoop
  | leaveLoop
  | runItem
  | stateChanged (old new : StreamState)
  | paramChanged (id : UInt32) (param : Option SpaParam) (now : Int64)
  | process
  | getState (state : StreamState)
  | dequeueBuffer (result : Option (ℕ × SpaBuffer))
  | dispatch (now : Int64)
  | callbackReturns
  | queueBuffer
  | leaveProcess

inductive Action
  | control (a : ControlAction)
  | loop (a : LoopAction)
  | destroyFrame (i : ℕ)

namespace State

variable (s : State)

/-! ### Frames and their buffers -/

/-- `BufferRecycler::recycle`, reached through the closure; a null recycler kills the process. -/
def recycle (done : Closure) : State :=
  match done.recycler with
  | none => { s with terminated := true }
  | some r =>
    match s.recyclers r with
    | none => s
    | some stream => s.call (.queueBuffer (some stream) done.b)

/-- The destructor of a frame. -/
def destroyFrame (frame : Frame) : State :=
  match frame.destroy with
  | none => s
  | some done => s.recycle done

/-- A `unique_ptr` to a frame goes out of scope. -/
def dropFrame : Option Frame → State
  | none => s
  | some frame => s.destroyFrame frame

/-! ### The controller -/

def startStep (step : StartStep) (rest : List StartStep) (succeeds : Bool) : Option State :=
  match step, succeeds with
  | .create c, false => some { s.fail c with controller := .stopped }
  | step, true =>
    let s := s.execStart step
    some { s with controller := if rest = [] then .running else .starting rest }
  | _, false => none

/-- `join` waits for the loop thread; every other step of `Stop` can be taken at once. -/
def stopStep (step : StopStep) (rest : List StopStep) : Option State :=
  match step, s.impl.loopThread, s.thread with
  | .joinLoopThread, true, .spawned => none
  | .joinLoopThread, true, .inside _ => none
  | step, _, _ =>
    let s := s.execStop step
    some { s with controller := if rest = [] then .stopped else .stopping rest }

def controlStep : ControlAction → Option State
  | .callStart =>
    match s.controller with
    | .stopped => some { s with controller := .starting startSteps }
    | _ => none
  | .startStep succeeds =>
    match s.controller with
    | .starting (step :: rest) => s.startStep step rest succeeds
    | _ => none
  | .callStop =>
    match s.controller with
    | .stopped | .running => some { s with controller := .stopping stopSteps }
    | _ => none
  | .stopStep =>
    match s.controller with
    | .stopping (step :: rest) => s.stopStep step rest
    | _ => none
  | .setDmaBufCallback set => some { s with dmaCb := set }
  | .setMemoryCallback set => some { s with memCb := set }
  | .setStateCallback set => some { s with stateCb := set }

/-- The steps of the controller, each with the point it is taken at. -/
inductive Controlled (s : State) : ControlAction → State → Prop
  | callStart (stopped : s.controller = .stopped) :
    Controlled s .callStart { s with controller := .starting startSteps }
  | startStep (step : StartStep) (rest : List StartStep) (succeeds : Bool) (s' : State)
    (starting : s.controller = .starting (step :: rest))
    (moved : s.startStep step rest succeeds = some s') : Controlled s (.startStep succeeds) s'
  | callStop (waits : s.controller = .stopped ∨ s.controller = .running) :
    Controlled s .callStop { s with controller := .stopping stopSteps }
  | stopStep (step : StopStep) (rest : List StopStep) (s' : State)
    (stopping : s.controller = .stopping (step :: rest))
    (moved : s.stopStep step rest = some s') : Controlled s .stopStep s'
  | setDmaBufCallback (set : Bool) : Controlled s (.setDmaBufCallback set) { s with dmaCb := set }
  | setMemoryCallback (set : Bool) : Controlled s (.setMemoryCallback set) { s with memCb := set }
  | setStateCallback (set : Bool) : Controlled s (.setStateCallback set) { s with stateCb := set }

theorem controlled_of_controlStep {s s' : State} {a : ControlAction}
    (taken : s.controlStep a = some s') : Controlled s a s' := by
  cases a with
  | callStart =>
    simp only [controlStep] at taken
    split at taken <;> cases taken
    next stopped => exact .callStart stopped
  | startStep succeeds =>
    simp only [controlStep] at taken
    split at taken
    · next step rest starting => exact .startStep step rest succeeds s' starting taken
    · cases taken
  | callStop =>
    simp only [controlStep] at taken
    split at taken <;> cases taken
    · next stopped => exact .callStop (.inl stopped)
    · next running => exact .callStop (.inr running)
  | stopStep =>
    simp only [controlStep] at taken
    split at taken
    · next step rest stopping => exact .stopStep step rest s' stopping taken
    · cases taken
  | _ =>
    cases taken
    constructor

/-! ### The loop thread -/

def goto (pc : LoopPc) : State := { s with thread := .inside pc }

/-- `HandleProcess` from the buffer on: builds the frame for the buffer's type and passes it to the
callback; without a callback the buffer is queued by hand while the frame is still alive. -/
def dispatch (b : Buffer) (buf : SpaBuffer) (now : Int64) : State :=
  let pts := match buf.header with
    | some pts => pts
    | none => now - s.impl.startTime
  let done : Closure := { recycler := s.impl.recycler, b := b }
  match buf.first.type with
  | .DmaBuf =>
    let frame := Frame.dmaBuf (dmaBufFrame s.impl.format pts buf done)
    if s.dmaCb then { s.goto .callback with frames := frame :: s.frames }
    else s.goto (.queueing b (some frame))
  | .MemPtr | .MemFd =>
    let frame := Frame.memory (memoryFrame s.impl.format pts buf done)
    if s.memCb then { s.goto .callback with frames := frame :: s.frames }
    else s.goto (.queueing b (some frame))
  | .other _ => s.goto (.queueing b none)

/-- The frame of the buffer goes to a consumer, or `HandleProcess` keeps it because the callback is
not set, or there is none. -/
theorem dispatch_cases (b : Buffer) (buf : SpaBuffer) (now : Int64) :
    (∃ frame : Frame, frame.destroy = some { recycler := s.impl.recycler, b := b } ∧
      s.dispatch b buf now = { s.goto .callback with frames := frame :: s.frames }) ∨
    (∃ frame : Frame, frame.destroy = some { recycler := s.impl.recycler, b := b } ∧
      s.dispatch b buf now = s.goto (.queueing b (some frame)) ∧
      (buf.first.type = .DmaBuf ∧ s.dmaCb = false ∨
        (buf.first.type = .MemPtr ∨ buf.first.type = .MemFd) ∧ s.memCb = false)) ∨
    s.dispatch b buf now = s.goto (.queueing b none) := by
  simp only [dispatch]
  split
  · next type =>
    split_ifs with set
    · exact .inl ⟨_, rfl, rfl⟩
    · exact .inr (.inl ⟨_, rfl, rfl, .inl ⟨type, by simpa using set⟩⟩)
  · next type =>
    split_ifs with set
    · exact .inl ⟨_, rfl, rfl⟩
    · exact .inr (.inl ⟨_, rfl, rfl, .inr ⟨.inl type, by simpa using set⟩⟩)
  · next type =>
    split_ifs with set
    · exact .inl ⟨_, rfl, rfl⟩
    · exact .inr (.inl ⟨_, rfl, rfl, .inr ⟨.inr type, by simpa using set⟩⟩)
  · exact .inr (.inr rfl)

/-- A step of the loop thread inside `pw_main_loop_run`. -/
def insideStep (pc : LoopPc) : LoopAction → Option State
  | .leaveLoop =>
    match pc, s.loopRunning with
    | .idle, false => some { s with thread := .exited }
    | _, _ => none
  | .runItem =>
    match pc, s.items with
    | .idle, item :: items => some (State.execItem { s with items := items } item)
    | _, _ => none
  | .stateChanged old new =>
    match pc with
    | .idle => some (s.onStateChanged old new)
    | _ => none
  | .paramChanged id param now =>
    match pc with
    | .idle => some (s.onParamChanged id param now)
    | _ => none
  | .process =>
    match pc with
    | .idle => some (s.goto .getState)
    | _ => none
  | .getState state =>
    match pc with
    | .getState => some (s.goto (if state = .streaming then .dequeue else .idle))
    | _ => none
  | .dequeueBuffer result =>
    match pc, result with
    | .dequeue, none => some ((s.call (.dequeueBuffer s.impl.stream none)).goto .idle)
    | .dequeue, some (index, buf) =>
      let b : Buffer := { home := s.impl.stream, index := index }
      some ((s.call (.dequeueBuffer s.impl.stream (some b))).goto (.dispatch b buf))
    | _, _ => none
  | .dispatch now =>
    match pc with
    | .dispatch b buf => some (s.dispatch b buf now)
    | _ => none
  | .callbackReturns =>
    match pc with
    | .callback => some (s.goto .idle)
    | _ => none
  | .queueBuffer =>
    match pc with
    | .queueing b frame => some ((s.call (.queueBuffer s.impl.stream b)).goto (.returning frame))
    | _ => none
  | .leaveProcess =>
    match pc with
    | .returning frame => some ((s.dropFrame frame).goto .idle)
    | _ => none
  | .enterLoop => none

/-- The steps inside the loop, each with the point it is taken at. -/
inductive Inside (s : State) : LoopPc → LoopAction → State → Prop
  | leaveLoop (quit : s.loopRunning = false) :
    Inside s .idle .leaveLoop { s with thread := .exited }
  | runItem (item : Item) (items : List Item) (head : s.items = item :: items) :
    Inside s .idle .runItem (State.execItem { s with items := items } item)
  | stateChanged (old new : StreamState) :
    Inside s .idle (.stateChanged old new) (s.onStateChanged old new)
  | paramChanged (id : UInt32) (param : Option SpaParam) (now : Int64) :
    Inside s .idle (.paramChanged id param now) (s.onParamChanged id param now)
  | process : Inside s .idle .process (s.goto .getState)
  | streaming : Inside s .getState (.getState .streaming) (s.goto .dequeue)
  | notStreaming (state : StreamState) (other : state ≠ .streaming) :
    Inside s .getState (.getState state) (s.goto .idle)
  | noBuffer : Inside s .dequeue (.dequeueBuffer none)
      ((s.call (.dequeueBuffer s.impl.stream none)).goto .idle)
  | buffer (index : ℕ) (buf : SpaBuffer) (b : Buffer)
      (eq : b = { home := s.impl.stream, index := index }) :
    Inside s .dequeue (.dequeueBuffer (some (index, buf)))
      ((s.call (.dequeueBuffer s.impl.stream (some b))).goto (.dispatch b buf))
  | dispatch (b : Buffer) (buf : SpaBuffer) (now : Int64) :
    Inside s (.dispatch b buf) (.dispatch now) (s.dispatch b buf now)
  | callbackReturns : Inside s .callback .callbackReturns (s.goto .idle)
  | queueBuffer (b : Buffer) (frame : Option Frame) :
    Inside s (.queueing b frame) .queueBuffer
      ((s.call (.queueBuffer s.impl.stream b)).goto (.returning frame))
  | leaveProcess (frame : Option Frame) :
    Inside s (.returning frame) .leaveProcess ((s.dropFrame frame).goto .idle)

theorem inside_of_insideStep {s s' : State} {pc : LoopPc} {a : LoopAction}
    (taken : s.insideStep pc a = some s') : Inside s pc a s' := by
  cases a with
  | enterLoop => cases taken
  | leaveLoop =>
    simp only [insideStep] at taken
    split at taken <;> cases taken
    next quit => exact .leaveLoop quit
  | runItem =>
    simp only [insideStep] at taken
    split at taken <;> cases taken
    next item items head => exact .runItem item items head
  | getState state =>
    simp only [insideStep] at taken
    split at taken <;> cases taken
    by_cases streaming : state = .streaming
    · subst streaming
      exact .streaming
    · rw [if_neg streaming]
      exact .notStreaming state streaming
  | dequeueBuffer result =>
    simp only [insideStep] at taken
    split at taken <;> cases taken
    · exact .noBuffer
    · exact .buffer _ _ _ rfl
  | _ =>
    simp only [insideStep] at taken
    split at taken <;> cases taken
    constructor

def loopStep (a : LoopAction) : Option State :=
  match s.thread, a with
  | .spawned, .enterLoop => some { s.goto .idle with loopRunning := true }
  | .inside pc, a => s.insideStep pc a
  | _, _ => none

/-! ### All together -/

/-- One step of some thread; a process that was terminated takes none. -/
def step (a : Action) : Option State :=
  if s.terminated then none
  else match a with
    | .control a => s.controlStep a
    | .loop a => s.loopStep a
    | .destroyFrame i =>
      match s.frames[i]? with
      | none => none
      | some frame => some (destroyFrame { s with frames := s.frames.eraseIdx i } frame)

/-- The steps of a process that was not terminated. -/
inductive Stepped (s : State) : Action → State → Prop
  | control (a : ControlAction) (s' : State) (moved : s.controlStep a = some s') :
    Stepped s (.control a) s'
  | enterLoop (spawned : s.thread = .spawned) :
    Stepped s (.loop .enterLoop) { s.goto .idle with loopRunning := true }
  | inside (pc : LoopPc) (a : LoopAction) (s' : State) (inside : s.thread = .inside pc)
    (moved : s.insideStep pc a = some s') : Stepped s (.loop a) s'
  | destroyFrame (i : ℕ) (frame : Frame) (at_i : s.frames[i]? = some frame) :
    Stepped s (.destroyFrame i) (State.destroyFrame { s with frames := s.frames.eraseIdx i } frame)

theorem stepped_of_step {s s' : State} {a : Action} (taken : s.step a = some s') :
    Stepped s a s' := by
  unfold step at taken
  split at taken
  · cases taken
  cases a with
  | control a => exact .control a s' taken
  | loop a =>
    simp only [loopStep] at taken
    split at taken
    · next spawned =>
      cases taken
      exact .enterLoop spawned
    · next pc inside => exact .inside pc _ s' inside taken
    · cases taken
  | destroyFrame i =>
    simp only at taken
    split at taken <;> cases taken
    next frame at_i => exact .destroyFrame i frame at_i

/-! ### A first session -/

/-- `Start` returns true in this step. -/
def Started (s s' : State) : Prop :=
  s.controller = .starting [.spawnLoopThread] ∧ s.step (.control (.startStep true)) = some s'

/-- A buffer with one DMA-BUF plane and no header. -/
def dmaBufBuffer : SpaBuffer where
  header := none
  datas := [⟨.DmaBuf, 7, 4096, none, ⟨0, 4096, 64⟩⟩]
  datas_ne := nofun

/-- The first `Start` of an object, up to its last step. -/
def nearlyStarted (dmaCb : Bool) : State where
  impl :=
    { loop := some 0
      ctx := some 1
      core := some { id := 3, fd := 2 }
      stream := some 4
      recycler := some 5 }
  dmaCb := dmaCb
  recyclers := Function.update (fun _ => none) 5 (some 4)
  next := 6
  controller := .starting [.spawnLoopThread]
  trace := [.create (.stream 4), .create (.core 3), .create (.fd 2), .create (.context 1),
    .create (.mainLoop 0)]

theorem run_nearlyStarted (dmaCb : Bool) : Transition.Run step {}
    (.control (.setDmaBufCallback dmaCb) :: .control .callStart ::
      List.replicate 7 (.control (.startStep true))) (nearlyStarted dmaCb) := rfl

def justStarted (dmaCb : Bool) : State :=
  { nearlyStarted dmaCb with
    impl := { (nearlyStarted dmaCb).impl with loopThread := true }
    controller := .running
    thread := .spawned }

theorem started_nearlyStarted (dmaCb : Bool) :
    (nearlyStarted dmaCb).Started (justStarted dmaCb) := ⟨rfl, rfl⟩

/-- Actions that bring one buffer into `HandleProcess`. -/
def oneBuffer : List Action :=
  [.loop .enterLoop, .loop .process, .loop (.getState .streaming),
    .loop (.dequeueBuffer (some (0, dmaBufBuffer)))]

/-- A session whose first frame is destroyed while it lasts. -/
def firstFrame : List Action :=
  .control (.setDmaBufCallback true) :: .control .callStart ::
    List.replicate 8 (.control (.startStep true)) ++ oneBuffer ++
      [.loop (.dispatch 0), .destroyFrame 0]

end State

end SmoothDemon.PipeWireCapture
