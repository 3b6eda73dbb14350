import Mathlib.Data.Vector.Defs
import SmoothDemon.Capture.FrameTypes

/-!
# PipeWireCapture

The capture object of src/capture/PipeWireCapture.cpp with the PipeWire calls it makes.  Handles are
numbers that are never reused; every call that creates or destroys one, and every call that takes a
buffer from a stream or gives it back, is recorded in `State.trace`, newest first.  `Start` and
`Stop` are lists of steps, so that the same steps serve whole calls here and interleaved calls in
the thread model.
-/

namespace SmoothDemon.PipeWireCapture

/-! ### What PipeWire hands over -/

inductive SpaVideoFormat
  | BGRA
  | RGBA
  | BGRx
  | RGBx
  | other (id : UInt32)
  deriving DecidableEq

inductive SpaDataType
  | MemPtr
  | MemFd
  | DmaBuf
  | other (id : UInt32)
  deriving DecidableEq

structure SpaChunk where
  offset : UInt32
  size : UInt32
  stride : Int32
  deriving DecidableEq

structure SpaData where
  type : SpaDataType
  fd : Int64
  maxsize : UInt32
  data : Option UInt64
  chunk : SpaChunk
  deriving DecidableEq

/-- A `spa_buffer`: the timestamp of its header, if it has one, and its data planes. -/
structure SpaBuffer where
  header : Option Int64
  datas : List SpaData
  datas_ne : datas ≠ []
  deriving DecidableEq

/-- `spa_video_info_raw`, as far as it is read. -/
structure VideoInfo where
  format : SpaVideoFormat := .other 0
  width : UInt32 := 0
  height : UInt32 := 0
  modifier : UInt64 := 0
  deriving DecidableEq

inductive StreamState
  | error
  | unconnected
  | connecting
  | paused
  | streaming
  deriving DecidableEq

def spaToPixelFormat : SpaVideoFormat → PixelFormat
  | .BGRA => .BGRA
  | .RGBA => .RGBA
  | .BGRx => .BGRX
  | .RGBx => .RGBX
  | .other _ => .Unknown

/-- `fourcc_code` of drm_fourcc.h. -/
def fourccCode (a b c d : Char) : UInt64 :=
  a.val.toUInt64 ||| b.val.toUInt64 <<< 8 ||| c.val.toUInt64 <<< 16 ||| d.val.toUInt64 <<< 24

def spaToDrmFormat : SpaVideoFormat → UInt64
  | .BGRA => fourccCode 'A' 'R' '2' '4'
  | .BGRx => fourccCode 'X' 'R' '2' '4'
  | .RGBA => fourccCode 'A' 'B' '2' '4'
  | .RGBx => fourccCode 'X' 'B' '2' '4'
  | .other _ => 0

/-! ### Handles, calls and frames -/

inductive Resource
  | mainLoop (id : ℕ)
  | context (id : ℕ)
  | core (id : ℕ)
  | stream (id : ℕ)
  | fd (id : ℕ)
  deriving DecidableEq

/-- A `pw_buffer`; `home` is the stream it was dequeued from. -/
structure Buffer where
  home : Option ℕ
  index : ℕ
  deriving DecidableEq

inductive Call
  | create (r : Resource)
  | destroy (r : Resource)
  | setActive (stream : ℕ) (active : Bool)
  | dequeueBuffer (stream : Option ℕ) (result : Option Buffer)
  | queueBuffer (stream : Option ℕ) (b : Buffer)
  deriving DecidableEq

/-- The closure `[recycler, b]` that `HandleProcess` stores in `on_frame_done`. -/
structure Closure where
  recycler : Option ℕ
  b : Buffer
  deriving DecidableEq

inductive Frame
  | dmaBuf (frame : DmaBufFrame Closure)
  | memory (frame : MemoryFrame Closure)

/-- What the destructor of a frame invokes. -/
def Frame.destroy : Frame → Option Closure
  | .dmaBuf frame => frame.destroy
  | .memory frame => frame.destroy

def SpaBuffer.first (buf : SpaBuffer) : SpaData := buf.datas.head buf.datas_ne

def SpaBuffer.plane (buf : SpaBuffer) (i : ℕ) : DmaBufPlane :=
  match buf.datas[i]? with
  | some d => { offset := d.chunk.offset.toUInt64, pitch := d.chunk.stride.toInt64.toUInt64 }
  | none => {}

def dmaBufFrame (format : VideoInfo) (pts : Int64) (buf : SpaBuffer) (done : Closure) :
    DmaBufFrame Closure where
  info :=
    { width := format.width
      height := format.height
      pts := pts
      drmFormat := spaToDrmFormat format.format
      fd := buf.first.fd.toInt32
      totalSize := buf.first.maxsize.toUInt64
      modifier := format.modifier
      planeCount := UInt32.ofNat (min buf.datas.length 4)
      planes := Vector.ofFn fun i : Fin 4 => buf.plane i }
  onFrameDone := some done

def memoryFrame (format : VideoInfo) (pts : Int64) (buf : SpaBuffer) (done : Closure) :
    MemoryFrame Closure where
  info :=
    { width := format.width
      height := format.height
      pts := pts
      format := spaToPixelFormat format.format
      memory := buf.first.data
      stride := buf.first.chunk.stride.toInt64.toUInt64
      size := buf.first.chunk.size.toUInt64
      offset := buf.first.chunk.offset.toUInt64 }
  onFrameDone := some done

/-! ### The loop thread -/

/-- Where the loop thread stands inside `pw_main_loop_run`: between two events, or at a point of
`HandleProcess`. -/
inductive LoopPc
  | idle
  | getState
  | dequeue
  | dispatch (b : Buffer) (buf : SpaBuffer)
  | callback
  | queueing (b : Buffer) (frame : Option Frame)
  | returning (frame : Option Frame)

inductive LoopThread
  | absent
  | spawned
  | inside (pc : LoopPc)
  | exited

/-- Work another thread leaves for the loop. -/
inductive Item
  | deactivate (stream : ℕ)
  | quit
  deriving DecidableEq

/-! ### The capture object -/

structure Core where
  id : ℕ
  fd : ℕ
  deriving DecidableEq

/-- `PipeWireCapture::Impl`; `loopThread` says whether the thread is joinable. -/
structure Impl where
  loop : Option ℕ := none
  ctx : Option ℕ := none
  core : Option Core := none
  stream : Option ℕ := none
  loopThread : Bool := false
  format : VideoInfo := {}
  haveDmabuf : Bool := false
  startTime : Int64 := 0
  recycler : Option ℕ := none

inductive Creation
  | mainLoop
  | context
  | dup
  | connectFd
  | stream
  | streamConnect
  deriving DecidableEq

inductive StartStep
  | create (c : Creation)
  | setupRecycler
  | spawnLoopThread
  deriving DecidableEq

inductive StopStep
  | invalidateRecycler
  | invokeDeactivate
  | quitMainLoop
  | joinLoopThread
  | destroyStream
  | disconnectCore
  | destroyContext
  | destroyMainLoop
  | clearStreaming
  deriving DecidableEq

/-- The thread that calls `Start` and `Stop`, with the steps it still has to take. -/
inductive Controller
  | stopped
  | starting (rest : List StartStep)
  | running
  | stopping (rest : List StopStep)

/-- A capture object and the process around it.  `dmaCb`, `memCb` and `stateCb` say whether the
callback is set, `recyclers r` is the stream of recycler `r`, `dupFd` the local of a running
`Start`, `loopRunning` and `items` the running mark and the pending work of the main loop, `frames`
what consumers hold, and `terminated` says that the process has died. -/
structure State where
  impl : Impl := {}
  dmaCb : Bool := false
  memCb : Bool := false
  stateCb : Bool := false
  streaming : Bool := false
  stateCalls : List (Bool × UInt32 × UInt32) := []
  dupFd : Option ℕ := none
  recyclers : ℕ → Option ℕ := fun _ => none
  next : ℕ := 0
  controller : Controller := .stopped
  thread : LoopThread := .absent
  loopRunning : Bool := false
  items : List Item := []
  frames : List Frame := []
  trace : List Call := []
  terminated : Bool := false

namespace State

variable (s : State)

def call (c : Call) : State := { s with trace := c :: s.trace }

/-- A handle made by the call is the next unused number. -/
def create (r : Resource) : State :=
  { s with trace := .create r :: s.trace, next := s.next + 1 }

/-! ### Main loop -/

def execItem : Item → State
  | .deactivate stream => s.call (.setActive stream false)
  | .quit => { s with loopRunning := false }

/-- `pw_loop_invoke` without blocking: queued while a thread is inside the loop, else run at once.
-/
def invoke (item : Item) : State :=
  match s.thread with
  | .inside _ => { s with items := s.items ++ [item] }
  | _ => s.execItem item

/-! ### Start -/

def newMainLoop : State :=
  { s.create (.mainLoop s.next) with
    impl := { s.impl with loop := some s.next }
    loopRunning := false
    items := [] }

def newContext : State :=
  { s.create (.context s.next) with impl := { s.impl with ctx := some s.next } }

def dup : State := { s.create (.fd s.next) with dupFd := some s.next }

/-- `pw_context_connect_fd`: the core owns the descriptor from here on. -/
def connectFd : State :=
  match s.dupFd with
  | none => s
  | some fd =>
    { s.create (.core s.next) with
      impl := { s.impl with core := some { id := s.next, fd := fd } }
      dupFd := none }

/-- The failing `pw_context_connect_fd` closes the descriptor it was given, then `Start` does. -/
def connectFdFails : State :=
  match s.dupFd with
  | none => s
  | some fd =>
    { (s.call (.destroy (.fd fd))).call (.destroy (.fd fd)) with
      impl := { s.impl with core := none }
      dupFd := none }

def newStream : State :=
  { s.create (.stream s.next) with impl := { s.impl with stream := some s.next } }

def setupRecycler : State :=
  { s with
    impl := { s.impl with recycler := some s.next }
    recyclers := Function.update s.recyclers s.next s.impl.stream
    next := s.next + 1 }

/-- The new thread is assigned to `loop_thread`; assigning to a joinable thread ends the process. -/
def spawnLoopThread : State :=
  if s.impl.loopThread then { s with terminated := true }
  else { s with impl := { s.impl with loopThread := true }, thread := .spawned }

def succeed : Creation → State
  | .mainLoop => s.newMainLoop
  | .context => s.newContext
  | .dup => s.dup
  | .connectFd => s.connectFd
  | .stream => s.newStream
  | .streamConnect => s

def fail : Creation → State
  | .mainLoop => { s with impl := { s.impl with loop := none } }
  | .context => { s with impl := { s.impl with ctx := none } }
  | .dup => s
  | .connectFd => s.connectFdFails
  | .stream => { s with impl := { s.impl with stream := none } }
  | .streamConnect => s

def execStart : StartStep → State
  | .create c => s.succeed c
  | .setupRecycler => s.setupRecycler
  | .spawnLoopThread => s.spawnLoopThread

/-! ### Stop -/

def invalidateRecycler : State :=
  match s.impl.recycler with
  | none => s
  | some r => { s with recyclers := Function.update s.recyclers r none }

def execStop : StopStep → State
  | .invalidateRecycler => s.invalidateRecycler
  | .invokeDeactivate =>
    match s.impl.loop, s.impl.stream with
    | some _, some stream => s.invoke (.deactivate stream)
    | _, _ => s
  | .quitMainLoop =>
    match s.impl.loop with
    | none => s
    | some _ => s.invoke .quit
  | .joinLoopThread =>
    if s.impl.loopThread then
      { s with impl := { s.impl with loopThread := false }, thread := .absent }
    else s
  | .destroyStream =>
    match s.impl.stream with
    | none => s
    | some stream =>
      { s.call (.destroy (.stream stream)) with impl := { s.impl with stream := none } }
  | .disconnectCore =>
    match s.impl.core with
    | none => s
    | some core =>
      { (s.call (.destroy (.core core.id))).call (.destroy (.fd core.fd)) with
        impl := { s.impl with core := none } }
  | .destroyContext =>
    match s.impl.ctx with
    | none => s
    | some ctx => { s.call (.destroy (.context ctx)) with impl := { s.impl with ctx := none } }
  | .destroyMainLoop =>
    match s.impl.loop with
    | none => s
    | some loop => { s.call (.destroy (.mainLoop loop)) with impl := { s.impl with loop := none } }
  | .clearStreaming => { s with streaming := false }

theorem impl_invoke (item : Item) : (s.invoke item).impl = s.impl := by
  unfold invoke
  cases item <;> split <;> rfl

/-- What a step of `Stop` leaves of the handles. -/
def clear (impl : Impl) : StopStep → Impl
  | .joinLoopThread => { impl with loopThread := false }
  | .destroyStream => { impl with stream := none }
  | .disconnectCore => { impl with core := none }
  | .destroyContext => { impl with ctx := none }
  | .destroyMainLoop => { impl with loop := none }
  | _ => impl

theorem impl_execStop (step : StopStep) : (s.execStop step).impl = clear s.impl step := by
  cases step with
  | invalidateRecycler =>
    simp only [execStop, invalidateRecycler]
    split <;> rfl
  | invokeDeactivate =>
    simp only [execStop]
    split
    · exact impl_invoke s _
    · rfl
  | quitMainLoop =>
    simp only [execStop]
    split
    · rfl
    · exact impl_invoke s _
  | clearStreaming => rfl
  | joinLoopThread =>
    cases h : s.impl
    simp only [execStop, h, clear]
    split <;> simp_all
  | _ =>
    cases h : s.impl
    simp only [execStop, h, clear]
    split <;> simp_all

/-! ### Stream events -/

def onStateChanged (old new : StreamState) : State :=
  if new = .streaming then { s with streaming := true }
  else if old = .streaming ∨ new = .error then { s with streaming := false }
  else s

end State

def spaParamFormat : UInt32 := 4

/-- A format parameter as spa_format_parse and spa_format_video_raw_parse see it. -/
structure SpaParam where
  mediaParses : Bool
  rawParses : Bool
  format : VideoInfo
  hasModifier : Bool

namespace State

variable (s : State)

def onParamChanged (id : UInt32) (param : Option SpaParam) (now : Int64) : State :=
  match param with
  | none => s
  | some param =>
    if id ≠ spaParamFormat then s
    else if !param.mediaParses then s
    else
      let s := { s with impl := { s.impl with format := param.format } }
      if !param.rawParses then s
      else
        let s := { s with
          impl := { s.impl with haveDmabuf := param.hasModifier, startTime := now } }
        if s.stateCb then
          { s with stateCalls := (true, s.impl.format.width, s.impl.format.height) :: s.stateCalls }
        else s

end State

/-! ### Whole calls -/

def startSteps : List StartStep :=
  [.create .mainLoop, .create .context, .create .dup, .create .connectFd, .create .stream,
    .create .streamConnect, .setupRecycler, .spawnLoopThread]

def stopSteps : List StopStep :=
  [.invalidateRecycler, .invokeDeactivate, .quitMainLoop, .joinLoopThread, .destroyStream,
    .disconnectCore, .destroyContext, .destroyMainLoop, .clearStreaming]

/-- `Start` from the steps it still has to take; `fault` is the creation that fails, if one does. -/
def State.startFrom (fault : Option Creation) : List StartStep → State → State × Bool
  | [], s => (s, true)
  | step :: rest, s =>
    match step with
    | .create c =>
      if fault = some c then (s.fail c, false) else startFrom fault rest (s.succeed c)
    | _ => startFrom fault rest (s.execStart step)

def State.start (s : State) (fault : Option Creation) : State × Bool :=
  s.startFrom fault startSteps

def State.stop (s : State) : State := stopSteps.foldl State.execStop s

end SmoothDemon.PipeWireCapture
