import SmoothDemon.Capture.Recycling

/-!
# What a consumer is given

`HandleProcess` describes a frame by the format in `Impl`, which `OnParamChanged` overwrites at any
time between two buffers.  Over every interleaving, a frame that a consumer holds carries the format
stored last before its buffer was dispatched and that buffer's own planes, and destroying it returns
that buffer as long as its session lasts (`frames_made`).
-/

namespace SmoothDemon.PipeWireCapture

/-! ### What the stream negotiates -/

/-- A format parameter that `OnParamChanged` stores, and the clock then. -/
def Action.parsed : Action → Option (SpaParam × Int64)
  | .loop (.paramChanged id (some param) now) =>
    if id = spaParamFormat ∧ param.mediaParses then some (param, now) else none
  | _ => none

/-- One that it reads to its end. -/
def Action.announced (a : Action) : Option (SpaParam × Int64) := a.parsed.filter (·.1.rawParses)

def Action.dequeued : Action → Option (ℕ × SpaBuffer)
  | .loop (.dequeueBuffer result) => result
  | _ => none

variable (as : List Action)

/-- The format stored last. -/
def lastFormat : VideoInfo :=
  ((as.filterMap fun a => a.parsed.map (·.1.format)).getLast?).getD {}

/-- When a format was last announced. -/
def lastStart : Int64 := ((as.filterMap fun a => a.announced.map (·.2)).getLast?).getD 0

/-- Whether the format announced last has a modifier. -/
def lastModifier : Bool :=
  ((as.filterMap fun a => a.announced.map (·.1.hasModifier)).getLast?).getD false

def lastDequeued : Option (ℕ × SpaBuffer) := (as.filterMap Action.dequeued).getLast?

theorem lastFormat_concat (a : Action) :
    lastFormat (as ++ [a]) = (a.parsed.map (·.1.format)).getD (lastFormat as) := by
  unfold lastFormat
  rw [Records.getD_getLast?_concat]

theorem lastStart_concat (a : Action) :
    lastStart (as ++ [a]) = (a.announced.map (·.2)).getD (lastStart as) := by
  unfold lastStart
  rw [Records.getD_getLast?_concat]

theorem lastModifier_concat (a : Action) :
    lastModifier (as ++ [a]) = (a.announced.map (·.1.hasModifier)).getD (lastModifier as) := by
  unfold lastModifier
  rw [Records.getD_getLast?_concat]

/-- The frame that `HandleProcess` makes of a buffer at `now`, for a format announced at `start`. -/
inductive Builds (format : VideoInfo) (start now : Int64) (buf : SpaBuffer) (done : Closure) :
    Frame → Prop
  | dmaBuf (pts : Int64) (stamp : pts = buf.header.getD (now - start))
    (type : buf.first.type = .DmaBuf) :
    Builds format start now buf done (.dmaBuf (dmaBufFrame format pts buf done))
  | memory (pts : Int64) (stamp : pts = buf.header.getD (now - start))
    (type : buf.first.type = .MemPtr ∨ buf.first.type = .MemFd) :
    Builds format start now buf done (.memory (memoryFrame format pts buf done))

def Frame.size : Frame → UInt32 × UInt32
  | .dmaBuf frame => (frame.info.width, frame.info.height)
  | .memory frame => (frame.info.width, frame.info.height)

def Frame.pts : Frame → Int64
  | .dmaBuf frame => frame.info.pts
  | .memory frame => frame.info.pts

/-- The frame describes the data of the buffer: the planes of a DMA-BUF, four at most, or the first
block of memory. -/
def Frame.Carries (buf : SpaBuffer) : Frame → Prop
  | .dmaBuf frame => buf.first.type = .DmaBuf ∧ frame.info.fd = buf.first.fd.toInt32 ∧
      frame.info.totalSize = buf.first.maxsize.toUInt64 ∧
      frame.info.planeCount.toNat = min buf.datas.length 4 ∧
      ∀ (i : Fin 4) (d : SpaData), buf.datas[i.val]? = some d → frame.info.planes.get i =
        { offset := d.chunk.offset.toUInt64, pitch := d.chunk.stride.toInt64.toUInt64 }
  | .memory frame => (buf.first.type = .MemPtr ∨ buf.first.type = .MemFd) ∧
      frame.info.memory = buf.first.data ∧ frame.info.size = buf.first.chunk.size.toUInt64 ∧
      frame.info.stride = buf.first.chunk.stride.toInt64.toUInt64 ∧
      frame.info.offset = buf.first.chunk.offset.toUInt64

theorem Builds.carries {format : VideoInfo} {start now : Int64} {buf : SpaBuffer} {done : Closure}
    {frame : Frame} (h : Builds format start now buf done frame) : frame.Carries buf := by
  cases h with
  | dmaBuf pts stamp type =>
    refine ⟨type, rfl, rfl, ?_, fun i d at_i => ?_⟩
    · have small : min buf.datas.length 4 < 2 ^ 32 := by omega
      exact UInt32.toNat_ofNat_of_lt' small
    · have plane : (dmaBufFrame format pts buf done).info.planes.get i = buf.plane i :=
        Vector.getElem_ofFn i.isLt
      rw [plane, SpaBuffer.plane, at_i]
  | memory pts stamp type => exact ⟨type, rfl, rfl, rfl, rfl⟩

theorem Builds.size_pts {format : VideoInfo} {start now : Int64} {buf : SpaBuffer} {done : Closure}
    {frame : Frame} (h : Builds format start now buf done frame) :
    frame.size = (format.width, format.height) ∧ frame.pts = buf.header.getD (now - start) ∧
      frame.destroy = some done := by
  cases h with
  | dmaBuf pts stamp type => exact ⟨rfl, stamp, rfl⟩
  | memory pts stamp type => exact ⟨rfl, stamp, rfl⟩

namespace State

variable {s s' : State} {a : Action}

/-! ### Steps of the controller -/

/-- What was negotiated and given away is the same, and no buffer has been taken. -/
structure Kept (s s' : State) : Prop where
  format : s'.impl.format = s.impl.format
  startTime : s'.impl.startTime = s.impl.startTime
  haveDmabuf : s'.impl.haveDmabuf = s.impl.haveDmabuf
  frames : s'.frames = s.frames
  dispatch : ∀ b buf, s'.thread = .inside (.dispatch b buf) → s.thread = .inside (.dispatch b buf)

theorem kept_refl : Kept s s := ⟨rfl, rfl, rfl, rfl, fun _ _ => id⟩

theorem kept_succeed (c : Creation) : Kept s (s.succeed c) := by
  cases c with
  | connectFd =>
    simp only [State.succeed, State.connectFd]
    split <;> exact ⟨rfl, rfl, rfl, rfl, fun _ _ => id⟩
  | _ => exact ⟨rfl, rfl, rfl, rfl, fun _ _ => id⟩

theorem kept_fail (c : Creation) : Kept s (s.fail c) := by
  cases c with
  | connectFd =>
    simp only [State.fail, State.connectFdFails]
    split <;> exact ⟨rfl, rfl, rfl, rfl, fun _ _ => id⟩
  | _ => exact ⟨rfl, rfl, rfl, rfl, fun _ _ => id⟩

theorem kept_execStart (step : StartStep) : Kept s (s.execStart step) := by
  cases step with
  | create c => exact kept_succeed c
  | setupRecycler => exact ⟨rfl, rfl, rfl, rfl, fun _ _ => id⟩
  | spawnLoopThread =>
    simp only [State.execStart, State.spawnLoopThread]
    split_ifs
    · exact ⟨rfl, rfl, rfl, rfl, fun _ _ => id⟩
    · exact ⟨rfl, rfl, rfl, rfl, fun _ _ h => by cases h⟩

theorem kept_invoke (item : Item) : Kept s (s.invoke item) := by
  unfold State.invoke
  cases item <;> split <;> exact ⟨rfl, rfl, rfl, rfl, fun _ _ => id⟩

theorem kept_execStop (step : StopStep) : Kept s (s.execStop step) := by
  cases step with
  | invokeDeactivate =>
    simp only [execStop]
    split
    · exact kept_invoke _
    · exact kept_refl
  | quitMainLoop =>
    simp only [execStop]
    split
    · exact kept_refl
    · exact kept_invoke _
  | joinLoopThread =>
    simp only [execStop]
    split_ifs
    · exact ⟨rfl, rfl, rfl, rfl, fun _ _ h => by cases h⟩
    · exact kept_refl
  | invalidateRecycler =>
    simp only [execStop, State.invalidateRecycler]
    split <;> exact ⟨rfl, rfl, rfl, rfl, fun _ _ => id⟩
  | clearStreaming => exact ⟨rfl, rfl, rfl, rfl, fun _ _ => id⟩
  | _ =>
    simp only [execStop]
    split <;> exact ⟨rfl, rfl, rfl, rfl, fun _ _ => id⟩

theorem Kept.controller (h : Kept s s') (controller : Controller) :
    Kept s { s' with controller := controller } :=
  ⟨h.format, h.startTime, h.haveDmabuf, h.frames, h.dispatch⟩

theorem kept_controlStep {c : ControlAction} (taken : s.controlStep c = some s') : Kept s s' := by
  cases controlled_of_controlStep taken with
  | startStep step rest succeeds _ starting moved =>
    unfold State.startStep at moved
    split at moved
    · cases moved
      exact (kept_fail _).controller _
    · cases moved
      exact (kept_execStart step).controller _
    · cases moved
  | stopStep step rest _ stopping moved =>
    unfold State.stopStep at moved
    split at moved
    · cases moved
    · cases moved
    · cases moved
      exact (kept_execStop _).controller _
  | _ => exact ⟨rfl, rfl, rfl, rfl, fun _ _ => id⟩

theorem kept_destroyFrame (frame : Frame) : Kept s (s.destroyFrame frame) := by
  unfold State.destroyFrame State.recycle
  split
  · exact kept_refl
  · split
    · exact ⟨rfl, rfl, rfl, rfl, fun _ _ => id⟩
    · split <;> exact ⟨rfl, rfl, rfl, rfl, fun _ _ => id⟩

/-! ### One step -/

/-- The three fields of `Impl` that `OnParamChanged` writes, after the action `a`. -/
structure Negotiates (s : State) (a : Action) (s' : State) : Prop where
  format : s'.impl.format = (a.parsed.map (·.1.format)).getD s.impl.format
  startTime : s'.impl.startTime = (a.announced.map (·.2)).getD s.impl.startTime
  haveDmabuf : s'.impl.haveDmabuf = (a.announced.map (·.1.hasModifier)).getD s.impl.haveDmabuf

theorem Negotiates.of_impl (silent : a.parsed = none) (format : s'.impl.format = s.impl.format)
    (startTime : s'.impl.startTime = s.impl.startTime)
    (haveDmabuf : s'.impl.haveDmabuf = s.impl.haveDmabuf) : Negotiates s a s' := by
  have quiet : a.announced = none := by simp [Action.announced, silent]
  refine ⟨?_, ?_, ?_⟩
  · simpa [silent] using format
  · simpa [quiet] using startTime
  · simpa [quiet] using haveDmabuf

theorem negotiates_onParamChanged (id : UInt32) (param : Option SpaParam) (now : Int64) :
    Negotiates s (.loop (.paramChanged id param now)) (s.onParamChanged id param now) := by
  cases param with
  | none => exact .of_impl rfl rfl rfl rfl
  | some param =>
    simp only [State.onParamChanged]
    split_ifs with other unparsed raw
    · exact .of_impl (by simp [Action.parsed, other]) rfl rfl rfl
    · refine .of_impl ?_ rfl rfl rfl
      simp_all [Action.parsed]
    · have parsed : Action.parsed (.loop (.paramChanged id (some param) now)) =
          some (param, now) := by
        simp_all [Action.parsed]
      have quiet : Action.announced (.loop (.paramChanged id (some param) now)) = none := by
        simpa [Action.announced, parsed] using raw
      refine ⟨?_, ?_, ?_⟩
      · simp [parsed]
      · simp [quiet]
      · simp [quiet]
    all_goals
      have parsed : Action.parsed (.loop (.paramChanged id (some param) now)) =
          some (param, now) := by
        simp_all [Action.parsed]
      have announced : Action.announced (.loop (.paramChanged id (some param) now)) =
          some (param, now) := by
        simp_all [Action.announced]
      refine ⟨?_, ?_, ?_⟩
      · simp [parsed]
      · simp [announced]
      · simp [announced]

/-- The frame of a buffer of this type finds no callback. -/
def Unserved (s : State) (buf : SpaBuffer) : Prop :=
  match buf.first.type with
  | .DmaBuf => s.dmaCb = false
  | .MemPtr | .MemFd => s.memCb = false
  | .other _ => True

/-- What the consumers hold after the action `a`. -/
inductive Serves (s : State) (a : Action) (frames : List Frame) : Prop
  | keep (eq : frames = s.frames) (held : ∀ i, a ≠ .destroyFrame i)
    (unserved : ∀ now b buf, a = .loop (.dispatch now) → s.thread = .inside (.dispatch b buf) →
      s.Unserved buf)
  | give (now : Int64) (b : Buffer) (buf : SpaBuffer) (frame : Frame) (done : Closure)
    (act : a = .loop (.dispatch now)) (inside : s.thread = .inside (.dispatch b buf))
    (builds : Builds s.impl.format s.impl.startTime now buf done frame)
    (same : done = { recycler := s.impl.recycler, b := b }) (eq : frames = frame :: s.frames)
  | take (i : ℕ) (frame : Frame) (act : a = .destroyFrame i) (there : s.frames[i]? = some frame)
    (eq : frames = s.frames.eraseIdx i)

theorem serves_dispatch {b : Buffer} {buf : SpaBuffer}
    (inside : s.thread = .inside (.dispatch b buf)) (now : Int64) :
    Serves s (.loop (.dispatch now)) (s.dispatch b buf now).frames := by
  have here {c : Buffer} {buf' : SpaBuffer} (h : s.thread = .inside (.dispatch c buf')) :
      buf' = buf := by
    rw [inside] at h
    cases h
    rfl
  have other (i : ℕ) : Action.loop (.dispatch now) ≠ .destroyFrame i := by simp
  simp only [State.dispatch]
  split
  · next type =>
    split_ifs with set
    · refine .give now b buf _ _ rfl inside (.dmaBuf _ ?_ type) rfl rfl
      cases buf.header <;> rfl
    · refine .keep rfl other fun _ c buf' _ h => ?_
      rw [here h, Unserved, type]
      simpa using set
  · next type =>
    split_ifs with set
    · refine .give now b buf _ _ rfl inside (.memory _ ?_ (.inl type)) rfl rfl
      cases buf.header <;> rfl
    · refine .keep rfl other fun _ c buf' _ h => ?_
      rw [here h, Unserved, type]
      simpa using set
  · next type =>
    split_ifs with set
    · refine .give now b buf _ _ rfl inside (.memory _ ?_ (.inr type)) rfl rfl
      cases buf.header <;> rfl
    · refine .keep rfl other fun _ c buf' _ h => ?_
      rw [here h, Unserved, type]
      simpa using set
  · next id type =>
    refine .keep rfl other fun _ c buf' _ h => ?_
    rw [here h, Unserved, type]
    trivial

theorem kept_onStateChanged (old new : StreamState) : Kept s (s.onStateChanged old new) := by
  unfold State.onStateChanged
  split_ifs <;> exact ⟨rfl, rfl, rfl, rfl, fun _ _ => id⟩

theorem kept_dropFrame (frame : Option Frame) : Kept s (s.dropFrame frame) := by
  cases frame with
  | none => exact kept_refl
  | some frame => exact kept_destroyFrame frame

theorem kept_execItem (item : Item) : Kept s (s.execItem item) := by
  cases item <;> exact ⟨rfl, rfl, rfl, rfl, fun _ _ => id⟩

theorem frames_onParamChanged (id : UInt32) (param : Option SpaParam) (now : Int64) :
    (s.onParamChanged id param now).frames = s.frames ∧
      (s.onParamChanged id param now).thread = s.thread := by
  cases param with
  | none => exact ⟨rfl, rfl⟩
  | some param =>
    simp only [State.onParamChanged]
    split_ifs <;> exact ⟨rfl, rfl⟩

theorem impl_dispatch (b : Buffer) (buf : SpaBuffer) (now : Int64) :
    (s.dispatch b buf now).impl = s.impl ∧
      ∀ c buf', (s.dispatch b buf now).thread ≠ .inside (.dispatch c buf') := by
  rcases s.dispatch_cases b buf now with ⟨frame, -, moved⟩ | ⟨frame, -, moved, -⟩ | moved
  all_goals
    rw [moved]
    exact ⟨rfl, nofun⟩

theorem negotiates_step (taken : s.step a = some s') : Negotiates s a s' := by
  cases stepped_of_step taken with
  | control c _ moved =>
    have kept := kept_controlStep moved
    exact .of_impl rfl kept.format kept.startTime kept.haveDmabuf
  | enterLoop spawned => exact .of_impl rfl rfl rfl rfl
  | destroyFrame i frame there =>
    have kept := kept_destroyFrame (s := { s with frames := s.frames.eraseIdx i }) frame
    exact .of_impl rfl kept.format kept.startTime kept.haveDmabuf
  | inside pc l _ inside moved =>
    cases inside_of_insideStep moved with
    | runItem item items head =>
      have kept := kept_execItem (s := { s with items := items }) item
      exact .of_impl rfl kept.format kept.startTime kept.haveDmabuf
    | stateChanged old new =>
      have kept := kept_onStateChanged (s := s) old new
      exact .of_impl rfl kept.format kept.startTime kept.haveDmabuf
    | paramChanged id param now => exact negotiates_onParamChanged id param now
    | dispatch b buf now =>
      obtain ⟨impl, -⟩ := impl_dispatch (s := s) b buf now
      exact .of_impl rfl (by rw [impl]) (by rw [impl]) (by rw [impl])
    | leaveProcess frame =>
      have kept := kept_dropFrame (s := s) frame
      exact .of_impl rfl kept.format kept.startTime kept.haveDmabuf
    | _ => exact .of_impl rfl rfl rfl rfl

theorem serves_step (taken : s.step a = some s') : Serves s a s'.frames := by
  cases stepped_of_step taken with
  | control c _ moved => exact .keep (kept_controlStep moved).frames nofun nofun
  | enterLoop spawned => exact .keep rfl nofun nofun
  | destroyFrame i frame there =>
    have kept := kept_destroyFrame (s := { s with frames := s.frames.eraseIdx i }) frame
    exact .take i frame rfl there kept.frames
  | inside pc l _ inside moved =>
    cases inside_of_insideStep moved with
    | runItem item items head =>
      exact .keep (kept_execItem (s := { s with items := items }) item).frames nofun nofun
    | stateChanged old new => exact .keep (kept_onStateChanged old new).frames nofun nofun
    | paramChanged id param now =>
      exact .keep (frames_onParamChanged id param now).1 nofun nofun
    | dispatch b buf now => exact serves_dispatch inside now
    | leaveProcess frame => exact .keep (kept_dropFrame frame).frames nofun nofun
    | _ => exact .keep rfl nofun nofun

/-- The frame that a step puts in front of those held by consumers, which is given to a callback. -/
def handed (s s' : State) : Option Frame :=
  if s.frames.length < s'.frames.length then s'.frames.head? else none

theorem handed_of_le (fewer : s'.frames.length ≤ s.frames.length) : s.handed s' = none :=
  if_neg (Nat.not_lt.2 fewer)

theorem handed_of_cons {frame : Frame} (eq : s'.frames = frame :: s.frames) :
    s.handed s' = some frame := by
  rw [handed, eq, if_pos (by simp), List.head?_cons]

/-- A buffer that waits for its dispatch is the one that was dequeued last. -/
theorem dequeued_step (taken : s.step a = some s') {b : Buffer} {buf : SpaBuffer}
    (waits : s'.thread = .inside (.dispatch b buf)) :
    a.dequeued = none ∧ s.thread = .inside (.dispatch b buf) ∨
      a.dequeued = some (b.index, buf) := by
  cases stepped_of_step taken with
  | control c _ moved => exact .inl ⟨rfl, (kept_controlStep moved).dispatch b buf waits⟩
  | enterLoop spawned => cases waits
  | destroyFrame i frame there =>
    have kept := kept_destroyFrame (s := { s with frames := s.frames.eraseIdx i }) frame
    exact .inl ⟨rfl, kept.dispatch b buf waits⟩
  | inside pc l _ inside moved =>
    cases inside_of_insideStep moved with
    | runItem item items head =>
      have kept := kept_execItem (s := { s with items := items }) item
      exact .inl ⟨rfl, kept.dispatch b buf waits⟩
    | stateChanged old new => exact .inl ⟨rfl, (kept_onStateChanged old new).dispatch b buf waits⟩
    | paramChanged id param now =>
      rw [(frames_onParamChanged id param now).2] at waits
      exact .inl ⟨rfl, waits⟩
    | buffer index dequeued c eq =>
      cases waits
      rw [eq]
      exact .inr rfl
    | dispatch c buf' now => exact absurd waits ((impl_dispatch c buf' now).2 b buf)
    | _ => cases waits

/-! ### A first buffer -/

/-- BGRx with a modifier. -/
def bgrxParam : SpaParam where
  mediaParses := true
  rawParses := true
  format := { format := .BGRx, width := 1280, height := 720 }
  hasModifier := true

def firstStart : List Action :=
  .control (.setDmaBufCallback true) :: .control .callStart ::
    List.replicate 8 (.control (.startStep true))

/-- The loop up to the dispatch of its first buffer. -/
def firstBuffer : List Action :=
  [.loop .enterLoop, .loop (.paramChanged spaParamFormat (some bgrxParam) 100), .loop .process,
    .loop (.getState .streaming), .loop (.dequeueBuffer (some (0, dmaBufBuffer))),
    .loop (.dispatch 120)]

/-! ### Where a frame comes from -/

variable {as : List Action} {t : State}

theorem negotiated_of_run (run : Transition.Run step {} as t) :
    t.impl.format = lastFormat as ∧ t.impl.startTime = lastStart as ∧
      t.impl.haveDmabuf = lastModifier as := by
  induction as using List.reverseRecOn generalizing t with
  | nil =>
    obtain rfl := Transition.run_nil.1 run
    exact ⟨rfl, rfl, rfl⟩
  | append_singleton as a ih =>
    obtain ⟨s, before, last⟩ := Transition.run_concat.1 run
    obtain ⟨format, startTime, haveDmabuf⟩ := ih before
    have now := negotiates_step last
    rw [now.format, now.startTime, now.haveDmabuf, format, startTime, haveDmabuf]
    exact ⟨(lastFormat_concat as a).symm, (lastStart_concat as a).symm,
      (lastModifier_concat as a).symm⟩

theorem lastDequeued_of_run (run : Transition.Run step {} as t) {b : Buffer} {buf : SpaBuffer}
    (waits : t.thread = .inside (.dispatch b buf)) : lastDequeued as = some (b.index, buf) := by
  induction as using List.reverseRecOn generalizing t with
  | nil =>
    obtain rfl := Transition.run_nil.1 run
    cases waits
  | append_singleton as a ih =>
    obtain ⟨s, before, last⟩ := Transition.run_concat.1 run
    unfold lastDequeued at ih ⊢
    rw [List.filterMap_append]
    rcases dequeued_step last waits with ⟨none, waited⟩ | taken
    · simp [none, ih before waited]
    · simp [taken]

/-- Some dispatch made the frame, of the buffer dequeued last before it, for the format stored last
before it and with the recycler of that time. -/
def Made (as : List Action) (frame : Frame) : Prop :=
  ∃ before now after s b buf, as = before ++ .loop (.dispatch now) :: after ∧
    Transition.Run step {} before s ∧ s.thread = .inside (.dispatch b buf) ∧
      lastDequeued before = some (b.index, buf) ∧
      Builds (lastFormat before) (lastStart before) now buf
        { recycler := s.impl.recycler, b := b } frame

theorem Made.concat {frame : Frame} (h : Made as frame) (a : Action) : Made (as ++ [a]) frame := by
  obtain ⟨before, now, after, s, b, buf, rfl, made⟩ := h
  exact ⟨before, now, after ++ [a], s, b, buf, by simp, made⟩

theorem made_of_run (run : Transition.Run step {} as t) {frame : Frame} (held : frame ∈ t.frames) :
    Made as frame := by
  induction as using List.reverseRecOn generalizing t with
  | nil =>
    obtain rfl := Transition.run_nil.1 run
    exact absurd held List.not_mem_nil
  | append_singleton as a ih =>
    obtain ⟨s, before, last⟩ := Transition.run_concat.1 run
    cases serves_step last with
    | keep eq =>
      rw [eq] at held
      exact (ih before held).concat a
    | give now b buf new done act inside builds same eq =>
      rw [eq, List.mem_cons] at held
      rcases held with rfl | old
      · obtain ⟨format, startTime, -⟩ := negotiated_of_run before
        rw [format, startTime, same] at builds
        exact ⟨as, now, [], s, b, buf, by rw [act], before, inside,
          lastDequeued_of_run before inside, builds⟩
      · exact (ih before old).concat a
    | take i gone act there eq =>
      rw [eq] at held
      exact (ih before (List.mem_of_mem_eraseIdx held)).concat a

/-- The recycler of a frame keeps the stream until the first step of the next `Stop`. -/
theorem recyclers_of_made {before after : List Action} {now : Int64} {s : State} {b : Buffer}
    {buf : SpaBuffer} (first : Transition.Run step {} before s)
    (inside : s.thread = .inside (.dispatch b buf))
    (run : Transition.Run step s (.loop (.dispatch now) :: after) t) {r : ℕ}
    (recycler : s.impl.recycler = some r) :
    t.recyclers r ≠ none ↔ inSession before ∧ .control .stopStep ∉ after := by
  have keeps := session_of_run first
  have opened := opened_of_run first
  obtain ⟨-, same, gone⟩ := recyclers_run keeps run (keeps.1.recycler_lt r recycler)
  by_cases stopped : .control .stopStep ∈ after
  · rw [gone (List.mem_cons_of_mem _ stopped)]
    simp [stopped]
  · rw [same (by simp [stopped])]
    cases session : inSession before with
    | true =>
      rw [session] at opened
      obtain ⟨q, i, stored, attached⟩ := opened.attached rfl (by simp [inside])
      obtain rfl : r = q := Option.some.inj (recycler.symm.trans stored)
      simp [attached, stopped]
    | false =>
      rw [session] at opened
      simp [(opened.outside rfl).1 r]

/-- Whatever is announced, started or stopped meanwhile, a frame that a consumer holds has the size
of the format stored last before its dispatch, a timestamp from that negotiation, and the data of
the buffer dequeued last before it.  Destroying the frame returns that buffer, and does nothing once
a `Stop` has taken a step since the `Start` before its dispatch. -/
theorem frames_made (as : List Action) (t : State) (run : Transition.Run step {} as t) :
    ∀ i frame, t.frames[i]? = some frame → ∃ before now after b buf t',
      as = before ++ .loop (.dispatch now) :: after ∧
      lastDequeued before = some (b.index, buf) ∧
      frame.size = ((lastFormat before).width, (lastFormat before).height) ∧
      frame.pts = buf.header.getD (now - lastStart before) ∧ frame.Carries buf ∧
      t.step (.destroyFrame i) = some t' ∧
      (inSession before ∧ .control .stopStep ∉ after →
        t'.trace = .queueBuffer b.home b :: t.trace) ∧
      (¬ (inSession before ∧ .control .stopStep ∉ after) → t'.trace = t.trace) := by
  intro i frame held
  obtain ⟨before, now, after, s, b, buf, rfl, first, inside, dequeued, builds⟩ :=
    made_of_run run (List.mem_of_getElem? held)
  obtain ⟨size, pts, destroy⟩ := builds.size_pts
  obtain ⟨done, r, t', destroy', recycler, -, taken, queued, lost⟩ :=
    trace_destroyFrame (session_of_run run).1 held
  obtain rfl := Option.some.inj (destroy.symm.trans destroy')
  obtain ⟨s', first', rest⟩ := Transition.run_append.1 run
  obtain rfl := first.unique first'
  have attached := recyclers_of_made first inside rest recycler
  exact ⟨before, now, after, b, buf, t', rfl, dequeued, size, pts, builds.carries, taken,
    fun lasts => queued (attached.2 lasts),
    fun ended => lost (not_not.1 (mt attached.1 ended))⟩

theorem frames_made_firstBuffer : ∃ t : State,
    Transition.Run step {} (firstStart ++ firstBuffer) t ∧ ∃ frame,
      t.frames[0]? = some frame ∧ ∃ before now after b buf t',
        firstStart ++ firstBuffer = before ++ .loop (.dispatch now) :: after ∧
        lastDequeued before = some (b.index, buf) ∧
        frame.size = ((lastFormat before).width, (lastFormat before).height) ∧
        frame.pts = buf.header.getD (now - lastStart before) ∧ frame.Carries buf ∧
        t.step (.destroyFrame 0) = some t' ∧
        (inSession before ∧ .control .stopStep ∉ after →
          t'.trace = .queueBuffer b.home b :: t.trace) ∧
        (¬ (inSession before ∧ .control .stopStep ∉ after) → t'.trace = t.trace) := by
  have run : Transition.Run step {} (firstStart ++ firstBuffer) _ := rfl
  exact ⟨_, run, _, rfl, frames_made _ _ run 0 _ rfl⟩

end State

end SmoothDemon.PipeWireCapture
