import SmoothDemon.Capture.Deliveries

/-!
# From the producer to the consumer

When the producer sends only buffers of the types that were declared to it and the callbacks that
are needed are set, each buffer dequeued is given to a consumer in one frame, and consumers hold or
have destroyed each frame that was given to them (`delivered_once`).  Among the formats that are
offered the frame names the one it was made for (`frames_shows`).
-/

namespace SmoothDemon.PipeWireCapture

/-! ### What the producer may send -/

def SpaDataType.ofId (id : ℕ) : SpaDataType :=
  if id = 1 then .MemPtr else if id = 2 then .MemFd else if id = 3 then .DmaBuf
  else .other (UInt32.ofNat id)

/-- The `buffer_types` that `OnParamChanged` declares. -/
def bufferTypes (haveDmabuf : Bool) : UInt32 :=
  let types := (1 : UInt32) <<< 1 ||| (1 : UInt32) <<< 2
  if haveDmabuf then types ||| (1 : UInt32) <<< 3 else types

/-- NV12 is offered too, though neither conversion knows it. -/
def SpaVideoFormat.NV12 : SpaVideoFormat := .other 23

/-- The formats that `build_stream_params` offers. -/
def offeredFormats : List SpaVideoFormat := [.BGRx, .BGRA, .RGBx, .RGBA, .NV12]

/-- A declared type is one that `HandleProcess` handles. -/
theorem ofId_of_declared {haveDmabuf : Bool} {id : ℕ}
    (declared : (bufferTypes haveDmabuf).toNat.testBit id) (other : UInt32) :
    SpaDataType.ofId id ≠ .other other := by
  have small : id < 4 := by
    by_contra large
    have top : (bufferTypes haveDmabuf).toNat < 2 ^ id :=
      calc (bufferTypes haveDmabuf).toNat
          < 2 ^ 4 := by cases haveDmabuf <;> decide
        _ ≤ 2 ^ id := Nat.pow_le_pow_right (by decide) (by omega)
    rw [Nat.testBit_lt_two_pow top] at declared
    cases declared
  rcases (by omega : id = 0 ∨ id = 1 ∨ id = 2 ∨ id = 3) with rfl | rfl | rfl | rfl
  · cases haveDmabuf <;> exact absurd declared (by decide)
  all_goals
    rintro ⟨⟩

namespace State

variable {s s' : State} {a : Action}

/-- A buffer sent is of a type declared for the format announced last. -/
def Honest (s : State) : Action → Prop
  | .loop (.dequeueBuffer (some (_, buf))) =>
    ∃ id, (bufferTypes s.impl.haveDmabuf).toNat.testBit id ∧ buf.first.type = SpaDataType.ofId id
  | _ => True

/-- A buffer is sent once a format of the offer was announced. -/
def Offered (s : State) : Action → Prop
  | .loop (.dispatch _) => s.impl.format.format ∈ offeredFormats
  | _ => True

/-- What waits for its dispatch has a type that is handled. -/
def Handled (s : State) : Prop :=
  ∀ b buf, s.thread = .inside (.dispatch b buf) → ∀ id, buf.first.type ≠ .other id

theorem Handled.step (h : s.Handled) (honest : s.Honest a) (taken : s.step a = some s') :
    s'.Handled := by
  intro b buf waits id type
  rcases dequeued_step taken waits with ⟨-, waited⟩ | dequeued
  · exact h b buf waited id type
  · have action : a = .loop (.dequeueBuffer (some (b.index, buf))) := by
      unfold Action.dequeued at dequeued
      split at dequeued
      · rw [dequeued]
      · cases dequeued
    rw [action] at honest
    obtain ⟨id', declared, eq⟩ := honest
    exact ofId_of_declared declared id (eq.symm.trans type)

theorem covered_of_unserved (handled : s.Handled) (covered : s.Covered a) {now : Int64} {b : Buffer}
    {buf : SpaBuffer} (act : a = .loop (.dispatch now))
    (inside : s.thread = .inside (.dispatch b buf)) : ¬ s.Unserved buf := by
  rw [act] at covered
  have set := covered b buf inside
  intro unserved
  unfold Unserved at unserved
  cases type : buf.first.type with
  | other id => exact handled b buf inside id type
  | _ =>
    rw [type] at set unserved
    rw [set] at unserved
    cases unserved

theorem inside_of_dispatch {now : Int64} (taken : s.step (.loop (.dispatch now)) = some s') :
    ∃ b buf, s.thread = .inside (.dispatch b buf) := by
  cases stepped_of_step taken with
  | inside pc l _ inside moved =>
    cases inside_of_insideStep moved with
    | dispatch b buf now => exact ⟨b, buf, inside⟩

end State

/-- The buffer that was dequeued and waits for its dispatch. -/
def State.waiting (s : State) : Option (ℕ × SpaBuffer) :=
  match s.thread with
  | .inside (.dispatch b buf) => some (b.index, buf)
  | _ => none

/-- The frame that a consumer destroys. -/
def State.destroyed (s : State) : Action → Option Frame
  | .destroyFrame i => s.frames[i]?
  | _ => none

/-- The frames that callbacks are given in a run, -/
def givenFrames (as : List Action) : List Frame :=
  Transition.observe (fun s _ s' => (s.handed s').toList) State.step {} as

/-- and those that consumers destroy. -/
def destroyedFrames (as : List Action) : List Frame :=
  Transition.observe (fun s a _ => (s.destroyed a).toList) State.step {} as

/-- The frame is about the dequeued buffer, and returns it. -/
def Delivers (d : ℕ × SpaBuffer) (frame : Frame) : Prop :=
  frame.Carries d.2 ∧ frame.destroy.map (·.b.index) = some d.1

namespace State

variable {s s' : State} {a : Action}

theorem waiting_inside {pc : LoopPc} (inside : s.thread = .inside pc)
    (other : ∀ b buf, pc ≠ .dispatch b buf) : s.waiting = none := by
  unfold waiting
  rw [inside]
  split
  · next b buf eq => exact absurd (LoopThread.inside.inj eq) (other b buf)
  · rfl

theorem waiting_congr (same : s'.thread = s.thread) : s'.waiting = s.waiting := by
  unfold waiting
  rw [same]

/-- No call of the controller moves a thread that is inside the loop. -/
theorem inside_controlStep (keeps : s.Session ∧ s.Phase) {pc : LoopPc}
    (inside : s.thread = .inside pc) {c : ControlAction} (moved : s.controlStep c = some s') :
    s'.thread = .inside pc := by
  have joinable : s.impl.loopThread = true := (keeps.1.thread (by simp [inside])).1
  have phase := keeps.2
  unfold State.Phase at phase
  cases controlled_of_controlStep moved with
  | startStep step rest succeeds _ starting moved =>
    rw [starting] at phase
    exact absurd (phase.2.1.symm.trans joinable) Bool.false_ne_true
  | stopStep step rest _ stopping moved =>
    rcases thread_execStop (s := s) step with same | ⟨rfl, -⟩
    · rw [stopStep_eq moved]
      exact same.trans inside
    · unfold State.stopStep at moved
      rw [joinable, inside] at moved
      cases moved
  | _ => exact inside

theorem waiting_controlStep (keeps : s.Session ∧ s.Phase) {c : ControlAction}
    (moved : s.controlStep c = some s') : s'.waiting = s.waiting := by
  cases thread : s.thread with
  | inside pc => exact waiting_congr ((inside_controlStep keeps thread moved).trans thread.symm)
  | _ =>
    have before : s.waiting = none := by
      unfold waiting
      rw [thread]
    rw [before]
    unfold waiting
    split
    · next b buf waits =>
      rw [(kept_controlStep moved).dispatch b buf waits] at thread
      cases thread
    · rfl

theorem waiting_insideStep {pc : LoopPc} (inside : s.thread = .inside pc) {l : LoopAction}
    (other : ∀ now, l ≠ .dispatch now) (moved : s.insideStep pc l = some s') :
    s.waiting.toList ++ (Action.loop l).dequeued.toList = s'.waiting.toList := by
  cases inside_of_insideStep moved with
  | dispatch b buf now => exact absurd rfl (other now)
  | buffer index buf b eq =>
    subst eq
    rw [waiting_inside inside nofun]
    rfl
  | runItem item items head =>
    have same : (execItem { s with items := items } item).thread = s.thread := by
      cases item <;> rfl
    rw [waiting_congr same, waiting_inside inside nofun]
    rfl
  | stateChanged old new =>
    have same : (s.onStateChanged old new).thread = s.thread := by
      unfold State.onStateChanged
      split_ifs <;> rfl
    rw [waiting_congr same, waiting_inside inside nofun]
    rfl
  | paramChanged id param now =>
    rw [waiting_congr (frames_onParamChanged id param now).2, waiting_inside inside nofun]
    rfl
  | _ =>
    rw [waiting_inside inside nofun]
    rfl

theorem waiting_step (keeps : s.Session ∧ s.Phase)
    (other : ∀ now, a ≠ .loop (.dispatch now)) (taken : s.step a = some s') :
    s.waiting.toList ++ a.dequeued.toList = s'.waiting.toList := by
  cases stepped_of_step taken with
  | control c _ moved =>
    rw [waiting_controlStep keeps moved]
    exact List.append_nil _
  | enterLoop spawned =>
    have before : s.waiting = none := by
      unfold waiting
      rw [spawned]
    rw [before]
    rfl
  | inside pc l _ inside moved =>
    exact waiting_insideStep inside (fun now same => other now (congrArg Action.loop same)) moved
  | destroyFrame i frame there =>
    rw [waiting_congr (thread_destroyFrame frame)]
    exact List.append_nil _

/-- A step gives away the frame of the buffer that waits, or leaves waiting what it dequeues. -/
theorem delivers_step (keeps : s.Session ∧ s.Phase) (handled : s.Handled) (covered : s.Covered a)
    (taken : s.step a = some s') :
    (∃ d frame, s.waiting = some d ∧ s'.waiting = none ∧ a.dequeued = none ∧
      s.handed s' = some frame ∧ Delivers d frame) ∨
    s.handed s' = none ∧ s.waiting.toList ++ a.dequeued.toList = s'.waiting.toList := by
  cases serves_step taken with
  | keep eq held unserved =>
    refine .inr ⟨handed_of_le (Nat.le_of_eq (congrArg List.length eq)),
      waiting_step keeps (fun now act => ?_) taken⟩
    subst act
    obtain ⟨b, buf, inside⟩ := inside_of_dispatch taken
    exact covered_of_unserved handled covered rfl inside (unserved now b buf rfl inside)
  | give now b buf frame done act inside builds same eq =>
    subst act
    refine .inl ⟨(b.index, buf), frame, ?_, ?_, rfl, handed_of_cons eq, builds.carries, ?_⟩
    · unfold waiting
      rw [inside]
    · cases stepped_of_step taken with
      | inside pc l _ inside' moved =>
        cases inside_of_insideStep moved with
        | dispatch c buf' now =>
          unfold waiting
          split
          · next d buf'' waits => exact absurd waits ((impl_dispatch c buf' now).2 d buf'')
          · rfl
    · rw [builds.size_pts.2.2, same]
      rfl
  | take i frame act there eq =>
    subst act
    refine .inr ⟨handed_of_le ?_, waiting_step keeps nofun taken⟩
    rw [eq]
    exact List.length_eraseIdx_le ..

/-- What is held and destroyed after a step was given or held before. -/
theorem frames_step (taken : s.step a = some s') :
    (s'.frames ++ (s.destroyed a).toList).Perm ((s.handed s').toList ++ s.frames) := by
  cases serves_step taken with
  | keep eq held unserved =>
    have kept : s.destroyed a = none := by
      cases a with
      | destroyFrame i => exact absurd rfl (held i)
      | _ => rfl
    rw [handed_of_le (Nat.le_of_eq (congrArg List.length eq)), kept, eq]
    exact List.Perm.of_eq (List.append_nil _)
  | give now b buf frame done act inside builds same eq =>
    rw [handed_of_cons eq, eq, act]
    exact List.Perm.of_eq (List.append_nil _)
  | take i frame act there eq =>
    have fewer : s'.frames.length ≤ s.frames.length := by
      rw [eq]
      exact List.length_eraseIdx_le ..
    obtain ⟨bound, rfl⟩ := List.getElem?_eq_some_iff.1 there
    have taken : s.destroyed a = some s.frames[i] := by
      rw [act]
      exact there
    rw [handed_of_le fewer, taken, eq]
    exact (List.perm_append_singleton _ _).trans (List.getElem_cons_eraseIdx_perm bound)

/-- What is given goes to those that are held, and some of these to those that are gone. -/
theorem perm_exchange {given held gone new kept left : List Frame}
    (perm : given.Perm (held ++ gone)) (now : (held ++ new).Perm (kept ++ left)) :
    (given ++ new).Perm (kept ++ (gone ++ left)) := by
  have moved : (held ++ gone ++ new).Perm (held ++ new ++ gone) := by
    rw [List.append_assoc, List.append_assoc]
    exact List.perm_append_comm.append_left held
  have back : (kept ++ left ++ gone).Perm (kept ++ (gone ++ left)) := by
    rw [List.append_assoc]
    exact List.perm_append_comm.append_left kept
  exact (perm.append_right new).trans (moved.trans ((now.append_right gone).trans back))

/-- With an honest producer and every callback that is needed, each buffer dequeued is given to a
consumer in one frame, the one that waits aside, and consumers hold or have destroyed each frame
that was given. -/
theorem delivered_once (as : List Action) (t : State) (run : Transition.Run step {} as t)
    (allowed : Transition.Each step (fun s a => s.Honest a ∧ s.Covered a) {} as) :
    (∃ served, as.filterMap Action.dequeued = served ++ t.waiting.toList ∧
      List.Forall₂ Delivers served (givenFrames as)) ∧
    (givenFrames as).Perm (t.frames ++ destroyedFrames as) := by
  have all : t.Handled ∧ (∃ served, as.filterMap Action.dequeued = served ++ t.waiting.toList ∧
      List.Forall₂ Delivers served (givenFrames as)) ∧
      (givenFrames as).Perm (t.frames ++ destroyedFrames as) := by
    induction as using List.reverseRecOn generalizing t with
    | nil =>
      obtain rfl := Transition.run_nil.1 run
      exact ⟨nofun, ⟨[], rfl, .nil⟩, .nil⟩
    | append_singleton as a ih =>
      obtain ⟨s, before, last⟩ := Transition.run_concat.1 run
      obtain ⟨earlier, final⟩ := Transition.each_append.1 allowed
      obtain ⟨honest, covered⟩ := (Transition.each_cons.1 (final s before) t last).1
      obtain ⟨handled, ⟨served, dequeued, delivers⟩, perm⟩ := ih s before earlier
      have given : givenFrames (as ++ [a]) = givenFrames as ++ (s.handed t).toList :=
        Transition.observe_concat _ before last
      have gone : destroyedFrames (as ++ [a]) = destroyedFrames as ++ (s.destroyed a).toList :=
        Transition.observe_concat _ before last
      have more : (as ++ [a]).filterMap Action.dequeued =
          as.filterMap Action.dequeued ++ a.dequeued.toList := by
        rw [List.filterMap_append]
        cases dequeued : a.dequeued <;> simp [dequeued]
      refine ⟨handled.step honest last, ?_, ?_⟩
      · rw [given, more, dequeued]
        obtain ⟨d, frame, waited, free, quiet, handed, new⟩ | ⟨handed, waits⟩ :=
          delivers_step (session_of_run before) handled covered last
        · rw [waited, free, quiet, handed]
          exact ⟨served ++ [d], by simp, List.rel_append delivers (.cons new .nil)⟩
        · rw [handed, List.append_assoc, waits]
          exact ⟨served, rfl, by simpa using delivers⟩
      · rw [given, gone]
        have now : (s.frames ++ (s.handed t).toList).Perm (t.frames ++ (s.destroyed a).toList) :=
          List.perm_append_comm.trans (frames_step last).symm
        exact perm_exchange perm now
  exact all.2

theorem allowed_firstBuffer : Transition.Each step
    (fun s a => (s.Honest a ∧ s.Covered a) ∧ s.Offered a) {} (firstStart ++ firstBuffer) := by
  refine Transition.each_append.2 ⟨Transition.each_of_forall fun a ha t => ?_, ?_⟩
  · simp only [firstStart, List.mem_cons, List.mem_replicate] at ha
    rcases ha with rfl | rfl | ⟨-, rfl⟩ <;> exact ⟨⟨trivial, trivial⟩, trivial⟩
  · rintro t ⟨⟩
    refine Transition.each_cons.2 ?_
    rintro _ ⟨⟩
    refine ⟨⟨⟨trivial, trivial⟩, trivial⟩, Transition.each_cons.2 ?_⟩
    rintro _ ⟨⟩
    refine ⟨⟨⟨trivial, trivial⟩, trivial⟩, Transition.each_cons.2 ?_⟩
    rintro _ ⟨⟩
    refine ⟨⟨⟨trivial, trivial⟩, trivial⟩, Transition.each_cons.2 ?_⟩
    rintro _ ⟨⟩
    refine ⟨⟨⟨trivial, trivial⟩, trivial⟩, Transition.each_cons.2 ?_⟩
    rintro _ ⟨⟩
    refine ⟨⟨⟨⟨3, by decide, rfl⟩, trivial⟩, trivial⟩, Transition.each_cons.2 ?_⟩
    rintro _ ⟨⟩
    refine ⟨⟨⟨trivial, ?_⟩, List.mem_cons_self⟩, Transition.each_nil⟩
    rintro b buf ⟨⟩
    rfl

theorem delivered_once_firstBuffer : ∃ t : State,
    Transition.Run step {} (firstStart ++ firstBuffer) t ∧
      (∃ served, (firstStart ++ firstBuffer).filterMap Action.dequeued =
          served ++ t.waiting.toList ∧
        List.Forall₂ Delivers served (givenFrames (firstStart ++ firstBuffer))) ∧
      (givenFrames (firstStart ++ firstBuffer)).Perm
        (t.frames ++ destroyedFrames (firstStart ++ firstBuffer)) := by
  have run : Transition.Run step {} (firstStart ++ firstBuffer) _ := rfl
  exact ⟨_, run, delivered_once _ _ run fun bs a t t' hb before last =>
    (allowed_firstBuffer bs a t t' hb before last).1⟩

end State

/-! ### What a frame says of its format -/

/-- The frame's own code is the one for `f`. -/
def Frame.Shows : Frame → SpaVideoFormat → Prop
  | .dmaBuf frame, f => frame.info.drmFormat = spaToDrmFormat f
  | .memory frame, f => frame.info.format = spaToPixelFormat f

theorem spaToDrmFormat_inj : ∀ f ∈ offeredFormats, ∀ g ∈ offeredFormats,
    spaToDrmFormat f = spaToDrmFormat g → f = g := by
  decide

theorem spaToPixelFormat_inj : ∀ f ∈ offeredFormats, ∀ g ∈ offeredFormats,
    spaToPixelFormat f = spaToPixelFormat g → f = g := by
  decide

theorem Builds.shows_iff {format : VideoInfo} {start now : Int64} {buf : SpaBuffer} {done : Closure}
    {frame : Frame} (h : Builds format start now buf done frame)
    (offered : format.format ∈ offeredFormats) {f : SpaVideoFormat} (hf : f ∈ offeredFormats) :
    frame.Shows f ↔ f = format.format := by
  cases h with
  | dmaBuf pts stamp type =>
    constructor
    · exact fun same => (spaToDrmFormat_inj _ offered f hf same).symm
    · rintro rfl
      rfl
  | memory pts stamp type =>
    constructor
    · exact fun same => (spaToPixelFormat_inj _ offered f hf same).symm
    · rintro rfl
      rfl

namespace State

/-- Among the formats offered, the code of a frame names the one negotiated for it. -/
theorem frames_shows (as : List Action) (t : State) (run : Transition.Run step {} as t)
    (offered : Transition.Each step Offered {} as) :
    ∀ frame ∈ t.frames, ∃ before now after, as = before ++ .loop (.dispatch now) :: after ∧
      ∀ f ∈ offeredFormats, frame.Shows f ↔ f = (lastFormat before).format := by
  intro frame held
  obtain ⟨before, now, after, s, b, buf, rfl, first, -, -, builds⟩ := made_of_run run held
  refine ⟨before, now, after, rfl, fun f hf => builds.shows_iff ?_ hf⟩
  obtain ⟨s', first', rest⟩ := Transition.run_append.1 run
  obtain rfl := first.unique first'
  obtain ⟨s', dispatched, -⟩ := Transition.run_cons.1 rest
  have later := (Transition.each_append.1 offered).2 s first
  have here := (Transition.each_cons.1 later s' dispatched).1
  rw [← (negotiated_of_run first).1]
  exact here

theorem frames_shows_firstBuffer : ∃ t : State,
    Transition.Run step {} (firstStart ++ firstBuffer) t ∧ ∃ frame ∈ t.frames,
      ∃ before now after, firstStart ++ firstBuffer = before ++ .loop (.dispatch now) :: after ∧
        ∀ f ∈ offeredFormats, frame.Shows f ↔ f = (lastFormat before).format := by
  have run : Transition.Run step {} (firstStart ++ firstBuffer) _ := rfl
  have offered : Transition.Each step Offered {} (firstStart ++ firstBuffer) :=
    fun bs a t t' hb before last => (allowed_firstBuffer bs a t t' hb before last).2
  exact ⟨_, run, _, List.mem_cons_self, frames_shows _ _ run offered _ List.mem_cons_self⟩

end State

end SmoothDemon.PipeWireCapture
