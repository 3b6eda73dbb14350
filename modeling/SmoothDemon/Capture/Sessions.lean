import SmoothDemon.Capture.Threads

/-!
# Buffers and the lifetime of streams

Whatever the controller, the loop thread and the consumers do, and however late a frame is
destroyed, buffers are only taken from and given to streams that exist, and a buffer goes back to
the stream it came from (`legal_of_run`).  `Session` is the invariant: a recycler that still has a
stream is the recycler of the object and has the stream of the object, and a frame whose recycler
has a stream holds a buffer of that stream.  `Phase` says what the controller has done to these by
each point of `Start` and `Stop`.
-/

namespace SmoothDemon.PipeWireCapture

/-- The call hands buffers of an existing stream back and forth; `older` is what was called before.
-/
def Call.LegalAfter (older : List Call) : Call → Prop
  | .dequeueBuffer stream _ =>
    ∃ i, stream = some i ∧ .create (.stream i) ∈ older ∧ .destroy (.stream i) ∉ older
  | .queueBuffer stream b =>
    ∃ i, stream = some i ∧ .create (.stream i) ∈ older ∧ .destroy (.stream i) ∉ older ∧
      b.home = some i
  | _ => True

def Legal : List Call → Prop
  | [] => True
  | c :: older => c.LegalAfter older ∧ Legal older

theorem Legal.after {newer older : List Call} {c : Call} (h : Legal (newer ++ c :: older)) :
    c.LegalAfter older := by
  induction newer with
  | nil => exact h.1
  | cons _ newer ih => exact ih h.2

/-- Neither a transfer of a buffer nor the end of a stream. -/
def Call.Neutral : Call → Prop
  | .dequeueBuffer .. | .queueBuffer .. | .destroy (.stream _) => False
  | _ => True

theorem Legal.append {calls older : List Call} (neutral : ∀ c ∈ calls, c.Neutral)
    (h : Legal older) : Legal (calls ++ older) := by
  induction calls with
  | nil => exact h
  | cons c calls ih =>
    refine ⟨?_, ih fun d hd => neutral d (List.mem_cons_of_mem c hd)⟩
    have := neutral c List.mem_cons_self
    cases c <;> trivial

/-- The frame `HandleProcess` still has. -/
def LoopPc.frame : LoopPc → List Frame
  | .queueing _ frame | .returning frame => frame.toList
  | _ => []

/-- The buffer `HandleProcess` still has to deal with. -/
def LoopPc.buffer : LoopPc → Option Buffer
  | .dispatch b _ | .queueing b _ => some b
  | _ => none

def LoopThread.frame : LoopThread → List Frame
  | .inside pc => pc.frame
  | _ => []

def LoopThread.buffer : LoopThread → Option Buffer
  | .inside pc => pc.buffer
  | _ => none

namespace State

/-- Frames somebody will still destroy. -/
def liveFrames (s : State) : List Frame := s.frames ++ s.thread.frame

/-- The frame goes back to its own stream, or nowhere. -/
def Returns (s : State) (frame : Frame) : Prop :=
  ∃ done r, frame.destroy = some done ∧ done.recycler = some r ∧ r < s.next ∧
    ∀ i, s.recyclers r = some i → done.b.home = some i

structure Session (s : State) : Prop where
  legal : Legal s.trace
  destroyed : ∀ i, .destroy (.stream i) ∈ s.trace → i < s.next
  stream_lt : ∀ i, s.impl.stream = some i → i < s.next
  exists_stream : ∀ i, s.impl.stream = some i →
    .create (.stream i) ∈ s.trace ∧ .destroy (.stream i) ∉ s.trace
  recycler : ∀ r i, s.recyclers r = some i → s.impl.recycler = some r ∧ s.impl.stream = some i
  recycler_lt : ∀ r, s.impl.recycler = some r → r < s.next
  returns : ∀ frame ∈ s.liveFrames, s.Returns frame
  home : ∀ b ∈ s.thread.buffer, b.home = s.impl.stream
  alive : s.terminated = false
  thread : s.thread ≠ .absent →
    s.impl.loopThread = true ∧ s.impl.stream.isSome ∧ s.impl.recycler.isSome

/-- No recycler has a stream. -/
def Detached (s : State) : Prop := ∀ r, s.recyclers r = none

end State

/-- What the controller has established where it stands. -/
def Controller.Phase (s : State) : Controller → Prop
  | .stopped => s.Detached ∧ s.impl.loopThread = false
  | .starting rest =>
    rest <:+ startSteps ∧ s.impl.loopThread = false ∧ (.setupRecycler ∈ rest → s.Detached) ∧
      (.create .stream ∉ rest → s.impl.stream.isSome) ∧
      (.setupRecycler ∉ rest → ∃ r, s.impl.recycler = some r ∧ s.recyclers r = s.impl.stream)
  | .running => True
  | .stopping rest =>
    rest <:+ stopSteps ∧ (.invalidateRecycler ∉ rest → s.Detached) ∧
      (.joinLoopThread ∉ rest → s.impl.loopThread = false) ∧
      (.destroyStream ∉ rest → s.impl.stream = none)

namespace State

def Phase (s : State) : Prop := s.controller.Phase s

section Steps

variable {s s' : State}

theorem Returns.mono {frame : Frame} (h : s.Returns frame) (next : s.next ≤ s'.next)
    (recyclers : ∀ r i, s'.recyclers r = some i → r < s.next → s.recyclers r = some i) :
    s'.Returns frame := by
  obtain ⟨done, r, destroy, recycler, older, home⟩ := h
  refine ⟨done, r, destroy, recycler, by omega, fun i hi => home i (recyclers r i hi older)⟩

/-- A step that moves no buffer and leaves the streams and the recyclers alone. -/
theorem Session.frame (h : s.Session) (calls : List Call) (trace : s'.trace = calls ++ s.trace)
    (neutral : ∀ c ∈ calls, c.Neutral) (next : s.next ≤ s'.next)
    (stream : s'.impl.stream = s.impl.stream) (recycler : s'.impl.recycler = s.impl.recycler)
    (recyclers : s'.recyclers = s.recyclers) (frames : s'.liveFrames ⊆ s.liveFrames)
    (buffer : ∀ b ∈ s'.thread.buffer, b ∈ s.thread.buffer) (alive : s'.terminated = s.terminated)
    (thread : s'.thread ≠ .absent → s.thread ≠ .absent ∧ s'.impl.loopThread = s.impl.loopThread) :
    s'.Session where
  legal := trace ▸ h.legal.append neutral
  destroyed i hi := by
    rw [trace, List.mem_append] at hi
    refine (Nat.lt_of_lt_of_le · next) (h.destroyed i (hi.resolve_left fun new => ?_))
    exact neutral _ new
  stream_lt i hi := Nat.lt_of_lt_of_le (h.stream_lt i (stream ▸ hi)) next
  exists_stream i hi := by
    rw [stream] at hi
    obtain ⟨created, live⟩ := h.exists_stream i hi
    rw [trace, List.mem_append, List.mem_append]
    exact ⟨.inr created, fun gone => gone.elim (fun new => neutral _ new) live⟩
  recycler r i hi := by
    rw [recycler, stream]
    exact h.recycler r i (recyclers ▸ hi)
  recycler_lt r hr := Nat.lt_of_lt_of_le (h.recycler_lt r (recycler ▸ hr)) next
  returns frame hf := (h.returns frame (frames hf)).mono next fun r i hi _ => recyclers ▸ hi
  home b hb := by
    rw [stream]
    exact h.home b (buffer b hb)
  alive := alive.trans h.alive
  thread ht := by
    obtain ⟨there, same⟩ := thread ht
    rw [same, stream, recycler]
    exact h.thread there

/-- A legal call that ends no stream. -/
theorem Session.call (h : s.Session) {c : Call} (legal : c.LegalAfter s.trace)
    (keeps : ∀ i, c ≠ .destroy (.stream i)) : (s.call c).Session where
  legal := ⟨legal, h.legal⟩
  destroyed i hi := h.destroyed i ((List.mem_cons.1 hi).resolve_left fun e => keeps i e.symm)
  stream_lt := h.stream_lt
  exists_stream i hi := by
    obtain ⟨created, live⟩ := h.exists_stream i hi
    refine ⟨List.mem_cons_of_mem c created, fun gone => ?_⟩
    exact live ((List.mem_cons.1 gone).resolve_left fun e => keeps i e.symm)
  recycler := h.recycler
  recycler_lt := h.recycler_lt
  returns := h.returns
  home := h.home
  alive := h.alive
  thread := h.thread

theorem Session.recycle (h : s.Session) {frame : Frame} {done : Closure}
    (returns : s.Returns frame) (destroy : frame.destroy = some done) :
    (s.recycle done).Session := by
  obtain ⟨done', r, destroy', recycler, -, home⟩ := returns
  obtain rfl : done' = done := Option.some.inj (destroy'.symm.trans destroy)
  simp only [State.recycle, recycler]
  cases attached : s.recyclers r with
  | none => exact h
  | some i =>
    obtain ⟨created, live⟩ := h.exists_stream i (h.recycler r i attached).2
    exact h.call ⟨i, rfl, created, live, home i attached⟩ nofun

theorem Session.destroyFrame (h : s.Session) {frame : Frame} (returns : s.Returns frame) :
    (s.destroyFrame frame).Session := by
  unfold State.destroyFrame
  cases destroy : frame.destroy with
  | none => exact h
  | some done => exact h.recycle returns destroy

theorem thread_destroyFrame (frame : Frame) : (s.destroyFrame frame).thread = s.thread := by
  unfold State.destroyFrame State.recycle
  split
  · rfl
  · split
    · rfl
    · split <;> rfl

/-- Moving the loop thread on, with no more frames and buffers in hand than before. -/
theorem Session.goto (h : s.Session) {pc : LoopPc} (there : s.thread ≠ .absent)
    (frames : pc.frame ⊆ s.thread.frame) (buffer : ∀ b ∈ pc.buffer, b ∈ s.thread.buffer) :
    (s.goto pc).Session := by
  refine h.frame [] rfl nofun (Nat.le_refl _) rfl rfl rfl ?_ buffer rfl
    fun _ => ⟨there, rfl⟩
  exact List.append_subset.2 ⟨List.subset_append_left _ _,
    List.Subset.trans frames (List.subset_append_right _ _)⟩

/-- A step that touches nothing the invariant speaks about. -/
theorem Session.congr (h : s.Session) (trace : s'.trace = s.trace) (next : s'.next = s.next)
    (stream : s'.impl.stream = s.impl.stream) (recycler : s'.impl.recycler = s.impl.recycler)
    (loopThread : s'.impl.loopThread = s.impl.loopThread) (recyclers : s'.recyclers = s.recyclers)
    (frames : s'.frames = s.frames) (thread : s'.thread = s.thread)
    (alive : s'.terminated = s.terminated) : s'.Session :=
  h.frame [] trace nofun (Nat.le_of_eq next.symm) stream recycler recyclers
    (by simp [liveFrames, frames, thread]) (by simp [thread]) alive
    fun there => ⟨thread ▸ there, loopThread⟩

/-! ### The loop thread -/

theorem Session.execItem (h : s.Session) (item : Item) : (s.execItem item).Session := by
  cases item with
  | deactivate stream => exact h.call trivial nofun
  | quit => exact h.congr rfl rfl rfl rfl rfl rfl rfl rfl rfl

theorem Session.onStateChanged (h : s.Session) (old new : StreamState) :
    (s.onStateChanged old new).Session := by
  unfold State.onStateChanged
  split_ifs
  · exact h.congr rfl rfl rfl rfl rfl rfl rfl rfl rfl
  · exact h.congr rfl rfl rfl rfl rfl rfl rfl rfl rfl
  · exact h

theorem Session.onParamChanged (h : s.Session) (id : UInt32) (param : Option SpaParam)
    (now : Int64) : (s.onParamChanged id param now).Session := by
  cases param with
  | none => exact h
  | some param =>
    simp only [State.onParamChanged]
    split_ifs <;> first | exact h | exact h.congr rfl rfl rfl rfl rfl rfl rfl rfl rfl

theorem Session.home_inside (h : s.Session) {pc : LoopPc} {b : Buffer}
    (inside : s.thread = .inside pc) (holds : pc.buffer = some b) : b.home = s.impl.stream := by
  refine h.home b ?_
  rw [inside]
  exact holds

/-- While the loop thread is there, so is the stream. -/
theorem Session.stream_alive (h : s.Session) (there : s.thread ≠ .absent) :
    ∃ i, s.impl.stream = some i ∧ .create (.stream i) ∈ s.trace ∧
      .destroy (.stream i) ∉ s.trace := by
  obtain ⟨i, stream⟩ := Option.isSome_iff_exists.1 (h.thread there).2.1
  exact ⟨i, stream, h.exists_stream i stream⟩

theorem returns_dispatch (h : s.Session) {b : Buffer} {buf : SpaBuffer}
    (inside : s.thread = .inside (.dispatch b buf)) {frame : Frame}
    (destroy : frame.destroy = some { recycler := s.impl.recycler, b := b }) : s.Returns frame := by
  obtain ⟨-, -, ready⟩ := h.thread (by simp [inside])
  obtain ⟨r, hr⟩ := Option.isSome_iff_exists.1 ready
  refine ⟨_, r, destroy, hr, h.recycler_lt r hr, fun i hi => ?_⟩
  have home : b.home = s.impl.stream := h.home_inside inside rfl
  rw [home]
  exact (h.recycler r i hi).2

/-- The frame of a dispatched buffer goes to a consumer, or stays with `HandleProcess`. -/
theorem Session.pass (h : s.Session) {frame : Frame} (returns : s.Returns frame)
    (there : s.thread ≠ .absent) :
    ({ s.goto .callback with frames := frame :: s.frames } : State).Session where
  legal := h.legal
  destroyed := h.destroyed
  stream_lt := h.stream_lt
  exists_stream := h.exists_stream
  recycler := h.recycler
  recycler_lt := h.recycler_lt
  returns other mem := by
    have mem : other = frame ∨ other ∈ s.frames := by
      simpa [liveFrames, State.goto, LoopThread.frame, LoopPc.frame] using mem
    rcases mem with rfl | old
    · exact returns
    · exact h.returns other (List.mem_append_left _ old)
  home := nofun
  alive := h.alive
  thread _ := h.thread there

theorem Session.hold (h : s.Session) {b : Buffer} {frame : Option Frame}
    (returns : ∀ f ∈ frame, s.Returns f) (home : b.home = s.impl.stream)
    (there : s.thread ≠ .absent) : (s.goto (.queueing b frame)).Session where
  legal := h.legal
  destroyed := h.destroyed
  stream_lt := h.stream_lt
  exists_stream := h.exists_stream
  recycler := h.recycler
  recycler_lt := h.recycler_lt
  returns other mem := by
    have mem : other ∈ s.frames ∨ frame = some other := by
      simpa [liveFrames, State.goto, LoopThread.frame, LoopPc.frame] using mem
    rcases mem with old | new
    · exact h.returns other (List.mem_append_left _ old)
    · exact returns other new
  home c hc := by
    obtain rfl : b = c := by simpa [State.goto, LoopThread.buffer, LoopPc.buffer] using hc
    exact home
  alive := h.alive
  thread _ := h.thread there

theorem Session.dispatch (h : s.Session) {b : Buffer} {buf : SpaBuffer}
    (inside : s.thread = .inside (.dispatch b buf)) (now : Int64) :
    (s.dispatch b buf now).Session := by
  have there : s.thread ≠ .absent := by simp [inside]
  have home : b.home = s.impl.stream := h.home_inside inside rfl
  obtain ⟨frame, destroy, passed⟩ | ⟨frame, destroy, held, -⟩ | other := s.dispatch_cases b buf now
  · rw [passed]
    exact h.pass (returns_dispatch h inside destroy) there
  · rw [held]
    exact h.hold (by simpa using returns_dispatch h inside destroy) home there
  · rw [other]
    exact h.hold (by simp) home there

/-- A buffer taken from the stream of the object belongs to it. -/
theorem Session.dequeue (h : s.Session) (inside : s.thread ≠ .absent) (index : ℕ)
    (buf : SpaBuffer) :
    let b : Buffer := { home := s.impl.stream, index := index }
    ((s.call (.dequeueBuffer s.impl.stream (some b))).goto (.dispatch b buf)).Session := by
  intro b
  obtain ⟨i, stream, created, live⟩ := h.stream_alive inside
  have called : (s.call (.dequeueBuffer s.impl.stream (some b))).Session :=
    h.call ⟨i, stream, created, live⟩ nofun
  refine ⟨called.legal, called.destroyed, called.stream_lt, called.exists_stream, called.recycler,
    called.recycler_lt, fun frame mem => ?_, fun c hc => ?_, called.alive,
    fun _ => called.thread inside⟩
  · have mem : frame ∈ s.frames := by
      simpa [liveFrames, State.goto, State.call, LoopThread.frame, LoopPc.frame] using mem
    exact called.returns frame (List.mem_append_left _ mem)
  · obtain rfl : b = c := by simpa [State.goto, LoopThread.buffer, LoopPc.buffer] using hc
    rfl

theorem Session.insideStep (h : s.Session) {pc : LoopPc} (inside : s.thread = .inside pc)
    {a : LoopAction} (step : s.insideStep pc a = some s') : s'.Session := by
  have there : s.thread ≠ .absent := by simp [inside]
  cases inside_of_insideStep step with
  | leaveLoop quit =>
    refine h.frame [] rfl nofun (Nat.le_refl _) rfl rfl rfl ?_ nofun rfl fun _ => ⟨there, rfl⟩
    simp [liveFrames, LoopThread.frame]
  | runItem item items head =>
    have taken : ({ s with items := items } : State).Session :=
      h.congr rfl rfl rfl rfl rfl rfl rfl rfl rfl
    exact taken.execItem item
  | stateChanged old new => exact h.onStateChanged old new
  | paramChanged id param now => exact h.onParamChanged id param now
  | noBuffer =>
    obtain ⟨i, stream, created, live⟩ := h.stream_alive there
    have called : (s.call (.dequeueBuffer s.impl.stream none)).Session :=
      h.call ⟨i, stream, created, live⟩ nofun
    exact called.goto there (List.nil_subset _) nofun
  | buffer index buf b eq =>
    subst eq
    exact h.dequeue there index buf
  | dispatch b buf now => exact h.dispatch inside now
  | queueBuffer b frame =>
    obtain ⟨i, stream, created, live⟩ := h.stream_alive there
    have home : b.home = s.impl.stream := h.home_inside inside rfl
    have called : (s.call (.queueBuffer s.impl.stream b)).Session :=
      h.call ⟨i, stream, created, live, home.trans stream⟩ nofun
    refine called.goto there ?_ nofun
    simp [State.call, inside, LoopThread.frame, LoopPc.frame]
  | leaveProcess frame =>
    cases frame with
    | none => exact h.goto there (List.nil_subset _) nofun
    | some frame =>
      have mem : frame ∈ s.liveFrames := by
        simp [liveFrames, inside, LoopThread.frame, LoopPc.frame]
      have dropped : (s.destroyFrame frame).Session := h.destroyFrame (h.returns frame mem)
      refine dropped.goto ?_ (List.nil_subset _) nofun
      rw [thread_destroyFrame]
      exact there
  | _ => exact h.goto there (List.nil_subset _) nofun

/-! ### The controller -/

theorem Session.absent (h : s.Session) (unjoined : s.impl.loopThread = false) :
    s.thread = .absent := by
  by_contra there
  have := (h.thread there).1
  rw [unjoined] at this
  cases this

/-- A stream handle is stored, or cleared, while no thread and no recycler uses it. -/
theorem Session.setStream (h : s.Session) (absent : s.thread = .absent) (detached : s.Detached)
    (stream : Option ℕ) (older : ∀ i, stream = some i → i < s.next) (live : ∀ i, stream = some i →
      .create (.stream i) ∈ s.trace ∧ .destroy (.stream i) ∉ s.trace) :
    ({ s with impl := { s.impl with stream := stream } } : State).Session where
  legal := h.legal
  destroyed := h.destroyed
  stream_lt := older
  exists_stream := live
  recycler r i hi := by
    have none : s.recyclers r = none := detached r
    rw [none] at hi
    cases hi
  recycler_lt := h.recycler_lt
  returns := h.returns
  home := by simp [absent, LoopThread.buffer]
  alive := h.alive
  thread there := absurd absent there

theorem Session.create (h : s.Session) (r : Resource) : (s.create r).Session :=
  h.frame [.create r] rfl (by simp [Call.Neutral]) (Nat.le_succ _) rfl rfl rfl
    (List.Subset.refl _) (fun _ hb => hb) rfl fun there => ⟨there, rfl⟩

theorem Session.newStream (h : s.Session) (absent : s.thread = .absent) (detached : s.Detached) :
    s.newStream.Session := by
  refine (h.create (.stream s.next)).setStream absent detached _ (fun i hi => ?_) fun i hi => ?_
  · obtain rfl : s.next = i := Option.some.inj hi
    exact Nat.lt_succ_self _
  obtain rfl : s.next = i := Option.some.inj hi
  refine ⟨List.mem_cons_self, fun gone => ?_⟩
  have older := h.destroyed s.next ((List.mem_cons.1 gone).resolve_left nofun)
  omega

theorem Session.connectFd (h : s.Session) : s.connectFd.Session := by
  unfold State.connectFd
  cases s.dupFd with
  | none => exact h
  | some fd => exact (h.create _).congr rfl rfl rfl rfl rfl rfl rfl rfl rfl

theorem Session.connectFdFails (h : s.Session) : s.connectFdFails.Session := by
  unfold State.connectFdFails
  cases s.dupFd with
  | none => exact h
  | some fd =>
    exact h.frame [.destroy (.fd fd), .destroy (.fd fd)] rfl (by simp [Call.Neutral])
      (Nat.le_refl _) rfl rfl rfl (List.Subset.refl _) (fun _ hb => hb) rfl
      fun there => ⟨there, rfl⟩

theorem Session.setupRecycler (h : s.Session) (absent : s.thread = .absent)
    (detached : s.Detached) : s.setupRecycler.Session where
  legal := h.legal
  destroyed i hi := Nat.lt_succ_of_lt (h.destroyed i hi)
  stream_lt i hi := Nat.lt_succ_of_lt (h.stream_lt i hi)
  exists_stream := h.exists_stream
  recycler r i hi := by
    simp only [State.setupRecycler, Function.update_apply] at hi ⊢
    split_ifs at hi with new
    · exact ⟨new ▸ rfl, hi⟩
    · rw [detached r] at hi
      cases hi
  recycler_lt r hr := by
    obtain rfl : s.next = r := Option.some.inj hr
    exact Nat.lt_succ_self _
  returns frame mem := by
    refine (h.returns frame mem).mono (Nat.le_succ _) fun r i hi older => ?_
    simp only [State.setupRecycler, Function.update_apply] at hi
    rwa [if_neg (Nat.ne_of_lt older)] at hi
  home := h.home
  alive := h.alive
  thread there := absurd absent there

theorem Session.spawnLoopThread (h : s.Session) (unjoined : s.impl.loopThread = false)
    (stream : s.impl.stream.isSome) (recycler : s.impl.recycler.isSome) :
    s.spawnLoopThread.Session := by
  have absent := h.absent unjoined
  simp only [State.spawnLoopThread, unjoined]
  exact
    { legal := h.legal
      destroyed := h.destroyed
      stream_lt := h.stream_lt
      exists_stream := h.exists_stream
      recycler := h.recycler
      recycler_lt := h.recycler_lt
      returns := fun frame mem => h.returns frame <| by
        simpa [liveFrames, absent, LoopThread.frame] using mem
      home := nofun
      alive := h.alive
      thread := fun _ => ⟨rfl, stream, recycler⟩ }

theorem Session.invalidateRecycler (h : s.Session) : s.invalidateRecycler.Session := by
  unfold State.invalidateRecycler
  split
  · exact h
  · next r _ =>
    have less : ∀ q i, Function.update s.recyclers r none q = some i → s.recyclers q = some i := by
      intro q i hi
      rw [Function.update_apply] at hi
      split_ifs at hi
      exact hi
    exact ⟨h.legal, h.destroyed, h.stream_lt, h.exists_stream,
      fun q i hi => h.recycler q i (less q i hi), h.recycler_lt,
      fun frame mem => (h.returns frame mem).mono (Nat.le_refl _) fun q i hi _ => less q i hi,
      h.home, h.alive, h.thread⟩

theorem Session.invoke (h : s.Session) (item : Item) : (s.invoke item).Session := by
  unfold State.invoke
  split
  · exact h.congr rfl rfl rfl rfl rfl rfl rfl rfl rfl
  · exact h.execItem item

theorem Session.destroyStream (h : s.Session) (absent : s.thread = .absent)
    (detached : s.Detached) : (s.execStop .destroyStream).Session := by
  simp only [execStop]
  split
  · exact h
  · next stream stored =>
    have cleared : ({ s with impl := { s.impl with stream := none } } : State).Session :=
      h.setStream absent detached none (by simp) (by simp)
    exact
      { legal := ⟨trivial, h.legal⟩
        destroyed := fun i hi => by
          rcases List.mem_cons.1 hi with now | before
          · cases now
            exact h.stream_lt stream stored
          · exact h.destroyed i before
        stream_lt := by simp
        exists_stream := by simp
        recycler := cleared.recycler
        recycler_lt := h.recycler_lt
        returns := h.returns
        home := cleared.home
        alive := h.alive
        thread := fun there => absurd absent there }

theorem Session.disconnectCore (h : s.Session) : (s.execStop .disconnectCore).Session := by
  simp only [execStop]
  split
  · exact h
  · next core _ =>
    exact h.frame [.destroy (.fd core.fd), .destroy (.core core.id)] rfl (by simp [Call.Neutral])
      (Nat.le_refl _) rfl rfl rfl (List.Subset.refl _) (fun _ hb => hb) rfl
      fun there => ⟨there, rfl⟩

theorem Session.execStop (h : s.Session) (step : StopStep)
    (ready : step = .destroyStream → s.impl.loopThread = false ∧ s.Detached) :
    (s.execStop step).Session := by
  cases step with
  | invalidateRecycler => exact h.invalidateRecycler
  | invokeDeactivate =>
    simp only [State.execStop]
    split
    · exact h.invoke _
    · exact h
  | quitMainLoop =>
    simp only [State.execStop]
    split
    · exact h
    · exact h.invoke _
  | joinLoopThread =>
    simp only [State.execStop]
    split
    · refine h.frame [] rfl (by simp) (Nat.le_refl _) rfl rfl rfl ?_ (by simp [LoopThread.buffer])
        rfl fun there => absurd rfl there
      simp [liveFrames, LoopThread.frame]
    · exact h
  | destroyStream => exact h.destroyStream (h.absent (ready rfl).1) (ready rfl).2
  | disconnectCore => exact h.disconnectCore
  | destroyContext =>
    simp only [State.execStop]
    split
    · exact h
    · exact h.frame [.destroy _] rfl (by simp [Call.Neutral]) (Nat.le_refl _) rfl rfl rfl
        (List.Subset.refl _) (fun _ hb => hb) rfl fun there => ⟨there, rfl⟩
  | destroyMainLoop =>
    simp only [State.execStop]
    split
    · exact h
    · exact h.frame [.destroy _] rfl (by simp [Call.Neutral]) (Nat.le_refl _) rfl rfl rfl
        (List.Subset.refl _) (fun _ hb => hb) rfl fun there => ⟨there, rfl⟩
  | clearStreaming => exact h.congr rfl rfl rfl rfl rfl rfl rfl rfl rfl

theorem Session.succeed (h : s.Session) (c : Creation)
    (ready : c = .stream → s.impl.loopThread = false ∧ s.Detached) : (s.succeed c).Session := by
  cases c with
  | mainLoop => exact (h.create (.mainLoop s.next)).congr rfl rfl rfl rfl rfl rfl rfl rfl rfl
  | context => exact (h.create (.context s.next)).congr rfl rfl rfl rfl rfl rfl rfl rfl rfl
  | dup => exact (h.create (.fd s.next)).congr rfl rfl rfl rfl rfl rfl rfl rfl rfl
  | connectFd => exact h.connectFd
  | stream => exact h.newStream (h.absent (ready rfl).1) (ready rfl).2
  | streamConnect => exact h

theorem Session.fail (h : s.Session) (c : Creation)
    (ready : c = .stream → s.impl.loopThread = false ∧ s.Detached) : (s.fail c).Session := by
  cases c with
  | mainLoop => exact h.congr rfl rfl rfl rfl rfl rfl rfl rfl rfl
  | context => exact h.congr rfl rfl rfl rfl rfl rfl rfl rfl rfl
  | dup => exact h
  | connectFd => exact h.connectFdFails
  | stream => exact h.setStream (h.absent (ready rfl).1) (ready rfl).2 none nofun nofun
  | streamConnect => exact h

/-! ### What the controller has established -/

theorem startSteps_cases {step : StartStep} {rest : List StartStep}
    (h : step :: rest <:+ startSteps) :
    (∃ c, step = .create c ∧ .setupRecycler ∈ rest) ∨
      step = .setupRecycler ∧ rest = [.spawnLoopThread] ∨ step = .spawnLoopThread ∧ rest = [] := by
  simp only [startSteps, List.suffix_cons_iff, List.cons.injEq, List.suffix_nil] at h
  rcases h with h | h | h | h | h | h | h | h | h
  case inr.inr.inr.inr.inr.inr.inr.inr => cases h
  all_goals
    obtain ⟨rfl, rfl⟩ := h
    simp

theorem stopSteps_cases {step : StopStep} {rest : List StopStep} (h : step :: rest <:+ stopSteps) :
    (step ≠ .invalidateRecycler → .invalidateRecycler ∉ step :: rest) ∧
      (step = .destroyStream → .joinLoopThread ∉ step :: rest) := by
  simp only [stopSteps, List.suffix_cons_iff, List.cons.injEq, List.suffix_nil] at h
  rcases h with h | h | h | h | h | h | h | h | h | h
  case inr.inr.inr.inr.inr.inr.inr.inr.inr => cases h
  all_goals
    obtain ⟨rfl, rfl⟩ := h
    simp

/-- What `Phase` speaks about is the same in both states. -/
structure SameOwner (s s' : State) : Prop where
  recyclers : s'.recyclers = s.recyclers
  loopThread : s'.impl.loopThread = s.impl.loopThread
  stream : s'.impl.stream = s.impl.stream
  recycler : s'.impl.recycler = s.impl.recycler

theorem Phase.same (same : SameOwner s s') {c : Controller} (h : c.Phase s) : c.Phase s' := by
  obtain ⟨recyclers, loopThread, stream, recycler⟩ := same
  cases c <;>
    simp only [Controller.Phase, Detached, recyclers, loopThread, stream, recycler] at h ⊢ <;>
    exact h

theorem sameOwner_refl : SameOwner s s := ⟨rfl, rfl, rfl, rfl⟩

theorem sameOwner_succeed (c : Creation) (other : c ≠ .stream) : SameOwner s (s.succeed c) := by
  cases c with
  | stream => exact absurd rfl other
  | connectFd =>
    simp only [State.succeed, State.connectFd]
    split <;> exact ⟨rfl, rfl, rfl, rfl⟩
  | _ => exact ⟨rfl, rfl, rfl, rfl⟩

theorem detached_fail (c : Creation) (h : s.Detached) : (s.fail c).Detached := by
  cases c with
  | connectFd =>
    simp only [State.fail, State.connectFdFails]
    split <;> exact h
  | _ => exact h

theorem loopThread_fail (c : Creation) : (s.fail c).impl.loopThread = s.impl.loopThread := by
  cases c with
  | connectFd =>
    simp only [State.fail, State.connectFdFails]
    split <;> rfl
  | _ => rfl

theorem startStep_keeps (h : s.Session) {step : StartStep} {rest : List StartStep}
    (phase : (Controller.starting (step :: rest)).Phase s) {succeeds : Bool}
    (taken : s.startStep step rest succeeds = some s') : s'.Session ∧ s'.Phase := by
  obtain ⟨suffix, unjoined, detached, stream, recycler⟩ := phase
  rcases startSteps_cases suffix with ⟨c, rfl, later⟩ | ⟨rfl, rfl⟩ | ⟨rfl, rfl⟩
  · have free : s.Detached := detached (List.mem_cons_of_mem _ later)
    have ready : c = .stream → s.impl.loopThread = false ∧ s.Detached := fun _ => ⟨unjoined, free⟩
    cases succeeds with
    | false =>
      cases taken
      refine ⟨(h.fail c ready).congr rfl rfl rfl rfl rfl rfl rfl rfl rfl, ?_⟩
      exact ⟨detached_fail c free, (loopThread_fail c).trans unjoined⟩
    | true =>
      cases taken
      refine ⟨(h.succeed c ready).congr rfl rfl rfl rfl rfl rfl rfl rfl rfl, ?_⟩
      have more : rest ≠ [] := List.ne_nil_of_mem later
      simp only [State.Phase, if_neg more, execStart]
      have suffix' : rest <:+ startSteps := (List.suffix_cons _ _).trans suffix
      by_cases new : c = .stream
      · subst new
        exact ⟨suffix', unjoined, fun _ => free, fun _ => rfl, fun gone => absurd later gone⟩
      · have before : (Controller.starting rest).Phase s := by
          refine ⟨suffix', unjoined, fun _ => free, fun gone => ?_, fun gone => absurd later gone⟩
          exact stream (by simp [gone, Ne.symm new])
        obtain ⟨recyclers, loopThread, stream, recycler⟩ := sameOwner_succeed (s := s) c new
        exact Phase.same ⟨recyclers, loopThread, stream, recycler⟩ before
  · cases succeeds <;> cases taken
    have free : s.Detached := detached List.mem_cons_self
    have done : s.setupRecycler.Session := h.setupRecycler (h.absent unjoined) free
    refine ⟨done.congr rfl rfl rfl rfl rfl rfl rfl rfl rfl, ?_⟩
    refine ⟨(List.suffix_cons _ _).trans suffix, unjoined, ?_, fun _ => stream ?_,
      fun _ => ⟨s.next, rfl, Function.update_self ..⟩⟩
    · simp
    · simp
  · cases succeeds <;> cases taken
    obtain ⟨r, hr, -⟩ := recycler (by simp)
    have done : s.spawnLoopThread.Session :=
      h.spawnLoopThread unjoined (stream (by simp)) (by simp [hr])
    exact ⟨done.congr rfl rfl rfl rfl rfl rfl rfl rfl rfl, trivial⟩

theorem detached_invalidateRecycler (h : s.Session) : s.invalidateRecycler.Detached := by
  intro r
  unfold State.invalidateRecycler
  split
  · next none =>
    rw [Option.eq_none_iff_forall_ne_some]
    intro i hi
    rw [(h.recycler r i hi).1] at none
    cases none
  · next q stored =>
    show Function.update s.recyclers q none r = none
    rw [Function.update_apply]
    split_ifs with same
    · rfl
    · rw [Option.eq_none_iff_forall_ne_some]
      intro i hi
      have := (h.recycler r i hi).1
      rw [stored] at this
      exact same (Option.some.inj this).symm

theorem recyclers_invoke (item : Item) : (s.invoke item).recyclers = s.recyclers := by
  unfold State.invoke
  cases item <;> split <;> rfl

theorem recyclers_execStop (step : StopStep) (other : step ≠ .invalidateRecycler) :
    (s.execStop step).recyclers = s.recyclers := by
  cases step with
  | invalidateRecycler => exact absurd rfl other
  | invokeDeactivate =>
    simp only [execStop]
    split
    · exact recyclers_invoke _
    · rfl
  | quitMainLoop =>
    simp only [execStop]
    split
    · rfl
    · exact recyclers_invoke _
  | clearStreaming => rfl
  | _ =>
    simp only [execStop]
    split <;> rfl

theorem stopStep_eq {step : StopStep} {rest : List StopStep}
    (taken : s.stopStep step rest = some s') :
    s' = { s.execStop step with
      controller := if rest = [] then .stopped else .stopping rest } := by
  unfold State.stopStep at taken
  split at taken <;> cases taken
  rfl

theorem stopStep_keeps (h : s.Session) {step : StopStep} {rest : List StopStep}
    (phase : (Controller.stopping (step :: rest)).Phase s)
    (taken : s.stopStep step rest = some s') : s'.Session ∧ s'.Phase := by
  obtain ⟨suffix, detached, joined, ended⟩ := phase
  obtain ⟨first, destroy⟩ := stopSteps_cases suffix
  have ready : step = .destroyStream → s.impl.loopThread = false ∧ s.Detached := by
    intro same
    refine ⟨joined (destroy same), detached (first ?_)⟩
    simp [same]
  have free : (s.execStop step).Detached := by
    by_cases now : step = .invalidateRecycler
    · rw [now]
      exact detached_invalidateRecycler h
    · intro r
      rw [recyclers_execStop step now]
      exact detached (first now) r
  have unjoined : .joinLoopThread ∉ rest → (s.execStop step).impl.loopThread = false := by
    intro gone
    rw [impl_execStop]
    by_cases now : step = .joinLoopThread
    · rw [now]
      rfl
    · have before : s.impl.loopThread = false := joined (by simp [gone, Ne.symm now])
      cases step <;> first | rfl | exact before
  have cleared : .destroyStream ∉ rest → (s.execStop step).impl.stream = none := by
    intro gone
    rw [impl_execStop]
    by_cases now : step = .destroyStream
    · rw [now]
      rfl
    · have before : s.impl.stream = none := ended (by simp [gone, Ne.symm now])
      cases step <;> first | rfl | exact before
  rw [stopStep_eq taken]
  refine ⟨(h.execStop step ready).congr rfl rfl rfl rfl rfl rfl rfl rfl rfl, ?_⟩
  simp only [State.Phase]
  split_ifs with last
  · exact ⟨free, unjoined (by simp [last])⟩
  · exact ⟨(List.suffix_cons _ _).trans suffix, fun _ => free, unjoined, cleared⟩

/-! ### Every step -/

theorem unowned_destroyFrame (frame : Frame) :
    (s.destroyFrame frame).controller = s.controller ∧
      (s.destroyFrame frame).next = s.next ∧ SameOwner s (s.destroyFrame frame) := by
  unfold State.destroyFrame State.recycle
  split
  · exact ⟨rfl, rfl, sameOwner_refl⟩
  · split
    · exact ⟨rfl, rfl, rfl, rfl, rfl, rfl⟩
    · split <;> exact ⟨rfl, rfl, rfl, rfl, rfl, rfl⟩

theorem unowned_dispatch (b : Buffer) (buf : SpaBuffer) (now : Int64) :
    (s.dispatch b buf now).controller = s.controller ∧
      (s.dispatch b buf now).next = s.next ∧ SameOwner s (s.dispatch b buf now) := by
  rcases s.dispatch_cases b buf now with ⟨frame, -, moved⟩ | ⟨frame, -, moved, -⟩ | moved
  all_goals
    rw [moved]
    exact ⟨rfl, rfl, rfl, rfl, rfl, rfl⟩

theorem unowned_onParamChanged (id : UInt32) (param : Option SpaParam) (now : Int64) :
    (s.onParamChanged id param now).controller = s.controller ∧
      (s.onParamChanged id param now).next = s.next ∧
      SameOwner s (s.onParamChanged id param now) := by
  cases param with
  | none => exact ⟨rfl, rfl, sameOwner_refl⟩
  | some param =>
    simp only [State.onParamChanged]
    split_ifs <;> exact ⟨rfl, rfl, rfl, rfl, rfl, rfl⟩

/-- The loop thread changes neither the handles nor the recyclers. -/
theorem unowned_insideStep {pc : LoopPc} {a : LoopAction} (taken : s.insideStep pc a = some s') :
    s'.controller = s.controller ∧ s'.next = s.next ∧ SameOwner s s' := by
  cases inside_of_insideStep taken with
  | dispatch b buf now => exact unowned_dispatch ..
  | paramChanged id param now => exact unowned_onParamChanged ..
  | stateChanged old new =>
    unfold State.onStateChanged
    split_ifs <;> exact ⟨rfl, rfl, rfl, rfl, rfl, rfl⟩
  | runItem item items head => cases item <;> exact ⟨rfl, rfl, rfl, rfl, rfl, rfl⟩
  | leaveProcess frame =>
    cases frame with
    | none => exact ⟨rfl, rfl, rfl, rfl, rfl, rfl⟩
    | some frame =>
      obtain ⟨controller, next, recyclers, loopThread, stream, recycler⟩ :=
        unowned_destroyFrame (s := s) frame
      exact ⟨controller, next, recyclers, loopThread, stream, recycler⟩
  | _ => exact ⟨rfl, rfl, rfl, rfl, rfl, rfl⟩

theorem Session.destroyAt (h : s.Session) {i : ℕ} {frame : Frame}
    (at_i : s.frames[i]? = some frame) :
    (State.destroyFrame { s with frames := s.frames.eraseIdx i } frame).Session := by
  have fewer : ({ s with frames := s.frames.eraseIdx i } : State).Session := by
    refine h.frame [] rfl nofun (Nat.le_refl _) rfl rfl rfl (fun other mem => ?_)
      (fun _ hb => hb) rfl fun there => ⟨there, rfl⟩
    rcases List.mem_append.1 mem with old | new
    · exact List.mem_append_left _ (List.mem_of_mem_eraseIdx old)
    · exact List.mem_append_right _ new
  refine fewer.destroyFrame ?_
  exact h.returns frame (List.mem_append_left _ (List.mem_of_getElem? at_i))

theorem controlStep_keeps (h : s.Session) (phase : s.Phase) {a : ControlAction}
    (taken : s.controlStep a = some s') : s'.Session ∧ s'.Phase := by
  unfold State.Phase at phase
  cases controlled_of_controlStep taken with
  | callStart stopped =>
    rw [stopped] at phase
    refine ⟨h.congr rfl rfl rfl rfl rfl rfl rfl rfl rfl, ?_⟩
    exact ⟨List.suffix_refl _, phase.2, fun _ => phase.1,
      fun gone => absurd (by decide) gone, fun gone => absurd (by decide) gone⟩
  | startStep step rest succeeds _ starting moved =>
    rw [starting] at phase
    exact startStep_keeps h phase moved
  | callStop waits =>
    exact ⟨h.congr rfl rfl rfl rfl rfl rfl rfl rfl rfl, List.suffix_refl _,
      fun gone => absurd (by decide) gone, fun gone => absurd (by decide) gone,
      fun gone => absurd (by decide) gone⟩
  | stopStep step rest _ stopping moved =>
    rw [stopping] at phase
    exact stopStep_keeps h phase moved
  | _ => exact ⟨h.congr rfl rfl rfl rfl rfl rfl rfl rfl rfl, phase⟩

/-- Only the controller changes handles and recyclers. -/
theorem step_cases {a : Action} (taken : s.step a = some s') :
    (∃ c, a = .control c ∧ s.controlStep c = some s') ∨
      (∀ c, a ≠ .control c) ∧ s'.controller = s.controller ∧ s'.next = s.next ∧
        SameOwner s s' := by
  cases stepped_of_step taken with
  | control c _ moved => exact .inl ⟨c, rfl, moved⟩
  | enterLoop spawned => exact .inr ⟨nofun, rfl, rfl, rfl, rfl, rfl, rfl⟩
  | inside pc l _ inside moved => exact .inr ⟨nofun, unowned_insideStep moved⟩
  | destroyFrame i frame at_i =>
    obtain ⟨controller, next, recyclers, loopThread, stream, recycler⟩ :=
      unowned_destroyFrame (s := { s with frames := s.frames.eraseIdx i }) frame
    exact .inr ⟨nofun, controller, next, recyclers, loopThread, stream, recycler⟩

theorem Session.step (h : s.Session) {a : Action} (other : ∀ c, a ≠ .control c)
    (taken : s.step a = some s') : s'.Session := by
  cases stepped_of_step taken with
  | control c => exact absurd rfl (other c)
  | enterLoop spawned =>
    have there : s.thread ≠ .absent := by simp [spawned]
    have entered : (s.goto .idle).Session := h.goto there (List.nil_subset _) nofun
    exact entered.congr rfl rfl rfl rfl rfl rfl rfl rfl rfl
  | inside pc l _ inside moved => exact h.insideStep inside moved
  | destroyFrame i frame at_i => exact h.destroyAt at_i

theorem step_keeps (a : Action) (h : s.Session ∧ s.Phase) (taken : s.step a = some s') :
    s'.Session ∧ s'.Phase := by
  obtain ⟨session, phase⟩ := h
  rcases step_cases taken with ⟨c, -, moved⟩ | ⟨other, controller, -, owner⟩
  · exact controlStep_keeps session phase moved
  · refine ⟨session.step other taken, ?_⟩
    unfold State.Phase
    rw [controller]
    exact Phase.same owner phase

end Steps

theorem session_start : ({} : State).Session ∧ ({} : State).Phase := by
  refine ⟨⟨trivial, nofun, nofun, nofun, nofun, nofun, nofun, nofun, rfl, ?_⟩, fun _ => rfl, rfl⟩
  exact fun there => absurd rfl there

theorem session_of_run {as : List Action} {t : State} (run : Transition.Run step {} as t) :
    t.Session ∧ t.Phase := by
  refine Transition.Reachable.invariant (I := fun s => s.Session ∧ s.Phase)
    (fun s a s' h taken => step_keeps a h taken) session_start ⟨as, run⟩

/-- In every run, each dequeue and each queue is on a stream that exists, and the buffer queued is
one of that stream. -/
theorem legal_of_run (as : List Action) (t : State) (run : Transition.Run step {} as t)
    (newer older : List Call) (c : Call) (trace : t.trace = newer ++ c :: older) :
    c.LegalAfter older := by
  have h := (session_of_run run).1.legal
  rw [trace] at h
  exact h.after

theorem legal_of_run_firstFrame : ∃ t : State, Transition.Run step {} firstFrame t ∧
    ∃ older, t.trace = .queueBuffer (some 4) { home := some 4, index := 0 } :: older ∧
      (Call.queueBuffer (some 4) { home := some 4, index := 0 }).LegalAfter older := by
  have run : Transition.Run step {} firstFrame _ := rfl
  exact ⟨_, run, _, rfl, legal_of_run _ _ run [] _ _ rfl⟩

end State

end SmoothDemon.PipeWireCapture
