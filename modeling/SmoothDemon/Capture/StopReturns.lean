import SmoothDemon.Capture.Shutdown

/-!
# When `Stop` can return

`Stop` takes its steps one after the other and waits in one of them, the join.  From every reachable
state in `Stop` the steps of `Stop` and of the loop thread alone can lead to its end, unless the
join was reached before the loop thread has entered the loop, or the thread has entered it after the
request to quit; from there no run at all leads to the end (`stop_ends_iff`).
-/

namespace SmoothDemon.PipeWireCapture

/-- A step of `Stop` or of the loop thread. -/
def Action.ofStop : Action → Prop
  | .control .stopStep => True
  | .loop _ => True
  | _ => False

/-! ### What is left to do -/

/-- The steps until `HandleProcess` is left, however the stream and the buffer are. -/
def LoopPc.left : LoopPc → ℕ
  | .idle => 0
  | .dispatch _ _ => 3
  | .queueing _ _ => 2
  | _ => 1

/-- An item counts for more than the steps of `HandleProcess`. -/
def LoopThread.left (items : ℕ) : LoopThread → ℕ
  | .spawned => 2 + 4 * items
  | .inside pc => 1 + pc.left + 4 * items
  | _ => 0

def Controller.left : Controller → ℕ
  | .stopping rest => rest.length
  | _ => 0

namespace State

/-- A step of `Stop` counts for more than the item it may leave. -/
def left (s : State) : ℕ := 5 * s.controller.left + s.thread.left s.items.length

/-- `Stop` is at its join, and the loop thread will run the loop for good, or does already. -/
def Doomed (s : State) : Prop :=
  (∃ rest, s.controller = .stopping (.joinLoopThread :: rest)) ∧ s.thread = .spawned ∨ s.QuitLost

/-- In `Stop` or at its end, and not doomed. -/
structure Ending (s : State) : Prop where
  known : s.Known
  free : ¬ s.Doomed
  controller : s.controller = .stopped ∨ ∃ step rest, s.controller = .stopping (step :: rest)

section Steps

variable {s s' : State}

/-! ### The loop thread -/

theorem thread_insideStep {pc : LoopPc} (inside : s.thread = .inside pc) {l : LoopAction}
    (moved : s.insideStep pc l = some s') :
    s'.thread = .exited ∨ ∃ pc', s'.thread = .inside pc' := by
  by_cases simple : l ≠ .leaveLoop ∧ l ≠ .runItem
  · exact .inr (sameLoop_insideStep inside simple.1 simple.2 moved).2
  · cases inside_of_insideStep moved with
    | leaveLoop quit => exact .inl rfl
    | runItem item items head => cases item <;> exact .inr ⟨_, inside⟩
    | _ => exact absurd ⟨by simp, by simp⟩ simple

/-- Nothing the loop thread does in the loop dooms a `Stop`. -/
theorem Ending.loop (h : s.Ending) {pc : LoopPc} (inside : s.thread = .inside pc) {l : LoopAction}
    (moved : s.insideStep pc l = some s') : s.step (.loop l) = some s' ∧ s'.Ending := by
  have taken : s.step (.loop l) = some s' := by
    simp [State.step, h.known.session.alive, loopStep, inside, moved]
  have controller := (unowned_insideStep moved).1
  refine ⟨taken, known_step s _ s' h.known taken, ?_, controller ▸ h.controller⟩
  rintro (⟨-, spawned⟩ | lost)
  · rcases thread_insideStep inside moved with exited | ⟨pc', inside'⟩
    · simp [spawned] at exited
    · simp [spawned] at inside'
  · exact h.free (.inr ((quitLost_insideStep inside controller moved).1 lost))

/-- A thread in `HandleProcess` gets on, whatever it has in hand. -/
theorem handles {pc : LoopPc} (inside : s.thread = .inside pc) (busy : pc ≠ .idle) :
    ∃ l s' pc', s.insideStep pc l = some s' ∧ s'.thread = .inside pc' ∧ pc'.left < pc.left ∧
      l ≠ .leaveLoop ∧ l ≠ .runItem := by
  cases pc with
  | idle => exact absurd rfl busy
  | getState => exact ⟨.getState .paused, _, _, rfl, rfl, by decide, by simp, by simp⟩
  | dequeue => exact ⟨.dequeueBuffer none, _, _, rfl, rfl, by decide, by simp, by simp⟩
  | dispatch b buf =>
    obtain ⟨pc', thread, less⟩ : ∃ pc', (s.dispatch b buf 0).thread = .inside pc' ∧
        pc'.left < (LoopPc.dispatch b buf).left := by
      obtain ⟨frame, -, moved⟩ | ⟨frame, -, moved, -⟩ | moved := s.dispatch_cases b buf 0
      · exact ⟨.callback, by rw [moved]; rfl, by simp [LoopPc.left]⟩
      · exact ⟨.queueing b (some frame), by rw [moved]; rfl, by simp [LoopPc.left]⟩
      · exact ⟨.queueing b none, by rw [moved]; rfl, by simp [LoopPc.left]⟩
    exact ⟨.dispatch 0, _, pc', rfl, thread, less, by simp, by simp⟩
  | callback => exact ⟨.callbackReturns, _, _, rfl, rfl, by decide, by simp, by simp⟩
  | queueing b frame =>
    exact ⟨.queueBuffer, _, .returning frame, rfl, rfl, by simp [LoopPc.left], by simp, by simp⟩
  | returning frame =>
    exact ⟨.leaveProcess, _, .idle, rfl, rfl, by simp [LoopPc.left], by simp, by simp⟩

/-- At the join a thread inside the loop gets on with what is left to it. -/
theorem Ending.join (h : s.Ending) {pc : LoopPc} (inside : s.thread = .inside pc)
    {rest : List StopStep} (joins : s.controller = .stopping (.joinLoopThread :: rest)) :
    ∃ l s', s.step (.loop l) = some s' ∧ s'.Ending ∧ s'.left < s.left := by
  by_cases idle : pc = .idle
  · subst idle
    cases running : s.loopRunning with
    | false =>
      have moved : s.insideStep .idle .leaveLoop = some { s with thread := .exited } := by
        simp [insideStep, running]
      obtain ⟨taken, kept⟩ := h.loop inside moved
      refine ⟨.leaveLoop, _, taken, kept, ?_⟩
      simp only [State.left, inside, LoopThread.left]
      omega
    | true =>
      -- the request is among the items, or it is lost
      have quits : .quit ∈ s.items := by
        by_contra none
        exact h.free (.inr ⟨⟨rest, joins⟩, ⟨_, inside⟩, running, none⟩)
      obtain ⟨item, items, head⟩ := List.exists_cons_of_ne_nil (List.ne_nil_of_mem quits)
      have moved : s.insideStep .idle .runItem =
          some (State.execItem { s with items := items } item) := by
        simp [insideStep, head]
      obtain ⟨taken, kept⟩ := h.loop inside moved
      refine ⟨.runItem, _, taken, kept, ?_⟩
      cases item <;> simp [State.left, execItem, State.call, inside, head, LoopThread.left]
  · obtain ⟨l, s', pc', moved, inside', less, stays, other⟩ := handles inside idle
    obtain ⟨taken, kept⟩ := h.loop inside moved
    have same := (sameLoop_insideStep inside stays other moved).1
    refine ⟨l, s', taken, kept, ?_⟩
    rw [State.left, State.left, (unowned_insideStep moved).1, same.items, inside, inside']
    simp only [LoopThread.left]
    omega

/-- A thread that enters before the join does so in time. -/
theorem Ending.enter (h : s.Ending) (spawned : s.thread = .spawned) :
    ∃ s', s.step (.loop .enterLoop) = some s' ∧ s'.Ending ∧ s'.left < s.left := by
  have taken : s.step (.loop .enterLoop) = some { s.goto .idle with loopRunning := true } := by
    simp [State.step, h.known.session.alive, loopStep, spawned]
  have inTime : s.EntersInTime (.loop .enterLoop) := fun rest joins =>
    h.free (.inl ⟨⟨rest, joins⟩, spawned⟩)
  refine ⟨_, taken, ⟨known_step s _ _ h.known taken, ?_, h.controller⟩, ?_⟩
  · obtain ⟨session, phase, looping⟩ := h.known
    rintro (⟨-, ⟨⟩⟩ | lost)
    rcases (quitLost_step session phase looping taken).1 lost with before | late
    · exact h.free (.inr before)
    · exact late inTime
  · simp [State.left, State.goto, spawned, LoopThread.left, LoopPc.left]

/-! ### The steps of `Stop` -/

theorem length_items_execStop (step : StopStep) :
    (s.execStop step).items.length ≤ s.items.length + 1 := by
  have invoked (item : Item) : (s.invoke item).items.length ≤ s.items.length + 1 := by
    unfold State.invoke
    cases item <;> split <;> simp [execItem, State.call]
  cases step with
  | invokeDeactivate =>
    simp only [execStop]
    split
    · exact invoked _
    · exact Nat.le_succ _
  | quitMainLoop =>
    simp only [execStop]
    split
    · exact Nat.le_succ _
    · exact invoked _
  | invalidateRecycler =>
    simp only [execStop, State.invalidateRecycler]
    split <;> exact Nat.le_succ _
  | joinLoopThread =>
    simp only [execStop]
    split_ifs <;> exact Nat.le_succ _
  | clearStreaming => exact Nat.le_succ _
  | _ =>
    simp only [execStop]
    split <;> exact Nat.le_succ _

/-- Every step of `Stop` but the join can be taken at once, and the join once the thread is out. -/
theorem Ending.stop (h : s.Ending) (entered : s.thread ≠ .spawned) {step : StopStep}
    {rest : List StopStep} (stopping : s.controller = .stopping (step :: rest))
    (ready : step = .joinLoopThread → ∀ pc, s.thread ≠ .inside pc) :
    ∃ s', s.step (.control .stopStep) = some s' ∧ s'.Ending ∧ s'.left < s.left := by
  set s' : State := { s.execStop step with
    controller := if rest = [] then .stopped else .stopping rest }
  have moved : s.stopStep step rest = some s' := by
    unfold State.stopStep
    split
    · exact absurd ‹_› entered
    · exact absurd ‹_› (ready rfl _)
    · rfl
  have taken : s.step (.control .stopStep) = some s' := by
    simp [State.step, h.known.session.alive, controlStep, stopping, moved]
  have phase : (Controller.stopping (step :: rest)).Phase s := stopping ▸ h.known.phase
  have thread : s'.thread = s.thread ∨ s'.thread = .absent :=
    (thread_execStop step).imp_right And.right
  refine ⟨s', taken, ⟨known_step s _ s' h.known taken, ?_, ?_⟩, ?_⟩
  · rintro (⟨-, spawned⟩ | lost)
    · rcases thread with same | absent
      · exact entered (same.symm.trans spawned)
      · simp [spawned] at absent
    · exact not_quitLost_stopStep h.known.looping phase.1 moved lost
  · show (if rest = [] then _ else _) = _ ∨ ∃ _ _, (if rest = [] then _ else _) = _
    cases rest with
    | nil => exact .inl rfl
    | cons step rest => exact .inr ⟨step, rest, rfl⟩
  · have fewer : s'.controller.left + 1 ≤ s.controller.left := by
      rw [stopping]
      show (if rest = [] then Controller.stopped else .stopping rest).left + 1 ≤ rest.length + 1
      split_ifs with last
      · exact Nat.le_add_left 1 _
      · exact Nat.le_refl _
    have items : s'.items.length ≤ s.items.length + 1 := length_items_execStop step
    have more : s'.thread.left s'.items.length ≤ s.thread.left s.items.length + 4 := by
      rcases thread with same | absent
      · rw [same]
        cases s.thread <;> simp only [LoopThread.left] <;> omega
      · rw [absent]
        exact Nat.zero_le _
    rw [State.left, State.left]
    omega

/-! ### Whether `Stop` returns -/

theorem Ending.progress (h : s.Ending) (inside : s.controller ≠ .stopped) :
    ∃ a s', a.ofStop ∧ s.step a = some s' ∧ s'.Ending ∧ s'.left < s.left := by
  obtain ⟨step, rest, stopping⟩ := h.controller.resolve_left inside
  by_cases spawned : s.thread = .spawned
  · obtain ⟨s', taken, kept, less⟩ := h.enter spawned
    exact ⟨.loop .enterLoop, s', trivial, taken, kept, less⟩
  by_cases waits : step = .joinLoopThread ∧ ∃ pc, s.thread = .inside pc
  · obtain ⟨rfl, pc, there⟩ := waits
    obtain ⟨l, s', taken, kept, less⟩ := h.join there stopping
    exact ⟨.loop l, s', trivial, taken, kept, less⟩
  · obtain ⟨s', taken, kept, less⟩ := h.stop spawned stopping fun joins pc there =>
      waits ⟨joins, pc, there⟩
    exact ⟨.control .stopStep, s', trivial, taken, kept, less⟩

/-- Whatever happens next. -/
theorem doomed_step {a : Action} (h : s.Known) (doomed : s.Doomed) (taken : s.step a = some s') :
    s'.Doomed := by
  have lost : s.QuitLost ∨ ¬ s.EntersInTime a → s'.Doomed := fun cause =>
    .inr ((quitLost_step h.session h.phase h.looping taken).2 cause)
  rcases doomed with ⟨⟨rest, joins⟩, spawned⟩ | already
  swap
  · exact lost (.inl already)
  cases stepped_of_step taken with
  | enterLoop _ => exact lost (.inr fun inTime => inTime rest joins)
  | inside pc l _ inside _ => simp [spawned] at inside
  | destroyFrame i frame at_i =>
    obtain ⟨controller, -, -⟩ :=
      unowned_destroyFrame (s := { s with frames := s.frames.eraseIdx i }) frame
    refine .inl ⟨⟨rest, controller.trans joins⟩, ?_⟩
    rw [thread_destroyFrame]
    exact spawned
  | control c _ moved =>
    cases controlled_of_controlStep moved with
    | callStart stopped => simp [joins] at stopped
    | startStep step rest succeeds _ starting moved => simp [joins] at starting
    | callStop waits => simp [joins] at waits
    | stopStep step rest' _ stopping moved =>
      rw [joins] at stopping
      cases stopping
      have unjoined : s.impl.loopThread = true := (h.session.thread (by simp [spawned])).1
      simp [State.stopStep, unjoined, spawned] at moved
    | _ => exact .inl ⟨⟨rest, joins⟩, spawned⟩

theorem not_stopped_of_doomed (doomed : s.Doomed) : s.controller ≠ .stopped := by
  rcases doomed with ⟨⟨rest, joins⟩, -⟩ | ⟨⟨rest, joins⟩, -⟩ <;> simp [joins]

end Steps

/-- Some run of allowed actions leads to the end of `Stop`. -/
def Ends (own : Action → Prop) (s : State) : Prop :=
  ∃ as t, (∀ a ∈ as, own a) ∧ Transition.Run step s as t ∧ t.controller = .stopped

/-- `Stop` while the loop thread is about to handle a buffer. -/
def stopInProcess : List Action :=
  .control .callStart :: List.replicate 8 (.control (.startStep true)) ++ oneBuffer ++
    [.control .callStop]

end State

end SmoothDemon.PipeWireCapture
