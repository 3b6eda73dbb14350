import SmoothDemon.Capture.Sessions

/-!
# Stopping the loop thread

`Stop` asks the main loop to quit and joins the thread that runs it.  While that thread is inside
the loop the request is an item that the loop executes; before it has entered, the request takes
effect at once and entering the loop undoes it.  `Stop` then joins a thread that never leaves
(`quitLost_forever`).  No request is lost iff the thread never enters the loop of a `Stop` that has
already asked it to quit (`never_quitLost_iff`).
-/

namespace SmoothDemon.PipeWireCapture.State

/-- `Stop` joins the loop thread, which runs the loop, and nothing will make it leave. -/
def QuitLost (s : State) : Prop :=
  (∃ rest, s.controller = .stopping (.joinLoopThread :: rest)) ∧ (∃ pc, s.thread = .inside pc) ∧
    s.loopRunning = true ∧ .quit ∉ s.items

/-- The loop thread is inside the loop before `Stop` asks the loop to quit. -/
def EntersInTime (s : State) : Action → Prop
  | .loop .enterLoop => ∀ rest, s.controller ≠ .stopping (.joinLoopThread :: rest)
  | _ => True

/-- While there is a loop thread, there is its loop; and when it enters, no old request is left. -/
structure Looping (s : State) : Prop where
  loop : s.thread ≠ .absent → s.impl.loop.isSome
  spawned : s.thread = .spawned → .quit ∉ s.items
  starting : ∀ rest, s.controller = .starting rest → .create .mainLoop ∉ rest →
    s.impl.loop.isSome ∧ s.items = []

section Steps

variable {s s' : State}

/-- The loop, its running mark and its items are the same in both states. -/
structure SameLoop (s s' : State) : Prop where
  loop : s'.impl.loop = s.impl.loop
  running : s'.loopRunning = s.loopRunning
  items : s'.items = s.items

theorem sameLoop_destroyFrame (frame : Frame) : SameLoop s (s.destroyFrame frame) := by
  unfold State.destroyFrame State.recycle
  split
  · exact ⟨rfl, rfl, rfl⟩
  · split
    · exact ⟨rfl, rfl, rfl⟩
    · split <;> exact ⟨rfl, rfl, rfl⟩

/-- A step inside the loop other than leaving it or executing an item. -/
theorem sameLoop_insideStep {pc : LoopPc} (inside : s.thread = .inside pc) {a : LoopAction}
    (stays : a ≠ .leaveLoop) (other : a ≠ .runItem) (taken : s.insideStep pc a = some s') :
    SameLoop s s' ∧ ∃ pc', s'.thread = .inside pc' := by
  cases inside_of_insideStep taken with
  | leaveLoop _ => exact absurd rfl stays
  | runItem _ _ _ => exact absurd rfl other
  | stateChanged old new =>
    unfold State.onStateChanged
    split_ifs <;> exact ⟨⟨rfl, rfl, rfl⟩, _, inside⟩
  | paramChanged id param now =>
    cases param with
    | none => exact ⟨⟨rfl, rfl, rfl⟩, _, inside⟩
    | some param =>
      simp only [State.onParamChanged]
      split_ifs <;> exact ⟨⟨rfl, rfl, rfl⟩, _, inside⟩
  | dispatch b buf now =>
    obtain ⟨frame, -, moved⟩ | ⟨frame, -, moved, -⟩ | moved := s.dispatch_cases b buf now
    all_goals
      rw [moved]
      exact ⟨⟨rfl, rfl, rfl⟩, _, rfl⟩
  | leaveProcess frame =>
    cases frame with
    | none => exact ⟨⟨rfl, rfl, rfl⟩, _, rfl⟩
    | some frame =>
      obtain ⟨loop, running, items⟩ := sameLoop_destroyFrame (s := s) frame
      exact ⟨⟨loop, running, items⟩, _, rfl⟩
  | _ => exact ⟨⟨rfl, rfl, rfl⟩, _, rfl⟩

/-! ### Steps of the controller -/

theorem thread_invoke (item : Item) : (s.invoke item).thread = s.thread := by
  unfold State.invoke
  cases item <;> split <;> rfl

theorem thread_execStop (step : StopStep) :
    (s.execStop step).thread = s.thread ∨
      step = .joinLoopThread ∧ (s.execStop step).thread = .absent := by
  cases step with
  | joinLoopThread =>
    simp only [execStop]
    split_ifs
    · exact .inr ⟨trivial, rfl⟩
    · exact .inl rfl
  | invokeDeactivate =>
    simp only [execStop]
    split
    · exact .inl (thread_invoke _)
    · exact .inl rfl
  | quitMainLoop =>
    simp only [execStop]
    split
    · exact .inl rfl
    · exact .inl (thread_invoke _)
  | invalidateRecycler =>
    simp only [execStop, State.invalidateRecycler]
    split <;> exact .inl rfl
  | clearStreaming => exact .inl rfl
  | _ =>
    simp only [execStop]
    split <;> exact .inl rfl

/-- Only a thread inside the loop is left something to do. -/
theorem items_invoke (item : Item) (outside : ∀ pc, s.thread ≠ .inside pc) :
    (s.invoke item).items = s.items := by
  unfold State.invoke
  split
  · next pc inside => exact absurd inside (outside pc)
  · cases item <;> rfl

theorem items_execStop (step : StopStep) (outside : ∀ pc, s.thread ≠ .inside pc) :
    (s.execStop step).items = s.items := by
  cases step with
  | invokeDeactivate =>
    simp only [execStop]
    split
    · exact items_invoke _ outside
    · rfl
  | quitMainLoop =>
    simp only [execStop]
    split
    · rfl
    · exact items_invoke _ outside
  | invalidateRecycler =>
    simp only [execStop, State.invalidateRecycler]
    split <;> rfl
  | clearStreaming => rfl
  | _ =>
    simp only [execStop]
    split <;> rfl

/-- The loop is destroyed after the thread was joined. -/
theorem joined_of_destroyMainLoop {rest : List StopStep}
    (suffix : .destroyMainLoop :: rest <:+ stopSteps) :
    .joinLoopThread ∉ .destroyMainLoop :: rest := by
  simp only [stopSteps, List.suffix_cons_iff, List.cons.injEq, reduceCtorEq, false_and, false_or,
    true_and, List.suffix_nil, or_false] at suffix
  subst suffix
  decide

theorem looping_stopStep (h : s.Session) (looping : s.Looping) {step : StopStep}
    {rest : List StopStep} (phase : (Controller.stopping (step :: rest)).Phase s)
    (taken : s.stopStep step rest = some s') : s'.Looping := by
  obtain ⟨suffix, -, joined, -⟩ := phase
  rw [stopStep_eq taken]
  refine ⟨fun there => ?_, fun spawned => ?_, fun rest' starting => ?_⟩
  · have before : s.thread ≠ .absent := by
      intro absent
      rcases thread_execStop (s := s) step with same | ⟨-, gone⟩
      · exact there (same.trans absent)
      · exact there gone
    have loop : s.impl.loop.isSome := looping.loop before
    show (s.execStop step).impl.loop.isSome
    rw [impl_execStop]
    cases step with
    | destroyMainLoop =>
      have unjoined := joined (joined_of_destroyMainLoop suffix)
      exact absurd (h.absent unjoined) before
    | _ => exact loop
  · have before : s.thread = .spawned := by
      rcases thread_execStop (s := s) step with same | ⟨-, gone⟩
      · exact same.symm.trans spawned
      · exact absurd (spawned.symm.trans gone) (by simp)
    show .quit ∉ (s.execStop step).items
    rw [items_execStop step (by simp [before])]
    exact looping.spawned before
  · simp only at starting
    split_ifs at starting

theorem sameLoop_succeed (c : Creation) (other : c ≠ .mainLoop) : SameLoop s (s.succeed c) := by
  cases c with
  | mainLoop => exact absurd rfl other
  | connectFd =>
    simp only [State.succeed, State.connectFd]
    split <;> exact ⟨rfl, rfl, rfl⟩
  | _ => exact ⟨rfl, rfl, rfl⟩

theorem thread_succeed (c : Creation) : (s.succeed c).thread = s.thread := by
  cases c with
  | connectFd =>
    simp only [State.succeed, State.connectFd]
    split <;> rfl
  | _ => rfl

theorem thread_fail (c : Creation) : (s.fail c).thread = s.thread := by
  cases c with
  | connectFd =>
    simp only [State.fail, State.connectFdFails]
    split <;> rfl
  | _ => rfl

/-- Without a loop thread only the progress of `Start` counts. -/
theorem Looping.of_absent (absent : s.thread = .absent)
    (starting : ∀ rest, s.controller = .starting rest → .create .mainLoop ∉ rest →
      s.impl.loop.isSome ∧ s.items = []) : s.Looping :=
  ⟨fun there => absurd absent there, fun spawned => by simp [absent] at spawned, starting⟩

theorem looping_startStep (h : s.Session) (looping : s.Looping) {step : StartStep}
    {rest : List StartStep} (starting : s.controller = .starting (step :: rest))
    (phase : (Controller.starting (step :: rest)).Phase s) {succeeds : Bool}
    (taken : s.startStep step rest succeeds = some s') : s'.Looping := by
  obtain ⟨suffix, unjoined, -⟩ := phase
  have absent : s.thread = .absent := h.absent unjoined
  have ready : step ≠ .create .mainLoop → .create .mainLoop ∉ rest →
      s.impl.loop.isSome ∧ s.items = [] := fun now later =>
    looping.starting _ starting (by simp [Ne.symm now, later])
  rcases startSteps_cases suffix with ⟨c, rfl, later⟩ | ⟨rfl, rfl⟩ | ⟨rfl, rfl⟩
  · cases succeeds with
    | false =>
      cases taken
      exact .of_absent ((thread_fail c).trans absent) (by rintro _ ⟨⟩)
    | true =>
      cases taken
      refine .of_absent ((thread_succeed c).trans absent) fun rest' starting' gone => ?_
      simp only [if_neg (List.ne_nil_of_mem later), Controller.starting.injEq] at starting'
      subst starting'
      by_cases main : c = .mainLoop
      · subst main
        exact ⟨rfl, rfl⟩
      · obtain ⟨loop, -, items⟩ := sameLoop_succeed (s := s) c main
        obtain ⟨some, none⟩ := ready (by simpa using main) gone
        exact ⟨(congrArg Option.isSome loop).trans some, items.trans none⟩
  · cases succeeds <;> cases taken
    refine .of_absent absent fun rest' starting' gone => ?_
    exact ready (by simp) (by simp)
  · cases succeeds <;> cases taken
    obtain ⟨loop, items⟩ := ready (by simp) (by simp)
    have spawned : s.execStart .spawnLoopThread = { s with
        impl := { s.impl with loopThread := true }, thread := .spawned } := by
      simp [execStart, State.spawnLoopThread, unjoined]
    rw [spawned]
    refine ⟨fun _ => loop, fun _ => ?_, by rintro _ ⟨⟩⟩
    simp [items]

theorem looping_controlStep (h : s.Session) (phase : s.Phase) (looping : s.Looping)
    {c : ControlAction} (taken : s.controlStep c = some s') : s'.Looping := by
  unfold State.Phase at phase
  cases controlled_of_controlStep taken with
  | callStart stopped =>
    refine ⟨looping.loop, looping.spawned, fun rest starting gone => ?_⟩
    cases starting
    exact absurd (by decide) gone
  | startStep step rest succeeds _ starting moved =>
    rw [starting] at phase
    exact looping_startStep h looping starting phase moved
  | callStop waits => exact ⟨looping.loop, looping.spawned, by rintro _ ⟨⟩⟩
  | stopStep step rest _ stopping moved =>
    rw [stopping] at phase
    exact looping_stopStep h looping phase moved
  | _ => exact ⟨looping.loop, looping.spawned, looping.starting⟩

/-! ### Every step -/

theorem Looping.same (looping : s.Looping) (same : SameLoop s s')
    (thread : s'.thread ≠ .absent → s.thread ≠ .absent)
    (spawned : s'.thread = .spawned → s.thread = .spawned)
    (controller : s'.controller = s.controller) : s'.Looping where
  loop there := (congrArg Option.isSome same.loop).trans (looping.loop (thread there))
  spawned now := by
    rw [same.items]
    exact looping.spawned (spawned now)
  starting rest now gone := by
    rw [controller] at now
    rw [same.loop, same.items]
    exact looping.starting rest now gone

theorem looping_insideStep (looping : s.Looping) {pc : LoopPc} (inside : s.thread = .inside pc)
    {l : LoopAction} (controller : s'.controller = s.controller)
    (taken : s.insideStep pc l = some s') : s'.Looping := by
  have there : s.thread ≠ .absent := by simp [inside]
  by_cases simple : l ≠ .leaveLoop ∧ l ≠ .runItem
  · obtain ⟨same, pc', inside'⟩ := sameLoop_insideStep inside simple.1 simple.2 taken
    exact looping.same same (fun _ => there) (by simp [inside']) controller
  · cases inside_of_insideStep taken with
    | leaveLoop quit =>
      exact looping.same ⟨rfl, rfl, rfl⟩ (fun _ => there) (by rintro ⟨⟩) rfl
    | runItem item items head =>
      have started : ∀ rest, s.controller = .starting rest → .create .mainLoop ∈ rest := by
        intro rest starting
        by_contra gone
        rw [(looping.starting rest starting gone).2] at head
        cases head
      refine ⟨fun _ => ?_, fun spawned => ?_, fun rest starting gone => ?_⟩
      · have loop := looping.loop there
        cases item <;> exact loop
      · cases item <;> simp [execItem, State.call, inside] at spawned
      · rw [controller] at starting
        exact absurd (started rest starting) gone
    | _ => exact absurd ⟨by simp, by simp⟩ simple

theorem looping_step {a : Action} (h : s.Session) (phase : s.Phase) (looping : s.Looping)
    (taken : s.step a = some s') : s'.Looping := by
  rcases step_cases taken with ⟨c, -, moved⟩ | ⟨other, controller, -, -⟩
  · exact looping_controlStep h phase looping moved
  cases stepped_of_step taken with
  | control c => exact absurd rfl (other c)
  | enterLoop spawned =>
    exact ⟨fun _ => looping.loop (by simp [spawned]), by rintro ⟨⟩, looping.starting⟩
  | inside pc l _ inside moved => exact looping_insideStep looping inside controller moved
  | destroyFrame j frame at_j =>
    obtain ⟨loop, running, items⟩ := sameLoop_destroyFrame
      (s := { s with frames := s.frames.eraseIdx j }) frame
    refine looping.same ⟨loop, running, items⟩ ?_ ?_ controller
    · rw [thread_destroyFrame]
      exact id
    · rw [thread_destroyFrame]
      exact id

/-! ### Where a request gets lost -/

theorem quits_before_joining {step : StopStep} {rest : List StopStep}
    (suffix : step :: .joinLoopThread :: rest <:+ stopSteps) : step = .quitMainLoop := by
  simp only [stopSteps, List.suffix_cons_iff, List.cons.injEq, reduceCtorEq, false_and, and_false,
    false_or, true_and, List.suffix_nil, or_false] at suffix
  exact suffix.1

/-- A request made of a thread inside the loop is left with the loop. -/
theorem not_quitLost_stopStep (looping : s.Looping) {step : StopStep} {rest : List StopStep}
    (suffix : step :: rest <:+ stopSteps) (taken : s.stopStep step rest = some s') :
    ¬ s'.QuitLost := by
  rw [stopStep_eq taken]
  rintro ⟨⟨rest', stopping⟩, ⟨pc, inside⟩, -, noQuit⟩
  have joins : rest = .joinLoopThread :: rest' := by
    simp only at stopping
    split_ifs at stopping
    exact Controller.stopping.inj stopping
  subst joins
  obtain rfl := quits_before_joining suffix
  have inside' : s.thread = .inside pc := by
    rcases thread_execStop (s := s) .quitMainLoop with same | ⟨-, gone⟩
    · exact same.symm.trans inside
    · exact absurd (gone.symm.trans inside) (by simp)
  obtain ⟨loop, some⟩ := Option.isSome_iff_exists.1 (looping.loop (by simp [inside']))
  refine noQuit ?_
  simp [execStop, State.invoke, some, inside']

/-- `join` does not return while the thread is inside the loop. -/
theorem not_quitLost_of_joins (h : s.Session) {step : StopStep} {rest : List StopStep}
    (stopping : s.controller = .stopping (step :: rest)) (taken : s.stopStep step rest = some s') :
    ¬ s.QuitLost := by
  rintro ⟨⟨rest', joins⟩, ⟨pc, inside⟩, -⟩
  rw [stopping] at joins
  cases joins
  have unjoined : s.impl.loopThread = true := (h.thread (by simp [inside])).1
  simp [State.stopStep, unjoined, inside] at taken

theorem quitLost_controlStep (h : s.Session) (phase : s.Phase) (looping : s.Looping)
    {c : ControlAction} (taken : s.controlStep c = some s') : s'.QuitLost ↔ s.QuitLost := by
  cases controlled_of_controlStep taken with
  | callStart stopped => simp [QuitLost, stopped]
  | startStep step rest succeeds _ starting moved =>
    refine iff_of_false ?_ (by simp [QuitLost, starting])
    rintro ⟨⟨rest', stopping⟩, -⟩
    unfold State.startStep at moved
    split at moved
    · cases moved
      cases stopping
    · cases moved
      simp only at stopping
      split_ifs at stopping
    · cases moved
  | callStop waits =>
    rcases waits with at_ | at_ <;> simp [QuitLost, at_, stopSteps]
  | stopStep step rest _ stopping moved =>
    unfold State.Phase at phase
    rw [stopping] at phase
    exact iff_of_false (not_quitLost_stopStep looping phase.1 moved)
      (not_quitLost_of_joins h stopping moved)
  | _ => exact Iff.rfl

theorem QuitLost.congr (same : SameLoop s s') (controller : s'.controller = s.controller)
    (thread : (∃ pc, s'.thread = .inside pc) ↔ ∃ pc, s.thread = .inside pc) :
    s'.QuitLost ↔ s.QuitLost := by
  unfold QuitLost
  rw [controller, thread, same.running, same.items]

theorem quitLost_insideStep {pc : LoopPc} (inside : s.thread = .inside pc) {l : LoopAction}
    (controller : s'.controller = s.controller) (taken : s.insideStep pc l = some s') :
    s'.QuitLost ↔ s.QuitLost := by
  by_cases simple : l ≠ .leaveLoop ∧ l ≠ .runItem
  · obtain ⟨same, there⟩ := sameLoop_insideStep inside simple.1 simple.2 taken
    exact QuitLost.congr same controller (iff_of_true there ⟨pc, inside⟩)
  · cases inside_of_insideStep taken with
    | leaveLoop quit => simp [QuitLost, quit]
    | runItem item items head =>
      cases item with
      | deactivate stream => simp [QuitLost, execItem, State.call, head]
      | quit => simp [QuitLost, execItem, head]
    | _ => exact absurd ⟨by simp, by simp⟩ simple

/-- A request gets lost exactly when the thread enters the loop too late, and then for good. -/
theorem quitLost_step {a : Action} (h : s.Session) (phase : s.Phase) (looping : s.Looping)
    (taken : s.step a = some s') : s'.QuitLost ↔ s.QuitLost ∨ ¬ s.EntersInTime a := by
  have inTime : s.EntersInTime a → (s'.QuitLost ↔ s.QuitLost) →
      (s'.QuitLost ↔ s.QuitLost ∨ ¬ s.EntersInTime a) := fun ok same => by simp [ok, same]
  rcases step_cases taken with ⟨c, rfl, moved⟩ | ⟨other, controller, -, -⟩
  · exact inTime trivial (quitLost_controlStep h phase looping moved)
  cases stepped_of_step taken with
  | control c => exact absurd rfl (other c)
  | enterLoop spawned =>
    simp [QuitLost, EntersInTime, State.goto, spawned, looping.spawned spawned]
  | inside pc l _ inside moved =>
    cases l with
    | enterLoop => cases inside_of_insideStep moved
    | _ => exact inTime trivial (quitLost_insideStep inside controller moved)
  | destroyFrame j frame at_j =>
    obtain ⟨loop, running, items⟩ := sameLoop_destroyFrame
      (s := { s with frames := s.frames.eraseIdx j }) frame
    refine inTime trivial (QuitLost.congr ⟨loop, running, items⟩ controller ?_)
    rw [thread_destroyFrame]

end Steps

structure Known (s : State) : Prop where
  session : s.Session
  phase : s.Phase
  looping : s.Looping

theorem known_step (s : State) (a : Action) (s' : State) (h : s.Known)
    (taken : s.step a = some s') : s'.Known := by
  obtain ⟨session, phase⟩ := step_keeps a ⟨h.session, h.phase⟩ taken
  exact ⟨session, phase, looping_step h.session h.phase h.looping taken⟩

theorem known_start : ({} : State).Known :=
  ⟨session_start.1, session_start.2, .of_absent rfl (by rintro _ ⟨⟩)⟩

/-- In a run no quit request is lost iff the loop thread never enters a loop that `Stop` has already
asked to quit. -/
theorem never_quitLost_iff (as : List Action) :
    Transition.Always step (fun s => ¬ s.QuitLost) {} as ↔
      Transition.Each step EntersInTime {} as := by
  have exact_step (s : State) (a : Action) (s' : State) (h : s.Known) (kept : ¬ s.QuitLost)
      (taken : s.step a = some s') : ¬ s'.QuitLost ↔ s.EntersInTime a := by
    simp [quitLost_step h.session h.phase h.looping taken, kept]
  have kept : ¬ ({} : State).QuitLost := by
    rintro ⟨⟨rest, ⟨⟩⟩, -⟩
  have both : Transition.Always step (fun s => ¬ s.QuitLost) {} as ↔
      ¬ ({} : State).QuitLost ∧ Transition.Each step EntersInTime {} as :=
    Transition.always_iff_each known_step exact_step known_start
  exact both.trans (and_iff_right kept)

/-- A `Stop` that lost its request never returns. -/
theorem quitLost_forever {s t : State} {as bs : List Action} (reached : Transition.Run step {} as s)
    (lost : s.QuitLost) (rest : Transition.Run step s bs t) : t.QuitLost := by
  have known : s.Known := Transition.Reachable.invariant known_step known_start ⟨as, reached⟩
  have both : t.Known ∧ t.QuitLost := Transition.Reachable.invariant
    (I := fun t => t.Known ∧ t.QuitLost)
    (fun s a s' h taken => ⟨known_step s a s' h.1 taken,
      (quitLost_step h.1.session h.1.phase h.1.looping taken).2 (.inl h.2)⟩)
    ⟨known, lost⟩ ⟨bs, rest⟩
  exact both.2

/-- `Stop` right after `Start`: the thread enters the loop when the request has come and gone. -/
def stopAtOnce : List Action :=
  .control .callStart :: List.replicate 8 (.control (.startStep true)) ++
    .control .callStop :: List.replicate 3 (.control .stopStep) ++ [.loop .enterLoop]

theorem not_never_quitLost :
    ¬ ∀ (as : List Action) (t : State), Transition.Run step {} as t → ¬ t.QuitLost := by
  intro claim
  refine claim stopAtOnce _ rfl ?_
  exact ⟨⟨_, rfl⟩, ⟨_, rfl⟩, rfl, List.not_mem_nil⟩

end SmoothDemon.PipeWireCapture.State
