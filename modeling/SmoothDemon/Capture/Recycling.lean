import SmoothDemon.Capture.BufferReturn
import SmoothDemon.Capture.Shutdown
import SmoothDemon.Library.Records

/-!
# How long a frame can return its buffer

A frame keeps the recycler of the session it was made in.  The first step of the next `Stop` takes
the stream from that recycler, which never gets one again.  So destroying a frame queues its buffer
iff no `Stop` has taken a step since the `Start` of its session (`trace_destroyFrame`).
-/

namespace SmoothDemon.PipeWireCapture

/-- What an action does to the session. -/
def Action.session : Action → Option Bool
  | .control .callStart => some true
  | .control .stopStep => some false
  | _ => none

/-- No `Stop` has taken a step since `Start` was called last. -/
def inSession (as : List Action) : Bool := ((as.filterMap Action.session).getLast?).getD false

theorem inSession_concat (as : List Action) (a : Action) :
    inSession (as ++ [a]) = a.session.getD (inSession as) := by
  unfold inSession
  rw [Records.getD_getLast?_concat]

namespace State

variable {s s' : State} {a : Action}

/-- In a session `Stop` has taken no step, and the recycler has the stream as long as there is a
loop thread; between two sessions no recycler has one. -/
structure Opened (inside : Bool) (s : State) : Prop where
  outside : inside = false → s.Detached ∧ ∀ rest, s.controller ≠ .starting rest
  stopping : inside = true → ∀ rest, s.controller = .stopping rest → rest = stopSteps
  attached : inside = true → s.thread ≠ .absent →
    ∃ r i, s.impl.recycler = some r ∧ s.recyclers r = some i

theorem not_mem_of_suffix {step : StopStep} {rest : List StopStep}
    (h : step :: rest <:+ stopSteps) : .invalidateRecycler ∉ rest := by
  simp only [stopSteps, List.suffix_cons_iff, List.cons.injEq, List.suffix_nil] at h
  rcases h with h | h | h | h | h | h | h | h | h | h
  case inr.inr.inr.inr.inr.inr.inr.inr.inr => cases h
  all_goals
    obtain ⟨-, rfl⟩ := h
    decide

/-- A step of `Stop` leaves no recycler a stream. -/
theorem detached_stopStep (keeps : s.Session ∧ s.Phase)
    (taken : s.step (.control .stopStep) = some s') :
    s'.Detached ∧ ∀ rest, s'.controller ≠ .starting rest := by
  have phase' := (step_keeps _ keeps taken).2
  have phase := keeps.2
  cases stepped_of_step taken with
  | control c _ moved =>
    cases controlled_of_controlStep moved with
    | stopStep step rest _ stopping moved =>
      unfold State.Phase at phase phase'
      rw [stopping] at phase
      have gone := not_mem_of_suffix phase.1
      rw [stopStep_eq moved] at phase' ⊢
      by_cases last : rest = []
      · simp only [if_pos last] at phase' ⊢
        exact ⟨phase'.1, nofun⟩
      · simp only [if_neg last] at phase' ⊢
        exact ⟨phase'.2.1 gone, nofun⟩

theorem thread_startStep {step : StartStep} {rest : List StartStep} {succeeds : Bool}
    (other : step ≠ .spawnLoopThread) (taken : s.startStep step rest succeeds = some s') :
    s'.thread = s.thread := by
  cases step with
  | create c =>
    cases succeeds <;> cases taken
    · exact thread_fail c
    · exact thread_succeed c
  | setupRecycler =>
    cases succeeds <;> cases taken
    rfl
  | spawnLoopThread => exact absurd rfl other

theorem controller_startStep {step : StartStep} {rest : List StartStep} {succeeds : Bool}
    (taken : s.startStep step rest succeeds = some s') (rest' : List StopStep) :
    s'.controller ≠ .stopping rest' := by
  unfold State.startStep at taken
  split at taken
  · cases taken
    nofun
  · cases taken
    simp only
    split_ifs <;> nofun
  · cases taken

/-- The thread is spawned once the recycler has the stream. -/
theorem attached_startStep (session : s.Session) {step : StartStep} {rest : List StartStep}
    (phase : (Controller.starting (step :: rest)).Phase s) {succeeds : Bool}
    (taken : s.startStep step rest succeeds = some s') (there : s'.thread ≠ .absent) :
    ∃ r i, s'.impl.recycler = some r ∧ s'.recyclers r = some i := by
  obtain ⟨suffix, unjoined, -, stream, recycler⟩ := phase
  by_cases spawn : step = .spawnLoopThread
  · subst spawn
    obtain ⟨c, h, -⟩ | ⟨h, -⟩ | ⟨-, rfl⟩ := startSteps_cases suffix
    · cases h
    · cases h
    obtain ⟨r, stored, attached⟩ := recycler (by simp)
    obtain ⟨i, stream⟩ := Option.isSome_iff_exists.1 (stream (by simp))
    have spawned : s.spawnLoopThread = { s with
        impl := { s.impl with loopThread := true }, thread := .spawned } := by
      simp [State.spawnLoopThread, unjoined]
    cases succeeds <;> cases taken
    refine ⟨r, i, ?_, ?_⟩
    · rw [execStart, spawned]
      exact stored
    · rw [execStart, spawned]
      exact attached.trans stream
  · rw [thread_startStep spawn taken] at there
    exact absurd (session.absent unjoined) there

theorem opened_controlStep (keeps : s.Session ∧ s.Phase) {inside : Bool} (h : Opened inside s)
    {c : ControlAction} (taken : s.step (.control c) = some s')
    (moved : s.controlStep c = some s') : Opened ((Action.control c).session.getD inside) s' := by
  have phase := keeps.2
  unfold State.Phase at phase
  cases controlled_of_controlStep moved with
  | callStart stopped =>
    rw [stopped] at phase
    exact ⟨nofun, nofun, fun _ there => absurd (keeps.1.absent phase.2) there⟩
  | startStep step rest succeeds _ starting moved =>
    rw [starting] at phase
    refine ⟨fun outside => absurd starting ((h.outside outside).2 _), fun _ rest' stopping => ?_,
      fun _ there => attached_startStep keeps.1 phase moved there⟩
    exact absurd stopping (controller_startStep moved rest')
  | callStop waits =>
    refine ⟨fun outside => ⟨(h.outside outside).1, nofun⟩, fun _ rest stopping => ?_, h.attached⟩
    cases stopping
    rfl
  | stopStep step rest _ stopping moved =>
    exact ⟨fun _ => detached_stopStep keeps taken, nofun, nofun⟩
  | _ => exact ⟨h.outside, h.stopping, h.attached⟩

/-- Only the controller starts a thread. -/
theorem there_of_step (other : ∀ c, a ≠ .control c) (taken : s.step a = some s')
    (there : s'.thread ≠ .absent) : s.thread ≠ .absent := by
  cases stepped_of_step taken with
  | control c => exact absurd rfl (other c)
  | enterLoop spawned => simp [spawned]
  | inside pc l _ inside moved => simp [inside]
  | destroyFrame i frame there' =>
    rwa [thread_destroyFrame] at there

theorem opened_step (keeps : s.Session ∧ s.Phase) {inside : Bool} (h : Opened inside s)
    (taken : s.step a = some s') : Opened (a.session.getD inside) s' := by
  rcases step_cases taken with ⟨c, rfl, moved⟩ | ⟨other, controller, -, same⟩
  · exact opened_controlStep keeps h taken moved
  · have quiet : a.session = none := by
      cases a with
      | control c => exact absurd rfl (other c)
      | _ => rfl
    rw [quiet, Option.getD_none]
    refine ⟨fun outside => ?_, fun now rest stopping => ?_, fun now there => ?_⟩
    · obtain ⟨detached, unstarted⟩ := h.outside outside
      exact ⟨fun r => same.recyclers ▸ detached r, controller ▸ unstarted⟩
    · exact h.stopping now rest (controller ▸ stopping)
    · rw [same.recycler, same.recyclers]
      exact h.attached now (there_of_step other taken there)

theorem opened_of_run {as : List Action} {t : State} (run : Transition.Run step {} as t) :
    Opened (inSession as) t := by
  induction as using List.reverseRecOn generalizing t with
  | nil =>
    obtain rfl := Transition.run_nil.1 run
    exact ⟨fun _ => ⟨fun _ => rfl, nofun⟩, nofun, nofun⟩
  | append_singleton as a ih =>
    obtain ⟨s, before, last⟩ := Transition.run_concat.1 run
    rw [inSession_concat]
    exact opened_step (session_of_run before) (ih before) last

/-- Without a step of `Stop` a recycler that is there stays as it is. -/
theorem recyclers_step (phase : s.Phase) (taken : s.step a = some s') {r : ℕ} (older : r < s.next) :
    s.next ≤ s'.next ∧ (a ≠ .control .stopStep → s'.recyclers r = s.recyclers r) := by
  rcases step_cases taken with ⟨c, rfl, moved⟩ | ⟨-, -, next, same⟩
  · refine ⟨(stream_controlStep phase moved).1, fun other => ?_⟩
    cases controlled_of_controlStep moved with
    | startStep step rest succeeds _ starting moved =>
      cases step with
      | create c =>
        cases succeeds <;> cases moved
        · cases c with
          | connectFd =>
            simp only [State.fail, State.connectFdFails]
            split <;> rfl
          | _ => rfl
        · cases c with
          | connectFd =>
            simp only [execStart, State.succeed, State.connectFd]
            split <;> rfl
          | _ => rfl
      | setupRecycler =>
        cases succeeds <;> cases moved
        exact Function.update_of_ne (Nat.ne_of_lt older) _ _
      | spawnLoopThread =>
        cases succeeds <;> cases moved
        simp only [execStart, State.spawnLoopThread]
        split_ifs <;> rfl
    | stopStep => exact absurd rfl other
    | _ => rfl
  · exact ⟨Nat.le_of_eq next.symm, fun _ => congrFun same.recyclers r⟩

theorem recyclers_run (keeps : s.Session ∧ s.Phase) {as : List Action} {t : State}
    (run : Transition.Run step s as t) {r : ℕ} (older : r < s.next) :
    r < t.next ∧ (.control .stopStep ∉ as → t.recyclers r = s.recyclers r) ∧
      (.control .stopStep ∈ as → t.recyclers r = none) := by
  induction as using List.reverseRecOn generalizing t with
  | nil =>
    obtain rfl := Transition.run_nil.1 run
    exact ⟨older, fun _ => rfl, nofun⟩
  | append_singleton as a ih =>
    obtain ⟨u, before, last⟩ := Transition.run_concat.1 run
    have keeps' : u.Session ∧ u.Phase := by
      refine Transition.Reachable.invariant (I := fun s => s.Session ∧ s.Phase)
        (fun s a s' h taken => step_keeps a h taken) keeps ⟨as, before⟩
    obtain ⟨older', same, gone⟩ := ih before
    obtain ⟨grows, still⟩ := recyclers_step keeps'.2 last older'
    refine ⟨Nat.lt_of_lt_of_le older' grows, fun none => ?_, fun some => ?_⟩
    · rw [List.mem_append, List.mem_singleton, not_or] at none
      rw [still (Ne.symm none.2), same none.1]
    · by_cases now : a = .control .stopStep
      · subst now
        exact (detached_stopStep keeps' last).1 r
      · rw [still now]
        have earlier : .control .stopStep ∈ as := by
          simpa [Ne.symm now] using some
        exact gone earlier

/-- The step that destroys a frame returns its buffer, unless the recycler has lost the stream. -/
theorem trace_destroyFrame (h : s.Session) {i : ℕ} {frame : Frame}
    (held : s.frames[i]? = some frame) : ∃ done r s', frame.destroy = some done ∧
      done.recycler = some r ∧ r < s.next ∧ s.step (.destroyFrame i) = some s' ∧
      (s.recyclers r ≠ none → s'.trace = .queueBuffer done.b.home done.b :: s.trace) ∧
      (s.recyclers r = none → s'.trace = s.trace) := by
  have live : frame ∈ s.liveFrames := List.mem_append_left _ (List.mem_of_getElem? held)
  obtain ⟨done, r, destroy, recycler, older, home⟩ := h.returns frame live
  refine ⟨done, r, State.destroyFrame { s with frames := s.frames.eraseIdx i } frame, destroy,
    recycler, older, ?_, fun attached => ?_, fun lost => ?_⟩
  · simp [State.step, h.alive, held]
  · obtain ⟨j, attached⟩ := Option.ne_none_iff_exists'.1 attached
    simp only [State.destroyFrame, destroy, State.recycle, recycler, attached, home j attached]
    rfl
  · simp only [State.destroyFrame, destroy, State.recycle, recycler, lost]

end State

end SmoothDemon.PipeWireCapture
