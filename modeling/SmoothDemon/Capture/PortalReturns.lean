import SmoothDemon.Capture.PortalHandshake

/-!
# When `RequestScreenCast` can return

`RequestScreenCast` waits for three responses.  As long as its method calls do not fail, client, bus
and portal can bring it to its end from every reachable state, unless the response of the request in
use was emitted before the client listens for it; from there no such run leads to the end
(`ends_iff`).
-/

namespace SmoothDemon.PortalHandshake

/-- The request was sent and its handler is still to be registered. -/
def Pc.unheard : Pc → Bool
  | .calling _ | .createProxy _ | .registerHandler _ => true
  | _ => false

/-- The request was sent. -/
def Pc.sent : Pc → Bool
  | .waiting _ => true
  | pc => pc.unheard

theorem Pc.sent_of_unheard {pc : Pc} (h : pc.unheard) : pc.sent := by
  cases pc with
  | calling | createProxy | registerHandler => rfl
  | _ => cases h

/-- A method call that throws. -/
def Action.fails : Action → Bool
  | .callReturns false | .openRemote none => true
  | _ => false

/-- The responses still to come, with that of the request. -/
def responses : Request → ℕ
  | .createSession => 3
  | .selectSources => 2
  | .start => 1

namespace State

/-- The response of the request in use is not going to reach the client. -/
def Doomed (s : State) : Prop := s.pc.unheard ∧ s.path ∈ s.emitted ∨ s.Lost

/-! ### What is left to do -/

/-- What a client that waits is away from its response. -/
def away (s : State) : ℕ :=
  if s.promise.isSome then 0
  else if s.path ∈ s.inbox.map Prod.fst then 1
  else if s.path ∈ s.received then 3
  else 4

def stage (s : State) : ℕ :=
  match s.pc with
  | .idle => 0
  | .call req => 20 * responses req + 10
  | .calling req => 20 * responses req + if s.path ∈ s.calls then 9 else 8
  | .createProxy req => 20 * responses req + 7
  | .registerHandler req => 20 * responses req + 6
  | .waiting req => 20 * responses req + s.away
  | .openRemote => 5

/-- A signal in the inbox is one step. -/
def left (s : State) : ℕ := s.stage + s.inbox.length

/-- A state from which `RequestScreenCast` can return. -/
structure Ending (s : State) : Prop where
  invariant : s.Invariant
  asks : s.pc.sent → s.path ∈ s.asked
  free : ¬ s.Doomed

section Steps

variable {s s' : State} {a : Action}

theorem not_sent_resume (req : Request) (r : Response) : (s.resume req r).pc.sent = false := by
  unfold resume
  dsimp only
  split
  · rfl
  · cases req <;> rfl

/-- A request that was sent stays with the portal, or is answered. -/
theorem asks_step (h : s.pc.sent → s.path ∈ s.asked) (taken : s.step a = some s') :
    s'.pc.sent → s'.path ∈ s'.asked := by
  intro sent
  cases moves_of_step taken with
  | send req pc => exact List.mem_cons_self
  | receive path called => exact (elsewhere_receive called).asked.mem_iff.2 (h sent)
  | emit path r received => exact (elsewhere_emit r received).asked.mem_iff.2 (h sent)
  | dispatch path r inbox head => exact h sent
  | callReturns req pc _ | createProxy req pc | registerHandler req pc =>
    exact h (by rw [pc]; rfl)
  | wake req r pc answered =>
    rw [not_sent_resume] at sent
    cases sent
  | _ => cases sent

/-- Only an emission that comes too early keeps the response from the client. -/
theorem not_doomed_step (h : s.Invariant) (free : ¬ s.Doomed) (taken : s.step a = some s')
    (late : ∀ r, a = .emit s.path r → s.pc.unheard = false) : ¬ s'.Doomed := by
  have unheard : ¬ (s.pc.unheard ∧ s.path ∈ s.emitted) := fun early => free (.inl early)
  have lost : s'.Lost → ¬ s.InTime a := fun lost =>
    ((lost_step h taken).1 lost).resolve_left fun before => free (.inr before)
  have client := h.client
  rintro (⟨early, emitted⟩ | gone)
  · cases moves_of_step taken with
    | send req pc =>
      rw [pc] at client
      exact client.2.2 (List.mem_append_right _ (List.mem_append_right _ emitted))
    | emit path r received =>
      rcases List.mem_cons.1 emitted with same | before
      · have heard := late r (congrArg (Action.emit · r) same.symm)
        exact absurd (heard.symm.trans early) (by simp)
      · exact unheard ⟨early, before⟩
    | receive path called => exact unheard ⟨early, emitted⟩
    | dispatch path r inbox head => exact unheard ⟨early, emitted⟩
    | callReturns req pc _ | createProxy req pc => exact unheard ⟨by rw [pc]; rfl, emitted⟩
    | wake req r pc answered =>
      have sent := Pc.sent_of_unheard early
      rw [not_sent_resume] at sent
      cases sent
    | _ => cases early
  · refine lost gone ?_
    cases moves_of_step taken with
    | registerHandler req pc => exact fun emitted => unheard ⟨by rw [pc]; rfl, emitted⟩
    | _ => trivial

theorem Ending.step (h : s.Ending) (taken : s.step a = some s')
    (late : ∀ r, a = .emit s.path r → s.pc.unheard = false) : s'.Ending :=
  ⟨invariant_step h.invariant taken, asks_step h.asks taken,
    not_doomed_step h.invariant h.free taken late⟩

/-! ### Getting on -/

/-- The response of a client that waits comes nearer. -/
theorem Ending.wait (h : s.Ending) {req : Request} (pc : s.pc = .waiting req) :
    ∃ a s', a.fails = false ∧ s.step a = some s' ∧ s'.Ending ∧ s'.left < s.left := by
  have subscribed : s.handler = some s.path := h.invariant.subscribed ⟨req, pc⟩
  have heard (a : Action) (r : Response) : a = .emit s.path r → s.pc.unheard = false :=
    fun _ => by rw [pc]; rfl
  cases promise : s.promise with
  | some r =>
    have taken : s.step .wake = some (s.resume req r) := by simp [State.step, pc, promise]
    refine ⟨.wake, _, rfl, taken, h.step taken (heard _), ?_⟩
    have before : s.left = 20 * responses req + s.inbox.length := by
      simp [left, stage, pc, away, promise]
    rw [before]
    unfold resume
    dsimp only
    split
    · cases req <;> simp [left, stage, responses]
    · cases req <;> simp [left, stage, ask, responses]
  | none =>
    by_cases arrived : s.path ∈ s.inbox.map Prod.fst
    · have before : s.left = 20 * responses req + 1 + s.inbox.length := by
        simp only [left, stage, pc, away, promise, Option.isSome_none, Bool.false_eq_true, if_false,
          if_pos arrived]
      cases inbox : s.inbox with
      | nil => simp [inbox] at arrived
      | cons m rest =>
        obtain ⟨path, r⟩ := m
        have taken : s.step .dispatch = some { s with
            inbox := rest, promise := if s.handler = some path then some r else s.promise } := by
          simp [State.step, inbox]
        refine ⟨.dispatch, _, rfl, taken, h.step taken (heard _), ?_⟩
        rw [before, inbox, List.length_cons]
        by_cases current : path = s.path
        · simp only [left, stage, pc, away, subscribed, current, if_true, Option.isSome_some]
          omega
        · have later : s.path ∈ rest.map Prod.fst := by
            rw [inbox, List.map_cons, List.mem_cons] at arrived
            exact arrived.resolve_left (Ne.symm current)
          simp only [left, stage, pc, away, subscribed, Option.some.injEq, Ne.symm current, promise,
            Option.isSome_none, Bool.false_eq_true, if_false, if_pos later]
          omega
    · have waits : s.left = 20 * responses req + (if s.path ∈ s.received then 3 else 4) +
          s.inbox.length := by
        simp only [left, stage, pc, away, promise, Option.isSome_none, Bool.false_eq_true, if_false,
          if_neg arrived]
      by_cases received : s.path ∈ s.received
      · have taken : s.step (.emit s.path { code := 1 }) = some { s with
            received := s.received.erase s.path
            emitted := s.path :: s.emitted
            inbox := s.inbox ++ [(s.path, { code := 1 })] } := by
          simp [State.step, received, subscribed]
        refine ⟨_, _, rfl, taken, h.step taken (heard _), ?_⟩
        have answered (r : Response) : s.path ∈ (s.inbox ++ [(s.path, r)]).map Prod.fst := by simp
        rw [waits, if_pos received]
        simp only [left, stage, pc, away, promise, Option.isSome_none, Bool.false_eq_true, if_false,
          if_pos (answered _), List.length_append, List.length_singleton]
        omega
      · -- it was not emitted, for then it would be lost
        have called : s.path ∈ s.calls := by
          have asked : s.path ∈ s.asked := h.asks (by rw [pc]; rfl)
          rw [State.asked, List.mem_append, List.mem_append] at asked
          refine asked.resolve_right fun gone => ?_
          refine h.free (.inr ⟨⟨req, pc⟩, gone.resolve_left received, promise, fun r here => ?_⟩)
          exact arrived (List.mem_map_of_mem here)
        have taken : s.step (.receive s.path) = some { s with
            calls := s.calls.erase s.path, received := s.path :: s.received } := by
          simp [State.step, called]
        refine ⟨_, _, rfl, taken, h.step taken (heard _), ?_⟩
        rw [waits, if_neg received]
        simp only [left, stage, pc, away, promise, Option.isSome_none, Bool.false_eq_true, if_false,
          if_neg arrived, if_pos List.mem_cons_self]
        omega

theorem away_le : s.away ≤ 4 := by
  unfold away
  split_ifs <;> decide

/-- A request whose call has not returned gets on with the portal's help. -/
theorem Ending.called (h : s.Ending) {req : Request} (pc : s.pc = .calling req) :
    ∃ a s', a.fails = false ∧ s.step a = some s' ∧ s'.Ending ∧ s'.left < s.left := by
  by_cases called : s.path ∈ s.calls
  · have taken : s.step (.receive s.path) = some { s with
        calls := s.calls.erase s.path, received := s.path :: s.received } := by
      simp [State.step, called]
    refine ⟨_, _, rfl, taken, h.step taken (by simp), ?_⟩
    have once : s.calls.Nodup := (List.nodup_append.1 h.invariant.once).1
    have gone : s.path ∉ s.calls.erase s.path := once.not_mem_erase
    simp only [left, stage, pc, if_pos called, if_neg gone]
    omega
  · have taken : s.step (.callReturns true) = some { s with pc := .createProxy req } := by
      simp [State.step, pc, called]
    refine ⟨_, _, rfl, taken, h.step taken (by simp), ?_⟩
    simp only [left, stage, pc, if_neg called]
    omega

theorem Ending.progress (h : s.Ending) (busy : s.pc ≠ .idle) :
    ∃ a s', a.fails = false ∧ s.step a = some s' ∧ s'.Ending ∧ s'.left < s.left := by
  cases pc : s.pc with
  | idle => exact absurd pc busy
  | waiting req => exact h.wait pc
  | calling req => exact h.called pc
  | call req =>
    have taken : s.step .send = some { s with calls := s.path :: s.calls, pc := .calling req } := by
      simp [State.step, pc]
    refine ⟨_, _, rfl, taken, h.step taken (by simp), ?_⟩
    simp [left, stage, pc]
  | createProxy req =>
    have taken : s.step .createProxy = some { s with pc := .registerHandler req } := by
      simp [State.step, pc]
    refine ⟨_, _, rfl, taken, h.step taken (by simp), ?_⟩
    simp [left, stage, pc]
  | registerHandler req =>
    set s' : State := { s with handler := some s.path, pc := .waiting req }
    have taken : s.step .registerHandler = some s' := by simp [State.step, pc, s']
    refine ⟨_, _, rfl, taken, h.step taken (by simp), ?_⟩
    have near : s'.away ≤ 4 := away_le
    have after : s'.left = 20 * responses req + s'.away + s.inbox.length := rfl
    rw [after]
    simp only [left, stage, pc]
    omega
  | openRemote =>
    have taken : s.step (.openRemote (some (some 3))) =
        some { s with session := s.session.storeFd (some 3), pc := .idle } := by
      simp [State.step, pc]
    refine ⟨_, _, rfl, taken, h.step taken (by simp), ?_⟩
    simp [left, stage, pc]

/-! ### No way out -/

theorem doomed_step (h : s.Invariant) (doomed : s.Doomed) (works : a.fails = false)
    (taken : s.step a = some s') : s'.Doomed := by
  rcases doomed with ⟨early, emitted⟩ | already
  swap
  · exact .inr ((lost_step h taken).2 (.inl already))
  cases moves_of_step taken with
  | receive path called => exact .inl ⟨early, emitted⟩
  | emit path r received => exact .inl ⟨early, List.mem_cons_of_mem _ emitted⟩
  | dispatch path r inbox head => exact .inl ⟨early, emitted⟩
  | callReturns req pc _ => exact .inl ⟨rfl, emitted⟩
  | createProxy req pc => exact .inl ⟨rfl, emitted⟩
  | registerHandler req pc =>
    exact .inr ((lost_step h taken).2 (.inr fun inTime => inTime emitted))
  | callFails req pc => cases works
  | requestScreenCast pc | send req pc | wake req r pc answered | openFails pc | openRemote fd pc =>
    rw [pc] at early
    cases early

theorem not_idle_of_doomed (doomed : s.Doomed) : s.pc ≠ .idle := by
  intro idle
  rcases doomed with ⟨early, -⟩ | ⟨⟨req, pc⟩, -⟩
  · rw [idle] at early
    cases early
  · rw [idle] at pc
    cases pc

end Steps

/-- Some run in which no method call fails leads out of `RequestScreenCast`. -/
def Ends (s : State) : Prop :=
  ∃ as t, (∀ a ∈ as, a.fails = false) ∧ Transition.Run step s as t ∧ t.pc = .idle

/-- From every reachable state `RequestScreenCast` can return unless a response came too early. -/
theorem ends_iff (unique : String) {s : State} {as : List Action}
    (reached : Transition.Run step (connect unique) as s) : s.Ends ↔ ¬ s.Doomed := by
  have invariant : s.Invariant ∧ (s.pc.sent → s.path ∈ s.asked) := Transition.Reachable.invariant
    (I := fun s => s.Invariant ∧ (s.pc.sent → s.path ∈ s.asked))
    (fun s a s' h taken => ⟨invariant_step h.1 taken, asks_step h.2 taken⟩)
    ⟨invariant_connect unique, nofun⟩ ⟨as, reached⟩
  constructor
  · rintro ⟨bs, t, works, run, idle⟩ doomed
    have each : Transition.Each step (fun _ a => a.fails = false) s bs :=
      Transition.each_of_forall fun a ha _ => works a ha
    have both : t.Invariant ∧ t.Doomed := (Transition.always_of_each
      (I := fun t => t.Invariant ∧ t.Doomed)
      (fun s a s' h ok taken => ⟨invariant_step h.1 taken, doomed_step h.1 h.2 ok taken⟩)
      ⟨invariant.1, doomed⟩ each).last run
    exact not_idle_of_doomed both.2 idle
  · exact fun free => Transition.reaches_of_rank (I := Ending) left
      (fun _ h busy => h.progress busy) ⟨invariant.1, invariant.2, free⟩

/-- The call of the first request is on its way. -/
theorem ends_iff_sent :
    ∃ s, Transition.Run step (connect ":1.42") [.requestScreenCast, .send] s ∧ s.Ends := by
  have reached : Transition.Run step (connect ":1.42") [.requestScreenCast, .send] _ := rfl
  refine ⟨_, reached, (ends_iff ":1.42" reached).2 ?_⟩
  rintro (⟨-, emitted⟩ | ⟨⟨req, pc⟩, -⟩)
  · cases emitted
  · cases pc

end State

end SmoothDemon.PortalHandshake
