import Mathlib.Data.List.Basic
import SmoothDemon.Capture.PortalSession
import SmoothDemon.Library.Run

/-!
# The handshake with the portal

`RequestScreenCast` as the portal and the bus see it.  For each request the client issues the method
call, creates a proxy for the request path, registers a handler for its `Response` and waits.  The
portal may respond from the moment it has the call, and the bus delivers a signal only to a client
that is subscribed to its path.  A response that comes before the handler is lost
(`lost_early_response`) and the client waits for it forever (`lost_forever`); no response is lost
iff every handler is in place when the response is emitted (`never_lost_iff`).
-/

namespace SmoothDemon.PortalHandshake

/-- Where the thread in `RequestScreenCast` stands. -/
inductive Pc
  | idle
  | call (req : Request)
  | calling (req : Request)
  | createProxy (req : Request)
  | registerHandler (req : Request)
  | waiting (req : Request)
  | openRemote
  deriving DecidableEq

/-- `path` is the request path in use, `handler` the path whose `Response` the client is subscribed
to, `promise` what its future holds.  `calls` are on their way to the portal, `received` are those
it has to respond to, `emitted` those it has responded to, and `inbox` the signals the bus has
delivered. -/
structure State where
  sender : String := ""
  counter : ℕ := 0
  session : PortalSession := {}
  pc : Pc := .idle
  path : String := ""
  handler : Option String := none
  promise : Option Response := none
  calls : List String := []
  received : List String := []
  emitted : List String := []
  inbox : List (String × Response) := []

inductive Action
  | requestScreenCast
  | send
  | receive (path : String)
  | callReturns (succeeds : Bool)
  | createProxy
  | registerHandler
  | emit (path : String) (r : Response)
  | dispatch
  | wake
  | openRemote (result : Option (Option ℕ))

namespace State

/-- After the constructor, on a connection the bus calls `unique`. -/
def connect (unique : String) : State := { sender := uniqueNameToSender unique }

variable (s : State)

/-- A new token and path for the next request. -/
def ask (req : Request) : State :=
  { s with
    counter := s.counter + 1
    path := makeRequestPath s.sender (makeToken req.tag (s.counter + 1))
    pc := .call req }

/-- `fut.get()` returns `r`, the proxy goes away, and `RequestScreenCast` continues. -/
def resume (req : Request) (r : Response) : State :=
  let s := { s with handler := none, promise := none }
  match s.session.onResponse req r with
  | none => { s with pc := .idle }
  | some session =>
    let s := { s with session := session }
    match req with
    | .createSession => s.ask .selectSources
    | .selectSources => s.ask .start
    | .start => { s with pc := .openRemote }

def step : Action → Option State
  | .requestScreenCast =>
    match s.pc with
    | .idle =>
      -- the session token takes a number too
      let s := s.ask .createSession
      some { s with counter := s.counter + 1 }
    | _ => none
  | .send =>
    match s.pc with
    | .call req => some { s with calls := s.path :: s.calls, pc := .calling req }
    | _ => none
  | .receive path =>
    if path ∈ s.calls then
      some { s with calls := s.calls.erase path, received := path :: s.received }
    else none
  | .callReturns succeeds =>
    match s.pc, succeeds with
    | .calling req, true =>
      if s.path ∈ s.calls then none else some { s with pc := .createProxy req }
    | .calling _, false => some { s with pc := .idle }
    | _, _ => none
  | .createProxy =>
    match s.pc with
    | .createProxy req => some { s with pc := .registerHandler req }
    | _ => none
  | .registerHandler =>
    match s.pc with
    | .registerHandler req => some { s with handler := some s.path, pc := .waiting req }
    | _ => none
  | .emit path r =>
    if path ∈ s.received then
      some { s with
        received := s.received.erase path
        emitted := path :: s.emitted
        inbox := if s.handler = some path then s.inbox ++ [(path, r)] else s.inbox }
    else none
  | .dispatch =>
    match s.inbox with
    | [] => none
    | (path, r) :: inbox =>
      some { s with
        inbox := inbox
        promise := if s.handler = some path then some r else s.promise }
  | .wake =>
    match s.pc, s.promise with
    | .waiting req, some r => some (s.resume req r)
    | _, _ => none
  | .openRemote result =>
    match s.pc, result with
    | .openRemote, none => some { s with pc := .idle }
    | .openRemote, some fd => some { s with session := s.session.storeFd fd, pc := .idle }
    | _, _ => none

/-- What each action can do. -/
inductive Moves (s : State) : Action → State → Prop
  | requestScreenCast (pc : s.pc = .idle) :
    Moves s .requestScreenCast { s.ask .createSession with counter := s.counter + 1 + 1 }
  | send (req : Request) (pc : s.pc = .call req) :
    Moves s .send { s with calls := s.path :: s.calls, pc := .calling req }
  | receive (path : String) (called : path ∈ s.calls) :
    Moves s (.receive path)
      { s with calls := s.calls.erase path, received := path :: s.received }
  | callReturns (req : Request) (pc : s.pc = .calling req) (received : s.path ∉ s.calls) :
    Moves s (.callReturns true) { s with pc := .createProxy req }
  | callFails (req : Request) (pc : s.pc = .calling req) :
    Moves s (.callReturns false) { s with pc := .idle }
  | createProxy (req : Request) (pc : s.pc = .createProxy req) :
    Moves s .createProxy { s with pc := .registerHandler req }
  | registerHandler (req : Request) (pc : s.pc = .registerHandler req) :
    Moves s .registerHandler { s with handler := some s.path, pc := .waiting req }
  | emit (path : String) (r : Response) (received : path ∈ s.received) :
    Moves s (.emit path r) { s with
      received := s.received.erase path
      emitted := path :: s.emitted
      inbox := if s.handler = some path then s.inbox ++ [(path, r)] else s.inbox }
  | dispatch (path : String) (r : Response) (inbox : List (String × Response))
      (head : s.inbox = (path, r) :: inbox) :
    Moves s .dispatch { s with
      inbox := inbox
      promise := if s.handler = some path then some r else s.promise }
  | wake (req : Request) (r : Response) (pc : s.pc = .waiting req) (answered : s.promise = some r) :
    Moves s .wake (s.resume req r)
  | openFails (pc : s.pc = .openRemote) : Moves s (.openRemote none) { s with pc := .idle }
  | openRemote (fd : Option ℕ) (pc : s.pc = .openRemote) :
    Moves s (.openRemote (some fd)) { s with session := s.session.storeFd fd, pc := .idle }

theorem moves_of_step {s s' : State} {a : Action} (taken : s.step a = some s') : s.Moves a s' := by
  cases a with
  | callReturns succeeds =>
    simp only [step] at taken
    split at taken
    · next req pc =>
      split at taken <;> cases taken
      next received => exact .callReturns req pc received
    · next req pc =>
      cases taken
      exact .callFails req pc
    · cases taken
  | dispatch =>
    simp only [step] at taken
    split at taken <;> cases taken
    next path r inbox head => exact .dispatch path r inbox head
  | wake =>
    simp only [step] at taken
    split at taken <;> cases taken
    next req r pc answered => exact .wake req r pc answered
  | openRemote result =>
    simp only [step] at taken
    split at taken <;> cases taken
    · next pc => exact .openFails pc
    · next fd pc => exact .openRemote fd pc
  | _ =>
    simp only [step] at taken
    split at taken <;> cases taken
    constructor
    assumption

/-- The client waits for a response that was emitted and neither reached it nor is on its way. -/
def Lost (s : State) : Prop :=
  (∃ req, s.pc = .waiting req) ∧ s.path ∈ s.emitted ∧ s.promise = none ∧
    ∀ r, (s.path, r) ∉ s.inbox

/-- The handler of a request is registered before its response is emitted. -/
def InTime (s : State) : Action → Prop
  | .registerHandler => s.path ∉ s.emitted
  | _ => True

/-- The requests the portal has been sent. -/
def asked : List String := s.calls ++ (s.received ++ s.emitted)

/-- The path carries a number that was given out. -/
def Numbered (path : String) : Prop :=
  ∃ (req : Request) (n : ℕ), n ≤ s.counter ∧ path = makeRequestPath s.sender (makeToken req.tag n)

def Unsubscribed : Prop := s.handler = none ∧ s.promise = none

/-- What the client knows at each point of `RequestScreenCast`. -/
def ClientAt : Pc → Prop
  | .idle | .openRemote => s.Unsubscribed
  | .call _ => s.Unsubscribed ∧ s.Numbered s.path ∧ s.path ∉ s.asked
  | .calling _ | .createProxy _ | .registerHandler _ =>
    s.Unsubscribed ∧ ∀ r, (s.path, r) ∉ s.inbox
  | .waiting _ => s.handler = some s.path

structure Invariant (s : State) : Prop where
  numbered : ∀ path ∈ s.asked, s.Numbered path
  once : s.asked.Nodup
  delivered : ∀ path r, (path, r) ∈ s.inbox → path ∈ s.emitted
  client : s.ClientAt s.pc

section Step

variable {s s' : State} {a : Action}

theorem Numbered.mono {path : String} (h : s.Numbered path) (sender : s'.sender = s.sender)
    (counter : s.counter ≤ s'.counter) : s'.Numbered path := by
  obtain ⟨req, n, le, same⟩ := h
  exact ⟨req, n, Nat.le_trans le counter, by rw [sender, same]⟩

theorem invariant_connect (unique : String) : (connect unique).Invariant where
  numbered := by simp [asked, connect]
  once := by simp [asked, connect]
  delivered := by simp [connect]
  client := ⟨rfl, rfl⟩

/-- The path of the next request was never used. -/
theorem Invariant.fresh (h : s.Invariant) (req : Request) :
    makeRequestPath s.sender (makeToken req.tag (s.counter + 1)) ∉ s.asked := by
  intro used
  obtain ⟨req', n, le, same⟩ := h.numbered _ used
  have number : s.counter + 1 = n := makeToken_injective (makeRequestPath_injective same)
  omega

theorem Invariant.ask (h : s.Invariant) (off : s.Unsubscribed) (req : Request) :
    (s.ask req).Invariant where
  numbered := fun path used => (h.numbered path used).mono rfl (Nat.le_succ _)
  once := h.once
  delivered := h.delivered
  client := ⟨off, ⟨req, s.counter + 1, Nat.le_refl _, rfl⟩, h.fresh req⟩

/-- What the portal and the bus do while the client stays where it is: requests change hands, and a
client that is not subscribed gets nothing. -/
structure Elsewhere (s s' : State) : Prop where
  pc : s'.pc = s.pc
  path : s'.path = s.path
  handler : s'.handler = s.handler
  sender : s'.sender = s.sender
  counter : s.counter ≤ s'.counter
  asked : s'.asked.Perm s.asked
  emitted : s.emitted ⊆ s'.emitted
  inbox : ∀ m ∈ s'.inbox, m ∈ s.inbox ∨ s.handler = some m.1 ∧ m.1 ∈ s'.emitted
  promise : s.handler = none → s'.promise = s.promise

/-- Handing a request on from one list to the next. -/
theorem perm_handOn {path : String} {source target : List String} (mem : path ∈ source) :
    (source.erase path ++ path :: target).Perm (source ++ target) := by
  have back : (path :: source.erase path).Perm source := (List.perm_cons_erase mem).symm
  exact List.perm_middle.trans (back.append_right target)

theorem elsewhere_receive {path : String} (called : path ∈ s.calls) :
    Elsewhere s { s with calls := s.calls.erase path, received := path :: s.received } :=
  ⟨rfl, rfl, rfl, rfl, Nat.le_refl _, perm_handOn called, List.Subset.refl _, fun _ => .inl,
    fun _ => rfl⟩

theorem elsewhere_emit {path : String} (r : Response) (received : path ∈ s.received) :
    Elsewhere s { s with
      received := s.received.erase path
      emitted := path :: s.emitted
      inbox := if s.handler = some path then s.inbox ++ [(path, r)] else s.inbox } := by
  refine ⟨rfl, rfl, rfl, rfl, Nat.le_refl _, (perm_handOn received).append_left _,
    List.subset_cons_self _ _, fun m hm => ?_, fun _ => rfl⟩
  simp only at hm ⊢
  split_ifs at hm with subscribed
  · rw [List.mem_append, List.mem_singleton] at hm
    rcases hm with old | rfl
    · exact .inl old
    · exact .inr ⟨subscribed, List.mem_cons_self⟩
  · exact .inl hm

theorem elsewhere_dispatch {path : String} {r : Response} {inbox : List (String × Response)}
    (head : s.inbox = (path, r) :: inbox) :
    Elsewhere s { s with
      inbox := inbox
      promise := if s.handler = some path then some r else s.promise } := by
  refine ⟨rfl, rfl, rfl, rfl, Nat.le_refl _, List.Perm.refl _, List.Subset.refl _,
    fun m hm => ?_, fun off => by simp [off]⟩
  rw [head]
  exact .inl (List.mem_cons_of_mem _ hm)

/-- `make_token("session")` takes a number. -/
theorem elsewhere_token : Elsewhere s { s with counter := s.counter + 1 } :=
  ⟨rfl, rfl, rfl, rfl, Nat.le_succ _, List.Perm.refl _, List.Subset.refl _, fun _ => .inl,
    fun _ => rfl⟩

theorem Invariant.elsewhere (h : s.Invariant) (moved : Elsewhere s s') : s'.Invariant where
  numbered := fun path used =>
    (h.numbered path (moved.asked.subset used)).mono moved.sender moved.counter
  once := moved.asked.nodup_iff.2 h.once
  delivered := by
    intro path r arrived
    rcases moved.inbox _ arrived with old | ⟨-, emitted⟩
    · exact moved.emitted (h.delivered path r old)
    · exact emitted
  client := by
    have off : s.Unsubscribed → s'.Unsubscribed := fun ⟨handler, promise⟩ =>
      ⟨moved.handler.trans handler, (moved.promise handler).trans promise⟩
    have client := h.client
    rw [moved.pc]
    cases at_ : s.pc with
    | idle =>
      rw [at_] at client
      exact off client
    | openRemote =>
      rw [at_] at client
      exact off client
    | call req =>
      rw [at_] at client
      obtain ⟨quiet, numbered, unused⟩ := client
      refine ⟨off quiet, ?_, fun used => ?_⟩
      · rw [moved.path]
        exact numbered.mono moved.sender moved.counter
      · rw [moved.path] at used
        exact unused (moved.asked.subset used)
    | waiting req =>
      rw [at_] at client
      exact moved.handler.trans (client.trans (congrArg some moved.path.symm))
    | _ =>
      rw [at_] at client
      refine ⟨off client.1, fun r arrived => ?_⟩
      rw [moved.path] at arrived
      rcases moved.inbox _ arrived with old | ⟨subscribed, -⟩
      · exact client.2 r old
      · rw [client.1.1] at subscribed
        cases subscribed

theorem invariant_resume (h : s.Invariant) (req : Request) (r : Response) :
    (s.resume req r).Invariant := by
  have off (session : PortalSession) : State.Invariant { s with
      handler := none, promise := none, session := session, pc := .idle } :=
    ⟨h.numbered, h.once, h.delivered, ⟨rfl, rfl⟩⟩
  unfold resume
  dsimp only
  split
  · exact off _
  · rename_i session _
    cases req with
    | createSession => exact (off session).ask ⟨rfl, rfl⟩ .selectSources
    | selectSources => exact (off session).ask ⟨rfl, rfl⟩ .start
    | start => exact ⟨h.numbered, h.once, h.delivered, ⟨rfl, rfl⟩⟩

theorem invariant_step (h : s.Invariant) (taken : s.step a = some s') : s'.Invariant := by
  have client := h.client
  cases moves_of_step taken with
  | requestScreenCast pc =>
    rw [pc] at client
    exact (h.ask client .createSession).elsewhere elsewhere_token
  | send req pc =>
    rw [pc] at client
    obtain ⟨off, numbered, unused⟩ := client
    refine ⟨fun path used => ?_, List.nodup_cons.2 ⟨unused, h.once⟩, h.delivered, off,
      fun r arrived => ?_⟩
    · rcases List.mem_cons.1 used with rfl | old
      · exact numbered
      · exact h.numbered path old
    · exact unused (List.mem_append_right _ (List.mem_append_right _ (h.delivered _ r arrived)))
  | receive path called => exact h.elsewhere (elsewhere_receive called)
  | callFails req pc =>
    rw [pc] at client
    exact ⟨h.numbered, h.once, h.delivered, client.1⟩
  | registerHandler req pc => exact ⟨h.numbered, h.once, h.delivered, rfl⟩
  | emit path r received => exact h.elsewhere (elsewhere_emit r received)
  | dispatch path r inbox head => exact h.elsewhere (elsewhere_dispatch head)
  | wake req r pc answered => exact invariant_resume h req r
  | callReturns req pc _ | createProxy req pc | openFails pc | openRemote fd pc =>
    rw [pc] at client
    exact ⟨h.numbered, h.once, h.delivered, client⟩

theorem not_lost_resume (req : Request) (r : Response) : ¬ (s.resume req r).Lost := by
  rintro ⟨⟨req', waiting⟩, -⟩
  unfold resume at waiting
  dsimp only at waiting
  split at waiting
  · cases waiting
  · cases req <;> cases waiting

theorem not_lost_of_pc (elsewhere : ∀ req, s.pc ≠ .waiting req) : ¬ s.Lost := by
  rintro ⟨⟨req, waiting⟩, -⟩
  exact elsewhere req waiting

theorem Invariant.subscribed (h : s.Invariant) (waiting : ∃ req, s.pc = .waiting req) :
    s.handler = some s.path := by
  obtain ⟨req, pc⟩ := waiting
  have client := h.client
  rw [pc] at client
  exact client

/-- The response of the request in use is still to come, so that it reaches the client. -/
theorem lost_emit (h : s.Invariant) {path : String} (r : Response) (received : path ∈ s.received) :
    Lost { s with
      received := s.received.erase path
      emitted := path :: s.emitted
      inbox := if s.handler = some path then s.inbox ++ [(path, r)] else s.inbox } ↔ s.Lost := by
  by_cases waiting : ∃ req, s.pc = .waiting req
  · have subscribed := h.subscribed waiting
    by_cases current : path = s.path
    · subst current
      have pending : s.path ∉ s.emitted := by
        have once : (s.received ++ s.emitted).Nodup := (List.nodup_append.1 h.once).2.1
        exact fun emitted => (List.nodup_append.1 once).2.2 _ received _ emitted rfl
      refine iff_of_false (fun lost => ?_) fun lost => pending lost.2.1
      exact lost.2.2.2 r (by simp [subscribed])
    · have other : s.handler ≠ some path := fun eq =>
        current (Option.some.inj (eq.symm.trans subscribed))
      simp [Lost, other, Ne.symm current]
  · exact iff_of_false (fun lost => waiting lost.1) fun lost => waiting lost.1

theorem lost_dispatch (h : s.Invariant) {path : String} {r : Response}
    {inbox : List (String × Response)} (head : s.inbox = (path, r) :: inbox) :
    Lost { s with
      inbox := inbox
      promise := if s.handler = some path then some r else s.promise } ↔ s.Lost := by
  by_cases waiting : ∃ req, s.pc = .waiting req
  · have subscribed := h.subscribed waiting
    by_cases current : path = s.path
    · subst current
      refine iff_of_false (fun lost => ?_) fun lost => lost.2.2.2 r (by simp [head])
      exact absurd lost.2.2.1 (by simp [subscribed])
    · simp [Lost, subscribed, head, Ne.symm current]
  · exact iff_of_false (fun lost => waiting lost.1) fun lost => waiting lost.1

/-- A response goes missing exactly when its handler is registered too late, and then for good. -/
theorem lost_step (h : s.Invariant) (taken : s.step a = some s') :
    s'.Lost ↔ s.Lost ∨ ¬ s.InTime a := by
  have inTime : s.InTime a → (s'.Lost ↔ s.Lost) → (s'.Lost ↔ s.Lost ∨ ¬ s.InTime a) :=
    fun ok same => by simp [ok, same]
  cases moves_of_step taken with
  | registerHandler req pc =>
    have client := h.client
    rw [pc] at client
    obtain ⟨off, unheard⟩ := client
    simp [Lost, InTime, pc, off.2, unheard]
  | receive path called => exact inTime trivial Iff.rfl
  | emit path r received => exact inTime trivial (lost_emit h r received)
  | dispatch path r inbox head => exact inTime trivial (lost_dispatch h head)
  | wake req r pc answered =>
    refine inTime trivial (iff_of_false (not_lost_resume req r) fun lost => ?_)
    rw [lost.2.2.1] at answered
    cases answered
  | requestScreenCast pc | send req pc | callReturns req pc _ | callFails req pc
  | createProxy req pc | openFails pc | openRemote fd pc =>
    -- the client waits neither before nor after the step
    exact inTime trivial (iff_of_false (not_lost_of_pc nofun) (not_lost_of_pc (by simp [pc])))

end Step

/-- In a run no response is lost iff every handler is registered before its response is emitted. -/
theorem never_lost_iff (unique : String) (as : List Action) :
    Transition.Always step (fun s => ¬ s.Lost) (connect unique) as ↔
      Transition.Each step InTime (connect unique) as := by
  have exact_step (s : State) (a : Action) (s' : State) (h : s.Invariant) (kept : ¬ s.Lost)
      (taken : s.step a = some s') : ¬ s'.Lost ↔ s.InTime a := by
    simp [lost_step h taken, kept]
  have kept : ¬ (connect unique).Lost := by
    rintro ⟨⟨req, ⟨⟩⟩, -⟩
  have both : Transition.Always step (fun s => ¬ s.Lost) (connect unique) as ↔
      ¬ (connect unique).Lost ∧ Transition.Each step InTime (connect unique) as :=
    Transition.always_iff_each (fun _ _ _ => invariant_step) exact_step (invariant_connect unique)
  exact both.trans (and_iff_right kept)

/-- The client that lost a response waits for it whatever happens next. -/
theorem lost_forever {unique : String} {s t : State} {as bs : List Action}
    (reached : Transition.Run step (connect unique) as s) (lost : s.Lost)
    (rest : Transition.Run step s bs t) : t.Lost := by
  have invariant : s.Invariant := Transition.Reachable.invariant
    (fun _ _ _ => invariant_step) (invariant_connect unique) ⟨as, reached⟩
  have both : t.Invariant ∧ t.Lost := Transition.Reachable.invariant
    (I := fun t => t.Invariant ∧ t.Lost)
    (fun s a s' h taken => ⟨invariant_step h.1 taken, (lost_step h.1 taken).2 (.inl h.2)⟩)
    ⟨invariant, lost⟩ ⟨bs, rest⟩
  exact both.2

/-- The portal answers `CreateSession` at once, before the client has registered its handler. -/
def answeredAtOnce (unique : String) : List Action :=
  let path := makeRequestPath (uniqueNameToSender unique) (makeToken "create" 1)
  [.requestScreenCast, .send, .receive path, .emit path { code := 0 }, .callReturns true,
    .createProxy, .registerHandler]

theorem lost_answeredAtOnce (unique : String) :
    ∃ t, Transition.Run step (connect unique) (answeredAtOnce unique) t ∧ t.Lost := by
  simp [answeredAtOnce, Transition.run_cons, step, connect, ask, Request.tag, Lost]

theorem lost_early_response :
    ¬ ∀ (unique : String) (as : List Action) (t : State),
      Transition.Run step (connect unique) as t → ¬ t.Lost := by
  intro claim
  obtain ⟨t, run, lost⟩ := lost_answeredAtOnce ":1.42"
  exact claim ":1.42" (answeredAtOnce ":1.42") t run lost

end State

end SmoothDemon.PortalHandshake
