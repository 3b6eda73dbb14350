import SmoothDemon.Capture.PipeWireCapture
import SmoothDemon.Library.Ledger

/-!
# The handles of a capture

What each step of `Start` and `Stop` does to the handles an object owns, and from that what a whole
`Start` or `Stop` does: a `Start` into an object that still has a main loop loses it, one that fails
in `pw_context_connect_fd` closes a descriptor twice, every other loses nothing, and neither does a
`Stop`.
-/

namespace SmoothDemon.PipeWireCapture

open Custody

def Resource.id : Resource → ℕ
  | .mainLoop id | .context id | .core id | .stream id | .fd id => id

def Call.handle? : Call → Option (Event Resource)
  | .create r => some (.acquire r)
  | .destroy r => some (.release r)
  | _ => none

namespace State

/-- The handles created and destroyed so far, newest first. -/
def ledger (s : State) : List (Event Resource) := s.trace.filterMap Call.handle?

/-- The handle is stored in the object, or in the local `dup_fd` of a running `Start`. -/
def Holds (s : State) : Resource → Prop
  | .mainLoop id => s.impl.loop = some id
  | .context id => s.impl.ctx = some id
  | .core id => ∃ core, s.impl.core = some core ∧ core.id = id
  | .stream id => s.impl.stream = some id
  | .fd id => s.dupFd = some id ∨ ∃ core, s.impl.core = some core ∧ core.fd = id

structure Owned (s : State) : Prop where
  sound : Sound s.Holds s.ledger
  ids : ∀ r, .acquire r ∈ s.ledger → r.id < s.next

def AccountsFor (s : State) : Prop := Accounted s.Holds s.ledger

/-- How `new` handle events lead from `s` to `s'`. -/
structure Change (s s' : State) (new : List (Event Resource)) : Prop where
  ledger : s'.ledger = new ++ s.ledger
  moves : Moves s.Holds s.ledger s'.Holds new
  next : s.next ≤ s'.next
  ids : ∀ r, .acquire r ∈ new → r.id < s'.next

section Change

variable {s s' : State} {new : List (Event Resource)}

theorem Change.owned (h : s.Owned) (c : Change s s' new) : s'.Owned where
  sound := c.ledger ▸ c.moves.sound h.sound
  ids r hr := by
    rw [c.ledger, List.mem_append] at hr
    exact hr.elim (c.ids r) fun old => Nat.lt_of_lt_of_le (h.ids r old) c.next

theorem Change.accountsFor (h : s.Owned) (c : Change s s' new)
    (careful : Careful s.Holds s'.Holds new) (before : s.AccountsFor) : s'.AccountsFor := by
  unfold AccountsFor
  rw [c.ledger]
  exact c.moves.accounted h.sound careful before

theorem Change.accountsFor_of_after (c : Change s s' new) (after : s'.AccountsFor) :
    s.AccountsFor := by
  unfold AccountsFor at after
  rw [c.ledger] at after
  exact c.moves.accounted_of_accounted after

theorem Change.keep (ledger : s'.ledger = s.ledger) (next : s.next ≤ s'.next)
    (less : ∀ r, s'.Holds r → s.Holds r) : Change s s' [] :=
  ⟨ledger, .keep less, next, nofun⟩

theorem Change.create (h : s.Owned) {r : Resource} (id : r.id = s.next)
    (ledger : s'.ledger = .acquire r :: s.ledger) (next : s'.next = s.next + 1)
    (more : ∀ q, s'.Holds q → s.Holds q ∨ q = r) : Change s s' [.acquire r] := by
  refine ⟨ledger, .acquire (fun old => ?_) more, by omega, fun q hq => ?_⟩
  · have := h.ids r old
    omega
  · obtain rfl : q = r := by simpa using hq
    omega

end Change

/-- The field a step writes to is empty. -/
def Vacant (s : State) : StartStep → Prop
  | .create .mainLoop => s.impl.loop = none
  | .create .context => s.impl.ctx = none
  | .create .dup => s.dupFd = none
  | .create .connectFd => s.impl.core = none
  | .create .stream => s.impl.stream = none
  | .create .streamConnect => True
  | .setupRecycler => True
  | .spawnLoopThread => s.impl.loopThread = false

section Steps

variable {s : State}

theorem change_succeed (h : s.Owned) (c : Creation) :
    ∃ new, Change s (s.succeed c) new ∧
      (s.Vacant (.create c) → Careful s.Holds (s.succeed c).Holds new) := by
  cases c with
  | mainLoop =>
    refine ⟨_, .create h (r := .mainLoop s.next) rfl rfl rfl fun q hq => ?_, fun vacant q hq => ?_⟩
    · cases q <;> simp_all [succeed, newMainLoop, create, Holds]
    · cases q <;> simp_all [succeed, newMainLoop, create, Holds, Vacant]
  | context =>
    refine ⟨_, .create h (r := .context s.next) rfl rfl rfl fun q hq => ?_, fun vacant q hq => ?_⟩
    · cases q <;> simp_all [succeed, newContext, create, Holds]
    · cases q <;> simp_all [succeed, newContext, create, Holds, Vacant]
  | dup =>
    refine ⟨_, .create h (r := .fd s.next) rfl rfl rfl fun q hq => ?_, fun vacant q hq => ?_⟩
    · cases q <;> simp_all [succeed, dup, create, Holds]
      grind
    · cases q <;> simp_all [succeed, dup, create, Holds, Vacant]
      grind
  | connectFd =>
    cases hd : s.dupFd with
    | none =>
      have same : s.succeed .connectFd = s := by simp [succeed, connectFd, hd]
      rw [same]
      exact ⟨[], .keep rfl (Nat.le_refl _) fun _ => id, fun _ _ hq => hq.imp_right nofun⟩
    | some fd =>
      have same : s.succeed .connectFd = { s.create (.core s.next) with
          impl := { s.impl with core := some { id := s.next, fd := fd } }, dupFd := none } := by
        simp [succeed, connectFd, hd]
      rw [same]
      refine ⟨_, .create h (r := .core s.next) rfl rfl rfl fun q hq => ?_, fun vacant q hq => ?_⟩
      · cases q <;> simp_all [create, Holds]
      · cases q <;> simp_all [create, Holds, Vacant]
  | stream =>
    refine ⟨_, .create h (r := .stream s.next) rfl rfl rfl fun q hq => ?_, fun vacant q hq => ?_⟩
    · cases q <;> simp_all [succeed, newStream, create, Holds]
    · cases q <;> simp_all [succeed, newStream, create, Holds, Vacant]
  | streamConnect =>
    exact ⟨[], .keep rfl (Nat.le_refl _) fun _ => id, fun _ _ hq => hq.imp_right nofun⟩

theorem change_execStart (h : s.Owned) (step : StartStep) :
    ∃ new, Change s (s.execStart step) new ∧
      (s.Vacant step → Careful s.Holds (s.execStart step).Holds new) := by
  cases step with
  | create c => exact change_succeed h c
  | setupRecycler =>
    have same : s.setupRecycler.Holds = s.Holds := by
      funext r
      cases r <;> rfl
    refine ⟨[], .keep rfl (Nat.le_succ _) fun r => same ▸ id, fun _ r hr => ?_⟩
    exact .inl (same ▸ hr.resolve_right nofun)
  | spawnLoopThread =>
    have same : s.spawnLoopThread.Holds = s.Holds := by
      funext r
      unfold spawnLoopThread
      cases r <;> split_ifs <;> rfl
    have ledger : s.spawnLoopThread.ledger = s.ledger := by
      unfold spawnLoopThread
      split_ifs <;> rfl
    have next : s.spawnLoopThread.next = s.next := by
      unfold spawnLoopThread
      split_ifs <;> rfl
    refine ⟨[], .keep ledger (Nat.le_of_eq next.symm) fun r => same ▸ id, fun _ r hr => ?_⟩
    exact .inl (same ▸ hr.resolve_right nofun)

/-- The handles `pw_context_connect_fd` and `Start` close between them when it fails. -/
theorem change_connectFdFails {fd : ℕ} (hd : s.dupFd = some fd) :
    Change s s.connectFdFails [.release (.fd fd), .release (.fd fd)] := by
  have same : s.connectFdFails = { (s.call (.destroy (.fd fd))).call (.destroy (.fd fd)) with
      impl := { s.impl with core := none }, dupFd := none } := by
    simp [connectFdFails, hd]
  rw [same]
  refine ⟨rfl, ⟨by simp, fun r hr => ?_, fun r hr => ?_⟩, Nat.le_refl _, by simp⟩
  · obtain rfl : r = .fd fd := by simpa using hr
    simp [Holds, hd]
  · cases r <;> simp_all [call, Holds]

theorem change_fail (c : Creation) :
    ∃ new, Change s (s.fail c) new ∧
      (s.Vacant (.create c) → c ≠ .connectFd → Careful s.Holds (s.fail c).Holds new) := by
  cases c with
  | mainLoop =>
    refine ⟨[], .keep rfl (Nat.le_refl _) fun r => ?_, fun vacant _ r => ?_⟩
    · cases r <;> simp [fail, Holds]
    · cases r <;> simp_all [fail, Holds, Vacant]
  | context =>
    refine ⟨[], .keep rfl (Nat.le_refl _) fun r => ?_, fun vacant _ r => ?_⟩
    · cases r <;> simp [fail, Holds]
    · cases r <;> simp_all [fail, Holds, Vacant]
  | dup => exact ⟨[], .keep rfl (Nat.le_refl _) fun _ => id, fun _ _ r hr => hr.imp_right nofun⟩
  | connectFd =>
    cases hd : s.dupFd with
    | none =>
      have same : s.fail .connectFd = s := by simp [fail, connectFdFails, hd]
      rw [same]
      exact ⟨[], .keep rfl (Nat.le_refl _) fun _ => id, fun _ h => absurd rfl h⟩
    | some fd => exact ⟨_, change_connectFdFails hd, fun _ h => absurd rfl h⟩
  | stream =>
    refine ⟨[], .keep rfl (Nat.le_refl _) fun r => ?_, fun vacant _ r => ?_⟩
    · cases r <;> simp [fail, Holds]
    · cases r <;> simp_all [fail, Holds, Vacant]
  | streamConnect =>
    exact ⟨[], .keep rfl (Nat.le_refl _) fun _ => id, fun _ _ r hr => hr.imp_right nofun⟩

/-- Handing back the handles `rs`, each once. -/
theorem change_of_drop {s' : State} (rs : List Resource) (nodup : rs.Nodup)
    (ledger : s'.ledger = rs.map .release ++ s.ledger) (next : s'.next = s.next)
    (owned : ∀ r ∈ rs, s.Holds r) (held : ∀ r, s'.Holds r ↔ s.Holds r ∧ r ∉ rs) :
    ∃ new, Change s s' new ∧ Careful s.Holds s'.Holds new := by
  have acquired : ∀ r, .acquire r ∉ rs.map Event.release := by simp
  have released : ∀ r, .release r ∈ rs.map Event.release ↔ r ∈ rs := by simp
  refine ⟨rs.map .release, ⟨ledger, ⟨fun r hr => absurd hr (acquired r), fun r hr => ?_, ?_⟩,
    Nat.le_of_eq next.symm, fun r hr => absurd hr (acquired r)⟩, fun r hr => ?_⟩
  · rw [released] at hr
    exact ⟨owned r hr, fun now => ((held r).1 now).2 hr⟩
  · exact fun r hr => .inl ((held r).1 hr).1
  · have before : s.Holds r := hr.resolve_right (acquired r)
    by_cases mem : r ∈ rs
    · right
      rw [List.count_eq_one_of_mem (nodup.map fun a b => Event.release.inj)]
      exact (released r).2 mem
    · exact .inl ((held r).2 ⟨before, mem⟩)

theorem change_of_eq {s' : State} (ledger : s'.ledger = s.ledger) (next : s'.next = s.next)
    (held : s'.Holds = s.Holds) : ∃ new, Change s s' new ∧ Careful s.Holds s'.Holds new :=
  change_of_drop [] List.nodup_nil ledger next (by simp) (by simp [held])

theorem change_invoke (item : Item) :
    ∃ new, Change s (s.invoke item) new ∧ Careful s.Holds (s.invoke item).Holds new := by
  have held : (s.invoke item).Holds = s.Holds := by
    funext r
    unfold invoke
    cases item <;> split <;> cases r <;> rfl
  refine change_of_eq ?_ ?_ held
  · unfold invoke
    cases item <;> split <;> rfl
  · unfold invoke
    cases item <;> split <;> rfl

theorem change_execStop (idle : s.dupFd = none) (step : StopStep) :
    ∃ new, Change s (s.execStop step) new ∧ Careful s.Holds (s.execStop step).Holds new := by
  cases step with
  | invalidateRecycler =>
    simp only [execStop, invalidateRecycler]
    split
    · exact change_of_eq rfl rfl rfl
    · exact change_of_eq rfl rfl (by funext r; cases r <;> rfl)
  | invokeDeactivate =>
    simp only [execStop]
    split
    · exact change_invoke _
    · exact change_of_eq rfl rfl rfl
  | quitMainLoop =>
    simp only [execStop]
    split
    · exact change_of_eq rfl rfl rfl
    · exact change_invoke _
  | joinLoopThread =>
    simp only [execStop]
    split
    · exact change_of_eq rfl rfl (by funext r; cases r <;> rfl)
    · exact change_of_eq rfl rfl rfl
  | destroyStream =>
    simp only [execStop]
    split
    · exact change_of_eq rfl rfl rfl
    · next stream there =>
      refine change_of_drop [.stream stream] (by simp) rfl rfl (by simp [Holds, there]) fun r => ?_
      cases r <;> simp [Holds, call, there, eq_comm]
  | disconnectCore =>
    simp only [execStop]
    split
    · exact change_of_eq rfl rfl rfl
    · next core there =>
      refine change_of_drop [.fd core.fd, .core core.id] (by simp) rfl rfl (by simp [Holds, there])
        fun r => ?_
      cases r <;> simp [Holds, call, there, idle, eq_comm]
  | destroyContext =>
    simp only [execStop]
    split
    · exact change_of_eq rfl rfl rfl
    · next ctx there =>
      refine change_of_drop [.context ctx] (by simp) rfl rfl (by simp [Holds, there]) fun r => ?_
      cases r <;> simp [Holds, call, there, eq_comm]
  | destroyMainLoop =>
    simp only [execStop]
    split
    · exact change_of_eq rfl rfl rfl
    · next loop there =>
      refine change_of_drop [.mainLoop loop] (by simp) rfl rfl (by simp [Holds, there]) fun r => ?_
      cases r <;> simp [Holds, call, there, eq_comm]
  | clearStreaming => exact change_of_eq rfl rfl (by funext r; cases r <;> rfl)

/-! ### Start -/

theorem vacant_execStart {step other : StartStep} (apart : step ≠ other) (h : s.Vacant other) :
    (s.execStart step).Vacant other := by
  cases step with
  | create c =>
    cases c with
    | connectFd =>
      simp only [execStart, succeed, connectFd]
      split
      · exact h
      · cases other with
        | create c => cases c <;> first | exact absurd rfl apart | exact h | exact rfl
        | setupRecycler => trivial
        | spawnLoopThread => exact h
    | _ =>
      cases other with
      | create c => cases c <;> first | exact absurd rfl apart | exact h
      | setupRecycler => trivial
      | spawnLoopThread => exact h
  | setupRecycler =>
    cases other with
    | create c => cases c <;> exact h
    | setupRecycler => trivial
    | spawnLoopThread => exact h
  | spawnLoopThread =>
    simp only [execStart, spawnLoopThread]
    split
    · cases other with
      | create c => cases c <;> exact h
      | setupRecycler => trivial
      | spawnLoopThread => exact h
    · cases other with
      | create c => cases c <;> exact h
      | setupRecycler => trivial
      | spawnLoopThread => exact absurd rfl apart

variable {fault : Option Creation}

theorem startFrom_create (c : Creation) (rest : List StartStep) :
    s.startFrom fault (.create c :: rest) =
      if fault = some c then (s.fail c, false) else (s.succeed c).startFrom fault rest := rfl

/-- The rule for what every step of a `Start` keeps, failing ones included. -/
theorem startFrom_rule {P : State → Prop} (exec : ∀ s step, P s → P (s.execStart step))
    (fail : ∀ s c, P s → P (s.fail c)) (rest : List StartStep) (h : P s) :
    P (s.startFrom fault rest).1 := by
  induction rest generalizing s with
  | nil => exact h
  | cons step rest ih =>
    cases step with
    | create c =>
      rw [startFrom_create]
      split_ifs
      · exact fail s c h
      · exact ih (exec s (.create c) h)
    | setupRecycler => exact ih (exec s .setupRecycler h)
    | spawnLoopThread => exact ih (exec s .spawnLoopThread h)

theorem owned_startFrom (rest : List StartStep) (h : s.Owned) :
    (s.startFrom fault rest).1.Owned := by
  refine startFrom_rule (P := Owned) (fun s step h => ?_) (fun s c h => ?_) rest h
  · obtain ⟨new, change, -⟩ := change_execStart h step
    exact change.owned h
  · obtain ⟨new, change, -⟩ := change_fail (s := s) c
    exact change.owned h

theorem accountsFor_of_startFrom (rest : List StartStep) (h : s.Owned)
    (after : (s.startFrom fault rest).1.AccountsFor) : s.AccountsFor := by
  by_contra before
  have kept : (s.startFrom fault rest).1.Owned ∧ ¬ (s.startFrom fault rest).1.AccountsFor := by
    refine startFrom_rule (P := fun s => s.Owned ∧ ¬ s.AccountsFor) (fun s step h => ?_)
      (fun s c h => ?_) rest ⟨h, before⟩
    · obtain ⟨new, change, -⟩ := change_execStart h.1 step
      exact ⟨change.owned h.1, fun after => h.2 (change.accountsFor_of_after after)⟩
    · obtain ⟨new, change, -⟩ := change_fail (s := s) c
      exact ⟨change.owned h.1, fun after => h.2 (change.accountsFor_of_after after)⟩
  exact kept.2 after

theorem accountsFor_startFrom (rest : List StartStep) (nodup : rest.Nodup) (h : s.Owned)
    (vacant : ∀ step ∈ rest, s.Vacant step) (given : fault ≠ some .connectFd)
    (before : s.AccountsFor) : (s.startFrom fault rest).1.AccountsFor := by
  induction rest generalizing s with
  | nil => exact before
  | cons step rest ih =>
    obtain ⟨new, change, careful⟩ := change_execStart h step
    have room : s.Vacant step := vacant step List.mem_cons_self
    have go : ((s.execStart step).startFrom fault rest).1.AccountsFor := by
      refine ih nodup.of_cons (change.owned h) (fun other mem => ?_)
        (change.accountsFor h (careful room) before)
      have apart : step ≠ other := fun same => (List.nodup_cons.1 nodup).1 (same ▸ mem)
      exact vacant_execStart apart (vacant other (List.mem_cons_of_mem step mem))
    cases step with
    | create c =>
      rw [startFrom_create]
      split_ifs with failing
      · obtain ⟨new, change, careful⟩ := change_fail (s := s) c
        have safe : c ≠ .connectFd := fun same => given (same ▸ failing)
        exact change.accountsFor h (careful room safe) before
      · exact go
    | setupRecycler => exact go
    | spawnLoopThread => exact go

/-- A main loop still stored when `Start` creates the next one is lost. -/
theorem not_accountsFor_start (h : s.Owned) {loop : ℕ} (stored : s.impl.loop = some loop) :
    ¬ (s.start fault).1.AccountsFor := by
  have owned : s.Holds (.mainLoop loop) := stored
  have older : loop < s.next := h.ids (.mainLoop loop) (h.sound.acquired _ owned)
  unfold start startSteps
  rw [startFrom_create]
  split_ifs with failing
  · have lost : ¬ (s.fail .mainLoop).Holds (.mainLoop loop) := by simp [fail, Holds]
    show ¬ Accounted (s.fail .mainLoop).Holds ([] ++ s.ledger)
    exact h.sound.not_accounted owned lost (by simp)
  · have lost : ¬ s.newMainLoop.Holds (.mainLoop loop) := by
      simp only [newMainLoop, Holds, Option.some.injEq]
      omega
    have broken : ¬ Accounted s.newMainLoop.Holds ([.acquire (.mainLoop s.next)] ++ s.ledger) :=
      h.sound.not_accounted owned lost (by simp)
    obtain ⟨new, change, -⟩ := change_succeed h .mainLoop
    exact fun after => broken (accountsFor_of_startFrom _ (change.owned h) after)

/-- A failing `pw_context_connect_fd` has its descriptor closed twice. -/
theorem not_accountsFor_start_connectFd (h : s.Owned) :
    ¬ (s.start (some .connectFd)).1.AccountsFor := by
  have step : ∀ {s : State} (c : Creation), s.Owned → (s.succeed c).Owned := by
    intro s c h
    obtain ⟨new, change, -⟩ := change_succeed h c
    exact change.owned h
  have before : (s.newMainLoop.newContext.dup).Owned :=
    step .dup (step .context (step .mainLoop h))
  have open_fd : s.newMainLoop.newContext.dup.dupFd = some (s.next + 2) := rfl
  have change := change_connectFdFails open_fd
  show ¬ s.newMainLoop.newContext.dup.connectFdFails.AccountsFor
  unfold AccountsFor
  rw [change.ledger]
  have owned : s.newMainLoop.newContext.dup.Holds (.fd (s.next + 2)) := .inl open_fd
  refine before.sound.not_accounted owned ?_ (by simp)
  exact (change.moves.dropped (.fd (s.next + 2)) (by simp)).2

/-- The object as a constructor, a `Stop` or a `Start` without a main loop leaves it. -/
structure Tidy (s : State) : Prop where
  ctx : s.impl.ctx = none
  core : s.impl.core = none
  stream : s.impl.stream = none
  loopThread : s.impl.loopThread = false

theorem accountsFor_start (h : s.Owned) (idle : s.dupFd = none) (loop : s.impl.loop = none)
    (tidy : s.Tidy) (given : fault ≠ some .connectFd) (before : s.AccountsFor) :
    (s.start fault).1.AccountsFor := by
  refine accountsFor_startFrom startSteps (by decide) h (fun step _ => ?_) given before
  cases step with
  | create c =>
    cases c with
    | mainLoop => exact loop
    | context => exact tidy.ctx
    | dup => exact idle
    | connectFd => exact tidy.core
    | stream => exact tidy.stream
    | streamConnect => trivial
  | setupRecycler => trivial
  | spawnLoopThread => exact tidy.loopThread

theorem start_none : (s.start none).1 =
    s.newMainLoop.newContext.dup.connectFd.newStream.setupRecycler.spawnLoopThread := rfl

theorem dupFd_spawnLoopThread : s.spawnLoopThread.dupFd = s.dupFd := by
  unfold spawnLoopThread
  split_ifs <;> rfl

theorem loop_spawnLoopThread : s.spawnLoopThread.impl.loop = s.impl.loop := by
  unfold spawnLoopThread
  split_ifs <;> rfl

theorem terminated_spawnLoopThread (h : s.impl.loopThread = false) :
    s.spawnLoopThread.terminated = s.terminated := by
  simp [spawnLoopThread, h]

theorem dupFd_start (idle : s.dupFd = none) : (s.start fault).1.dupFd = none := by
  rcases fault with _ | c
  · rw [start_none, dupFd_spawnLoopThread]
    rfl
  · cases c <;> first | rfl | exact idle

theorem terminated_start (tidy : s.Tidy) : (s.start fault).1.terminated = s.terminated := by
  rcases fault with _ | c
  · rw [start_none, terminated_spawnLoopThread]
    · rfl
    · exact tidy.loopThread
  · cases c <;> rfl

theorem tidy_start (tidy : s.Tidy) (gone : (s.start fault).1.impl.loop = none) :
    (s.start fault).1.Tidy := by
  rcases fault with _ | c
  · rw [start_none, loop_spawnLoopThread] at gone
    cases gone
  · cases c with
    | mainLoop => exact ⟨tidy.ctx, tidy.core, tidy.stream, tidy.loopThread⟩
    | _ => cases gone

/-! ### Stop -/

theorem dupFd_execStop (step : StopStep) : (s.execStop step).dupFd = s.dupFd := by
  cases step <;> simp only [execStop, invalidateRecycler, invoke] <;> split <;>
    first | rfl | (split <;> rfl)

theorem terminated_execStop (step : StopStep) : (s.execStop step).terminated = s.terminated := by
  cases step <;> simp only [execStop, invalidateRecycler, invoke] <;> split <;>
    first | rfl | (split <;> rfl)

theorem impl_foldl_execStop (steps : List StopStep) :
    (steps.foldl execStop s).impl = steps.foldl clear s.impl := by
  induction steps generalizing s with
  | nil => rfl
  | cons step steps ih => rw [List.foldl_cons, List.foldl_cons, ih, impl_execStop]

theorem impl_stop : s.stop.impl = { s.impl with
    loop := none, ctx := none, core := none, stream := none, loopThread := false } :=
  impl_foldl_execStop stopSteps

theorem tidy_stop : s.stop.Tidy := by
  constructor <;> rw [impl_stop]

theorem terminated_foldl_execStop (steps : List StopStep) :
    (steps.foldl execStop s).terminated = s.terminated := by
  induction steps generalizing s with
  | nil => rfl
  | cons step steps ih => rw [List.foldl_cons, ih, terminated_execStop]

/-- Steps of `Stop` lose nothing and mend nothing. -/
theorem foldl_execStop_rule (steps : List StopStep) (h : s.Owned) (idle : s.dupFd = none) :
    (steps.foldl execStop s).Owned ∧ (steps.foldl execStop s).dupFd = none ∧
      ((steps.foldl execStop s).AccountsFor ↔ s.AccountsFor) := by
  induction steps generalizing s with
  | nil => exact ⟨h, idle, Iff.rfl⟩
  | cons step steps ih =>
    obtain ⟨new, change, careful⟩ := change_execStop idle step
    have idle' : (s.execStop step).dupFd = none := by rw [dupFd_execStop, idle]
    obtain ⟨owned, idle'', same⟩ := ih (change.owned h) idle'
    refine ⟨owned, idle'', same.trans ⟨change.accountsFor_of_after, ?_⟩⟩
    exact change.accountsFor h careful

end Steps

end State

end SmoothDemon.PipeWireCapture
