import SmoothDemon.Capture.Handles
import SmoothDemon.Library.Run

/-!
# Cleaning up after failures

Any sequence of `Start` and `Stop` calls with any creation failing, ended by the destructor.  Every
handle created in it is destroyed exactly once iff no `Start` runs into the handles of an earlier
one and none fails in `pw_context_connect_fd` (`destroyed_once_iff`).
-/

namespace SmoothDemon.PipeWireCapture

open Custody

namespace State

inductive ApiCall
  | start (fault : Option Creation)
  | stop

/-- One call on the object; after `std::terminate` nothing runs any more. -/
def apply (s : State) (c : ApiCall) : State :=
  if s.terminated then s
  else match c with
    | .start fault => (s.start fault).1
    | .stop => s.stop

/-- The capture object after `calls` and its destructor. -/
def lifetime (calls : List ApiCall) : State := (calls ++ [ApiCall.stop]).foldl apply {}

/-- The call finds no handles of an earlier `Start`, and its descriptor reaches a core. -/
def Clean (s : State) : ApiCall → Prop
  | .start fault => s.impl.loop = none ∧ fault ≠ some .connectFd
  | .stop => True

/-- What holds between any two calls.  As long as everything is accounted for, an object without a
main loop has no other handle either. -/
structure Between (s : State) : Prop where
  owned : s.Owned
  idle : s.dupFd = none
  alive : s.AccountsFor → s.terminated = false
  tidy : s.AccountsFor → s.impl.loop = none → s.Tidy

theorem between_start : ({} : State).Between where
  owned := by
    refine ⟨⟨fun r hr => ?_, fun r _ => ?_, fun r hr => ?_⟩, fun r hr => ?_⟩
    · cases r <;> simp [Holds] at hr
    · simp [ledger]
    · simp [ledger] at hr
    · simp [ledger] at hr
  idle := rfl
  alive _ := rfl
  tidy _ _ := ⟨rfl, rfl, rfl, rfl⟩

section Calls

variable {s : State}

theorem Between.accountsFor_start_iff (h : s.Between) (before : s.AccountsFor)
    (fault : Option Creation) :
    (s.start fault).1.AccountsFor ↔ s.impl.loop = none ∧ fault ≠ some .connectFd := by
  constructor
  · intro after
    have loop : s.impl.loop = none := by
      by_contra stored
      obtain ⟨loop, stored⟩ := Option.ne_none_iff_exists'.1 stored
      exact not_accountsFor_start h.owned stored after
    refine ⟨loop, ?_⟩
    rintro rfl
    exact not_accountsFor_start_connectFd h.owned after
  · rintro ⟨loop, given⟩
    exact accountsFor_start h.owned h.idle loop (h.tidy before loop) given before

theorem Between.accountsFor_iff (h : s.Between) (before : s.AccountsFor) (c : ApiCall) :
    (s.apply c).AccountsFor ↔ s.Clean c := by
  have alive : s.terminated = false := h.alive before
  cases c with
  | start fault => simpa [apply, alive, Clean] using h.accountsFor_start_iff before fault
  | stop =>
    have same : s.stop.AccountsFor ↔ s.AccountsFor :=
      (foldl_execStop_rule stopSteps h.owned h.idle).2.2
    simpa [apply, alive, Clean] using same.2 before

theorem Between.accountsFor_of_apply (h : s.Between) (c : ApiCall)
    (after : (s.apply c).AccountsFor) : s.AccountsFor := by
  unfold apply at after
  split_ifs at after with dead
  · exact after
  · cases c with
    | start fault => exact accountsFor_of_startFrom startSteps h.owned after
    | stop => exact (foldl_execStop_rule stopSteps h.owned h.idle).2.2.1 after

theorem Between.apply (h : s.Between) (c : ApiCall) : (s.apply c).Between := by
  by_cases dead : s.terminated = true
  · simpa [State.apply, dead] using h
  have alive : s.terminated = false := by simpa using dead
  cases c with
  | start fault =>
    have same : s.apply (.start fault) = (s.start fault).1 := by simp [State.apply, alive]
    rw [same]
    have earlier : (s.start fault).1.AccountsFor → s.AccountsFor :=
      accountsFor_of_startFrom startSteps h.owned
    have tidy : (s.start fault).1.AccountsFor → s.Tidy := fun after =>
      h.tidy (earlier after) ((h.accountsFor_start_iff (earlier after) fault).1 after).1
    refine ⟨owned_startFrom startSteps h.owned, dupFd_start h.idle, fun after => ?_,
      fun after gone => ?_⟩
    · rw [terminated_start (tidy after), alive]
    · exact tidy_start (tidy after) gone
  | stop =>
    have same : s.apply .stop = s.stop := by simp [State.apply, alive]
    rw [same]
    obtain ⟨owned, idle, -⟩ := foldl_execStop_rule stopSteps h.owned h.idle
    refine ⟨owned, idle, fun _ => ?_, fun _ _ => tidy_stop⟩
    exact (terminated_foldl_execStop stopSteps).trans alive

end Calls

theorem count_ledger (s : State) (r : Resource) :
    s.ledger.count (.release r) = s.trace.count (.destroy r) := by
  unfold ledger
  induction s.trace with
  | nil => rfl
  | cons c trace ih => cases c <;> simp [List.filterMap_cons, Call.handle?, List.count_cons, ih]

theorem mem_ledger (s : State) (r : Resource) :
    .acquire r ∈ s.ledger ↔ .create r ∈ s.trace := by
  rw [ledger, List.mem_filterMap]
  constructor
  · rintro ⟨c, mem, h⟩
    cases c <;> simp [Call.handle?] at h
    exact h ▸ mem
  · exact fun mem => ⟨_, mem, rfl⟩

/-- Every handle ever created is destroyed exactly once iff every `Start` is clean. -/
theorem destroyed_once_iff (calls : List ApiCall) :
    (∀ r, .create r ∈ (lifetime calls).trace → (lifetime calls).trace.count (.destroy r) = 1) ↔
      Transition.Each (fun s c => some (apply s c)) Clean {} calls := by
  let last := calls.foldl apply {}
  have ended : lifetime calls = last.apply .stop := by
    rw [lifetime, List.foldl_append]
    rfl
  have preserved : ∀ (s : State) c s', s.Between → some (s.apply c) = some s' → s'.Between := by
    rintro s c _ h ⟨⟩
    exact h.apply c
  have exact_step : ∀ (s : State) c s', s.Between → s.AccountsFor →
      some (s.apply c) = some s' → (s'.AccountsFor ↔ s.Clean c) := by
    rintro s c _ h before ⟨⟩
    exact h.accountsFor_iff before c
  have lost : ∀ (s : State) c s', s.Between → ¬ s.AccountsFor → some (s.apply c) = some s' →
      ¬ s'.AccountsFor := by
    rintro s c _ h broken ⟨⟩
    exact fun after => broken (h.accountsFor_of_apply c after)
  have run : Transition.Run (fun s c => some (apply s c)) {} calls last :=
    List.foldlM_pure ..
  have between : last.Between :=
    Transition.Reachable.invariant preserved between_start ⟨calls, run⟩
  have start : ({} : State).AccountsFor := by simp [AccountsFor, Accounted, ledger]
  have each := Transition.last_iff_each preserved exact_step lost between_start run
  rw [and_iff_right start] at each
  rw [← each, ended]
  constructor
  · intro once
    refine between.accountsFor_of_apply .stop fun r hr => .inr ?_
    rw [count_ledger]
    exact once r ((mem_ledger _ r).1 hr)
  · intro before r hr
    have after : (last.apply .stop).AccountsFor := (between.accountsFor_iff before .stop).2 trivial
    have stopped : last.apply .stop = last.stop := by simp [apply, between.alive before]
    have gone : ¬ (last.apply .stop).Holds r := by
      rw [stopped]
      have idle := (foldl_execStop_rule stopSteps between.owned between.idle).2.1
      cases r <;> simp [Holds, impl_stop]
      exact fun open_fd => by simp [stop, idle] at open_fd
    rw [← count_ledger]
    exact (after r ((mem_ledger _ r).2 hr)).resolve_left gone

/-- A `Start` fails to create its context and is retried: the first main loop leaks. -/
theorem not_destroyed_once_retry :
    ¬ ∀ r, .create r ∈ (lifetime [.start (some .context), .start none]).trace →
      (lifetime [.start (some .context), .start none]).trace.count (.destroy r) = 1 := by
  intro once
  have := once (.mainLoop 0) (by decide)
  exact absurd this (by decide)

end State

end SmoothDemon.PipeWireCapture
