import SmoothDemon.Library.Custody

/-!
# Ledgers of one-shot handles

Handles that are acquired once and must be released once, in a log with the newest event first;
`held` says which handles the system still has.  A handle that is neither held nor released is
leaked, and one released twice was released by somebody who did not own it: neither can be made good
later (`Moves.accounted_of_accounted`), so a log that is `Accounted` in the end was so all along.
-/

namespace Custody

universe u

variable {α : Type u}

/-- What a system that owns the handles in `held` always knows of its log. -/
structure Sound (held : α → Prop) (log : List (Event α)) : Prop where
  acquired : ∀ a, held a → .acquire a ∈ log
  kept : ∀ a, held a → .release a ∉ log
  known : ∀ a, .release a ∈ log → .acquire a ∈ log

/-- The events `new` change `held` to `held'`: only new handles are acquired, and only handles that
were held and no longer are get released, though perhaps more than once. -/
structure Moves (held : α → Prop) (log : List (Event α)) (held' : α → Prop) (new : List (Event α)) :
    Prop where
  fresh : ∀ a, .acquire a ∈ new → .acquire a ∉ log
  dropped : ∀ a, .release a ∈ new → held a ∧ ¬ held' a
  held : ∀ a, held' a → held a ∨ .acquire a ∈ new

/-- Nothing that was held or is acquired gets lost: what is not held afterwards was released once.
-/
def Careful [DecidableEq α] (held held' : α → Prop) (new : List (Event α)) : Prop :=
  ∀ a, held a ∨ .acquire a ∈ new → held' a ∨ new.count (.release a) = 1

/-- Every handle ever acquired is held, or it was released once. -/
def Accounted [DecidableEq α] (held : α → Prop) (log : List (Event α)) : Prop :=
  ∀ a, .acquire a ∈ log → held a ∨ log.count (.release a) = 1

namespace Moves

variable {held held' : α → Prop} {log new : List (Event α)}

theorem keep (less : ∀ a, held' a → held a) : Moves held log held' [] :=
  ⟨nofun, nofun, fun a ha => .inl (less a ha)⟩

theorem acquire {a : α} (fresh : .acquire a ∉ log) (more : ∀ b, held' b → held b ∨ b = a) :
    Moves held log held' [.acquire a] := by
  refine ⟨fun b hb => ?_, nofun, fun b hb => ?_⟩
  · cases List.mem_singleton.1 hb
    exact fresh
  · exact (more b hb).imp_right fun same => by simp [same]

theorem sound (m : Moves held log held' new) (h : Sound held log) : Sound held' (new ++ log) := by
  refine ⟨fun a ha => ?_, fun a ha gone => ?_, fun a gone => ?_⟩
  · rw [List.mem_append]
    exact (m.held a ha).elim (fun old => .inr (h.acquired a old)) .inl
  · rcases List.mem_append.1 gone with now | before
    · exact (m.dropped a now).2 ha
    · rcases m.held a ha with old | fresh
      · exact h.kept a old before
      · exact m.fresh a fresh (h.known a before)
  · rw [List.mem_append]
    rcases List.mem_append.1 gone with now | before
    · exact .inr (h.acquired a (m.dropped a now).1)
    · exact .inr (h.known a before)

variable [DecidableEq α]

theorem accounted (m : Moves held log held' new) (h : Sound held log)
    (careful : Careful held held' new) (before : Accounted held log) :
    Accounted held' (new ++ log) := by
  intro a ha
  rw [List.count_append]
  by_cases now : held a ∨ .acquire a ∈ new
  · refine (careful a now).imp_right fun once => ?_
    have unreleased : .release a ∉ log := by
      rcases now with old | fresh
      · exact h.kept a old
      · exact fun gone => m.fresh a fresh (h.known a gone)
    rw [once, List.count_eq_zero.2 unreleased]
  · rw [not_or] at now
    have old : .acquire a ∈ log := (List.mem_append.1 ha).resolve_left now.2
    have untouched : .release a ∉ new := fun gone => now.1 (m.dropped a gone).1
    rw [List.count_eq_zero.2 untouched, Nat.zero_add]
    exact .inr ((before a old).resolve_left now.1)

/-- What was lost or released twice before stays so. -/
theorem accounted_of_accounted (m : Moves held log held' new)
    (after : Accounted held' (new ++ log)) : Accounted held log := by
  intro a ha
  by_cases held_a : held a
  · exact .inl held_a
  have untouched : .release a ∉ new := fun gone => held_a (m.dropped a gone).1
  have not_held : ¬ held' a := fun now =>
    (m.held a now).elim held_a fun fresh => m.fresh a fresh ha
  have once := (after a (List.mem_append_right new ha)).resolve_left not_held
  rw [List.count_append, List.count_eq_zero.2 untouched, Nat.zero_add] at once
  exact .inr once

end Moves

/-- A handle that was held, is no longer and was not released once is lost. -/
theorem Sound.not_accounted [DecidableEq α] {held held' : α → Prop} {log new : List (Event α)}
    (h : Sound held log) {a : α} (owned : held a) (lost : ¬ held' a)
    (count : new.count (.release a) ≠ 1) : ¬ Accounted held' (new ++ log) := by
  intro after
  have once := (after a (List.mem_append_right new (h.acquired a owned))).resolve_left lost
  rw [List.count_append, List.count_eq_zero.2 (h.kept a owned), Nat.add_zero] at once
  exact count once

end Custody
