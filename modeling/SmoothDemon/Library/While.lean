import Mathlib.Data.Fintype.Card
import Mathlib.Logic.Function.Iterate

/-!
# While loops

`whileLoop cond body fuel s` is the loop `while (cond s) s = body s;` given up after `fuel` tests of
the condition.  A loop over a finite state space that leaves at all leaves within one test per state
(`LeavesAfter.lt_of_bounded`), so that for such loops running out of fuel means running forever.
-/

namespace Loop

variable {σ : Type*} {cond : σ → Bool} {body : σ → σ}

def whileLoop (cond : σ → Bool) (body : σ → σ) : ℕ → σ → Option σ
  | 0, _ => none
  | fuel + 1, s => if cond s then whileLoop cond body fuel (body s) else some s

/-- The condition holds before each of the first `n` iterations and fails after them. -/
def LeavesAfter (cond : σ → Bool) (body : σ → σ) (n : ℕ) (s : σ) : Prop :=
  (∀ m < n, cond (body^[m] s) = true) ∧ cond (body^[n] s) = false

theorem leavesAfter_succ_iff {n : ℕ} {s : σ} :
    LeavesAfter cond body (n + 1) s ↔ cond s = true ∧ LeavesAfter cond body n (body s) := by
  constructor
  · rintro ⟨before, after⟩
    refine ⟨before 0 (by omega), fun m hm => ?_, ?_⟩
    · simpa only [Function.iterate_succ_apply] using before (m + 1) (by omega)
    · simpa only [Function.iterate_succ_apply] using after
  · rintro ⟨first, before, after⟩
    refine ⟨fun m hm => ?_, by simpa only [Function.iterate_succ_apply] using after⟩
    cases m with
    | zero => exact first
    | succ m => simpa only [Function.iterate_succ_apply] using before m (by omega)

theorem whileLoop_eq_some_iff {fuel : ℕ} {s t : σ} :
    whileLoop cond body fuel s = some t ↔
      ∃ n < fuel, LeavesAfter cond body n s ∧ t = body^[n] s := by
  induction fuel generalizing s with
  | zero => simp [whileLoop]
  | succ fuel ih =>
    rw [whileLoop]
    split_ifs with h
    · rw [ih]
      constructor
      · rintro ⟨n, hn, leaves, rfl⟩
        exact ⟨n + 1, by omega, leavesAfter_succ_iff.2 ⟨h, leaves⟩,
          (Function.iterate_succ_apply body n s).symm⟩
      · rintro ⟨n, hn, leaves, rfl⟩
        cases n with
        | zero => exact absurd (leaves.2.symm.trans h) (by decide)
        | succ n =>
          exact ⟨n, by omega, (leavesAfter_succ_iff.1 leaves).2,
            Function.iterate_succ_apply body n s⟩
    · constructor
      · intro e
        cases e
        exact ⟨0, by omega, ⟨fun m hm => absurd hm (by omega), by simpa using h⟩, rfl⟩
      · rintro ⟨n, -, leaves, rfl⟩
        cases n with
        | zero => rfl
        | succ n => exact absurd (leaves.1 0 (by omega)) h

/-- The states before the exit are pairwise different: a state met twice would keep the loop going
round. -/
theorem LeavesAfter.injOn {n : ℕ} {s : σ} (h : LeavesAfter cond body n s) {i j : ℕ} (hij : i < j)
    (hj : j ≤ n) : body^[i] s ≠ body^[j] s := by
  intro e
  have again : body^[n - j + i] s = body^[n] s := by
    rw [Function.iterate_add_apply, e, ← Function.iterate_add_apply, Nat.sub_add_cancel hj]
  have going := h.1 (n - j + i) (by omega)
  rw [again, h.2] at going
  cases going

theorem LeavesAfter.lt_of_bounded {n : ℕ} {s : σ} (h : LeavesAfter cond body n s) {N : ℕ}
    (code : σ → ℕ) (injective : Function.Injective code) (bounded : ∀ s, code s < N) : n < N := by
  let visit : Fin (n + 1) → Fin N := fun m => ⟨code (body^[m] s), bounded _⟩
  have distinct : Function.Injective visit := by
    intro i j e
    have same : body^[i] s = body^[j] s := injective (Fin.mk.inj e)
    rcases lt_trichotomy i j with lt | eq | gt
    · exact absurd same (h.injOn lt (by omega))
    · exact eq
    · exact absurd same.symm (h.injOn gt (by omega))
  have count := Fintype.card_le_of_injective visit distinct
  simp only [Fintype.card_fin] at count
  omega

end Loop
