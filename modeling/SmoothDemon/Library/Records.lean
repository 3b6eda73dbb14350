import Mathlib.Data.List.Basic
import Mathlib.Data.List.Induction

/-!
# Records filled entry by entry

A loop goes over entries and keeps a record.  Where each entry either sets a field or leaves it, the
field ends up with what the last entry that sets it says (`foldl_last`), which is what any of them
says if they agree; a flag that entries only raise is up iff one of them raised it (`foldl_raised`).
A loop that closes its record at each separator goes over the parts between them (`foldl_parts`).
-/

namespace Records

variable {σ α β : Type*} {next : σ → α → σ}

/-- The last value, after one more entry. -/
theorem getD_getLast?_concat (value : α → Option β) (as : List α) (a : α) (b : β) :
    ((as ++ [a]).filterMap value).getLast?.getD b =
      (value a).getD ((as.filterMap value).getLast?.getD b) := by
  rw [List.filterMap_append]
  cases h : value a with
  | none => simp [h]
  | some c => simp [h]

theorem foldl_last {f : σ → β} {value : α → Option β}
    (step : ∀ s a, f (next s a) = (value a).getD (f s)) (s : σ) (as : List α) :
    f (as.foldl next s) = (as.filterMap value).getLast?.getD (f s) := by
  induction as using List.reverseRecOn with
  | nil => rfl
  | append_singleton as a ih =>
    rw [List.foldl_concat, step, ih, List.filterMap_append]
    cases h : value a with
    | none => simp [h]
    | some b => simp [h]

/-- Entries that agree on the field. -/
theorem getLast?_filterMap_eq {value : α → Option β} {as : List α} {o : Option β}
    (agree : ∀ b, (∃ a ∈ as, value a = some b) ↔ o = some b) :
    (as.filterMap value).getLast? = o := by
  cases last : (as.filterMap value).getLast? with
  | none =>
    have nothing : as.filterMap value = [] := List.getLast?_eq_none_iff.1 last
    refine (Option.eq_none_iff_forall_ne_some.2 fun b hb => ?_).symm
    obtain ⟨a, ha, hv⟩ := (agree b).2 hb
    have member : b ∈ as.filterMap value := List.mem_filterMap.2 ⟨a, ha, hv⟩
    rw [nothing] at member
    cases member
  | some b =>
    have member : b ∈ as.filterMap value := List.mem_of_getLast? last
    exact ((agree b).1 (List.mem_filterMap.1 member)).symm

theorem foldl_raised {flag : σ → Bool} {raises : α → Prop}
    (step : ∀ s a, flag (next s a) ↔ flag s ∨ raises a) (s : σ) (as : List α) :
    flag (as.foldl next s) ↔ flag s ∨ ∃ a ∈ as, raises a := by
  induction as using List.reverseRecOn with
  | nil => simp
  | append_singleton as a ih =>
    rw [List.foldl_concat, step, ih]
    simp [or_and_right, exists_or, or_assoc]

theorem foldl_parts {separates : α → Bool} {read : σ → α → σ} {close : σ → σ}
    (separator : ∀ s a, separates a → next s a = close s)
    (entry : ∀ s a, separates a = false → next s a = read s a) (s : σ) (as : List α) :
    close (as.foldl next s) =
      (as.splitOnP separates).foldl (fun s part => close (part.foldl read s)) s := by
  induction as generalizing s with
  | nil => rfl
  | cons a as ih =>
    rw [List.foldl_cons, ih, List.splitOnP_cons_eq_if_modifyHead]
    cases sep : separates a with
    | true => rw [separator s a sep, if_pos rfl, List.foldl_cons, List.foldl_nil]
    | false =>
      rw [entry s a sep, if_neg Bool.false_ne_true]
      obtain ⟨part, parts, split⟩ := List.exists_cons_of_ne_nil (List.splitOnP_ne_nil separates as)
      rw [split, List.modifyHead_cons, List.foldl_cons, List.foldl_cons, List.foldl_cons]

end Records
