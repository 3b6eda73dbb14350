import Mathlib.Algebra.BigOperators.Group.Finset.Basic
import Mathlib.Algebra.GroupWithZero.Nat
import Mathlib.Algebra.Order.BigOperators.Group.Finset
import Mathlib.Data.Finset.Lattice.Fold
import Mathlib.Data.List.Induction
import Mathlib.Order.Lattice.Nat

/-!
# Entries with keys

A list whose entries have different keys is a finite map.  Looking a key up finds an entry iff it is
the one with that key.  For pairs of a key and a value, `modify` is the update through `operator[]`
of a map, which inserts what is missing; the values found under different keys add up to no more
than all values (`sum_get_le`).  A map that collects reports and keeps the largest of each key has
the same sum for any order and number of the reports (`sum_collect`).
-/

namespace Keys

variable {α κ : Type*} [DecidableEq κ] {key : α → κ} {entries : List α}

theorem find?_eq_some_iff (distinct : (entries.map key).Nodup) {k : κ} {a : α} :
    (entries.find? fun b => key b = k) = some a ↔ a ∈ entries ∧ key a = k := by
  constructor
  · intro found
    have same := List.find?_some found
    exact ⟨List.mem_of_find?_eq_some found, of_decide_eq_true same⟩
  · rintro ⟨ha, rfl⟩
    cases found : entries.find? fun b => key b = key a with
    | none =>
      have none := List.find?_eq_none.1 found a ha
      exact absurd (decide_eq_true rfl) none
    | some b =>
      have same := List.find?_some found
      rw [List.inj_on_of_nodup_map distinct (List.mem_of_find?_eq_some found) ha
        (of_decide_eq_true same)]

theorem find?_eq_none_iff {k : κ} :
    (entries.find? fun b => key b = k) = none ↔ ∀ a ∈ entries, key a ≠ k := by
  simp [List.find?_eq_none]

/-! ### Maps of pairs -/

section Pairs

variable {β : Type*}

def get (entries : List (κ × β)) (k : κ) : Option β :=
  (entries.find? fun e => e.1 = k).map Prod.snd

/-- `f` applied to the value of `k`, or to `init` where there is none yet. -/
def modify (k : κ) (init : β) (f : β → β) : List (κ × β) → List (κ × β)
  | [] => [(k, f init)]
  | (l, b) :: rest => if l = k then (l, f b) :: rest else (l, b) :: modify k init f rest

theorem get_eq_some_iff {entries : List (κ × β)} (distinct : (entries.map Prod.fst).Nodup) {k : κ}
    {b : β} : get entries k = some b ↔ (k, b) ∈ entries := by
  unfold get
  constructor
  · intro h
    obtain ⟨⟨l, c⟩, found, rfl⟩ := Option.map_eq_some_iff.1 h
    obtain ⟨member, rfl⟩ := (find?_eq_some_iff distinct).1 found
    exact member
  · intro member
    rw [(find?_eq_some_iff distinct).2 ⟨member, rfl⟩]
    rfl

theorem mem_keys_modify {k l : κ} {init : β} {f : β → β} {entries : List (κ × β)} :
    l ∈ (modify k init f entries).map Prod.fst ↔ l = k ∨ l ∈ entries.map Prod.fst := by
  induction entries with
  | nil => simp [modify]
  | cons e entries ih =>
    rw [modify]
    split_ifs with same
    · simp [same]
    · rw [List.map_cons, List.mem_cons, ih, List.map_cons, List.mem_cons, or_left_comm]

theorem nodup_modify {k : κ} {init : β} {f : β → β} {entries : List (κ × β)}
    (distinct : (entries.map Prod.fst).Nodup) : ((modify k init f entries).map Prod.fst).Nodup := by
  induction entries with
  | nil => exact List.nodup_singleton k
  | cons e entries ih =>
    rw [List.map_cons, List.nodup_cons] at distinct
    rw [modify]
    split_ifs with same
    · exact List.nodup_cons.2 distinct
    · refine List.nodup_cons.2 ⟨fun member => ?_, ih distinct.2⟩
      exact (mem_keys_modify.1 member).elim same distinct.1

theorem sum_eq_sum_get {entries : List (κ × β)} (distinct : (entries.map Prod.fst).Nodup)
    (w : β → ℕ) : (entries.map fun e => w e.2).sum =
      ∑ k ∈ (entries.map Prod.fst).toFinset, ((get entries k).map w).getD 0 := by
  rw [List.sum_toFinset _ distinct, List.map_map]
  refine congrArg List.sum (List.map_congr_left fun e he => ?_)
  simp [(get_eq_some_iff distinct).2 (show (e.1, e.2) ∈ entries from he)]

theorem sum_get_le {keys : List κ} (different : keys.Nodup) {entries : List (κ × β)}
    (distinct : (entries.map Prod.fst).Nodup) (w : β → ℕ) :
    (keys.map fun k => ((get entries k).map w).getD 0).sum ≤ (entries.map fun e => w e.2).sum := by
  rw [sum_eq_sum_get distinct, ← List.sum_toFinset _ different]
  refine Finset.sum_le_sum_of_ne_zero fun k _ nonzero => ?_
  cases found : get entries k with
  | none => simp [found] at nonzero
  | some b =>
    exact List.mem_toFinset.2 (List.mem_map.2 ⟨_, (get_eq_some_iff distinct).1 found, rfl⟩)

theorem get_modify (k l : κ) (init : β) (f : β → β) (entries : List (κ × β)) :
    get (modify k init f entries) l =
      if k = l then some (f ((get entries k).getD init)) else get entries l := by
  induction entries with
  | nil =>
    unfold get modify
    split_ifs with same
    · simp [same]
    · simp [same]
  | cons e entries ih =>
    unfold get at ih ⊢
    rw [modify]
    split_ifs with first same same
    · simp [first, same]
    · have other : e.1 ≠ l := fun eq => same (first.symm.trans eq)
      simp [other]
    · subst same
      rw [if_pos rfl] at ih
      simp [first, ih]
    · rw [if_neg same] at ih
      by_cases here : e.1 = l
      · simp [here]
      · simp [here, ih]

/-! ### Collecting reports -/

section Collect

variable {ρ : Type*} {key : ρ → κ} {init : β} {f : ρ → β → β}

/-- Each report goes into the value of its key. -/
def collect (key : ρ → κ) (init : β) (f : ρ → β → β) (reports : List ρ) : List (κ × β) :=
  reports.foldl (fun entries r => modify (key r) init (f r) entries) []

theorem collect_concat (reports : List ρ) (r : ρ) :
    collect key init f (reports ++ [r]) =
      modify (key r) init (f r) (collect key init f reports) :=
  List.foldl_concat ..

theorem nodup_collect (reports : List ρ) :
    ((collect key init f reports).map Prod.fst).Nodup := by
  induction reports using List.reverseRecOn with
  | nil => exact .nil
  | append_singleton reports r ih =>
    rw [collect_concat]
    exact nodup_modify ih

theorem mem_keys_collect {reports : List ρ} {k : κ} :
    k ∈ (collect key init f reports).map Prod.fst ↔ k ∈ reports.map key := by
  induction reports using List.reverseRecOn with
  | nil => rfl
  | append_singleton reports r ih =>
    rw [collect_concat, mem_keys_modify, ih]
    simp [or_comm]

theorem collect_eq_nil_iff {reports : List ρ} : collect key init f reports = [] ↔ reports = [] := by
  have keys (k : κ) : k ∈ (collect key init f reports).map Prod.fst ↔ k ∈ reports.map key :=
    mem_keys_collect
  constructor
  · intro empty
    rw [empty] at keys
    refine List.eq_nil_iff_forall_not_mem.2 fun r hr => ?_
    exact List.not_mem_nil ((keys (key r)).2 (List.mem_map_of_mem hr))
  · rintro rfl
    rfl

variable [DecidableEq ρ] {w : β → ℕ} {v : ρ → ℕ}

/-- The largest report of a key. -/
def largest (key : ρ → κ) (v : ρ → ℕ) (reports : List ρ) (k : κ) : ℕ :=
  (reports.toFinset.filter (key · = k)).sup v

theorem get_collect (start : w init = 0) (raise : ∀ r b, w (f r b) = max (w b) (v r))
    (reports : List ρ) (k : κ) :
    ((get (collect key init f reports) k).map w).getD 0 = largest key v reports k := by
  unfold largest
  induction reports using List.reverseRecOn with
  | nil => rfl
  | append_singleton reports r ih =>
    rw [collect_concat, get_modify, List.toFinset_append, Finset.filter_union, Finset.sup_union,
      ← ih]
    split_ifs with same
    · subst same
      cases get (collect key init f reports) (key r) with
      | none => simp [raise, start, Finset.filter_singleton]
      | some b => simp [raise, Finset.filter_singleton]
    · simp [same, Finset.filter_singleton]

/-- The sum is over the keys there are, and counts the largest report of each. -/
theorem sum_collect (start : w init = 0) (raise : ∀ r b, w (f r b) = max (w b) (v r))
    (reports : List ρ) : ((collect key init f reports).map fun e => w e.2).sum =
      ∑ k ∈ (reports.map key).toFinset, largest key v reports k := by
  rw [sum_eq_sum_get (nodup_collect reports)]
  refine Finset.sum_congr ?_ fun k _ => get_collect start raise reports k
  ext k
  rw [List.mem_toFinset, List.mem_toFinset, mem_keys_collect]

end Collect

end Pairs

end Keys
