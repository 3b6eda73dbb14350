import Mathlib.Data.List.Induction

/-!
# Runs of a partial step function

A system is a function `step : σ → α → Option σ`: `step s a = none` means that the action `a` cannot
happen in `s`.  A run is a list of actions that can all happen, one after the other.  `Always` and
`Each` speak about the states a run visits and about the actions it takes; the rules below turn
facts about one step into facts about whole runs, and a rank that steps lower into a run that ends.
`observe` lists what can be seen of the steps of a run.
-/

namespace Transition

variable {σ α : Type*} {step : σ → α → Option σ}

/-- From `s` the actions `as` can be taken in this order and lead to `t`. -/
def Run (step : σ → α → Option σ) (s : σ) (as : List α) (t : σ) : Prop :=
  as.foldlM step s = some t

def Reachable (step : σ → α → Option σ) (s t : σ) : Prop := ∃ as, Run step s as t

/-- Every state the run visits, its first and its last included, satisfies `P`. -/
def Always (step : σ → α → Option σ) (P : σ → Prop) (s : σ) (as : List α) : Prop :=
  ∀ bs t, bs <+: as → Run step s bs t → P t

/-- Every action the run takes is taken in a state where `ok` allows it. -/
def Each (step : σ → α → Option σ) (ok : σ → α → Prop) (s : σ) (as : List α) : Prop :=
  ∀ bs a t t', bs ++ [a] <+: as → Run step s bs t → step t a = some t' → ok t a

@[simp] theorem run_nil {s t : σ} : Run step s [] t ↔ s = t := by
  simp [Run, pure]

theorem run_cons {s t : σ} {a : α} {as : List α} :
    Run step s (a :: as) t ↔ ∃ s', step s a = some s' ∧ Run step s' as t := by
  simp [Run, List.foldlM_cons, Option.bind_eq_some_iff]

theorem run_append {s t : σ} {as bs : List α} :
    Run step s (as ++ bs) t ↔ ∃ s', Run step s as s' ∧ Run step s' bs t := by
  simp [Run, List.foldlM_append, Option.bind_eq_some_iff]

theorem run_concat {s t : σ} {a : α} {as : List α} :
    Run step s (as ++ [a]) t ↔ ∃ s', Run step s as s' ∧ step s' a = some t := by
  simp [run_append, run_cons]

theorem Run.unique {s t t' : σ} {as : List α} (h : Run step s as t) (h' : Run step s as t') :
    t = t' :=
  Option.some.inj (h.symm.trans h')

theorem Always.last {P : σ → Prop} {s t : σ} {as : List α} (h : Always step P s as)
    (run : Run step s as t) : P t :=
  h as t (List.prefix_refl as) run

theorem Always.mono {P Q : σ → Prop} {s : σ} {as : List α} (h : Always step P s as)
    (imp : ∀ t, P t → Q t) : Always step Q s as :=
  fun bs t hb run => imp t (h bs t hb run)

@[simp] theorem each_nil {ok : σ → α → Prop} {s : σ} : Each step ok s [] := by
  intro bs a t t' hb
  simp at hb

theorem each_cons {ok : σ → α → Prop} {s : σ} {a : α} {as : List α} :
    Each step ok s (a :: as) ↔ ∀ s', step s a = some s' → ok s a ∧ Each step ok s' as := by
  constructor
  · intro h s' first
    refine ⟨h [] a s s' ?_ (run_nil.2 rfl) first, fun bs b t t' hb before last => ?_⟩
    · simp
    · exact h (a :: bs) b t t' (by simpa using hb) (run_cons.2 ⟨s', first, before⟩) last
  · intro h bs b t t' hb before last
    cases bs with
    | nil =>
      obtain rfl : b = a := by simpa using hb
      obtain rfl := run_nil.1 before
      exact (h t' last).1
    | cons c bs =>
      obtain ⟨rfl, shorter⟩ := List.cons_prefix_cons.1 hb
      obtain ⟨s', first, rest⟩ := run_cons.1 before
      exact (h s' first).2 bs b t t' shorter rest last

theorem each_append {ok : σ → α → Prop} {s : σ} {as bs : List α} :
    Each step ok s (as ++ bs) ↔ Each step ok s as ∧ ∀ t, Run step s as t → Each step ok t bs := by
  induction as generalizing s with
  | nil => simp
  | cons a as ih =>
    simp only [List.cons_append, each_cons, ih, run_cons]
    grind

/-- A condition that does not ask for the state. -/
theorem each_of_forall {ok : σ → α → Prop} {s : σ} {as : List α} (h : ∀ a ∈ as, ∀ t, ok t a) :
    Each step ok s as :=
  fun _ a t _ hb _ _ => h a (hb.subset (List.mem_append_right _ (List.mem_singleton_self a))) t

/-- The run rule: an invariant that every allowed action preserves holds along every run of allowed
actions. -/
theorem always_of_each {I : σ → Prop} {ok : σ → α → Prop}
    (preserved : ∀ s a s', I s → ok s a → step s a = some s' → I s') {s : σ} {as : List α}
    (start : I s) (allowed : Each step ok s as) : Always step I s as := by
  intro bs t hb run
  induction bs using List.reverseRecOn generalizing t with
  | nil => exact run_nil.1 run ▸ start
  | append_singleton bs a ih =>
    obtain ⟨s', before, last⟩ := run_concat.1 run
    have hs' : I s' := ih s' ((List.prefix_append bs [a]).trans hb) before
    exact preserved s' a t hs' (allowed bs a s' t hb before last) last

/-- An invariant that every action preserves holds in every reachable state. -/
theorem Reachable.invariant {I : σ → Prop}
    (preserved : ∀ s a s', I s → step s a = some s' → I s') {s t : σ} (start : I s)
    (h : Reachable step s t) : I t := by
  obtain ⟨as, run⟩ := h
  have anything : Each step (fun _ _ => True) s as := fun _ _ _ _ _ _ _ => trivial
  have inv : Always step I s as :=
    always_of_each (fun s a s' hs _ => preserved s a s' hs) start anything
  exact inv.last run

/-- The progress rule: where, until `Q` holds, some allowed action keeps the invariant and lowers a
rank, allowed actions lead to `Q`. -/
theorem reaches_of_rank {I Q : σ → Prop} {own : α → Prop} (rank : σ → ℕ)
    (progress : ∀ s, I s → ¬ Q s →
      ∃ a s', own a ∧ step s a = some s' ∧ I s' ∧ rank s' < rank s)
    {s : σ} (start : I s) : ∃ as t, (∀ a ∈ as, own a) ∧ Run step s as t ∧ Q t := by
  induction value : rank s using Nat.strongRecOn generalizing s with
  | ind n ih =>
    by_cases done : Q s
    · exact ⟨[], s, by simp, run_nil.2 rfl, done⟩
    · obtain ⟨a, s', allowed, taken, kept, less⟩ := progress s start done
      obtain ⟨as, t, all, run, goal⟩ := ih (rank s') (value ▸ less) kept rfl
      exact ⟨a :: as, t, List.forall_mem_cons.2 ⟨allowed, all⟩, run_cons.2 ⟨s', taken, run⟩, goal⟩

section Exact

variable {I P : σ → Prop} {ok : σ → α → Prop}

/-- When, under an invariant, a property that holds survives exactly the allowed actions, it holds
throughout a run iff it holds at the start and the run takes allowed actions only. -/
theorem always_iff_each (invariant : ∀ s a s', I s → step s a = some s' → I s')
    (exact_step : ∀ s a s', I s → P s → step s a = some s' → (P s' ↔ ok s a)) {s : σ} {as : List α}
    (start : I s) : Always step P s as ↔ P s ∧ Each step ok s as := by
  constructor
  · intro h
    refine ⟨h [] s List.nil_prefix (run_nil.2 rfl), fun bs a u u' hb before last => ?_⟩
    have hu : P u := h bs u ((List.prefix_append bs [a]).trans hb) before
    have hu' : P u' := h (bs ++ [a]) u' hb (run_concat.2 ⟨u, before, last⟩)
    have reached : Reachable step s u := ⟨bs, before⟩
    exact (exact_step u a u' (reached.invariant invariant start) hu last).1 hu'
  · rintro ⟨first, allowed⟩
    have both : Always step (fun t => I t ∧ P t) s as :=
      always_of_each (fun s a s' hs ok last => ⟨invariant s a s' hs.1 last,
        (exact_step s a s' hs.1 hs.2 last).2 ok⟩) ⟨start, first⟩ allowed
    exact both.mono fun t h => h.2

/-- When, moreover, the property never comes back once it is lost, its truth in the last state alone
decides whether every action was allowed. -/
theorem last_iff_each (invariant : ∀ s a s', I s → step s a = some s' → I s')
    (exact_step : ∀ s a s', I s → P s → step s a = some s' → (P s' ↔ ok s a))
    (lost : ∀ s a s', I s → ¬ P s → step s a = some s' → ¬ P s') {s t : σ} {as : List α}
    (start : I s) (run : Run step s as t) : P t ↔ P s ∧ Each step ok s as := by
  rw [← always_iff_each invariant exact_step start]
  refine ⟨fun ht bs u hb before => ?_, fun h => h.last run⟩
  obtain ⟨cs, rfl⟩ := hb
  obtain ⟨u', before', rest⟩ := run_append.1 run
  obtain rfl := before.unique before'
  by_contra hu
  have reached : Reachable step s u := ⟨bs, before⟩
  have after : Reachable step u t := ⟨cs, rest⟩
  have both : ∀ s a s', I s ∧ ¬ P s → step s a = some s' → I s' ∧ ¬ P s' :=
    fun s a s' hs last => ⟨invariant s a s' hs.1 last, lost s a s' hs.1 hs.2 last⟩
  have gone : I t ∧ ¬ P t :=
    Reachable.invariant (I := fun s => I s ∧ ¬ P s) both
      ⟨reached.invariant invariant start, hu⟩ after
  exact gone.2 ht

end Exact

/-! ### What is seen of a run -/

section Observe

variable {β : Type*} (see : σ → α → σ → List β)

/-- What `see` shows of each step of a run, from the first on. -/
def observe (step : σ → α → Option σ) : σ → List α → List β
  | _, [] => []
  | s, a :: as =>
    match step s a with
    | none => []
    | some s' => see s a s' ++ observe step s' as

theorem observe_concat {s t t' : σ} {a : α} {as : List α} (run : Run step s as t)
    (last : step t a = some t') :
    observe see step s (as ++ [a]) = observe see step s as ++ see t a t' := by
  induction as generalizing s with
  | nil =>
    obtain rfl := run_nil.1 run
    simp [observe, last]
  | cons b as ih =>
    obtain ⟨s', first, rest⟩ := run_cons.1 run
    simp only [List.cons_append, observe, first, ih rest, List.append_assoc]

end Observe

end Transition
