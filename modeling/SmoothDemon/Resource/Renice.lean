import Mathlib.Algebra.Order.BigOperators.Group.List
import SmoothDemon.Resource.ProcessScheduler

/-!
# The nice values of a process

`ReniceProcessThreads` and `GetAverageNice` (src/resource/ProcessScheduler.cpp) on the threads that
the task directory lists.  The average is rounded towards zero and -128 stands for an error; since
no call and no clone leads out of -20..19, no average is ever taken for that error
(`getAverageNice_run`).  A renice sets the listed threads it is permitted to, and when these are all
that are there the clamped value is what is read back (`reniceProcessThreads_readBack`).
-/

namespace SmoothDemon

/-! ### Averages -/

section Average

variable {lo hi count sum : ℤ}

theorem le_tdiv (positive : 0 < count) (le : lo * count ≤ sum) : lo ≤ sum.tdiv count := by
  rcases le_total 0 sum with nonneg | negative
  · rw [Int.tdiv_eq_ediv_of_nonneg nonneg]
    exact Int.le_ediv_of_mul_le positive le
  · obtain ⟨t, rfl⟩ : ∃ t, sum = -t := ⟨-sum, (neg_neg sum).symm⟩
    rw [Int.neg_tdiv, Int.tdiv_eq_ediv_of_nonneg (by omega), le_neg]
    apply Int.ediv_le_of_le_mul positive
    rw [neg_mul]
    omega

theorem tdiv_le (positive : 0 < count) (le : sum ≤ hi * count) : sum.tdiv count ≤ hi := by
  have mirrored : -hi ≤ (-sum).tdiv count := le_tdiv positive (by rw [neg_mul]; omega)
  rw [Int.neg_tdiv] at mirrored
  omega

/-- Rounding towards zero keeps an average between the least and the greatest value. -/
theorem average_mem {values : List ℤ} (nonempty : values ≠ [])
    (range : ∀ v ∈ values, lo ≤ v ∧ v ≤ hi) :
    lo ≤ values.sum.tdiv values.length ∧ values.sum.tdiv values.length ≤ hi := by
  have positive : 0 < (values.length : ℤ) := by
    have := List.length_pos_of_ne_nil nonempty
    omega
  have lower := values.card_nsmul_le_sum lo fun v h => (range v h).1
  have upper := values.sum_le_card_nsmul hi fun v h => (range v h).2
  rw [nsmul_eq_mul, mul_comm] at lower upper
  exact ⟨le_tdiv positive lower, tdiv_le positive upper⟩

end Average

namespace Threads

/-- `getpriority(PRIO_PROCESS, ..)`, `none` where it sets `errno`. -/
def getPriority (ts : Threads) (tid : ℤ) : Option ℤ := (ts tid).map Sched.nice

/-- The kernel keeps nice values in their range. -/
def Ranged (ts : Threads) : Prop := ∀ tid, ∀ s ∈ ts tid, -20 ≤ s.nice ∧ s.nice ≤ 19

/-- A thread starts another one, which takes over policy and nice value. -/
def clone (ts : Threads) (parent child : ℤ) : Threads :=
  match ts parent, ts child with
  | some s, none => Function.update ts child (some s)
  | _, _ => ts

def exit (ts : Threads) (tid : ℤ) : Threads := Function.update ts tid none

variable {ts : Threads}

/-- Storing a thread whose nice value is in range keeps them all in range. -/
theorem Ranged.update (h : ts.Ranged) {tid : ℤ} {s : Option Sched}
    (range : ∀ t ∈ s, -20 ≤ t.nice ∧ t.nice ≤ 19) :
    Ranged (Function.update ts tid s) := by
  intro other t ht
  by_cases same : other = tid
  · subst same
    rw [Function.update_self] at ht
    exact range t ht
  · rw [Function.update_of_ne same] at ht
    exact h other t ht

theorem Ranged.setPriority (h : ts.Ranged) (permitted : Bool) (tid nice : ℤ) :
    Ranged (ts.setPriority permitted tid nice).1 := by
  unfold Threads.setPriority
  split
  · refine h.update fun t ht => ?_
    cases ht
    show -20 ≤ max (-20) (min nice 19) ∧ max (-20) (min nice 19) ≤ 19
    omega
  · exact h

theorem Ranged.setScheduler (h : ts.Ranged) (permitted : Bool) (tid : ℤ) (policy : Policy)
    (priority : ℕ) : Ranged (ts.setScheduler permitted tid policy priority).1 := by
  unfold Threads.setScheduler
  split
  · next _ s found =>
    refine h.update fun t ht => ?_
    cases ht
    exact h tid s found
  · exact h

theorem Ranged.clone (h : ts.Ranged) (parent child : ℤ) : Ranged (ts.clone parent child) := by
  unfold Threads.clone
  split
  · next s found _ =>
    refine h.update fun t ht => ?_
    cases ht
    exact h parent s found
  · exact h

end Threads

namespace ProcessScheduler

/-- The loop over the threads, with `any_ok`; each call comes with the outcome the kernel has for
it. -/
def renice (niceValue : ℤ) (ts : Threads) (anyOk : Bool) : List (ℤ × Bool) → Threads × Bool
  | [] => (ts, anyOk)
  | (tid, permitted) :: rest =>
    let (ts, ok) := ts.setPriority permitted tid niceValue
    renice niceValue ts (anyOk || ok) rest

def clampNice (niceValue : ℤ) : ℤ :=
  let niceValue := if niceValue < -20 then -20 else niceValue
  if 19 < niceValue then 19 else niceValue

def reniceProcessThreads (ts : Threads) (names : Option (List (List Char))) (permits : ℕ → Bool)
    (niceValue : ℤ) : Threads × Bool :=
  let tids := getProcessThreads names
  if tids.isEmpty then (ts, false)
  else renice (clampNice niceValue) ts false (attempts permits tids)

/-- -128 is an error. -/
def getAverageNice (ts : Threads) (names : Option (List (List Char))) : ℤ :=
  let values := (getProcessThreads names).filterMap ts.getPriority
  if values.isEmpty then -128 else values.sum.tdiv values.length

variable {ts : Threads} {names : Option (List (List Char))}

/-! ### Calls in any order -/

/-- What happens to the threads between two questions for the average. -/
inductive Call where
  | renice (names : Option (List (List Char))) (permits : ℕ → Bool) (niceValue : ℤ)
  | apply (n : ℤ) (permitted : Bool) (pid : ℤ) (policy : Policy)
  | restore (names : Option (List (List Char))) (n : ℤ) (permits : ℕ → Bool) (pid : ℤ)
  | setPriority (tid nice : ℤ)
  | clone (parent child : ℤ)
  | exit (tid : ℤ)

def call (ts : Threads) : Call → Threads
  | .renice names permits niceValue => (reniceProcessThreads ts names permits niceValue).1
  | .apply n permitted pid policy =>
    (applySchedulingPolicy ts (getLogicalCpuCount n) permitted pid policy).1
  | .restore names n permits pid => (restoreDefaultScheduling ts names n permits pid).1
  | .setPriority tid nice => (ts.setPriority true tid nice).1
  | .clone parent child => ts.clone parent child
  | .exit tid => ts.exit tid

theorem ranged_renice (h : ts.Ranged) (niceValue : ℤ) (anyOk : Bool) (calls : List (ℤ × Bool)) :
    Threads.Ranged (renice niceValue ts anyOk calls).1 := by
  induction calls generalizing ts anyOk with
  | nil => exact h
  | cons c calls ih => exact ih (h.setPriority c.2 c.1 niceValue) _

theorem ranged_resetNice (h : ts.Ranged) (calls : List (ℤ × Bool)) :
    Threads.Ranged (resetNice ts calls) := by
  induction calls generalizing ts with
  | nil => exact h
  | cons c calls ih => exact ih (h.setPriority c.2 c.1 0)

theorem ranged_applySchedulingPolicy (h : ts.Ranged) (cores : ℤ) (permitted : Bool) (pid : ℤ)
    (policy : Policy) :
    Threads.Ranged (applySchedulingPolicy ts cores permitted pid policy).1 := by
  unfold applySchedulingPolicy
  dsimp only
  split_ifs
  · exact h
  · exact h.setScheduler permitted pid policy _
  · exact h.setScheduler permitted pid policy _

theorem ranged_call (h : ts.Ranged) (c : Call) : Threads.Ranged (call ts c) := by
  cases c with
  | renice names permits niceValue =>
    show Threads.Ranged (ite _ _ _ : Threads × Bool).1
    split_ifs
    · exact h
    · exact ranged_renice h _ _ _
  | apply n permitted pid policy => exact ranged_applySchedulingPolicy h _ _ _ _
  | restore names n permits pid =>
    exact ranged_applySchedulingPolicy (ranged_resetNice h _) _ _ _ _
  | setPriority tid nice => exact h.setPriority true tid nice
  | clone parent child => exact h.clone parent child
  | exit tid => exact h.update (by simp)

theorem ranged_calls (h : ts.Ranged) (calls : List Call) :
    Threads.Ranged (calls.foldl call ts) := by
  induction calls generalizing ts with
  | nil => exact h
  | cons c calls ih => exact ih (ranged_call h c)

/-! ### What is read -/

theorem mem_values {v : ℤ} :
    v ∈ (getProcessThreads names).filterMap ts.getPriority ↔
      ∃ tid ∈ getProcessThreads names, ∃ s ∈ ts tid, s.nice = v := by
  simp [Threads.getPriority]

/-- There is an average to take iff a listed thread is there. -/
theorem getAverageNice_error (none : ∀ tid ∈ getProcessThreads names, ts tid = none) :
    getAverageNice ts names = -128 := by
  have empty : (getProcessThreads names).filterMap ts.getPriority = [] := by
    refine List.eq_nil_iff_forall_not_mem.2 fun v member => ?_
    obtain ⟨tid, listed, s, found, -⟩ := mem_values.1 member
    rw [none tid listed] at found
    cases found
  simp [getAverageNice, empty]

/-- The average of the listed threads that are there lies between any bounds on their nice
values. -/
theorem getAverageNice_mem {lo hi : ℤ}
    (range : ∀ tid ∈ getProcessThreads names, ∀ s ∈ ts tid, lo ≤ s.nice ∧ s.nice ≤ hi)
    {tid : ℤ} (listed : tid ∈ getProcessThreads names) (alive : ts tid ≠ none) :
    lo ≤ getAverageNice ts names ∧ getAverageNice ts names ≤ hi := by
  obtain ⟨s, found⟩ := Option.ne_none_iff_exists'.1 alive
  have nonempty : (getProcessThreads names).filterMap ts.getPriority ≠ [] :=
    List.ne_nil_of_mem (mem_values.2 ⟨tid, listed, s, found, rfl⟩)
  have read : getAverageNice ts names = _ := if_neg (by simpa using nonempty)
  rw [read]
  refine average_mem nonempty fun v member => ?_
  obtain ⟨tid, listed, s, found, rfl⟩ := mem_values.1 member
  exact range tid listed s found

/-- After any calls, clones and exits, -128 says that no listed thread is there, and every other
average is a nice value. -/
theorem getAverageNice_run (ts : Threads) (ranged : ts.Ranged) (calls : List Call)
    (names : Option (List (List Char))) :
    let after := calls.foldl call ts
    (getAverageNice after names = -128 ↔ ∀ tid ∈ getProcessThreads names, after tid = none) ∧
      (getAverageNice after names ≠ -128 →
        -20 ≤ getAverageNice after names ∧ getAverageNice after names ≤ 19) := by
  intro after
  have range := ranged_calls ranged calls
  by_cases gone : ∀ tid ∈ getProcessThreads names, after tid = none
  · have error := getAverageNice_error gone
    exact ⟨iff_of_true error gone, fun other => absurd error other⟩
  · obtain ⟨tid, listed, alive⟩ : ∃ tid ∈ getProcessThreads names, after tid ≠ none := by
      simpa using gone
    have bounds : -20 ≤ getAverageNice after names ∧ getAverageNice after names ≤ 19 :=
      getAverageNice_mem (fun tid _ s found => range tid s found) listed alive
    have real : getAverageNice after names ≠ -128 := by omega
    exact ⟨iff_of_false real gone, fun _ => bounds⟩

/-- A clone outlives the thread that started it; -1 is a nice value and no error. -/
theorem getAverageNice_run_clone :
    let ts : Threads := fun tid => if tid = 12 then some { policy := .other, nice := -1 } else none
    let after := [Call.clone 12 13, .exit 12].foldl call ts
    let names := some (["12", "13"].map String.toList);
    -20 ≤ getAverageNice after names ∧ getAverageNice after names ≤ 19 := by
  intro ts after names
  have ranged : ts.Ranged := by
    intro tid s found
    obtain ⟨-, ⟨⟩⟩ := Option.ite_none_right_eq_some.1 found
    decide
  exact (getAverageNice_run ts ranged [.clone 12 13, .exit 12] names).2 (by decide)

/-! ### What is set -/

variable {permits : ℕ → Bool} {niceValue : ℤ}

theorem clampNice_eq (niceValue : ℤ) : clampNice niceValue = max (-20) (min niceValue 19) := by
  unfold clampNice
  dsimp only
  split_ifs <;> omega

theorem setPriority_apply (permitted : Bool) (t tid : ℤ) (nice : ℤ) :
    (ts.setPriority permitted t nice).1 tid =
      (ts tid).map fun s =>
        if t = tid ∧ permitted then { s with nice := max (-20) (min nice 19) } else s := by
  by_cases hit : t = tid ∧ permitted
  · obtain ⟨rfl, rfl⟩ := hit
    cases h : ts t with
    | none => simp [Threads.setPriority, h]
    | some s => simp [Threads.setPriority, h]
  · simp only [if_neg hit, Option.map_id']
    unfold Threads.setPriority
    split
    · exact Function.update_of_ne (fun eq => hit ⟨eq.symm, rfl⟩) _ _
    · rfl

/-- The loop reaches exactly the threads it is permitted to set, -/
theorem renice_apply (anyOk : Bool) (calls : List (ℤ × Bool)) (tid : ℤ) :
    (renice niceValue ts anyOk calls).1 tid = (ts tid).map fun s =>
      if (tid, true) ∈ calls then { s with nice := max (-20) (min niceValue 19) } else s := by
  induction calls generalizing ts anyOk with
  | nil => simp [renice]
  | cons c calls ih =>
    obtain ⟨t, permitted⟩ := c
    rw [renice, ih, setPriority_apply, Option.map_map]
    congr 1
    funext s
    by_cases hit : t = tid ∧ permitted
    · obtain ⟨rfl, rfl⟩ := hit
      simp
    · have other : (tid, true) ≠ (t, permitted) := by
        rintro ⟨⟩
        exact hit ⟨rfl, rfl⟩
      simp [hit, other]

/-- and it reports whether one of them is there. -/
theorem renice_snd (anyOk : Bool) (calls : List (ℤ × Bool)) :
    (renice niceValue ts anyOk calls).2 ↔
      anyOk ∨ ∃ tid, (tid, true) ∈ calls ∧ ts tid ≠ none := by
  induction calls generalizing ts anyOk with
  | nil => simp [renice]
  | cons c calls ih =>
    obtain ⟨t, permitted⟩ := c
    have same (tid : ℤ) : (ts.setPriority permitted t niceValue).1 tid = none ↔ ts tid = none := by
      rw [setPriority_apply, Option.map_eq_none_iff]
    have ok : (ts.setPriority permitted t niceValue).2 ↔ permitted ∧ ts t ≠ none := by
      unfold Threads.setPriority
      cases ts t <;> cases permitted <;> simp
    rw [renice, ih]
    simp only [ne_eq, same, Bool.or_eq_true, ok, List.mem_cons, Prod.mk.injEq]
    grind

/-- The early return is what the loop does without threads. -/
theorem reniceProcessThreads_eq (ts : Threads) (names : Option (List (List Char)))
    (permits : ℕ → Bool) (niceValue : ℤ) : reniceProcessThreads ts names permits niceValue =
      renice (clampNice niceValue) ts false (attempts permits (getProcessThreads names)) := by
  refine ite_eq_right_iff.2 fun empty => ?_
  rw [List.isEmpty_iff.1 empty]
  rfl

/-- Only what is listed is tried. -/
theorem mem_of_attempted {permits : ℕ → Bool} {threads : List ℤ} {tid : ℤ} {permitted : Bool}
    (tried : (tid, permitted) ∈ attempts permits threads) : tid ∈ threads := by
  obtain ⟨⟨t, i⟩, h, eq⟩ := List.mem_map.1 tried
  cases eq
  exact (List.mem_zipIdx' h).2 ▸ List.getElem_mem _

/-- A renice succeeds iff it may set a listed thread that is there, sets those and no other, and
when it may set all of them the clamped value is the average read back. -/
theorem reniceProcessThreads_readBack (ts : Threads) (names : Option (List (List Char)))
    (permits : ℕ → Bool) (niceValue : ℤ) :
    let r := reniceProcessThreads ts names permits niceValue
    let set := fun tid => (tid, true) ∈ attempts permits (getProcessThreads names)
    (r.2 ↔ ∃ tid, set tid ∧ ts tid ≠ none) ∧
      (∀ tid, r.1 tid = (ts tid).map fun s =>
        if set tid then { s with nice := max (-20) (min niceValue 19) } else s) ∧
      (r.2 → (∀ tid ∈ getProcessThreads names, ts tid ≠ none → set tid) →
        getAverageNice r.1 names = max (-20) (min niceValue 19)) := by
  intro r set
  have loop : r = renice (clampNice niceValue) ts false
      (attempts permits (getProcessThreads names)) :=
    reniceProcessThreads_eq ts names permits niceValue
  have ok : r.2 ↔ ∃ tid, set tid ∧ ts tid ≠ none := by
    rw [loop, renice_snd]
    simp [set]
  have effect (tid : ℤ) : r.1 tid = (ts tid).map fun s =>
      if set tid then { s with nice := max (-20) (min niceValue 19) } else s := by
    have clamped : max (-20) (min (clampNice niceValue) 19) = max (-20) (min niceValue 19) := by
      rw [clampNice_eq]
      omega
    rw [loop, renice_apply, clamped]
  refine ⟨ok, effect, fun success all => ?_⟩
  obtain ⟨tid, reached, alive⟩ := ok.1 success
  have listed : tid ∈ getProcessThreads names := mem_of_attempted reached
  have there : r.1 tid ≠ none := by
    rw [effect]
    simpa using alive
  have value : ∀ tid ∈ getProcessThreads names, ∀ s ∈ r.1 tid,
      max (-20) (min niceValue 19) ≤ s.nice ∧ s.nice ≤ max (-20) (min niceValue 19) := by
    intro tid listed s found
    rw [effect, Option.mem_map] at found
    obtain ⟨old, before, rfl⟩ := found
    rw [if_pos (all tid listed (Option.ne_none_iff_exists'.2 ⟨old, before⟩))]
    exact ⟨le_rfl, le_rfl⟩
  have bounds := getAverageNice_mem value listed there
  omega

end ProcessScheduler

end SmoothDemon
