import Mathlib.Data.List.Count
import Mathlib.Data.List.Nodup
import Mathlib.Data.List.Perm.Basic

/-!
# Custody

A history of acquiring and releasing things, newest event first.  In a `Fair` history nothing is
acquired while it is out and only what is out is released.  `Tracks` is the invariant that proves a
history fair: a list, kept by the system, of the things it still has to give back.  Once that list
is empty, everything was released once for each time it was acquired (`ReleasedOnce`).
-/

namespace Custody

universe u

inductive Event (α : Type u)
  | acquire (a : α)
  | release (a : α)
  deriving DecidableEq

variable {α : Type u}

def Event.about : Event α → α
  | .acquire a => a
  | .release a => a

@[simp] theorem about_acquire (a : α) : (Event.acquire a).about = a := rfl

@[simp] theorem about_release (a : α) : (Event.release a).about = a := rfl

/-- The latest event about `a` is an acquisition. -/
def Out (a : α) : List (Event α) → Prop
  | [] => False
  | .acquire b :: log => a = b ∨ Out a log
  | .release b :: log => a ≠ b ∧ Out a log

def Fair : List (Event α) → Prop
  | [] => True
  | .acquire a :: log => ¬ Out a log ∧ Fair log
  | .release a :: log => Out a log ∧ Fair log

instance decidableOut [DecidableEq α] (a : α) : ∀ log, Decidable (Out a log)
  | [] => inferInstanceAs (Decidable False)
  | .acquire b :: log =>
    have := decidableOut a log
    inferInstanceAs (Decidable (a = b ∨ Out a log))
  | .release b :: log =>
    have := decidableOut a log
    inferInstanceAs (Decidable (a ≠ b ∧ Out a log))

theorem Fair.suffix {newer older : List (Event α)} (h : Fair (newer ++ older)) : Fair older := by
  induction newer with
  | nil => exact h
  | cons e newer ih =>
    cases e with
    | acquire a => exact ih h.2
    | release a => exact ih h.2

variable [DecidableEq α]

/-- Between an acquisition of `a` and the next one, `a` is released at most once, and once exactly
when it is no longer out. -/
theorem Fair.count_release {since older : List (Event α)} {a : α}
    (h : Fair (since ++ .acquire a :: older)) (again : .acquire a ∉ since) :
    since.count (.release a) = if Out a (since ++ .acquire a :: older) then 0 else 1 := by
  induction since with
  | nil => simp [Out]
  | cons e since ih =>
    have rest : .acquire a ∉ since := fun mem => again (List.mem_cons_of_mem e mem)
    cases e with
    | acquire b =>
      have other : a ≠ b := fun same => again (by simp [same])
      simp [ih h.2 rest, Out, other]
    | release b =>
      by_cases same : a = b
      · subst same
        have out : Out a (since ++ .acquire a :: older) := h.1
        simp [ih h.2 rest, Out, out]
      · have := ih h.2 rest
        simp [this, Out, same, Ne.symm same]

/-- What happened to each thing is an acquisition followed by one release, any number of times. -/
def ReleasedOnce (log : List (Event α)) : Prop :=
  ∀ a, ∃ n, (log.filter fun e => e.about = a) =
    (List.replicate n [Event.release a, Event.acquire a]).flatten

theorem Fair.filter_about {log : List (Event α)} (h : Fair log) (a : α) :
    ∃ n, (log.filter fun e => e.about = a) = (if Out a log then [.acquire a] else []) ++
      (List.replicate n [Event.release a, Event.acquire a]).flatten := by
  induction log with
  | nil => exact ⟨0, rfl⟩
  | cons e log ih =>
    cases e with
    | acquire b =>
      obtain ⟨n, rest⟩ := ih h.2
      by_cases same : a = b
      · subst same
        refine ⟨n, ?_⟩
        rw [if_neg h.1, List.nil_append] at rest
        simp [Out, rest]
      · exact ⟨n, by simp [Out, same, Ne.symm same, rest]⟩
    | release b =>
      obtain ⟨n, rest⟩ := ih h.2
      by_cases same : a = b
      · subst same
        refine ⟨n + 1, ?_⟩
        rw [if_pos h.1] at rest
        simp [Out, rest, List.replicate_succ]
      · exact ⟨n, by simp [Out, same, Ne.symm same, rest]⟩

theorem ReleasedOnce.count_eq {log : List (Event α)} (h : ReleasedOnce log) (a : α) :
    log.count (.release a) = log.count (.acquire a) := by
  obtain ⟨n, events⟩ := h a
  have kept (e : Event α) (about : e.about = a) :
      log.count e = (log.filter fun e => e.about = a).count e :=
    (List.count_filter (by simp [about])).symm
  rw [kept _ rfl, kept _ rfl, events]
  simp [List.count_flatten]

/-- The list `custody` has what is out, each thing once. -/
structure Tracks (custody : List α) (log : List (Event α)) : Prop where
  fair : Fair log
  count : ∀ a, custody.count a = if Out a log then 1 else 0

namespace Tracks

variable {custody custody' : List α} {log : List (Event α)} {a : α}

theorem nil : Tracks ([] : List α) [] := ⟨trivial, fun _ => by simp [Out]⟩

theorem mem_iff (h : Tracks custody log) : a ∈ custody ↔ Out a log := by
  rw [← List.count_pos_iff, h.count]
  split_ifs with out <;> simp [out]

theorem nodup (h : Tracks custody log) : custody.Nodup := by
  refine List.nodup_iff_count_le_one.2 fun a => ?_
  rw [h.count]
  split_ifs <;> simp

theorem perm (h : Tracks custody log) (same : custody'.Perm custody) : Tracks custody' log :=
  ⟨h.fair, fun a => by rw [same.count_eq, h.count]⟩

theorem acquire (h : Tracks custody log) (free : ¬ Out a log)
    (more : custody'.Perm (a :: custody)) : Tracks custody' (.acquire a :: log) := by
  refine ⟨⟨free, h.fair⟩, fun b => ?_⟩
  rw [more.count_eq, List.count_cons, h.count]
  by_cases same : b = a
  · subst same
    simp [Out, free]
  · simp [Out, same, Ne.symm same]

theorem release (h : Tracks custody log) (less : custody.Perm (a :: custody')) :
    Tracks custody' (.release a :: log) := by
  have out : Out a log := h.mem_iff.1 (less.mem_iff.2 (by simp))
  refine ⟨⟨out, h.fair⟩, fun b => ?_⟩
  have before : custody.count b = if Out b log then 1 else 0 := h.count b
  rw [less.count_eq, List.count_cons] at before
  by_cases same : b = a
  · subst same
    have none : custody'.count b = 0 := by simpa [out] using before
    simp [Out, none]
  · simp only [beq_iff_eq, Ne.symm same, if_false, Nat.add_zero] at before
    simp [Out, same, before]

/-- Giving back everything in `as`, in this order. -/
theorem releaseAll {as : List α} (h : Tracks (as ++ custody) log) :
    Tracks custody (as.foldl (fun log a => .release a :: log) log) := by
  induction as generalizing log with
  | nil => exact h
  | cons a as ih => exact ih (h.release (List.Perm.refl _))

theorem releasedOnce (h : Tracks [] log) : ReleasedOnce log := by
  intro a
  obtain ⟨n, events⟩ := h.fair.filter_about a
  have gone : ¬ Out a log := fun out => absurd (h.mem_iff.2 out) List.not_mem_nil
  rw [if_neg gone, List.nil_append] at events
  exact ⟨n, events⟩

/-- Everything was given back iff nothing is left to give back. -/
theorem releasedOnce_iff_nil (h : Tracks custody log) : ReleasedOnce log ↔ custody = [] := by
  constructor
  · intro once
    refine List.eq_nil_iff_forall_not_mem.2 fun a member => ?_
    obtain ⟨n, events⟩ := h.fair.filter_about a
    obtain ⟨m, events'⟩ := once a
    rw [if_pos (h.mem_iff.1 member), events'] at events
    have lengths := congrArg List.length events
    simp [List.length_flatten] at lengths
    omega
  · rintro rfl
    exact h.releasedOnce

end Tracks

/-! ### Things that can be out several times -/

/-- `a` was never released more often than it had been acquired. -/
def Covered (a : α) (log : List (Event α)) : Prop :=
  ∀ older, older <:+ log → older.count (.release a) ≤ older.count (.acquire a)

/-- and it was released as often in the end. -/
def Cleared (a : α) (log : List (Event α)) : Prop :=
  Covered a log ∧ log.count (.release a) = log.count (.acquire a)

/-- Everything was released once for each time it had been acquired. -/
def Settled (log : List (Event α)) : Prop := ∀ a, Cleared a log

theorem covered_cons {a : α} {e : Event α} {log : List (Event α)} :
    Covered a (e :: log) ↔
      (e :: log).count (.release a) ≤ (e :: log).count (.acquire a) ∧ Covered a log := by
  constructor
  · intro h
    exact ⟨h _ List.suffix_rfl, fun older old => h older (old.trans (List.suffix_cons e log))⟩
  · rintro ⟨now, before⟩ older old
    rcases List.suffix_cons_iff.1 old with rfl | old
    · exact now
    · exact before older old

theorem Fair.count_acquire {log : List (Event α)} (h : Fair log) (a : α) :
    log.count (.acquire a) = log.count (.release a) + if Out a log then 1 else 0 := by
  induction log with
  | nil => simp [Out]
  | cons e log ih =>
    cases e with
    | acquire b =>
      have before := ih h.2
      by_cases same : a = b
      · subst same
        rw [if_neg h.1] at before
        simp [Out, before]
      · simp [Out, same, Ne.symm same, before]
    | release b =>
      have before := ih h.2
      by_cases same : a = b
      · subst same
        rw [if_pos h.1] at before
        simp [Out, before]
      · simp [Out, same, Ne.symm same, before]

theorem Fair.covered {log : List (Event α)} (h : Fair log) (a : α) : Covered a log := by
  rintro older ⟨newer, rfl⟩
  rw [h.suffix.count_acquire]
  exact Nat.le_add_right _ _

theorem Tracks.settled {log : List (Event α)} (h : Tracks [] log) : Settled log :=
  fun a => ⟨h.fair.covered a, h.releasedOnce.count_eq a⟩

/-- The list `custody` has what is out, as often as it is out, as long as nothing has `strayed`:
nothing was released that was not out. -/
def Keeps (custody : List α) : Bool → List (Event α) → Prop
  | false, log => ∀ a,
    Covered a log ∧ custody.count a + log.count (.release a) = log.count (.acquire a)
  | true, log => ∃ a, ¬ Covered a log

namespace Keeps

variable {custody custody' : List α} {strayed : Bool} {log : List (Event α)} {a : α}

theorem nil : Keeps ([] : List α) false [] := by
  refine fun a => ⟨fun older old => ?_, rfl⟩
  rw [List.suffix_nil.1 old]
  exact Nat.le_refl _

/-- What has strayed once stays so. -/
theorem cons (h : Keeps custody true log) (e : Event α) : Keeps custody' true (e :: log) :=
  h.imp fun _ stray covered => stray (covered_cons.1 covered).2

theorem acquire (h : Keeps custody strayed log) (more : custody'.Perm (a :: custody)) :
    Keeps custody' strayed (.acquire a :: log) := by
  cases strayed with
  | true => exact h.cons _
  | false =>
    intro b
    obtain ⟨covered, count⟩ := h b
    rw [more.count_eq]
    simp only [covered_cons, List.count_cons, Event.acquire.injEq, beq_iff_eq, reduceCtorEq,
      if_false, Nat.add_zero]
    exact ⟨⟨by omega, covered⟩, by omega⟩

theorem release (h : Keeps custody strayed log) (less : custody.Perm (a :: custody')) :
    Keeps custody' strayed (.release a :: log) := by
  cases strayed with
  | true => exact h.cons _
  | false =>
    intro b
    obtain ⟨covered, count⟩ := h b
    rw [less.count_eq] at count
    simp only [covered_cons, List.count_cons, Event.release.injEq, beq_iff_eq, reduceCtorEq,
      if_false, Nat.add_zero] at count ⊢
    exact ⟨⟨by omega, covered⟩, by omega⟩

/-- Releasing what is not out. -/
theorem stray (h : Keeps custody strayed log) (absent : a ∉ custody) :
    Keeps custody' true (.release a :: log) := by
  cases strayed with
  | true => exact h.cons _
  | false =>
    refine ⟨a, fun covered => ?_⟩
    have even : log.count (.release a) = log.count (.acquire a) := by
      rw [← (h a).2, List.count_eq_zero.2 absent, Nat.zero_add]
    have now := (covered_cons.1 covered).1
    rw [List.count_cons_self, List.count_cons_of_ne (by simp), even] at now
    exact Nat.not_succ_le_self _ now

theorem settled_iff (h : Keeps custody strayed log) :
    Settled log ↔ custody = [] ∧ strayed = false := by
  cases strayed with
  | true =>
    obtain ⟨a, uncovered⟩ := h
    simpa using fun settled : Settled log => uncovered (settled a).1
  | false =>
    rw [and_iff_left rfl]
    constructor
    · intro settled
      refine List.eq_nil_iff_forall_not_mem.2 fun a => List.count_eq_zero.1 ?_
      have even := (settled a).2
      have count := (h a).2
      omega
    · rintro rfl a
      obtain ⟨covered, count⟩ := h a
      exact ⟨covered, by simpa using count⟩

end Keeps

/-! ### Histories of several kinds of things -/

section Parts

/-- The events about the things of one kind. -/
def part {α β : Type u} (kind : β → Option α) (log : List (Event β)) : List (Event α) :=
  log.filterMap fun
    | .acquire b => (kind b).map .acquire
    | .release b => (kind b).map .release

section

variable {α β : Type u} {kind : β → Option α} {log : List (Event β)}

theorem part_append (newer : List (Event β)) :
    part kind (newer ++ log) = part kind newer ++ part kind log := List.filterMap_append

@[simp] theorem part_acquire (b : β) :
    part kind (.acquire b :: log) = (kind b).toList.map .acquire ++ part kind log := by
  cases h : kind b <;> simp [part, h]

@[simp] theorem part_release (b : β) :
    part kind (.release b :: log) = (kind b).toList.map .release ++ part kind log := by
  cases h : kind b <;> simp [part, h]

theorem out_part {a : α} {b : β} (own : ∀ c, kind c = some a ↔ c = b) :
    Out a (part kind log) ↔ Out b log := by
  induction log with
  | nil => exact Iff.rfl
  | cons e log ih =>
    cases e with
    | acquire c =>
      have same : kind c = some a ↔ b = c := (own c).trans eq_comm
      rw [part_acquire]
      cases h : kind c <;> simp_all [Out, eq_comm]
    | release c =>
      have same : kind c = some a ↔ b = c := (own c).trans eq_comm
      rw [part_release]
      cases h : kind c <;> simp_all [Out, eq_comm]

end

variable {β : Type u} [DecidableEq β] {kind : β → Option α} {log : List (Event β)}

/-- What happened to one thing is to be seen in the part about its kind. -/
theorem filter_part {a : α} {b : β} (own : ∀ c, kind c = some a ↔ c = b) :
    ∃ events : List Bool,
      ((part kind log).filter fun e => e.about = a) =
          events.map (fun new => if new then .acquire a else .release a) ∧
        (log.filter fun e => e.about = b) =
          events.map (fun new => if new then .acquire b else .release b) := by
  induction log with
  | nil => exact ⟨[], rfl, rfl⟩
  | cons e log ih =>
    obtain ⟨events, left, right⟩ := ih
    by_cases same : e.about = b
    · have seen : kind e.about = some a := (own _).2 same
      cases e with
      | acquire c =>
        obtain rfl : c = b := same
        rw [about_acquire] at seen
        exact ⟨true :: events, by simp [seen, left], by simp [right]⟩
      | release c =>
        obtain rfl : c = b := same
        rw [about_release] at seen
        exact ⟨false :: events, by simp [seen, left], by simp [right]⟩
    · have other : ∀ a' ∈ kind e.about, a' ≠ a := fun a' h eq => same ((own _).1 (eq ▸ h))
      refine ⟨events, ?_, by simp [same, right]⟩
      cases e with
      | acquire c =>
        rw [about_acquire] at other
        cases h : kind c <;> simp_all
      | release c =>
        rw [about_release] at other
        cases h : kind c <;> simp_all

/-- One thing was given back as often as it was taken. -/
def Once (a : α) (log : List (Event α)) : Prop :=
  ∃ n, (log.filter fun e => e.about = a) =
    (List.replicate n [Event.release a, Event.acquire a]).flatten

theorem once_iff {a : α} {log : List (Event α)} {events : List Bool}
    (read : (log.filter fun e => e.about = a) =
      events.map fun new => if new then .acquire a else .release a) :
    Once a log ↔ ∃ n, events = (List.replicate n [false, true]).flatten := by
  have injective : Function.Injective fun new : Bool =>
      if new then Event.acquire a else Event.release a := by
    intro new new' same
    cases new <;> cases new' <;> simp_all
  unfold Once
  rw [read]
  refine exists_congr fun n => ?_
  have rounds : (List.replicate n [Event.release a, Event.acquire a]).flatten =
      ((List.replicate n [false, true]).flatten).map
        fun new => if new then Event.acquire a else Event.release a := by
    simp [List.map_flatten]
  rw [rounds, injective.list_map.eq_iff]

theorem once_part {a : α} {b : β} (own : ∀ c, kind c = some a ↔ c = b) :
    Once a (part kind log) ↔ Once b log := by
  obtain ⟨events, left, right⟩ := filter_part own
  exact (once_iff left).trans (once_iff right).symm

theorem count_part {a : α} {b : β} (own : ∀ c, kind c = some a ↔ c = b) (log : List (Event β)) :
    (part kind log).count (.acquire a) = log.count (.acquire b) ∧
      (part kind log).count (.release a) = log.count (.release b) := by
  induction log with
  | nil => exact ⟨rfl, rfl⟩
  | cons e log ih =>
    obtain ⟨acquired, released⟩ := ih
    cases e with
    | acquire c =>
      by_cases same : c = b
      · subst same
        simp [(own c).2 rfl, acquired, released]
      · have other : ∀ a' ∈ kind c, a' ≠ a := fun a' h eq => same ((own c).1 (eq ▸ h))
        cases h : kind c <;> simp_all
    | release c =>
      by_cases same : c = b
      · subst same
        simp [(own c).2 rfl, acquired, released]
      · have other : ∀ a' ∈ kind c, a' ≠ a := fun a' h eq => same ((own c).1 (eq ▸ h))
        cases h : kind c <;> simp_all

theorem cleared_part {a : α} {b : β} (own : ∀ c, kind c = some a ↔ c = b) :
    Cleared a (part kind log) ↔ Cleared b log := by
  unfold Cleared Covered
  rw [(count_part own log).1, (count_part own log).2]
  refine and_congr_left' ⟨fun h older old => ?_, fun h older old => ?_⟩
  · have seen := h _ (List.suffix_filterMap_iff.2 ⟨older, old, rfl⟩)
    rwa [← part, (count_part own older).1, (count_part own older).2] at seen
  · obtain ⟨whole, before, rfl⟩ := List.suffix_filterMap_iff.1 old
    rw [← part, (count_part own whole).1, (count_part own whole).2]
    exact h whole before

end Parts

end Custody
