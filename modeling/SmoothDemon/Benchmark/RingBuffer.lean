import Mathlib.Data.List.DropRight
import Mathlib.Data.Nat.ModEq

/-!
# The ring buffer

`RingBuffer` (include/benchmark/RingBuffer.h).  Its fields carry what keeps every access inside the
storage: the write position is a slot, no more samples are counted than there are slots, and until
the buffer is full the write position is the number of samples.  `Holds rb l` says that the buffer
was filled by pushing `l` since the last `Clear`; slot `j % Capacity` then keeps the `j`-th push as
long as it is one of the last `Capacity`.
-/

namespace SmoothDemon

universe u

structure RingBuffer (T : Type u) (capacity : ℕ) where
  data : Vector T capacity
  head : ℕ
  count : ℕ
  head_lt : head < capacity
  count_le : count ≤ capacity
  head_eq : count < capacity → head = count

namespace RingBuffer

variable {T : Type u} {capacity : ℕ}

section Operations

variable [NeZero capacity]

/-- A default-constructed buffer; `capacity ≠ 0` is the `static_assert` of the class. -/
def empty [Inhabited T] : RingBuffer T capacity where
  data := Vector.replicate capacity default
  head := 0
  count := 0
  head_lt := Nat.pos_of_neZero capacity
  count_le := Nat.zero_le capacity
  head_eq _ := rfl

def push (rb : RingBuffer T capacity) (value : T) : RingBuffer T capacity where
  data := rb.data.set rb.head value rb.head_lt
  head := (rb.head + 1) % capacity
  count := if rb.count < capacity then rb.count + 1 else rb.count
  head_lt := Nat.mod_lt _ (Nat.pos_of_neZero capacity)
  count_le := by
    have := rb.count_le
    split_ifs <;> omega
  head_eq := by
    split_ifs with room
    · intro more
      rw [rb.head_eq room, Nat.mod_eq_of_lt more]
    · intro more
      omega

def clear (rb : RingBuffer T capacity) : RingBuffer T capacity where
  data := rb.data
  head := 0
  count := 0
  head_lt := Nat.pos_of_neZero capacity
  count_le := Nat.zero_le capacity
  head_eq _ := rfl

end Operations

def size (rb : RingBuffer T capacity) : ℕ := rb.count

/-- The slot `operator[]` reads for the `i`-th oldest sample. -/
def storageIndex (rb : RingBuffer T capacity) (i : ℕ) : ℕ :=
  if rb.count < capacity then i else (rb.head + i) % capacity

/-- `operator[]`; `none` is a read outside the storage. -/
def get? (rb : RingBuffer T capacity) (i : ℕ) : Option T := rb.data[rb.storageIndex i]?

def copyTo (rb : RingBuffer T capacity) (dest : List T) : Option (List T) :=
  (List.range rb.count).foldlM (fun dest i => (rb.get? i).map fun v => dest ++ [v]) dest

theorem storageIndex_lt (rb : RingBuffer T capacity) {i : ℕ} (h : i < rb.size) :
    rb.storageIndex i < capacity := by
  unfold storageIndex
  split_ifs with room
  · exact lt_trans h room
  · exact Nat.mod_lt _ (lt_of_le_of_lt (Nat.zero_le _) rb.head_lt)

/-! ### What the buffer holds -/

/-- The values pushed since the last `Clear` were `l`. -/
structure Holds (rb : RingBuffer T capacity) (l : List T) : Prop where
  head : rb.head = l.length % capacity
  count : rb.count = min l.length capacity
  slot : ∀ j (h : j < l.length), l.length ≤ j + capacity → rb.data[j % capacity]? = some l[j]

namespace Holds

variable {rb : RingBuffer T capacity} {l : List T}

theorem nil (head : rb.head = 0) (count : rb.count = 0) :
    rb.Holds [] where
  head := by simpa using head
  count := by simpa using count
  slot j h := absurd h (Nat.not_lt_zero j)

protected theorem push [NeZero capacity] (h : rb.Holds l) (value : T) :
    (rb.push value).Holds (l ++ [value]) where
  head := by
    simp only [RingBuffer.push, h.head, List.length_append, List.length_singleton, Nat.mod_add_mod]
  count := by
    simp only [RingBuffer.push, h.count, List.length_append, List.length_singleton]
    split_ifs <;> omega
  slot j hj recent := by
    simp only [List.length_append, List.length_singleton] at hj recent
    have pos := Nat.pos_of_neZero capacity
    show (rb.data.set rb.head value rb.head_lt)[j % capacity]? = _
    by_cases newest : j = l.length
    · subst newest
      simp [h.head, Nat.mod_lt _ pos]
    · -- an older push that is still recent does not share its slot with the new one
      have other : rb.head ≠ j % capacity := by
        intro same
        rw [h.head] at same
        have apart : capacity ∣ l.length - j := (Nat.modEq_iff_dvd' (by omega)).1 same.symm
        have := Nat.le_of_dvd (by omega) apart
        omega
      have older : j < l.length := by omega
      rw [Vector.getElem?_set_ne _ other, h.slot j older (by omega),
        List.getElem_append_left older]

theorem size_eq (h : rb.Holds l) : rb.size = (l.rtake capacity).length := by
  unfold size List.rtake
  rw [h.count, List.length_drop]
  omega

theorem get?_eq (h : rb.Holds l) {i : ℕ} (hi : i < (l.rtake capacity).length) :
    rb.get? i = some (l.rtake capacity)[i] := by
  have hi' := hi
  rw [← h.size_eq, size, h.count] at hi'
  have oldest : (l.rtake capacity)[i] = l[l.length - capacity + i] := by simp [List.rtake]
  rw [oldest, ← h.slot (l.length - capacity + i) (by omega) (by omega)]
  unfold get? storageIndex
  split_ifs with room
  · rw [h.count] at room
    rw [show l.length - capacity + i = i by omega, Nat.mod_eq_of_lt (by omega)]
  · rw [h.count] at room
    have wrap : (rb.head + i) % capacity = (l.length - capacity + i) % capacity := by
      rw [h.head, Nat.mod_add_mod, ← Nat.add_mod_right (l.length - capacity + i) capacity]
      congr 1
      omega
    rw [wrap]

theorem foldlM_get? (h : rb.Holds l) (dest : List T) {n : ℕ} (hn : n ≤ rb.count) :
    (List.range n).foldlM (fun dest i => (rb.get? i).map fun v => dest ++ [v]) dest =
      some (dest ++ (l.rtake capacity).take n) := by
  induction n with
  | zero => simp
  | succ n ih =>
    have hi : n < (l.rtake capacity).length := by
      rw [← h.size_eq]
      exact hn
    have next : rb.get? n = some (l.rtake capacity)[n] := h.get?_eq hi
    rw [List.range_succ, List.foldlM_append, ih (by omega), ← List.take_append_getElem hi]
    simp [next]

theorem copyTo_eq (h : rb.Holds l) (dest : List T) :
    rb.copyTo dest = some (dest ++ l.rtake capacity) := by
  unfold copyTo
  rw [h.foldlM_get? dest le_rfl, List.take_of_length_le]
  rw [← h.size_eq]
  exact le_rfl

end Holds

/-! ### Refinement of a bounded list -/

inductive Op (T : Type u)
  | push (value : T)
  | clear

section Refinement

variable [NeZero capacity]

def apply (rb : RingBuffer T capacity) : Op T → RingBuffer T capacity
  | .push value => rb.push value
  | .clear => rb.clear

/-- A buffer after a history of calls. -/
def run [Inhabited T] (ops : List (Op T)) : RingBuffer T capacity := ops.foldl apply empty

/-- The abstract state: every value pushed since the last `Clear`, oldest first. -/
def pushedSinceClear (ops : List (Op T)) : List T :=
  ops.foldl (fun l op => match op with
    | .push value => l ++ [value]
    | .clear => []) []

theorem holds_run [Inhabited T] (ops : List (Op T)) :
    (run ops : RingBuffer T capacity).Holds (pushedSinceClear ops) := by
  induction ops using List.reverseRecOn with
  | nil => exact .nil rfl rfl
  | append_singleton ops op ih =>
    unfold run pushedSinceClear at ih ⊢
    rw [List.foldl_append, List.foldl_append]
    cases op with
    | push value => exact ih.push value
    | clear => exact .nil rfl rfl

/-- After any history the buffer is the list of the last `capacity` values pushed since `Clear`. -/
theorem run_refines (T : Type u) [Inhabited T] (capacity : ℕ) [NeZero capacity]
    (ops : List (Op T)) :
    let rb : RingBuffer T capacity := run ops
    let l := (pushedSinceClear ops).rtake capacity
    l.length = min (pushedSinceClear ops).length capacity ∧ rb.size = l.length ∧
      (∀ i (_ : i < l.length), rb.storageIndex i < capacity ∧ rb.get? i = some l[i]) ∧
      ∀ dest, rb.copyTo dest = some (dest ++ l) := by
  intro rb l
  have holds : rb.Holds (pushedSinceClear ops) := holds_run ops
  refine ⟨?_, holds.size_eq, fun i hi => ⟨?_, holds.get?_eq hi⟩, holds.copyTo_eq⟩
  · rw [← holds.size_eq]
    exact holds.count
  · apply rb.storageIndex_lt
    rw [holds.size_eq]
    exact hi

theorem run_refines_three :
    let rb : RingBuffer ℕ 3 := run [.push 7, .clear, .push 1, .push 2, .push 3, .push 4]
    rb.size = 3 ∧ rb.copyTo [] = some [2, 3, 4] := by
  obtain ⟨-, size, -, copied⟩ :=
    run_refines ℕ 3 [.push 7, .clear, .push 1, .push 2, .push 3, .push 4]
  exact ⟨size, copied []⟩

end Refinement

end RingBuffer

end SmoothDemon
