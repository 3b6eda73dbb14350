import Mathlib.Data.Int.Notation
import Mathlib.Logic.Function.Basic
import Mathlib.Tactic.IntervalCases
import SmoothDemon.Library.Records

/-!
# I/O priority of a process

`SetProcessIOPriority` and `GetProcessIOPriority` (src/resource/IOPriority.cpp) with `MakeIOPrio`
(include/resource/IOPriority.h) on a kernel that stores the word it is given.  What is read back is
the clamped level of the last call that succeeded for this process (`getProcessIOPriority_run`); the
class is not, so the same level of two classes reads alike.
-/

namespace SmoothDemon

inductive IOClass where
  | none
  | realTime
  | bestEffort
  | idle
  deriving DecidableEq

def IOClass.toInt32 : IOClass → Int32
  | .none => 0
  | .realTime => 1
  | .bestEffort => 2
  | .idle => 3

def makeIOPrio (cls : IOClass) (prioData : Int32) : Int32 :=
  (cls.toInt32 <<< 13) ||| (prioData &&& 0x1FFF)

/-- The stored words of the threads there are, and the thread that calls.  A word of class `none`
stands for a default that `unset` gives. -/
structure IOKernel where
  self : ℤ
  stored : ℤ → Option Int32
  unset : ℤ → Int32

namespace IOKernel

/-- 0 is the caller. -/
def thread (k : IOKernel) (who : ℤ) : ℤ := if who = 0 then k.self else who

def store (k : IOKernel) (who : ℤ) (ioprio : Int32) : IOKernel :=
  { k with stored := Function.update k.stored (k.thread who) (some ioprio) }

/-- `ioprio_set(IOPRIO_WHO_PROCESS, ..)`, and whether it succeeds.  Class `none` takes no level. -/
def ioprioSet (k : IOKernel) (permitted : Bool) (who : ℤ) (ioprio : Int32) : IOKernel × Bool :=
  if (k.stored (k.thread who)).isSome ∧ permitted ∧ (ioprio >>> 13 = 0 → ioprio = 0) then
    (k.store who ioprio, true)
  else (k, false)

/-- `ioprio_get(IOPRIO_WHO_PROCESS, ..)`. -/
def ioprioGet (k : IOKernel) (who : ℤ) : Int32 :=
  match k.stored (k.thread who) with
  | none => -1
  | some ioprio => if ioprio >>> 13 = 0 then k.unset (k.thread who) else ioprio

theorem ioprioGet_store (k : IOKernel) (who pid : ℤ) (ioprio : Int32) :
    (k.store who ioprio).ioprioGet pid =
      if k.thread who = k.thread pid then
        if ioprio >>> 13 = 0 then k.unset (k.thread pid) else ioprio
      else k.ioprioGet pid := by
  have stored : (k.store who ioprio).stored ((k.store who ioprio).thread pid) =
      if k.thread who = k.thread pid then some ioprio else k.stored (k.thread pid) := by
    show Function.update k.stored (k.thread who) (some ioprio) (k.thread pid) = _
    simp only [Function.update_apply, eq_comm]
  rw [ioprioGet, stored]
  by_cases same : k.thread who = k.thread pid
  · rw [if_pos same, if_pos same]
    rfl
  · rw [if_neg same, if_neg same]
    rfl

end IOKernel

namespace IOPriority

def clampLevel (level : Int32) : Int32 :=
  let level := if level < 0 then 0 else level
  if 7 < level then 7 else level

def setProcessIOPriority (k : IOKernel) (permitted : Bool) (pid : ℤ) (cls : IOClass)
    (level : Int32) : IOKernel × Bool :=
  k.ioprioSet permitted pid (makeIOPrio cls (clampLevel level))

/-- The low 13 bits are the level, -1 is an error. -/
def getProcessIOPriority (k : IOKernel) (pid : ℤ) : Int32 :=
  let v := k.ioprioGet pid
  if v < 0 then -1 else v &&& 0x1FFF

/-! ### What a word holds -/

/-- The levels there are. -/
def levels : List Int32 := [0, 1, 2, 3, 4, 5, 6, 7]

theorem clampLevel_mem (level : Int32) : clampLevel level ∈ levels := by
  unfold clampLevel
  dsimp only
  split_ifs with negative large large
  · decide
  · decide
  · decide
  · have lower : 0 ≤ level.toInt := not_lt.1 fun h => negative (Int32.lt_iff_toInt_lt.2 h)
    have upper : level.toInt ≤ 7 := not_lt.1 fun h => large (Int32.lt_iff_toInt_lt.2 h)
    have word : level = Int32.ofInt level.toInt := (Int32.ofInt_toInt level).symm
    rw [word]
    interval_cases level.toInt <;> decide

/-- A word gives its level back, and its class is told by what lies above. -/
theorem makeIOPrio_decode (cls : IOClass) {level : Int32} (h : level ∈ levels) :
    makeIOPrio cls level &&& 0x1FFF = level ∧ makeIOPrio cls level >>> 13 = cls.toInt32 ∧
      ¬ makeIOPrio cls level < 0 := by
  simp only [levels, List.mem_cons, List.not_mem_nil, or_false] at h
  cases cls <;> rcases h with rfl | rfl | rfl | rfl | rfl | rfl | rfl | rfl <;> decide

/-! ### Calls in any order -/

structure SetCall where
  permitted : Bool
  pid : ℤ
  cls : IOClass
  level : Int32

def set (k : IOKernel) (c : SetCall) : IOKernel :=
  (setProcessIOPriority k c.permitted c.pid c.cls c.level).1

/-- The kernel grants the call. -/
def Granted (k : IOKernel) (c : SetCall) : Prop :=
  (k.stored (k.thread c.pid)).isSome ∧ c.permitted ∧ (c.cls = .none → clampLevel c.level = 0)

instance (k : IOKernel) (c : SetCall) : Decidable (Granted k c) :=
  inferInstanceAs (Decidable (_ ∧ _))

/-- What a granted call leaves to be read. -/
def SetCall.reads (k : IOKernel) (c : SetCall) : Int32 :=
  if c.cls = .none then
    if k.unset (k.thread c.pid) < 0 then -1 else k.unset (k.thread c.pid) &&& 0x1FFF
  else clampLevel c.level

variable {k : IOKernel} {c : SetCall}

theorem zero_of_class {cls : IOClass} : cls.toInt32 = 0 ↔ cls = .none := by
  cases cls <;> decide

/-- The kernel takes the word iff the call is granted. -/
theorem setProcessIOPriority_eq : setProcessIOPriority k c.permitted c.pid c.cls c.level =
    if Granted k c then (k.store c.pid (makeIOPrio c.cls (clampLevel c.level)), true)
    else (k, false) := by
  obtain ⟨level, cls, -⟩ := makeIOPrio_decode c.cls (clampLevel_mem c.level)
  have valid : (makeIOPrio c.cls (clampLevel c.level) >>> 13 = 0 →
      makeIOPrio c.cls (clampLevel c.level) = 0) ↔ (c.cls = .none → clampLevel c.level = 0) := by
    rw [cls, zero_of_class]
    refine imp_congr_right fun none => ⟨fun zero => ?_, fun zero => ?_⟩
    · rw [← level, zero]
      rfl
    · rw [none, zero]
      rfl
  refine if_congr ?_ rfl rfl
  rw [valid, Granted]

theorem getProcessIOPriority_set (pid : ℤ) : getProcessIOPriority (set k c) pid =
    if k.thread c.pid = k.thread pid ∧ Granted k c then c.reads k
    else getProcessIOPriority k pid := by
  unfold set
  rw [setProcessIOPriority_eq]
  by_cases granted : Granted k c
  · by_cases same : k.thread c.pid = k.thread pid
    · obtain ⟨level, cls, positive⟩ := makeIOPrio_decode c.cls (clampLevel_mem c.level)
      rw [if_pos granted, if_pos ⟨same, granted⟩, getProcessIOPriority, IOKernel.ioprioGet_store,
        if_pos same, SetCall.reads, same]
      simp only [cls, zero_of_class]
      by_cases none : c.cls = .none
      · simp only [if_pos none]
      · simp only [if_neg none, if_neg positive, level]
    · rw [if_pos granted, if_neg fun h => same h.1, getProcessIOPriority, IOKernel.ioprioGet_store,
        if_neg same]
      rfl
  · rw [if_neg granted, if_neg fun h => granted h.2]

/-- No call makes another thread the caller, nor changes what stands for class `none`. -/
theorem thread_set : (set k c).thread = k.thread ∧ (set k c).unset = k.unset := by
  unfold set
  rw [setProcessIOPriority_eq]
  split_ifs <;> exact ⟨rfl, rfl⟩

theorem granted_set (c' : SetCall) : Granted (set k c) c' ↔ Granted k c' := by
  have there (tid : ℤ) : ((set k c).stored tid).isSome ↔ (k.stored tid).isSome := by
    unfold set
    rw [setProcessIOPriority_eq]
    split_ifs with granted
    · by_cases same : tid = k.thread c.pid
      · simp [IOKernel.store, same, granted.1]
      · simp [IOKernel.store, same]
    · rfl
  rw [Granted, Granted, thread_set.1, there]

theorem reads_set (c' : SetCall) : c'.reads (set k c) = c'.reads k := by
  rw [SetCall.reads, SetCall.reads, thread_set.1, thread_set.2]

/-- What a call does to the process, as the threads stood at the start. -/
def SetCall.value (k : IOKernel) (pid : ℤ) (c : SetCall) : Option Int32 :=
  if k.thread c.pid = k.thread pid ∧ Granted k c then some (c.reads k) else none

theorem granted_foldl (calls : List SetCall) (c : SetCall) :
    (Granted (calls.foldl set k) c ↔ Granted k c) ∧ c.reads (calls.foldl set k) = c.reads k ∧
      (calls.foldl set k).thread = k.thread := by
  induction calls generalizing k with
  | nil => exact ⟨Iff.rfl, rfl, rfl⟩
  | cons c' calls ih =>
    obtain ⟨granted, reads, thread⟩ := ih (k := set k c')
    exact ⟨granted.trans (granted_set c), reads.trans (reads_set c), thread.trans thread_set.1⟩

/-- After any calls, what is read of a process is the clamped level of the last of its calls that
the kernel granted, and a call is granted by what the process is allowed and not by other calls. -/
theorem getProcessIOPriority_run (k : IOKernel) (calls : List SetCall) (pid : ℤ) :
    let after := calls.foldl set k
    (∀ c, (setProcessIOPriority after c.permitted c.pid c.cls c.level).2 ↔ Granted k c) ∧
      getProcessIOPriority after pid =
        (calls.filterMap (SetCall.value k pid)).getLast?.getD (getProcessIOPriority k pid) := by
  intro after
  refine ⟨fun c => ?_, ?_⟩
  · have granted : Granted after c ↔ Granted k c := (granted_foldl calls c).1
    rw [setProcessIOPriority_eq, ← granted]
    split_ifs with h
    · exact iff_of_true rfl h
    · exact iff_of_false not_false h
  · induction calls using List.reverseRecOn with
    | nil => rfl
    | append_singleton calls c ih =>
      obtain ⟨granted, reads, thread⟩ := granted_foldl (k := k) calls c
      rw [Records.getD_getLast?_concat, ← ih]
      show getProcessIOPriority ((calls ++ [c]).foldl set k) pid = _
      rw [List.foldl_concat, getProcessIOPriority_set, reads, thread, SetCall.value,
        if_congr (and_congr_right fun _ => granted) rfl rfl]
      split_ifs <;> rfl

end IOPriority

end SmoothDemon
