import Mathlib.Data.List.Enum
import Mathlib.Logic.Function.Basic
import SmoothDemon.Monitor.Procfs

/-!
# Scheduling of a process

`ProcessScheduler` (src/resource/ProcessScheduler.cpp) on threads that each have a policy and a nice
value.  Every system call acts on one thread and may be refused.  `RestoreDefaultScheduling` looks
at the outcome of one of its calls, the one that sets the policy of the main thread, so what it
returns tells about the other threads only where nothing was left to do
(`restoreDefaultScheduling_restores_iff`).
-/

namespace SmoothDemon

inductive Policy where
  | other
  | fifo
  | rr
  | batch
  | iso
  | idle
  deriving DecidableEq

structure Sched where
  policy : Policy
  priority : ℕ := 0
  nice : ℤ := 0
  deriving DecidableEq

/-- The threads there are, by id. -/
abbrev Threads := ℤ → Option Sched

namespace Threads

/-- `setpriority(PRIO_PROCESS, ..)`, and whether it succeeds. -/
def setPriority (ts : Threads) (permitted : Bool) (tid nice : ℤ) : Threads × Bool :=
  match ts tid, permitted with
  | some s, true => (Function.update ts tid (some { s with nice := max (-20) (min nice 19) }), true)
  | _, _ => (ts, false)

/-- `sched_setscheduler`, and whether it succeeds. -/
def setScheduler (ts : Threads) (permitted : Bool) (tid : ℤ) (policy : Policy) (priority : ℕ) :
    Threads × Bool :=
  match ts tid, permitted with
  | some s, true => (Function.update ts tid (some { s with policy, priority }), true)
  | _, _ => (ts, false)

end Threads

namespace ProcessScheduler

/-- `names` are those in the task directory, `none` where it cannot be opened. -/
def getProcessThreads (names : Option (List (List Char))) : List ℤ :=
  (names.getD []).filterMap fun name =>
    let tid := Text.strtol name
    if startsWithDigit name ∧ 0 < tid then some (tid.bmod (2 ^ 32)) else none

/-- `n` is what `sysconf` reports. -/
def getLogicalCpuCount (n : ℤ) : ℤ := if 0 < n then n.bmod (2 ^ 32) else 1

def applySchedulingPolicy (ts : Threads) (cores : ℤ) (permitted : Bool) (pid : ℤ) (policy : Policy) :
    Threads × Bool :=
  let realtime := policy = .fifo ∨ policy = .rr
  if cores ≤ 2 ∧ realtime then (ts, false)
  else ts.setScheduler permitted pid policy (if realtime then 1 else 0)

/-- The loop over the threads; each call comes with the outcome the kernel has for it. -/
def resetNice (ts : Threads) : List (ℤ × Bool) → Threads
  | [] => ts
  | (tid, permitted) :: rest => resetNice (ts.setPriority permitted tid 0).1 rest

/-- The calls of the loop: `permits i` is the outcome of the `i`-th. -/
def attempts (permits : ℕ → Bool) (tids : List ℤ) : List (ℤ × Bool) :=
  tids.zipIdx.map fun c => (c.1, permits c.2)

def restoreDefaultScheduling (ts : Threads) (names : Option (List (List Char))) (n : ℤ)
    (permits : ℕ → Bool) (pid : ℤ) : Threads × Bool :=
  let tids := getProcessThreads names
  applySchedulingPolicy (resetNice ts (attempts permits tids)) (getLogicalCpuCount n)
    (permits tids.length) pid .other

/-! ### What is listed -/

/-- A directory that names threads, among others, lists them. -/
theorem getProcessThreads_names (tids : List ℕ) (others : List (List Char))
    (ids : ∀ tid ∈ tids, 0 < tid ∧ tid < 2 ^ 31) (stops : ∀ name ∈ others, Text.Stops name) :
    getProcessThreads (some (others ++ tids.map (Nat.toDigits 10))) = tids.map Nat.cast := by
  have other (name : List Char) (h : name ∈ others) : ¬ startsWithDigit name := by
    cases name with
    | nil => exact Bool.false_ne_true
    | cons c name => exact Bool.eq_false_iff.1 (stops _ h c rfl)
  have own (tid : ℕ) (h : tid ∈ tids) : Text.strtol (Nat.toDigits 10 tid) = tid :=
    Text.strtol_numeral (Text.numeral_toDigits tid) (by have := ids tid h; omega)
  rw [getProcessThreads, Option.getD_some, List.filterMap_append, List.filterMap_map,
    List.filterMap_eq_nil_iff.2 fun name h => if_neg fun listed => other name h listed.1,
    List.nil_append, ← List.filterMap_eq_map]
  refine List.filterMap_congr fun tid h => ?_
  have range := ids tid h
  have listed : startsWithDigit (Nat.toDigits 10 tid) ∧ 0 < (tid : ℤ) :=
    ⟨startsWithDigit_numeral (Text.numeral_toDigits tid), by omega⟩
  simp only [Function.comp_apply, own tid h, if_pos listed]
  rw [Int.bmod_eq_of_le (by omega) (by omega)]

/-! ### What is restored -/

variable {ts : Threads}

theorem resetNice_apply (calls : List (ℤ × Bool)) (tid : ℤ) :
    resetNice ts calls tid =
      (ts tid).map fun s => if (tid, true) ∈ calls then { s with nice := 0 } else s := by
  induction calls generalizing ts with
  | nil => simp [resetNice]
  | cons call calls ih =>
    obtain ⟨t, permitted⟩ := call
    rw [resetNice, ih]
    by_cases hit : tid = t ∧ permitted = true
    · obtain ⟨rfl, rfl⟩ := hit
      cases h : ts tid with
      | none => simp [Threads.setPriority, h]
      | some s => simp [Threads.setPriority, h]
    · have same : (ts.setPriority permitted t 0).1 tid = ts tid := by
        unfold Threads.setPriority
        split
        · exact Function.update_of_ne (fun eq => hit ⟨eq, rfl⟩) _ _
        · rfl
      have first : (tid, true) ≠ (t, permitted) := fun eq => hit ⟨(Prod.mk.inj eq).1,
        (Prod.mk.inj eq).2.symm⟩
      simp only [same, List.mem_cons, first, false_or]

theorem applySchedulingPolicy_other (cores : ℤ) (permitted : Bool) (pid : ℤ) :
    applySchedulingPolicy ts cores permitted pid .other =
      ts.setScheduler permitted pid .other 0 := by
  simp [applySchedulingPolicy]

/-- A true result means that every thread listed is a normal one of nice 0. -/
def Restores (names : Option (List (List Char))) (result : Threads × Bool) : Prop :=
  result.2 → ∀ tid ∈ getProcessThreads names, ∀ s ∈ result.1 tid, s.policy = .other ∧ s.nice = 0

/-- It does, iff the policy of the main thread could not be set, or every other listed thread had
the normal policy before and the nice value of every one was 0 before or could be set. -/
theorem restoreDefaultScheduling_restores_iff (names : Option (List (List Char))) (n : ℤ)
    (permits : ℕ → Bool) (pid : ℤ) :
    Restores names (restoreDefaultScheduling ts names n permits pid) ↔
      (ts pid = none ∨ permits (getProcessThreads names).length = false) ∨
      ∀ tid ∈ getProcessThreads names, ∀ s ∈ ts tid, (tid = pid ∨ s.policy = .other) ∧
        (s.nice = 0 ∨ (tid, true) ∈ attempts permits (getProcessThreads names)) := by
  rw [restoreDefaultScheduling, applySchedulingPolicy_other]
  set calls := attempts permits (getProcessThreads names)
  unfold Threads.setScheduler
  rw [resetNice_apply]
  cases main : ts pid with
  | none => exact iff_of_true (fun ok => absurd ok Bool.false_ne_true) (.inl (.inl rfl))
  | some m =>
    cases permits (getProcessThreads names).length with
    | false => exact iff_of_true (fun ok => absurd ok Bool.false_ne_true) (.inl (.inr rfl))
    | true =>
      rw [or_iff_right (by simp)]
      refine (imp_iff_right rfl).trans (forall₂_congr fun tid _ => ?_)
      have nice (s : Sched) : (if (tid, true) ∈ calls then { s with nice := 0 } else s).nice = 0 ↔
          s.nice = 0 ∨ (tid, true) ∈ calls := by
        split_ifs with permitted <;> simp [permitted]
      have policy (s : Sched) :
          (if (tid, true) ∈ calls then { s with nice := 0 } else s).policy = s.policy := by
        split_ifs <;> rfl
      by_cases same : tid = pid
      · subst same
        simpa [main] using nice m
      · simp [same, resetNice_apply, nice, policy]

/-- A thread created while the main thread was a batch one keeps that policy. -/
theorem not_restores : ¬ ∀ (ts : Threads) (names : Option (List (List Char))) (n : ℤ)
    (permits : ℕ → Bool) (pid : ℤ),
    Restores names (restoreDefaultScheduling ts names n permits pid) := by
  intro claim
  let ts : Threads := fun tid => if tid = 12 ∨ tid = 13 then some { policy := .batch } else none
  have restored := claim ts (some (["12", "13"].map String.toList)) 4 (fun _ => true) 12 (by decide)
    13 (by decide) { policy := .batch } rfl
  exact absurd restored.1 (by decide)

end ProcessScheduler

end SmoothDemon
