import Mathlib.Algebra.Group.Nat.Defs
import Mathlib.Data.Finset.Card
import Mathlib.Data.Int.Cast.Basic
import Mathlib.Logic.Function.Basic

/-!
# CPU affinity of a thread

`SetThreadAffinity` and `GetThreadAffinity` (src/resource/CpuAffinity.cpp) on a kernel that stores
of a mask what is online.  Both take the number of online CPUs for a bound on their ids.  So a
request is read back as the ids of it that are online iff these are all below that number
(`CpuAffinity.roundTrip_iff`).
-/

namespace SmoothDemon

/-- The CPUs that are online, and the affinity of the threads there are. -/
structure Kernel where
  online : Finset ℕ
  small : ∀ c ∈ online, c < 1024
  affinity : ℤ → Option (Finset ℕ)

namespace Kernel

/-- `sched_setaffinity`, and whether it succeeds. -/
def schedSetAffinity (k : Kernel) (tid : ℤ) (set : Finset ℕ) : Kernel × Bool :=
  match k.affinity tid with
  | none => (k, false)
  | some _ =>
    if set ∩ k.online = ∅ then (k, false)
    else ({ k with affinity := Function.update k.affinity tid (some (set ∩ k.online)) }, true)

def schedGetAffinity (k : Kernel) (tid : ℤ) : Option (Finset ℕ) := k.affinity tid

/-- `sysconf(_SC_NPROCESSORS_ONLN)`. -/
def ncores (k : Kernel) : ℤ := k.online.card

end Kernel

namespace CpuAffinity

/-- `CPU_SET`; a `cpu_set_t` has 1024 bits. -/
def cpuSet (core : ℕ) (set : Finset ℕ) : Finset ℕ := if core < 1024 then insert core set else set

def ncpu (ncores : ℤ) : ℤ := if 0 < ncores then ncores.bmod (2 ^ 32) else 1

/-- The loop over the request, with its mask and `applied`. -/
def apply (ncpu : ℤ) (set : Finset ℕ) (applied : ℕ) : List ℤ → Finset ℕ × ℕ
  | [] => (set, applied)
  | core :: rest =>
    if core < 0 ∨ ncpu ≤ core then apply ncpu set applied rest
    else apply ncpu (cpuSet core.toNat set) (applied + 1) rest

def setThreadAffinity (k : Kernel) (tid : ℤ) (cpuCores : List ℤ) : Kernel × Bool :=
  let request := apply (ncpu k.ncores) ∅ 0 cpuCores
  if request.2 = 0 then (k, false) else k.schedSetAffinity tid request.1

def getThreadAffinity (k : Kernel) (tid : ℤ) : List ℕ :=
  match k.schedGetAffinity tid with
  | none => []
  | some set => (List.range (ncpu k.ncores).toNat).filter (· ∈ set)

/-! ### What a request comes to -/

variable {k : Kernel} {tid : ℤ} {cpuCores : List ℤ}

theorem card_online_le (k : Kernel) : k.online.card ≤ 1024 := by
  have inside : k.online ⊆ Finset.range 1024 := fun c hc => Finset.mem_range.2 (k.small c hc)
  simpa using Finset.card_le_card inside

theorem ncpu_ncores (online : k.online.Nonempty) : ncpu k.ncores = k.online.card := by
  have positive : 0 < k.online.card := online.card_pos
  have bound := card_online_le k
  rw [ncpu, Kernel.ncores, if_pos (by omega)]
  exact Int.bmod_eq_of_le (by omega) (by omega)

/-- The mask grows by the valid cores of the request, -/
theorem mem_apply {bound : ℤ} {set : Finset ℕ} {applied c : ℕ} :
    c ∈ (apply bound set applied cpuCores).1 ↔
      c ∈ set ∨ c < 1024 ∧ (c : ℤ) < bound ∧ (c : ℤ) ∈ cpuCores := by
  induction cpuCores generalizing set applied with
  | nil => simp [apply]
  | cons core rest ih =>
    rw [apply]
    split_ifs with invalid
    · rw [ih, List.mem_cons]
      have other : (c : ℤ) < bound → (c : ℤ) ≠ core := by omega
      tauto
    · rw [ih, List.mem_cons]
      have inserted : c ∈ cpuSet core.toNat set ↔ c ∈ set ∨ c < 1024 ∧ (c : ℤ) = core := by
        unfold cpuSet
        split_ifs with fits
        · have same : c = core.toNat ↔ c < 1024 ∧ (c : ℤ) = core := by omega
          rw [Finset.mem_insert, same, or_comm]
        · refine (or_iff_left ?_).symm
          omega
      have valid : (c : ℤ) = core → (c : ℤ) < bound := by omega
      rw [inserted]
      tauto

/-- and they are counted. -/
theorem apply_applied {bound : ℤ} {set : Finset ℕ} {applied : ℕ} :
    (apply bound set applied cpuCores).2 =
      applied + cpuCores.countP fun core => 0 ≤ core ∧ core < bound := by
  induction cpuCores generalizing set applied with
  | nil => rfl
  | cons core rest ih =>
    rw [apply]
    split_ifs with invalid
    · rw [ih, List.countP_cons_of_neg (by simp; omega)]
    · rw [ih, List.countP_cons_of_pos (by simp; omega)]
      omega

/-- The ids that are stored. -/
def stored (k : Kernel) (cpuCores : List ℤ) : Finset ℕ :=
  k.online.filter fun c => (c : ℤ) < ncpu k.ncores ∧ (c : ℤ) ∈ cpuCores

theorem apply_inter_online :
    (apply (ncpu k.ncores) ∅ 0 cpuCores).1 ∩ k.online = stored k cpuCores := by
  ext c
  rw [Finset.mem_inter, mem_apply, stored, Finset.mem_filter]
  have small := k.small c
  simp only [Finset.notMem_empty, false_or]
  tauto

theorem setThreadAffinity_of_empty (empty : stored k cpuCores = ∅) :
    setThreadAffinity k tid cpuCores = (k, false) := by
  unfold setThreadAffinity
  dsimp only
  split_ifs
  · rfl
  · rw [Kernel.schedSetAffinity]
    split
    · rfl
    · rw [if_pos (apply_inter_online.trans empty)]

theorem setThreadAffinity_of_nonempty {mask : Finset ℕ} (thread : k.affinity tid = some mask)
    (nonempty : (stored k cpuCores).Nonempty) :
    setThreadAffinity k tid cpuCores =
      ({ k with affinity := Function.update k.affinity tid (some (stored k cpuCores)) }, true) := by
  obtain ⟨c, hc⟩ := nonempty
  obtain ⟨-, below, requested⟩ := Finset.mem_filter.1 hc
  have applied : (apply (ncpu k.ncores) ∅ 0 cpuCores).2 ≠ 0 := by
    rw [apply_applied, Nat.zero_add]
    refine (List.countP_pos_iff.2 ⟨(c : ℤ), requested, ?_⟩).ne'
    simpa using below
  have kept : stored k cpuCores ≠ ∅ := Finset.ne_empty_of_mem hc
  simp only [setThreadAffinity, if_neg applied, Kernel.schedSetAffinity, thread, apply_inter_online,
    if_neg kept]

theorem getThreadAffinity_update (mask : Finset ℕ) :
    getThreadAffinity { k with affinity := Function.update k.affinity tid (some mask) } tid =
      (List.range (ncpu k.ncores).toNat).filter (· ∈ mask) := by
  simp only [getThreadAffinity, Kernel.schedGetAffinity, Function.update_self]
  rfl

/-! ### The round trip -/

/-- `got` is what of the request is online, ascending and without duplicates. -/
structure OnlineIds (k : Kernel) (cpuCores : List ℤ) (got : List ℕ) : Prop where
  mem_iff : ∀ c, c ∈ got ↔ c ∈ k.online ∧ (c : ℤ) ∈ cpuCores
  ascending : got.Pairwise (· < ·)

/-- A request with an online id succeeds and is read back; any other changes nothing. -/
structure RoundTrip (k : Kernel) (tid : ℤ) (cpuCores : List ℤ) : Prop where
  applied : (∃ c ∈ k.online, (c : ℤ) ∈ cpuCores) → ∃ after,
    setThreadAffinity k tid cpuCores = (after, true) ∧
      OnlineIds k cpuCores (getThreadAffinity after tid)
  refused : (¬ ∃ c ∈ k.online, (c : ℤ) ∈ cpuCores) → setThreadAffinity k tid cpuCores = (k, false)

theorem roundTrip_iff {mask : Finset ℕ} (thread : k.affinity tid = some mask) :
    RoundTrip k tid cpuCores ↔ ∀ c ∈ k.online, (c : ℤ) ∈ cpuCores → c < k.online.card := by
  constructor
  · intro h c hc requested
    obtain ⟨after, eq, ids⟩ := h.applied ⟨c, hc, requested⟩
    have count := ncpu_ncores ⟨c, hc⟩
    have nonempty : (stored k cpuCores).Nonempty := by
      by_contra empty
      rw [setThreadAffinity_of_empty (Finset.not_nonempty_iff_eq_empty.1 empty)] at eq
      cases eq
    rw [setThreadAffinity_of_nonempty thread nonempty] at eq
    cases eq
    have got := (ids.mem_iff c).2 ⟨hc, requested⟩
    rw [getThreadAffinity_update, List.mem_filter, List.mem_range, count] at got
    omega
  · intro below
    have all (c : ℕ) : c ∈ stored k cpuCores ↔ c ∈ k.online ∧ (c : ℤ) ∈ cpuCores := by
      rw [stored, Finset.mem_filter]
      refine ⟨fun h => ⟨h.1, h.2.2⟩, fun h => ⟨h.1, ?_, h.2⟩⟩
      rw [ncpu_ncores ⟨c, h.1⟩]
      have bound := below c h.1 h.2
      omega
    constructor
    · rintro ⟨c, hc, requested⟩
      refine ⟨_, setThreadAffinity_of_nonempty thread ⟨c, (all c).2 ⟨hc, requested⟩⟩, ?_⟩
      rw [getThreadAffinity_update]
      refine ⟨fun d => ?_, List.pairwise_lt_range.filter _⟩
      rw [List.mem_filter, List.mem_range, decide_eq_true_iff, all, and_iff_right_iff_imp]
      intro hd
      have bound := below d hd.1 hd.2
      rw [ncpu_ncores ⟨d, hd.1⟩]
      omega
    · intro offline
      refine setThreadAffinity_of_empty (Finset.eq_empty_of_forall_notMem fun c hc => ?_)
      exact offline ⟨c, (all c).1 hc⟩

section Example

def wholeKernel : Kernel where
  online := {0, 1}
  small := by decide
  affinity := fun _ => some {0, 1}

theorem roundTrip_wholeKernel : RoundTrip wholeKernel 12 [1, -3, 1, 7, 0] :=
  (roundTrip_iff rfl).2 (by decide)

/-- CPU 1 is offline. -/
def gapKernel : Kernel where
  online := {0, 2}
  small := by decide
  affinity := fun _ => some {0, 2}

theorem not_roundTrip_gapKernel : ¬ RoundTrip gapKernel 12 [2] := by
  intro h
  obtain ⟨after, eq, -⟩ := h.applied ⟨2, by decide, by decide⟩
  have refused : (setThreadAffinity gapKernel 12 [2]).2 = false := by decide
  rw [eq] at refused
  cases refused

end Example

end CpuAffinity

end SmoothDemon
