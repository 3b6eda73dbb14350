import Mathlib.Data.Finset.Card
import SmoothDemon.Monitor.CpuMonitor

/-!
# The cores that are online

The constructor of `CpuMonitor` (src/cpu.cpp) makes room for as many cores as are online, and
`CpuMonitor::sample` enters the line of a core at its id.  So the per-core metrics are those of the
online cores iff every id is below their number, that is iff the ids have no gap
(`CpuMonitor.perCore_iff`).
-/

namespace SmoothDemon

/-- The ids of the cores that are listed. -/
def Snapshot.ids (s : Snapshot) : Finset UInt64 := (s.cores.map Prod.fst).toFinset

namespace CpuMonitor

/-- The size of the tables; `online` is what `sysconf(_SC_NPROCESSORS_ONLN)` returns. -/
def coreCount (online : ℤ) : ℕ := if online < 1 then 1 else online.toNat

variable {n : ℕ}

def getPerCore (m : CpuMonitor n) : Vector CpuMetrics n := m.currCores

/-- Each online core has the metrics of its tick differences, and no entry belongs to another. -/
structure PerCore (m : CpuMonitor n) (prev curr : Snapshot) : Prop where
  listed : ∀ id ∈ curr.ids, m.getPerCore[id.toNat]? =
    some (calculateMetrics (calculateDelta (prev.core id.toNat) (curr.core id.toNat)))
  online : ∀ k < n, ∃ id ∈ curr.ids, id.toNat = k

theorem coreCount_card {s : Finset UInt64} (h : s.Nonempty) : coreCount s.card = s.card := by
  have positive : 0 < s.card := h.card_pos
  rw [coreCount, if_neg (by omega)]
  rfl

/-- Ids below their number have no gap. -/
theorem exists_id_of_lt {ids : Finset UInt64} (below : ∀ id ∈ ids, id.toNat < ids.card) {k : ℕ}
    (hk : k < ids.card) : ∃ id ∈ ids, id.toNat = k := by
  have inside : ids.image UInt64.toNat ⊆ Finset.range ids.card := by
    intro l hl
    obtain ⟨id, hid, rfl⟩ := Finset.mem_image.1 hl
    exact Finset.mem_range.2 (below id hid)
  have count : (ids.image UInt64.toNat).card = ids.card :=
    Finset.card_image_of_injective ids fun _ _ => UInt64.toNat_inj.1
  have whole : ids.image UInt64.toNat = Finset.range ids.card := by
    refine Finset.eq_of_subset_of_card_le inside ?_
    rw [Finset.card_range, count]
  exact Finset.mem_image.1 (whole ▸ Finset.mem_range.2 hk)

theorem sample_succeeds {s : Snapshot} {text : List Char} (shown : s.Renders text)
    (m : CpuMonitor n) : m.sample (some text) = ((m.sample (some text)).1, true) := by
  obtain ⟨cores, -, eq⟩ := sample_good shown m
  rw [eq]

/-- Behind the last good snapshot, the entry of each core that has one is the metrics of its tick
differences. -/
theorem getPerCore_sample {m : CpuMonitor n} {prev curr : Snapshot} (h : m.Follows (some prev))
    {text : List Char} (shown : curr.Renders text) {k : ℕ} (hk : k < n) :
    (m.sample (some text)).1.getPerCore[k] =
      calculateMetrics (calculateDelta (prev.core k) (curr.core k)) := by
  obtain ⟨cores, same, eq⟩ := sample_good shown m
  have second : ¬ m.firstSample := by
    rw [h.first]
    exact Bool.false_ne_true
  rw [eq, publish, if_neg second]
  show (Vector.zipWith _ m.prevCores cores)[k] = _
  rw [Vector.getElem_zipWith, h.cores prev rfl k hk, same k hk]

/-- After a second good sample the metrics are those of the online cores iff every id is below
their number. -/
theorem perCore_iff {contents : List (Option (List Char))} {snapshots : List (Option Snapshot)}
    (reads : List.Forall₂ Reads contents snapshots) {prev curr : Snapshot}
    (last : snapshots.reduceOption.getLast? = some prev) {text : List Char}
    (shown : curr.Renders text) (online : curr.ids.Nonempty) :
    ∃ after, (run (coreCount curr.ids.card) contents).sample (some text) = (after, true) ∧
      (after.PerCore prev curr ↔ ∀ id ∈ curr.ids, id.toNat < curr.ids.card) := by
  have follows : (run (coreCount curr.ids.card) contents).Follows (some prev) :=
    last ▸ run_follows reads
  have count := coreCount_card online
  refine ⟨_, sample_succeeds shown _, ?_⟩
  constructor
  · intro h id hid
    obtain ⟨inside, -⟩ := Vector.getElem?_eq_some_iff.1 (h.listed id hid)
    rwa [count] at inside
  · intro below
    constructor
    · intro id hid
      have inside : id.toNat < coreCount curr.ids.card := count.symm ▸ below id hid
      rw [Vector.getElem?_eq_getElem inside, getPerCore_sample follows shown inside]
    · intro k hk
      rw [count] at hk
      exact exists_id_of_lt below hk

section Example

/-- The second of two CPUs is busy. -/
def pairSnapshot (ticks : UInt64) : Snapshot where
  aggregate := { user := ticks, idle := ticks }
  cores := [(0, { idle := ticks }), (1, { user := ticks })]
  distinct := List.nodup_cons.2 ⟨by simp, List.nodup_singleton 1⟩

theorem perCore_pair : ∃ after,
    (run (coreCount 2) [some (pairSnapshot 100).text, none]).sample
      (some (pairSnapshot 200).text) = (after, true) ∧
      after.PerCore (pairSnapshot 100) (pairSnapshot 200) := by
  have reads : List.Forall₂ Reads [some (pairSnapshot 100).text, none]
      [some (pairSnapshot 100), none] :=
    .cons (.good (pairSnapshot 100).renders_text) (.cons .unreadable .nil)
  obtain ⟨after, eq, exact⟩ :=
    perCore_iff reads rfl (pairSnapshot 200).renders_text ⟨0, by decide⟩
  refine ⟨after, eq, exact.2 fun id hid => ?_⟩
  obtain rfl | rfl : id = 0 ∨ id = 1 := by simpa [Snapshot.ids, pairSnapshot] using hid
  · decide
  · decide

/-- CPU 1 is offline. -/
def offlineSnapshot (ticks : UInt64) : Snapshot where
  aggregate := { user := ticks, idle := ticks }
  cores := [(0, { idle := ticks }), (2, { user := ticks })]
  distinct := List.nodup_cons.2 ⟨by simp, List.nodup_singleton 2⟩

theorem not_perCore_offline : ∃ after,
    (run (coreCount 2) [some (offlineSnapshot 100).text]).sample
      (some (offlineSnapshot 200).text) = (after, true) ∧
      ¬ after.PerCore (offlineSnapshot 100) (offlineSnapshot 200) := by
  refine ⟨_, sample_succeeds (offlineSnapshot 200).renders_text _, fun h => ?_⟩
  obtain ⟨inside, -⟩ := Vector.getElem?_eq_some_iff.1 (h.listed 2 (by decide))
  exact absurd inside (by decide)

end Example

end CpuMonitor

end SmoothDemon
