import Mathlib.Data.Finset.Card
import Mathlib.Data.List.DropRight
import Mathlib.Data.Set.Card
import SmoothDemon.Library.Records
import SmoothDemon.Library.Text

/-!
# The physical cores of the system information

`SystemInfoCollector::parse_cpu_physical_cores` (src/system_info.cpp) over the lines of
/proc/cpuinfo.  The loop carries two ids and flushes them at an empty line and at the end; so a
block of lines counts for what it says alone, and the result is the number of pairs of ids that the
blocks give (`SystemInfo.parseCpuPhysicalCores_eq`).
-/

namespace SmoothDemon

namespace SystemInfo

open Text

/-! ### The loop -/

def isTrimmed (c : Char) : Bool := c == ' ' || c == '\t' || c == '\n' || c == '\r'

def trim (s : List Char) : List Char := (s.dropWhile isTrimmed).rdropWhile isTrimmed

/-- The locals of the loop. -/
structure CoreScan where
  cores : Finset (ℤ × ℤ) := ∅
  physicalId : ℤ := -1
  coreId : ℤ := -1

namespace CoreScan

def flush (s : CoreScan) : CoreScan where
  cores :=
    if 0 ≤ s.physicalId ∧ 0 ≤ s.coreId then insert (s.physicalId, s.coreId) s.cores else s.cores

/-- A line with a colon; an id that `stoi` refuses changes nothing. -/
def readId (s : CoreScan) (line : List Char) : CoreScan :=
  let key := trim (line.takeWhile (· ≠ ':'))
  let val := trim ((line.dropWhile (· ≠ ':')).drop 1)
  if ':' ∉ line then s
  else if key = "physical id".toList then { s with physicalId := (stoi val).getD s.physicalId }
  else if key = "core id".toList then { s with coreId := (stoi val).getD s.coreId }
  else s

def readLine (s : CoreScan) (line : List Char) : CoreScan :=
  if line = [] then s.flush else s.readId line

end CoreScan

/-- `content` is what /proc/cpuinfo reads, `none` where it cannot be opened. -/
def parseCpuPhysicalCores (content : Option (List Char)) : UInt32 :=
  match content with
  | none => 0
  | some text => UInt32.ofNat ((lines text).foldl CoreScan.readLine {}).flush.cores.card

/-! ### What a block says -/

/-- The parts of the text between its empty lines. -/
def blocks (text : List Char) : List (List (List Char)) := (lines text).splitOnP (· = [])

/-- The key of a line with a colon. -/
def keyOf (line : List Char) : Option (List Char) :=
  if ':' ∈ line then some (trim (line.takeWhile (· ≠ ':'))) else none

/-- The id that a line gives for a key. -/
def idOf (key line : List Char) : Option ℤ :=
  if keyOf line = some key then stoi (trim ((line.dropWhile (· ≠ ':')).drop 1)) else none

def Gives (block : List (List Char)) (key : List Char) (v : ℤ) : Prop :=
  ∃ line ∈ block, idOf key line = some v

def physicalKey : List Char := "physical id".toList

def coreKey : List Char := "core id".toList

/-- No block gives two values for one id. -/
def Definite (block : List (List Char)) : Prop :=
  ∀ key ∈ [physicalKey, coreKey], ∀ v w, Gives block key v → Gives block key w → v = w

theorem gives_iff_mem {block : List (List Char)} {key : List Char} {v : ℤ} :
    Gives block key v ↔ v ∈ block.filterMap (idOf key) := List.mem_filterMap.symm

instance (block : List (List Char)) : Decidable (Definite block) :=
  decidable_of_iff (∀ key ∈ [physicalKey, coreKey], ∀ v ∈ block.filterMap (idOf key),
    ∀ w ∈ block.filterMap (idOf key), v = w) <| by
    simp only [Definite, gives_iff_mem]
    exact forall₂_congr fun key _ => forall_congr' fun v =>
      ⟨fun h w hv hw => h hv w hw, fun h hv w hw => h w hv hw⟩

/-- The block is about this core: a physical id and a core id. -/
structure HasCore (block : List (List Char)) (ids : ℤ × ℤ) : Prop where
  physical : Gives block physicalKey ids.1
  core : Gives block coreKey ids.2
  nonneg : 0 ≤ ids.1 ∧ 0 ≤ ids.2

/-- The lines with one of the two keys. -/
def idLines (block : List (List Char)) : List (List Char) :=
  block.filter fun line => keyOf line = some physicalKey ∨ keyOf line = some coreKey

/-- Every block with ids is in `others` too, but for its other lines and their order. -/
def Within (bs others : List (List (List Char))) : Prop :=
  ∀ b ∈ bs, idLines b ≠ [] → ∃ other ∈ others, (idLines other).Perm (idLines b)

instance (bs others : List (List (List Char))) : Decidable (Within bs others) :=
  inferInstanceAs (Decidable (∀ b ∈ bs, idLines b ≠ [] → _))

/-! ### The loop by blocks -/

namespace CoreScan

/-- A line sets the id of its key. -/
theorem readId_eq (s : CoreScan) (line : List Char) :
    s.readId line =
      { s with
        physicalId := (idOf physicalKey line).getD s.physicalId
        coreId := (idOf coreKey line).getD s.coreId } := by
  by_cases colon : ':' ∈ line
  · have key : keyOf line = some (trim (line.takeWhile (· ≠ ':'))) := if_pos colon
    unfold idOf
    by_cases physical : trim (line.takeWhile (· ≠ ':')) = physicalKey
    · have other : ¬ keyOf line = some coreKey := by
        rw [key, physical]
        decide
      rw [if_pos (key.trans (congrArg some physical)), if_neg other]
      exact (if_neg (not_not_intro colon)).trans (if_pos physical)
    · have other : ¬ keyOf line = some physicalKey := by
        rw [key, Option.some_inj]
        exact physical
      rw [if_neg other]
      by_cases core : trim (line.takeWhile (· ≠ ':')) = coreKey
      · rw [if_pos (key.trans (congrArg some core))]
        exact (if_neg (not_not_intro colon)).trans ((if_neg physical).trans (if_pos core))
      · have other : ¬ keyOf line = some coreKey := by
          rw [key, Option.some_inj]
          exact core
        rw [if_neg other]
        exact (if_neg (not_not_intro colon)).trans ((if_neg physical).trans (if_neg core))
  · have none (key : List Char) : idOf key line = none := by
      have missing : keyOf line = none := if_neg colon
      simp [idOf, missing]
    rw [none, none]
    exact if_pos colon

/-- What the lines of a block leave of the ids. -/
theorem foldl_readId (s : CoreScan) (block : List (List Char)) :
    block.foldl readId s =
      { s with
        physicalId := (block.filterMap (idOf physicalKey)).getLast?.getD s.physicalId
        coreId := (block.filterMap (idOf coreKey)).getLast?.getD s.coreId } := by
  have cores : (block.foldl readId s).cores = s.cores := by
    induction block generalizing s with
    | nil => rfl
    | cons line block ih => rw [List.foldl_cons, ih, readId_eq]
  have physical : (block.foldl readId s).physicalId =
      (block.filterMap (idOf physicalKey)).getLast?.getD s.physicalId :=
    Records.foldl_last (fun s line => congrArg physicalId (readId_eq s line)) s block
  have core : (block.foldl readId s).coreId =
      (block.filterMap (idOf coreKey)).getLast?.getD s.coreId :=
    Records.foldl_last (fun s line => congrArg coreId (readId_eq s line)) s block
  rw [← physical, ← core, ← cores]

/-- A block of lines, up to its flush. -/
def readBlock (s : CoreScan) (block : List (List Char)) : CoreScan := (block.foldl readId s).flush

theorem foldl_readLine (text : List Char) (s : CoreScan) :
    ((lines text).foldl readLine s).flush = (blocks text).foldl readBlock s := by
  refine Records.foldl_parts (fun s line empty => ?_) (fun s line entry => ?_) s (lines text)
  · exact if_pos (of_decide_eq_true empty)
  · exact if_neg (of_decide_eq_false entry)

theorem mem_cores_flush {s : CoreScan} {ids : ℤ × ℤ} :
    ids ∈ s.flush.cores ↔
      ids ∈ s.cores ∨ (0 ≤ s.physicalId ∧ 0 ≤ s.coreId) ∧ ids = (s.physicalId, s.coreId) := by
  unfold flush
  split_ifs with given
  · rw [Finset.mem_insert, or_comm, and_iff_right given]
  · simp [given]

end CoreScan

variable {block : List (List Char)} {key : List Char}

/-- The id that a block leaves where there was none. -/
theorem last_iff (definite : ∀ v w, Gives block key v → Gives block key w → v = w) {v : ℤ}
    (nonneg : 0 ≤ v) :
    (block.filterMap (idOf key)).getLast?.getD (-1) = v ↔ Gives block key v := by
  by_cases given : ∃ w, Gives block key w
  · obtain ⟨w, hw⟩ := given
    have last : (block.filterMap (idOf key)).getLast? = some w :=
      Records.getLast?_filterMap_eq fun b =>
        ⟨fun hb => congrArg some (definite w b hw hb), fun same => Option.some.inj same ▸ hw⟩
    rw [last, Option.getD_some]
    exact ⟨fun same => same ▸ hw, fun hv => definite w v hw hv⟩
  · have last : (block.filterMap (idOf key)).getLast? = none :=
      Records.getLast?_filterMap_eq fun b =>
        iff_of_false (fun hb => given ⟨b, hb⟩) (Option.some_ne_none b).symm
    rw [last, Option.getD_none]
    exact iff_of_false (by omega) fun hv => given ⟨v, hv⟩

theorem mem_cores_readBlock (definite : Definite block) {cores : Finset (ℤ × ℤ)} {ids : ℤ × ℤ} :
    ids ∈ (CoreScan.readBlock { cores } block).cores ↔ ids ∈ cores ∨ HasCore block ids := by
  have physical := definite physicalKey (by simp)
  have core := definite coreKey (by simp)
  rw [CoreScan.readBlock, CoreScan.mem_cores_flush, CoreScan.foldl_readId]
  refine or_congr_right ⟨?_, ?_⟩
  · rintro ⟨⟨first, second⟩, rfl⟩
    exact ⟨(last_iff physical first).1 rfl, (last_iff core second).1 rfl, first, second⟩
  · rintro ⟨gives, gives', first, second⟩
    rw [(last_iff physical first).2 gives, (last_iff core second).2 gives']
    exact ⟨⟨first, second⟩, rfl⟩

theorem mem_cores_foldl {bs : List (List (List Char))} (definite : ∀ b ∈ bs, Definite b)
    {cores : Finset (ℤ × ℤ)} {ids : ℤ × ℤ} :
    ids ∈ (bs.foldl CoreScan.readBlock { cores }).cores ↔
      ids ∈ cores ∨ ∃ b ∈ bs, HasCore b ids := by
  induction bs generalizing cores with
  | nil => simp
  | cons b bs ih =>
    rw [List.forall_mem_cons] at definite
    have flushed : CoreScan.readBlock { cores } b =
        { cores := (CoreScan.readBlock { cores } b).cores } := rfl
    rw [List.foldl_cons, flushed, ih definite.2, mem_cores_readBlock definite.1, or_assoc]
    simp

/-! ### Blocks that say the same -/

theorem gives_iff (id : key ∈ [physicalKey, coreKey]) {v : ℤ} :
    Gives block key v ↔ ∃ line ∈ idLines block, idOf key line = some v := by
  constructor
  · rintro ⟨line, member, value⟩
    refine ⟨line, List.mem_filter.2 ⟨member, decide_eq_true ?_⟩, value⟩
    have own : keyOf line = some key := by
      by_contra other
      rw [idOf, if_neg other] at value
      cases value
    rw [List.mem_pair] at id
    rcases id with rfl | rfl
    · exact .inl own
    · exact .inr own
  · rintro ⟨line, member, value⟩
    exact ⟨line, List.mem_of_mem_filter member, value⟩

section Perm

variable {other : List (List Char)} (same : (idLines other).Perm (idLines block))

include same

theorem gives_congr (id : key ∈ [physicalKey, coreKey]) {v : ℤ} :
    Gives other key v ↔ Gives block key v := by
  simp only [gives_iff id, same.mem_iff]

theorem definite_congr (h : Definite block) : Definite other := by
  intro key id v w hv hw
  exact h key id v w ((gives_congr same id).1 hv) ((gives_congr same id).1 hw)

theorem hasCore_congr {ids : ℤ × ℤ} (h : HasCore block ids) : HasCore other ids :=
  ⟨(gives_congr same (by simp)).2 h.physical, (gives_congr same (by simp)).2 h.core, h.nonneg⟩

end Perm

theorem idLines_ne_nil (id : key ∈ [physicalKey, coreKey]) {v : ℤ} (h : Gives block key v) :
    idLines block ≠ [] := by
  obtain ⟨line, member, -⟩ := (gives_iff id).1 h
  exact List.ne_nil_of_mem member

theorem Definite.within {bs others : List (List (List Char))} (h : ∀ b ∈ bs, Definite b)
    (within : Within others bs) : ∀ b ∈ others, Definite b := by
  intro b hb key id v w hv hw
  obtain ⟨other, member, same⟩ := within b hb (idLines_ne_nil id hv)
  exact definite_congr same.symm (h other member) key id v w hv hw

/-- The cores that the blocks of a text are about. -/
def coresOf (text : List Char) : Set (ℤ × ℤ) := {ids | ∃ b ∈ blocks text, HasCore b ids}

theorem coresOf_subset {text text' : List Char} (within : Within (blocks text) (blocks text')) :
    coresOf text ⊆ coresOf text' := by
  rintro ids ⟨b, hb, core⟩
  obtain ⟨other, member, same⟩ := within b hb (idLines_ne_nil (by simp) core.physical)
  exact ⟨other, member, hasCore_congr same core⟩

theorem parseCpuPhysicalCores_some {text : List Char} (definite : ∀ b ∈ blocks text, Definite b) :
    parseCpuPhysicalCores (some text) = UInt32.ofNat (coresOf text).ncard := by
  have cores : coresOf text = ((blocks text).foldl CoreScan.readBlock {}).cores := by
    ext ids
    rw [Finset.mem_coe, mem_cores_foldl definite]
    exact (or_iff_right (Finset.notMem_empty ids)).symm
  rw [parseCpuPhysicalCores, CoreScan.foldl_readLine, cores, Set.ncard_coe_finset]

/-- The result is the number of cores that the blocks are about, in 32 bits.  It does not change
with the order of the blocks or of their lines, blocks that are repeated, or other lines. -/
theorem parseCpuPhysicalCores_eq {text : List Char} (definite : ∀ b ∈ blocks text, Definite b) :
    (parseCpuPhysicalCores (some text)).toNat = (coresOf text).ncard % 2 ^ 32 ∧
      ∀ text', Within (blocks text) (blocks text') → Within (blocks text') (blocks text) →
        parseCpuPhysicalCores (some text') = parseCpuPhysicalCores (some text) := by
  refine ⟨?_, fun text' within within' => ?_⟩
  · rw [parseCpuPhysicalCores_some definite]
    exact UInt32.toNat_ofNat'
  · have same : coresOf text' = coresOf text :=
      (coresOf_subset within').antisymm (coresOf_subset within)
    rw [parseCpuPhysicalCores_some definite,
      parseCpuPhysicalCores_some (Definite.within definite within'), same]

section Example

/-- A core with two threads, and one with one. -/
def threeThreads : List Char :=
  ("processor : 0\nphysical id : 0\ncore id : 0\n\n" ++
    "processor : 1\nphysical id : 0\ncore id : 1\n\n\n" ++
    "processor : 2\ncore id : 0\nphysical id : 0\n").toList

theorem parseCpuPhysicalCores_threeThreads :
    (parseCpuPhysicalCores (some threeThreads)).toNat = (coresOf threeThreads).ncard % 2 ^ 32 :=
  (parseCpuPhysicalCores_eq (by decide +kernel)).1

/-- Two blocks, the first of which gives two physical ids. -/
def twoPackages (ids : String) : List Char :=
  (ids ++ "core id : 0\n\nphysical id : 0\ncore id : 0\n").toList

/-- Two cores, or one, by the order of the lines. -/
theorem not_parseCpuPhysicalCores_perm : ¬ ∀ text text' : List Char,
    Within (blocks text) (blocks text') → Within (blocks text') (blocks text) →
      parseCpuPhysicalCores (some text') = parseCpuPhysicalCores (some text) := by
  intro claim
  have same := claim (twoPackages "physical id : 0\nphysical id : 1\n")
    (twoPackages "physical id : 1\nphysical id : 0\n") (by decide +kernel) (by decide +kernel)
  exact absurd same (by decide +kernel)

end Example

end SystemInfo

end SmoothDemon
