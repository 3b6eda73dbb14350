import Mathlib.Algebra.Order.Field.Rat
import Mathlib.Data.List.ReduceOption
import Mathlib.Data.List.Perm.Subperm
import Mathlib.Tactic.Linarith
import Mathlib.Tactic.Positivity
import Mathlib.Tactic.Ring
import SmoothDemon.Library.Keys
import SmoothDemon.Library.Records
import SmoothDemon.Library.Text

/-!
# The memory monitor

`MemoryMonitor::sample` (src/memory.cpp) over the lines of /proc/meminfo, with the accessors of
include/memory.hpp.  `Meminfo.Shows` says, without the scan, which texts give the seven fields their
values; the scan finds these in any order of the lines, though it ends with the seventh field, and
the percentages are those of the accessors (`MemoryMonitor.sample_shows`).
-/

namespace SmoothDemon

open Text

inductive MemKey where
  | memTotal
  | memFree
  | memAvailable
  | buffers
  | cached
  | swapTotal
  | swapFree
  deriving DecidableEq

def MemKey.text : MemKey → List Char
  | .memTotal => "MemTotal:".toList
  | .memFree => "MemFree:".toList
  | .memAvailable => "MemAvailable:".toList
  | .buffers => "Buffers:".toList
  | .cached => "Cached:".toList
  | .swapTotal => "SwapTotal:".toList
  | .swapFree => "SwapFree:".toList

structure MemoryMetrics where
  totalKib : UInt64 := 0
  freeKib : UInt64 := 0
  availableKib : UInt64 := 0
  buffersKib : UInt64 := 0
  cachedKib : UInt64 := 0
  swapTotalKib : UInt64 := 0
  swapFreeKib : UInt64 := 0
  ramUsedPercent : ℚ := 0
  swapUsedPercent : ℚ := 0
  deriving DecidableEq

namespace MemoryMetrics

/-- The field of a key. -/
def kib (d : MemoryMetrics) : MemKey → UInt64
  | .memTotal => d.totalKib
  | .memFree => d.freeKib
  | .memAvailable => d.availableKib
  | .buffers => d.buffersKib
  | .cached => d.cachedKib
  | .swapTotal => d.swapTotalKib
  | .swapFree => d.swapFreeKib

def setKib (d : MemoryMetrics) (v : UInt64) : MemKey → MemoryMetrics
  | .memTotal => { d with totalKib := v }
  | .memFree => { d with freeKib := v }
  | .memAvailable => { d with availableKib := v }
  | .buffers => { d with buffersKib := v }
  | .cached => { d with cachedKib := v }
  | .swapTotal => { d with swapTotalKib := v }
  | .swapFree => { d with swapFreeKib := v }

end MemoryMetrics

/-! ### The scan -/

/-- The locals of the loop: `data` and `fields_found`. -/
structure MemRead where
  data : MemoryMetrics := {}
  fieldsFound : ℕ := 0

namespace MemRead

/-- The keys in the order of the branches. -/
def keys : List MemKey :=
  [.memTotal, .memFree, .memAvailable, .buffers, .cached, .swapTotal, .swapFree]

/-- The branch of the key that the line starts with. -/
def readLine (r : MemRead) (line : List Char) : MemRead :=
  match keys.find? fun key => key.text <+: line with
  | none => r
  | some key =>
    match scanU64 (line.drop key.text.length) with
    | none => r
    | some v => { data := r.data.setKib v key, fieldsFound := r.fieldsFound + 1 }

def readLines (r : MemRead) : List (List Char) → MemRead
  | [] => r
  | line :: rest =>
    let r := r.readLine line
    if 7 ≤ r.fieldsFound then r else r.readLines rest

end MemRead

/-- What is left of `sample` behind the scan, where the total is not 0. -/
def MemoryMetrics.finish (data : MemoryMetrics) : MemoryMetrics :=
  let availableKib := if data.totalKib < data.availableKib then data.totalKib else data.availableKib
  let usedRam := data.totalKib - availableKib
  let ramUsedPercent : ℚ := usedRam.toNat / data.totalKib.toNat * 100
  if 0 < data.swapTotalKib then
    let fits := data.swapFreeKib ≤ data.swapTotalKib
    let usedSwap := if fits then data.swapTotalKib - data.swapFreeKib else 0
    { data with
      availableKib
      swapFreeKib := if fits then data.swapFreeKib else data.swapTotalKib
      ramUsedPercent
      swapUsedPercent := usedSwap.toNat / data.swapTotalKib.toNat * 100 }
  else { data with availableKib, ramUsedPercent, swapUsedPercent := 0 }

structure MemoryMonitor where
  metrics : MemoryMetrics := {}

namespace MemoryMonitor

/-- `content` is what /proc/meminfo reads, `none` where it cannot be opened. -/
def sample (m : MemoryMonitor) (content : Option (List Char)) : MemoryMonitor × Bool :=
  match content with
  | none => (m, false)
  | some text =>
    let data := (MemRead.readLines {} (lines text)).data
    if data.totalKib = 0 then (m, false) else ({ metrics := data.finish }, true)

def getUsedRamKib (m : MemoryMonitor) : UInt64 :=
  if m.metrics.availableKib < m.metrics.totalKib then m.metrics.totalKib - m.metrics.availableKib
  else 0

def getUsedSwapKib (m : MemoryMonitor) : UInt64 :=
  if m.metrics.swapFreeKib < m.metrics.swapTotalKib then
    m.metrics.swapTotalKib - m.metrics.swapFreeKib
  else 0

end MemoryMonitor

/-! ### Texts that give the fields values -/

/-- The values of the fields that are there. -/
abbrev Meminfo := MemKey → Option UInt64

/-- A line with the value of a field, or one that starts with none of the keys. -/
inductive MemLine : Option (MemKey × UInt64) → List Char → Prop
  | field {key : MemKey} {v : UInt64} {gap digits rest : List Char} (blank : ∀ c ∈ gap, isSpace c)
      (number : Numeral digits v.toNat) (stops : Stops rest) :
      MemLine (some (key, v)) (key.text ++ (gap ++ (digits ++ rest)))
  | other {line : List Char} (foreign : ∀ key : MemKey, ¬ key.text <+: line) : MemLine none line

/-- The text has one line for each field, in any order, and any others. -/
def Meminfo.Shows (info : Meminfo) (text : List Char) : Prop :=
  ∃ entries : List (Option (MemKey × UInt64)), List.Forall₂ MemLine entries (lines text) ∧
    (entries.reduceOption.map Prod.fst).Nodup ∧
    ∀ key v, (key, v) ∈ entries.reduceOption ↔ info key = some v

/-- A field the way the kernel prints it. -/
def fieldLine (f : MemKey × UInt64) : List Char :=
  f.1.text ++ ([' '] ++ (Nat.toDigits 10 f.2.toNat ++ " kB".toList))

def fieldsText (fields : List (MemKey × UInt64)) : List Char :=
  (fields.map fieldLine).flatMap (· ++ ['\n'])

theorem shows_fieldsText {fields : List (MemKey × UInt64)}
    (distinct : (fields.map Prod.fst).Nodup) :
    Meminfo.Shows (Keys.get fields) (fieldsText fields) := by
  have reduced : (fields.map some).reduceOption = fields := by
    simp [List.reduceOption]
  have whole : ∀ line ∈ fields.map fieldLine, '\n' ∉ line := by
    intro line hl
    obtain ⟨f, -, rfl⟩ := List.mem_map.1 hl
    have key : '\n' ∉ f.1.text := by
      cases f.1 <;> decide
    have unit : '\n' ∉ " kB".toList := by decide
    simp only [fieldLine, List.mem_append, key, newline_not_mem_toDigits, unit, or_false, false_or]
    decide
  have split : lines (fieldsText fields) = fields.map fieldLine := by
    rw [fieldsText, ← List.append_nil (List.flatMap _ _), lines_flatMap whole]
    exact List.append_nil _
  refine ⟨fields.map some, ?_, by rwa [reduced], fun key v => ?_⟩
  · rw [split]
    refine List.forall₂_map_left_iff.2 (List.forall₂_map_right_iff.2 (List.forall₂_same.2 ?_))
    rintro ⟨key, v⟩ -
    exact .field (by simp [isSpace]) (numeral_toDigits v.toNat) (by simp [Stops])
  · rw [reduced, Keys.get_eq_some_iff distinct]

namespace MemRead

theorem mem_keys (key : MemKey) : key ∈ keys := by
  cases key <;> decide

theorem eq_of_start {key other : MemKey} {line : List Char} (h : key.text <+: line)
    (h' : other.text <+: line) : key = other := by
  by_contra different
  refine not_start_of_start h ?_ h'
  revert different
  cases key <;> cases other <;> decide

theorem readLine_field {key : MemKey} {v : UInt64} {line : List Char}
    (h : MemLine (some (key, v)) line) (r : MemRead) :
    r.readLine line = { data := r.data.setKib v key, fieldsFound := r.fieldsFound + 1 } := by
  cases h with
  | @field _ _ gap digits rest blank number stops =>
    have start : key.text <+: key.text ++ (gap ++ (digits ++ rest)) := List.prefix_append ..
    have found : keys.find? (fun other => other.text <+: key.text ++ (gap ++ (digits ++ rest))) =
        some key := by
      have present : (keys.find? fun other =>
          other.text <+: key.text ++ (gap ++ (digits ++ rest))).isSome :=
        List.find?_isSome.2 ⟨key, mem_keys key, decide_eq_true start⟩
      obtain ⟨other, found⟩ := Option.isSome_iff_exists.1 present
      have start' : other.text <+: key.text ++ (gap ++ (digits ++ rest)) := by
        simpa using List.find?_some found
      rw [found, eq_of_start start' start]
    simp only [readLine, found, List.drop_left, scanU64_append blank number stops]

theorem readLine_other {line : List Char} (h : MemLine none line) (r : MemRead) :
    r.readLine line = r := by
  cases h with
  | other foreign =>
    have none : keys.find? (fun key => key.text <+: line) = none := by
      refine List.find?_eq_none.2 fun key _ => ?_
      simpa using foreign key
    simp only [readLine, none]

theorem readLines_cons (r : MemRead) (line : List Char) (ls : List (List Char)) :
    r.readLines (line :: ls) =
      if 7 ≤ (r.readLine line).fieldsFound then r.readLine line
      else (r.readLine line).readLines ls := rfl

/-- The scan ends early only when no field is left to be found. -/
theorem readLines_data {entries : List (Option (MemKey × UInt64))} {ls : List (List Char)}
    (h : List.Forall₂ MemLine entries ls) (r : MemRead)
    (few : r.fieldsFound + entries.reduceOption.length ≤ 7) :
    (r.readLines ls).data =
      entries.reduceOption.foldl (fun data f => data.setKib f.2 f.1) r.data := by
  induction h generalizing r with
  | nil => rfl
  | @cons entry line entries ls first rest ih =>
    have early (r : MemRead) (few : r.fieldsFound + entries.reduceOption.length ≤ 7) :
        (if 7 ≤ r.fieldsFound then r else r.readLines ls).data =
          entries.reduceOption.foldl (fun data f => data.setKib f.2 f.1) r.data := by
      split_ifs with all
      · have none : entries.reduceOption = [] := List.length_eq_zero_iff.1 (by omega)
        rw [none, List.foldl_nil]
      · exact ih r few
    rw [readLines_cons]
    cases entry with
    | none =>
      rw [List.reduceOption_cons_of_none] at few ⊢
      rw [readLine_other first]
      exact early r few
    | some f =>
      rw [List.reduceOption_cons_of_some] at few ⊢
      rw [List.length_cons] at few
      rw [readLine_field first]
      exact early _ (by dsimp only; omega)

theorem kib_setKib (data : MemoryMetrics) (v : UInt64) (key other : MemKey) :
    (data.setKib v key).kib other =
      (if key = other then some v else none).getD (data.kib other) := by
  cases key <;> cases other <;> rfl

theorem kib_zero (key : MemKey) : ({} : MemoryMetrics).kib key = 0 := by
  cases key <;> rfl

end MemRead

namespace Meminfo

variable {info : Meminfo} {text : List Char}

def value (info : Meminfo) (key : MemKey) : UInt64 := (info key).getD 0

/-- The scan finds the value of every field. -/
theorem Shows.kib (h : info.Shows text) (key : MemKey) :
    (MemRead.readLines {} (lines text)).data.kib key = info.value key := by
  obtain ⟨entries, shown, distinct, values⟩ := h
  have few : entries.reduceOption.length ≤ 7 := by
    have within := (distinct.subperm fun key _ => MemRead.mem_keys key).length_le
    rwa [List.length_map] at within
  have set (data : MemoryMetrics) (f : MemKey × UInt64) := MemRead.kib_setKib data f.2 f.1 key
  have last :=
    Records.foldl_last (f := fun data : MemoryMetrics => data.kib key) set {} entries.reduceOption
  rw [MemRead.readLines_data shown {} (by simpa using few), last, MemRead.kib_zero, value,
    Records.getLast?_filterMap_eq fun v => ?_]
  rw [← values]
  constructor
  · rintro ⟨⟨other, w⟩, member, same⟩
    split_ifs at same with eq
    cases same
    obtain rfl : other = key := eq
    exact member
  · exact fun member => ⟨(key, v), member, if_pos rfl⟩

end Meminfo

namespace MemoryMonitor

variable {info : Meminfo} {m : MemoryMonitor} {text : List Char}

/-- The values of the fields are published, with the available memory and the free swap cut at their
totals; the percentages are those of the accessors. -/
structure Reports (info : Meminfo) (m : MemoryMonitor) : Prop where
  total : m.metrics.totalKib = info.value .memTotal
  free : m.metrics.freeKib = info.value .memFree
  available : m.metrics.availableKib.toNat =
    min (info.value .memAvailable).toNat (info.value .memTotal).toNat
  buffers : m.metrics.buffersKib = info.value .buffers
  cached : m.metrics.cachedKib = info.value .cached
  swapTotal : m.metrics.swapTotalKib = info.value .swapTotal
  swapFree : m.metrics.swapFreeKib.toNat = if 0 < info.value .swapTotal then
    min (info.value .swapFree).toNat (info.value .swapTotal).toNat
    else (info.value .swapFree).toNat
  ramUsed : m.metrics.ramUsedPercent = 100 * m.getUsedRamKib.toNat / m.metrics.totalKib.toNat
  ramRange : 0 ≤ m.metrics.ramUsedPercent ∧ m.metrics.ramUsedPercent ≤ 100
  swapUsed : m.metrics.swapUsedPercent = if 0 < m.metrics.swapTotalKib then
    (100 * m.getUsedSwapKib.toNat / m.metrics.swapTotalKib.toNat : ℚ) else 0
  swapRange : 0 ≤ m.metrics.swapUsedPercent ∧ m.metrics.swapUsedPercent ≤ 100

/-! ### What is published -/

section Finish

variable (data : MemoryMetrics)

/-- The available memory, cut at the total. -/
def cutAvailable : UInt64 :=
  if data.totalKib < data.availableKib then data.totalKib else data.availableKib

/-- The free swap, cut at the total where there is swap. -/
def cutSwapFree : UInt64 :=
  if 0 < data.swapTotalKib ∧ data.swapTotalKib < data.swapFreeKib then data.swapTotalKib
  else data.swapFreeKib

theorem finish_eq : data.finish =
    { data with
      availableKib := cutAvailable data
      swapFreeKib := cutSwapFree data
      ramUsedPercent := 100 * (data.totalKib - cutAvailable data).toNat / data.totalKib.toNat
      swapUsedPercent := if 0 < data.swapTotalKib then
        100 * (data.swapTotalKib - cutSwapFree data).toNat / data.swapTotalKib.toNat else 0 } := by
  unfold MemoryMetrics.finish cutSwapFree
  dsimp only
  by_cases swap : 0 < data.swapTotalKib
  · by_cases fits : data.swapFreeKib ≤ data.swapTotalKib
    · have below : ¬ data.swapTotalKib < data.swapFreeKib := UInt64.not_lt.2 fits
      simp only [swap, fits, below, and_false, if_true, if_false]
      congr 1
      · rw [cutAvailable]
        ring
      · ring
    · have above : data.swapTotalKib < data.swapFreeKib := UInt64.not_le.1 fits
      simp only [swap, fits, above, and_self, if_true, if_false]
      congr 1
      · rw [cutAvailable]
        ring
      · simp
  · simp only [swap, false_and, if_false]
    congr 1
    rw [cutAvailable]
    ring

/-- A value that is cut at a total. -/
theorem toNat_cut (total v : UInt64) :
    (if total < v then total else v).toNat = min v.toNat total.toNat := by
  split_ifs with above
  · exact (min_eq_right (UInt64.lt_iff_toNat_lt.1 above).le).symm
  · exact (min_eq_left (not_lt.1 (mt UInt64.lt_iff_toNat_lt.2 above))).symm

theorem toNat_cutAvailable :
    (cutAvailable data).toNat = min data.availableKib.toNat data.totalKib.toNat :=
  toNat_cut _ _

theorem toNat_cutSwapFree : (cutSwapFree data).toNat =
    if 0 < data.swapTotalKib then min data.swapFreeKib.toNat data.swapTotalKib.toNat
    else data.swapFreeKib.toNat := by
  unfold cutSwapFree
  by_cases swap : 0 < data.swapTotalKib
  · simp only [swap, true_and, if_true]
    exact toNat_cut _ _
  · simp only [swap, false_and, if_false]

end Finish

/-- The accessor subtracts where there is something to subtract. -/
theorem used_eq {total free : UInt64} (h : free ≤ total) :
    (if free < total then total - free else 0) = total - free := by
  split_ifs with less
  · rfl
  · have same : free = total := UInt64.le_antisymm h (UInt64.not_lt.1 less)
    rw [same, UInt64.sub_self]

theorem percent_range {used total : UInt64} (h : used ≤ total) :
    (0 : ℚ) ≤ 100 * used.toNat / total.toNat ∧ (100 * used.toNat / total.toNat : ℚ) ≤ 100 := by
  have le : (used.toNat : ℚ) ≤ total.toNat := Nat.cast_le.2 (UInt64.le_iff_toNat_le.1 h)
  refine ⟨by positivity, div_le_of_le_mul₀ (by positivity) (by norm_num) ?_⟩
  linarith

theorem reports_finish {data : MemoryMetrics} (values : ∀ key, data.kib key = info.value key) :
    Reports info { metrics := data.finish } := by
  have total : data.totalKib = info.value .memTotal := values .memTotal
  have available : data.availableKib = info.value .memAvailable := values .memAvailable
  have swapTotal : data.swapTotalKib = info.value .swapTotal := values .swapTotal
  have swapFree : data.swapFreeKib = info.value .swapFree := values .swapFree
  have cut : cutAvailable data ≤ data.totalKib := by
    rw [UInt64.le_iff_toNat_le, toNat_cutAvailable]
    exact min_le_right _ _
  have cutSwap (swap : 0 < data.swapTotalKib) : cutSwapFree data ≤ data.swapTotalKib := by
    rw [UInt64.le_iff_toNat_le, toNat_cutSwapFree, if_pos swap]
    exact min_le_right _ _
  rw [finish_eq]
  constructor
  · exact total
  · exact values .memFree
  · rw [← total, ← available]
    exact toNat_cutAvailable data
  · exact values .buffers
  · exact values .cached
  · exact swapTotal
  · rw [← swapTotal, ← swapFree]
    exact toNat_cutSwapFree data
  · rw [getUsedRamKib, used_eq cut]
  · exact percent_range (UInt64.sub_le cut)
  · by_cases swap : 0 < data.swapTotalKib
    · dsimp only
      rw [if_pos swap, if_pos swap, getUsedSwapKib, used_eq (cutSwap swap)]
    · dsimp only
      rw [if_neg swap, if_neg swap]
  · dsimp only
    split_ifs with swap
    · exact percent_range (UInt64.sub_le (cutSwap swap))
    · norm_num

/-- Nothing but the seven fields counts. -/
theorem finish_congr {data data' : MemoryMetrics} (same : ∀ key, data'.kib key = data.kib key) :
    data'.finish = data.finish := by
  have total : data'.totalKib = data.totalKib := same .memTotal
  have free : data'.freeKib = data.freeKib := same .memFree
  have available : data'.availableKib = data.availableKib := same .memAvailable
  have buffers : data'.buffersKib = data.buffersKib := same .buffers
  have cached : data'.cachedKib = data.cachedKib := same .cached
  have swapTotal : data'.swapTotalKib = data.swapTotalKib := same .swapTotal
  have swapFree : data'.swapFreeKib = data.swapFreeKib := same .swapFree
  simp only [finish_eq, cutAvailable, cutSwapFree, total, free, available, buffers, cached,
    swapTotal, swapFree]

theorem sample_some (m : MemoryMonitor) (text : List Char) :
    m.sample (some text) =
      if (MemRead.readLines {} (lines text)).data.totalKib = 0 then (m, false)
      else ({ metrics := (MemRead.readLines {} (lines text)).data.finish }, true) := rfl

/-- A text that shows the fields: `sample` returns true iff there is a total other than 0, and then
publishes what the text says whatever the order of its lines; otherwise it changes nothing. -/
theorem sample_shows (h : info.Shows text) (m : MemoryMonitor) :
    ((m.sample (some text)).2 = true ↔ ∃ v, info .memTotal = some v ∧ v ≠ 0) ∧
      ((m.sample (some text)).2 = true → Reports info (m.sample (some text)).1) ∧
      ((m.sample (some text)).2 = false → (m.sample (some text)).1 = m) ∧
      ∀ text', info.Shows text' → m.sample (some text') = m.sample (some text) := by
  have total : (MemRead.readLines {} (lines text)).data.totalKib = info.value .memTotal :=
    h.kib .memTotal
  have nonzero : info.value .memTotal ≠ 0 ↔ ∃ v, info .memTotal = some v ∧ v ≠ 0 := by
    unfold Meminfo.value
    cases info .memTotal with
    | none => simp
    | some v => simp
  refine ⟨?_, ?_, ?_, fun text' h' => ?_⟩
  · rw [← nonzero, sample_some, total]
    by_cases zero : info.value .memTotal = 0
    · simp [zero]
    · simp [zero]
  · rw [sample_some]
    by_cases zero : (MemRead.readLines {} (lines text)).data.totalKib = 0
    · simp [zero]
    · simpa [zero] using reports_finish h.kib
  · rw [sample_some]
    by_cases zero : (MemRead.readLines {} (lines text)).data.totalKib = 0
    · simp [zero]
    · simp [zero]
  · have same (key : MemKey) : (MemRead.readLines {} (lines text')).data.kib key =
        (MemRead.readLines {} (lines text)).data.kib key := (h'.kib key).trans (h.kib key).symm
    have total' : (MemRead.readLines {} (lines text')).data.totalKib =
        (MemRead.readLines {} (lines text)).data.totalKib := same .memTotal
    rw [sample_some, sample_some, total', finish_congr same]

section Example

/-- More free swap than there is. -/
def swapFields : List (MemKey × UInt64) :=
  [(.swapFree, 9), (.memTotal, 4096), (.swapTotal, 8), (.memAvailable, 1024)]

theorem sample_swapFields : Reports (Keys.get swapFields)
    (({} : MemoryMonitor).sample (some (fieldsText swapFields))).1 := by
  have shown : Meminfo.Shows (Keys.get swapFields) (fieldsText swapFields) :=
    shows_fieldsText (by decide)
  obtain ⟨succeeds, reports, -⟩ := sample_shows shown {}
  exact reports (succeeds.2 ⟨4096, by decide, by decide⟩)

/-- The free swap is published as 8, not as 9. -/
theorem not_swapFree_of_shows : ¬ ∀ (info : Meminfo) (text : List Char) (m : MemoryMonitor),
    info.Shows text → (m.sample (some text)).2 = true →
      (m.sample (some text)).1.metrics.swapFreeKib = info.value .swapFree := by
  intro claim
  have shown : Meminfo.Shows (Keys.get swapFields) (fieldsText swapFields) :=
    shows_fieldsText (by decide)
  have published := claim _ _ {} shown (by decide +kernel)
  exact absurd published (by decide +kernel)

end Example

end MemoryMonitor

end SmoothDemon
