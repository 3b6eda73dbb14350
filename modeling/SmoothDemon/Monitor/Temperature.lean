import Mathlib.Algebra.Order.Field.Rat
import Mathlib.Data.List.Range
import Mathlib.Order.Bounds.Basic
import SmoothDemon.Library.Samples
import SmoothDemon.Monitor.Drm

/-!
# The temperature monitor

The functions of src/temperature.cpp over a changing /sys.  The sensors are looked for until a look
finds some, and from then on the same files are read; so a monitor shows what these files read at
its last sample, and never a reading that is older (`accessors_run`).
-/

namespace SmoothDemon

open Text

inductive SensorType where
  | cpuPackage
  | cpuCore
  | gpu
  | ambient
  deriving DecidableEq

structure TempSensor where
  label : List Char
  path : List Char
  driver : List Char
  type : SensorType := .ambient
  tempCelsius : ℚ := 0
  deriving DecidableEq

/-- /sys at a time: the names in /sys/class/hwmon, in the order of the directory and `none` where it
does not exist, and the file at each path. -/
structure Sysfs where
  hwmon : Option (List (List Char))
  file : List Char → SysFile
  distinct : ∀ names ∈ hwmon, names.Nodup
  plain : ∀ names ∈ hwmon, ∀ name ∈ names, '/' ∉ name

namespace Sysfs

variable (sys : Sysfs)

def hwmonNames : List (List Char) := sys.hwmon.getD []

theorem nodup_hwmonNames : sys.hwmonNames.Nodup := by
  unfold hwmonNames
  cases names : sys.hwmon with
  | none => exact List.nodup_nil
  | some _ => exact sys.distinct _ names

theorem slash_not_mem {name : List Char} (h : name ∈ sys.hwmonNames) : '/' ∉ name := by
  unfold hwmonNames at h
  cases names : sys.hwmon with
  | none =>
    rw [names] at h
    cases h
  | some _ =>
    rw [names] at h
    exact sys.plain _ names _ h

end Sysfs

namespace TemperatureMonitor

/-! ### Helpers -/

/-- The same lines as `read_comm`. -/
def readFirstLine (file : SysFile) : List Char := ProcessMonitor.readComm file.content?

/-- `iss >> out` for a 64-bit signed integer. -/
def extractI64 (iss : List Char) : Option ℤ :=
  (scanInteger iss).bind fun (minus, value, _) =>
    let v : ℤ := if minus then -value else value
    if -2 ^ 63 ≤ v ∧ v < 2 ^ 63 then some v else none

def readMillidegCelsius (file : SysFile) : Option ℚ :=
  (file.content?.bind extractI64).map fun milli => milli / 1000

def classify (driver label : List Char) : SensorType :=
  if driver = "coretemp".toList ∨ driver = "k10temp".toList ∨ driver = "k8temp".toList then
    if "Package".toList <:+: label then .cpuPackage
    else if "Tdie".toList <:+: label then .cpuPackage
    else if "Tctl".toList <:+: label then .cpuPackage
    else if "Core".toList <:+: label then .cpuCore
    else .cpuPackage
  else if driver = "i915".toList ∨ driver = "xe".toList then .gpu
  else .ambient

/-! ### Discovery -/

def hwmonRoot : List Char := "/sys/class/hwmon".toList

def hwmonDir (name : List Char) : List Char := hwmonRoot ++ '/' :: name

/-- `temp<n>`. -/
def channel (n : ℕ) : List Char := "temp".toList ++ Nat.toDigits 10 n

def inputPath (name : List Char) (n : ℕ) : List Char :=
  hwmonDir name ++ '/' :: (channel n ++ "_input".toList)

def labelPath (name : List Char) (n : ℕ) : List Char :=
  hwmonDir name ++ '/' :: (channel n ++ "_label".toList)

def driverOf (sys : Sysfs) (name : List Char) : List Char :=
  readFirstLine (sys.file (hwmonDir name ++ "/name".toList))

/-- The sensor behind an input file that exists. -/
def sensorAt (sys : Sysfs) (name : List Char) (n : ℕ) : TempSensor :=
  let driver := driverOf sys name
  let shown := readFirstLine (sys.file (labelPath name n))
  let label := if shown = [] then driver ++ ' ' :: channel n else shown
  { label
    path := inputPath name n
    driver
    type := classify driver label }

/-- The loop over the inputs of a directory. -/
def walkInputs (sys : Sysfs) (name : List Char) (sensors : List TempSensor) :
    List ℕ → List TempSensor
  | [] => sensors
  | n :: rest =>
    if (sys.file (inputPath name n)).exists? ≠ some true then walkInputs sys name sensors rest
    else walkInputs sys name (sensors ++ [sensorAt sys name n]) rest

/-- The loop over the directories. -/
def walkDirs (sys : Sysfs) (sensors : List TempSensor) : List (List Char) → List TempSensor
  | [] => sensors
  | name :: rest =>
    if driverOf sys name = [] then walkDirs sys sensors rest
    else walkDirs sys (walkInputs sys name sensors (List.range' 1 20)) rest

end TemperatureMonitor

structure TemperatureMonitor where
  sensors : List TempSensor := []
  deriving DecidableEq

namespace TemperatureMonitor

variable (m : TemperatureMonitor) (sys : Sysfs)

def discoverSensors (_m : TemperatureMonitor) (sys : Sysfs) : TemperatureMonitor :=
  { sensors := walkDirs sys [] sys.hwmonNames }

def construct (sys : Sysfs) : TemperatureMonitor := discoverSensors {} sys

/-! ### Sampling -/

/-- The loop over the sensors, with its `any`. -/
def readSensors (any : Bool) : List TempSensor → List TempSensor × Bool
  | [] => ([], any)
  | s :: rest =>
    match readMillidegCelsius (sys.file s.path) with
    | some c =>
      let (rest, any) := readSensors true rest
      ({ s with tempCelsius := c } :: rest, any)
    | none =>
      let (rest, any) := readSensors any rest
      ({ s with tempCelsius := -1 } :: rest, any)

def sample : TemperatureMonitor × Bool :=
  let m := if m.sensors = [] then m.discoverSensors sys else m
  if m.sensors = [] then (m, false)
  else
    let (sensors, any) := readSensors sys false m.sensors
    ({ sensors }, any)

/-! ### Accessors -/

def getCpuPackageTemp : ℚ :=
  match m.sensors.find? fun s => s.type = .cpuPackage ∧ 0 < s.tempCelsius with
  | some s => s.tempCelsius
  | none => m.sensors.foldl (fun best s =>
      if s.type = .cpuCore ∧ best < s.tempCelsius then s.tempCelsius else best) (-1)

def getGpuTemp : ℚ :=
  match m.sensors.find? fun s => s.type = .gpu ∧ 0 < s.tempCelsius with
  | some s => s.tempCelsius
  | none => -1

/-! ### What discovery finds -/

/-- The directory `name` has a driver and the file of input `n`. -/
structure Present (sys : Sysfs) (name : List Char) (n : ℕ) : Prop where
  listed : name ∈ sys.hwmonNames
  driver : driverOf sys name ≠ []
  range : 1 ≤ n ∧ n ≤ 20
  exists? : (sys.file (inputPath name n)).exists? = some true

/-- The paths a discovery looks at, in its order. -/
def candidates (sys : Sysfs) : List (List Char) :=
  sys.hwmonNames.flatMap fun name => (List.range' 1 20).map (inputPath name)

/-- The inputs of a directory that exist. -/
def inputsOf (sys : Sysfs) (name : List Char) (ns : List ℕ) : List TempSensor :=
  (ns.filter fun n => (sys.file (inputPath name n)).exists? = some true).map (sensorAt sys name)

theorem walkInputs_eq (name : List Char) (sensors : List TempSensor) (ns : List ℕ) :
    walkInputs sys name sensors ns = sensors ++ inputsOf sys name ns := by
  induction ns generalizing sensors with
  | nil => exact (List.append_nil _).symm
  | cons n ns ih =>
    rw [walkInputs, inputsOf, List.filter_cons]
    split_ifs with missing present present
    · exact absurd (of_decide_eq_true present) missing
    · exact ih sensors
    · rw [ih, List.append_assoc]
      rfl
    · exact absurd (decide_eq_true (not_not.1 missing)) present

theorem walkDirs_eq (sensors : List TempSensor) (names : List (List Char)) :
    walkDirs sys sensors names = sensors ++ names.flatMap fun name =>
      if driverOf sys name = [] then [] else inputsOf sys name (List.range' 1 20) := by
  induction names generalizing sensors with
  | nil => exact (List.append_nil _).symm
  | cons name names ih =>
    rw [walkDirs, List.flatMap_cons]
    split_ifs with driver
    · exact ih sensors
    · rw [ih, walkInputs_eq, List.append_assoc]

/-- What a discovery at `sys` finds. -/
def found (sys : Sysfs) : List TempSensor := ((construct sys).sensors)

theorem found_eq : found sys = sys.hwmonNames.flatMap fun name =>
    if driverOf sys name = [] then [] else inputsOf sys name (List.range' 1 20) :=
  walkDirs_eq sys [] sys.hwmonNames

theorem mem_found {s : TempSensor} :
    s ∈ found sys ↔ ∃ name n, Present sys name n ∧ s = sensorAt sys name n := by
  rw [found_eq, List.mem_flatMap]
  constructor
  · rintro ⟨name, listed, h⟩
    split_ifs at h with driver
    · cases h
    · obtain ⟨n, input, rfl⟩ := List.mem_map.1 h
      obtain ⟨range, there⟩ := List.mem_filter.1 input
      rw [List.mem_range'_1] at range
      exact ⟨name, n, ⟨listed, driver, by omega, of_decide_eq_true there⟩, rfl⟩
  · rintro ⟨name, n, h, rfl⟩
    refine ⟨name, h.listed, ?_⟩
    rw [if_neg h.driver]
    refine List.mem_map_of_mem (List.mem_filter.2 ⟨?_, decide_eq_true h.exists?⟩)
    have range := h.range
    rw [List.mem_range'_1]
    omega

theorem sublist_candidates : ((found sys).map TempSensor.path).Sublist (candidates sys) := by
  rw [found_eq, candidates, List.map_flatMap]
  refine List.Sublist.flatMap_right _ fun name _ => ?_
  split_ifs
  · exact List.nil_sublist _
  · rw [inputsOf, List.map_map]
    exact List.filter_sublist.map _

/-- A path tells the directory and the number. -/
theorem inputPath_inj {name name' : List Char} {n n' : ℕ} (plain : '/' ∉ name)
    (plain' : '/' ∉ name') (same : inputPath name n = inputPath name' n') :
    name = name' ∧ n = n' := by
  have tails : name ++ '/' :: (channel n ++ "_input".toList) =
      name' ++ '/' :: (channel n' ++ "_input".toList) := by
    simpa [inputPath, hwmonDir] using same
  obtain ⟨names, files⟩ := append_separator_inj plain plain' tails
  refine ⟨names, toDigits_inj ?_⟩
  exact List.append_cancel_left (List.append_cancel_right files)

theorem nodup_candidates : (candidates sys).Nodup := by
  refine List.nodup_flatMap.2 ⟨fun name listed => ?_, ?_⟩
  · have plain := sys.slash_not_mem listed
    refine List.Nodup.map_on ?_ List.nodup_range'
    intro n _ n' _ same
    exact (inputPath_inj plain plain same).2
  · refine sys.nodup_hwmonNames.imp_of_mem fun {name name'} listed listed' different => ?_
    intro path left right
    obtain ⟨n, -, rfl⟩ := List.mem_map.1 left
    obtain ⟨n', -, same⟩ := List.mem_map.1 right
    have name := (inputPath_inj (sys.slash_not_mem listed') (sys.slash_not_mem listed) same).1
    exact different name.symm

/-- A list of the sensors at `sys`: each once, in the order in which discovery looks. -/
structure Lists (sys : Sysfs) (sensors : List TempSensor) : Prop where
  mem_iff : ∀ s, s ∈ sensors ↔ ∃ name n, Present sys name n ∧ s = sensorAt sys name n
  order : (sensors.map TempSensor.path).Sublist (candidates sys)
  once : (sensors.map TempSensor.path).Nodup

theorem lists_found : Lists sys (found sys) where
  mem_iff _ := mem_found sys
  order := sublist_candidates sys
  once := (sublist_candidates sys).nodup (nodup_candidates sys)

/-! ### What a sample shows -/

/-- What the file of a sensor reads, or -1. -/
def reading (sys : Sysfs) (s : TempSensor) : ℚ := (readMillidegCelsius (sys.file s.path)).getD (-1)

def refresh (sys : Sysfs) (s : TempSensor) : TempSensor := { s with tempCelsius := reading sys s }

def Readable (sys : Sysfs) (s : TempSensor) : Prop := (readMillidegCelsius (sys.file s.path)).isSome

instance (sys : Sysfs) (s : TempSensor) : Decidable (Readable sys s) :=
  inferInstanceAs (Decidable (_ = true))

theorem readSensors_eq (any : Bool) (sensors : List TempSensor) :
    readSensors sys any sensors =
      (sensors.map (refresh sys), any || sensors.any fun s => Readable sys s) := by
  induction sensors generalizing any with
  | nil => simp [readSensors]
  | cons s sensors ih =>
    rw [readSensors]
    cases read : readMillidegCelsius (sys.file s.path) with
    | none => simp [ih, refresh, reading, Readable, read]
    | some c => simp [ih, refresh, reading, Readable, read]

theorem sample_eq {sensors : List TempSensor}
    (h : sensors = if m.sensors = [] then found sys else m.sensors) :
    m.sample sys =
      ({ sensors := sensors.map (refresh sys) }, sensors.any fun s => Readable sys s) := by
  have cached : (if m.sensors = [] then m.discoverSensors sys else m) = { sensors := sensors } := by
    rw [h]
    split_ifs <;> rfl
  rw [sample, cached, readSensors_eq, Bool.false_or]
  cases sensors with
  | nil => rfl
  | cons s sensors => exact if_neg (List.cons_ne_nil s sensors)

/-! ### Any sequence of calls -/

inductive Op
  | discoverSensors (sys : Sysfs)
  | sample (sys : Sysfs)

def apply (m : TemperatureMonitor) : Op → TemperatureMonitor
  | .discoverSensors sys => m.discoverSensors sys
  | .sample sys => (m.sample sys).1

/-- A monitor constructed at `sys`, after a sequence of calls. -/
def run (sys : Sysfs) (ops : List Op) : TemperatureMonitor := ops.foldl apply (construct sys)

/-- What /sys was at the last `discover_sensors` and at every sample since. -/
def looks (sys : Sysfs) (ops : List Op) : List Sysfs :=
  ops.foldl (fun seen op => match op with
    | .discoverSensors sys => [sys]
    | .sample sys => seen ++ [sys]) [sys]

def firstFound (looks : List Sysfs) : List TempSensor :=
  ((looks.map found).find? (· ≠ [])).getD []

theorem firstFound_concat (seen : List Sysfs) :
    firstFound (seen ++ [sys]) =
      if firstFound seen = [] then found sys else firstFound seen := by
  unfold firstFound
  rw [List.map_append, List.find?_append]
  cases first : (seen.map found).find? (· ≠ []) with
  | none => by_cases empty : found sys = [] <;> simp [empty]
  | some sensors =>
    have nonempty : sensors ≠ [] := by simpa using List.find?_some first
    simp [nonempty]

/-- A sensor without its reading. -/
def blank (s : TempSensor) : TempSensor := { s with tempCelsius := 0 }

theorem map_blank_found : (found sys).map blank = found sys := by
  refine (List.map_congr_left fun s hs => ?_).trans (List.map_id _)
  obtain ⟨name, n, -, rfl⟩ := (mem_found sys).1 hs
  rfl

/-- The sensors a sample reads. -/
theorem map_blank_cached : (if m.sensors = [] then found sys else m.sensors).map blank =
    if m.sensors.map blank = [] then found sys else m.sensors.map blank := by
  simp only [List.map_eq_nil_iff]
  split_ifs
  · exact map_blank_found sys
  · rfl

theorem map_blank_run (sys : Sysfs) (ops : List Op) :
    (run sys ops).sensors.map blank = firstFound (looks sys ops) := by
  have one (sys : Sysfs) : firstFound [sys] = found sys :=
    (firstFound_concat sys []).trans (if_pos rfl)
  induction ops using List.reverseRecOn with
  | nil => exact (map_blank_found sys).trans (one sys).symm
  | append_singleton ops op ih =>
    unfold run looks at ih ⊢
    rw [List.foldl_concat, List.foldl_concat]
    cases op with
    | discoverSensors sys => exact (map_blank_found sys).trans (one sys).symm
    | sample sys =>
      have again : blank ∘ refresh sys = blank := rfl
      rw [firstFound_concat, ← ih, apply, sample_eq _ sys rfl, List.map_map, again]
      exact map_blank_cached _ sys

/-- `sensors` lists what the first of the looks that finds a sensor finds. -/
inductive FirstFound (looks : List Sysfs) (sensors : List TempSensor) : Prop
  | nothing (none : ∀ look ∈ looks, ∀ name n, ¬ Present look name n) (empty : sensors = [])
  | at (before : List Sysfs) (look : Sysfs) (after : List Sysfs)
    (split : looks = before ++ look :: after)
    (none : ∀ earlier ∈ before, ∀ name n, ¬ Present earlier name n)
    (lists : Lists look sensors) (nonempty : sensors ≠ [])

theorem found_eq_nil_iff : found sys = [] ↔ ∀ name n, ¬ Present sys name n := by
  simp only [List.eq_nil_iff_forall_not_mem, mem_found]
  constructor
  · intro h name n present
    exact h _ ⟨name, n, present, rfl⟩
  · rintro h s ⟨name, n, present, -⟩
    exact h name n present

theorem firstFound_spec (looks : List Sysfs) : FirstFound looks (firstFound looks) := by
  unfold firstFound
  cases first : (looks.map found).find? (· ≠ []) with
  | none =>
    refine .nothing (fun look h => (found_eq_nil_iff look).1 ?_) rfl
    have empty := List.find?_eq_none.1 first (found look) (List.mem_map_of_mem h)
    simpa using empty
  | some sensors =>
    obtain ⟨nonempty, before, after, split, none⟩ := List.find?_eq_some_iff_append.1 first
    obtain ⟨before, rest, rfl, rfl, tail⟩ := List.map_eq_append_iff.1 split
    obtain ⟨look, after, rfl, rfl, rfl⟩ := List.map_eq_cons_iff.1 tail
    refine .at before look after rfl (fun earlier h => ?_) (lists_found look) ?_
    swap
    · simpa using nonempty
    refine (found_eq_nil_iff earlier).1 ?_
    simpa using none _ (List.mem_map_of_mem h)

theorem sensors_sample (start : Sysfs) (ops : List Op) (sys : Sysfs) :
    ∃ sensors, FirstFound (looks start ops ++ [sys]) sensors ∧
      ((run start ops).sample sys).1.sensors = sensors.map (refresh sys) ∧
      (((run start ops).sample sys).2 = true ↔ ∃ s ∈ sensors, Readable sys s) := by
  set m := run start ops
  refine ⟨_, firstFound_spec _, ?_⟩
  have known : m.sensors.map blank = firstFound (looks start ops) := map_blank_run start ops
  have cached : (if m.sensors = [] then found sys else m.sensors).map blank =
      firstFound (looks start ops ++ [sys]) := by
    rw [firstFound_concat, ← known]
    exact map_blank_cached m sys
  rw [sample_eq m sys rfl, ← cached]
  simp only [List.map_map, List.any_eq_true, List.mem_map, decide_eq_true_eq]
  refine ⟨rfl, ?_⟩
  constructor
  · rintro ⟨s, hs, readable⟩
    exact ⟨blank s, ⟨s, hs, rfl⟩, readable⟩
  · rintro ⟨_, ⟨s, hs, rfl⟩, readable⟩
    exact ⟨s, hs, readable⟩

/-! ### What the accessors show -/

/-- The reading of the first sensor of this type that reads above zero. -/
inductive FirstPositive (sys : Sysfs) (type : SensorType) (sensors : List TempSensor) (c : ℚ) : Prop
  | at (before : List TempSensor) (s : TempSensor) (after : List TempSensor)
    (split : sensors = before ++ s :: after) (is : s.type = type)
    (read : readMillidegCelsius (sys.file s.path) = some c) (positive : 0 < c)
    (first : ∀ p ∈ before, p.type = type → reading sys p ≤ 0)

/-- No sensor of this type reads above zero. -/
def NonePositive (sys : Sysfs) (type : SensorType) (sensors : List TempSensor) : Prop :=
  ∀ p ∈ sensors, p.type = type → reading sys p ≤ 0

/-- -1, and what the cores read. -/
def coreReadings (sys : Sysfs) (sensors : List TempSensor) : Set ℚ :=
  {c | c = -1 ∨ ∃ s ∈ sensors, s.type = .cpuCore ∧ readMillidegCelsius (sys.file s.path) = some c}

/-- What is shown for the CPU: a package sensor, and only where none is above zero the cores. -/
inductive ShowsCpu (sys : Sysfs) (sensors : List TempSensor) (c : ℚ) : Prop
  | package (first : FirstPositive sys .cpuPackage sensors c)
  | cores (none : NonePositive sys .cpuPackage sensors)
    (greatest : IsGreatest (coreReadings sys sensors) c)

inductive ShowsGpu (sys : Sysfs) (sensors : List TempSensor) (c : ℚ) : Prop
  | gpu (first : FirstPositive sys .gpu sensors c)
  | absent (none : NonePositive sys .gpu sensors) (eq : c = -1)

theorem read_of_pos {s : TempSensor} (positive : 0 < reading sys s) :
    readMillidegCelsius (sys.file s.path) = some (reading sys s) := by
  unfold reading at positive ⊢
  cases read : readMillidegCelsius (sys.file s.path) with
  | none =>
    rw [read] at positive
    exact absurd positive (by decide)
  | some c => rfl

/-- The search of both accessors, among sensors that were just read. -/
theorem find?_positive (type : SensorType) (sensors : List TempSensor) :
    (∃ s, (sensors.map (refresh sys)).find? (fun s => s.type = type ∧ 0 < s.tempCelsius) = some s ∧
      FirstPositive sys type sensors s.tempCelsius) ∨
    (sensors.map (refresh sys)).find? (fun s => s.type = type ∧ 0 < s.tempCelsius) = none ∧
      NonePositive sys type sensors := by
  cases search : (sensors.map (refresh sys)).find? fun s => s.type = type ∧ 0 < s.tempCelsius with
  | none =>
    refine .inr ⟨rfl, fun p hp is => ?_⟩
    have other := List.find?_eq_none.1 search (refresh sys p) (List.mem_map_of_mem hp)
    exact not_lt.1 fun positive => other (decide_eq_true ⟨is, positive⟩)
  | some s =>
    obtain ⟨this, before, after, split, earlier⟩ := List.find?_eq_some_iff_append.1 search
    obtain ⟨before, rest, rfl, rfl, tail⟩ := List.map_eq_append_iff.1 split
    obtain ⟨s, after, rfl, rfl, rfl⟩ := List.map_eq_cons_iff.1 tail
    obtain ⟨is, positive⟩ : s.type = type ∧ 0 < reading sys s := of_decide_eq_true this
    refine .inl ⟨_, rfl, .at before s after rfl is (read_of_pos sys positive) positive ?_⟩
    intro p hp is
    have other := earlier _ (List.mem_map_of_mem hp)
    rw [Bool.not_eq_true'] at other
    exact not_lt.1 fun positive => of_decide_eq_false other ⟨is, positive⟩

/-- The fold over the cores is a maximum. -/
theorem isGreatest_cores (sensors : List TempSensor) :
    IsGreatest (coreReadings sys sensors) ((sensors.map (refresh sys)).foldl (fun best s =>
      if s.type = .cpuCore ∧ best < s.tempCelsius then s.tempCelsius else best) (-1)) := by
  have step : ∀ (best : ℚ), (sensors.map (refresh sys)).foldl (fun best s =>
      if s.type = .cpuCore ∧ best < s.tempCelsius then s.tempCelsius else best) best =
      ((sensors.filter fun s => s.type = .cpuCore).map (reading sys)).foldl max best := by
    induction sensors with
    | nil => exact fun _ => rfl
    | cons s sensors ih =>
      intro best
      rw [List.map_cons, List.foldl_cons, ih, List.filter_cons]
      by_cases core : s.type = .cpuCore
      · have shown : (if (refresh sys s).type = .cpuCore ∧ best < (refresh sys s).tempCelsius
            then (refresh sys s).tempCelsius else best) = max best (reading sys s) := by
          simp only [refresh, core, true_and]
          split_ifs with more
          · exact (max_eq_right more.le).symm
          · exact (max_eq_left (not_lt.1 more)).symm
        simp [core, shown]
      · simp [core, refresh]
  rw [step]
  obtain ⟨member, above⟩ :=
    Samples.isGreatest_foldl_max (-1)
      ((sensors.filter fun s => s.type = .cpuCore).map (reading sys))
  have least := above List.mem_cons_self
  constructor
  · rcases List.mem_cons.1 member with lowest | core
    · exact .inl lowest
    · obtain ⟨s, hs, eq⟩ := List.mem_map.1 core
      obtain ⟨hs, is⟩ := List.mem_filter.1 hs
      rw [← eq]
      unfold reading
      cases read : readMillidegCelsius (sys.file s.path) with
      | none => exact .inl rfl
      | some c => exact .inr ⟨s, hs, of_decide_eq_true is, read⟩
  · rintro c (rfl | ⟨s, hs, is, read⟩)
    · exact least
    · have value : reading sys s = c := by rw [reading, read, Option.getD_some]
      refine above (List.mem_cons_of_mem _ (List.mem_map.2 ⟨s, ?_, value⟩))
      exact List.mem_filter.2 ⟨hs, decide_eq_true is⟩

/-- Whatever was called before, a sample shows what the files read now of the sensors that the first
successful look found, it is true iff one of them can be read, and the accessors tell those
readings. -/
theorem accessors_run (start : Sysfs) (ops : List Op) (sys : Sysfs) :
    ∃ sensors, FirstFound (looks start ops ++ [sys]) sensors ∧
      ((run start ops).sample sys).1.sensors = sensors.map (refresh sys) ∧
      (((run start ops).sample sys).2 = true ↔ ∃ s ∈ sensors, Readable sys s) ∧
      ShowsCpu sys sensors ((run start ops).sample sys).1.getCpuPackageTemp ∧
      ShowsGpu sys sensors ((run start ops).sample sys).1.getGpuTemp := by
  obtain ⟨sensors, first, shown, readable⟩ := sensors_sample start ops sys
  refine ⟨sensors, first, shown, readable, ?_, ?_⟩
  · rw [getCpuPackageTemp, shown]
    rcases find?_positive sys .cpuPackage sensors with ⟨s, search, package⟩ | ⟨search, none⟩
    · rw [search]
      exact .package package
    · rw [search]
      exact .cores none (isGreatest_cores sys sensors)
  · rw [getGpuTemp, shown]
    rcases find?_positive sys .gpu sensors with ⟨s, search, gpu⟩ | ⟨search, none⟩
    · rw [search]
      exact .gpu gpu
    · rw [search]
      exact .absent none rfl

end TemperatureMonitor

end SmoothDemon
