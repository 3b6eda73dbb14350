import SmoothDemon.Library.Rounding
import SmoothDemon.System.CpuInfo
import SmoothDemon.System.GpuInfo

/-!
# The metadata and the uptime

The rest of `SystemInfoCollector` (src/system_info.cpp).  A name in quotes and a processor model
come out as they were written, wherever in the file they stand and whatever they contain
(`collect_reports`).  The text of an uptime tells it to the second, and the buffer holds it whole
(`getFormattedUptime_read`).
-/

namespace SmoothDemon

structure SystemMetadata where
  osName : List Char
  kernelVersion : List Char
  architecture : List Char
  cpuModel : List Char
  cpuCoresPhysical : UInt32
  cpuCoresLogical : UInt32
  gpuModel : List Char
  gpuPciId : List Char
  driverName : List Char
  displayProtocol : List Char
  compositor : List Char
  deriving DecidableEq

namespace SystemInfo

open Text

def stripQuotes (s : List Char) : List Char :=
  let t := trim s
  if 2 ≤ t.length ∧ t.head? = some '"' ∧ t.getLast? = some '"' then (t.drop 1).take (t.length - 2)
  else t

/-- The loop over a file, up to the first line that it returns from. -/
def firstValue (read : List Char → Option (List Char)) (file : Option (List Char)) :
    Option (List Char) :=
  file.bind fun text => (lines text).findSome? read

def nameKey : List Char := "PRETTY_NAME=".toList

def modelKey : List Char := "model name".toList

/-- The value of a line that ends the loop over a file. -/
def nameIn (line : List Char) : Option (List Char) :=
  if nameKey <+: line then some (stripQuotes (line.drop 12)) else none

/-- `etc` and `usr` are what the two files read, `none` where one cannot be opened. -/
def parseOsName (etc usr : Option (List Char)) : List Char :=
  ((firstValue nameIn etc).or (firstValue nameIn usr)).getD "Unknown Linux".toList

/-- The value of a line that ends the loop; a key without a colon does not. -/
def modelIn (line : List Char) : Option (List Char) :=
  if modelKey <+: line ∧ ':' ∈ line then some (trim ((line.dropWhile (· ≠ ':')).drop 1)) else none

def parseCpuModel (cpuinfo : Option (List Char)) : List Char :=
  (firstValue modelIn cpuinfo).getD "Unknown CPU".toList

/-- What `getenv` finds of the variables that are asked for. -/
structure Environment where
  xdgSessionType : Option (List Char)
  waylandDisplay : Option (List Char)
  display : Option (List Char)
  hyprlandInstanceSignature : Option (List Char)
  xdgCurrentDesktop : Option (List Char)
  desktopSession : Option (List Char)

/-- The protocol and the compositor. -/
def detectDisplaySession (env : Environment) : List Char × List Char :=
  (match env.xdgSessionType with
    | some st => st
    | none =>
      if env.waylandDisplay.isSome then "wayland".toList
      else if env.display.isSome then "x11".toList
      else "unknown".toList,
    if env.hyprlandInstanceSignature.isSome then "Hyprland".toList
    else ((env.xdgCurrentDesktop.or env.desktopSession).getD "Unknown".toList))

/-- What the system answers: `uname`, the files, the CPUs online and the environment. -/
structure Machine where
  uname : Option (List Char × List Char)
  etcOsRelease : Option (List Char)
  usrOsRelease : Option (List Char)
  cpuinfo : Option (List Char)
  ncpu : ℤ
  drm : Option Drm
  env : Environment

def collect (m : Machine) : SystemMetadata :=
  let (kernelVersion, architecture) := m.uname.getD ("unknown".toList, "unknown".toList)
  let gpu := parseGpuInfo m.drm
  let (displayProtocol, compositor) := detectDisplaySession m.env
  { osName := parseOsName m.etcOsRelease m.usrOsRelease
    kernelVersion
    architecture
    cpuModel := parseCpuModel m.cpuinfo
    cpuCoresPhysical := parseCpuPhysicalCores m.cpuinfo
    cpuCoresLogical := if 0 < m.ncpu then UInt32.ofInt m.ncpu else 0
    gpuModel := gpu.model
    gpuPciId := gpu.pciId
    driverName := "i915".toList
    displayProtocol
    compositor }

/-- `secs` is the number at the front of /proc/uptime, if there is one in the range of a `double`.
The conversion of what is read is defined up to the greatest `u64`. -/
def getUptimeSeconds (secs : Option ℚ) : Option UInt64 :=
  match secs with
  | none => some 0
  | some secs =>
    let secs := Rounding.double secs
    let secs := if secs < 0 then 0 else secs
    if secs < 2 ^ 64 then some (UInt64.ofNat ⌊secs⌋₊) else none

/-- `%02llu`. -/
def twoDigits (n : UInt64) : List Char :=
  if n.toNat < 10 then '0' :: Nat.toDigits 10 n.toNat else Nat.toDigits 10 n.toNat

/-- What the format of `get_formatted_uptime` gives. -/
def uptimeText (secs : UInt64) : List Char :=
  let days := secs / 86400
  let hours := secs % 86400 / 3600
  let minutes := secs % 3600 / 60
  let seconds := secs % 60
  Nat.toDigits 10 days.toNat ++ ("d ".toList ++ (twoDigits hours ++ ("h:".toList ++
    (twoDigits minutes ++ ("m:".toList ++ (twoDigits seconds ++ "s".toList))))))

/-- `snprintf` cuts the text to a buffer of 64 characters, the last of which ends it. -/
def getFormattedUptime (secs : Option ℚ) : Option (List Char) :=
  (getUptimeSeconds secs).map fun secs => (uptimeText secs).take 63

/-! ### An uptime and its text -/

/-- The seconds that the four numbers of a text stand for. -/
def readUptime (text : List Char) : UInt64 :=
  let (days, text) := readDigits 0 text
  let (hours, text) := readDigits 0 (text.drop 2)
  let (minutes, text) := readDigits 0 (text.drop 2)
  let (seconds, _) := readDigits 0 (text.drop 2)
  days * 86400 + hours * 3600 + minutes * 60 + seconds

theorem numeral_twoDigits (n : UInt64) : Numeral (twoDigits n) n.toNat := by
  have digits := numeral_toDigits n.toNat
  unfold twoDigits
  split_ifs
  · refine ⟨by simp, List.forall_mem_cons.2 ⟨by decide, digits.digits⟩, ?_⟩
    rw [Nat.ofDigitChars_cons]
    exact digits.value
  · exact digits

theorem length_twoDigits {n : UInt64} (small : n.toNat < 100) : (twoDigits n).length = 2 := by
  have one := Nat.length_toDigits_le_iff (b := 10) (n := n.toNat) (k := 1) (by decide) (by decide)
  have two := Nat.length_toDigits_le_iff (b := 10) (n := n.toNat) (k := 2) (by decide) (by decide)
  have some := Nat.length_toDigits_pos (b := 10) (n := n.toNat)
  unfold twoDigits
  split_ifs with less
  · rw [List.length_cons]
    omega
  · omega

/-- No text of an uptime is longer than the buffer. -/
theorem length_uptimeText (secs : UInt64) : (uptimeText secs).length ≤ 63 := by
  have small := secs.toNat_lt
  have days : (Nat.toDigits 10 (secs / 86400).toNat).length ≤ 20 := by
    refine (Nat.length_toDigits_le_iff (by decide) (by decide)).2 ?_
    rw [UInt64.toNat_div]
    show secs.toNat / 86400 < 10 ^ 20
    omega
  have hours : (secs % 86400 / 3600).toNat < 100 := by
    rw [UInt64.toNat_div, UInt64.toNat_mod]
    show secs.toNat % 86400 / 3600 < 100
    omega
  have minutes : (secs % 3600 / 60).toNat < 100 := by
    rw [UInt64.toNat_div, UInt64.toNat_mod]
    show secs.toNat % 3600 / 60 < 100
    omega
  have seconds : (secs % 60).toNat < 100 := by
    rw [UInt64.toNat_mod]
    show secs.toNat % 60 < 100
    omega
  have fixed : ("d ".toList.length, "h:".toList.length, "m:".toList.length, "s".toList.length) =
      (2, 2, 2, 1) := rfl
  simp only [Prod.mk.injEq] at fixed
  simp only [uptimeText, List.length_append, length_twoDigits hours, length_twoDigits minutes,
    length_twoDigits seconds, fixed]
  omega

/-- Four numbers with what the format puts behind each are read back. -/
theorem readUptime_numbers (d h m s : UInt64) :
    readUptime (Nat.toDigits 10 d.toNat ++ 'd' :: ' ' :: (twoDigits h ++ 'h' :: ':' ::
      (twoDigits m ++ 'm' :: ':' :: (twoDigits s ++ ['s'])))) =
      d * 86400 + h * 3600 + m * 60 + s := by
  have stops (c : Char) (other : c.isDigit = false) (text : List Char) : Stops (c :: text) := by
    simp [Stops, other]
  have days (text : List Char) := readDigits_numeral (numeral_toDigits d.toNat)
    (stops 'd' (by decide) (' ' :: text))
  have hours (text : List Char) := readDigits_numeral (numeral_twoDigits h)
    (stops 'h' (by decide) (':' :: text))
  have minutes (text : List Char) := readDigits_numeral (numeral_twoDigits m)
    (stops 'm' (by decide) (':' :: text))
  have seconds := readDigits_numeral (numeral_twoDigits s) (stops 's' (by decide) [])
  simp only [readUptime, days, List.drop_succ_cons, List.drop_zero, hours, minutes, seconds,
    UInt64.ofNat_toNat]

theorem readUptime_uptimeText (secs : UInt64) : readUptime (uptimeText secs) = secs := by
  have total : secs / 86400 * 86400 + secs % 86400 / 3600 * 3600 + secs % 3600 / 60 * 60 +
      secs % 60 = secs := by
    rw [← UInt64.toNat_inj]
    simp only [UInt64.toNat_add, UInt64.toNat_mul, UInt64.toNat_div, UInt64.toNat_mod,
      UInt64.reduceToNat]
    have small := secs.toNat_lt
    omega
  exact (readUptime_numbers _ _ _ _).trans total

/-- The text holds the uptime: none of it is cut off, and it tells the second. -/
theorem getFormattedUptime_read (secs : Option ℚ) :
    getFormattedUptime secs = (getUptimeSeconds secs).map uptimeText ∧
      (getFormattedUptime secs).map readUptime = getUptimeSeconds secs := by
  have whole : getFormattedUptime secs = (getUptimeSeconds secs).map uptimeText :=
    Option.map_congr fun _ _ => List.take_of_length_le (length_uptimeText _)
  refine ⟨whole, ?_⟩
  have back : readUptime ∘ uptimeText = id := funext readUptime_uptimeText
  rw [whole, Option.map_map, back, Option.map_id, id]

/-! ### What a machine is called -/

theorem trim_of_ends {c d : Char} (first : isTrimmed c = false) (last : isTrimmed d = false)
    (v : List Char) : trim (c :: (v ++ [d])) = c :: (v ++ [d]) := by
  rw [trim, List.dropWhile_cons_of_neg (by simp [first]), ← List.cons_append,
    List.rdropWhile_concat_neg _ _ _ (by simp [last])]

/-- Whatever stands between the quotes is kept. -/
theorem stripQuotes_quoted (v : List Char) : stripQuotes ('"' :: (v ++ ['"'])) = v := by
  have trimmed : trim ('"' :: (v ++ ['"'])) = '"' :: (v ++ ['"']) :=
    trim_of_ends (by decide) (by decide) v
  have quoted : 2 ≤ ('"' :: (v ++ ['"'])).length ∧ ('"' :: (v ++ ['"'])).head? = some '"' ∧
      ('"' :: (v ++ ['"'])).getLast? = some '"' := by
    refine ⟨by simp, rfl, ?_⟩
    rw [← List.cons_append, List.getLast?_concat]
  simp only [stripQuotes, trimmed, if_pos quoted]
  simp

/-- The first line of the file that answers to `key` is `line`. -/
def FirstLine (key : List Char → Prop) (file : Option (List Char)) (line : List Char) : Prop :=
  ∃ text ∈ file, ∃ before after, lines text = before ++ line :: after ∧ ∀ l ∈ before, ¬ key l

/-- No line of the file, if it can be opened at all, answers to `key`. -/
def Silent (key : List Char → Prop) (file : Option (List Char)) : Prop :=
  ∀ text ∈ file, ∀ l ∈ lines text, ¬ key l

theorem firstValue_of_firstLine {key : List Char → Prop}
    {read : List Char → Option (List Char)} (reads : ∀ l, ¬ key l → read l = none)
    {file : Option (List Char)} {line v : List Char} (first : FirstLine key file line)
    (value : read line = some v) :
    firstValue read file = some v := by
  obtain ⟨text, rfl, before, after, split, skipped⟩ := first
  have none : before.findSome? read = none :=
    List.findSome?_eq_none_iff.2 fun l h => reads l (skipped l h)
  rw [firstValue, Option.bind_some, split, List.findSome?_append, none, Option.none_or,
    List.findSome?_cons, value]

theorem firstValue_of_silent {key : List Char → Prop} {read : List Char → Option (List Char)}
    (reads : ∀ l, ¬ key l → read l = none) {file : Option (List Char)} (silent : Silent key file) :
    firstValue read file = none := by
  cases file with
  | none => rfl
  | some text => exact List.findSome?_eq_none_iff.2 fun l h => reads l (silent text rfl l h)

def IsName (line : List Char) : Prop := nameKey <+: line

def IsModel (line : List Char) : Prop := modelKey <+: line ∧ ':' ∈ line

/-- A line that gives the distribution a name in quotes. -/
def nameLine (name : List Char) : List Char := nameKey ++ '"' :: (name ++ ['"'])

/-- A line that gives the processor a model, with a gap in front of its colon. -/
def modelLine (gap model : List Char) : List Char := modelKey ++ (gap ++ ':' :: ' ' :: model)

theorem nameIn_nameLine (name : List Char) : nameIn (nameLine name) = some name := by
  have start : nameKey <+: nameLine name := List.prefix_append _ _
  rw [nameIn, if_pos start]
  exact congrArg some (stripQuotes_quoted name)

theorem modelIn_modelLine {gap model : List Char} (flat : ':' ∉ gap)
    (trimmed : trim model = model) : modelIn (modelLine gap model) = some model := by
  have start : modelKey <+: modelLine gap model := List.prefix_append _ _
  have colon : ':' ∈ modelLine gap model := by simp [modelLine]
  have front : ∀ c ∈ modelKey ++ gap, decide (c ≠ ':') := by
    intro c h
    rw [decide_eq_true_eq]
    rintro rfl
    rcases List.mem_append.1 h with key | own
    · exact absurd key (by decide)
    · exact flat own
  have behind : (modelLine gap model).dropWhile (· ≠ ':') = ':' :: ' ' :: model := by
    rw [modelLine, ← List.append_assoc, List.dropWhile_append_of_pos front]
    rfl
  have value : trim (' ' :: model) = trim model := rfl
  rw [modelIn, if_pos ⟨start, colon⟩, behind, List.drop_one, List.tail_cons, value, trimmed]

/-- What the files say of distribution and processor is what is collected: a name in quotes from the
first of the two files that gives one, and the model of the first processor; where the files are
silent the record says that they are unknown. -/
theorem collect_reports (m : Machine) :
    (∀ name, FirstLine IsName m.etcOsRelease (nameLine name) ∨
      Silent IsName m.etcOsRelease ∧ FirstLine IsName m.usrOsRelease (nameLine name) →
        (collect m).osName = name) ∧
      (Silent IsName m.etcOsRelease → Silent IsName m.usrOsRelease →
        (collect m).osName = "Unknown Linux".toList) ∧
      (∀ gap model, ':' ∉ gap → trim model = model →
        FirstLine IsModel m.cpuinfo (modelLine gap model) → (collect m).cpuModel = model) ∧
      (Silent IsModel m.cpuinfo → (collect m).cpuModel = "Unknown CPU".toList) := by
  have names (l : List Char) (other : ¬ IsName l) : nameIn l = none := if_neg other
  have models (l : List Char) (other : ¬ IsModel l) : modelIn l = none := if_neg other
  refine ⟨fun name h => ?_, fun etc usr => ?_, fun gap model flat trimmed first => ?_, fun h => ?_⟩
  · show parseOsName _ _ = _
    rw [parseOsName]
    rcases h with first | ⟨silent, first⟩
    · rw [firstValue_of_firstLine names first (nameIn_nameLine name)]
      rfl
    · rw [firstValue_of_silent names silent,
        firstValue_of_firstLine names first (nameIn_nameLine name)]
      rfl
  · show parseOsName _ _ = _
    rw [parseOsName, firstValue_of_silent names etc, firstValue_of_silent names usr]
    rfl
  · show parseCpuModel _ = _
    rw [parseCpuModel, firstValue_of_firstLine models first (modelIn_modelLine flat trimmed)]
    rfl
  · show parseCpuModel _ = _
    rw [parseCpuModel, firstValue_of_silent models h]
    rfl

end SystemInfo

end SmoothDemon
