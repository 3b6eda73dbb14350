import SmoothDemon.Monitor.ProcessMonitor

/-!
# The DRM directory

/sys/class/drm as the GPU monitor and the system information look at it, with the helpers that read
a number from a file of it (src/gpu.cpp).
-/

namespace SmoothDemon

inductive SysFile where
  | absent
  /-- Looking for it fails. -/
  | hidden
  | unreadable
  | readable (content : List Char)

namespace SysFile

/-- `fs::exists`, `none` where it leaves an error. -/
def exists? : SysFile → Option Bool
  | .absent => some false
  | .hidden => none
  | _ => some true

/-- What a stream on the file reads, `none` where it is not open. -/
def content? : SysFile → Option (List Char)
  | .readable content => some content
  | _ => none

@[simp] theorem exists?_absent : absent.exists? = some false := rfl

@[simp] theorem exists?_hidden : hidden.exists? = none := rfl

@[simp] theorem exists?_unreadable : unreadable.exists? = some true := rfl

@[simp] theorem exists?_readable (content : List Char) :
    (readable content).exists? = some true := rfl

@[simp] theorem content?_absent : absent.content? = none := rfl

@[simp] theorem content?_hidden : hidden.content? = none := rfl

@[simp] theorem content?_unreadable : unreadable.content? = none := rfl

@[simp] theorem content?_readable (content : List Char) :
    (readable content).content? = some content := rfl

/-- The number in the file. -/
def number? (file : SysFile) : Option UInt64 :=
  (file.content?.bind ProcessMonitor.extractU64).map Prod.fst

end SysFile

def readSysfsU64 (file : SysFile) : UInt64 := file.number?.getD 0

def readSysfsU32 (file : SysFile) : UInt32 :=
  let v := readSysfsU64 file
  if 0xFFFFFFFF < v then 0xFFFFFFFF else v.toUInt32

/-- An entry of the directory, with the files below it; the last two are in its device directory.
A vendor file holds a number in base 16, and no colon. -/
structure DrmEntry where
  name : List Char
  gtCurFreqMhz : SysFile := .absent
  gtActFreqMhz : SysFile := .absent
  gtMinFreqMhz : SysFile := .absent
  gtMaxFreqMhz : SysFile := .absent
  memInfoGttUsed : SysFile := .absent
  rc6ResidencyMs : SysFile := .absent
  vendor : SysFile := .absent
  device : SysFile := .absent
  vendor_plain : ∀ content ∈ vendor.content?, ':' ∉ content := by decide

structure Drm where
  entries : List DrmEntry
  distinct : (entries.map DrmEntry.name).Nodup

def drmRoot : List Char := "/sys/class/drm".toList

def DrmEntry.path (entry : DrmEntry) : List Char := drmRoot ++ '/' :: entry.name

/-- The entries of the directory, none where there is no directory. -/
def entriesOf (drm : Option Drm) : List DrmEntry := (drm.map Drm.entries).getD []

/-- A file below a path. -/
def fileAt (drm : Option Drm) (path : List Char) (file : DrmEntry → SysFile) : SysFile :=
  (((entriesOf drm).find? fun entry => entry.path = path).map file).getD .absent

/-- Exactly "card" and digits. -/
def isCardDirName (name : List Char) : Bool :=
  5 ≤ name.length && "card".toList.isPrefixOf name && (name.drop 4).all Char.isDigit

theorem path_inj {drm : Option Drm} {a b : DrmEntry} (ha : a ∈ entriesOf drm)
    (hb : b ∈ entriesOf drm) (same : a.path = b.path) : a = b := by
  cases drm with
  | none => cases ha
  | some drm =>
    have names : a.name = b.name := (List.cons.inj (List.append_cancel_left same)).2
    exact List.inj_on_of_nodup_map drm.distinct ha hb names

end SmoothDemon
