import Mathlib.Data.List.DropRight
import SmoothDemon.Library.Keys
import SmoothDemon.Library.Text

/-!
# Processes under /proc

A `/proc` as a monitor sees it during one of its calls: the directory in the order `readdir` gives
it and the files of each process.  Processes carry an identity that /proc does not show, so that a
process is told from a later one with its pid.
-/

namespace SmoothDemon

/-- The test on `d_name[0]`. -/
def startsWithDigit (name : List Char) : Bool := name.head?.any Char.isDigit

theorem startsWithDigit_numeral {ds : List Char} {n : ℕ} (h : Text.Numeral ds n) :
    startsWithDigit ds := by
  obtain ⟨c, text, split, digit⟩ := h.head_isDigit []
  rw [List.append_nil] at split
  rw [split]
  exact digit

/-- A file of procfs.  The offset reached by seeking to its end is `size`, whatever it reads. -/
structure PseudoFile where
  content : List Char
  size : ℕ := 0

/-- A process.  `stat`, `status` and `tasks` are what these entries of its directory read, `none`
where they cannot be opened. -/
structure Process where
  ident : ℕ
  pid : ℕ
  pid_pos : 0 < pid
  pid_lt : pid < 2 ^ 31
  comm : List Char
  args : List (List Char) := []
  stat : Option (List Char) := none
  status : Option (List Char) := none
  tasks : Option (List (List Char)) := none

namespace Process

def commFile (p : Process) : List Char := p.comm ++ ['\n']

/-- Every argument is followed by a NUL. -/
def cmdlineFile (p : Process) : PseudoFile := { content := p.args.flatMap (· ++ ['\x00']) }

end Process

inductive DirEntry where
  | process (p : Process)
  | other (name : List Char) (stops : Text.Stops name)

namespace DirEntry

def name : DirEntry → List Char
  | process p => Nat.toDigits 10 p.pid
  | other name _ => name

def process? : DirEntry → Option Process
  | process p => some p
  | other _ _ => none

end DirEntry

/-- A process with pid 12. -/
def Process.twelve (ident : ℕ) (comm : String) (args : List String) (stat : Option String) :
    Process where
  ident
  pid := 12
  pid_pos := by decide
  pid_lt := by decide
  comm := comm.toList
  args := args.map String.toList
  stat := stat.map String.toList

/-- /proc: no two processes at a time have one pid. -/
structure Procfs where
  entries : List DirEntry
  distinct : ((entries.filterMap DirEntry.process?).map Process.pid).Nodup

namespace Procfs

/-- A /proc with one process. -/
def single (p : Process) : Procfs where
  entries := [.other "stat".toList (by rintro _ ⟨⟩; rfl), .process p]
  distinct := List.nodup_singleton p.pid

variable (proc : Procfs)

def processes : List Process := proc.entries.filterMap DirEntry.process?

/-- The process behind the directory `/proc/<pid>`. -/
def process? (pid : ℤ) : Option Process := proc.processes.find? fun p => (p.pid : ℤ) = pid

theorem process?_eq_some_iff {proc : Procfs} {pid : ℤ} {p : Process} :
    proc.process? pid = some p ↔ p ∈ proc.processes ∧ (p.pid : ℤ) = pid := by
  have distinct : (proc.processes.map fun p => (p.pid : ℤ)).Nodup := by
    have pids := proc.distinct.map (f := Int.ofNat) fun _ _ => Int.ofNat.inj
    rwa [List.map_map] at pids
  exact Keys.find?_eq_some_iff distinct

end Procfs

end SmoothDemon
