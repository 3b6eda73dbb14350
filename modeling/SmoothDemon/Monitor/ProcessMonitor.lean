import Mathlib.Algebra.Order.Field.Rat
import SmoothDemon.Monitor.Procfs

/-!
# The process monitor

The functions of src/process.cpp over a frozen /proc.  `findTargetProcess` never gets to see a
command line: `readCmdline` sizes its buffer by seeking to the end of the file, which procfs answers
with 0.  So the search is right exactly where the names decide it (`findTargetProcess_finds_iff`).
-/

namespace SmoothDemon

open Text

structure ProcessMetrics where
  pid : ℤ := -1
  name : List Char := []
  cmdline : List Char := []
  state : Char := '?'
  rssKib : UInt64 := 0
  virtKib : UInt64 := 0
  numThreads : UInt32 := 0
  cpuPercent : ℚ := 0
  isRunning : Bool := false
  deriving DecidableEq

structure ProcessMonitor where
  targetName : List Char
  cachedPid : ℤ := -1
  clkTck : ℕ := 100
  prevTicks : UInt64 := 0
  prevTime : ℤ := 0
  firstSample : Bool := true

namespace ProcessMonitor

/-- `tck` is what `sysconf` reports. -/
def construct (targetName : List Char) (tck : ℤ) : ProcessMonitor where
  targetName
  clkTck := if 0 < tck then tck.toNat else 100

def reset (m : ProcessMonitor) : ProcessMonitor :=
  { m with cachedPid := -1, prevTicks := 0, prevTime := 0, firstSample := true }

/-! ### Helpers

A file that cannot be opened is `none`. -/

def readComm (file : Option (List Char)) : List Char :=
  match file with
  | none => []
  | some content =>
    ((lines content).headD []).rdropWhile fun c => c == '\n' || c == '\r' || c == ' ' || c == '\t'

def readCmdline (file : Option PseudoFile) : List Char :=
  match file with
  | none => []
  | some f =>
    -- `resize` to the size found, then a `read` into the buffer
    let raw := (f.content.take f.size).rightpad f.size '\x00'
    (raw.map fun c => if c = '\x00' then ' ' else c).rdropWhile (· == ' ')

/-- `std::out_of_range`. -/
inductive Fault where
  | outOfRange
  deriving DecidableEq

def rfind (c : Char) : List Char → Option ℕ
  | [] => none
  | d :: line =>
    match rfind c line with
    | some pos => some (pos + 1)
    | none => if d = c then some 0 else none

def substr (line : List Char) (pos : ℕ) : Except Fault (List Char) :=
  if line.length < pos then .error .outOfRange else .ok (line.drop pos)

/-- `iss >> tmp`: what is left behind the next token. -/
def skipToken (iss : List Char) : Option (List Char) :=
  let token := iss.dropWhile isSpace
  if token = [] then none else some (token.dropWhile fun c => !isSpace c)

def skipTokens : ℕ → List Char → Option (List Char)
  | 0, iss => some iss
  | k + 1, iss => (skipToken iss).bind (skipTokens k)

/-- `iss >> out` for a 64-bit word: fails on a value that does not fit, and negates it behind a
minus. -/
def extractU64 (iss : List Char) : Option (UInt64 × List Char) :=
  (scanInteger iss).bind fun (minus, value, rest) =>
    if value < 2 ^ 64 then some (if minus then -UInt64.ofNat value else UInt64.ofNat value, rest)
    else none

/-- The state and the ticks, `none` where the code returns false. -/
def readStat (file : Option (List Char)) : Except Fault (Option (Char × UInt64)) :=
  match file.bind fun content => (lines content).head? with
  | none => .ok none
  | some line =>
    match rfind ')' line with
    | none => .ok none
    | some pos =>
      match getElem? line (pos + 2) with
      | none => .ok none
      | some state => do
        let iss ← substr line (pos + 4)
        return do
          let iss ← skipTokens 10 iss
          let (utime, iss) ← extractU64 iss
          let (stime, _) ← extractU64 iss
          return (state, utime + stime)

/-- The out parameters of `read_status_memory`, and its `found`. -/
structure StatusMemory where
  rss : UInt64 := 0
  virt : UInt64 := 0
  threads : UInt32 := 0
  found : ℕ := 0

namespace StatusMemory

/-- One line of the loop.  A blank in a format stands for any space. -/
def readLine (r : StatusMemory) (line : List Char) : StatusMemory :=
  let rssKey := "VmRSS:".toList
  let virtKey := "VmSize:".toList
  let threadsKey := "Threads:".toList
  if rssKey <+: line then
    { r with rss := (scanU64 (line.drop rssKey.length)).getD r.rss, found := r.found + 1 }
  else if virtKey <+: line then
    { r with virt := (scanU64 (line.drop virtKey.length)).getD r.virt, found := r.found + 1 }
  else if threadsKey <+: line then
    -- `%u` stores the low 32 bits
    let threads := ((scanU64 (line.drop threadsKey.length)).getD 0).toUInt32
    { r with threads, found := r.found + 1 }
  else r

def readLines (r : StatusMemory) : List (List Char) → StatusMemory
  | [] => r
  | line :: rest =>
    let r := r.readLine line
    if 3 ≤ r.found then r else r.readLines rest

end StatusMemory

def readStatusMemory (file : Option (List Char)) : StatusMemory :=
  match file with
  | none => {}
  | some content => StatusMemory.readLines {} (lines content)

/-- `names` are those in the task directory. -/
def countTasks (names : Option (List (List Char))) : UInt32 :=
  match names with
  | none => 0
  | some names => UInt32.ofNat (names.countP startsWithDigit)

/-! ### The search -/

variable (proc : Procfs) (self : ℤ)

def comm (pid : ℤ) : List Char := readComm ((proc.process? pid).map Process.commFile)

def cmdline (pid : ℤ) : List Char := readCmdline ((proc.process? pid).map Process.cmdlineFile)

/-- The loop of `find_target_process`; `self` is the monitor's own pid. -/
def search (target : List Char) : List (List Char) → Option ℤ
  | [] => none
  | name :: rest =>
    let pid := atoi name
    if !startsWithDigit name ∨ pid ≤ 0 ∨ pid = self then search target rest
    else if comm proc pid ≠ [] ∧ (comm proc pid = target ∨ target <:+: comm proc pid) then some pid
    else if cmdline proc pid ≠ [] ∧ target <:+: cmdline proc pid then some pid
    else search target rest

def findTargetProcess (target : List Char) : Option ℤ :=
  search proc self target (proc.entries.map DirEntry.name)

/-! ### One sample -/

/-- The monitor with a pid to sample. -/
def locate (m : ProcessMonitor) (proc : Procfs) (self : ℤ) : Option ProcessMonitor :=
  if m.cachedPid ≤ 0 then
    (findTargetProcess proc self m.targetName).map fun pid =>
      { m with cachedPid := pid, firstSample := true }
  else some m

/-- Seconds since the baseline. -/
def elapsed (m : ProcessMonitor) (now : ℤ) : ℚ := (now - m.prevTime : ℤ) / 10 ^ 9

/-- The CPU percentage, and the baseline for the next one. -/
def measure (m : ProcessMonitor) (ticks : UInt64) (now : ℤ) : ProcessMonitor × ℚ :=
  if m.firstSample then ({ m with prevTicks := ticks, prevTime := now, firstSample := false }, 0)
  else if 1 / 1000 < m.elapsed now then
    let dticks := ticks - m.prevTicks
    ({ m with prevTicks := ticks, prevTime := now },
      dticks.toNat / m.clkTck / m.elapsed now * 100)
  else (m, 0)

/-- `out_metrics` of a running process. -/
def describe (pid : ℤ) (state : Char) (cpuPercent : ℚ) : ProcessMetrics :=
  let memory := readStatusMemory ((proc.process? pid).bind Process.status)
  let threads :=
    if memory.threads = 0 then countTasks ((proc.process? pid).bind Process.tasks)
    else memory.threads
  { pid
    name := comm proc pid
    cmdline := cmdline proc pid
    state
    rssKib := memory.rss
    virtKib := memory.virt
    numThreads := threads
    cpuPercent
    isRunning := true }

/-- The result and `out_metrics`; a fault leaves both to the caller. -/
def sample (m : ProcessMonitor) (proc : Procfs) (self now : ℤ) :
    ProcessMonitor × Except Fault (Bool × ProcessMetrics) :=
  match m.locate proc self with
  | none => (m, .ok (false, {}))
  | some m =>
    match readStat ((proc.process? m.cachedPid).bind Process.stat) with
    | .error fault => (m, .error fault)
    | .ok none => (m.reset, .ok (false, {}))
    | .ok (some (state, ticks)) =>
      let (m, cpuPercent) := m.measure ticks now
      (m, .ok (true, describe proc m.cachedPid state cpuPercent))

/-- What a call can do. -/
inductive Sampled (m : ProcessMonitor) (proc : Procfs) (own now : ℤ) :
    ProcessMonitor × Except Fault (Bool × ProcessMetrics) → Prop
  | absent (missing : m.locate proc own = none) : Sampled m proc own now (m, .ok (false, {}))
  | unread (m₁ : ProcessMonitor) (located : m.locate proc own = some m₁)
      (read : readStat ((proc.process? m₁.cachedPid).bind Process.stat) = .ok none) :
      Sampled m proc own now (m₁.reset, .ok (false, {}))
  | fault (m₁ : ProcessMonitor) (fault : Fault) (located : m.locate proc own = some m₁)
      (read : readStat ((proc.process? m₁.cachedPid).bind Process.stat) = .error fault) :
      Sampled m proc own now (m₁, .error fault)
  | read (m₁ : ProcessMonitor) (state : Char) (ticks : UInt64)
      (located : m.locate proc own = some m₁)
      (read : readStat ((proc.process? m₁.cachedPid).bind Process.stat) = .ok (some (state, ticks))) :
      Sampled m proc own now ((m₁.measure ticks now).1, .ok (true,
        describe proc (m₁.measure ticks now).1.cachedPid state (m₁.measure ticks now).2))

theorem sampled (m : ProcessMonitor) (proc : Procfs) (own now : ℤ) :
    Sampled m proc own now (m.sample proc own now) := by
  cases located : m.locate proc own with
  | none =>
    simp only [sample, located]
    exact .absent located
  | some m₁ =>
    cases read : readStat ((proc.process? m₁.cachedPid).bind Process.stat) with
    | error fault =>
      simp only [sample, located, read]
      exact .fault m₁ fault located read
    | ok r =>
      cases r with
      | none =>
        simp only [sample, located, read]
        exact .unread m₁ located read
      | some r =>
        simp only [sample, located, read]
        exact .read m₁ r.1 r.2 located read

/-! ### What the search sees -/

variable {proc self} {target : List Char}

theorem readCmdline_empty (content : List Char) : readCmdline (some { content }) = [] := rfl

/-- Seeking tells that a command line is empty. -/
theorem cmdline_eq (pid : ℤ) : cmdline proc pid = [] := by
  unfold cmdline
  cases proc.process? pid with
  | none => rfl
  | some p => exact readCmdline_empty _

theorem headD_lines (text : List Char) :
    (lines (text ++ ['\n'])).headD [] = text.takeWhile (· ≠ '\n') := by
  induction text with
  | nil => rfl
  | cons c text ih =>
    by_cases newline : c = '\n'
    · simp [lines, newline]
    · rw [List.cons_append, lines, if_neg newline,
        List.takeWhile_cons_of_pos (by simpa using newline), ← ih]
      cases lines (text ++ ['\n']) <;> rfl

end ProcessMonitor

/-- The name as `read_comm` gets to see it: up to a newline in it, without blanks at its end. -/
def Process.shownComm (p : Process) : List Char :=
  (p.comm.takeWhile (· ≠ '\n')).rdropWhile fun c => c == '\n' || c == '\r' || c == ' ' || c == '\t'

/-- The target stands in the name or in the arguments joined by single spaces. -/
def Process.Matches (p : Process) (target : List Char) : Prop :=
  target <:+: p.comm ∨ target <:+: [' '].intercalate p.args

theorem Process.shownComm_infix (p : Process) : p.shownComm <:+: p.comm :=
  ((List.rdropWhile_prefix _ _).trans (List.takeWhile_prefix _)).isInfix

namespace ProcessMonitor

variable {proc : Procfs} {self : ℤ} {target : List Char}

theorem comm_eq {p : Process} (h : p ∈ proc.processes) : comm proc p.pid = p.shownComm := by
  rw [comm, Procfs.process?_eq_some_iff.2 ⟨h, rfl⟩]
  simp only [Option.map_some, readComm, Process.commFile, headD_lines]
  rfl

theorem search_other {name : List Char} (stops : Stops name) (rest : List (List Char)) :
    search proc self target (name :: rest) = search proc self target rest := by
  have other : startsWithDigit name = false := by
    cases name with
    | nil => rfl
    | cons c name => exact stops c rfl
  rw [search, if_pos (.inl (by simp [other]))]

theorem search_process (nonempty : target ≠ []) {p : Process} (h : p ∈ proc.processes)
    (rest : List (List Char)) : search proc self target (Nat.toDigits 10 p.pid :: rest) =
      if (p.pid : ℤ) ≠ self ∧ target <:+: p.shownComm then some (p.pid : ℤ)
      else search proc self target rest := by
  have number := numeral_toDigits p.pid
  have positive : ¬ (p.pid : ℤ) ≤ 0 := by
    have := p.pid_pos
    omega
  have shown : p.shownComm ≠ [] ∧ (p.shownComm = target ∨ target <:+: p.shownComm) ↔
      target <:+: p.shownComm := by
    constructor
    · rintro ⟨-, same | part⟩
      · exact same ▸ List.infix_rfl
      · exact part
    · intro part
      refine ⟨?_, .inr part⟩
      rintro empty
      rw [empty] at part
      exact nonempty (List.infix_nil.1 part)
  simp only [search, atoi_numeral number p.pid_lt, startsWithDigit_numeral number, positive,
    comm_eq h, cmdline_eq, shown]
  by_cases own : (p.pid : ℤ) = self
  · simp [own]
  · simp [own]

/-- The search finds the first process, in the order of the directory, whose name shows
the target. -/
theorem findTargetProcess_eq (nonempty : target ≠ []) : findTargetProcess proc self target =
    (proc.processes.find? fun p => (p.pid : ℤ) ≠ self ∧ target <:+: p.shownComm).map
      fun p => (p.pid : ℤ) := by
  have listed : ∀ entries : List DirEntry, entries <:+ proc.entries →
      search proc self target (entries.map DirEntry.name) =
        ((entries.filterMap DirEntry.process?).find? fun p =>
          (p.pid : ℤ) ≠ self ∧ target <:+: p.shownComm).map fun p => (p.pid : ℤ) := by
    intro entries part
    induction entries with
    | nil => rfl
    | cons e entries ih =>
      have later := ih ((List.suffix_cons e entries).trans part)
      cases e with
      | other name stops => exact (search_other stops _).trans later
      | process p =>
        have member : p ∈ proc.processes :=
          List.mem_filterMap.2 ⟨.process p, part.subset List.mem_cons_self, rfl⟩
        rw [List.map_cons, DirEntry.name, search_process nonempty member, later,
          List.filterMap_cons_some (by rfl), List.find?_cons]
        by_cases found : (p.pid : ℤ) ≠ self ∧ target <:+: p.shownComm
        · rw [if_pos found, decide_eq_true found]
          rfl
        · rw [if_neg found, decide_eq_false found]
  exact listed proc.entries List.suffix_rfl

/-! ### Whether it finds the target -/

/-- A pid iff another process matches, and that of such a process. -/
def Finds (proc : Procfs) (self : ℤ) (target : List Char) : Option ℤ → Prop
  | none => ∀ p ∈ proc.processes, (p.pid : ℤ) ≠ self → ¬ p.Matches target
  | some pid => ∃ p ∈ proc.processes, (p.pid : ℤ) = pid ∧ pid ≠ self ∧ p.Matches target

/-- The search is right iff the target shows in the name of another process, or no other process has
it in its name or arguments. -/
theorem findTargetProcess_finds_iff (nonempty : target ≠ []) :
    Finds proc self target (findTargetProcess proc self target) ↔
      (∃ p ∈ proc.processes, (p.pid : ℤ) ≠ self ∧ target <:+: p.shownComm) ∨
        ∀ p ∈ proc.processes, (p.pid : ℤ) ≠ self → ¬ p.Matches target := by
  rw [findTargetProcess_eq nonempty]
  cases found : proc.processes.find? fun p => (p.pid : ℤ) ≠ self ∧ target <:+: p.shownComm with
  | none =>
    have none : ¬ ∃ p ∈ proc.processes, (p.pid : ℤ) ≠ self ∧ target <:+: p.shownComm := by
      simpa using List.find?_eq_none.1 found
    exact (or_iff_right none).symm
  | some p =>
    have shown : (p.pid : ℤ) ≠ self ∧ target <:+: p.shownComm := by
      have := List.find?_some found
      exact of_decide_eq_true this
    have member := List.mem_of_find?_eq_some found
    refine iff_of_true ⟨p, member, rfl, shown.1, .inl (shown.2.trans p.shownComm_infix)⟩ ?_
    exact .inl ⟨p, member, shown⟩

section Example

def named (comm : String) (args : List String) : Procfs := .single (.twelve 0 comm args none)

theorem findTargetProcess_finds_ryujinx :
    Finds (named "ryujinx" []) 1 "ryujinx".toList
      (findTargetProcess (named "ryujinx" []) 1 "ryujinx".toList) :=
  (findTargetProcess_finds_iff (by decide)).2 (.inl ⟨_, List.mem_singleton_self _, by decide⟩)

/-- A process that only its command line tells. -/
theorem not_findTargetProcess_finds : ¬ ∀ (proc : Procfs) (self : ℤ) (target : List Char),
    target ≠ [] → Finds proc self target (findTargetProcess proc self target) := by
  intro claim
  have finds := claim (named "python3" ["python3", "ryujinx.py"]) 1 "ryujinx".toList (by decide)
  have missed : findTargetProcess (named "python3" ["python3", "ryujinx.py"]) 1 "ryujinx".toList =
      none := by decide
  rw [missed] at finds
  exact finds _ (List.mem_singleton_self _) (by decide) (.inr (by decide))

end Example

end ProcessMonitor

end SmoothDemon
