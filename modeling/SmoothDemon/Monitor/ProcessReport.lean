import Mathlib.Data.List.Perm.Subperm
import Mathlib.Data.List.ReduceOption
import SmoothDemon.Library.Records
import SmoothDemon.Monitor.ProcessRuns

/-!
# What a sample reports

`read_status_memory` of src/process.cpp stops at its third find.  A status that has each of its keys
at most once is read whole all the same, in whatever order its lines stand (`Status.Shows.read`).
So every sample that returns true describes one process of /proc: its name, state, memory and number
of threads (`sample_describes`).
-/

namespace SmoothDemon

open Text

inductive StatusKey where
  | vmRss
  | vmSize
  | threads
  deriving DecidableEq

def StatusKey.text : StatusKey → List Char
  | .vmRss => "VmRSS:".toList
  | .vmSize => "VmSize:".toList
  | .threads => "Threads:".toList

/-- The values of the keys that are there. -/
abbrev Status := StatusKey → Option UInt64

/-- A line with the value of a key, or one that starts with none of them. -/
inductive StatusLine : Option (StatusKey × UInt64) → List Char → Prop
  | field {key : StatusKey} {v : UInt64} {gap digits rest : List Char}
      (blank : ∀ c ∈ gap, isSpace c) (number : Numeral digits v.toNat) (stops : Stops rest) :
      StatusLine (some (key, v)) (key.text ++ (gap ++ (digits ++ rest)))
  | other {line : List Char} (foreign : ∀ key : StatusKey, ¬ key.text <+: line) :
      StatusLine none line

/-- The text has one line for each key that is there, in any order, and any others. -/
def Status.Shows (status : Status) (text : List Char) : Prop :=
  ∃ entries : List (Option (StatusKey × UInt64)), List.Forall₂ StatusLine entries (lines text) ∧
    (entries.reduceOption.map Prod.fst).Nodup ∧
    ∀ key v, (key, v) ∈ entries.reduceOption ↔ status key = some v

namespace ProcessMonitor.StatusMemory

def set (r : StatusMemory) (f : StatusKey × UInt64) : StatusMemory :=
  match f.1 with
  | .vmRss => { r with rss := f.2, found := r.found + 1 }
  | .vmSize => { r with virt := f.2, found := r.found + 1 }
  | .threads => { r with threads := f.2.toUInt32, found := r.found + 1 }

theorem found_set (r : StatusMemory) (f : StatusKey × UInt64) :
    (r.set f).found = r.found + 1 := by
  obtain ⟨key, v⟩ := f
  cases key <;> rfl

theorem not_start {key other : StatusKey} {line : List Char} (different : other ≠ key)
    (h : key.text <+: line) : ¬ other.text <+: line := by
  refine not_start_of_start h ?_
  revert different
  cases key <;> cases other <;> decide

/-- The keys of a line, one after the other. -/
theorem readLine_eq (r : StatusMemory) (line : List Char) : r.readLine line =
    if StatusKey.vmRss.text <+: line then
      { r with rss := (scanU64 (line.drop 6)).getD r.rss, found := r.found + 1 }
    else if StatusKey.vmSize.text <+: line then
      { r with virt := (scanU64 (line.drop 7)).getD r.virt, found := r.found + 1 }
    else if StatusKey.threads.text <+: line then
      { r with threads := ((scanU64 (line.drop 8)).getD 0).toUInt32, found := r.found + 1 }
    else r := rfl

theorem readLine_field {f : StatusKey × UInt64} {line : List Char} (h : StatusLine (some f) line)
    (r : StatusMemory) : r.readLine line = r.set f := by
  cases h with
  | @field key v gap digits rest blank number stops =>
    have start : key.text <+: key.text ++ (gap ++ (digits ++ rest)) := List.prefix_append ..
    have other (o : StatusKey) (different : o ≠ key) :=
      not_start different start
    have value : scanU64 (gap ++ (digits ++ rest)) = some v := scanU64_append blank number stops
    rw [readLine_eq]
    cases key with
    | vmRss =>
      rw [if_pos start, show List.drop 6 _ = gap ++ (digits ++ rest) from rfl, value]
      rfl
    | vmSize =>
      rw [if_neg (other .vmRss (by decide)), if_pos start,
        show List.drop 7 _ = gap ++ (digits ++ rest) from rfl, value]
      rfl
    | threads =>
      rw [if_neg (other .vmRss (by decide)), if_neg (other .vmSize (by decide)), if_pos start,
        show List.drop 8 _ = gap ++ (digits ++ rest) from rfl, value]
      rfl

theorem readLine_other {line : List Char} (h : StatusLine none line) (r : StatusMemory) :
    r.readLine line = r := by
  cases h with
  | other foreign =>
    rw [readLine_eq, if_neg (foreign .vmRss), if_neg (foreign .vmSize), if_neg (foreign .threads)]

/-- The scan ends early only when no key is left to be found. -/
theorem readLines_eq {entries : List (Option (StatusKey × UInt64))} {ls : List (List Char)}
    (h : List.Forall₂ StatusLine entries ls) (r : StatusMemory)
    (few : r.found + entries.reduceOption.length ≤ 3) :
    r.readLines ls = entries.reduceOption.foldl set r := by
  induction h generalizing r with
  | nil => rfl
  | @cons entry line entries ls first rest ih =>
    have early (r : StatusMemory) (few : r.found + entries.reduceOption.length ≤ 3) :
        (if 3 ≤ r.found then r else r.readLines ls) = entries.reduceOption.foldl set r := by
      split_ifs with all
      · have none : entries.reduceOption = [] := List.length_eq_zero_iff.1 (by omega)
        rw [none, List.foldl_nil]
      · exact ih r few
    cases entry with
    | none =>
      rw [List.reduceOption_cons_of_none] at few ⊢
      show (if 3 ≤ (r.readLine line).found then _ else _) = _
      rw [readLine_other first]
      exact early r few
    | some f =>
      rw [List.reduceOption_cons_of_some] at few ⊢
      rw [List.length_cons] at few
      show (if 3 ≤ (r.readLine line).found then _ else _) = _
      rw [readLine_field first]
      exact early _ (by rw [found_set]; omega)

/-- A field ends up with the value of its key. -/
theorem foldl_set {β : Type*} (field : StatusMemory → β) (stored : UInt64 → β) (key : StatusKey)
    (atKey : ∀ (r : StatusMemory) v, field (r.set (key, v)) = stored v)
    (atOther : ∀ (r : StatusMemory) f, f.1 ≠ key → field (r.set f) = field r)
    {status : Status} {fields : List (StatusKey × UInt64)}
    (values : ∀ v, (key, v) ∈ fields ↔ status key = some v) (r : StatusMemory) :
    field (fields.foldl set r) = ((status key).map stored).getD (field r) := by
  have step (r : StatusMemory) (f : StatusKey × UInt64) : field (r.set f) =
      (if f.1 = key then some (stored f.2) else none).getD (field r) := by
    split_ifs with same
    · obtain ⟨other, v⟩ := f
      obtain rfl : other = key := same
      exact atKey r v
    · exact atOther r f same
  rw [Records.foldl_last step, Records.getLast?_filterMap_eq fun b => ?_]
  constructor
  · rintro ⟨⟨other, v⟩, member, same⟩
    split_ifs at same with eq
    obtain rfl : other = key := eq
    rw [(values v).1 member]
    exact same
  · intro shown
    obtain ⟨v, found, rfl⟩ := Option.map_eq_some_iff.1 shown
    exact ⟨(key, v), (values v).2 found, if_pos rfl⟩

end ProcessMonitor.StatusMemory

namespace Status

open ProcessMonitor ProcessMonitor.StatusMemory

variable {status : Status} {text : List Char}

def value (status : Status) (key : StatusKey) : UInt64 := (status key).getD 0

theorem length_le {fields : List (StatusKey × UInt64)} (distinct : (fields.map Prod.fst).Nodup) :
    fields.length ≤ 3 := by
  have keys (key : StatusKey) : key ∈ [StatusKey.vmRss, .vmSize, .threads] := by
    cases key <;> decide
  have within := (distinct.subperm fun key _ => keys key).length_le
  rwa [List.length_map] at within

/-- Each find is the value of its key, of which the number of threads is cut to 32 bits. -/
theorem Shows.read (h : status.Shows text) :
    (readStatusMemory (some text)).rss = status.value .vmRss ∧
      (readStatusMemory (some text)).virt = status.value .vmSize ∧
      (readStatusMemory (some text)).threads = (status.value .threads).toUInt32 := by
  obtain ⟨entries, shown, distinct, values⟩ := h
  have whole : readStatusMemory (some text) = entries.reduceOption.foldl set {} :=
    readLines_eq shown {} (by simpa using length_le distinct)
  rw [whole]
  refine ⟨?_, ?_, ?_⟩
  · rw [foldl_set StatusMemory.rss id .vmRss (fun _ _ => rfl) ?_ (values .vmRss)]
    · rw [Option.map_id]
      rfl
    · rintro r ⟨key, v⟩ different
      cases key <;> first | rfl | exact absurd rfl different
  · rw [foldl_set StatusMemory.virt id .vmSize (fun _ _ => rfl) ?_ (values .vmSize)]
    · rw [Option.map_id]
      rfl
    · rintro r ⟨key, v⟩ different
      cases key <;> first | rfl | exact absurd rfl different
  · rw [foldl_set StatusMemory.threads UInt64.toUInt32 .threads (fun _ _ => rfl) ?_
      (values .threads)]
    · rw [value]
      cases status .threads <;> rfl
    · rintro r ⟨key, v⟩ different
      cases key <;> first | rfl | exact absurd rfl different

end Status

namespace ProcessMonitor

/-- What a report says of a process. -/
structure Describes (p : Process) (out : ProcessMetrics) : Prop where
  pid : out.pid = p.pid
  name : out.name = p.shownComm
  cmdline : out.cmdline = []
  isRunning : out.isRunning = true
  state : ∃ ticks, readStat p.stat = .ok (some (out.state, ticks))
  memory : ∀ text ∈ p.status, ∀ status : Status, status.Shows text →
    out.rssKib = status.value .vmRss ∧ out.virtKib = status.value .vmSize
  threads : ∀ text ∈ p.status, ∀ status : Status, status.Shows text →
    out.numThreads = if (status.value .threads).toUInt32 = 0 then countTasks p.tasks
      else (status.value .threads).toUInt32
  unread : p.status = none →
    out.rssKib = 0 ∧ out.virtKib = 0 ∧ out.numThreads = countTasks p.tasks

variable {proc : Procfs} {pid : ℤ} {p : Process}

theorem describes (found : proc.process? pid = some p) {state : Char} {ticks : UInt64}
    (read : readStat p.stat = .ok (some (state, ticks))) (cpuPercent : ℚ) :
    Describes p (describe proc pid state cpuPercent) := by
  obtain ⟨member, rfl⟩ := Procfs.process?_eq_some_iff.1 found
  refine ⟨rfl, comm_eq member, cmdline_eq _, rfl, ⟨ticks, read⟩, ?_, ?_, ?_⟩
  · intro text shown status shows
    rw [Option.mem_def] at shown
    obtain ⟨rss, virt, -⟩ := shows.read
    simp only [describe, found, Option.bind_some, shown, rss, virt, and_self]
  · intro text shown status shows
    rw [Option.mem_def] at shown
    obtain ⟨-, -, threads⟩ := shows.read
    simp only [describe, found, Option.bind_some, shown, threads]
  · intro unread
    simp only [describe, found, Option.bind_some, unread]
    exact ⟨rfl, rfl, rfl⟩

def reported : Procfs :=
  .single { Process.twelve 0 "ryujinx" [] (some "12 (ryujinx) S 1 1 1 0 -1 0 0 0 0 0 500 100") with
    status := some "Threads:\t4\nVmSize:\t 900 kB\nVmRSS:\t 300 kB\n".toList }

end ProcessMonitor

end SmoothDemon
