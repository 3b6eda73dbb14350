import Mathlib.Data.List.Perm.Basic
import SmoothDemon.Library.Keys
import SmoothDemon.Library.Text
import SmoothDemon.Monitor.CpuMetrics

/-!
# Reading /proc/stat

The parse helpers of src/cpu.cpp and the loop of `CpuMonitor::sample` over the lines of /proc/stat.
`Snapshot.Renders` says, without the parser, which texts show a snapshot of the counters; the loop
reads exactly that snapshot back (`readStat_renders`).
-/

namespace SmoothDemon

open Text

/-! ### The parse helpers -/

def isBlank (c : Char) : Bool := c == ' ' || c == '\t'

def skipSpaces (p : List Char) : List Char := p.dropWhile isBlank

/-- The number at `p`, or `out` where there is none, and the text behind it. -/
def parseU64 (p : List Char) (out : UInt64) : UInt64 × List Char :=
  match skipSpaces p with
  | [] => (out, [])
  | c :: text => if c.isDigit then readDigits 0 (c :: text) else (out, c :: text)

def parseEight (p : List Char) (s : CpuSample) : CpuSample :=
  let (user, p) := parseU64 p s.user
  let (nice, p) := parseU64 p s.nice
  let (system, p) := parseU64 p s.system
  let (idle, p) := parseU64 p s.idle
  let (iowait, p) := parseU64 p s.iowait
  let (irq, p) := parseU64 p s.irq
  let (softirq, p) := parseU64 p s.softirq
  let (steal, _) := parseU64 p s.steal
  { user, nice, system, idle, iowait, irq, softirq, steal }

/-! ### The loop over the lines -/

/-- The locals of the loop: `aggregate_curr`, `aggregate_seen` and `core_curr`. -/
structure StatRead (n : ℕ) where
  aggregate : CpuSample := {}
  aggregateSeen : Bool := false
  cores : Vector CpuSample n := .replicate n {}

namespace StatRead

variable {n : ℕ}

def setAggregate (r : StatRead n) (s : CpuSample) : StatRead n :=
  { r with aggregate := s, aggregateSeen := true }

/-- Writes entry `idx` of `core_curr` if there is one. -/
def modifyCore (r : StatRead n) (idx : ℕ) (f : CpuSample → CpuSample) : StatRead n :=
  if h : idx < n then { r with cores := r.cores.set idx (f r.cores[idx]) } else r

/-- One round of the loop; `none` is its `break`. -/
def readLine (r : StatRead n) (line : List Char) : Option (StatRead n) :=
  if line.length < 4 ∨ line.take 3 ≠ ['c', 'p', 'u'] then none
  else
    match line.drop 3 with
    | [] => some r
    | c :: text =>
      let p := c :: text
      if c = ' ' then
        if r.aggregateSeen then some r else some (r.setAggregate (parseEight p r.aggregate))
      else if c.isDigit then
        let (idx, q) := readDigits 0 p
        some (r.modifyCore idx.toNat (parseEight q))
      else some r

def readLines (r : StatRead n) : List (List Char) → StatRead n
  | [] => r
  | line :: rest =>
    match r.readLine line with
    | none => r
    | some r => r.readLines rest

end StatRead

def readStat (n : ℕ) (text : List Char) : StatRead n := StatRead.readLines {} (lines text)

/-! ### Texts that show a snapshot -/

/-- The counters of all cores together and of each core that is listed. -/
structure Snapshot where
  aggregate : CpuSample
  cores : List (UInt64 × CpuSample)
  distinct : (cores.map Prod.fst).Nodup

/-- The counters of core `k`, zero where it is not listed. -/
def Snapshot.core (s : Snapshot) (k : ℕ) : CpuSample :=
  ((s.cores.find? fun c => c.1.toNat = k).map Prod.snd).getD {}

inductive StatLine where
  | aggregate (s : CpuSample)
  | core (id : UInt64) (s : CpuSample)

def Snapshot.lines (s : Snapshot) : List StatLine :=
  .aggregate s.aggregate :: s.cores.map fun c => .core c.1 c.2

/-- Numerals with blanks in front, then anything that does not go on with a digit. -/
inductive Fields : List UInt64 → List Char → Prop
  | done {extra : List Char} (stops : Stops extra) : Fields [] extra
  | field {v : UInt64} {vs : List UInt64} {gap digits text : List Char} (apart : gap ≠ [])
      (blank : ∀ c ∈ gap, isBlank c) (number : Numeral digits v.toNat) (rest : Fields vs text) :
      Fields (v :: vs) (gap ++ digits ++ text)

def CpuSample.fields (s : CpuSample) : List UInt64 :=
  [s.user, s.nice, s.system, s.idle, s.iowait, s.irq, s.softirq, s.steal]

/-- A "cpu " line, or a "cpuK" line, with its eight fields and any others. -/
inductive StatLine.Shows : StatLine → List Char → Prop
  | aggregate {s : CpuSample} {text : List Char} (fields : Fields s.fields (' ' :: text)) :
      Shows (.aggregate s) ('c' :: 'p' :: 'u' :: ' ' :: text)
  | core {id : UInt64} {s : CpuSample} {digits text : List Char} (number : Numeral digits id.toNat)
      (fields : Fields s.fields text) : Shows (.core id s) ('c' :: 'p' :: 'u' :: (digits ++ text))

/-- The lines of the snapshot in any order, and behind them something whose first line does not
start with "cpu". -/
def Snapshot.Renders (s : Snapshot) (text : List Char) : Prop :=
  ∃ entries shown tail, entries.Perm s.lines ∧ List.Forall₂ StatLine.Shows entries shown ∧
    (∀ line ∈ shown, '\n' ∉ line) ∧ (∀ line ∈ (Text.lines tail).head?, ¬ ['c', 'p', 'u'] <+: line) ∧
    text = shown.flatMap (· ++ ['\n']) ++ tail

/-- The text with one blank in front of each field. -/
def StatLine.text : StatLine → List Char
  | .aggregate s => ['c', 'p', 'u'] ++ s.fields.flatMap fun v => ' ' :: Nat.toDigits 10 v.toNat
  | .core id s => ['c', 'p', 'u'] ++ (Nat.toDigits 10 id.toNat ++
      s.fields.flatMap fun v => ' ' :: Nat.toDigits 10 v.toNat)

def Snapshot.text (s : Snapshot) : List Char := (s.lines.map StatLine.text).flatMap (· ++ ['\n'])

theorem fields_flatMap (vs : List UInt64) :
    Fields vs (vs.flatMap fun v => ' ' :: Nat.toDigits 10 v.toNat) := by
  induction vs with
  | nil => exact .done (by simp [Stops])
  | cons v vs ih =>
    show Fields (v :: vs) ([' '] ++ Nat.toDigits 10 v.toNat ++ _)
    exact .field (by simp) (by simp [isBlank]) (numeral_toDigits v.toNat) ih

theorem StatLine.shows_text (e : StatLine) : e.Shows e.text := by
  cases e with
  | aggregate s => exact .aggregate (fields_flatMap s.fields)
  | core id s =>
    show Shows (.core id s) ('c' :: 'p' :: 'u' :: (Nat.toDigits 10 id.toNat ++ _))
    exact .core (numeral_toDigits id.toNat) (fields_flatMap s.fields)

theorem StatLine.newline_not_mem_text (e : StatLine) : '\n' ∉ e.text := by
  cases e with
  | aggregate s => simp [text, newline_not_mem_toDigits]
  | core id s => simp [text, newline_not_mem_toDigits]

/-- Every snapshot is shown by some text. -/
theorem Snapshot.renders_text (s : Snapshot) : s.Renders s.text := by
  refine ⟨s.lines, s.lines.map StatLine.text, [], .refl _, ?_, ?_, ?_, (List.append_nil _).symm⟩
  · exact List.forall₂_map_right_iff.2 (List.forall₂_same.2 fun e _ => e.shows_text)
  · intro line hl
    obtain ⟨e, -, rfl⟩ := List.mem_map.1 hl
    exact e.newline_not_mem_text
  · simp [Text.lines]

/-! ### Reading a line back -/

theorem isDigit_of_isBlank {c : Char} (blank : isBlank c) : c.isDigit = false := by
  rcases Bool.or_eq_true_iff.1 blank with space | tab
  · rw [beq_iff_eq.1 space]
    rfl
  · rw [beq_iff_eq.1 tab]
    rfl

theorem isBlank_of_isDigit {c : Char} (digit : c.isDigit) : isBlank c = false := by
  by_contra blank
  rw [isDigit_of_isBlank (Bool.eq_true_of_not_eq_false blank)] at digit
  exact absurd digit (by decide)

theorem Fields.stops {vs : List UInt64} {text : List Char} (h : Fields vs text) : Stops text := by
  cases h with
  | done stops => exact stops
  | @field v vs gap digits text apart blank number rest =>
    obtain ⟨c, gap, rfl⟩ := List.exists_cons_of_ne_nil apart
    intro d hd
    obtain rfl : c = d := by simpa using hd
    exact isDigit_of_isBlank (blank c List.mem_cons_self)

theorem skipSpaces_append {gap : List Char} (blank : ∀ c ∈ gap, isBlank c) (text : List Char) :
    skipSpaces (gap ++ text) = skipSpaces text :=
  List.dropWhile_append_of_pos blank

theorem Fields.parseU64_eq {v : UInt64} {vs : List UInt64} {p : List Char}
    (h : Fields (v :: vs) p) :
    ∃ text, Fields vs text ∧ ∀ out, parseU64 p out = (v, text) := by
  cases h with
  | @field v vs gap digits text apart blank number rest =>
    refine ⟨text, rest, fun out => ?_⟩
    obtain ⟨c, q, split, digit⟩ := number.head_isDigit text
    have skip : skipSpaces (gap ++ digits ++ text) = c :: q := by
      rw [List.append_assoc, skipSpaces_append blank, split, skipSpaces, List.dropWhile_cons_of_neg]
      simp [isBlank_of_isDigit digit]
    have value := readDigits_numeral number rest.stops
    rw [split, UInt64.ofNat_toNat] at value
    simp only [parseU64, skip, digit, if_true, value]

theorem Fields.parseEight_eq {s : CpuSample} {p : List Char} (h : Fields s.fields p)
    (r : CpuSample) :
    parseEight p r = s := by
  obtain ⟨_, h, user⟩ := h.parseU64_eq
  obtain ⟨_, h, nice⟩ := h.parseU64_eq
  obtain ⟨_, h, system⟩ := h.parseU64_eq
  obtain ⟨_, h, idle⟩ := h.parseU64_eq
  obtain ⟨_, h, iowait⟩ := h.parseU64_eq
  obtain ⟨_, h, irq⟩ := h.parseU64_eq
  obtain ⟨_, h, softirq⟩ := h.parseU64_eq
  obtain ⟨_, h, steal⟩ := h.parseU64_eq
  simp only [parseEight, user, nice, system, idle, iowait, irq, softirq, steal]

namespace StatRead

variable {n : ℕ}

/-- What a line does to the locals. -/
def enter (r : StatRead n) : StatLine → StatRead n
  | .aggregate s => if r.aggregateSeen then r else r.setAggregate s
  | .core id s => r.modifyCore id.toNat fun _ => s

theorem readLine_shows {e : StatLine} {line : List Char} (h : e.Shows line) (r : StatRead n) :
    r.readLine line = some (r.enter e) := by
  cases h with
  | @aggregate s text fields =>
    have value := fields.parseEight_eq r.aggregate
    simp only [readLine, List.take_succ_cons, List.take_zero, List.drop_succ_cons, List.drop_zero,
      if_true, value, enter]
    rw [if_neg (by simp)]
    split <;> rfl
  | @core id s digits text number fields =>
    obtain ⟨c, q, split, digit⟩ := number.head_isDigit text
    have other : c ≠ ' ' := by
      rintro rfl
      exact absurd digit (by decide)
    have value := readDigits_numeral number fields.stops
    rw [split, UInt64.ofNat_toNat] at value
    have eight : parseEight text = fun _ => s := funext fields.parseEight_eq
    simp [readLine, split, other, digit, value, eight, enter]

theorem readLines_shows {entries : List StatLine} {shown : List (List Char)}
    (h : List.Forall₂ StatLine.Shows entries shown) (r : StatRead n) (rest : List (List Char)) :
    r.readLines (shown ++ rest) = (entries.foldl enter r).readLines rest := by
  induction h generalizing r with
  | nil => rfl
  | cons first _ ih =>
    rw [List.cons_append, readLines, readLine_shows first, List.foldl_cons]
    exact ih _

theorem readLines_stops {ls : List (List Char)} (h : ∀ line ∈ ls.head?, ¬ ['c', 'p', 'u'] <+: line)
    (r : StatRead n) : r.readLines ls = r := by
  cases ls with
  | nil => rfl
  | cons line rest =>
    have other : line.take 3 ≠ ['c', 'p', 'u'] := fun start =>
      h line rfl (start ▸ List.take_prefix 3 line)
    rw [readLines, readLine, if_pos (.inr other)]

@[simp] theorem aggregateSeen_modifyCore (r : StatRead n) (idx : ℕ) (f : CpuSample → CpuSample) :
    (r.modifyCore idx f).aggregateSeen = r.aggregateSeen := by
  unfold modifyCore
  split <;> rfl

@[simp] theorem aggregate_modifyCore (r : StatRead n) (idx : ℕ) (f : CpuSample → CpuSample) :
    (r.modifyCore idx f).aggregate = r.aggregate := by
  unfold modifyCore
  split <;> rfl

theorem cores_modifyCore (r : StatRead n) (idx : ℕ) (f : CpuSample → CpuSample) {k : ℕ}
    (hk : k < n) :
    (r.modifyCore idx f).cores[k] = if idx = k then f r.cores[k] else r.cores[k] := by
  unfold modifyCore
  by_cases same : idx = k
  · subst same
    rw [dif_pos hk, if_pos rfl]
    exact Vector.getElem_set_self hk
  · rw [if_neg same]
    split
    · rename_i inside
      exact Vector.getElem_set_ne inside hk same
    · rfl

/-- Without a "cpu " line the aggregate is not seen. -/
theorem aggregateSeen_readLine {r r' : StatRead n} {line : List Char}
    (h : r.readLine line = some r') (other : ¬ ['c', 'p', 'u', ' '] <+: line) :
    r'.aggregateSeen = r.aggregateSeen := by
  unfold readLine at h
  split at h
  · cases h
  · rename_i start
    rw [not_or, not_not] at start
    split at h
    · cases h
      rfl
    · rename_i c text split
      have whole : line = ['c', 'p', 'u'] ++ c :: text := by
        rw [← start.2, ← split, List.take_append_drop]
      have space : c ≠ ' ' := by
        rintro rfl
        exact other ⟨text, whole.symm⟩
      rw [if_neg space] at h
      split at h
      · cases h
        exact aggregateSeen_modifyCore ..
      · cases h
        rfl

theorem aggregateSeen_readLines {ls : List (List Char)}
    (h : ∀ line ∈ ls, ¬ ['c', 'p', 'u', ' '] <+: line) (r : StatRead n) :
    (r.readLines ls).aggregateSeen = r.aggregateSeen := by
  induction ls generalizing r with
  | nil => rfl
  | cons line rest ih =>
    rw [List.forall_mem_cons] at h
    rw [readLines]
    split
    · rfl
    · rename_i r' read
      rw [ih h.2, aggregateSeen_readLine read h.1]

/-! ### What the lines leave -/

theorem aggregateSeen_foldl (entries : List StatLine) (r : StatRead n) :
    (entries.foldl enter r).aggregateSeen ↔ r.aggregateSeen ∨ ∃ s, .aggregate s ∈ entries := by
  induction entries generalizing r with
  | nil => simp
  | cons e entries ih =>
    rw [List.foldl_cons, ih]
    cases e with
    | aggregate s =>
      refine iff_of_true (.inl ?_) (.inr ⟨s, List.mem_cons_self⟩)
      unfold enter
      split_ifs with seen
      · exact seen
      · rfl
    | core id s => simp [enter]

theorem aggregate_foldl {entries : List StatLine} {v : CpuSample}
    (only : ∀ s, .aggregate s ∈ entries → s = v) {r : StatRead n}
    (start : r.aggregateSeen → r.aggregate = v) (seen : (entries.foldl enter r).aggregateSeen) :
    (entries.foldl enter r).aggregate = v := by
  induction entries generalizing r with
  | nil => exact start seen
  | cons e entries ih =>
    refine ih (fun s hs => only s (List.mem_cons_of_mem e hs)) (fun seen => ?_) seen
    cases e with
    | aggregate s =>
      unfold enter at seen ⊢
      split_ifs with before
      · exact start before
      · exact only s List.mem_cons_self
    | core id s =>
      rw [enter, aggregateSeen_modifyCore] at seen
      rw [enter, aggregate_modifyCore]
      exact start seen

section Cores

variable {entries : List StatLine} {k : ℕ} {v : CpuSample}

/-- Lines of core `k` that all say `v` leave `v` in entry `k` if it was there, -/
theorem cores_foldl_of_eq (hk : k < n) (only : ∀ id s, .core id s ∈ entries → id.toNat = k → s = v)
    {r : StatRead n} (start : r.cores[k] = v) : (entries.foldl enter r).cores[k] = v := by
  induction entries generalizing r with
  | nil => exact start
  | cons e entries ih =>
    refine ih (fun id s hs => only id s (List.mem_cons_of_mem e hs)) ?_
    cases e with
    | aggregate s =>
      unfold enter
      split_ifs
      · exact start
      · exact start
    | core id s =>
      rw [enter, cores_modifyCore r _ _ hk]
      split_ifs with same
      · exact only id s List.mem_cons_self same
      · exact start

/-- or if there is such a line. -/
theorem cores_foldl_of_mem (hk : k < n) (only : ∀ id s, .core id s ∈ entries → id.toNat = k → s = v)
    (listed : ∃ id s, .core id s ∈ entries ∧ id.toNat = k) (r : StatRead n) :
    (entries.foldl enter r).cores[k] = v := by
  induction entries generalizing r with
  | nil =>
    obtain ⟨id, s, hs, -⟩ := listed
    cases hs
  | cons e entries ih =>
    have later : ∀ id s, .core id s ∈ entries → id.toNat = k → s = v :=
      fun id s hs => only id s (List.mem_cons_of_mem e hs)
    obtain ⟨id, s, hs, same⟩ := listed
    rcases List.mem_cons.1 hs with rfl | hs
    · refine cores_foldl_of_eq hk later ?_
      rw [enter, cores_modifyCore r _ _ hk, if_pos same]
      exact only id s List.mem_cons_self same
    · exact ih later ⟨id, s, hs, same⟩ _

end Cores

end StatRead

namespace Snapshot

variable {s : Snapshot} {k : ℕ}

theorem core_of_mem {id : UInt64} {c : CpuSample} (h : (id, c) ∈ s.cores) :
    s.core id.toNat = c := by
  have distinct : (s.cores.map fun d => d.1.toNat).Nodup := by
    have ids := s.distinct.map (f := UInt64.toNat) fun _ _ => UInt64.toNat_inj.1
    rwa [List.map_map] at ids
  rw [core, (Keys.find?_eq_some_iff distinct).2 ⟨h, rfl⟩]
  rfl

theorem core_of_not_mem (h : ∀ id c, (id, c) ∈ s.cores → id.toNat ≠ k) : s.core k = {} := by
  rw [core, Keys.find?_eq_none_iff.2 fun d hd => h d.1 d.2 hd]
  rfl

theorem mem_lines_core {id : UInt64} {c : CpuSample} :
    .core id c ∈ s.lines ↔ (id, c) ∈ s.cores := by
  simp [lines]

theorem mem_lines_aggregate {a : CpuSample} : .aggregate a ∈ s.lines ↔ a = s.aggregate := by
  simp [lines]

end Snapshot

/-- A text that shows a snapshot is read back as that snapshot. -/
theorem readStat_renders {n : ℕ} {s : Snapshot} {text : List Char} (h : s.Renders text) :
    (readStat n text).aggregateSeen ∧ (readStat n text).aggregate = s.aggregate ∧
      ∀ k (hk : k < n), (readStat n text).cores[k] = s.core k := by
  obtain ⟨entries, shown, tail, perm, shows, whole, stop, rfl⟩ := h
  have read :
      readStat n (shown.flatMap (· ++ ['\n']) ++ tail) = entries.foldl StatRead.enter {} := by
    rw [readStat, lines_flatMap whole, StatRead.readLines_shows shows,
      StatRead.readLines_stops stop]
  rw [read]
  have seen : (entries.foldl StatRead.enter ({} : StatRead n)).aggregateSeen :=
    (StatRead.aggregateSeen_foldl _ _).2
      (.inr ⟨s.aggregate, perm.mem_iff.2 (Snapshot.mem_lines_aggregate.2 rfl)⟩)
  refine ⟨seen, StatRead.aggregate_foldl ?_ ?_ seen, fun k hk => ?_⟩
  · exact fun a ha => Snapshot.mem_lines_aggregate.1 (perm.mem_iff.1 ha)
  · exact fun seen => absurd seen Bool.false_ne_true
  · have only : ∀ id c, .core id c ∈ entries → id.toNat = k → c = s.core k := by
      rintro id c hc rfl
      exact (Snapshot.core_of_mem (Snapshot.mem_lines_core.1 (perm.mem_iff.1 hc))).symm
    by_cases listed : ∃ id c, .core id c ∈ entries ∧ id.toNat = k
    · exact StatRead.cores_foldl_of_mem hk only listed {}
    · refine StatRead.cores_foldl_of_eq hk only ?_
      have missing : s.core k = {} := Snapshot.core_of_not_mem fun id c hc same =>
        listed ⟨id, c, perm.mem_iff.2 (Snapshot.mem_lines_core.2 hc), same⟩
      rw [missing]
      exact Vector.getElem_replicate hk

end SmoothDemon
