import SmoothDemon.Monitor.ProcessMonitor

/-!
# Lines of /proc/<pid>/stat

`read_stat` looks for the last parenthesis of the line, so the name of a process may hold anything
(`readStat_statLine`) as long as nothing behind it holds another one.  Its guard lets a line through
that ends right after the state, and the `substr` behind it throws on that line and on no other
(`sample_statSafe_iff`).
-/

namespace SmoothDemon.ProcessMonitor

open Text

/-! ### The last parenthesis -/

theorem rfind_eq_none {c : Char} {line : List Char} (absent : c ∉ line) : rfind c line = none := by
  induction line with
  | nil => rfl
  | cons d line ih =>
    rw [List.mem_cons, not_or] at absent
    rw [rfind, ih absent.2]
    exact if_neg (Ne.symm absent.1)

theorem rfind_append {c : Char} {after : List Char} (last : c ∉ after) (before : List Char) :
    rfind c (before ++ c :: after) = some before.length := by
  induction before with
  | nil =>
    rw [List.nil_append, rfind, rfind_eq_none last]
    exact if_pos rfl
  | cons d before ih => rw [List.cons_append, rfind, ih, List.length_cons]

theorem exists_last {c : Char} {line : List Char} (present : c ∈ line) :
    ∃ before after, line = before ++ c :: after ∧ c ∉ after := by
  induction line with
  | nil => exact absurd present List.not_mem_nil
  | cons d line ih =>
    by_cases later : c ∈ line
    · obtain ⟨before, after, rfl, last⟩ := ih later
      exact ⟨d :: before, after, rfl, last⟩
    · obtain rfl : c = d := (List.mem_cons.1 present).resolve_right later
      exact ⟨[], line, rfl, later⟩

/-- The first line of a file that can be opened. -/
def firstLine (file : Option (List Char)) : Option (List Char) :=
  file.bind fun content => (lines content).head?

/-- What `read_stat` reads behind the state: ten fields are skipped, the next two are added. -/
def readTimes (state : Char) (iss : List Char) : Option (Char × UInt64) := do
  let iss ← skipTokens 10 iss
  let (utime, iss) ← extractU64 iss
  let (stime, _) ← extractU64 iss
  return (state, utime + stime)

section Tail

variable {file : Option (List Char)} {line before after : List Char}

theorem readStat_of_unread (h : firstLine file = none) : readStat file = .ok none := by
  rw [firstLine] at h
  simp only [readStat, h]

theorem readStat_of_absent (first : firstLine file = some line) (absent : ')' ∉ line) :
    readStat file = .ok none := by
  rw [firstLine] at first
  simp only [readStat, first, rfind_eq_none absent]

/-- `read_stat` by what stands behind the last parenthesis. -/
theorem readStat_eq (first : firstLine file = some (before ++ ')' :: after)) (last : ')' ∉ after) :
    readStat file =
      match after with
      | [] => .ok none
      | [_] => .ok none
      | [_, _] => .error .outOfRange
      | _ :: state :: _ :: text => .ok (readTimes state text) := by
  have second : (before ++ ')' :: after)[before.length + 2]? = after[1]? := by
    rw [List.getElem?_append_right (by omega), Nat.add_sub_cancel_left]
    rfl
  rw [firstLine] at first
  unfold readStat
  simp only [first, rfind_append last, second]
  match after with
  | [] => rfl
  | [_] => rfl
  | [gap, state] =>
    have cut : substr (before ++ [')', gap, state]) (before.length + 4) = .error .outOfRange := by
      simp [substr]
    simp only [List.getElem?_cons_succ, List.getElem?_cons_zero, cut]
    rfl
  | gap :: state :: sep :: text =>
    have rest : substr (before ++ ')' :: gap :: state :: sep :: text) (before.length + 4) =
        .ok text := by
      rw [substr, if_neg (by simp), List.drop_append]
      simp
    simp only [List.getElem?_cons_succ, List.getElem?_cons_zero, rest]
    rfl

end Tail

/-! ### Lines as the kernel writes them -/

/-- The fields of a line, each with a blank in front. -/
def fieldsText (fields : List (List Char)) : List Char := fields.flatMap (' ' :: ·)

/-- "pid (comm) state" and the fields behind it. -/
def statLine (pid : ℕ) (comm : List Char) (state : Char) (fields : List (List Char)) : List Char :=
  Nat.toDigits 10 pid ++ [' ', '('] ++ comm ++ [')', ' ', state] ++ fieldsText fields

def timeField (ticks : UInt64) : List Char := Nat.toDigits 10 ticks.toNat

/-- A field without white space. -/
structure IsToken (field : List Char) : Prop where
  nonempty : field ≠ []
  dense : ∀ c ∈ field, isSpace c = false

/-- The text ends, or goes on with white space. -/
def Ends (text : List Char) : Prop := ∀ c ∈ text.head?, isSpace c

theorem ends_fieldsText (fields : List (List Char)) : Ends (fieldsText fields) := by
  cases fields with
  | nil => simp [Ends, fieldsText]
  | cons field fields => simp [Ends, fieldsText, isSpace]

theorem Ends.stops {text : List Char} (h : Ends text) : Stops text := by
  intro c hc
  by_contra digit
  rw [Bool.not_eq_false] at digit
  exact absurd (h c hc) (by simp [isSpace_of_isDigit digit])

theorem skipToken_field {field rest : List Char} (token : IsToken field) (ends : Ends rest) :
    skipToken (' ' :: (field ++ rest)) = some rest := by
  obtain ⟨c, field, rfl⟩ := List.exists_cons_of_ne_nil token.nonempty
  have start : (' ' :: (c :: field ++ rest)).dropWhile isSpace = c :: field ++ rest := by
    rw [List.dropWhile_cons_of_pos (by decide)]
    exact List.dropWhile_cons_of_neg (by simp [token.dense c List.mem_cons_self])
  have finish : rest.dropWhile (fun c => !isSpace c) = rest := by
    cases rest with
    | nil => rfl
    | cons d rest => exact List.dropWhile_cons_of_neg (by simp [ends d rfl])
  have skipped : (c :: field ++ rest).dropWhile (fun c => !isSpace c) = rest := by
    rw [List.dropWhile_append_of_pos (by simpa using token.dense), finish]
  rw [skipToken, start, if_neg (by simp), skipped]

theorem skipTokens_fields {tokens : List (List Char)} (all : ∀ t ∈ tokens, IsToken t)
    (fields : List (List Char)) : skipTokens tokens.length (fieldsText (tokens ++ fields)) =
      some (fieldsText fields) := by
  induction tokens with
  | nil => rfl
  | cons token tokens ih =>
    rw [List.forall_mem_cons] at all
    have first : skipToken (fieldsText (token :: (tokens ++ fields))) =
        some (fieldsText (tokens ++ fields)) :=
      skipToken_field all.1 (ends_fieldsText _)
    rw [List.cons_append, List.length_cons, skipTokens, first, Option.bind_some, ih all.2]

theorem extractU64_timeField (ticks : UInt64) (fields : List (List Char)) :
    extractU64 (fieldsText (timeField ticks :: fields)) = some (ticks, fieldsText fields) := by
  have scanned : scanInteger (fieldsText (timeField ticks :: fields)) =
      some (false, ticks.toNat, fieldsText fields) :=
    scanInteger_append (by simp [isSpace] : ∀ c ∈ [' '], isSpace c) (numeral_toDigits _)
      (ends_fieldsText _).stops
  simp [extractU64, scanned, ticks.toNat_lt]

theorem readTimes_fields (state : Char) {tokens : List (List Char)} (ten : tokens.length = 10)
    (all : ∀ t ∈ tokens, IsToken t) (utime stime : UInt64) (further : List (List Char)) :
    readTimes state (fieldsText (tokens ++ timeField utime :: timeField stime :: further)) =
      some (state, utime + stime) := by
  have skipped := skipTokens_fields all (timeField utime :: timeField stime :: further)
  rw [ten] at skipped
  simp [readTimes, skipped, extractU64_timeField]

theorem skipTokens_blank (k : ℕ) (iss : List Char) :
    skipTokens (k + 1) (' ' :: iss) = skipTokens (k + 1) iss := by
  rw [skipTokens, skipTokens, skipToken, List.dropWhile_cons_of_pos (by decide), ← skipToken]

/-- A character that stands in no field stands in the text of the fields only if it is the blank. -/
theorem not_mem_fieldsText {c : Char} (other : c ≠ ' ') {fields : List (List Char)}
    (absent : ∀ f ∈ fields, c ∉ f) : c ∉ fieldsText fields := by
  simpa [fieldsText, other] using absent

theorem not_mem_timeField {c : Char} (other : c.isDigit = false) (ticks : UInt64) :
    c ∉ timeField ticks := by
  intro mem
  have digit := (numeral_toDigits ticks.toNat).digits c mem
  rw [other] at digit
  cases digit

/-- Whatever the name of the process imitates: the state and the sum of the two times are read back,
if the fields behind the name hold no parenthesis. -/
theorem readStat_statLine (pid : ℕ) {comm : List Char} (whole : '\n' ∉ comm) {state : Char}
    (shown : state ≠ ')' ∧ state ≠ '\n') {tokens : List (List Char)} (ten : tokens.length = 10)
    (dense : ∀ t ∈ tokens, IsToken t ∧ ')' ∉ t) (utime stime : UInt64)
    {further : List (List Char)} (plain : ∀ f ∈ further, ')' ∉ f ∧ '\n' ∉ f) {rest : List Char}
    (ends : ∀ c ∈ rest.head?, c = '\n') :
    readStat (some (statLine pid comm state
      (tokens ++ timeField utime :: timeField stime :: further) ++ rest)) =
        .ok (some (state, utime + stime)) := by
  set fields := tokens ++ timeField utime :: timeField stime :: further with split
  have times := readTimes_fields state ten (fun t ht => (dense t ht).1) utime stime further
  rw [← split] at times
  have parenless : ')' ∉ fieldsText fields := by
    refine not_mem_fieldsText (by decide) ?_
    simp only [split, List.forall_mem_append, List.forall_mem_cons]
    exact ⟨fun t ht => (dense t ht).2, not_mem_timeField rfl _, not_mem_timeField rfl _,
      fun f hf => (plain f hf).1⟩
  have newlineless : '\n' ∉ fieldsText fields := by
    refine not_mem_fieldsText (by decide) ?_
    simp only [split, List.forall_mem_append, List.forall_mem_cons]
    refine ⟨fun t ht newline => ?_, not_mem_timeField rfl _, not_mem_timeField rfl _,
      fun f hf => (plain f hf).2⟩
    exact absurd ((dense t ht).1.dense _ newline) (by decide)
  obtain ⟨text, first⟩ : ∃ text, fieldsText fields = ' ' :: text := by
    cases tokens with
    | nil => cases ten
    | cons t tokens => exact ⟨_, rfl⟩
  have line : firstLine (some (statLine pid comm state fields ++ rest)) =
      some (Nat.toDigits 10 pid ++ [' ', '('] ++ comm ++ ')' :: ' ' :: state :: ' ' :: text) := by
    have pidless : '\n' ∉ Nat.toDigits 10 pid := fun newline =>
      absurd ((numeral_toDigits pid).digits _ newline) (by decide)
    rw [firstLine, Option.bind_some, head?_lines (by simp [statLine]) ?_ ends]
    · simp [statLine, first]
    · simp [statLine, pidless, whole, newlineless, Ne.symm shown.2]
  rw [first] at parenless times
  rw [readStat_eq line (by simpa [Ne.symm shown.1] using parenless)]
  simpa only [readTimes, skipTokens_blank] using congrArg Except.ok times

section Example

/-- Ten fields of a real line. -/
def tenFields : List (List Char) :=
  ["1", "1", "1", "0", "-1", "4", "0", "0", "0", "0"].map (·.toList)

theorem isToken_of_mem_tenFields : ∀ t ∈ tenFields, IsToken t ∧ ')' ∉ t := by
  intro t ht
  obtain ⟨nonempty, dense, parenless⟩ : t ≠ [] ∧ t.any isSpace = false ∧ ')' ∉ t := by
    revert t
    decide
  exact ⟨⟨nonempty, by simpa using dense⟩, parenless⟩

/-- A name that goes on like a line. -/
theorem readStat_statLine_forged :
    readStat (some (statLine 12 ") S 1 1 (x".toList 'R'
      (tenFields ++ timeField 500 :: timeField 100 :: ["20".toList]) ++ ['\n'])) =
        .ok (some ('R', 500 + 100)) :=
  readStat_statLine 12 (by decide) (by decide) rfl isToken_of_mem_tenFields 500 100 (by decide)
    (by simp)

/-- A parenthesis in the fourth field. -/
theorem not_readStat_statLine : ¬ ∀ (pid : ℕ) (comm : List Char) (state : Char)
    (tokens : List (List Char)) (utime stime : UInt64), '\n' ∉ comm → state ≠ '\n' →
    tokens.length = 10 → (∀ t ∈ tokens, IsToken t) →
    readStat (some (statLine pid comm state (tokens ++ [timeField utime, timeField stime]) ++
      ['\n'])) = .ok (some (state, utime + stime)) := by
  intro claim
  have tokens : ∀ t ∈ [')'] :: tenFields.tail, IsToken t := by
    rw [List.forall_mem_cons]
    refine ⟨⟨by simp, by simp [isSpace]⟩, fun t ht => ?_⟩
    exact (isToken_of_mem_tenFields t (List.mem_of_mem_tail ht)).1
  have read := claim 12 "x".toList 'S' ([')'] :: tenFields.tail) 500 100 (by decide) (by decide)
    rfl tokens
  exact absurd read (by decide +kernel)

end Example

/-! ### Truncated lines -/

/-- The line ends right after the state, with no further parenthesis. -/
def CutAfterState (line : List Char) : Prop :=
  ∃ before gap state, line = before ++ [')', gap, state] ∧ gap ≠ ')' ∧ state ≠ ')'

theorem readStat_fault_iff {file : Option (List Char)} {fault : Fault} :
    readStat file = .error fault ↔ ∃ line ∈ firstLine file, CutAfterState line := by
  obtain ⟨⟩ := fault
  cases first : firstLine file with
  | none => simp [readStat_of_unread first]
  | some line =>
    by_cases paren : ')' ∈ line
    · obtain ⟨before, after, rfl, last⟩ := exists_last paren
      have cut : CutAfterState (before ++ ')' :: after) ↔ after.length = 2 := by
        constructor
        · rintro ⟨before', gap, state, split, gap_ne, state_ne⟩
          have pos := congrArg (rfind ')') split
          have last' : ')' ∉ [gap, state] := by simp [Ne.symm gap_ne, Ne.symm state_ne]
          rw [rfind_append last, rfind_append last', Option.some.injEq] at pos
          have lengths := congrArg List.length split
          simp at lengths
          omega
        · intro two
          obtain ⟨gap, state, rfl⟩ := List.length_eq_two.1 two
          rw [List.mem_cons, List.mem_singleton, not_or] at last
          exact ⟨before, gap, state, rfl, Ne.symm last.1, Ne.symm last.2⟩
      simp only [Option.mem_some_iff, exists_eq_left', cut, readStat_eq first last]
      match after with
      | [] => simp
      | [_] => simp
      | [_, _] => simp
      | _ :: _ :: _ :: _ => simp
    · have whole : ¬ CutAfterState line := by
        rintro ⟨before, gap, state, rfl, -⟩
        exact paren (by simp)
      simp [readStat_of_absent first paren, whole]

/-- What `read_stat` gets to read for the pid of the monitor. -/
def statFile (m : ProcessMonitor) (proc : Procfs) : Option (List Char) :=
  (proc.process? m.cachedPid).bind Process.stat

/-- The call returns; and where `read_stat` returns false it reports that nothing runs and resets
the monitor. -/
structure StatSafe (m : ProcessMonitor) (proc : Procfs) (own now : ℤ) : Prop where
  returns : ∀ fault, (m.sample proc own now).2 ≠ .error fault
  stops : ∀ m₁ ∈ m.locate proc own, readStat (m₁.statFile proc) = .ok none →
    m.sample proc own now = (m.reset, .ok (false, { isRunning := false }))

theorem reset_of_locate {m m₁ : ProcessMonitor} {proc : Procfs} {self : ℤ}
    (h : m.locate proc self = some m₁) : m₁.reset = m.reset := by
  unfold locate at h
  split_ifs at h
  · obtain ⟨pid, -, rfl⟩ := Option.map_eq_some_iff.1 h
    rfl
  · rw [Option.some.inj h]

/-- The only lines that `read_stat` cannot handle are those that end right after the state. -/
theorem sample_statSafe_iff (m : ProcessMonitor) (proc : Procfs) (self now : ℤ) :
    StatSafe m proc self now ↔ ∀ m₁ ∈ m.locate proc self,
      ∀ line ∈ firstLine (m₁.statFile proc), ¬ CutAfterState line := by
  have stops : ∀ m₁ ∈ m.locate proc self, readStat (m₁.statFile proc) = .ok none →
      m.sample proc self now = (m.reset, .ok (false, { isRunning := false })) := by
    intro m₁ located read
    rw [Option.mem_def] at located
    rw [statFile] at read
    simp only [sample, located, read, reset_of_locate located]
  have faults : (∃ fault, (m.sample proc self now).2 = .error fault) ↔
      ∃ m₁ ∈ m.locate proc self, ∃ fault, readStat (m₁.statFile proc) = .error fault := by
    cases located : m.locate proc self with
    | none => simp [sample, located]
    | some m₁ =>
      simp only [sample, located, Option.mem_some_iff, exists_eq_left', statFile]
      rcases readStat ((proc.process? m₁.cachedPid).bind Process.stat) with fault | _ | ⟨_, _⟩ <;>
        simp
  simp only [readStat_fault_iff] at faults
  constructor
  · rintro ⟨returns, -⟩ m₁ located line shown cut
    obtain ⟨fault, thrown⟩ := faults.2 ⟨m₁, located, .outOfRange, line, shown, cut⟩
    exact returns fault thrown
  · intro whole
    refine ⟨fun fault thrown => ?_, stops⟩
    obtain ⟨m₁, located, -, line, shown, cut⟩ := faults.1 ⟨fault, thrown⟩
    exact whole m₁ located line shown cut

/-- A line cut right after the state. -/
theorem not_statSafe : ¬ ∀ (m : ProcessMonitor) (proc : Procfs) (self now : ℤ),
    StatSafe m proc self now := by
  intro claim
  have safe := claim { targetName := "ryujinx".toList }
    (.single (.twelve 0 "ryujinx" [] (some "12 (ryujinx) S"))) 1 0
  exact absurd (safe.returns .outOfRange) (by decide +kernel)

end SmoothDemon.ProcessMonitor
