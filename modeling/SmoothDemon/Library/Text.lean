import Mathlib.Data.UInt
import Mathlib.Data.List.Forall2
import Mathlib.Data.List.TakeWhile

/-!
# Lines and numbers in a text

A text is a list of characters.  `lines` cuts it the way `getline` does: a line ends before a
newline or with the text.  `readDigits` is the usual loop that reads a decimal number into a 64-bit
word and stops in front of the first other character; on a numeral of a 64-bit value it reads that
value (`readDigits_numeral`).  `scanInteger` is what the C library and the streams read of an
integer, before either of them deals with a value that does not fit.
-/

namespace Text

/-! ### Lines -/

def lines : List Char → List (List Char)
  | [] => []
  | c :: text =>
    if c = '\n' then [] :: lines text
    else
      match lines text with
      | [] => [[c]]
      | line :: rest => (c :: line) :: rest

theorem lines_append {line : List Char} (whole : '\n' ∉ line) (rest : List Char) :
    lines (line ++ '\n' :: rest) = line :: lines rest := by
  induction line with
  | nil => simp [lines]
  | cons c line ih =>
    rw [List.mem_cons, not_or] at whole
    simp [lines, Ne.symm whole.1, ih whole.2]

theorem lines_flatMap {ls : List (List Char)} (whole : ∀ line ∈ ls, '\n' ∉ line)
    (rest : List Char) :
    lines (ls.flatMap (· ++ ['\n']) ++ rest) = ls ++ lines rest := by
  induction ls with
  | nil => rfl
  | cons line ls ih =>
    rw [List.forall_mem_cons] at whole
    rw [List.flatMap_cons, List.append_assoc, List.append_assoc, List.singleton_append,
      lines_append whole.1, ih whole.2, List.cons_append]

/-- The first line ends before a newline or with the text. -/
theorem head?_lines {line rest : List Char} (nonempty : line ≠ []) (whole : '\n' ∉ line)
    (ends : ∀ c ∈ rest.head?, c = '\n') : (lines (line ++ rest)).head? = some line := by
  cases rest with
  | cons c rest =>
    obtain rfl : c = '\n' := ends c rfl
    rw [lines_append whole]
    rfl
  | nil =>
    rw [List.append_nil]
    induction line with
    | nil => exact absurd rfl nonempty
    | cons c line ih =>
      rw [List.mem_cons, not_or] at whole
      rw [lines, if_neg (Ne.symm whole.1)]
      cases line with
      | nil => rfl
      | cons d line =>
        have later := ih (by simp) whole.2
        cases split : lines (d :: line) with
        | nil =>
          rw [split] at later
          cases later
        | cons first others =>
          rw [split] at later
          obtain rfl : first = d :: line := Option.some.inj later
          rfl

/-! ### Keys -/

/-- Of two keys, neither of which is a prefix of the other, a line starts with at most one. -/
theorem not_start_of_start {key other line : List Char} (start : key <+: line)
    (apart : ¬ key <+: other ∧ ¬ other <+: key) : ¬ other <+: line := fun start' =>
  (List.prefix_or_prefix_of_prefix start start').elim apart.1 apart.2

/-- The part in front of the first separator is told apart from the rest. -/
theorem append_separator_inj {c : Char} {v w d e : List Char} (hv : c ∉ v) (hw : c ∉ w)
    (h : v ++ c :: d = w ++ c :: e) : v = w ∧ d = e := by
  induction v generalizing w with
  | nil =>
    cases w with
    | nil => exact ⟨rfl, (List.cons.inj h).2⟩
    | cons b w =>
      obtain rfl := (List.cons.inj h).1
      exact absurd List.mem_cons_self hw
  | cons a v ih =>
    cases w with
    | nil =>
      obtain rfl := (List.cons.inj h).1
      exact absurd List.mem_cons_self hv
    | cons b w =>
      obtain ⟨rfl, rest⟩ := List.cons.inj h
      rw [List.mem_cons, not_or] at hv hw
      obtain ⟨rfl, rfl⟩ := ih hv.2 hw.2 rest
      exact ⟨rfl, rfl⟩

/-! ### Numbers -/

/-- `while` there is a digit, `v = v * 10 + digit`. -/
def readDigits (v : UInt64) : List Char → UInt64 × List Char
  | [] => (v, [])
  | c :: text =>
    if c.isDigit then readDigits (v * 10 + UInt64.ofNat (c.toNat - '0'.toNat)) text
    else (v, c :: text)

/-- No digit stands at the front. -/
def Stops (text : List Char) : Prop := ∀ c ∈ text.head?, c.isDigit = false

/-- `ds` is a decimal numeral of `n`. -/
structure Numeral (ds : List Char) (n : ℕ) : Prop where
  nonempty : ds ≠ []
  digits : ∀ c ∈ ds, c.isDigit
  value : Nat.ofDigitChars 10 ds 0 = n

theorem numeral_toDigits (n : ℕ) : Numeral (Nat.toDigits 10 n) n :=
  ⟨Nat.toDigits_ne_nil, fun _ hc => Nat.isDigit_of_mem_toDigits (by decide) (by decide) hc,
    Nat.ofDigitChars_ten_toDigits⟩

theorem toDigits_inj {n n' : ℕ} (same : Nat.toDigits 10 n = Nat.toDigits 10 n') : n = n' := by
  rw [← (numeral_toDigits n).value, same, (numeral_toDigits n').value]

theorem newline_not_mem_toDigits (n : ℕ) : '\n' ∉ Nat.toDigits 10 n := by
  intro h
  exact absurd (Nat.isDigit_of_mem_toDigits (by decide) (by decide) h) (by decide)

theorem readDigits_append {ds rest : List Char} (digits : ∀ c ∈ ds, c.isDigit) (stops : Stops rest)
    (v : ℕ) : readDigits (UInt64.ofNat v) (ds ++ rest) =
      (UInt64.ofNat (Nat.ofDigitChars 10 ds v), rest) := by
  induction ds generalizing v with
  | nil =>
    cases rest with
    | nil => rfl
    | cons c rest =>
      have other : c.isDigit = false := stops c rfl
      simp [readDigits, other]
  | cons c ds ih =>
    rw [List.forall_mem_cons] at digits
    rw [List.cons_append, readDigits, if_pos digits.1, Nat.ofDigitChars_cons, ← ih digits.2]
    congr 1
    rw [UInt64.ofNat_add, UInt64.ofNat_mul, UInt64.mul_comm]
    rfl

theorem readDigits_numeral {ds rest : List Char} {n : ℕ} (h : Numeral ds n) (stops : Stops rest) :
    readDigits 0 (ds ++ rest) = (UInt64.ofNat n, rest) := by
  rw [← h.value]
  exact readDigits_append h.digits stops 0

theorem Numeral.head_isDigit {ds : List Char} {n : ℕ} (h : Numeral ds n) (rest : List Char) :
    ∃ c text, ds ++ rest = c :: text ∧ c.isDigit := by
  cases ds with
  | nil => exact absurd rfl h.nonempty
  | cons c ds => exact ⟨c, ds ++ rest, rfl, h.digits c List.mem_cons_self⟩

/-! ### The library's numbers -/

/-- `isspace`. -/
def isSpace (c : Char) : Bool :=
  c == ' ' || ('\t'.toNat ≤ c.toNat && c.toNat ≤ '\r'.toNat)

/-- Whether a minus stands in front, and the text behind the sign. -/
def readSign : List Char → Bool × List Char
  | '-' :: text => (true, text)
  | '+' :: text => (false, text)
  | text => (false, text)

/-- Space, a sign and digits: whether the sign is a minus, the value of the digits and the text
behind them. -/
def scanInteger (text : List Char) : Option (Bool × ℕ × List Char) :=
  let (minus, number) := readSign (text.dropWhile isSpace)
  let digits := number.takeWhile Char.isDigit
  if digits = [] then none
  else some (minus, Nat.ofDigitChars 10 digits 0, number.dropWhile Char.isDigit)

/-- Base 10; saturates, and is 0 where there is no number. -/
def strtol (text : List Char) : ℤ :=
  match scanInteger text with
  | none => 0
  | some (minus, value, _) =>
    if minus then -(min value (2 ^ 63) : ℕ) else (min value (2 ^ 63 - 1) : ℕ)

/-- `strtol`, converted to an `int`. -/
def atoi (text : List Char) : ℤ := (strtol text).bmod (2 ^ 32)

/-- Throws, here `none`, where there is no number or it is no `int`. -/
def stoi (text : List Char) : Option ℤ :=
  (scanInteger text).bind fun (minus, value, _) =>
    let v : ℤ := if minus then -value else value
    if -2 ^ 31 ≤ v ∧ v < 2 ^ 31 then some v else none

/-- `%llu`: a value that does not fit becomes the largest that does, and one behind a minus is
negated. -/
def scanU64 (text : List Char) : Option UInt64 :=
  (scanInteger text).map fun (minus, value, _) =>
    if value < 2 ^ 64 then (if minus then -UInt64.ofNat value else UInt64.ofNat value) else -1

theorem isSpace_of_isDigit {c : Char} (digit : c.isDigit) : isSpace c = false := by
  have above : 48 ≤ c.toNat := (Char.isDigit_iff_toNat.1 digit).1
  have other : c ≠ ' ' := by
    rintro rfl
    exact absurd digit (by decide)
  have below : ¬ c.toNat ≤ 13 := by omega
  simp [isSpace, other, below]

theorem readSign_of_isDigit {c : Char} (digit : c.isDigit) (text : List Char) :
    readSign (c :: text) = (false, c :: text) := by
  unfold readSign
  split
  · rename_i minus
    obtain rfl := (List.cons.inj minus).1
    exact absurd digit (by decide)
  · rename_i plus
    obtain rfl := (List.cons.inj plus).1
    exact absurd digit (by decide)
  · rfl

theorem takeWhile_isDigit {ds rest : List Char} (digits : ∀ c ∈ ds, c.isDigit)
    (stops : Stops rest) :
    (ds ++ rest).takeWhile Char.isDigit = ds ∧ (ds ++ rest).dropWhile Char.isDigit = rest := by
  rw [List.takeWhile_append_of_pos digits, List.dropWhile_append_of_pos digits]
  cases rest with
  | nil => simp
  | cons c rest =>
    have other : ¬ c.isDigit := by simpa using stops c rfl
    rw [List.takeWhile_cons_of_neg other, List.dropWhile_cons_of_neg other, List.append_nil]
    exact ⟨rfl, rfl⟩

/-- A numeral with space in front. -/
theorem scanInteger_append {gap ds rest : List Char} {n : ℕ} (blank : ∀ c ∈ gap, isSpace c)
    (h : Numeral ds n) (stops : Stops rest) :
    scanInteger (gap ++ (ds ++ rest)) = some (false, n, rest) := by
  obtain ⟨nonempty, digits, rfl⟩ := h
  obtain ⟨taken, dropped⟩ := takeWhile_isDigit digits stops
  obtain ⟨c, ds, rfl⟩ := List.exists_cons_of_ne_nil nonempty
  have first : c.isDigit := digits c List.mem_cons_self
  have start : (gap ++ (c :: ds ++ rest)).dropWhile isSpace = c :: ds ++ rest := by
    rw [List.dropWhile_append_of_pos blank]
    exact List.dropWhile_cons_of_neg (by simp [isSpace_of_isDigit first])
  have sign : readSign (c :: ds ++ rest) = (false, c :: ds ++ rest) := readSign_of_isDigit first _
  simp only [scanInteger, start, sign, taken, dropped, reduceCtorEq, if_false]

theorem scanInteger_numeral {ds : List Char} {n : ℕ} (h : Numeral ds n) :
    scanInteger ds = some (false, n, []) := by
  have stops : Stops [] := by simp [Stops]
  simpa using scanInteger_append (List.forall_mem_nil _) h stops

theorem scanU64_append {gap ds rest : List Char} {v : UInt64} (blank : ∀ c ∈ gap, isSpace c)
    (h : Numeral ds v.toNat) (stops : Stops rest) : scanU64 (gap ++ (ds ++ rest)) = some v := by
  rw [scanU64, scanInteger_append blank h stops]
  simp [v.toNat_lt]

theorem strtol_numeral {ds : List Char} {n : ℕ} (h : Numeral ds n) (fits : n < 2 ^ 63) :
    strtol ds = n := by
  rw [strtol, scanInteger_numeral h]
  simp only [Bool.false_eq_true, if_false]
  omega

theorem atoi_numeral {ds : List Char} {n : ℕ} (h : Numeral ds n) (fits : n < 2 ^ 31) :
    atoi ds = n := by
  rw [atoi, strtol_numeral h (by omega)]
  exact Int.bmod_eq_of_le (by omega) (by omega)

end Text
