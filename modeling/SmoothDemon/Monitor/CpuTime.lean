import Mathlib.Algebra.Order.Field.Basic
import Mathlib.Tactic.FieldSimp
import Mathlib.Tactic.Ring
import SmoothDemon.Monitor.ProcessRuns

/-!
# CPU time accounted for

Any sequence of calls to the process monitor.  A call that returns false, or `reset`, ends what was
measured before.  From there on each reported percentage is the tick difference to the baseline in
force, which is a reading made since (`Accounts`); so over a stretch of successful samples the
percentages times the time they cover add up to the ticks between its first reading and its last
baseline (`stretch_accounted`).
-/

namespace SmoothDemon.ProcessMonitor

inductive Call where
  | sample (proc : Procfs) (now : ℤ)
  | reset

/-- A sample that returned true: the pid, the time, the ticks read and the value reported. -/
structure Reading where
  pid : ℤ
  now : ℤ
  ticks : UInt64
  cpuPercent : ℚ
  deriving DecidableEq

namespace Reading

/-- Seconds since the baseline `base`. -/
def since (base r : Reading) : ℚ := (r.now - base.now : ℤ) / 10 ^ 9

/-- The baseline in force after `r`: a reading at most 1 ms after it leaves it alone. -/
def rebase (base r : Reading) : Reading := if 1 / 1000 < since base r then r else base

/-- The value due for `r` against the baseline `base`. -/
def share (clkTck : ℕ) (base r : Reading) : ℚ :=
  if 1 / 1000 < since base r then (r.ticks - base.ticks).toNat / clkTck / since base r * 100 else 0

/-- Every reading of `rs` reports the difference to the baseline in force. -/
def Accounts (clkTck : ℕ) : Reading → List Reading → Prop
  | _, [] => True
  | base, r :: rs =>
    r.pid = base.pid ∧ r.cpuPercent = share clkTck base r ∧ Accounts clkTck (rebase base r) rs

/-- The percentages times the time since the baseline in force, added up. -/
def total : Reading → List Reading → ℚ
  | _, [] => 0
  | base, r :: rs => r.cpuPercent * since base r + total (rebase base r) rs

end Reading

variable (own : ℤ)

def call (m : ProcessMonitor) : Call → ProcessMonitor
  | .sample proc now => (m.sample proc own now).1
  | .reset => m.reset

def calls (m : ProcessMonitor) (cs : List Call) : ProcessMonitor := cs.foldl (call own) m

/-- The reading of a call that returns true. -/
def reading? (m : ProcessMonitor) : Call → Option Reading
  | .sample proc now =>
    match (m.sample proc own now).2 with
    | .ok (true, metrics) =>
      ((proc.process? metrics.pid).bind Process.ticks?).map fun ticks =>
        { pid := metrics.pid, now, ticks, cpuPercent := metrics.cpuPercent }
    | _ => none
  | .reset => none

def readings (m : ProcessMonitor) : List Call → List Reading
  | [] => []
  | c :: cs => (reading? own m c).toList ++ readings (call own m c) cs

/-- A reset, or a sample that returns false.  A sample that throws does neither. -/
def Breaks (m : ProcessMonitor) : Call → Prop
  | .sample proc now => ∃ metrics, (m.sample proc own now).2 = .ok (false, metrics)
  | .reset => True

def Unbroken (m : ProcessMonitor) : List Call → Prop
  | [] => True
  | c :: cs => ¬ Breaks own m c ∧ Unbroken (call own m c) cs

/-! ### What a call does to the baseline -/

variable {own} {m m₁ : ProcessMonitor} {proc : Procfs} {c : Call} {base : Reading}

theorem pos_of_search {target : List Char} {names : List (List Char)} {pid : ℤ}
    (h : search proc own target names = some pid) : 0 < pid := by
  induction names with
  | nil => cases h
  | cons name names ih =>
    simp only [search] at h
    split_ifs at h with skipped inComm inCmdline
    · exact ih h
    · cases h
      exact not_le.1 fun low => skipped (.inr (.inl low))
    · cases h
      exact not_le.1 fun low => skipped (.inr (.inl low))
    · exact ih h

theorem pos_of_locate (h : m.locate proc own = some m₁) : 0 < m₁.cachedPid := by
  unfold locate at h
  split_ifs at h with uncached
  · obtain ⟨pid, found, rfl⟩ := Option.map_eq_some_iff.1 h
    exact pos_of_search found
  · obtain rfl := Option.some.inj h
    exact not_le.1 uncached

theorem clkTck_measure (ticks : UInt64) (now : ℤ) : (m.measure ticks now).1.clkTck = m.clkTck := by
  unfold measure
  split_ifs <;> rfl

theorem clkTck_locate (h : m.locate proc own = some m₁) : m₁.clkTck = m.clkTck := by
  unfold locate at h
  split_ifs at h
  · obtain ⟨pid, -, rfl⟩ := Option.map_eq_some_iff.1 h
    rfl
  · rw [Option.some.inj h]

theorem clkTck_call (m : ProcessMonitor) (c : Call) : (call own m c).clkTck = m.clkTck := by
  cases c with
  | reset => rfl
  | sample proc now =>
    rw [call]
    cases eq : m.sample proc own now with
    | mk m' result =>
      have done := m.sampled proc own now
      rw [eq] at done
      cases done with
      | absent => rfl
      | unread m₁ located => exact (clkTck_locate located : m₁.clkTck = m.clkTck)
      | fault _ _ located => exact clkTck_locate located
      | read m₁ state ticks located =>
        exact (clkTck_measure ticks now).trans (clkTck_locate located)

/-- Nothing has been measured since the last break. -/
def Unmeasured (m : ProcessMonitor) : Prop := m.cachedPid ≤ 0 ∨ m.firstSample = true

/-- The monitor has `base` for its baseline. -/
structure Holds (m : ProcessMonitor) (base : Reading) : Prop where
  cached : m.cachedPid = base.pid
  positive : 0 < base.pid
  measured : m.firstSample = false
  ticks : m.prevTicks = base.ticks
  time : m.prevTime = base.now

theorem cachedPid_of_breaks (h : Breaks own m c) : (call own m c).cachedPid ≤ 0 := by
  cases c with
  | reset => exact (by decide : (-1 : ℤ) ≤ 0)
  | sample proc now =>
    obtain ⟨metrics, failed⟩ := h
    rw [call]
    cases eq : m.sample proc own now with
    | mk m' result =>
      have done := m.sampled proc own now
      rw [eq] at done failed
      cases done with
      | absent missing =>
        unfold locate at missing
        split_ifs at missing with uncached
        exact uncached
      | unread => exact (by decide : (-1 : ℤ) ≤ 0)
      | fault => cases failed
      | read => cases failed

/-- A call that does not break: it threw and left the monitor as it was located, or it has read. -/
theorem unbroken_cases (h : ¬ Breaks own m c) :
    ∃ proc now m₁, c = .sample proc now ∧ m.locate proc own = some m₁ ∧
      (reading? own m c = none ∧ call own m c = m₁ ∨
        ∃ ticks, call own m c = (m₁.measure ticks now).1 ∧
          reading? own m c = some ⟨m₁.cachedPid, now, ticks, (m₁.measure ticks now).2⟩) := by
  cases c with
  | reset => exact absurd trivial h
  | sample proc now =>
    rw [Breaks, not_exists] at h
    simp only [call, reading?]
    cases eq : m.sample proc own now with
    | mk m' result =>
      have done := m.sampled proc own now
      rw [eq] at done h
      cases done with
      | absent => exact absurd rfl (h _)
      | unread => exact absurd rfl (h _)
      | fault _ fault located => exact ⟨proc, now, m', rfl, located, .inl ⟨rfl, rfl⟩⟩
      | read m₁ state ticks located read =>
        refine ⟨proc, now, m₁, rfl, located, .inr ⟨ticks, rfl, ?_⟩⟩
        obtain ⟨p, found⟩ := Watch.exists_process read
        rw [found] at read
        have shown : p.ticks? = some ticks := Watch.ticks?_of_readStat read
        simp only [describe, Watch.cachedPid_measure, found, Option.bind_some, shown,
          Option.map_some]

theorem measure_of_first (first : m.firstSample = true) (ticks : UInt64) (now : ℤ) :
    m.measure ticks now =
      ({ m with prevTicks := ticks, prevTime := now, firstSample := false }, 0) :=
  if_pos first

/-- The first reading after a break reports nothing and becomes the baseline. -/
theorem first_step (h : Unmeasured m) (unbroken : ¬ Breaks own m c) :
    (reading? own m c = none ∧ Unmeasured (call own m c)) ∨
      ∃ r, reading? own m c = some r ∧ r.cpuPercent = 0 ∧ Holds (call own m c) r := by
  obtain ⟨proc, now, m₁, rfl, located, cases⟩ := unbroken_cases unbroken
  have first : m₁.firstSample = true := by
    rcases Watch.locate_cases located with ⟨-, first⟩ | ⟨cached, rfl⟩
    · exact first
    · exact h.resolve_left (not_le.2 cached)
  rcases cases with ⟨threw, eq⟩ | ⟨ticks, eq, read⟩
  · exact .inl ⟨threw, eq ▸ .inr first⟩
  · rw [measure_of_first first] at eq read
    exact .inr ⟨_, read, rfl, eq ▸ ⟨rfl, pos_of_locate located, rfl, rfl, rfl⟩⟩

/-- Every later one reports the difference to the baseline. -/
theorem next_step (h : Holds m base) (unbroken : ¬ Breaks own m c) :
    (reading? own m c = none ∧ call own m c = m) ∨
      ∃ r, reading? own m c = some r ∧ r.pid = base.pid ∧ r.cpuPercent = base.share m.clkTck r ∧
        Holds (call own m c) (base.rebase r) := by
  obtain ⟨proc, now, m₁, rfl, located, cases⟩ := unbroken_cases unbroken
  obtain rfl := Watch.same_of_locate located (h.cached ▸ h.positive)
  rcases cases with ⟨threw, eq⟩ | ⟨ticks, eq, read⟩
  · exact .inl ⟨threw, eq⟩
  · have elapsed :
        m₁.elapsed now = base.since ⟨m₁.cachedPid, now, ticks, (m₁.measure ticks now).2⟩ := by
      rw [elapsed, h.time, Reading.since]
    have running : ¬ m₁.firstSample = true := Bool.eq_false_iff.1 h.measured
    refine .inr ⟨_, read, h.cached, ?_, ?_⟩
    · rw [Reading.share, ← elapsed, ← h.ticks, measure, if_neg running]
      split_ifs <;> rfl
    · rw [eq, Reading.rebase, ← elapsed, measure, if_neg running]
      split_ifs with due
      · exact ⟨rfl, h.cached ▸ h.positive, h.measured, rfl, rfl⟩
      · exact h

theorem accounts_of_holds {cs : List Call} (h : Holds m base) (unbroken : Unbroken own m cs) :
    base.Accounts m.clkTck (readings own m cs) := by
  induction cs generalizing m base with
  | nil => trivial
  | cons c cs ih =>
    obtain ⟨whole, rest⟩ := unbroken
    rw [readings]
    rcases next_step h whole with ⟨threw, same⟩ | ⟨r, read, pid, value, next⟩
    · rw [threw, same]
      exact ih h (same ▸ rest)
    · rw [read]
      have later := ih next rest
      rw [clkTck_call] at later
      exact ⟨pid, value, later⟩

theorem accounts_of_unmeasured {cs : List Call} (h : Unmeasured m) (unbroken : Unbroken own m cs)
    {first : Reading} {rest : List Reading} (read : readings own m cs = first :: rest) :
    first.cpuPercent = 0 ∧ first.Accounts m.clkTck rest := by
  induction cs generalizing m with
  | nil => cases read
  | cons c cs ih =>
    obtain ⟨whole, later⟩ := unbroken
    rw [readings] at read
    rcases first_step h whole with ⟨threw, still⟩ | ⟨r, this, zero, holds⟩
    · rw [threw] at read
      have := ih still later read
      rwa [clkTck_call] at this
    · rw [this] at read
      obtain ⟨rfl, rfl⟩ := List.cons.inj read
      have := accounts_of_holds holds later
      rw [clkTck_call] at this
      exact ⟨zero, this⟩

/-! ### Whole stretches -/

/-- The percentages add up to the ticks between two baselines, when no reading goes back. -/
theorem Reading.total_eq {clkTck : ℕ} {rs : List Reading}
    (accounts : base.Accounts clkTck rs)
    (forward : (base :: rs).Pairwise fun r r' => r.ticks ≤ r'.ticks) :
    base.total rs =
      100 / clkTck * (((rs.foldl rebase base).ticks.toNat : ℚ) - base.ticks.toNat) := by
  induction rs generalizing base with
  | nil => simp [total]
  | cons r rs ih =>
    obtain ⟨-, value, later⟩ := accounts
    have step : base.ticks ≤ r.ticks := List.rel_of_pairwise_cons forward List.mem_cons_self
    rw [total, List.foldl_cons, value, share]
    by_cases due : 1 / 1000 < base.since r
    · have rebased : base.rebase r = r := if_pos due
      have time : base.since r ≠ 0 := (lt_trans (by norm_num) due).ne'
      rw [rebased] at later ⊢
      rw [ih later forward.of_cons, if_pos due, UInt64.toNat_sub_of_le _ _ step,
        Nat.cast_sub (UInt64.le_iff_toNat_le.1 step)]
      field_simp
      ring
    · have kept : base.rebase r = base := if_neg due
      rw [kept] at later ⊢
      have skip : (base :: rs).Pairwise fun r r' => r.ticks ≤ r'.ticks :=
        forward.sublist (List.Sublist.cons_cons base (List.sublist_cons_self r rs))
      rw [ih later skip, if_neg due, zero_mul, zero_add]

theorem clkTck_calls (cs : List Call) (m : ProcessMonitor) :
    (calls own m cs).clkTck = m.clkTck := by
  induction cs generalizing m with
  | nil => rfl
  | cons c cs ih => exact (ih _).trans (clkTck_call m c)

/-- A stretch of calls that nothing breaks, from the start or from a break on: its first reading
reports 0, every other one the difference to a baseline of the same pid read in the stretch, and
while the ticks do not go back the reported time is that between the first reading and the last
baseline. -/
theorem stretch_accounted (targetName : List Char) (tck own : ℤ) {before stretch : List Call}
    (ended : ∀ earlier last, before = earlier ++ [last] →
      Breaks own (calls own (construct targetName tck) earlier) last)
    (unbroken : Unbroken own (calls own (construct targetName tck) before) stretch)
    {first : Reading} {rest : List Reading}
    (read : readings own (calls own (construct targetName tck) before) stretch = first :: rest) :
    first.cpuPercent = 0 ∧ first.Accounts (construct targetName tck).clkTck rest ∧
      ((first :: rest).Pairwise (fun r r' => r.ticks ≤ r'.ticks) →
        first.total rest = 100 / (construct targetName tck).clkTck *
          (((rest.foldl Reading.rebase first).ticks.toNat : ℚ) - first.ticks.toNat)) := by
  have unmeasured : Unmeasured (calls own (construct targetName tck) before) := by
    rcases List.eq_nil_or_concat before with rfl | ⟨earlier, last, rfl⟩
    · exact .inr rfl
    · left
      rw [calls, List.concat_eq_append, List.foldl_concat]
      exact cachedPid_of_breaks (ended earlier last (List.concat_eq_append ..))
  obtain ⟨zero, accounts⟩ := accounts_of_unmeasured unmeasured unbroken read
  rw [clkTck_calls] at accounts
  exact ⟨zero, accounts, Reading.total_eq accounts⟩

theorem not_breaks {m : ProcessMonitor} {c : Call} (h : (reading? own m c).isSome) :
    ¬ Breaks own m c := by
  cases c with
  | reset => cases h
  | sample proc now =>
    rintro ⟨metrics, failed⟩
    simp [reading?, failed] at h

/-- Three samples of one process, 2 s and 0.5 ms apart. -/
def threeSamples : List Call :=
  [.sample (Watch.occupied 0 "ryujinx" "12 (ryujinx) S 1 1 1 0 -1 0 0 0 0 0 500 100") 0,
    .sample (Watch.occupied 0 "ryujinx" "12 (ryujinx) S 1 1 1 0 -1 0 0 0 0 0 580 120") (2 * 10 ^ 9),
    .sample (Watch.occupied 0 "ryujinx" "12 (ryujinx) S 1 1 1 0 -1 0 0 0 0 0 581 120")
      (2 * 10 ^ 9 + 500000)]

theorem stretch_accounted_three :
    (⟨12, 0, 600, 0⟩ : Reading).total
        [⟨12, 2 * 10 ^ 9, 700, 50⟩, ⟨12, 2 * 10 ^ 9 + 500000, 701, 0⟩] =
      100 / 100 * (700 - 600) := by
  have unbroken : Unbroken 1 (calls 1 (construct "ryujinx".toList 100) []) threeSamples :=
    ⟨not_breaks (by decide +kernel), not_breaks (by decide +kernel), not_breaks (by decide +kernel),
      trivial⟩
  have read : readings 1 (calls 1 (construct "ryujinx".toList 100) []) threeSamples =
      [⟨12, 0, 600, 0⟩, ⟨12, 2 * 10 ^ 9, 700, 50⟩, ⟨12, 2 * 10 ^ 9 + 500000, 701, 0⟩] := by
    decide +kernel
  have last : ([⟨12, 2 * 10 ^ 9, 700, 50⟩, ⟨12, 2 * 10 ^ 9 + 500000, 701, 0⟩].foldl Reading.rebase
      ⟨12, 0, 600, 0⟩).ticks = 700 := by decide +kernel
  have clkTck : (construct "ryujinx".toList 100).clkTck = 100 := rfl
  rw [(stretch_accounted "ryujinx".toList 100 1 (by simp) unbroken read).2.2 (by decide), last,
    clkTck]
  rfl

end SmoothDemon.ProcessMonitor
