import SmoothDemon.Library.Run
import SmoothDemon.Monitor.ProcessMonitor

/-!
# Runs of the process monitor

`ProcessMonitor::sample` against a /proc that changes between the calls.  The monitor keeps a pid,
not a process.  A `Watch` adds what it cannot see: which process the last search matched and which
one the baseline was read of.  Every report is about the matched process, and every tick difference
between two readings of it, iff no call finds the cached pid in the hands of another process
(`Watch.always_faithful_iff`).
-/

namespace SmoothDemon

/-- What stands behind the tick difference of a report: the process the baseline was read of, the
baseline and the new reading. -/
structure Difference where
  source : Option ℕ
  prev : UInt64
  curr : UInt64

/-- A call that returned true: the process matched last, the one the reported pid denotes, and the
difference behind a percentage that was computed. -/
structure Report where
  matched : Option ℕ
  subject : Option ℕ
  diff : Option Difference

/-- The report is about the matched process, and its difference is one of that process and does not
wrap. -/
structure Report.Faithful (r : Report) : Prop where
  subject : r.subject = r.matched
  source : ∀ d ∈ r.diff, d.source = r.subject
  forward : ∀ d ∈ r.diff, d.prev ≤ d.curr

namespace Process

/-- The ticks `read_stat` reads. -/
def ticks? (p : Process) : Option UInt64 :=
  match ProcessMonitor.readStat p.stat with
  | .ok (some (_, ticks)) => some ticks
  | _ => none

end Process

namespace Procfs

/-- The identity behind a pid. -/
def ident? (proc : Procfs) (pid : ℤ) : Option ℕ := (proc.process? pid).map Process.ident

/-- The second reading, if there are two, is not below the first. -/
def NotBelow : Option UInt64 → Option UInt64 → Prop
  | some t, some t' => t ≤ t'
  | _, _ => True

instance : (t t' : Option UInt64) → Decidable (NotBelow t t')
  | some t, some t' => inferInstanceAs (Decidable (t ≤ t'))
  | some _, none => isTrue trivial
  | none, _ => isTrue trivial

/-- The ticks of a process never go back. -/
def Ages (before after : Procfs) : Prop :=
  ∀ p ∈ before.processes, ∀ q ∈ after.processes, p.ident = q.ident → NotBelow p.ticks? q.ticks?

instance (before after : Procfs) : Decidable (before.Ages after) :=
  inferInstanceAs (Decidable (∀ p ∈ before.processes, ∀ q ∈ after.processes, p.ident = q.ident →
    NotBelow p.ticks? q.ticks?))

end Procfs

structure Watch where
  monitor : ProcessMonitor
  past : List Procfs := []
  matched : Option ℕ := none
  baseline : Option ℕ := none
  reports : List Report := []

namespace Watch

/-- The call takes a new baseline. -/
def Rebases (m : ProcessMonitor) (now : ℤ) : Prop :=
  m.cachedPid ≤ 0 ∨ m.firstSample ∨ 1 / 1000 < m.elapsed now

instance (m : ProcessMonitor) (now : ℤ) : Decidable (Rebases m now) :=
  inferInstanceAs (Decidable (_ ∨ _ ∨ _))

/-- The report of a call that led to `m` and returned true. -/
def report (w : Watch) (proc : Procfs) (now : ℤ) (m : ProcessMonitor) : Report where
  matched := if w.monitor.cachedPid ≤ 0 then proc.ident? m.cachedPid else w.matched
  subject := proc.ident? m.cachedPid
  diff :=
    if 0 < w.monitor.cachedPid ∧ ¬ w.monitor.firstSample ∧ Rebases w.monitor now then
      some ⟨w.baseline, w.monitor.prevTicks, m.prevTicks⟩
    else none

/-- What a call that led to `m` and returned `ok` adds. -/
def observe (w : Watch) (proc : Procfs) (now : ℤ) (m : ProcessMonitor) (ok : Bool) : Watch where
  monitor := m
  past := proc :: w.past
  matched := (w.report proc now m).matched
  baseline := if ok ∧ Rebases w.monitor now then proc.ident? m.cachedPid else w.baseline
  reports := if ok then w.report proc now m :: w.reports else w.reports

/-- A call of `sample` when /proc is as given, which it can be if no process has lost ticks. -/
def step (self : ℤ) (w : Watch) (call : Procfs × ℤ) : Option Watch :=
  let (proc, now) := call
  if ∀ before ∈ w.past, before.Ages proc then
    match w.monitor.sample proc self now with
    | (m, .ok (ok, _)) => some (w.observe proc now m ok)
    | (m, .error _) => some (w.observe proc now m false)
  else none

def Faithful (w : Watch) : Prop := ∀ r ∈ w.reports, r.Faithful

/-- A cached pid still denotes the matched process, unless no ticks can be read there. -/
def SameProcess (w : Watch) (call : Procfs × ℤ) : Prop :=
  0 < w.monitor.cachedPid → ∀ p ∈ call.1.process? w.monitor.cachedPid, p.ticks?.isSome →
    w.matched = some p.ident

/-! ### What a call can do -/

section Call

variable {m m₁ : ProcessMonitor} {proc : Procfs} {self now : ℤ}

theorem locate_cases (h : m.locate proc self = some m₁) :
    (m.cachedPid ≤ 0 ∧ m₁.firstSample) ∨ (0 < m.cachedPid ∧ m₁ = m) := by
  unfold ProcessMonitor.locate at h
  split_ifs at h with uncached
  · obtain ⟨pid, -, rfl⟩ := Option.map_eq_some_iff.1 h
    exact .inl ⟨uncached, rfl⟩
  · exact .inr ⟨not_le.1 uncached, (Option.some.inj h).symm⟩

theorem cachedPid_measure (m : ProcessMonitor) (ticks : UInt64) (now : ℤ) :
    (m.measure ticks now).1.cachedPid = m.cachedPid := by
  unfold ProcessMonitor.measure
  split_ifs <;> rfl

theorem measure_of_due (due : m.firstSample ∨ 1 / 1000 < m.elapsed now) (ticks : UInt64) :
    (m.measure ticks now).1.prevTicks = ticks := by
  unfold ProcessMonitor.measure
  split_ifs with first late
  · rfl
  · rfl
  · exact absurd due (not_or.2 ⟨first, late⟩)

theorem measure_of_not_due (due : ¬ (m.firstSample ∨ 1 / 1000 < m.elapsed now)) (ticks : UInt64) :
    (m.measure ticks now).1 = m := by
  rw [not_or] at due
  rw [ProcessMonitor.measure, if_neg due.1, if_neg due.2]

/-- A call that returns false or throws: nothing is cached any more, nothing is measured yet, or
nothing changed; and a cached pid could not be read. -/
structure Fails (m m' : ProcessMonitor) (proc : Procfs) : Prop where
  state : m'.cachedPid ≤ 0 ∨ m'.firstSample ∨ m' = m
  unread : 0 < m.cachedPid → ∀ p ∈ proc.process? m.cachedPid, p.ticks? = none

/-- A call that returns true has read the ticks of process `p`. -/
structure Succeeds (m m' : ProcessMonitor) (proc : Procfs) (now : ℤ) (p : Process) : Prop where
  found : proc.process? m'.cachedPid = some p
  ticks : p.ticks?.isSome
  cached : 0 < m.cachedPid → m'.cachedPid = m.cachedPid
  rebased : Rebases m now → p.ticks? = some m'.prevTicks
  kept : ¬ Rebases m now → m' = m

theorem ticks?_of_readStat {p : Process} {r : Option (Char × UInt64)}
    (h : ProcessMonitor.readStat p.stat = .ok r) : p.ticks? = r.map Prod.snd := by
  unfold Process.ticks?
  rw [h]
  cases r <;> rfl

theorem ticks?_of_fault {p : Process} {fault : ProcessMonitor.Fault}
    (h : ProcessMonitor.readStat p.stat = .error fault) : p.ticks? = none := by
  unfold Process.ticks?
  rw [h]

theorem same_of_locate (h : m.locate proc self = some m₁) (cached : 0 < m.cachedPid) : m₁ = m :=
  (locate_cases h).elim (fun uncached => absurd cached (not_lt.2 uncached.1)) And.right

theorem rebases_iff (h : m.locate proc self = some m₁) :
    Rebases m now ↔ m₁.firstSample ∨ 1 / 1000 < m₁.elapsed now := by
  rcases locate_cases h with ⟨uncached, first⟩ | ⟨cached, rfl⟩
  · exact iff_of_true (.inl uncached) (.inl first)
  · exact or_iff_right (not_le.2 cached)

theorem exists_process {pid : ℤ} {r : Char × UInt64}
    (h : ProcessMonitor.readStat ((proc.process? pid).bind Process.stat) = .ok (some r)) :
    ∃ p, proc.process? pid = some p := by
  cases found : proc.process? pid with
  | none =>
    rw [found] at h
    have absent := Except.ok.inj (show Except.ok none = Except.ok (some r) from h)
    exact absurd absent (Option.some_ne_none _).symm
  | some p => exact ⟨p, rfl⟩

theorem succeeds_of_read {state : Char} {ticks : UInt64} (located : m.locate proc self = some m₁)
    (read : ProcessMonitor.readStat ((proc.process? m₁.cachedPid).bind Process.stat) =
      .ok (some (state, ticks))) : ∃ p, Succeeds m (m₁.measure ticks now).1 proc now p := by
  obtain ⟨p, found⟩ := exists_process read
  rw [found] at read
  have shown : p.ticks? = some ticks := ticks?_of_readStat read
  refine ⟨p, ⟨?_, ?_, fun cached => ?_, fun rebases => ?_, fun stays => ?_⟩⟩
  · rw [cachedPid_measure]
    exact found
  · rw [shown]
    rfl
  · rw [cachedPid_measure, same_of_locate located cached]
  · rw [shown, measure_of_due ((rebases_iff located).1 rebases)]
  · have cached : 0 < m.cachedPid := not_le.1 fun uncached => stays (.inl uncached)
    rw [measure_of_not_due (mt (rebases_iff located).2 stays), same_of_locate located cached]

theorem sample_cases (m : ProcessMonitor) (proc : Procfs) (self now : ℤ) :
    (∃ m' metrics, m.sample proc self now = (m', .ok (false, metrics)) ∧ Fails m m' proc) ∨
      (∃ m' fault, m.sample proc self now = (m', .error fault) ∧ Fails m m' proc) ∨
      ∃ m' metrics p, m.sample proc self now = (m', .ok (true, metrics)) ∧
        Succeeds m m' proc now p := by
  cases eq : m.sample proc self now with
  | mk m' result =>
    have done := m.sampled proc self now
    rw [eq] at done
    cases done with
    | absent missing =>
      refine .inl ⟨_, _, rfl, .inr (.inr rfl), fun cached => ?_⟩
      rw [ProcessMonitor.locate, if_neg (not_le.2 cached)] at missing
      cases missing
    | unread m₁ located read =>
      refine .inl ⟨_, _, rfl, .inl (by simp [ProcessMonitor.reset]), fun cached p hp => ?_⟩
      rw [same_of_locate located cached, hp] at read
      exact ticks?_of_readStat read
    | fault _ fault located read =>
      have first := (locate_cases located).imp And.right And.right
      refine .inr (.inl ⟨_, _, rfl, .inr first, fun cached p hp => ?_⟩)
      rw [same_of_locate located cached, hp] at read
      exact ticks?_of_fault read
    | read m₁ state ticks located read =>
      obtain ⟨p, succeeds⟩ := succeeds_of_read located read
      exact .inr (.inr ⟨_, _, p, rfl, succeeds⟩)

end Call

theorem step_cases {self : ℤ} {w w' : Watch} {proc : Procfs} {now : ℤ}
    (h : step self w (proc, now) = some w') : (∀ before ∈ w.past, before.Ages proc) ∧
      ((∃ m, w' = w.observe proc now m false ∧ Fails w.monitor m proc) ∨
        ∃ m p, w' = w.observe proc now m true ∧ Succeeds w.monitor m proc now p) := by
  unfold step at h
  simp only at h
  split_ifs at h with ages
  refine ⟨ages, ?_⟩
  rcases sample_cases w.monitor proc self now with
    ⟨m, metrics, eq, fails⟩ | ⟨m, fault, eq, fails⟩ | ⟨m, metrics, p, eq, succeeds⟩
  · rw [eq] at h
    exact .inl ⟨m, (Option.some.inj h).symm, fails⟩
  · rw [eq] at h
    exact .inl ⟨m, (Option.some.inj h).symm, fails⟩
  · rw [eq] at h
    exact .inr ⟨m, p, (Option.some.inj h).symm, succeeds⟩

/-! ### Runs -/

/-- The baseline was read, in an earlier call, of the process a report was about. -/
structure Anchored (w : Watch) : Prop where
  reading : 0 < w.monitor.cachedPid → w.monitor.firstSample = false → ∃ before ∈ w.past,
    ∃ p ∈ before.processes, w.baseline = some p.ident ∧ p.ticks? = some w.monitor.prevTicks
  reported : 0 < w.monitor.cachedPid → w.monitor.firstSample = false →
    ∃ r ∈ w.reports, r.subject = w.baseline ∧ r.matched = w.matched

theorem ident?_of_found {proc : Procfs} {pid : ℤ} {p : Process} (h : proc.process? pid = some p) :
    proc.ident? pid = some p.ident := by
  rw [Procfs.ident?, h]
  rfl

theorem Anchored.step {self : ℤ} {w w' : Watch} {call : Procfs × ℤ} (h : w.Anchored)
    (taken : Watch.step self w call = some w') : w'.Anchored := by
  obtain ⟨proc, now⟩ := call
  obtain ⟨-, ⟨m, rfl, fails⟩ | ⟨m, p, rfl, succeeds⟩⟩ := step_cases taken
  · have kept (cached : 0 < m.cachedPid) (measured : m.firstSample = false) : m = w.monitor := by
      rcases fails.state with gone | first | same
      · exact absurd cached (not_lt.2 gone)
      · exact absurd (measured.symm.trans first) Bool.false_ne_true
      · exact same
    constructor
    · intro cached measured
      obtain rfl := kept cached measured
      obtain ⟨before, hb, reading⟩ := h.reading cached measured
      exact ⟨before, List.mem_cons_of_mem proc hb, reading⟩
    · intro cached measured
      obtain rfl := kept cached measured
      obtain ⟨r, hr, subject, matched⟩ := h.reported cached measured
      exact ⟨r, hr, subject, matched.trans (if_neg (not_le.2 cached)).symm⟩
  · have ident := ident?_of_found succeeds.found
    by_cases rebases : Rebases w.monitor now
    · have baseline : (w.observe proc now m true).baseline = some p.ident := by
        simp only [observe, rebases, and_self, if_true, ident]
      constructor
      · intro _ _
        exact ⟨proc, List.mem_cons_self, p, (Procfs.process?_eq_some_iff.1 succeeds.found).1,
          baseline, succeeds.rebased rebases⟩
      · intro _ _
        exact ⟨_, List.mem_cons_self, ident.trans baseline.symm, rfl⟩
    · obtain rfl := succeeds.kept rebases
      have cached : 0 < w.monitor.cachedPid := not_le.1 fun uncached => rebases (.inl uncached)
      have baseline : (w.observe proc now w.monitor true).baseline = w.baseline := by
        simp only [observe, rebases, and_false, if_false]
      constructor
      · intro cached measured
        obtain ⟨before, hb, reading⟩ := h.reading cached measured
        exact ⟨before, List.mem_cons_of_mem proc hb, baseline ▸ reading⟩
      · intro cached measured
        obtain ⟨r, hr, subject, matched⟩ := h.reported cached measured
        exact ⟨r, List.mem_cons_of_mem _ hr, subject.trans baseline.symm,
          matched.trans (if_neg (not_le.2 cached)).symm⟩

theorem report_faithful_iff {w : Watch} {proc : Procfs} {now : ℤ} {m : ProcessMonitor} {p : Process}
    (h : w.Anchored) (faithful : w.Faithful) (ages : ∀ before ∈ w.past, before.Ages proc)
    (succeeds : Succeeds w.monitor m proc now p) :
    (w.report proc now m).Faithful ↔ w.SameProcess (proc, now) := by
  have subject : (w.report proc now m).subject = some p.ident := ident?_of_found succeeds.found
  by_cases cached : 0 < w.monitor.cachedPid
  · have matched : (w.report proc now m).matched = w.matched := if_neg (not_le.2 cached)
    have found : proc.process? w.monitor.cachedPid = some p :=
      succeeds.cached cached ▸ succeeds.found
    constructor
    · intro r _ q hq _
      obtain rfl := Option.some.inj (found.symm.trans hq)
      rw [← matched, ← r.subject, subject]
    · intro same
      have known : w.matched = some p.ident := same cached p found succeeds.ticks
      -- the baseline is one of the matched process, since the report about it is
      have difference (d : Difference) (hd : d ∈ (w.report proc now m).diff) :
          d.source = some p.ident ∧ d.prev ≤ d.curr := by
        simp only [report, Option.mem_def, Option.ite_none_right_eq_some, Option.some.injEq] at hd
        obtain ⟨⟨-, measured, rebases⟩, rfl⟩ := hd
        have measured := Bool.eq_false_iff.2 measured
        obtain ⟨before, hb, q, hq, baseline, ticks⟩ := h.reading cached measured
        obtain ⟨r, hr, about, last⟩ := h.reported cached measured
        have source : w.baseline = some p.ident := by
          rw [← about, (faithful r hr).subject, last, known]
        have ident : q.ident = p.ident := Option.some.inj (baseline.symm.trans source)
        have forward := ages before hb q hq p (Procfs.process?_eq_some_iff.1 found).1 ident
        rw [ticks, succeeds.rebased rebases] at forward
        exact ⟨source, forward⟩
      constructor
      · rw [subject, matched, known]
      · intro d hd
        rw [subject, (difference d hd).1]
      · exact fun d hd => (difference d hd).2
  · refine iff_of_true ⟨?_, ?_, ?_⟩ fun now => absurd now cached
    · exact (if_pos (not_lt.1 cached)).symm
    all_goals simp [report, cached]

/-- The next report is faithful iff the call finds the matched process. -/
theorem faithful_step {self : ℤ} {w w' : Watch} {call : Procfs × ℤ} (h : w.Anchored)
    (faithful : w.Faithful) (taken : Watch.step self w call = some w') :
    w'.Faithful ↔ w.SameProcess call := by
  obtain ⟨proc, now⟩ := call
  obtain ⟨ages, ⟨m, rfl, fails⟩ | ⟨m, p, rfl, succeeds⟩⟩ := step_cases taken
  · refine iff_of_true faithful fun cached p hp readable => ?_
    rw [fails.unread cached p hp] at readable
    exact absurd readable Bool.false_ne_true
  · rw [← report_faithful_iff h faithful ages succeeds]
    exact ⟨fun all => all _ List.mem_cons_self, fun new => List.forall_mem_cons.2 ⟨new, faithful⟩⟩

/-- A watch over a new monitor. -/
def start (targetName : List Char) (tck : ℤ) : Watch where
  monitor := .construct targetName tck

/-- Every report of a run is about the process the search matched, and every tick difference between
two readings of it, iff no call finds the cached pid in the hands of another process. -/
theorem always_faithful_iff (targetName : List Char) (tck self : ℤ) (calls : List (Procfs × ℤ)) :
    Transition.Always (step self) Faithful (start targetName tck) calls ↔
      Transition.Each (step self) SameProcess (start targetName tck) calls := by
  have uncached : ¬ 0 < (start targetName tck).monitor.cachedPid :=
    show ¬ (0 : ℤ) < -1 by decide
  have anchored : (start targetName tck).Anchored :=
    ⟨fun cached => absurd cached uncached, fun cached => absurd cached uncached⟩
  rw [Transition.always_iff_each (I := Anchored) (P := Faithful) (fun _ _ _ h taken => h.step taken)
    (fun _ _ _ h faithful taken => faithful_step h faithful taken) anchored]
  exact and_iff_right fun r hr => absurd hr List.not_mem_nil

section Example

/-- Whoever has pid 12. -/
def occupied (ident : ℕ) (comm stat : String) : Procfs :=
  .single (.twelve ident comm [] (some stat))

/-- The game ends, and a compiler that has used less time gets its pid. -/
def reused : List (Procfs × ℤ) :=
  [(occupied 0 "ryujinx" "12 (ryujinx) S 1 1 1 0 -1 0 0 0 0 0 500 100", 0),
    (occupied 1 "cc1" "12 (cc1) R 1 1 1 0 -1 0 0 0 0 0 2 1", 10 ^ 9)]

theorem not_always_faithful :
    ¬ ∀ (targetName : List Char) (tck self : ℤ) (calls : List (Procfs × ℤ)),
      Transition.Always (step self) Faithful (start targetName tck) calls := by
  intro claim
  have reached : (reused.foldlM (step 1) (start "ryujinx".toList 100)).map
      (fun w => w.reports.map fun r => (r.matched, r.subject)) =
        some [(some 0, some 1), (some 0, some 0)] := by decide +kernel
  obtain ⟨w, run, reports⟩ := Option.map_eq_some_iff.1 reached
  have wrong : (some 0, some 1) ∈ w.reports.map fun r => (r.matched, r.subject) :=
    reports ▸ List.mem_cons_self
  obtain ⟨r, hr, other⟩ := List.mem_map.1 wrong
  have subject := ((claim _ _ _ reused).last run r hr).subject
  rw [(Prod.mk.inj other).1, (Prod.mk.inj other).2] at subject
  exact absurd subject (by decide)

end Example

end Watch

end SmoothDemon
