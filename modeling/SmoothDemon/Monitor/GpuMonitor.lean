import Mathlib.Tactic.Ring
import SmoothDemon.Library.Run
import SmoothDemon.Monitor.Drm
import SmoothDemon.Monitor.GpuProcess

/-!
# The GPU monitor

`GpuMonitor::initialize` and `GpuMonitor::sample` (src/gpu.cpp).  The activity between two reads of
the RC6 residency is the time the GPU was not resident; `Rc6Account` keeps the activity that the
successful reads of a run account for.  A failed read counts as a residency of 0, so the monitor
keeps to that account throughout a run iff every failed read comes at most 1 ms after the baseline,
where no read is looked at (`GpuMonitor.always_accounts_iff`).
-/

namespace SmoothDemon

structure GpuMetrics where
  curFreqMhz : UInt32 := 0
  actFreqMhz : UInt32 := 0
  minFreqMhz : UInt32 := 0
  maxFreqMhz : UInt32 := 0
  activityPercent : ℚ := 0
  sharedMemKib : UInt64 := 0
  isAvailable : Bool := false

structure GpuMonitor where
  drmCardPath : List Char := []
  prevRc6Ms : UInt64 := 0
  prevTime : ℤ := 0
  firstSample : Bool := true
  metrics : GpuMetrics := {}

namespace GpuMonitor

/-! ### Initialization -/

/-- The loop over the entries.  After an error the next round ends it. -/
def findCard : List DrmEntry → Option DrmEntry
  | [] => none
  | entry :: rest =>
    if isCardDirName entry.name then
      match entry.gtCurFreqMhz.exists? with
      | some true => some entry
      | some false => findCard rest
      | none => none
    else findCard rest

def initializeCard (m : GpuMonitor) (drm : Option Drm) : GpuMonitor × Bool :=
  let m := { m with drmCardPath := [], metrics := {}, firstSample := true }
  match findCard (entriesOf drm) with
  | none => (m, false)
  | some card =>
    ({ m with
      drmCardPath := card.path
      metrics := { m.metrics with
        minFreqMhz := readSysfsU32 (fileAt drm card.path DrmEntry.gtMinFreqMhz)
        maxFreqMhz := readSysfsU32 (fileAt drm card.path DrmEntry.gtMaxFreqMhz)
        isAvailable := true } }, true)

/-- Success means that a card was found. -/
theorem exists_of_initializeCard {start m : GpuMonitor} {drm : Option Drm}
    (h : start.initializeCard drm = (m, true)) :
    (∃ card, findCard (entriesOf drm) = some card ∧ m.drmCardPath = card.path) ∧
      m.firstSample ∧ m.metrics.isAvailable ∧ m.metrics.activityPercent = 0 := by
  unfold initializeCard at h
  cases found : findCard (entriesOf drm) with
  | none =>
    rw [found] at h
    cases h
  | some card =>
    rw [found] at h
    cases h
    exact ⟨⟨card, rfl, rfl⟩, rfl, rfl, rfl⟩

/-! ### Sampling -/

/-- The frequencies and the shared memory. -/
def readFrequencies (m : GpuMonitor) (drm : Option Drm) : GpuMonitor :=
  let cur := readSysfsU32 (fileAt drm m.drmCardPath DrmEntry.gtCurFreqMhz)
  let act := readSysfsU32 (fileAt drm m.drmCardPath DrmEntry.gtActFreqMhz)
  { m with metrics := { m.metrics with
      curFreqMhz := cur
      actFreqMhz := if act = 0 then cur else act
      sharedMemKib := readSysfsU64 (fileAt drm m.drmCardPath DrmEntry.memInfoGttUsed) / 1024 } }

/-- The rest of `sample`, for what was read of the residency. -/
def measure (m : GpuMonitor) (rc6Ms : UInt64) (now : ℤ) : GpuMonitor :=
  if m.firstSample then
    { m with
      prevRc6Ms := rc6Ms
      prevTime := now
      firstSample := false
      metrics := { m.metrics with activityPercent := 0 } }
  else
    let dtMs : ℚ := (now - m.prevTime : ℤ) / 10 ^ 6
    if 1 < dtMs then
      let activeMs := dtMs - (rc6Ms - m.prevRc6Ms).toNat
      { m with
        prevRc6Ms := rc6Ms
        prevTime := now
        metrics := { m.metrics with activityPercent := clamp (activeMs / dtMs * 100) 0 100 } }
    else m

/-- `now` is the time of the clock, in nanoseconds. -/
def sample (m : GpuMonitor) (drm : Option Drm) (now : ℤ) : GpuMonitor × Bool :=
  let (m, available) := if m.metrics.isAvailable then (m, true) else m.initializeCard drm
  if available then
    let m := m.readFrequencies drm
    (m.measure (readSysfsU64 (fileAt drm m.drmCardPath DrmEntry.rc6ResidencyMs)) now, true)
  else (m, false)

end GpuMonitor

/-! ### The activity that reads account for -/

/-- The read that is the baseline, the activity since the one before it, and the true residency at
the last read. -/
structure Rc6Account where
  baseline : Option (UInt64 × ℤ) := none
  activityPercent : ℚ := 0
  residency : UInt64 := 0

namespace Rc6Account

/-- The share of `dt` ms that was not spent resident. -/
def activity (dt : ℚ) (before after : UInt64) : ℚ :=
  clamp (100 * (dt - (after.toNat - before.toNat)) / dt) 0 100

/-- A successful read becomes the baseline unless it comes at most 1 ms after it. -/
def read (a : Rc6Account) (residency : UInt64) (now : ℤ) : Rc6Account :=
  match a.baseline with
  | none => { baseline := some (residency, now), residency }
  | some (before, time) =>
    let dt : ℚ := (now - time : ℤ) / 10 ^ 6
    if 1 < dt then
      { baseline := some (residency, now)
        activityPercent := activity dt before residency
        residency }
    else { a with residency }

end Rc6Account

namespace GpuMonitor

/-- The monitor, and the account of what it read. -/
structure Tracked where
  monitor : GpuMonitor
  account : Rc6Account := {}

/-- The files at a time. -/
structure Moment where
  drm : Option Drm
  now : ℤ

/-- What a sample reads of the residency, `none` where the read fails. -/
def rc6? (m : GpuMonitor) (a : Moment) : Option UInt64 :=
  (fileAt a.drm m.drmCardPath DrmEntry.rc6ResidencyMs).number?

/-- The true residency does not go back. -/
def step (s : Tracked) (a : Moment) : Option Tracked :=
  let monitor := (s.monitor.sample a.drm a.now).1
  match s.monitor.rc6? a with
  | none => some { s with monitor }
  | some residency =>
    if residency < s.account.residency then none
    else some { monitor, account := s.account.read residency a.now }

/-- The monitor publishes the activity of the account, and has its baseline. -/
structure Accounts (s : Tracked) : Prop where
  activity : s.monitor.metrics.activityPercent = s.account.activityPercent
  first : s.monitor.firstSample = s.account.baseline.isNone
  baseline : ∀ b ∈ s.account.baseline, b = (s.monitor.prevRc6Ms, s.monitor.prevTime)

/-- A read that succeeds, or is not looked at. -/
def Sound (s : Tracked) (a : Moment) : Prop :=
  s.monitor.rc6? a = none → s.monitor.firstSample = false ∧ a.now ≤ s.monitor.prevTime + 10 ^ 6

/-! ### One sample -/

section Fields

variable (m : GpuMonitor) (drm : Option Drm)

@[simp] theorem firstSample_readFrequencies :
    (m.readFrequencies drm).firstSample = m.firstSample := rfl

@[simp] theorem prevRc6Ms_readFrequencies : (m.readFrequencies drm).prevRc6Ms = m.prevRc6Ms := rfl

@[simp] theorem prevTime_readFrequencies : (m.readFrequencies drm).prevTime = m.prevTime := rfl

@[simp] theorem activityPercent_readFrequencies :
    (m.readFrequencies drm).metrics.activityPercent = m.metrics.activityPercent := rfl

@[simp] theorem isAvailable_readFrequencies :
    (m.readFrequencies drm).metrics.isAvailable = m.metrics.isAvailable := rfl

@[simp] theorem isAvailable_measure (rc6Ms : UInt64) (now : ℤ) :
    (m.measure rc6Ms now).metrics.isAvailable = m.metrics.isAvailable := by
  unfold measure
  split_ifs
  · rfl
  · dsimp only
    split_ifs <;> rfl

end Fields

variable {m : GpuMonitor} {drm : Option Drm} {now : ℤ}

theorem sample_of_available (h : m.metrics.isAvailable) :
    (m.sample drm now).1 =
      (m.readFrequencies drm).measure ((m.rc6? { drm, now }).getD 0) now := by
  simp only [sample, h, if_true]
  rfl

theorem late_iff {prev now : ℤ} : (1 : ℚ) < (now - prev : ℤ) / 10 ^ 6 ↔ prev + 10 ^ 6 < now := by
  rw [lt_div_iff₀ (by norm_num), one_mul]
  have cast : (10 ^ 6 : ℚ) = ((10 ^ 6 : ℤ) : ℚ) := by norm_num
  rw [cast, Int.cast_lt]
  omega

theorem measure_first (h : m.firstSample) (rc6Ms : UInt64) :
    m.measure rc6Ms now =
      { m with prevRc6Ms := rc6Ms, prevTime := now, firstSample := false,
               metrics := { m.metrics with activityPercent := 0 } } :=
  if_pos h

theorem measure_late (h : m.firstSample = false) (late : m.prevTime + 10 ^ 6 < now)
    (rc6Ms : UInt64) :
    m.measure rc6Ms now =
      { m with
        prevRc6Ms := rc6Ms
        prevTime := now
        metrics := { m.metrics with
          activityPercent := clamp ((((now - m.prevTime : ℤ) / 10 ^ 6 : ℚ) -
            (rc6Ms - m.prevRc6Ms).toNat) / ((now - m.prevTime : ℤ) / 10 ^ 6) * 100) 0 100 } } := by
  rw [measure, if_neg (by simp [h])]
  exact if_pos (late_iff.2 late)

theorem measure_early (h : m.firstSample = false) (early : now ≤ m.prevTime + 10 ^ 6)
    (rc6Ms : UInt64) : m.measure rc6Ms now = m := by
  rw [measure, if_neg (by simp [h])]
  exact if_neg (mt late_iff.1 early.not_gt)

/-- Where the counter has not gone back, the difference is exact. -/
theorem activity_eq {before after : UInt64} (h : before ≤ after) (dt : ℚ) :
    clamp ((dt - (after - before).toNat) / dt * 100) 0 100 =
      Rc6Account.activity dt before after := by
  rw [Rc6Account.activity, UInt64.toNat_sub_of_le _ _ h, Nat.cast_sub (UInt64.le_iff_toNat_le.1 h)]
  congr 1
  ring

theorem read_first {account : Rc6Account} (h : account.baseline = none) (residency : UInt64) :
    account.read residency now = { baseline := some (residency, now), residency } := by
  rw [Rc6Account.read, h]

section Read

variable {account : Rc6Account} {before : UInt64} {time : ℤ}

theorem read_late (h : account.baseline = some (before, time)) (late : time + 10 ^ 6 < now)
    (residency : UInt64) :
    account.read residency now =
      { baseline := some (residency, now)
        activityPercent := Rc6Account.activity ((now - time : ℤ) / 10 ^ 6) before residency
        residency } := by
  rw [Rc6Account.read, h]
  exact if_pos (late_iff.2 late)

theorem read_early (h : account.baseline = some (before, time)) (early : now ≤ time + 10 ^ 6)
    (residency : UInt64) : account.read residency now = { account with residency } := by
  rw [Rc6Account.read, h]
  exact if_neg (mt late_iff.1 early.not_gt)

end Read

/-! ### Runs -/

/-- The card is available, and the residency has not gone back since the baseline. -/
structure Invariant (s : Tracked) : Prop where
  available : s.monitor.metrics.isAvailable
  baseline : ∀ b ∈ s.account.baseline, b.1 ≤ s.account.residency

variable {s s' : Tracked} {a : Moment}

/-- A sample keeps the card; its read fails, or goes on from the last one. -/
theorem step_cases (inv : Invariant s) (next : step s a = some s') :
    s.monitor.rc6? a = none ∧
        s' = { s with monitor := (s.monitor.readFrequencies a.drm).measure 0 a.now } ∨
      ∃ residency, s.monitor.rc6? a = some residency ∧ s.account.residency ≤ residency ∧
        s' = { monitor := (s.monitor.readFrequencies a.drm).measure residency a.now
               account := s.account.read residency a.now } := by
  rw [step, sample_of_available inv.available] at next
  cases read : s.monitor.rc6? a with
  | none =>
    rw [read] at next
    exact .inl ⟨rfl, (Option.some.inj next).symm⟩
  | some residency =>
    simp only [read] at next
    split_ifs at next with back
    exact .inr ⟨residency, rfl, UInt64.not_lt.1 back, (Option.some.inj next).symm⟩

theorem Invariant.step (inv : Invariant s) (next : step s a = some s') : Invariant s' := by
  obtain ⟨-, rfl⟩ | ⟨residency, -, grown, rfl⟩ := step_cases inv next
  · constructor
    · simpa using inv.available
    · exact inv.baseline
  · constructor
    · simpa using inv.available
    · cases base : s.account.baseline with
      | none =>
        rw [read_first base]
        rintro _ ⟨⟩
        exact UInt64.le_refl _
      | some b =>
        by_cases late : b.2 + 10 ^ 6 < a.now
        · rw [read_late base late]
          rintro _ ⟨⟩
          exact UInt64.le_refl _
        · rw [read_early base (not_lt.1 late)]
          intro b hb
          exact UInt64.le_trans (inv.baseline b hb) grown

/-- A successful read is accounted for. -/
theorem Accounts.read (inv : Invariant s) (h : Accounts s) {residency : UInt64}
    (grown : s.account.residency ≤ residency) (drm : Option Drm) (now : ℤ) :
    Accounts { monitor := (s.monitor.readFrequencies drm).measure residency now
               account := s.account.read residency now } := by
  cases base : s.account.baseline with
  | none =>
    have first : s.monitor.firstSample := by rw [h.first, base]; rfl
    rw [read_first base, measure_first (by simpa using first)]
    refine ⟨rfl, rfl, ?_⟩
    rintro _ ⟨⟩
    rfl
  | some b =>
    have later : s.monitor.firstSample = false := by rw [h.first, base]; rfl
    obtain rfl := h.baseline b base
    have before := UInt64.le_trans (inv.baseline _ base) grown
    by_cases late : s.monitor.prevTime + 10 ^ 6 < now
    · rw [read_late base late, measure_late (by simpa using later) (by simpa using late)]
      refine ⟨?_, later, ?_⟩
      · exact activity_eq before _
      · rintro _ ⟨⟩
        rfl
    · rw [read_early base (not_lt.1 late),
        measure_early (by simpa using later) (by simpa using late)]
      exact ⟨h.activity, h.first, h.baseline⟩

/-- A failed one becomes a baseline, unless it is not looked at. -/
theorem accounts_failed (h : Accounts s) (drm : Option Drm) (now : ℤ) :
    Accounts { s with monitor := (s.monitor.readFrequencies drm).measure 0 now } ↔
      s.monitor.firstSample = false ∧ now ≤ s.monitor.prevTime + 10 ^ 6 := by
  cases base : s.account.baseline with
  | none =>
    have first : s.monitor.firstSample := by rw [h.first, base]; rfl
    rw [measure_first (by simpa using first)]
    refine iff_of_false (fun after => ?_) (fun ok => ?_)
    · have gone := after.first
      rw [base] at gone
      cases gone
    · rw [first] at ok
      cases ok.1
  | some b =>
    have later : s.monitor.firstSample = false := by rw [h.first, base]; rfl
    obtain rfl := h.baseline b base
    rw [and_iff_right later]
    by_cases late : s.monitor.prevTime + 10 ^ 6 < now
    · rw [measure_late (by simpa using later) (by simpa using late)]
      refine iff_of_false (fun after => ?_) late.not_ge
      have moved := congrArg Prod.snd (after.baseline _ base)
      change s.monitor.prevTime = now at moved
      omega
    · rw [measure_early (by simpa using later) (by simpa using late)]
      exact iff_of_true ⟨h.activity, h.first, h.baseline⟩ (not_lt.1 late)

theorem accounts_step (inv : Invariant s) (h : Accounts s) (next : step s a = some s') :
    Accounts s' ↔ Sound s a := by
  obtain ⟨failed, rfl⟩ | ⟨residency, read, grown, rfl⟩ := step_cases inv next
  · rw [accounts_failed h, Sound, imp_iff_right failed]
  · refine iff_of_true (h.read inv grown a.drm a.now) fun failed => ?_
    rw [read] at failed
    cases failed

/-- From a card that was found on, the monitor keeps to the account throughout a run iff every
failed read comes at most 1 ms after the baseline. -/
theorem always_accounts_iff {start : GpuMonitor} {drm : Option Drm}
    (found : start.initializeCard drm = (m, true)) (moments : List Moment) :
    Transition.Always step Accounts { monitor := m } moments ↔
      Transition.Each step Sound { monitor := m } moments := by
  obtain ⟨-, first, available, activity⟩ := exists_of_initializeCard found
  have inv : Invariant { monitor := m } := by
    refine ⟨available, ?_⟩
    rintro _ ⟨⟩
  have accounts : Accounts { monitor := m } := by
    refine ⟨activity, first, ?_⟩
    rintro _ ⟨⟩
  rw [Transition.always_iff_each (fun _ _ _ => Invariant.step) (fun _ _ _ => accounts_step) inv,
    and_iff_right accounts]

section Example

/-- A card with this text in its residency file. -/
def cardWith (residency : Option String) : Drm where
  entries := [{ name := "card0".toList },
    { name := "card1".toList, gtCurFreqMhz := .readable "300\n".toList
      rc6ResidencyMs := (residency.map fun text => .readable text.toList).getD .unreadable }]
  distinct := by simp

/-- The monitor of that card. -/
def found : GpuMonitor := (({} : GpuMonitor).initializeCard (cardWith none)).1

/-- A read that fails right behind a good one. -/
theorem always_accounts_found : Transition.Always step Accounts { monitor := found }
    [⟨cardWith (some "100\n"), 0⟩, ⟨cardWith none, 10 ^ 6⟩] := by
  have available : ({} : GpuMonitor).initializeCard (some (cardWith none)) = (found, true) := rfl
  refine (always_accounts_iff available _).2 ?_
  refine Transition.each_cons.2 fun s first => ⟨fun failed => ?_, ?_⟩
  · exact absurd (congrArg Option.isSome failed) (by decide)
  · refine Transition.each_cons.2 fun _ _ => ⟨fun _ => ?_, Transition.each_nil⟩
    have baseline : (step { monitor := found } ⟨cardWith (some "100\n"), 0⟩).map
        (fun s => (s.monitor.firstSample, s.monitor.prevTime)) = some (false, 0) := by decide
    rw [first] at baseline
    obtain ⟨measured, time⟩ := Prod.mk.inj (Option.some.inj baseline)
    exact ⟨measured, by simp [time]⟩

/-- The second read fails.  The activity published after the third is 40, and should be 75. -/
theorem not_always_accounts : ¬ Transition.Always step Accounts { monitor := found }
    [⟨cardWith (some "100\n"), 0⟩, ⟨cardWith none, 10 ^ 9⟩,
      ⟨cardWith (some "600\n"), 2 * 10 ^ 9⟩] := by
  intro h
  have values : ([⟨cardWith (some "100\n"), 0⟩, ⟨cardWith none, 10 ^ 9⟩,
      ⟨cardWith (some "600\n"), 2 * 10 ^ 9⟩].foldlM step { monitor := found }).map
      (fun s => (s.monitor.metrics.activityPercent, s.account.activityPercent)) =
        some (40, 75) := by
    decide +kernel
  obtain ⟨s, run, eq⟩ := Option.map_eq_some_iff.1 values
  obtain ⟨published, due⟩ := Prod.mk.inj eq
  have activity := (h.last run).activity
  rw [published, due] at activity
  exact absurd activity (by decide)

end Example

end GpuMonitor

end SmoothDemon
