import Mathlib.Data.List.ReduceOption
import SmoothDemon.Library.Run
import SmoothDemon.Monitor.ProcStat

/-!
# The CPU monitor

`CpuMonitor::sample` (src/cpu.cpp) over a run of /proc/stat contents.  The monitor follows the last
good snapshot whatever comes between two of them (`CpuMonitor.Follows`), so its metrics are the
percentages between the last two good ones (`CpuMonitor.sample_run`).  They are consistent
throughout a run iff at each good sample the counters moved coherently from the one before
(`CpuMonitor.always_consistent_iff`).
-/

namespace SmoothDemon

/-- The monitor of a machine with `n` cores. -/
structure CpuMonitor (n : ℕ) where
  firstSample : Bool := true
  prevAggregate : CpuSample := {}
  prevCores : Vector CpuSample n := .replicate n {}
  currAggregate : CpuMetrics := {}
  currCores : Vector CpuMetrics n := .replicate n {}

namespace CpuMonitor

variable {n : ℕ}

/-- The part of `sample` behind the loop. -/
def publish (m : CpuMonitor n) (aggregate : CpuSample) (cores : Vector CpuSample n) :
    CpuMonitor n :=
  if m.firstSample then
    { firstSample := false
      prevAggregate := aggregate
      prevCores := cores
      currAggregate := {}
      currCores := .replicate n {} }
  else
    { m with
      currAggregate := calculateMetrics (calculateDelta m.prevAggregate aggregate)
      currCores := Vector.zipWith (fun prev curr => calculateMetrics (calculateDelta prev curr))
        m.prevCores cores
      prevAggregate := aggregate
      prevCores := cores }

/-- `content` is what /proc/stat reads, `none` where it cannot be opened. -/
def sample (m : CpuMonitor n) (content : Option (List Char)) : CpuMonitor n × Bool :=
  match content with
  | none => (m, false)
  | some text =>
    let r := readStat n text
    if r.aggregateSeen then (m.publish r.aggregate r.cores, true) else (m, false)

/-- The monitor after samples of these contents. -/
def run (n : ℕ) (contents : List (Option (List Char))) : CpuMonitor n :=
  contents.foldl (fun m content => (m.sample content).1) {}

/-! ### Exact percentages -/

/-- A content is bad, or shows a snapshot. -/
inductive Reads : Option (List Char) → Option Snapshot → Prop
  | unreadable : Reads none none
  | noAggregate {text : List Char}
      (missing : ∀ line ∈ Text.lines text, ¬ ['c', 'p', 'u', ' '] <+: line) : Reads (some text) none
  | good {text : List Char} {s : Snapshot} (shown : s.Renders text) : Reads (some text) (some s)

/-- The monitor holds the last good snapshot. -/
structure Follows (m : CpuMonitor n) (last : Option Snapshot) : Prop where
  first : m.firstSample = last.isNone
  aggregate : ∀ s ∈ last, m.prevAggregate = s.aggregate
  cores : ∀ s ∈ last, ∀ k (hk : k < n), m.prevCores[k] = s.core k

theorem sample_bad {content : Option (List Char)} (h : Reads content none) (m : CpuMonitor n) :
    m.sample content = (m, false) := by
  cases h with
  | unreadable => rfl
  | noAggregate missing =>
    have unseen : (readStat n _).aggregateSeen = false :=
      StatRead.aggregateSeen_readLines missing {}
    rw [sample, if_neg (by simp [unseen])]

theorem sample_good {s : Snapshot} {text : List Char} (h : s.Renders text) (m : CpuMonitor n) :
    ∃ cores : Vector CpuSample n, (∀ k (hk : k < n), cores[k] = s.core k) ∧
      m.sample (some text) = (m.publish s.aggregate cores, true) := by
  obtain ⟨seen, aggregate, cores⟩ := readStat_renders (n := n) h
  refine ⟨(readStat n text).cores, cores, ?_⟩
  rw [sample, if_pos seen, aggregate]

@[simp] theorem firstSample_publish (m : CpuMonitor n) (a : CpuSample) (c : Vector CpuSample n) :
    (m.publish a c).firstSample = false := by
  unfold publish
  split_ifs with first
  · rfl
  · exact Bool.eq_false_iff.2 first

@[simp] theorem prevAggregate_publish (m : CpuMonitor n) (a : CpuSample) (c : Vector CpuSample n) :
    (m.publish a c).prevAggregate = a := by
  unfold publish
  split_ifs <;> rfl

@[simp] theorem prevCores_publish (m : CpuMonitor n) (a : CpuSample) (c : Vector CpuSample n) :
    (m.publish a c).prevCores = c := by
  unfold publish
  split_ifs <;> rfl

theorem Follows.sample {m : CpuMonitor n} {last : Option Snapshot} (h : m.Follows last)
    {content : Option (List Char)} {snapshot : Option Snapshot} (reads : Reads content snapshot) :
    (m.sample content).1.Follows (snapshot.or last) := by
  cases snapshot with
  | none =>
    rw [sample_bad reads]
    exact h
  | some s =>
    cases reads with
    | good shown =>
      obtain ⟨cores, same, eq⟩ := sample_good shown m
      rw [eq]
      constructor
      · simp
      · rintro s ⟨⟩
        simp
      · rintro s ⟨⟩ k hk
        simpa using same k hk

theorem Follows.foldl {contents : List (Option (List Char))} {snapshots : List (Option Snapshot)}
    (reads : List.Forall₂ Reads contents snapshots) {m : CpuMonitor n} {last : Option Snapshot}
    (h : m.Follows last) : (contents.foldl (fun m content => (m.sample content).1) m).Follows
      (snapshots.reduceOption.getLast?.or last) := by
  induction reads generalizing m last with
  | nil => exact h
  | @cons content snapshot contents snapshots first rest ih =>
    have next := ih (h.sample first)
    cases snapshot with
    | none => exact next
    | some s =>
      have newer : ∀ l : Option Snapshot, (some (l.getD s)).or last = l.or ((some s).or last) := by
        intro l
        cases l <;> rfl
      rw [List.reduceOption_cons_of_some, List.getLast?_cons, newer]
      exact next

theorem run_follows {contents : List (Option (List Char))} {snapshots : List (Option Snapshot)}
    (reads : List.Forall₂ Reads contents snapshots) :
    (run n contents).Follows snapshots.reduceOption.getLast? := by
  have start : Follows ({} : CpuMonitor n) none := by
    constructor <;> simp
  have follows := start.foldl reads
  rwa [Option.or_none] at follows

/-- The metrics are the percentages of what passed between two snapshots. -/
structure Exact (m : CpuMetrics) (prev curr : CpuSample) : Prop where
  eq : m = CpuSample.percentages prev curr
  busy : m.userPercent + m.systemPercent ≤ m.totalPercent
  idle : m.totalPercent + m.iowaitPercent ≤ 100

theorem exact_calculateMetrics {prev curr : CpuSample} (h : prev.Advances curr) :
    Exact (calculateMetrics (calculateDelta prev curr)) prev curr := by
  rw [CpuSample.calculateMetrics_delta h]
  exact ⟨rfl, (CpuSample.percentages_le h).1.busy, (CpuSample.percentages_le h).2⟩

/-- Over any run of contents: the next bad one changes nothing; the next good one is stored and,
where the counters advance from the last good one, gives the exact percentages. -/
theorem sample_run {contents : List (Option (List Char))} {snapshots : List (Option Snapshot)}
    (reads : List.Forall₂ Reads contents snapshots) :
    (∀ content, Reads content none → (run n contents).sample content = (run n contents, false)) ∧
      ∀ text (s : Snapshot), s.Renders text →
        ∃ after, (run n contents).sample (some text) = (after, true) ∧
        after.prevAggregate = s.aggregate ∧ (∀ k (hk : k < n), after.prevCores[k] = s.core k) ∧
        ∀ prev ∈ snapshots.reduceOption.getLast?,
          (prev.aggregate.Advances s.aggregate →
            Exact after.currAggregate prev.aggregate s.aggregate) ∧
          ∀ k (hk : k < n), (prev.core k).Advances (s.core k) →
            Exact after.currCores[k] (prev.core k) (s.core k) := by
  refine ⟨fun content bad => sample_bad bad _, fun text s shown => ?_⟩
  obtain ⟨cores, same, eq⟩ := sample_good shown (run n contents)
  refine ⟨_, eq, prevAggregate_publish .., ?_, fun prev hp => ?_⟩
  · simpa using same
  · have follows := run_follows (n := n) reads
    have second : ¬ (run n contents).firstSample := by
      rw [follows.first, Option.mem_def.1 hp]
      exact Bool.false_ne_true
    rw [publish, if_neg second, follows.aggregate prev hp]
    refine ⟨exact_calculateMetrics, fun k hk advances => ?_⟩
    rw [Vector.getElem_zipWith, follows.cores prev hp k hk, same k hk]
    exact exact_calculateMetrics advances

section Example

def quietSnapshot : Snapshot where
  aggregate := { user := 100, system := 50, idle := 1000, iowait := 10 }
  cores := [(0, { user := 100, system := 50, idle := 1000, iowait := 10 })]
  distinct := by decide

def busySnapshot : Snapshot where
  aggregate := { user := 130, system := 70, idle := 1040, iowait := 20 }
  cores := [(0, { user := 130, system := 70, idle := 1040, iowait := 20 })]
  distinct := by decide

theorem sample_run_busy : ∃ after : CpuMonitor 1,
    (run 1 [some quietSnapshot.text, none]).sample (some busySnapshot.text) = (after, true) ∧
      after.currAggregate =
        { totalPercent := 50, userPercent := 30, systemPercent := 20, iowaitPercent := 10 } := by
  have reads : List.Forall₂ Reads [some quietSnapshot.text, none] [some quietSnapshot, none] :=
    .cons (.good quietSnapshot.renders_text) (.cons .unreadable .nil)
  obtain ⟨after, eq, -, -, metrics⟩ :=
    (sample_run (n := 1) reads).2 busySnapshot.text busySnapshot busySnapshot.renders_text
  refine ⟨after, eq, ?_⟩
  have advances : quietSnapshot.aggregate.Advances busySnapshot.aggregate := by
    constructor <;> decide
  rw [((metrics quietSnapshot rfl).1 advances).eq]
  simp [CpuSample.percentages, CpuSample.ticks, quietSnapshot, busySnapshot]
  norm_num

end Example

/-! ### Consistent percentages -/

/-- What is published is consistent. -/
structure Consistent (m : CpuMonitor n) : Prop where
  aggregate : m.currAggregate.Consistent
  cores : ∀ k (hk : k < n), m.currCores[k].Consistent

def step (m : CpuMonitor n) (content : Option (List Char)) : Option (CpuMonitor n) :=
  some (m.sample content).1

/-- A first sample, a failed one, or one whose counters moved coherently since the last. -/
def Coherent (m : CpuMonitor n) (content : Option (List Char)) : Prop :=
  ∀ text ∈ content, (readStat n text).aggregateSeen → m.firstSample = false →
    m.prevAggregate.Coherent (readStat n text).aggregate ∧
      ∀ k (hk : k < n), m.prevCores[k].Coherent (readStat n text).cores[k]

theorem CpuMetrics.consistent_zero : ({} : CpuMetrics).Consistent :=
  ⟨by norm_num, by norm_num⟩

theorem consistent_sample {m : CpuMonitor n} {content : Option (List Char)} (h : m.Consistent) :
    (m.sample content).1.Consistent ↔ m.Coherent content := by
  cases content with
  | none =>
    refine iff_of_true h fun text ht => ?_
    cases ht
  | some text =>
    by_cases seen : (readStat n text).aggregateSeen
    · rw [sample, if_pos seen]
      by_cases first : m.firstSample
      · rw [publish, if_pos first]
        refine iff_of_true ⟨CpuMetrics.consistent_zero, fun k hk => ?_⟩ ?_
        · rw [Vector.getElem_replicate]
          exact CpuMetrics.consistent_zero
        · intro text _ _ later
          rw [later] at first
          exact absurd first Bool.false_ne_true
      · rw [publish, if_neg first]
        constructor
        · rintro ⟨aggregate, cores⟩ _ ⟨⟩ - -
          refine ⟨CpuSample.consistent_iff.1 aggregate, fun k hk => CpuSample.consistent_iff.1 ?_⟩
          have published := cores k hk
          rwa [Vector.getElem_zipWith] at published
        · intro coherent
          obtain ⟨aggregate, cores⟩ := coherent text rfl seen (Bool.eq_false_iff.2 first)
          refine ⟨CpuSample.consistent_iff.2 aggregate, fun k hk => ?_⟩
          rw [Vector.getElem_zipWith]
          exact CpuSample.consistent_iff.2 (cores k hk)
    · rw [sample, if_neg seen]
      refine iff_of_true h ?_
      rintro _ ⟨⟩ seen' -
      exact absurd seen' seen

/-- The published percentages are consistent throughout a run iff every sample is coherent. -/
theorem always_consistent_iff {contents : List (Option (List Char))} :
    Transition.Always step Consistent ({} : CpuMonitor n) contents ↔
      Transition.Each step Coherent ({} : CpuMonitor n) contents := by
  have start : Consistent ({} : CpuMonitor n) := by
    refine ⟨CpuMetrics.consistent_zero, fun k hk => ?_⟩
    rw [Vector.getElem_replicate]
    exact CpuMetrics.consistent_zero
  rw [Transition.always_iff_each (I := fun _ => True) (P := Consistent)
    (fun _ _ _ _ _ => trivial) ?_ trivial]
  · exact and_iff_right start
  · rintro m content _ - h ⟨⟩
    exact consistent_sample h

section Example

def beforeSnapshot : Snapshot where
  aggregate := { user := 100, system := 100, idle := 1000, iowait := 50 }
  cores := []
  distinct := .nil

/-- The iowait counter went back by 10. -/
def afterSnapshot : Snapshot where
  aggregate := { user := 110, system := 110, idle := 1100, iowait := 40 }
  cores := []
  distinct := .nil

theorem not_always_consistent : ¬ Transition.Always step Consistent ({} : CpuMonitor 1)
    [some beforeSnapshot.text, some afterSnapshot.text] := by
  intro h
  have first : Transition.Run step ({} : CpuMonitor 1) [some beforeSnapshot.text]
      (run 1 [some beforeSnapshot.text]) := rfl
  have second : Transition.Run step ({} : CpuMonitor 1)
      [some beforeSnapshot.text, some afterSnapshot.text]
      ((run 1 [some beforeSnapshot.text]).sample (some afterSnapshot.text)).1 := rfl
  have follows : (run 1 [some beforeSnapshot.text]).Follows (some beforeSnapshot) :=
    run_follows (.cons (.good beforeSnapshot.renders_text) .nil)
  obtain ⟨seen, aggregate, -⟩ := readStat_renders (n := 1) afterSnapshot.renders_text
  have coherent :=
    (consistent_sample (h _ _ ⟨_, rfl⟩ first)).1 (h.last second) _ rfl seen follows.first
  rw [follows.aggregate _ rfl, aggregate] at coherent
  exact absurd coherent.1 (by decide)

end Example

end CpuMonitor

end SmoothDemon
