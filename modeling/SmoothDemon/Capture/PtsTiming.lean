import SmoothDemon.Capture.Deliveries
import SmoothDemon.Library.Rounding
import SmoothDemon.Library.Samples

/-!
# The timing of a capture

tests/test_capture.cpp measures the intervals between the timestamps that its callbacks are given.
Steps back are left out of the sum but not of the duration, so the two rates in its summary tell the
same iff no timestamp goes back (`summary_consistent`).  Of buffers without a header they do not, as
long as no format is announced once the first frame is there (`agree_of_run`).
-/

namespace SmoothDemon

/-- Durations are in nanoseconds. -/
structure PtsTiming where
  hasFirstPts : Bool := false
  firstPts : Int64 := 0
  lastPts : Int64 := 0
  prevPts : Int64 := 0
  minInterval : Int64 := Int64.maxValue
  maxInterval : Int64 := Int64.minValue
  ptsIntervalCount : UInt64 := 0
  totalIntervalSum : Int64 := 0

/-- The values of doubles. -/
structure PtsSummary where
  durationSec : ℚ
  fps : ℚ
  avgIntervalMs : ℚ
  minIntervalMs : ℚ
  maxIntervalMs : ℚ

namespace PtsTiming

open Rounding Samples

def countInterval (t : PtsTiming) (delta : Int64) : PtsTiming :=
  { t with
    minInterval := if delta < t.minInterval then delta else t.minInterval
    maxInterval := if t.maxInterval < delta then delta else t.maxInterval
    totalIntervalSum := t.totalIntervalSum + delta
    ptsIntervalCount := t.ptsIntervalCount + 1 }

def processPts (t : PtsTiming) (pts : Int64) : PtsTiming :=
  if t.hasFirstPts = false then
    { t with hasFirstPts := true, firstPts := pts, prevPts := pts, lastPts := pts }
  else
    let t := if t.prevPts ≤ pts ∧ 0 < pts - t.prevPts then t.countInterval (pts - t.prevPts) else t
    { t with prevPts := pts, lastPts := pts }

/-- What is printed, if there is enough of it. -/
def summary (t : PtsTiming) : Option PtsSummary :=
  if t.hasFirstPts ∧ 0 < t.ptsIntervalCount then
    let durationSec := ratio 53 (t.lastPts - t.firstPts).toInt (10 ^ 9)
    let count := double t.ptsIntervalCount.toNat
    some
      { durationSec
        fps := if 0 < durationSec then double (count / durationSec) else 0
        avgIntervalMs := double (ratio 53 t.totalIntervalSum.toInt (10 ^ 6) / count)
        minIntervalMs := ratio 53 t.minInterval.toInt (10 ^ 6)
        maxIntervalMs := ratio 53 t.maxInterval.toInt (10 ^ 6) }
  else none

/-! ### What is kept of the timestamps -/

/-- 2^18 timestamps at most, any two of them less than 2^45 ns, almost ten hours, apart: no interval
and no sum of intervals leaves its word. -/
structure Short (pts : List Int64) : Prop where
  length : pts.length ≤ 2 ^ 18
  apart : ∀ p ∈ pts, ∀ q ∈ pts, q.toInt - p.toInt < 2 ^ 45

def intervals (pts : List Int64) : List ℤ := rises (pts.map Int64.toInt)

theorem Short.subset {pts pts' : List Int64} (h : Short pts) (less : pts' <+: pts) : Short pts' :=
  ⟨less.length_le.trans h.length, fun p hp q hq => h.apart p (less.subset hp) q (less.subset hq)⟩

theorem Short.length_intervals {pts : List Int64} (h : Short pts) :
    (intervals pts).length ≤ 2 ^ 18 := by
  have fewer := length_rises_le (pts.map Int64.toInt)
  rw [List.length_map] at fewer
  exact fewer.trans h.length

theorem Short.sum_intervals {pts : List Int64} (h : Short pts) :
    0 ≤ (intervals pts).sum ∧ (intervals pts).sum < 2 ^ 63 := by
  have each : ∀ d ∈ intervals pts, d < 2 ^ 45 := by
    refine rises_lt fun p hp q hq => ?_
    obtain ⟨p, first, rfl⟩ := List.mem_map.1 hp
    obtain ⟨q, last, rfl⟩ := List.mem_map.1 hq
    exact h.apart p first q last
  have total := List.sum_le_card_nsmul _ (2 ^ 45 - 1) fun d hd => Int.le_sub_one_of_lt (each d hd)
  have few := h.length_intervals
  rw [nsmul_eq_mul] at total
  exact ⟨List.sum_nonneg fun d hd => (rises_pos d hd).le, by omega⟩

theorem toInt_sub_of_fits {a b : Int64} (lower : -2 ^ 63 ≤ a.toInt - b.toInt)
    (upper : a.toInt - b.toInt < 2 ^ 63) : (a - b).toInt = a.toInt - b.toInt := by
  rw [Int64.toInt_sub]
  exact Int.bmod_eq_of_le (by omega) (by omega)

theorem toInt_add_of_fits {a b : Int64} (lower : -2 ^ 63 ≤ a.toInt + b.toInt)
    (upper : a.toInt + b.toInt < 2 ^ 63) : (a + b).toInt = a.toInt + b.toInt := by
  rw [Int64.toInt_add]
  exact Int.bmod_eq_of_le (by omega) (by omega)

/-- The first timestamp was `x` and `xs` came behind it. -/
structure Times (t : PtsTiming) (x : Int64) (xs : List Int64) : Prop where
  hasFirstPts : t.hasFirstPts = true
  firstPts : t.firstPts = x
  lastPts : t.lastPts = xs.getLastD x
  prevPts : t.prevPts = xs.getLastD x
  minInterval : t.minInterval.toInt = (intervals (x :: xs)).foldl min (2 ^ 63 - 1)
  maxInterval : t.maxInterval.toInt = (intervals (x :: xs)).foldl max (-2 ^ 63)
  ptsIntervalCount : t.ptsIntervalCount.toNat = (intervals (x :: xs)).length
  totalIntervalSum : t.totalIntervalSum.toInt = (intervals (x :: xs)).sum

theorem times_first (x : Int64) : (processPts {} x).Times x [] :=
  ⟨rfl, rfl, rfl, rfl, rfl, rfl, rfl, rfl⟩

theorem getLastD_map_toInt (x : Int64) (xs : List Int64) :
    (xs.map Int64.toInt).getLastD x.toInt = (xs.getLastD x).toInt := by
  rw [List.getLastD_eq_getLast?, List.getLast?_map, List.getLastD_eq_getLast?, Option.getD_map]

theorem intervals_concat (x y : Int64) (xs : List Int64) : intervals (x :: (xs ++ [y])) =
    intervals (x :: xs) ++
      if (xs.getLastD x).toInt < y.toInt then [y.toInt - (xs.getLastD x).toInt] else [] := by
  rw [intervals, intervals, List.map_cons, List.map_append, List.map_singleton, rises_concat,
    getLastD_map_toInt]
  rfl

theorem sub_le_sum_intervals (x : Int64) (xs : List Int64) :
    (xs.getLastD x).toInt - x.toInt ≤ (intervals (x :: xs)).sum := by
  rw [← getLastD_map_toInt]
  exact sub_le_sum_rises _ _

/-- The intervals make up the whole way iff no timestamp goes back. -/
theorem pairwise_iff_sum_intervals (x : Int64) (xs : List Int64) :
    (x :: xs).Pairwise (· ≤ ·) ↔
      (intervals (x :: xs)).sum = (xs.getLastD x).toInt - x.toInt := by
  rw [← getLastD_map_toInt, intervals, List.map_cons, sum_rises_eq_iff, ← List.map_cons,
    List.pairwise_map]
  simp only [Int64.le_iff_toInt_le]

variable {t : PtsTiming} {x : Int64} {xs : List Int64}

theorem Times.processPts (h : t.Times x xs) (y : Int64) (short : Short (x :: (xs ++ [y]))) :
    (t.processPts y).Times x (xs ++ [y]) := by
  have last : (xs ++ [y]).getLastD x = y := by simp
  have member : xs.getLastD x ∈ x :: (xs ++ [y]) := by
    rw [← List.cons_append]
    exact List.mem_append_left _ List.getLastD_mem_cons
  have delta : (y - t.prevPts).toInt = y.toInt - (xs.getLastD x).toInt := by
    rw [h.prevPts]
    have up := short.apart _ member y (by simp)
    have down := short.apart y (by simp) _ member
    exact toInt_sub_of_fits (by omega) (by omega)
  have up : (t.prevPts ≤ y ∧ 0 < y - t.prevPts) ↔ (xs.getLastD x).toInt < y.toInt := by
    rw [Int64.lt_iff_toInt_lt, delta, Int64.le_iff_toInt_le, h.prevPts, Int64.toInt_zero]
    omega
  have running : ¬ t.hasFirstPts = false := by simp [h.hasFirstPts]
  have grown := intervals_concat x y xs
  rw [PtsTiming.processPts, if_neg running]
  simp only [up]
  split_ifs with rise
  · rw [if_pos rise, ← delta] at grown
    have fits := short.sum_intervals
    have few := short.length_intervals
    rw [grown, List.sum_append, List.sum_singleton, ← h.totalIntervalSum] at fits
    rw [grown, List.length_append, List.length_singleton, ← h.ptsIntervalCount] at few
    refine ⟨h.hasFirstPts, h.firstPts, last.symm, last.symm, ?_, ?_, ?_, ?_⟩
    · rw [grown, List.foldl_concat, ← h.minInterval, min_comm, min_def]
      show (if _ < _ then _ else _ : Int64).toInt = _
      simp only [Int64.lt_iff_toInt_lt]
      split_ifs <;> omega
    · rw [grown, List.foldl_concat, ← h.maxInterval, max_def]
      show (if _ < _ then _ else _ : Int64).toInt = _
      simp only [Int64.lt_iff_toInt_lt]
      split_ifs <;> omega
    · rw [grown, List.length_append, ← h.ptsIntervalCount]
      show (t.ptsIntervalCount + 1).toNat = _
      rw [UInt64.toNat_add, UInt64.toNat_one]
      exact Nat.mod_eq_of_lt (by omega)
    · rw [grown, List.sum_append, List.sum_singleton, ← h.totalIntervalSum]
      exact toInt_add_of_fits (by omega) fits.2
  · rw [if_neg rise, List.append_nil] at grown
    refine ⟨h.hasFirstPts, h.firstPts, last.symm, last.symm, ?_, ?_, ?_, ?_⟩
    all_goals rw [grown]
    · exact h.minInterval
    · exact h.maxInterval
    · exact h.ptsIntervalCount
    · exact h.totalIntervalSum

theorem times_foldl (x : Int64) (xs : List Int64) (short : Short (x :: xs)) :
    ((x :: xs).foldl PtsTiming.processPts {}).Times x xs := by
  induction xs using List.reverseRecOn with
  | nil => exact times_first x
  | append_singleton xs y ih =>
    have shorter : Short (x :: xs) := short.subset ⟨[y], rfl⟩
    rw [← List.cons_append, List.foldl_concat]
    exact (ih shorter).processPts y short

/-- What a summary is about: the timestamps that came first and behind it. -/
theorem times_of_summary {pts : List Int64} (short : Short pts) {out : PtsSummary}
    (shown : (pts.foldl PtsTiming.processPts {}).summary = some out) :
    ∃ x xs, pts = x :: xs ∧ intervals (x :: xs) ≠ [] ∧
      let count := double (intervals (x :: xs)).length
      out.durationSec = ratio 53 ((xs.getLastD x).toInt - x.toInt : ℤ) (10 ^ 9) ∧
      (out.fps = if 0 < out.durationSec then double (count / out.durationSec) else 0) ∧
      out.avgIntervalMs = double (ratio 53 (intervals (x :: xs)).sum (10 ^ 6) / count) ∧
      out.minIntervalMs =
        ratio 53 ((intervals (x :: xs)).foldl min (2 ^ 63 - 1) : ℤ) (10 ^ 6) ∧
      out.maxIntervalMs = ratio 53 ((intervals (x :: xs)).foldl max (-2 ^ 63) : ℤ) (10 ^ 6) := by
  cases pts with
  | nil => cases shown
  | cons x xs =>
    have times := times_foldl x xs short
    unfold summary at shown
    split_ifs at shown with enough
    obtain ⟨-, some⟩ := enough
    rw [UInt64.lt_iff_toNat_lt, times.ptsIntervalCount] at some
    have way : (((x :: xs).foldl PtsTiming.processPts {}).lastPts -
        ((x :: xs).foldl PtsTiming.processPts {}).firstPts).toInt =
          (xs.getLastD x).toInt - x.toInt := by
      rw [times.lastPts, times.firstPts]
      have member : xs.getLastD x ∈ x :: xs := List.getLastD_mem_cons
      have up := short.apart x (by simp) _ member
      have down := short.apart _ member x (by simp)
      exact toInt_sub_of_fits (by omega) (by omega)
    cases shown
    refine ⟨x, xs, rfl, List.length_pos_iff.1 some, ?_, ?_, ?_, ?_, ?_⟩
    all_goals
      simp only [way, times.ptsIntervalCount, times.totalIntervalSum, times.minInterval,
        times.maxInterval]

section Summary

variable {pts : List Int64} {out : PtsSummary}

theorem near_avg {ds : List ℤ} (nonempty : ds ≠ []) (positive : ∀ d ∈ ds, 0 < d) :
    Near 53 4 (double (ratio 53 ds.sum (10 ^ 6) / double ds.length))
      ((ds.sum : ℚ) / 10 ^ 6 / ds.length) := by
  have total : (0 : ℚ) ≤ ds.sum := Int.cast_nonneg (List.sum_nonneg fun d hd => (positive d hd).le)
  have length : (0 : ℚ) < ds.length := Nat.cast_pos.2 (List.length_pos_iff.2 nonempty)
  have sum : Near 53 2 (ratio 53 ds.sum (10 ^ 6)) (ds.sum / 10 ^ 6) :=
    near_ratio (by decide) total (by norm_num)
  have count : Near 53 1 (double ds.length) ds.length := near_round (by decide) length.le
  have whole : (0 : ℚ) ≤ ds.sum / 10 ^ 6 := by positivity
  have quotient := sum.div count (count.pos length) length whole
  have nonneg := quotient.nonneg (div_nonneg whole length.le)
  exact (near_round (by decide) nonneg).trans quotient

/-- Six roundings: four of the average and two of each extreme. -/
theorem avg_mem (short : Short pts)
    (shown : (pts.foldl PtsTiming.processPts {}).summary = some out) :
    out.minIntervalMs ≤ out.avgIntervalMs * slack 53 ^ 6 ∧
      out.avgIntervalMs ≤ out.maxIntervalMs * slack 53 ^ 6 := by
  obtain ⟨x, xs, rfl, nonempty, -, -, avg, least, greatest⟩ := times_of_summary short shown
  have length : (0 : ℚ) < (intervals (x :: xs)).length :=
    Nat.cast_pos.2 (List.length_pos_iff.2 nonempty)
  have near := near_avg nonempty rises_pos
  rw [← avg] at near
  have lower := List.card_nsmul_le_sum (intervals (x :: xs)) _ fun d h =>
    (isLeast_foldl_min (2 ^ 63 - 1) _).2 (List.mem_cons_of_mem _ h)
  have upper := List.sum_le_card_nsmul (intervals (x :: xs)) _ fun d h =>
    (isGreatest_foldl_max (-2 ^ 63) _).2 (List.mem_cons_of_mem _ h)
  have minPos : 0 < (intervals (x :: xs)).foldl min (2 ^ 63 - 1) := by
    rcases List.mem_cons.1 (isLeast_foldl_min (2 ^ 63 - 1) (intervals (x :: xs))).1 with eq | mem
    · rw [eq]
      decide
    · exact rises_pos _ mem
  have maxPos : 0 < (intervals (x :: xs)).foldl max (-2 ^ 63) := by
    obtain ⟨d, ds, eq⟩ := List.exists_cons_of_ne_nil nonempty
    have member : d ∈ intervals (x :: xs) := eq ▸ List.mem_cons_self
    exact (rises_pos d member).trans_le
      ((isGreatest_foldl_max (-2 ^ 63) _).2 (List.mem_cons_of_mem _ member))
  rw [nsmul_eq_mul] at lower upper
  constructor
  · have extreme : Near 53 2 out.minIntervalMs
        (((intervals (x :: xs)).foldl min (2 ^ 63 - 1) : ℤ) / 10 ^ 6) :=
      least ▸ near_ratio (by decide) (Int.cast_nonneg minPos.le) (by norm_num)
    have below : (((intervals (x :: xs)).foldl min (2 ^ 63 - 1) : ℤ) : ℚ) / 10 ^ 6 ≤
        (intervals (x :: xs)).sum / 10 ^ 6 / (intervals (x :: xs)).length := by
      rw [div_right_comm, div_le_div_iff_of_pos_right (by norm_num), le_div_iff₀' length]
      exact_mod_cast lower
    have bound := extreme.le below near.symm
    exact bound
  · have extreme : Near 53 2 out.maxIntervalMs
        (((intervals (x :: xs)).foldl max (-2 ^ 63) : ℤ) / 10 ^ 6) :=
      greatest ▸ near_ratio (by decide) (Int.cast_nonneg maxPos.le) (by norm_num)
    have above : ((intervals (x :: xs)).sum : ℚ) / 10 ^ 6 / (intervals (x :: xs)).length ≤
        ((intervals (x :: xs)).foldl max (-2 ^ 63) : ℤ) / 10 ^ 6 := by
      rw [div_right_comm, div_le_div_iff_of_pos_right (by norm_num), div_le_iff₀' length]
      exact_mod_cast upper
    have bound := near.le above extreme.symm
    exact bound

/-- Of a capture of less than 2^45 ns one nanosecond is more than the roundings of both rates. -/
theorem slack_lt : slack 53 ^ (8 + 8) < 1 + 1 / 2 ^ 45 := by
  unfold slack
  norm_num

theorem near_fps_mul_avg {ds : List ℤ} (nonempty : ds ≠ []) (positive : ∀ d ∈ ds, 0 < d) {way : ℚ}
    (ahead : 0 < way) : Near 53 8
      (double (double ds.length / ratio 53 way (10 ^ 9)) *
        double (ratio 53 ds.sum (10 ^ 6) / double ds.length))
      (1000 * (ds.sum / way)) := by
  have length : (0 : ℚ) < ds.length := Nat.cast_pos.2 (List.length_pos_iff.2 nonempty)
  have total : (0 : ℚ) < ds.sum := Int.cast_pos.2 (List.sum_pos _ positive nonempty)
  have count : Near 53 1 (double ds.length) ds.length := near_round (by decide) length.le
  have duration : Near 53 2 (ratio 53 way (10 ^ 9)) (way / 10 ^ 9) :=
    near_ratio (by decide) ahead.le (by norm_num)
  have seconds : 0 < way / 10 ^ 9 := by positivity
  have quotient := count.div duration (duration.pos seconds) seconds length.le
  have exactly : (0 : ℚ) < ds.length / (way / 10 ^ 9) := by positivity
  have fps := (near_round (p := 53) (by decide) (quotient.pos exactly).le).trans quotient
  have avg := near_avg nonempty positive
  have product := fps.mul avg (avg.nonneg (by positivity)) exactly.le
  have value : (ds.length : ℚ) / (way / 10 ^ 9) * (ds.sum / 10 ^ 6 / ds.length) =
      1000 * (ds.sum / way) := by
    field_simp
    norm_num
  exact value ▸ product

theorem fps_mul_avg_iff (short : Short pts)
    (shown : (pts.foldl PtsTiming.processPts {}).summary = some out) :
    Near 53 8 (out.fps * out.avgIntervalMs) 1000 ↔ pts.Pairwise (· ≤ ·) := by
  obtain ⟨x, xs, rfl, nonempty, duration, fps, avg, -, -⟩ := times_of_summary short shown
  have sorted := pairwise_iff_sum_intervals x xs
  have far : (xs.getLastD x).toInt - x.toInt < 2 ^ 45 :=
    short.apart x (by simp) _ List.getLastD_mem_cons
  have covered := sub_le_sum_intervals x xs
  rw [sorted, fps, avg, duration]
  generalize (xs.getLastD x).toInt - x.toInt = way at far covered ⊢
  split_ifs with forward
  · rw [ratio_pos_iff (by decide) (by norm_num)] at forward
    have near := near_fps_mul_avg nonempty rises_pos forward
    have ahead : (0 : ℚ) < way := forward
    constructor
    · intro close
      -- one nanosecond more on the way would be seen
      by_contra apart
      have more : way + 1 ≤ (intervals (x :: xs)).sum :=
        lt_of_le_of_ne covered (Ne.symm apart)
      have bound := near.symm.le le_rfl close
      rw [mul_le_mul_iff_right₀ (by norm_num)] at bound
      have within := bound.trans_lt slack_lt
      have seen : (1 : ℚ) + 1 / 2 ^ 45 < (intervals (x :: xs)).sum / way := by
        calc (1 : ℚ) + 1 / 2 ^ 45 < 1 + 1 / way := by
              refine add_lt_add_right (one_div_lt_one_div_of_lt ahead ?_) 1
              exact_mod_cast far
          _ = (way + 1) / way := by rw [add_div, div_self ahead.ne']
          _ ≤ (intervals (x :: xs)).sum / way :=
              div_le_div_of_nonneg_right (by exact_mod_cast more) ahead.le
      exact absurd within (not_lt.2 seen.le)
    · intro whole
      have one : ((intervals (x :: xs)).sum : ℚ) / way = 1 := by rw [whole, div_self ahead.ne']
      rwa [one, mul_one] at near
  · refine iff_of_false (fun close => ?_) fun whole => ?_
    · have bound := close.2
      rw [zero_mul, zero_mul] at bound
      exact absurd bound (by norm_num)
    · rw [ratio_pos_iff (by decide) (by norm_num), Int.cast_pos, ← whole] at forward
      exact forward (List.sum_pos _ rises_pos nonempty)

end Summary

/-- The average lies between the extremes, and it is the reciprocal of the rate iff no timestamp is
below an earlier one, up to the roundings of doubles. -/
theorem summary_consistent (pts : List Int64) (short : Short pts) {out : PtsSummary}
    (shown : (pts.foldl PtsTiming.processPts {}).summary = some out) :
    out.minIntervalMs ≤ out.avgIntervalMs * slack 53 ^ 6 ∧
      out.avgIntervalMs ≤ out.maxIntervalMs * slack 53 ^ 6 ∧
      (Near 53 8 (out.fps * out.avgIntervalMs) 1000 ↔ pts.Pairwise (· ≤ ·)) := by
  obtain ⟨lower, upper⟩ := avg_mem short shown
  exact ⟨lower, upper, fps_mul_avg_iff short shown⟩

theorem summary_consistent_stepBack : ∃ out : PtsSummary,
    (([10, 30, 20, 50] : List Int64).foldl PtsTiming.processPts {}).summary = some out ∧
      out.minIntervalMs ≤ out.avgIntervalMs * slack 53 ^ 6 ∧
      out.avgIntervalMs ≤ out.maxIntervalMs * slack 53 ^ 6 ∧
      (Near 53 8 (out.fps * out.avgIntervalMs) 1000 ↔
        ([10, 30, 20, 50] : List Int64).Pairwise (· ≤ ·)) := by
  have short : Short [10, 30, 20, 50] := ⟨by decide, by simp⟩
  exact ⟨_, rfl, summary_consistent _ short rfl⟩

end PtsTiming

/-! ### The timestamps of a run -/

namespace PipeWireCapture

/-- The capture of the test, with what its callbacks measure and the timestamps they were given. -/
structure Recording where
  capture : State := {}
  timing : PtsTiming := {}
  stamps : List Int64 := []

namespace Recording

def hand (r : Recording) (frame : Option Frame) : Recording :=
  match frame with
  | none => r
  | some frame =>
    { r with timing := r.timing.processPts frame.pts, stamps := r.stamps ++ [frame.pts] }

def step (r : Recording) (a : Action) : Option Recording :=
  (r.capture.step a).map fun s' => { r with capture := s' }.hand (r.capture.handed s')

end Recording

/-- The reading of the clock that comes with an action. -/
def Action.clock : Action → Option Int64
  | .loop (.paramChanged _ _ now) => some now
  | .loop (.dispatch now) => some now
  | _ => none

namespace Recording

/-- The clock shows `c` or less so far, no buffer has a header, and the timestamps count up from the
format announced last. -/
structure Ordered (c : Int64) (r : Recording) : Prop where
  start_nonneg : 0 ≤ r.capture.impl.startTime
  start_le : r.capture.impl.startTime ≤ c
  bare : ∀ b buf, r.capture.thread = .inside (.dispatch b buf) → buf.header = none
  timing : r.timing = r.stamps.foldl PtsTiming.processPts {}
  sorted : r.stamps.Pairwise (· ≤ ·)
  below : ∀ p ∈ r.stamps, p.toInt ≤ c.toInt - r.capture.impl.startTime.toInt

theorem ordered_init : Ordered 0 {} :=
  ⟨Int64.le_refl 0, Int64.le_refl 0, nofun, rfl, .nil, nofun⟩

variable {c : Int64} {r r' : Recording} {a : Action}

theorem handed_of_serves {s s' : State} (served : State.Serves s a s'.frames) :
    s.handed s' = none ∨ ∃ now b buf frame done, a = .loop (.dispatch now) ∧
      s.thread = .inside (.dispatch b buf) ∧
      Builds s.impl.format s.impl.startTime now buf done frame ∧ s.handed s' = some frame := by
  cases served with
  | keep eq held unserved => exact .inl (State.handed_of_le (by rw [eq]))
  | give now b buf frame done act inside builds same eq =>
    exact .inr ⟨now, b, buf, frame, done, act, inside, builds, State.handed_of_cons eq⟩
  | take i frame act there eq =>
    refine .inl (State.handed_of_le ?_)
    rw [eq]
    exact List.length_eraseIdx_le ..

theorem clock_of_announced {param : SpaParam} {now : Int64} (h : a.announced = some (param, now)) :
    a.clock = some now := by
  obtain ⟨parsed, -⟩ := Option.filter_eq_some_iff.1 h
  unfold Action.parsed at parsed
  split at parsed
  · split_ifs at parsed
    cases parsed
    rfl
  · cases parsed

theorem bare_step {s s' : State} (taken : s.step a = some s')
    (bare : ∀ b buf, s.thread = .inside (.dispatch b buf) → buf.header = none)
    (headerless : ∀ d ∈ a.dequeued, d.2.header = none) (b : Buffer) (buf : SpaBuffer)
    (waits : s'.thread = .inside (.dispatch b buf)) : buf.header = none := by
  rcases State.dequeued_step taken waits with ⟨-, waited⟩ | dequeued
  · exact bare b buf waited
  · exact headerless _ dequeued

theorem Ordered.step (h : r.Ordered c) (taken : r.step a = some r')
    (clock : ∀ now ∈ a.clock, c ≤ now) (headerless : ∀ d ∈ a.dequeued, d.2.header = none)
    (settled : a.announced = none ∨ r.stamps = []) : r'.Ordered (a.clock.getD c) := by
  obtain ⟨s', moved, rfl⟩ := Option.map_eq_some_iff.1 taken
  have started := (State.negotiates_step moved).startTime
  have later : c ≤ a.clock.getD c := by
    cases now : a.clock with
    | none => exact Int64.le_refl c
    | some now' => exact clock now' now
  have bare := bare_step moved h.bare headerless
  have served := handed_of_serves (State.serves_step moved)
  cases announced : a.announced with
  | none =>
    have same : s'.impl.startTime = r.capture.impl.startTime := by
      rw [started, announced]
      rfl
    have grown := Int64.le_iff_toInt_le.1 later
    have nonneg : 0 ≤ s'.impl.startTime := same ▸ h.start_nonneg
    have reached : s'.impl.startTime ≤ a.clock.getD c := same ▸ Int64.le_trans h.start_le later
    rcases served with none | ⟨now, b, buf, frame, done, act, inside, builds, given⟩
    · rw [none]
      refine ⟨nonneg, reached, bare, h.timing, h.sorted, fun p hp => ?_⟩
      show p.toInt ≤ _ - s'.impl.startTime.toInt
      rw [same]
      exact (h.below p hp).trans (Int.sub_le_sub_right grown _)
    · have reading : a.clock.getD c = now := by
        rw [act]
        rfl
      rw [reading] at grown reached ⊢
      have stamp : frame.pts.toInt = now.toInt - s'.impl.startTime.toInt := by
        rw [builds.size_pts.2.1, h.bare b buf inside, Option.getD_none, ← same]
        exact Int64.toInt_sub_of_le now _ nonneg reached
      have earlier : ∀ p ∈ r.stamps, p.toInt ≤ now.toInt - s'.impl.startTime.toInt := fun p hp => by
        rw [same]
        exact (h.below p hp).trans (Int.sub_le_sub_right grown _)
      rw [given]
      refine ⟨nonneg, reached, bare, ?_, ?_, ?_⟩
      · show r.timing.processPts frame.pts = (r.stamps ++ [frame.pts]).foldl _ {}
        rw [List.foldl_concat, ← h.timing]
      · refine List.pairwise_append.2 ⟨h.sorted, List.pairwise_singleton .., fun p hp q hq => ?_⟩
        rw [List.mem_singleton.1 hq, Int64.le_iff_toInt_le, stamp]
        exact earlier p hp
      · intro p hp
        rcases List.mem_append.1 hp with old | last
        · exact earlier p old
        · rw [List.mem_singleton.1 last, stamp]
          exact le_rfl
  | some format =>
    obtain ⟨param, now⟩ := format
    have reading : a.clock.getD c = now := by
      rw [clock_of_announced announced]
      rfl
    have start : s'.impl.startTime = now := by
      rw [started, announced]
      rfl
    have unseen : r.stamps = [] := settled.resolve_left (by simp [announced])
    rw [reading] at later ⊢
    have nonneg : 0 ≤ s'.impl.startTime :=
      start ▸ Int64.le_trans h.start_nonneg (Int64.le_trans h.start_le later)
    have reached : s'.impl.startTime ≤ now := start ▸ Int64.le_refl now
    rcases served with none | ⟨now, b, buf, frame, done, rfl, inside, builds, given⟩
    · rw [none]
      exact ⟨nonneg, reached, bare, h.timing, h.sorted, fun p hp => by rw [unseen] at hp; cases hp⟩
    · cases announced

theorem ordered_run {as : List Action} {r t : Recording} (h : r.Ordered c)
    (run : Transition.Run step r as t)
    (clock : (c :: as.filterMap Action.clock).Pairwise (· ≤ ·))
    (headerless : ∀ a ∈ as, ∀ d ∈ a.dequeued, d.2.header = none)
    (settled : Transition.Each step
      (fun r a => a.announced = none ∨ r.stamps = []) r as) :
    ∃ c', t.Ordered c' := by
  induction as generalizing c r with
  | nil =>
    obtain rfl := Transition.run_nil.1 run
    exact ⟨c, h⟩
  | cons a as ih =>
    obtain ⟨r', first, rest⟩ := Transition.run_cons.1 run
    obtain ⟨here, later⟩ := Transition.each_cons.1 settled r' first
    obtain ⟨bare, bares⟩ := List.forall_mem_cons.1 headerless
    obtain ⟨above, ordered⟩ := List.pairwise_cons.1 clock
    have next := h.step first (fun now read => above now ?_) bare here
    swap
    · exact List.mem_filterMap.2 ⟨a, List.mem_cons_self, read⟩
    refine ih next rest ?_ bares later
    cases read : a.clock with
    | none =>
      rw [List.filterMap_cons_none read] at clock
      exact clock
    | some now =>
      rw [List.filterMap_cons_some read] at ordered
      exact ordered

/-- In every run of a capture of buffers without headers whose clock never goes back, if no format
is announced once a frame was given away, the timestamps never go back, and the two rates of the
summary tell the same. -/
theorem agree_of_run (as : List Action) (t : Recording) (run : Transition.Run step {} as t)
    (clock : (0 :: as.filterMap Action.clock).Pairwise (· ≤ ·))
    (headerless : ∀ d ∈ as.filterMap Action.dequeued, d.2.header = none)
    (settled : Transition.Each step (fun r a => a.announced = none ∨ r.stamps = []) {} as) :
    t.stamps.Pairwise (· ≤ ·) ∧ (PtsTiming.Short t.stamps → ∀ out ∈ t.timing.summary,
      Rounding.Near 53 8 (out.fps * out.avgIntervalMs) 1000) := by
  have bare : ∀ a ∈ as, ∀ d ∈ a.dequeued, d.2.header = none := fun a ha d hd =>
    headerless d (List.mem_filterMap.2 ⟨a, ha, hd⟩)
  obtain ⟨c, ordered⟩ := ordered_run ordered_init run clock bare settled
  refine ⟨ordered.sorted, fun short out shown => ?_⟩
  rw [ordered.timing] at shown
  exact (PtsTiming.fps_mul_avg_iff short shown).2 ordered.sorted

/-- Two buffers, 20 ns apart. -/
def twoBuffers : List Action :=
  [.loop .callbackReturns, .loop .process, .loop (.getState .streaming),
    .loop (.dequeueBuffer (some (1, State.dmaBufBuffer))), .loop (.dispatch 140)]

theorem settled_twoBuffers : Transition.Each step
    (fun r a => a.announced = none ∨ r.stamps = []) {}
      (State.firstStart ++ State.firstBuffer ++ twoBuffers) := by
  refine Transition.each_append.2 ⟨Transition.each_append.2 ⟨?_, ?_⟩, ?_⟩
  · refine Transition.each_of_forall fun a ha t => .inl ?_
    simp only [State.firstStart, List.mem_cons, List.mem_replicate] at ha
    rcases ha with rfl | rfl | ⟨-, rfl⟩ <;> rfl
  · rintro t ⟨⟩
    refine Transition.each_cons.2 ?_
    rintro _ ⟨⟩
    refine ⟨.inl rfl, Transition.each_cons.2 ?_⟩
    rintro _ ⟨⟩
    refine ⟨.inr rfl, Transition.each_of_forall fun a ha t => .inl ?_⟩
    simp only [List.mem_cons, List.not_mem_nil, or_false] at ha
    rcases ha with rfl | rfl | rfl | rfl <;> rfl
  · refine fun t _ => Transition.each_of_forall fun a ha t => .inl ?_
    simp only [twoBuffers, List.mem_cons, List.not_mem_nil, or_false] at ha
    rcases ha with rfl | rfl | rfl | rfl | rfl <;> rfl

theorem agree_of_run_twoBuffers : ∃ t : Recording, ∃ out : PtsSummary,
    Transition.Run step {} (State.firstStart ++ State.firstBuffer ++ twoBuffers) t ∧
      t.stamps = [20, 40] ∧ t.timing.summary = some out ∧
        Rounding.Near 53 8 (out.fps * out.avgIntervalMs) 1000 := by
  have run : Transition.Run step {} (State.firstStart ++ State.firstBuffer ++ twoBuffers) _ := rfl
  have headerless : ∀ d ∈ (State.firstStart ++ State.firstBuffer ++ twoBuffers).filterMap
      Action.dequeued, d.2.header = none := by decide
  have short : PtsTiming.Short [20, 40] := ⟨by decide, by simp⟩
  exact ⟨_, _, run, rfl, rfl,
    (agree_of_run _ _ run (by decide) headerless settled_twoBuffers).2 short _ rfl⟩

end Recording

end PipeWireCapture

end SmoothDemon
