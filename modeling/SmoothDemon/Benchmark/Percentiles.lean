import SmoothDemon.Benchmark.Reference
import SmoothDemon.Library.Ranks

/-!
# Percentiles

`ComputeStats` takes the rank of a percentile, which counts from one, as an index, which counts from
zero.  The index is capped at the last sample, so with fewer than 100 samples (1000 for the 99.9th)
the two agree; with more, the value is the nearest-rank percentile iff the samples are tied there
(`computeStats_nearestRanks_iff`).
-/

namespace SmoothDemon.FrameMetrics

open Samples

theorem sorted_mergeSort (xs : List ℚ) : xs.mergeSort.Pairwise (· ≤ ·) :=
  List.pairwise_mergeSort' _ xs

/-- The `percentile` lambda, for a share of a non-empty list: the sample at the rounded-up rank,
counted from zero, or the last one. -/
theorem percentile_eq_some {xs : List ℚ} (nonempty : xs ≠ []) {p v : ℚ} (pos : 0 < p) (le : p ≤ 1)
    (h : percentile xs.mergeSort xs.length p = some v) :
    0 < ⌈p * xs.length⌉₊ ∧ ⌈p * xs.length⌉₊ ≤ xs.length ∧
      xs.mergeSort[min ⌈p * xs.length⌉₊ (xs.length - 1)]? = some v := by
  have count : 0 < xs.length := List.length_pos_iff.2 nonempty
  have some : (0 : ℚ) < p * xs.length := mul_pos pos (Nat.cast_pos.2 count)
  have all : p * xs.length ≤ xs.length := mul_le_of_le_one_left (Nat.cast_nonneg _) le
  refine ⟨Nat.ceil_pos.2 some, Nat.ceil_le.2 all, ?_⟩
  rw [percentile, if_neg (by omega)] at h
  rw [← h, min_def]
  congr 1
  split_ifs <;> omega

theorem percentile_nearest_iff {xs : List ℚ} (nonempty : xs ≠ []) {p v : ℚ} (pos : 0 < p)
    (le : p ≤ 1) (h : percentile xs.mergeSort xs.length p = some v) :
    IsNearestRank p xs v ↔ ⌈p * xs.length⌉₊ = xs.length ∨ TiedAt xs ⌈p * xs.length⌉₊ := by
  obtain ⟨rank_pos, rank_le, value⟩ := percentile_eq_some nonempty pos le h
  have perm : xs.mergeSort.Perm xs := List.mergeSort_perm xs _
  have sorted := sorted_mergeSort xs
  rw [← isNearestRank_perm perm, ← tiedAt_perm perm]
  rw [← perm.length_eq] at rank_pos rank_le value ⊢
  set s := xs.mergeSort
  rcases rank_le.eq_or_lt with last | inside
  · rw [min_eq_right (by omega), ← last] at value
    obtain ⟨hr, rfl⟩ := List.getElem?_eq_some_iff.1 value
    exact iff_of_true (isNearestRank_getElem sorted hr rank_pos) (.inl last)
  · rw [min_eq_left (by omega)] at value
    obtain ⟨hr, rfl⟩ := List.getElem?_eq_some_iff.1 value
    rw [isNearestRank_getElem_iff sorted rank_pos hr, or_iff_right inside.ne]

/-- All but one part in `k` of fewer than `k` samples, rounded up, is all of them. -/
theorem ceil_eq_length_iff {k n : ℕ} (hk : 1 < k) :
    ⌈((k - 1 : ℚ) / k) * n⌉₊ = n ↔ n < k := by
  rcases Nat.eq_zero_or_pos n with rfl | pos
  · simp
    omega
  · have kpos : (0 : ℚ) < k := by exact_mod_cast Nat.zero_lt_of_lt hk
    have share : ((k - 1 : ℚ) / k) * n = n - n / k := by
      field_simp
    have part : (0 : ℚ) ≤ n / k := by positivity
    rw [Nat.ceil_eq_iff pos.ne', share, Nat.cast_sub pos, Nat.cast_one, sub_lt_sub_iff_left,
      div_lt_one kpos, Nat.cast_lt]
    exact and_iff_left (sub_le_self _ part)

/-- The percentiles are nearest ranks; when fewer than 1 % of the frames are slow, the 99th is not
one of them, and the 1 % low is its rate. -/
structure NearestRanks (out : FrameStats) (xs : List ℚ) : Prop where
  p99 : IsNearestRank (99 / 100 : ℚ) xs out.p99FrametimeMs
  p999 : IsNearestRank (999 / 1000 : ℚ) xs out.p999FrametimeMs
  slow : ∀ t, 100 * xs.countP (t < ·) < xs.length → out.p99FrametimeMs ≤ t
  onePercentLow : 0 < out.p99FrametimeMs → out.onePercentLowFps = 1000 / out.p99FrametimeMs

theorem Ranked.nearestRanks_iff {xs : List ℚ} {out : FrameStats} (h : Ranked out xs)
    (nonempty : xs ≠ []) :
    NearestRanks out xs ↔
      (xs.length < 100 ∨ TiedAt xs ⌈(99 / 100 : ℚ) * xs.length⌉₊) ∧
        (xs.length < 1000 ∨ TiedAt xs ⌈(999 / 1000 : ℚ) * xs.length⌉₊) := by
  have all99 := ceil_eq_length_iff (k := 100) (n := xs.length) (by omega)
  have all999 := ceil_eq_length_iff (k := 1000) (n := xs.length) (by omega)
  norm_num only [Nat.cast_ofNat] at all99 all999
  rw [← all99, ← all999, ← percentile_nearest_iff nonempty (by norm_num) (by norm_num) h.p99,
    ← percentile_nearest_iff nonempty (by norm_num) (by norm_num) h.p999]
  constructor
  · intro nearest
    exact ⟨nearest.p99, nearest.p999⟩
  · rintro ⟨p99, p999⟩
    refine ⟨p99, p999, fun t few => p99.le_of_few (by norm_num) ?_, fun pos => ?_⟩
    · have cast : (100 : ℚ) * xs.countP (t < ·) < xs.length := by exact_mod_cast few
      linarith
    · rw [h.onePercentLow, if_pos pos]

/-- For every history of calls and every window with a sample, the percentiles are the nearest ranks
iff, for each of them, the window is too short for the index to pass the rank or the samples are
tied there. -/
theorem computeStats_nearestRanks_iff (windowSize : ℕ) (ops : List Op)
    (nonempty : referenceSamples windowSize ops ≠ []) :
    ∃ out, (run windowSize ops).computeStats = some out ∧
      (NearestRanks out (referenceSamples windowSize ops) ↔
        ((referenceSamples windowSize ops).length < 100 ∨ TiedAt (referenceSamples windowSize ops)
            ⌈(99 / 100 : ℚ) * (referenceSamples windowSize ops).length⌉₊) ∧
          ((referenceSamples windowSize ops).length < 1000 ∨
            TiedAt (referenceSamples windowSize ops)
              ⌈(999 / 1000 : ℚ) * (referenceSamples windowSize ops).length⌉₊)) := by
  obtain ⟨out, summary, -⟩ := summarize_describes nonempty
  exact ⟨out, (computeStats_eq_summarize nonempty).trans summary,
    (summarize_ranked summary).nearestRanks_iff nonempty⟩

/-- Frames of 16, 24 and 10 ms. -/
def uneven : List Op :=
  [.recordTimestamp 0, .recordTimestamp 16000000, .recordTimestamp 40000000,
    .recordTimestamp 50000000]

theorem computeStats_nearestRanks_iff_uneven :
    ∃ out, (run 1000 uneven).computeStats = some out ∧
      NearestRanks out (referenceSamples 1000 uneven) := by
  obtain ⟨out, stats, nearest⟩ := computeStats_nearestRanks_iff 1000 uneven (by decide)
  exact ⟨out, stats, nearest.2 ⟨.inl (by decide), .inl (by decide)⟩⟩

/-- 100 frames of 10 ms and one of 200 ms. -/
def hitch : List Op :=
  (List.range 101).map (fun i => .recordTimestamp (UInt64.ofNat (i * 10000000))) ++
    [.recordTimestamp 1200000000]

theorem referenceSamples_hitch :
    referenceSamples 1000 hitch = List.replicate 100 10 ++ [200] := by
  decide +kernel

theorem not_tied_hitch : ¬ TiedAt (List.replicate 100 (10 : ℚ) ++ [200]) 100 := by
  rintro ⟨v, mem, below, notAbove⟩
  rcases List.mem_append.1 mem with fast | slow
  · obtain rfl := List.eq_of_mem_replicate fast
    norm_num [List.countP_replicate] at notAbove
  · obtain rfl := List.mem_singleton.1 slow
    norm_num [List.countP_replicate] at below

/-- One slow frame in 101 is the 99th percentile: the rank is 100, and the index 100 is the last. -/
theorem not_nearestRanks : ¬ ∀ (windowSize : ℕ) (ops : List Op),
    referenceSamples windowSize ops ≠ [] → ∀ out, (run windowSize ops).computeStats = some out →
      NearestRanks out (referenceSamples windowSize ops) := by
  intro claim
  have nonempty : referenceSamples 1000 hitch ≠ [] := by simp [referenceSamples_hitch]
  obtain ⟨out, summary, -⟩ := summarize_describes nonempty
  have nearest := claim 1000 hitch nonempty out ((computeStats_eq_summarize nonempty).trans summary)
  have tied := (((summarize_ranked summary).nearestRanks_iff nonempty).1 nearest).1
  have count : (List.replicate 100 (10 : ℚ) ++ [200]).length = 101 := rfl
  have rank : ⌈(99 / 100 : ℚ) * (101 : ℕ)⌉₊ = 100 := by
    rw [Nat.ceil_eq_iff (by decide)]
    norm_num
  rw [referenceSamples_hitch, count, rank] at tied
  exact tied.elim (by decide) not_tied_hitch

end SmoothDemon.FrameMetrics
