import SmoothDemon.Benchmark.FrameMetrics

/-!
# Frame metrics against a reference

`referenceSamples` restates, without ring buffer or running state, which samples the statistics are
about.  `Tracks` is the invariant that carries the running state along any history of calls, and
`computeStats_eq_reference` the agreement of the two.
-/

namespace SmoothDemon

namespace FrameMetrics

/-- A timestamp and the maximum frametime in force when it was recorded. -/
structure Stamp where
  ns : ℕ
  cap : ℚ

/-- The maximum frametime in force and the timestamps since the last `Reset`. -/
def stamps (ops : List Op) : ℚ × List Stamp :=
  ops.foldl (fun (cap, l) op => match op with
    | .recordTimestamp t => (cap, l ++ [⟨t.toNat, cap⟩])
    | .setMaxFrametimeMs ms => (ms, l)
    | .reset => (cap, [])) (500, [])

/-- The timestamps strictly greater than every one kept before them. -/
def kept (l : List Stamp) : List Stamp :=
  l.foldl (fun ks s => if ∀ k ∈ ks, k.ns < s.ns then ks ++ [s] else ks) []

def cappedDelta (a b : Stamp) : ℚ := min (((b.ns : ℚ) - a.ns) / 1000000) b.cap

def frametimes (ks : List Stamp) : List ℚ := List.zipWith cappedDelta ks ks.tail

/-- The last `min (count, 4096, max (1, windowSize))` capped differences. -/
def referenceSamples (windowSize : ℕ) (ops : List Op) : List ℚ :=
  let all := frametimes (kept (stamps ops).2)
  all.rtake (min all.length (min 4096 (max 1 windowSize)))

/-! ### The running state -/

/-- `ks` are the timestamps kept since the last `Reset`, `cap` the maximum frametime in force. -/
structure Tracks (m : FrameMetrics) (cap : ℚ) (ks : List Stamp) : Prop where
  cap : m.maxFrametimeMs = cap
  increasing : ks.Pairwise fun a b => a.ns < b.ns
  fresh : ks = [] → m.haveLast = false
  last : ∀ k ∈ ks.getLast?, m.haveLast = true ∧ m.lastTimestampNs.toNat = k.ns
  ring : m.frametimesMs.Holds (frametimes ks)

theorem frametimes_concat (ks : List Stamp) (a b : Stamp) :
    frametimes (ks ++ [a] ++ [b]) = frametimes (ks ++ [a]) ++ [cappedDelta a b] := by
  unfold frametimes
  induction ks with
  | nil => rfl
  | cons k ks ih => cases ks <;> simp_all

theorem kept_concat (l : List Stamp) (s : Stamp) :
    kept (l ++ [s]) = if ∀ k ∈ kept l, k.ns < s.ns then kept l ++ [s] else kept l := by
  unfold kept
  rw [List.foldl_append]
  rfl

theorem Tracks.recordTimestamp {m : FrameMetrics} {cap : ℚ} {ks : List Stamp}
    (h : m.Tracks cap ks) (t : UInt64) :
    (m.recordTimestamp t).Tracks cap
      (if ∀ k ∈ ks, k.ns < t.toNat then ks ++ [⟨t.toNat, cap⟩] else ks) := by
  unfold FrameMetrics.recordTimestamp
  rcases List.eq_nil_or_concat' ks with rfl | ⟨ks, k, rfl⟩
  · -- the first timestamp sets the baseline only
    have first := h.fresh rfl
    simp only [first, Bool.not_false, if_true]
    exact ⟨h.cap, by simp, by simp, by simp, h.ring⟩
  · obtain ⟨have_last, last⟩ := h.last k (by simp)
    have newest : (∀ k' ∈ ks ++ [k], k'.ns < t.toNat) ↔ k.ns < t.toNat := by
      constructor
      · intro all
        exact all k (by simp)
      · intro lt k' hk'
        rcases List.mem_append.1 hk' with earlier | same
        · exact lt_trans ((List.pairwise_append.1 h.increasing).2.2 k' earlier k (by simp)) lt
        · rwa [List.mem_singleton.1 same]
    simp only [newest, have_last, Bool.not_true, Bool.false_eq_true, if_false]
    by_cases later : k.ns < t.toNat
    · have forward : m.lastTimestampNs < t := by
        rw [UInt64.lt_iff_toNat_lt, last]
        exact later
      have delta : ((t - m.lastTimestampNs).toNat : ℚ) = (t.toNat : ℚ) - k.ns := by
        rw [UInt64.toNat_sub_of_le _ _ (UInt64.le_of_lt forward), last, Nat.cast_sub later.le]
      rw [if_pos later, if_neg (UInt64.not_le.2 forward)]
      refine ⟨h.cap, ?_, by simp, by simp, ?_⟩
      · rw [List.pairwise_append]
        refine ⟨h.increasing, List.pairwise_singleton _ _, fun k' hk' s hs => ?_⟩
        rw [List.mem_singleton.1 hs]
        exact newest.2 later k' hk'
      · rw [frametimes_concat]
        have capped : (if ((t - m.lastTimestampNs).toNat : ℚ) / 1000000 > m.maxFrametimeMs then
            m.maxFrametimeMs else ((t - m.lastTimestampNs).toNat : ℚ) / 1000000) =
            cappedDelta k ⟨t.toNat, cap⟩ := by
          unfold cappedDelta
          rw [delta, h.cap, min_def]
          split_ifs <;> grind
        show (m.frametimesMs.push _).Holds _
        rw [capped]
        exact h.ring.push _
    · have backward : t ≤ m.lastTimestampNs := by
        rw [UInt64.le_iff_toNat_le, last]
        exact not_lt.1 later
      rw [if_neg later, if_pos backward]
      exact h

theorem tracks_run (windowSize : ℕ) (ops : List Op) :
    (run windowSize ops).Tracks (stamps ops).1 (kept (stamps ops).2) := by
  induction ops using List.reverseRecOn with
  | nil => exact ⟨rfl, by simp [stamps, kept], fun _ => rfl, by simp [stamps, kept], .nil rfl rfl⟩
  | append_singleton ops op ih =>
    unfold run stamps at ih ⊢
    rw [List.foldl_append, List.foldl_append]
    cases op with
    | recordTimestamp t =>
      simp only [List.foldl_cons, List.foldl_nil, kept_concat]
      exact ih.recordTimestamp t
    | setMaxFrametimeMs ms => exact { ih with cap := rfl }
    | reset => exact ⟨ih.cap, by simp [kept], fun _ => rfl, by simp [kept], .nil rfl rfl⟩

theorem window_run (windowSize : ℕ) (ops : List Op) :
    (run windowSize ops).window = min 4096 (max 1 windowSize) := by
  induction ops using List.reverseRecOn with
  | nil =>
    show (if min windowSize kMaxWindow = 0 then 1 else min windowSize kMaxWindow) = _
    unfold kMaxWindow
    split_ifs <;> omega
  | append_singleton ops op ih =>
    unfold run at ih ⊢
    rw [List.foldl_append, ← ih]
    cases op with
    | recordTimestamp t =>
      show (FrameMetrics.recordTimestamp _ t).window = _
      unfold FrameMetrics.recordTimestamp
      split_ifs <;> rfl
    | setMaxFrametimeMs ms => rfl
    | reset => rfl

/-! ### The statistics of the window -/

theorem mapM_get? {T : Type*} {capacity : ℕ} {rb : RingBuffer T capacity} {l : List T}
    (h : rb.Holds l) {start n : ℕ} (hn : start + n = rb.size) :
    (List.range' start n).mapM rb.get? = some ((l.rtake capacity).drop start) := by
  induction n generalizing start with
  | zero =>
    rw [List.drop_of_length_le]
    · rfl
    · rw [← h.size_eq]
      omega
  | succ n ih =>
    have inside : start < (l.rtake capacity).length := by
      rw [← h.size_eq]
      omega
    rw [List.range'_succ, List.mapM_cons, h.get?_eq inside, ih (by omega),
      List.drop_eq_getElem_cons inside]
    rfl

theorem foldl_scan (mean : ℚ) (xs : List ℚ) (a : Scan) :
    xs.foldl (Scan.step mean) a =
      { mn := xs.foldl min a.mn
        mx := xs.foldl max a.mx
        sq := a.sq + (xs.map fun x => (x - mean) ^ 2).sum
        stutters := a.stutters + xs.countP fun x => 2 * mean < x } := by
  induction xs generalizing a with
  | nil => simp
  | cons x xs ih =>
    have least : (if x < a.mn then x else a.mn) = min a.mn x := by
      rw [min_def]
      split_ifs <;> grind
    have greatest : (if x > a.mx then x else a.mx) = max a.mx x := by
      rw [max_def]
      split_ifs <;> grind
    rw [List.foldl_cons, ih]
    simp only [Scan.step, least, greatest, List.foldl_cons, List.map_cons, List.sum_cons,
      List.countP_cons, decide_eq_true_eq, Scan.mk.injEq, true_and]
    refine ⟨by ring, ?_⟩
    split_ifs <;> omega

theorem percentile_isSome {sorted : List ℚ} {n : ℕ} (h : sorted.length = n) (p : ℚ) :
    ∃ v, percentile sorted n p = some v := by
  unfold percentile
  by_cases zero : n = 0
  · exact ⟨0, if_pos zero⟩
  · rw [if_neg zero]
    refine ⟨_, List.getElem?_eq_getElem ?_⟩
    split_ifs <;> omega

/-- `out` has the statistics of the samples `xs`, those of the sorted samples left aside. -/
structure Describes (out : FrameStats) (xs : List ℚ) : Prop where
  totalFrames : out.totalFrames = xs.length
  mean : out.avgFrametimeMs = Samples.mean xs
  minimum : xs ≠ [] → IsLeast {x | x ∈ xs} out.minFrametimeMs
  maximum : xs ≠ [] → IsGreatest {x | x ∈ xs} out.maxFrametimeMs
  deviation : out.frametimeStdDevMs ^ 2 = ((Samples.variance xs : ℚ) : ℝ)
  fps : out.avgFps = if 0 < Samples.mean xs then 1000 / Samples.mean xs else 0
  stutters : out.stutterCount = xs.countP fun x => 2 * Samples.mean xs < x
  empty : xs = [] → out = {}

/-- The fields of `out` that come from the sorted samples. -/
structure Ranked (out : FrameStats) (xs : List ℚ) : Prop where
  p99 : percentile xs.mergeSort xs.length (99 / 100) = some out.p99FrametimeMs
  p999 : percentile xs.mergeSort xs.length (999 / 1000) = some out.p999FrametimeMs
  onePercentLow : out.onePercentLowFps =
    if out.p99FrametimeMs > 0 then 1000 / out.p99FrametimeMs else 0
  pointOnePercentLow : out.pointOnePercentLowFps =
    if out.p999FrametimeMs > 0 then 1000 / out.p999FrametimeMs else 0

theorem sq_frametimeStdDevMs {out : FrameStats} {xs : List ℚ}
    (h : out.frametimeVarianceMs = Samples.variance xs) :
    out.frametimeStdDevMs ^ 2 = ((Samples.variance xs : ℚ) : ℝ) := by
  unfold FrameStats.frametimeStdDevMs
  rw [h, Real.sq_sqrt]
  exact Rat.cast_nonneg.2 (Samples.variance_nonneg xs)

theorem summarize_describes {xs : List ℚ} (nonempty : xs ≠ []) :
    ∃ out, summarize xs xs.length = some out ∧ Describes out xs := by
  obtain ⟨x, rest, rfl⟩ := List.exists_cons_of_ne_nil nonempty
  set xs := x :: rest with hxs
  have sortedLength : xs.mergeSort.length = xs.length := List.length_mergeSort xs
  obtain ⟨p99, h99⟩ := percentile_isSome sortedLength (99 / 100)
  obtain ⟨p999, h999⟩ := percentile_isSome sortedLength (999 / 1000)
  have mean : xs.foldl (· + ·) 0 / (xs.length : ℚ) = Samples.mean xs := by
    rw [← List.sum_eq_foldl, Samples.mean]
  have first : xs[0]? = some x := rfl
  have least : xs.foldl min x = rest.foldl min x := by rw [hxs, List.foldl_cons, min_self]
  have greatest : xs.foldl max x = rest.foldl max x := by rw [hxs, List.foldl_cons, max_self]
  refine ⟨_, by simp only [summarize, first, h99, h999, mean, foldl_scan]; rfl, ?_⟩
  exact {
    totalFrames := rfl
    mean := rfl
    minimum := fun _ => by
      simp only [least]
      exact Samples.isLeast_foldl_min x rest
    maximum := fun _ => by
      simp only [greatest]
      exact Samples.isGreatest_foldl_max x rest
    deviation := by
      apply sq_frametimeStdDevMs
      simp only [zero_add, Samples.variance]
    fps := rfl
    stutters := by simp only [Nat.zero_add]
    empty := fun h => absurd h nonempty }

theorem summarize_ranked {xs : List ℚ} {out : FrameStats}
    (h : summarize xs xs.length = some out) : Ranked out xs := by
  simp only [summarize, Option.bind_eq_bind, Option.bind_eq_some_iff, Option.pure_def,
    Option.some.injEq] at h
  obtain ⟨first, -, p99, h99, p999, h999, rfl⟩ := h
  exact ⟨h99, h999, rfl, rfl⟩

theorem describes_nil : Describes {} [] where
  totalFrames := rfl
  mean := by simp [Samples.mean]
  minimum h := absurd rfl h
  maximum h := absurd rfl h
  deviation := sq_frametimeStdDevMs (by simp [Samples.variance])
  fps := by simp [Samples.mean]
  stutters := rfl
  empty _ := rfl

theorem ranked_nil : Ranked {} [] := ⟨rfl, rfl, rfl, rfl⟩

section Window

variable {windowSize : ℕ} {ops : List Op}

theorem length_referenceSamples : (referenceSamples windowSize ops).length =
    min (run windowSize ops).frametimesMs.size (run windowSize ops).window := by
  have active : (run windowSize ops).frametimesMs.size = min _ kMaxWindow :=
    (tracks_run windowSize ops).ring.count
  have capacity : kMaxWindow = 4096 := rfl
  rw [active, window_run, referenceSamples, List.rtake, List.length_drop]
  omega

theorem size_eq_zero_iff :
    (run windowSize ops).frametimesMs.size = 0 ↔ referenceSamples windowSize ops = [] := by
  rw [← List.length_eq_zero_iff, length_referenceSamples, window_run]
  omega

/-- The samples `ComputeStats` copies are the reference samples. -/
theorem mapM_window {n : ℕ} (window : n = (referenceSamples windowSize ops).length) :
    (List.range' ((run windowSize ops).frametimesMs.size - n)
      ((run windowSize ops).frametimesMs.size -
        ((run windowSize ops).frametimesMs.size - n))).mapM
      (run windowSize ops).frametimesMs.get? = some (referenceSamples windowSize ops) := by
  have ring := (tracks_run windowSize ops).ring
  rw [length_referenceSamples, window_run] at window
  rw [mapM_get? ring (by omega)]
  have active : (run windowSize ops).frametimesMs.size = min _ kMaxWindow := ring.count
  have capacity : kMaxWindow = 4096 := rfl
  unfold referenceSamples List.rtake
  rw [List.drop_drop]
  congr 2
  omega

theorem computeStats_of_nil (empty : referenceSamples windowSize ops = []) :
    (run windowSize ops).computeStats = some {} := by
  rw [computeStats, if_pos (size_eq_zero_iff.2 empty)]

theorem computeStats_eq_summarize (nonempty : referenceSamples windowSize ops ≠ []) :
    (run windowSize ops).computeStats =
      summarize (referenceSamples windowSize ops) (referenceSamples windowSize ops).length := by
  simp only [computeStats, mt size_eq_zero_iff.1 nonempty, if_false]
  rw [mapM_window length_referenceSamples.symm, ← length_referenceSamples]
  rfl

end Window

/-- After any history of calls every read is in range and the statistics are those of the reference
samples. -/
theorem computeStats_eq_reference (windowSize : ℕ) (ops : List Op) :
    ∃ out, (run windowSize ops).computeStats = some out ∧
      Describes out (referenceSamples windowSize ops) ∧
      Ranked out (referenceSamples windowSize ops) := by
  by_cases empty : referenceSamples windowSize ops = []
  · rw [empty]
    exact ⟨{}, computeStats_of_nil empty, describes_nil, ranked_nil⟩
  · obtain ⟨out, summary, describes⟩ := summarize_describes empty
    exact ⟨out, (computeStats_eq_summarize empty).trans summary, describes,
      summarize_ranked summary⟩

end FrameMetrics

end SmoothDemon
