import SmoothDemon.Benchmark.Percentiles

/-!
# How the figures fit together

Under a positive maximum frametime every sample is positive, and the figures of `ComputeStats`,
though computed in different passes, fit together (`Consistent`) and do not depend on the order of
the samples in the window (`summarize_perm`).
-/

namespace SmoothDemon

open Samples

attribute [ext] FrameStats

namespace FrameMetrics

/-! ### The order of the samples -/

theorem summarize_variance {xs : List ℚ} {out : FrameStats}
    (h : summarize xs xs.length = some out) : out.frametimeVarianceMs = variance xs := by
  simp only [summarize, Option.bind_eq_bind, Option.bind_eq_some_iff, Option.pure_def,
    Option.some.injEq] at h
  obtain ⟨first, -, p99, -, p999, -, rfl⟩ := h
  simp only [foldl_scan, zero_add, variance, mean, List.sum_eq_foldl]

section Permutation

variable {xs ys : List ℚ}

theorem mean_perm (perm : ys.Perm xs) : mean ys = mean xs := by
  rw [mean, mean, perm.sum_eq, perm.length_eq]

theorem variance_perm (perm : ys.Perm xs) : variance ys = variance xs := by
  rw [variance, variance, mean_perm perm, (perm.map _).sum_eq, perm.length_eq]

theorem mergeSort_perm (perm : ys.Perm xs) : ys.mergeSort = xs.mergeSort := by
  have same : ys.mergeSort.Perm xs.mergeSort :=
    ((List.mergeSort_perm ys _).trans perm).trans (List.mergeSort_perm xs _).symm
  exact same.eq_of_pairwise (fun _ _ _ _ => le_antisymm) (sorted_mergeSort ys) (sorted_mergeSort xs)

theorem percentile_perm (perm : ys.Perm xs) {p v w : ℚ}
    (hv : percentile ys.mergeSort ys.length p = some v)
    (hw : percentile xs.mergeSort xs.length p = some w) : v = w := by
  rw [mergeSort_perm perm, perm.length_eq, hw] at hv
  exact (Option.some.inj hv).symm

/-- Every figure is a function of the multiset of the samples. -/
theorem summarize_perm (perm : ys.Perm xs) (nonempty : xs ≠ []) :
    summarize ys ys.length = summarize xs xs.length := by
  have nonempty' : ys ≠ [] := fun empty => nonempty (by rw [empty] at perm; exact perm.nil_eq.symm)
  obtain ⟨out, summary, h⟩ := summarize_describes nonempty
  obtain ⟨out', summary', h'⟩ := summarize_describes nonempty'
  have ranked := summarize_ranked summary
  have ranked' := summarize_ranked summary'
  have members : {x | x ∈ ys} = {x | x ∈ xs} := Set.ext fun x => perm.mem_iff
  have least := h'.minimum nonempty'
  have greatest := h'.maximum nonempty'
  rw [members] at least greatest
  have p99 := percentile_perm perm ranked'.p99 ranked.p99
  have p999 := percentile_perm perm ranked'.p999 ranked.p999
  rw [summary, summary']
  congr 1
  apply FrameStats.ext
  · rw [h'.fps, h.fps, mean_perm perm]
  · rw [h'.mean, h.mean, mean_perm perm]
  · exact least.unique (h.minimum nonempty)
  · exact greatest.unique (h.maximum nonempty)
  · exact p99
  · exact p999
  · rw [ranked'.onePercentLow, ranked.onePercentLow, p99]
  · rw [ranked'.pointOnePercentLow, ranked.pointOnePercentLow, p999]
  · rw [summarize_variance summary', summarize_variance summary, variance_perm perm]
  · rw [h'.totalFrames, h.totalFrames, perm.length_eq]
  · rw [h'.stutters, h.stutters, mean_perm perm, perm.countP_eq]

end Permutation

/-! ### Positive samples -/

theorem kept_subset (l : List Stamp) : ∀ s ∈ kept l, s ∈ l := by
  induction l using List.reverseRecOn with
  | nil => simp [kept]
  | append_singleton l s ih =>
    rw [kept_concat]
    intro k hk
    split_ifs at hk
    · rcases List.mem_append.1 hk with older | newest
      · exact List.mem_append_left _ (ih k older)
      · exact List.mem_append_right _ newest
    · exact List.mem_append_left _ (ih k hk)

theorem frametimes_pos {ks : List Stamp} (increasing : ks.Pairwise fun a b => a.ns < b.ns)
    (caps : ∀ k ∈ ks, 0 < k.cap) : ∀ x ∈ frametimes ks, 0 < x := by
  induction ks with
  | nil => simp [frametimes]
  | cons a ks ih =>
    cases ks with
    | nil => simp [frametimes]
    | cons b ks =>
      obtain ⟨later, rest⟩ := List.pairwise_cons.1 increasing
      have step : a.ns < b.ns := later b List.mem_cons_self
      have delta : (0 : ℚ) < ((b.ns : ℚ) - a.ns) / 1000000 := by
        have apart : (a.ns : ℚ) < b.ns := by exact_mod_cast step
        exact div_pos (sub_pos.2 apart) (by norm_num)
      intro x hx
      rcases List.mem_cons.1 (show x ∈ cappedDelta a b :: frametimes (b :: ks) from hx) with
        rfl | older
      · exact lt_min delta (caps b (by simp))
      · exact ih rest (fun k hk => caps k (List.mem_cons_of_mem a hk)) x older

/-- When every timestamp since the last `Reset` was recorded under a positive maximum. -/
theorem referenceSamples_pos {windowSize : ℕ} {ops : List Op}
    (caps : ∀ s ∈ (stamps ops).2, 0 < s.cap) : ∀ x ∈ referenceSamples windowSize ops, 0 < x := by
  have increasing := (tracks_run windowSize ops).increasing
  have all := frametimes_pos increasing fun k hk => caps k (kept_subset _ k hk)
  intro x hx
  exact all x (List.mem_of_mem_drop hx)

/-! ### The figures -/

/-- What always holds between the figures of one record. -/
structure Consistent (out : FrameStats) : Prop where
  min_le_avg : out.minFrametimeMs ≤ out.avgFrametimeMs
  avg_le_max : out.avgFrametimeMs ≤ out.maxFrametimeMs
  min_le_p99 : out.minFrametimeMs ≤ out.p99FrametimeMs
  p99_le_p999 : out.p99FrametimeMs ≤ out.p999FrametimeMs
  p999_le_max : out.p999FrametimeMs ≤ out.maxFrametimeMs
  pointOnePercentLow_pos : 0 < out.pointOnePercentLowFps
  pointOnePercentLow_le : out.pointOnePercentLowFps ≤ out.onePercentLowFps
  deviation : out.frametimeStdDevMs ^ 2 ≤ (((out.maxFrametimeMs - out.avgFrametimeMs) *
    (out.avgFrametimeMs - out.minFrametimeMs) : ℚ) : ℝ)
  stutters : 2 * out.stutterCount < out.totalFrames

theorem percentile_mem {xs : List ℚ} (nonempty : xs ≠ []) {p v : ℚ} (pos : 0 < p) (le : p ≤ 1)
    (h : percentile xs.mergeSort xs.length p = some v) : v ∈ xs := by
  obtain ⟨-, -, value⟩ := percentile_eq_some nonempty pos le h
  exact (List.mergeSort_perm xs _).mem_iff.1 (List.mem_of_getElem? value)

theorem percentile_mono {xs : List ℚ} (nonempty : xs ≠ []) {p q v w : ℚ} (pos : 0 < p)
    (less : p ≤ q) (le : q ≤ 1) (hp : percentile xs.mergeSort xs.length p = some v)
    (hq : percentile xs.mergeSort xs.length q = some w) : v ≤ w := by
  obtain ⟨-, -, first⟩ := percentile_eq_some nonempty pos (less.trans le) hp
  obtain ⟨-, -, second⟩ := percentile_eq_some nonempty (pos.trans_le less) le hq
  have rank : ⌈p * xs.length⌉₊ ≤ ⌈q * xs.length⌉₊ :=
    Nat.ceil_mono (mul_le_mul_of_nonneg_right less (Nat.cast_nonneg _))
  have order : min ⌈p * xs.length⌉₊ (xs.length - 1) ≤ min ⌈q * xs.length⌉₊ (xs.length - 1) :=
    min_le_min_right _ rank
  obtain ⟨hi, rfl⟩ := List.getElem?_eq_some_iff.1 first
  obtain ⟨hj, rfl⟩ := List.getElem?_eq_some_iff.1 second
  exact (sorted_mergeSort xs).sortedLE.getElem_le_getElem_of_le order

theorem consistent_of_pos {xs : List ℚ} {out : FrameStats} (nonempty : xs ≠ [])
    (positive : ∀ x ∈ xs, 0 < x) (h : Describes out xs) (ranked : Ranked out xs) :
    Consistent out := by
  have least := h.minimum nonempty
  have greatest := h.maximum nonempty
  have p99 := percentile_mem nonempty (by norm_num) (by norm_num) ranked.p99
  have p999 := percentile_mem nonempty (by norm_num) (by norm_num) ranked.p999
  have order := percentile_mono nonempty (by norm_num) (by norm_num) (by norm_num) ranked.p99
    ranked.p999
  have pos99 := positive _ p99
  have pos999 := positive _ p999
  refine ⟨?_, ?_, least.2 p99, order, greatest.2 p999, ?_, ?_, ?_, ?_⟩
  · rw [h.mean]
    exact le_mean nonempty fun x hx => least.2 hx
  · rw [h.mean]
    exact mean_le nonempty fun x hx => greatest.2 hx
  · rw [ranked.pointOnePercentLow, if_pos pos999]
    positivity
  · rw [ranked.pointOnePercentLow, ranked.onePercentLow, if_pos pos999, if_pos pos99]
    exact div_le_div_of_nonneg_left (by norm_num) pos99 order
  · rw [h.deviation, h.mean, Rat.cast_le]
    exact variance_le nonempty fun x hx => ⟨least.2 hx, greatest.2 hx⟩
  · rw [h.stutters, h.totalFrames]
    exact two_mul_countP_lt nonempty positive

/-- After any history of timestamps recorded under a positive maximum frametime, for any window with
a sample: the figures fit together, and any reordering of the window gives the same ones. -/
theorem computeStats_consistent (windowSize : ℕ) (ops : List Op)
    (caps : ∀ s ∈ (stamps ops).2, 0 < s.cap) (nonempty : referenceSamples windowSize ops ≠ []) :
    ∃ out, (run windowSize ops).computeStats = some out ∧ Consistent out ∧
      ∀ samples : List ℚ, samples.Perm (referenceSamples windowSize ops) →
        summarize samples samples.length = some out := by
  obtain ⟨out, summary, describes⟩ := summarize_describes nonempty
  refine ⟨out, (computeStats_eq_summarize nonempty).trans summary, ?_, fun samples perm => ?_⟩
  · exact consistent_of_pos nonempty (referenceSamples_pos caps) describes
      (summarize_ranked summary)
  · exact (summarize_perm perm nonempty).trans summary

theorem computeStats_consistent_uneven :
    ∃ out, (run 1000 uneven).computeStats = some out ∧ Consistent out := by
  obtain ⟨out, stats, consistent, -⟩ :=
    computeStats_consistent 1000 uneven (by decide) (by decide)
  exact ⟨out, stats, consistent⟩

end FrameMetrics

end SmoothDemon
