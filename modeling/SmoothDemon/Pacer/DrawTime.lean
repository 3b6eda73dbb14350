import SmoothDemon.Library.Decay
import SmoothDemon.Pacer.Estimate

/-!
# The draw time filter

While the estimate is at most a second, as it is in every state that calls lead to
(`updateNoWrap_of_reachable`), no product of `UpdateLastDrawDuration` wraps, and the filter is
`smoothed` in exact arithmetic: up to a longer draw time at once, else down to it by the geometric
decay of the difference, and never above the cap.  A run of it is bounded from both sides
(`updates_bounds`), settles on a steady draw time (`updates_steady`) and is monotone in its inputs
(`updates_mono`).
-/

namespace SmoothDemon.PresentationPacer

open Decay Transition

/-- `UpdateLastDrawDuration` for each of the draw times. -/
def updates (p : PresentationPacer) (draws : List UInt64) : PresentationPacer :=
  draws.foldl updateLastDrawDuration p

/-- The interval minus the red zone, zero when the red zone fills the interval. -/
def cap (p : PresentationPacer) : ℕ := p.refreshIntervalNs.toNat - p.redZoneNs.toNat

/-- The filter in exact arithmetic. -/
def smoothed (cap estimate draw : ℕ) : ℕ :=
  min (if estimate < draw then draw else draw + decay 49 50 (estimate - draw)) cap

section Filter

variable {cap estimate estimate' draw draw' : ℕ}

theorem smoothed_le_cap : smoothed cap estimate draw ≤ cap := Nat.min_le_right _ _

theorem smoothed_le_max : smoothed cap estimate draw ≤ max estimate draw := by
  unfold smoothed decay
  split_ifs <;> omega

/-- The estimate never undercuts the frame just measured. -/
theorem min_le_smoothed : min draw cap ≤ smoothed cap estimate draw := by
  unfold smoothed
  split_ifs <;> omega

theorem smoothed_mono (estimates : estimate ≤ estimate') (draws : draw ≤ draw') :
    smoothed cap estimate draw ≤ smoothed cap estimate' draw' := by
  unfold smoothed decay
  split_ifs <;> omega

/-- One update keeps 98 % of an estimate below the cap, up to rounding. -/
theorem sub_one_le_smoothed (room : estimate ≤ cap) :
    (49 / 50 : ℚ) * estimate - 1 ≤ smoothed cap estimate draw := by
  have whole : 49 * estimate ≤ 50 * (smoothed cap estimate draw + 1) := by
    unfold smoothed decay
    split_ifs <;> omega
  have cast : (49 : ℚ) * estimate ≤ 50 * (smoothed cap estimate draw + 1) := by
    exact_mod_cast whole
  linarith

/-- Below a steady draw time the difference decays. -/
theorem smoothed_add {gap : ℕ} (room : draw + gap ≤ cap) :
    smoothed cap (draw + gap) draw = draw + decay 49 50 gap := by
  have less : decay 49 50 gap ≤ gap - 1 := decay_le_pred (by omega) gap
  rw [smoothed, if_neg (by omega), Nat.add_sub_cancel_left]
  exact Nat.min_eq_left (by omega)

end Filter

/-! ### The filter of the source -/

theorem toNat_kDecayAlpha : kDecayAlpha.toNat = 980 := rfl

theorem toNat_kDecayMax : kDecayMax.toNat = 1000 := rfl

theorem toNat_kDecayMax_sub : (kDecayMax - kDecayAlpha).toNat = 20 := rfl

variable {p q : PresentationPacer}

@[simp] theorem cap_updateLastDrawDuration (d : UInt64) :
    (p.updateLastDrawDuration d).cap = p.cap := rfl

/-- The decay as the words have it. -/
theorem toNat_decayed_mod {d : UInt64} (shorter : ¬ p.rollingMaxDrawTimeNs < d) :
    (p.decayed d).toNat = (980 * p.rollingMaxDrawTimeNs.toNat % 2 ^ 64 +
      20 * d.toNat % 2 ^ 64) % 2 ^ 64 / 1000 := by
  rw [decayed, if_neg shorter, UInt64.toNat_div, UInt64.toNat_add, UInt64.toNat_mul,
    UInt64.toNat_mul, toNat_kDecayAlpha, toNat_kDecayMax_sub, toNat_kDecayMax]

theorem toNat_decayed_of_le (small : p.rollingMaxDrawTimeNs.toNat ≤ 1000000000) {d : UInt64}
    (shorter : ¬ p.rollingMaxDrawTimeNs < d) :
    (p.decayed d).toNat = (980 * p.rollingMaxDrawTimeNs.toNat + 20 * d.toNat) / 1000 := by
  have le : d.toNat ≤ p.rollingMaxDrawTimeNs.toNat := not_lt.1 (mt UInt64.lt_iff_toNat_lt.2 shorter)
  rw [toNat_decayed_mod shorter]
  omega

theorem toNat_decayed (small : p.rollingMaxDrawTimeNs.toNat ≤ 1000000000) (d : UInt64) :
    (p.decayed d).toNat = if p.rollingMaxDrawTimeNs.toNat < d.toNat then d.toNat
      else d.toNat + decay 49 50 (p.rollingMaxDrawTimeNs.toNat - d.toNat) := by
  by_cases longer : p.rollingMaxDrawTimeNs < d
  · rw [if_pos (UInt64.lt_iff_toNat_lt.1 longer), decayed, if_pos longer]
  · have shorter := mt UInt64.lt_iff_toNat_lt.2 longer
    rw [if_neg shorter, toNat_decayed_of_le small longer, decay]
    omega

/-- Even where a product wraps, the decay does not go up. -/
theorem toNat_decayed_le (p : PresentationPacer) (d : UInt64) :
    (p.decayed d).toNat ≤ max p.rollingMaxDrawTimeNs.toNat d.toNat := by
  by_cases longer : p.rollingMaxDrawTimeNs < d
  · rw [decayed, if_pos longer]
    exact le_max_right _ _
  · have shorter := mt UInt64.lt_iff_toNat_lt.2 longer
    have kept := Nat.mod_le (980 * p.rollingMaxDrawTimeNs.toNat) (2 ^ 64)
    have fresh := Nat.mod_le (20 * d.toNat) (2 ^ 64)
    have sum := Nat.mod_le
      (980 * p.rollingMaxDrawTimeNs.toNat % 2 ^ 64 + 20 * d.toNat % 2 ^ 64) (2 ^ 64)
    rw [toNat_decayed_mod longer]
    omega

theorem toNat_updateLastDrawDuration (small : p.rollingMaxDrawTimeNs.toNat ≤ 1000000000)
    (d : UInt64) : (p.updateLastDrawDuration d).rollingMaxDrawTimeNs.toNat =
      smoothed p.cap p.rollingMaxDrawTimeNs.toNat d.toNat := by
  rw [toNat_clamped, toNat_decayed small, smoothed, cap]

/-- A draw time raises the estimate iff it is longer and the cap leaves room for more. -/
theorem lt_updateLastDrawDuration_iff (p : PresentationPacer) (d : UInt64) :
    p.rollingMaxDrawTimeNs < (p.updateLastDrawDuration d).rollingMaxDrawTimeNs ↔
      p.rollingMaxDrawTimeNs < d ∧ p.rollingMaxDrawTimeNs.toNat < p.cap := by
  rw [UInt64.lt_iff_toNat_lt, toNat_clamped, lt_min_iff, cap]
  refine and_congr_left fun _ => ?_
  by_cases longer : p.rollingMaxDrawTimeNs < d
  · rw [decayed, if_pos longer, UInt64.lt_iff_toNat_lt]
  · have shorter := mt UInt64.lt_iff_toNat_lt.2 longer
    have bound := p.toNat_decayed_le d
    refine iff_of_false ?_ longer
    omega

theorem cap_le (interval : p.refreshIntervalNs.toNat ≤ 1000000000) : p.cap ≤ 1000000000 :=
  (Nat.sub_le _ _).trans interval

/-- With an interval and an estimate of at most a second, any run of the filter is exact. -/
theorem toNat_updates (interval : p.refreshIntervalNs.toNat ≤ 1000000000)
    (small : p.rollingMaxDrawTimeNs.toNat ≤ 1000000000) (draws : List UInt64) :
    (p.updates draws).rollingMaxDrawTimeNs.toNat =
      (draws.map UInt64.toNat).foldl (smoothed p.cap) p.rollingMaxDrawTimeNs.toNat := by
  induction draws generalizing p with
  | nil => rfl
  | cons d draws ih =>
    have next := toNat_updateLastDrawDuration small d
    have bounded : (p.updateLastDrawDuration d).rollingMaxDrawTimeNs.toNat ≤ 1000000000 := by
      rw [next]
      exact smoothed_le_cap.trans (cap_le interval)
    have rest := ih (p := p.updateLastDrawDuration d) interval bounded
    rw [cap_updateLastDrawDuration, next] at rest
    exact rest

/-! ### Every reachable state -/

/-- The interval and the estimate are at most a second. -/
structure WithinSecond (p : PresentationPacer) : Prop where
  interval : p.refreshIntervalNs.toNat ≤ 1000000000
  estimate : p.rollingMaxDrawTimeNs.toNat ≤ 1000000000

theorem withinSecond_construct (hz : Int32) : (construct hz).WithinSecond where
  interval := refreshHzToIntervalNs_le hz
  estimate := by
    have start : kStartingDrawTimeNs.toNat = 3000000 := rfl
    change kStartingDrawTimeNs.toNat ≤ 1000000000
    omega

/-- The clamp bounds the estimate by the interval, whatever red zone is in force. -/
theorem WithinSecond.updateLastDrawDuration (h : p.WithinSecond) (d : UInt64) :
    (p.updateLastDrawDuration d).WithinSecond where
  interval := h.interval
  estimate := by
    rw [toNat_clamped]
    exact (min_le_right _ _).trans (cap_le h.interval)

/-- No other operation writes the estimate. -/
theorem WithinSecond.step {op : Op} (h : p.WithinSecond) (next : p.step op = some q) :
    q.WithinSecond := by
  cases op with
  | updateLastDrawDuration d =>
    cases next
    exact h.updateLastDrawDuration d
  | setRefreshRateHz hz =>
    cases next
    exact ⟨refreshHzToIntervalNs_le hz, h.estimate⟩
  | setRedZoneNs r =>
    cases next
    exact ⟨h.interval, h.estimate⟩
  | markVBlank t =>
    cases next
    exact ⟨h.interval, h.estimate⟩
  | calculateNextWakeup now =>
    obtain ⟨w, -, rfl⟩ := Option.map_eq_some_iff.1 next
    exact h

/-- No product, sum or difference that `UpdateLastDrawDuration(drawTimeNs)` computes wraps, the
decay is the exact quotient rounded down, and neither the estimate it finds nor the one it stores is
more than a second. -/
structure UpdateNoWrap (p : PresentationPacer) (drawTimeNs : UInt64) : Prop where
  weight : kDecayAlpha ≤ kDecayMax
  kept : ¬ p.rollingMaxDrawTimeNs < drawTimeNs →
    kDecayAlpha.toNat * p.rollingMaxDrawTimeNs.toNat < 2 ^ 64
  fresh : ¬ p.rollingMaxDrawTimeNs < drawTimeNs →
    (kDecayMax - kDecayAlpha).toNat * drawTimeNs.toNat < 2 ^ 64
  sum : ¬ p.rollingMaxDrawTimeNs < drawTimeNs →
    kDecayAlpha.toNat * p.rollingMaxDrawTimeNs.toNat +
      (kDecayMax - kDecayAlpha).toNat * drawTimeNs.toNat < 2 ^ 64
  decay : ¬ p.rollingMaxDrawTimeNs < drawTimeNs →
    (p.decayed drawTimeNs).toNat =
      (980 * p.rollingMaxDrawTimeNs.toNat + 20 * drawTimeNs.toNat) / 1000
  room : p.redZoneNs < p.refreshIntervalNs →
    (p.refreshIntervalNs - p.redZoneNs).toNat + p.redZoneNs.toNat = p.refreshIntervalNs.toNat
  found : p.rollingMaxDrawTimeNs.toNat ≤ 1000000000
  stored : (p.updateLastDrawDuration drawTimeNs).rollingMaxDrawTimeNs.toNat ≤ 1000000000

/-- A draw time that is decayed to is at most the estimate, so a thousand seconds bound the sum. -/
theorem WithinSecond.updateNoWrap (h : p.WithinSecond) (d : UInt64) : p.UpdateNoWrap d := by
  have estimate := h.estimate
  have fresh (shorter : ¬ p.rollingMaxDrawTimeNs < d) : d.toNat ≤ 1000000000 :=
    (not_lt.1 (mt UInt64.lt_iff_toNat_lt.2 shorter)).trans estimate
  constructor
  · decide
  · intro shorter
    rw [toNat_kDecayAlpha]
    omega
  · intro shorter
    have bound := fresh shorter
    rw [toNat_kDecayMax_sub]
    omega
  · intro shorter
    have bound := fresh shorter
    rw [toNat_kDecayAlpha, toNat_kDecayMax_sub]
    omega
  · exact toNat_decayed_of_le estimate
  · intro room
    have le := (UInt64.lt_iff_toNat_lt.1 room).le
    rw [UInt64.toNat_sub_of_le _ _ (UInt64.le_iff_toNat_le.2 le), Nat.sub_add_cancel le]
  · exact estimate
  · exact (h.updateLastDrawDuration d).estimate

theorem withinSecond_of_reachable {hz : Int32} (reached : Reachable step (construct hz) p) :
    p.WithinSecond :=
  reached.invariant (fun _ _ _ h next => h.step next) (withinSecond_construct hz)

/-- Whatever was called before, and with whatever arguments, nothing wraps. -/
theorem updateNoWrap_of_reachable (hz : Int32) (reached : Reachable step (construct hz) p)
    (drawTimeNs : UInt64) : p.UpdateNoWrap drawTimeNs := by
  have within := withinSecond_of_reachable reached
  exact within.updateNoWrap drawTimeNs

/-- At 1 Hz without a red zone the estimate can be a second. -/
theorem updateNoWrap_of_reachable_second :
    ({ refreshIntervalNs := 1000000000, rollingMaxDrawTimeNs := 1000000000, redZoneNs := 0 } :
      PresentationPacer).UpdateNoWrap 999999999 := by
  refine updateNoWrap_of_reachable 240 ⟨[.setRefreshRateHz 1, .setRedZoneNs 0,
    .updateLastDrawDuration 18446744073709551615], congrArg some ?_⟩ _
  decide

/-! ### Any draw times -/

section Runs

variable {cap estimate : ℕ}

theorem foldl_smoothed_le_cap (room : estimate ≤ cap) (draws : List ℕ) :
    draws.foldl (smoothed cap) estimate ≤ cap := by
  induction draws generalizing estimate with
  | nil => exact room
  | cons d draws ih => exact ih smoothed_le_cap

theorem foldl_smoothed_le_max (draws : List ℕ) :
    draws.foldl (smoothed cap) estimate ≤ draws.foldl max estimate := by
  refine List.rel_foldl (P := (· ≤ ·)) (R := (· ≤ ·)) ?_ le_rfl (List.forall₂_refl draws)
  exact fun _ _ estimates _ _ draws => smoothed_le_max.trans (max_le_max estimates draws)

theorem foldl_smoothed_mono {estimate' : ℕ} {draws draws' : List ℕ}
    (estimates : estimate ≤ estimate') (longer : List.Forall₂ (· ≤ ·) draws draws') :
    draws.foldl (smoothed cap) estimate ≤ draws'.foldl (smoothed cap) estimate' := by
  refine List.rel_foldl (P := (· ≤ ·)) (R := (· ≤ ·)) ?_ estimates longer
  exact fun _ _ estimates _ _ draws => smoothed_mono estimates draws

theorem min_le_foldl_smoothed (draws : List ℕ) (d : ℕ) :
    min d cap ≤ (draws ++ [d]).foldl (smoothed cap) estimate := by
  rw [List.foldl_concat]
  exact min_le_smoothed

/-- A spike is still remembered after further draws. -/
theorem spike_le_foldl_smoothed (cap estimate : ℕ) (older newer : List ℕ) (d : ℕ) :
    (49 / 50 : ℚ) ^ newer.length * (min d cap : ℕ) - 50 ≤
      ((older ++ d :: newer).foldl (smoothed cap) estimate : ℕ) := by
  have spike : min d cap ≤ (older ++ [d]).foldl (smoothed cap) estimate :=
    min_le_foldl_smoothed older d
  have room : (older ++ [d]).foldl (smoothed cap) estimate ≤ cap := by
    rw [List.foldl_concat]
    exact smoothed_le_cap
  have kept := sub_le_foldl_of_loss (f := smoothed cap) (I := (· ≤ cap))
    (m := fun estimate => (estimate : ℚ)) (q := 49 / 50) (c := 1) (by norm_num) (by norm_num)
    zero_le_one (fun _ _ _ => smoothed_le_cap) (fun _ _ => sub_one_le_smoothed) newer room
  have total : (1 : ℚ) / (1 - 49 / 50) = 50 := by norm_num
  rw [total] at kept
  have decayed : (49 / 50 : ℚ) ^ newer.length * (min d cap : ℕ) ≤
      (49 / 50) ^ newer.length * ((older ++ [d]).foldl (smoothed cap) estimate : ℕ) :=
    mul_le_mul_of_nonneg_left (Nat.cast_le.2 spike) (by positivity)
  rw [List.append_cons, List.foldl_append]
  linarith

end Runs

/-- After every run of draw times, from an estimate that the cap allows: the estimate is within the
cap and within the largest value it has seen, at least the last draw time, and it still remembers
every earlier one.  Every interval the class ever holds is `Rated` (`rated_of_run`). -/
theorem updates_bounds (p : PresentationPacer) (rated : p.Rated)
    (start : p.rollingMaxDrawTimeNs.toNat ≤ p.cap) (draws : List UInt64) :
    (p.updates draws).rollingMaxDrawTimeNs.toNat ≤ p.cap ∧
      (p.updates draws).rollingMaxDrawTimeNs.toNat ≤
        (draws.map UInt64.toNat).foldl max p.rollingMaxDrawTimeNs.toNat ∧
      (∀ d ∈ draws.getLast?,
        min d.toNat p.cap ≤ (p.updates draws).rollingMaxDrawTimeNs.toNat) ∧
      ∀ i (hi : i < draws.length),
        (49 / 50 : ℚ) ^ (draws.length - (i + 1)) * (min draws[i].toNat p.cap : ℕ) - 50 ≤
          (p.updates draws).rollingMaxDrawTimeNs.toNat := by
  have interval := rated.interval_le
  rw [toNat_updates interval (start.trans (cap_le interval))]
  refine ⟨foldl_smoothed_le_cap start _, foldl_smoothed_le_max _, fun d last => ?_, fun i hi => ?_⟩
  · obtain ⟨older, rfl⟩ := List.getLast?_eq_some_iff.1 last
    rw [List.map_append]
    exact min_le_foldl_smoothed _ _
  · have whole : draws.map UInt64.toNat = (draws.take i).map UInt64.toNat ++
        draws[i].toNat :: (draws.drop (i + 1)).map UInt64.toNat := by
      rw [← List.map_cons, ← List.map_append, List.cons_getElem_drop_succ, List.take_append_drop]
    have spike := spike_le_foldl_smoothed p.cap p.rollingMaxDrawTimeNs.toNat
      ((draws.take i).map UInt64.toNat) ((draws.drop (i + 1)).map UInt64.toNat) draws[i].toNat
    rw [← whole, List.length_map, List.length_drop] at spike
    exact spike

theorem updates_bounds_sixty :
    min 9000000 (construct 60).cap ≤
      ((construct 60).updates [4000000, 9000000]).rollingMaxDrawTimeNs.toNat :=
  (updates_bounds (construct 60) ⟨60, rfl⟩ (by decide) [4000000, 9000000]).2.2.1 9000000 rfl

/-! ### A steady draw time -/

theorem foldl_smoothed_replicate {cap draw gap : ℕ} (room : draw + gap ≤ cap) (n : ℕ) :
    (List.replicate n draw).foldl (smoothed cap) (draw + gap) = draw + (decay 49 50)^[n] gap := by
  induction n generalizing gap with
  | zero => rfl
  | succ n ih =>
    have less : decay 49 50 gap ≤ gap - 1 := decay_le_pred (by omega) gap
    rw [List.replicate_succ, List.foldl_cons, smoothed_add room, ih (by omega),
      Function.iterate_succ_apply]

/-- The decay of a second: below 50 ns after 850 updates, and one less with each update from there.
-/
theorem iterate_decay_eq_zero {gap n : ℕ} (small : gap ≤ 1000000000) (enough : 1000 ≤ n) :
    (decay 49 50)^[n] gap = 0 := by
  have early : (decay 49 50)^[850] gap < 50 := by
    have bound := iterate_decay_le_pow (K := ℚ) (a := 49) (b := 50) 850 gap
    have start : (gap : ℚ) ≤ 1000000000 := by exact_mod_cast small
    push_cast at bound
    have tiny : ((decay 49 50)^[850] gap : ℚ) < 50 :=
      calc ((decay 49 50)^[850] gap : ℚ) ≤ (49 / 50) ^ 850 * gap := bound
        _ ≤ (49 / 50) ^ 850 * 1000000000 := by gcongr
        _ = ((49 / 50) ^ 50) ^ 17 * 1000000000 := by rw [← pow_mul]
        _ ≤ (73 / 200) ^ 17 * 1000000000 := by
          gcongr
          norm_num
        _ < 50 := by norm_num
    exact_mod_cast tiny
  have late := iterate_decay_le_sub (a := 49) (b := 50) (by omega) (n - 850)
    ((decay 49 50)^[850] gap)
  rw [← Function.iterate_add_apply, Nat.sub_add_cancel (by omega)] at late
  omega

/-- Fed a steady draw time from above it, the estimate falls to it and stays there. -/
theorem updates_steady (p : PresentationPacer) (d : UInt64)
    (interval : p.refreshIntervalNs.toNat ≤ 1000000000)
    (start : p.rollingMaxDrawTimeNs.toNat ≤ p.cap) (steady : d ≤ p.rollingMaxDrawTimeNs) :
    let estimate n := (p.updates (List.replicate n d)).rollingMaxDrawTimeNs
    (∀ n, d ≤ estimate n ∧ estimate (n + 1) ≤ estimate n) ∧
      (∀ n, ((estimate n).toNat : ℚ) - d.toNat ≤
        (49 / 50) ^ n * (p.rollingMaxDrawTimeNs.toNat - d.toNat)) ∧
      ∀ n, 1000 ≤ n → estimate n = d := by
  intro estimate
  obtain ⟨gap, whole⟩ := Nat.exists_eq_add_of_le (UInt64.le_iff_toNat_le.1 steady)
  have eq (n : ℕ) : (estimate n).toNat = d.toNat + (decay 49 50)^[n] gap := by
    rw [toNat_updates interval (start.trans (cap_le interval)), List.map_replicate, whole]
    exact foldl_smoothed_replicate (whole ▸ start) n
  refine ⟨fun n => ⟨?_, ?_⟩, fun n => ?_, fun n enough => ?_⟩
  · rw [UInt64.le_iff_toNat_le, eq]
    exact Nat.le_add_right _ _
  · have falls := iterate_decay_antitone (a := 49) (b := 50) (by omega) gap n.le_succ
    rw [UInt64.le_iff_toNat_le, eq, eq]
    exact Nat.add_le_add_left falls _
  · have bound := iterate_decay_le_pow (K := ℚ) (a := 49) (b := 50) n gap
    rw [eq, whole]
    push_cast at bound ⊢
    simpa only [add_sub_cancel_left] using bound
  · have small : gap ≤ 1000000000 := by
      have := start.trans (cap_le interval)
      omega
    rw [← UInt64.toNat_inj, eq, iterate_decay_eq_zero small enough, Nat.add_zero]

theorem updates_steady_sixty :
    ((construct 60).updates (List.replicate 1000 2000000)).rollingMaxDrawTimeNs = 2000000 :=
  (updates_steady (construct 60) 2000000 (by decide) (by decide) (by decide)).2.2 1000 le_rfl

/-! ### Two runs -/

/-- Longer draw times never lower the reserved time. -/
theorem updates_mono (p q : PresentationPacer) (rated : p.Rated)
    (interval : q.refreshIntervalNs = p.refreshIntervalNs) (redZone : q.redZoneNs = p.redZoneNs)
    (start : p.rollingMaxDrawTimeNs ≤ q.rollingMaxDrawTimeNs)
    (small : q.rollingMaxDrawTimeNs.toNat ≤ 1000000000) {draws longer : List UInt64}
    (draws_le : List.Forall₂ (· ≤ ·) draws longer) :
    (p.updates draws).rollingMaxDrawTimeNs ≤ (q.updates longer).rollingMaxDrawTimeNs := by
  have second := rated.interval_le
  have same : q.cap = p.cap := by rw [cap, interval, redZone, cap]
  have start' := UInt64.le_iff_toNat_le.1 start
  have draws_le' : List.Forall₂ (· ≤ ·) (draws.map UInt64.toNat) (longer.map UInt64.toNat) := by
    rw [List.forall₂_map_left_iff, List.forall₂_map_right_iff]
    exact draws_le.imp fun _ _ => UInt64.le_iff_toNat_le.1
  rw [UInt64.le_iff_toNat_le, toNat_updates second (start'.trans small),
    toNat_updates (interval ▸ second) small, same]
  exact foldl_smoothed_mono start' draws_le'

theorem updates_mono_sixty :
    ((construct 60).updates [1000000, 9000000]).rollingMaxDrawTimeNs ≤
      ((construct 60).updates [2000000, 9000000]).rollingMaxDrawTimeNs :=
  updates_mono (construct 60) (construct 60) ⟨60, rfl⟩ rfl rfl (UInt64.le_refl _) (by decide)
    (.cons (by decide) (.cons (by decide) .nil))

end SmoothDemon.PresentationPacer
