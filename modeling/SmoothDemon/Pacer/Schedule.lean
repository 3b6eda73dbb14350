import Mathlib.Algebra.Order.Ring.Nat
import Mathlib.Data.List.Chain
import Mathlib.Data.Nat.ModEq
import SmoothDemon.Pacer.PresentationPacer

/-!
# Schedules over many frames

Two ways to drive the pacer: `vblankLoop` marks the VBlank each wakeup aims at, as the header asks;
`frameLoop` marks the wakeup itself, as tests/test_pacer.cpp does.  Either way every frame aims at
the first tick of its anchor's grid that the deadline allows (`Driven`), so the two differ only in
where the next grid is anchored.  The first keeps its phase for ever; the second keeps it across two
frames exactly when the reserved time between wakeup and VBlank is a whole number of intervals that
the clock has caught up with (`Frame.Realigned`).
-/

namespace SmoothDemon

open Grid

/-- What one frame of a loop saw and did: the clock, `m_lastVBlankNs` and the reserved time at
`CalculateNextWakeup`, the wakeup returned, and the instant given to `MarkVBlank`. -/
structure Frame where
  now : UInt64
  anchor : UInt64
  offset : ℕ
  wakeup : UInt64
  marked : UInt64

namespace Frame

/-- The VBlank a frame aims at, in exact arithmetic. -/
def target (f : Frame) : ℕ := f.wakeup.toNat + f.offset

def deadline (f : Frame) : ℕ := f.now.toNat + f.offset

def Aims (interval : ℕ) (f : Frame) : Prop :=
  IsNextTick f.anchor.toNat interval f.deadline f.target

/-- `g` aims a positive number of whole intervals after `f`, one interval if there is time for it.
-/
def NoDrift (interval : ℕ) (f g : Frame) : Prop :=
  (f.target < g.target ∧ interval ∣ g.target - f.target) ∧
    (g.deadline ≤ f.target + interval → g.target = f.target + interval)

/-- Nothing was reserved in `f`; or whole intervals were, and the deadline has moved past a VBlank
of `f`'s grid that `f` could still meet. -/
def Realigned (interval : ℕ) (f g : Frame) : Prop :=
  f.offset = 0 ∨ interval ∣ f.offset ∧ ∃ k, 1 ≤ k ∧
    f.deadline ≤ f.anchor.toNat + k * interval ∧ f.anchor.toNat + k * interval < g.deadline

theorem noDrift_iff {interval : ℕ} (positive : 0 < interval) (f g : Frame) :
    NoDrift interval f g ↔ Advances interval g.deadline f.target g.target := by
  have later : (f.target < g.target ∧ interval ∣ g.target - f.target) ↔
      g.target ∈ ticks f.target interval := by
    constructor
    · rintro ⟨lt, k, hk⟩
      obtain ⟨j, rfl⟩ : ∃ j, k = j + 1 := Nat.exists_eq_succ_of_ne_zero fun zero => by
        rw [zero, mul_zero] at hk
        omega
      refine ⟨j, ?_⟩
      rw [smul_eq_mul, mul_comm, ← hk]
      omega
    · intro h
      have lt := lt_of_mem_ticks positive h
      obtain ⟨j, hj⟩ := h
      refine ⟨lt, j + 1, ?_⟩
      rw [smul_eq_mul] at hj
      rw [hj, Nat.add_sub_cancel_left, mul_comm]
  rw [NoDrift, later, Advances]

theorem now_le_wakeup {interval : ℕ} {f : Frame} (h : f.Aims interval) : f.now ≤ f.wakeup := by
  have due := h.le
  rw [deadline, target] at due
  rw [UInt64.le_iff_toNat_le]
  omega

theorem realigned_iff {interval : ℕ} {f : Frame} (h : f.Aims interval) (g : Frame) :
    Realigned interval f g ↔
      f.offset = 0 ∨ (∃ q : ℕ, f.offset = q • interval) ∧ f.target < g.deadline := by
  have passed : (∃ k, 1 ≤ k ∧ f.deadline ≤ f.anchor.toNat + k * interval ∧
      f.anchor.toNat + k * interval < g.deadline) ↔ f.target < g.deadline := by
    rw [h.lt_iff g.deadline]
    constructor
    · rintro ⟨k, one, due, early⟩
      obtain ⟨j, rfl⟩ := Nat.exists_eq_add_of_le' one
      exact ⟨_, ⟨j, rfl⟩, due, early⟩
    · rintro ⟨u, ⟨j, rfl⟩, due, early⟩
      exact ⟨j + 1, Nat.le_add_left 1 j, due, early⟩
  have multiple : interval ∣ f.offset ↔ ∃ q : ℕ, f.offset = q • interval :=
    ⟨fun ⟨q, hq⟩ => ⟨q, by rw [hq, smul_eq_mul, mul_comm]⟩,
      fun ⟨q, hq⟩ => ⟨q, by rw [hq, smul_eq_mul, mul_comm]⟩⟩
  rw [Realigned, passed, multiple]

/-- Over a frame that marked its own wakeup, the next one keeps the phase iff it is realigned. -/
theorem noDrift_iff_realigned {interval : ℕ} (positive : 0 < interval) {f g : Frame}
    (hf : f.Aims interval) (hg : g.Aims interval) (wakeup : g.anchor = f.wakeup) :
    NoDrift interval f g ↔ Realigned interval f g := by
  have back : g.anchor.toNat + f.offset = f.target := by rw [wakeup, target]
  rw [noDrift_iff positive, realigned_iff hf, advances_iff positive (Nat.zero_le _) back hg]

end Frame

/-- The frames of a loop with a fixed interval: each aims at a tick of the grid its predecessor
marked. -/
def Driven (interval : ℕ) : UInt64 → List Frame → Prop
  | _, [] => True
  | anchor, f :: frames => f.anchor = anchor ∧ f.Aims interval ∧ Driven interval f.marked frames

namespace Driven

variable {interval : ℕ} {anchor : UInt64} {frames : List Frame}

theorem aims (h : Driven interval anchor frames) : ∀ f ∈ frames, f.Aims interval := by
  induction frames generalizing anchor with
  | nil => simp
  | cons f frames ih =>
    obtain ⟨-, aims, rest⟩ := h
    exact List.forall_mem_cons.2 ⟨aims, ih rest⟩

/-- Neighbouring frames: both aim, and the second starts where the first marked. -/
theorem isChain (h : Driven interval anchor frames) :
    frames.IsChain fun f g => f.Aims interval ∧ g.Aims interval ∧ g.anchor = f.marked := by
  induction frames generalizing anchor with
  | nil => exact List.isChain_nil
  | cons f frames ih =>
    obtain ⟨-, aims, rest⟩ := h
    refine List.isChain_cons.2 ⟨fun g hg => ?_, ih rest⟩
    cases frames with
    | nil => cases hg
    | cons g' frames =>
      cases hg
      exact ⟨aims, rest.2.1, rest.1⟩

/-- Marking the targets keeps every later target on the first grid. -/
theorem mem_ticks (h : Driven interval anchor frames)
    (targets : ∀ f ∈ frames, f.marked.toNat = f.target) :
    ∀ f ∈ frames, f.target ∈ ticks anchor.toNat interval := by
  induction frames generalizing anchor with
  | nil => simp
  | cons f frames ih =>
    obtain ⟨rfl, aims, rest⟩ := h
    obtain ⟨marked, targets⟩ := List.forall_mem_cons.1 targets
    refine List.forall_mem_cons.2 ⟨aims.mem, fun g hg => ?_⟩
    have later := ih rest targets g hg
    rw [marked] at later
    exact mem_ticks_trans aims.mem later

theorem pairwise_target_lt (positive : 0 < interval) (h : Driven interval anchor frames)
    (targets : ∀ f ∈ frames, f.marked.toNat = f.target) :
    frames.Pairwise fun f g => f.target < g.target := by
  induction frames generalizing anchor with
  | nil => exact List.Pairwise.nil
  | cons f frames ih =>
    obtain ⟨-, -, rest⟩ := h
    obtain ⟨marked, targets⟩ := List.forall_mem_cons.1 targets
    refine List.pairwise_cons.2 ⟨fun g hg => ?_, ih rest targets⟩
    have later := rest.mem_ticks targets g hg
    rw [marked] at later
    exact lt_of_mem_ticks positive later

end Driven

namespace PresentationPacer

/-! ### Marking the targeted VBlank -/

inductive LoopStep
  | updateLastDrawDuration (drawTimeNs : UInt64)
  | setRedZoneNs (redZoneNs : UInt64)
  | frame (now : UInt64)

def vblankLoop : PresentationPacer → List LoopStep → Option (List Frame)
  | _, [] => some []
  | p, .updateLastDrawDuration d :: steps => vblankLoop (p.updateLastDrawDuration d) steps
  | p, .setRedZoneNs r :: steps => vblankLoop (p.setRedZoneNs r) steps
  | p, .frame now :: steps => do
      let w ← p.calculateNextWakeup now
      let target := w + p.rollingMaxDrawTimeNs + p.redZoneNs
      let frames ← vblankLoop (p.markVBlank target) steps
      return ⟨now, p.lastVBlankNs, p.offset, w, target⟩ :: frames

/-- No sum of any `CalculateNextWakeup` of the loop exceeds `2 ^ 64 - 1`. -/
def VBlankLoopFits : PresentationPacer → List LoopStep → Prop
  | _, [] => True
  | p, .updateLastDrawDuration d :: steps => VBlankLoopFits (p.updateLastDrawDuration d) steps
  | p, .setRedZoneNs r :: steps => VBlankLoopFits (p.setRedZoneNs r) steps
  | p, .frame now :: steps => p.FitsU64 now ∧ ∀ w, p.calculateNextWakeup now = some w →
      VBlankLoopFits (p.markVBlank (w + p.rollingMaxDrawTimeNs + p.redZoneNs)) steps

theorem toNat_target {p : PresentationPacer} {w : UInt64} (h : w.toNat + p.offset < 2 ^ 64) :
    (w + p.rollingMaxDrawTimeNs + p.redZoneNs).toNat = w.toNat + p.offset := by
  rw [offset] at h ⊢
  rw [UInt64.toNat_add, UInt64.toNat_add]
  omega

theorem vblankLoop_driven (p : PresentationPacer) (steps : List LoopStep)
    (positive : 0 < p.refreshIntervalNs) (fits : p.VBlankLoopFits steps) :
    ∃ frames, p.vblankLoop steps = some frames ∧
      Driven p.refreshIntervalNs.toNat p.lastVBlankNs frames ∧
      ∀ f ∈ frames, f.marked.toNat = f.target := by
  induction steps generalizing p with
  | nil => exact ⟨[], rfl, trivial, by simp⟩
  | cons step steps ih =>
    cases step with
    | updateLastDrawDuration d => exact ih (p.updateLastDrawDuration d) positive fits
    | setRedZoneNs r => exact ih (p.setRedZoneNs r) positive fits
    | frame now =>
      obtain ⟨w, returned, inRange, aims⟩ := calculateNextWakeup_spec positive fits.1
      let target := w + p.rollingMaxDrawTimeNs + p.redZoneNs
      obtain ⟨frames, run, driven, targets⟩ := ih (p.markVBlank target) positive (fits.2 w returned)
      refine ⟨⟨now, p.lastVBlankNs, p.offset, w, target⟩ :: frames, ?_, ⟨rfl, aims, driven⟩,
        List.forall_mem_cons.2 ⟨toNat_target inRange, targets⟩⟩
      simp only [vblankLoop, returned, Option.bind_eq_bind, Option.bind_some]
      rw [run]
      rfl

/-- Driven as documented, the pacer never loses its phase, never targets a VBlank twice, never wakes
in the past and never skips a VBlank it has time for. -/
theorem vblankLoop_phaseLocked (p : PresentationPacer) (steps : List LoopStep)
    (positive : 0 < p.refreshIntervalNs) (fits : p.VBlankLoopFits steps) :
    ∃ frames, p.vblankLoop steps = some frames ∧
      (∀ f ∈ frames, f.marked.toNat = f.target ∧
        f.target ≡ p.lastVBlankNs.toNat [MOD p.refreshIntervalNs.toNat]) ∧
      (frames.Pairwise fun f g => f.target < g.target) ∧
      (∀ f ∈ frames, f.now ≤ f.wakeup) ∧
      frames.IsChain fun f g => g.now.toNat + g.offset ≤ f.target + p.refreshIntervalNs.toNat →
        g.target = f.target + p.refreshIntervalNs.toNat := by
  obtain ⟨frames, run, driven, targets⟩ := vblankLoop_driven p steps positive fits
  have hI : 0 < p.refreshIntervalNs.toNat := UInt64.lt_iff_toNat_lt.1 positive
  refine ⟨frames, run, fun f hf => ⟨targets f hf, ?_⟩, driven.pairwise_target_lt hI targets,
    fun f hf => Frame.now_le_wakeup (driven.aims f hf), ?_⟩
  · obtain ⟨k, hk⟩ := driven.mem_ticks targets f hf
    rw [hk, smul_eq_mul]
    exact Nat.add_mul_mod_self_right _ _ _
  · refine driven.isChain.imp_of_mem_imp fun f g hf _ ⟨_, aims, anchor⟩ early => ?_
    have start : g.anchor.toNat = f.target := by rw [anchor, targets f hf]
    rw [Frame.Aims, start] at aims
    exact aims.eq_first hI early

theorem vblankLoop_phaseLocked_sixty :
    ∃ frames, (construct 60).vblankLoop
        [.frame 0, .updateLastDrawDuration 9000000, .frame 17000000] = some frames ∧
      frames.Pairwise fun f g => f.target < g.target := by
  have second : VBlankLoopFits ((construct 60).markVBlank 16666666)
      [.updateLastDrawDuration 9000000, .frame 17000000] :=
    ⟨.of_bound (by decide) (by decide), fun _ _ => trivial⟩
  have fits : (construct 60).VBlankLoopFits
      [.frame 0, .updateLastDrawDuration 9000000, .frame 17000000] := by
    refine ⟨.of_bound (by decide) (by decide), fun w returned => ?_⟩
    have first : (construct 60).calculateNextWakeup 0 = some 12016666 := by decide
    obtain rfl := Option.some.inj (first.symm.trans returned)
    exact second
  obtain ⟨frames, run, -, increasing, -⟩ := vblankLoop_phaseLocked (construct 60) _ (by decide) fits
  exact ⟨frames, run, increasing⟩

/-! ### Marking the wakeup -/

/-- The loop of tests/test_pacer.cpp: a clock reading and a draw time for each frame. -/
def frameLoop : PresentationPacer → List (UInt64 × UInt64) → Option (List Frame)
  | _, [] => some []
  | p, (now, drawTimeNs) :: rest => do
      let wakeupNs ← p.calculateNextWakeup now
      let frames ← frameLoop ((p.updateLastDrawDuration drawTimeNs).markVBlank wakeupNs) rest
      return ⟨now, p.lastVBlankNs, p.offset, wakeupNs, wakeupNs⟩ :: frames

/-- No sum of any `CalculateNextWakeup` of the loop exceeds `2 ^ 64 - 1`. -/
def FrameLoopFits : PresentationPacer → List (UInt64 × UInt64) → Prop
  | _, [] => True
  | p, (now, drawTimeNs) :: rest => p.FitsU64 now ∧ ∀ w, p.calculateNextWakeup now = some w →
      FrameLoopFits ((p.updateLastDrawDuration drawTimeNs).markVBlank w) rest

theorem frameLoop_driven (p : PresentationPacer) (draws : List (UInt64 × UInt64))
    (positive : 0 < p.refreshIntervalNs) (fits : p.FrameLoopFits draws) :
    ∃ frames, p.frameLoop draws = some frames ∧
      Driven p.refreshIntervalNs.toNat p.lastVBlankNs frames ∧
      ∀ f ∈ frames, f.marked = f.wakeup := by
  induction draws generalizing p with
  | nil => exact ⟨[], rfl, trivial, by simp⟩
  | cons draw draws ih =>
    obtain ⟨now, drawTimeNs⟩ := draw
    obtain ⟨w, returned, -, aims⟩ := calculateNextWakeup_spec positive fits.1
    obtain ⟨frames, run, driven, wakeups⟩ :=
      ih ((p.updateLastDrawDuration drawTimeNs).markVBlank w) positive (fits.2 w returned)
    refine ⟨⟨now, p.lastVBlankNs, p.offset, w, w⟩ :: frames, ?_, ⟨rfl, aims, driven⟩,
      List.forall_mem_cons.2 ⟨rfl, wakeups⟩⟩
    rw [frameLoop, returned, Option.bind_eq_bind, Option.bind_some, run]
    rfl

/-- Driven as the test drives it, the schedule stays in phase exactly over the frames that are
realigned. -/
theorem frameLoop_noDrift_iff (p : PresentationPacer) (draws : List (UInt64 × UInt64))
    (positive : 0 < p.refreshIntervalNs) (fits : p.FrameLoopFits draws) :
    ∃ frames, p.frameLoop draws = some frames ∧
      (frames.IsChain (Frame.NoDrift p.refreshIntervalNs.toNat) ↔
        frames.IsChain (Frame.Realigned p.refreshIntervalNs.toNat)) := by
  obtain ⟨frames, run, driven, wakeups⟩ := frameLoop_driven p draws positive fits
  have hI : 0 < p.refreshIntervalNs.toNat := UInt64.lt_iff_toNat_lt.1 positive
  have same := driven.isChain
  refine ⟨frames, run, ?_⟩
  rw [List.isChain_iff_forall_rel_of_append_cons_cons] at same ⊢
  rw [List.isChain_iff_forall_rel_of_append_cons_cons]
  refine forall₄_congr fun f g before after => forall_congr' fun split => ?_
  obtain ⟨hf, hg, anchor⟩ := same split
  have mem : f ∈ frames := by simp [split]
  exact Frame.noDrift_iff_realigned hI hf hg (anchor.trans (wakeups f mem))

private theorem frameLoopFits_sixty :
    (construct 60).FrameLoopFits [(0, 4000000), (17000000, 4000000)] := by
  refine ⟨.of_bound (by decide) (by decide), fun w returned => ?_⟩
  have first : (construct 60).calculateNextWakeup 0 = some 12016666 := by decide
  obtain rfl := Option.some.inj (first.symm.trans returned)
  exact ⟨.of_bound (by decide) (by decide), fun _ _ => trivial⟩

theorem frameLoop_noDrift_iff_sixty :
    ∃ frames, (construct 60).frameLoop [(0, 4000000), (17000000, 4000000)] = some frames ∧
      (frames.IsChain (Frame.NoDrift (construct 60).refreshIntervalNs.toNat) ↔
        frames.IsChain (Frame.Realigned (construct 60).refreshIntervalNs.toNat)) :=
  frameLoop_noDrift_iff (construct 60) _ (by decide) frameLoopFits_sixty

/-- Two frames at 60 Hz with the default red zone: the second aims 12.02 ms after the first. -/
theorem frameLoop_drifts :
    (construct 60).FrameLoopFits [(0, 4000000), (17000000, 4000000)] ∧
      ∃ frames, (construct 60).frameLoop [(0, 4000000), (17000000, 4000000)] = some frames ∧
        ¬ frames.IsChain (Frame.NoDrift (construct 60).refreshIntervalNs.toNat) := by
  refine ⟨frameLoopFits_sixty, _, rfl, fun inPhase => ?_⟩
  have whole := (List.isChain_pair.1 inPhase).1.2
  exact absurd whole (by decide)

end PresentationPacer

end SmoothDemon
