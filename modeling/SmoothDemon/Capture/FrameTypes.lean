import Mathlib.Data.List.Nodup
import Mathlib.Logic.Function.Basic
import SmoothDemon.Library.Run

/-!
# Frame types

`DmaBufFrame` and `MemoryFrame` (include/capture/FrameTypes.h).  The two classes differ in their
payload and agree in their special members, so both are `CapturedFrame` over their payload.  The
rest of the file follows the frame objects of a program: whatever it does with them, no callback
runs twice (`Lifetimes.Owned`), and every callback runs exactly once precisely when no callback is
overwritten (`Lifetimes.exactlyOnce_iff`).
-/

namespace SmoothDemon

inductive PixelFormat
  | BGRA
  | RGBA
  | BGRX
  | RGBX
  | Unknown
  deriving DecidableEq

structure DmaBufPlane where
  offset : UInt64 := 0
  pitch : UInt64 := 0
  deriving DecidableEq

/-- What a `DmaBufFrame` holds besides its callback. -/
structure DmaBufInfo where
  width : UInt32 := 0
  height : UInt32 := 0
  pts : Int64 := 0
  drmFormat : UInt64 := 0
  fd : Int32 := -1
  totalSize : UInt64 := 0
  modifier : UInt64 := 0
  planeCount : UInt32 := 0
  planes : Vector DmaBufPlane 4 := .replicate 4 {}
  deriving DecidableEq

/-- What a `MemoryFrame` holds besides its callback; `memory` is an address, `none` is null. -/
structure MemoryInfo where
  width : UInt32 := 0
  height : UInt32 := 0
  pts : Int64 := 0
  format : PixelFormat := .Unknown
  memory : Option UInt64 := none
  stride : UInt64 := 0
  size : UInt64 := 0
  offset : UInt64 := 0
  deriving DecidableEq

instance : Inhabited DmaBufInfo := ⟨{}⟩

instance : Inhabited MemoryInfo := ⟨{}⟩

/-- A frame; `onFrameDone = none` is an empty `std::function`. -/
structure CapturedFrame (Info Callback : Type) where
  info : Info
  onFrameDone : Option Callback

abbrev DmaBufFrame := CapturedFrame DmaBufInfo

abbrev MemoryFrame := CapturedFrame MemoryInfo

namespace CapturedFrame

variable {Info Callback : Type}

/-- `DmaBufFrame()` and `MemoryFrame()`. -/
def new [Inhabited Info] : CapturedFrame Info Callback where
  info := default
  onFrameDone := none

/-- A frame after it was moved from: scalar members stay, the callback is gone. -/
def movedFrom (frame : CapturedFrame Info Callback) : CapturedFrame Info Callback :=
  { frame with onFrameDone := none }

/-- The callback the destructor invokes. -/
def destroy (frame : CapturedFrame Info Callback) : Option Callback := frame.onFrameDone

end CapturedFrame

/-! ### Frame objects over time -/

/-- The frame objects of a program by address, with callbacks numbered in the order they were
installed, and the callbacks that ran, newest first. -/
structure Lifetimes (Info : Type) where
  objects : ℕ → Option (CapturedFrame Info ℕ) := fun _ => none
  installed : ℕ := 0
  invoked : List ℕ := []

namespace Lifetimes

inductive Op (Info : Type)
  | construct (x : ℕ)
  | write (x : ℕ) (info : Info)
  | install (x : ℕ)
  | moveConstruct (x y : ℕ)
  | moveAssign (x y : ℕ)
  | destroy (x : ℕ)

variable {Info : Type}

def set (s : Lifetimes Info) (x : ℕ) (frame : Option (CapturedFrame Info ℕ)) : Lifetimes Info :=
  { s with objects := Function.update s.objects x frame }

/-- The object at `x` takes over the frame `src` found at `y`.  For `x = y` this is libstdc++'s
`function(std::move(x)).swap(*this)`, which leaves the callback where it was. -/
def move (s : Lifetimes Info) (x y : ℕ) (src : CapturedFrame Info ℕ) : Lifetimes Info :=
  (s.set y (some src.movedFrom)).set x (some src)

/-- One operation; `none` when an object it needs is not there, or one it creates already is. -/
def step [Inhabited Info] (s : Lifetimes Info) : Op Info → Option (Lifetimes Info)
  | .construct x =>
    match s.objects x with
    | none => some (s.set x (some .new))
    | some _ => none
  | .write x info =>
    match s.objects x with
    | none => none
    | some frame => some (s.set x (some { frame with info := info }))
  | .install x =>
    match s.objects x with
    | none => none
    | some frame =>
      some { s.set x (some { frame with onFrameDone := some s.installed }) with
        installed := s.installed + 1 }
  | .moveConstruct x y =>
    match s.objects x, s.objects y with
    | none, some src => some (s.move x y src)
    | _, _ => none
  | .moveAssign x y =>
    match s.objects x, s.objects y with
    | some _, some src => some (s.move x y src)
    | _, _ => none
  | .destroy x =>
    match s.objects x with
    | none => none
    | some frame =>
      some { s.set x none with invoked := frame.destroy.toList ++ s.invoked }

/-- The callback in the frame at `x`. -/
def held (s : Lifetimes Info) (x : ℕ) : Option ℕ := (s.objects x).bind (·.onFrameDone)

/-- Every callback installed so far is in a frame and has not run, or is in no frame and ran once.
-/
def ExactlyOnce (s : Lifetimes Info) : Prop :=
  ∀ c < s.installed,
    (∃ x, s.held x = some c) ∧ s.invoked.count c = 0 ∨
      (∀ x, s.held x ≠ some c) ∧ s.invoked.count c = 1

/-- No callback is lost by the operation: what is overwritten held none. -/
def Vacated (s : Lifetimes Info) : Op Info → Prop
  | .install x => s.held x = none
  | .moveAssign x y => x = y ∨ s.held x = none
  | _ => True

/-- A callback has one frame at most, and none once it ran. -/
structure Owned (s : Lifetimes Info) : Prop where
  unique : ∀ x y c, s.held x = some c → s.held y = some c → x = y
  fresh : ∀ x c, s.held x = some c → c < s.installed
  known : ∀ c ∈ s.invoked, c < s.installed
  waiting : ∀ x c, s.held x = some c → c ∉ s.invoked
  nodup : s.invoked.Nodup

/-- What an operation can do to the callbacks. -/
inductive Effect (s : Lifetimes Info) (op : Op Info) (s' : Lifetimes Info) : Prop
  | keep (held : s'.held = s.held) (installed : s'.installed = s.installed)
      (invoked : s'.invoked = s.invoked) (vacated : s.Vacated op)
  | install (x : ℕ) (held : s'.held = Function.update s.held x (some s.installed))
      (installed : s'.installed = s.installed + 1) (invoked : s'.invoked = s.invoked)
      (vacated : s.Vacated op ↔ s.held x = none)
  | move (x y : ℕ) (apart : x ≠ y)
      (held : s'.held = Function.update (Function.update s.held y none) x (s.held y))
      (installed : s'.installed = s.installed) (invoked : s'.invoked = s.invoked)
      (vacated : s.Vacated op ↔ s.held x = none)
  | run (x : ℕ) (held : s'.held = Function.update s.held x none)
      (installed : s'.installed = s.installed)
      (invoked : s'.invoked = (s.held x).toList ++ s.invoked) (vacated : s.Vacated op)

theorem held_set (s : Lifetimes Info) (x : ℕ) (frame : Option (CapturedFrame Info ℕ)) :
    (s.set x frame).held = Function.update s.held x (frame.bind (·.onFrameDone)) := by
  funext z
  unfold held set
  by_cases h : z = x <;> simp [h]

theorem held_move (s : Lifetimes Info) {x y : ℕ} {src : CapturedFrame Info ℕ}
    (hy : s.objects y = some src) :
    (s.move x y src).held = Function.update (Function.update s.held y none) x (s.held y) := by
  have old : s.held y = src.onFrameDone := by simp [held, hy]
  rw [move, held_set, held_set, old]
  rfl

theorem held_of_objects {s : Lifetimes Info} {x : ℕ} {frame : Option (CapturedFrame Info ℕ)}
    (h : s.objects x = frame) : s.held x = frame.bind (·.onFrameDone) := by
  rw [held, h]

theorem effect [Inhabited Info] {s s' : Lifetimes Info} {op : Op Info}
    (h : s.step op = some s') : s.Effect op s' := by
  cases op with
  | construct x =>
    simp only [step] at h
    split at h
    · next free =>
      cases h
      refine .keep ?_ rfl rfl trivial
      rw [held_set]
      exact Function.update_eq_self_iff.2 (held_of_objects free).symm
    · cases h
  | write x info =>
    simp only [step] at h
    split at h
    · cases h
    · next frame there =>
      cases h
      refine .keep ?_ rfl rfl trivial
      rw [held_set]
      exact Function.update_eq_self_iff.2 (held_of_objects there).symm
  | install x =>
    simp only [step] at h
    split at h
    · cases h
    · next frame there =>
      cases h
      exact .install x (held_set s x _) rfl rfl Iff.rfl
  | moveConstruct x y =>
    simp only [step] at h
    split at h
    · next src free there =>
      cases h
      refine .move x y ?_ (held_move s there) rfl rfl ?_
      · rintro rfl
        rw [free] at there
        cases there
      · simp [Vacated, held_of_objects free]
    · cases h
  | moveAssign x y =>
    simp only [step] at h
    split at h
    · next dst src _ there =>
      cases h
      by_cases same : x = y
      · subst same
        refine .keep ?_ rfl rfl (.inl rfl)
        rw [held_move s there, Function.update_idem, Function.update_eq_self]
      · exact .move x y same (held_move s there) rfl rfl (by simp [Vacated, same])
    · cases h
  | destroy x =>
    simp only [step] at h
    split at h
    · cases h
    · next frame there =>
      cases h
      refine .run x (held_set s x none) rfl ?_ trivial
      rw [held_of_objects there]
      rfl

section Effect

variable {s s' : Lifetimes Info} {op : Op Info}

theorem Owned.effect (h : s.Owned) (e : s.Effect op s') : s'.Owned := by
  cases e with
  | keep held installed invoked _ =>
    exact ⟨held ▸ h.unique, held ▸ installed ▸ h.fresh, installed ▸ invoked ▸ h.known,
      held ▸ invoked ▸ h.waiting, invoked ▸ h.nodup⟩
  | install x held installed invoked _ =>
    have new : ∀ z, s.held z ≠ some s.installed := fun z hz =>
      absurd (h.fresh z _ hz) (Nat.lt_irrefl _)
    refine ⟨?_, ?_, ?_, ?_, invoked ▸ h.nodup⟩
    · intro a b c ha hb
      rw [held, Function.update_apply] at ha hb
      have := h.unique a b c
      grind
    · intro a c ha
      rw [held, Function.update_apply] at ha
      have := h.fresh a c
      grind
    · intro c hc
      rw [invoked] at hc
      have := h.known c hc
      omega
    · intro a c ha hc
      rw [held, Function.update_apply] at ha
      rw [invoked] at hc
      have := h.known c hc
      have := h.waiting a c
      grind
  | move x y apart held installed invoked _ =>
    refine ⟨?_, ?_, installed ▸ invoked ▸ h.known, ?_, invoked ▸ h.nodup⟩
    · intro a b c ha hb
      simp only [held, Function.update_apply] at ha hb
      have := h.unique a b c
      have := h.unique a y c
      have := h.unique b y c
      grind
    · intro a c ha
      simp only [held, Function.update_apply] at ha
      have := h.fresh a c
      have := h.fresh y c
      grind
    · intro a c ha
      simp only [held, Function.update_apply] at ha
      have := h.waiting a c
      have := h.waiting y c
      grind
  | run x held installed invoked _ =>
    refine ⟨?_, ?_, ?_, ?_, ?_⟩
    · intro a b c ha hb
      simp only [held, Function.update_apply] at ha hb
      have := h.unique a b c
      grind
    · intro a c ha
      simp only [held, Function.update_apply] at ha
      have := h.fresh a c
      grind
    · intro c hc
      rw [invoked, List.mem_append, Option.mem_toList] at hc
      have := h.fresh x c
      have := h.known c
      grind
    · intro a c ha
      simp only [held, Function.update_apply] at ha
      rw [invoked, List.mem_append, Option.mem_toList]
      have := h.waiting a c
      have := h.unique a x c
      grind
    · rw [invoked]
      cases hx : s.held x with
      | none => exact h.nodup
      | some c => exact List.nodup_cons.2 ⟨h.waiting x c hx, h.nodup⟩

/-- No callback was dropped without having run. -/
def Kept (s : Lifetimes Info) : Prop :=
  ∀ c < s.installed, c ∈ s.invoked ∨ ∃ x, s.held x = some c

theorem Owned.exactlyOnce_iff_kept (h : s.Owned) : s.ExactlyOnce ↔ s.Kept := by
  refine forall₂_congr fun c _ => ?_
  constructor
  · rintro (⟨holder, -⟩ | ⟨-, once⟩)
    · exact .inr holder
    · exact .inl (List.count_pos_iff.1 (by omega))
  · intro hc
    by_cases holder : ∃ x, s.held x = some c
    · obtain ⟨x, hx⟩ := holder
      exact .inl ⟨⟨x, hx⟩, List.count_eq_zero.2 (h.waiting x c hx)⟩
    · have ran : c ∈ s.invoked := hc.resolve_right holder
      exact .inr ⟨not_exists.1 holder, List.count_eq_one_of_mem h.nodup ran⟩

theorem Owned.kept_iff (h : s.Owned) (kept : s.Kept) (e : s.Effect op s') :
    s'.Kept ↔ s.Vacated op := by
  cases e with
  | keep held installed invoked vacated =>
    unfold Kept at kept ⊢
    rw [held, installed, invoked]
    exact iff_of_true kept vacated
  | install x held installed invoked vacated =>
    rw [vacated]
    unfold Kept at kept ⊢
    rw [held, installed, invoked]
    constructor
    · intro after
      by_contra full
      obtain ⟨c, hc⟩ := Option.ne_none_iff_exists'.1 full
      have old := h.fresh x c hc
      obtain ran | ⟨z, hz⟩ := after c (by omega)
      · exact h.waiting x c hc ran
      · rw [Function.update_apply] at hz
        have := h.unique z x c
        grind
    · intro empty c hc
      by_cases new : c = s.installed
      · exact .inr ⟨x, by rw [new, Function.update_self]⟩
      · obtain ran | ⟨z, hz⟩ := kept c (by omega)
        · exact .inl ran
        · refine .inr ⟨z, ?_⟩
          rw [Function.update_apply]
          grind
  | move x y apart held installed invoked vacated =>
    rw [vacated]
    unfold Kept at kept ⊢
    rw [held, installed, invoked]
    constructor
    · intro after
      by_contra full
      obtain ⟨c, hc⟩ := Option.ne_none_iff_exists'.1 full
      obtain ran | ⟨z, hz⟩ := after c (h.fresh x c hc)
      · exact h.waiting x c hc ran
      · simp only [Function.update_apply] at hz
        have := h.unique z x c
        have := h.unique y x c
        grind
    · intro empty c hc
      obtain ran | ⟨z, hz⟩ := kept c hc
      · exact .inl ran
      · by_cases moved : z = y
        · exact .inr ⟨x, by rw [Function.update_self, ← moved, hz]⟩
        · refine .inr ⟨z, ?_⟩
          simp only [Function.update_apply]
          grind
  | run x held installed invoked vacated =>
    refine iff_of_true (fun c hc => ?_) vacated
    rw [installed] at hc
    rw [invoked, held, List.mem_append, Option.mem_toList]
    obtain ran | ⟨z, hz⟩ := kept c hc
    · exact .inl (.inr ran)
    · by_cases gone : z = x
      · exact .inl (.inl (gone ▸ hz))
      · exact .inr ⟨z, by rw [Function.update_of_ne gone, hz]⟩

/-- A callback that was dropped never comes back. -/
theorem Effect.kept_of_kept (e : s.Effect op s') (kept : s'.Kept) : s.Kept := by
  intro c hc
  have later : ∀ z, s'.held z = some c → ∃ w, s.held w = some c := by
    intro z hz
    cases e with
    | keep held _ _ _ => exact ⟨z, held ▸ hz⟩
    | install x held _ _ _ =>
      rw [held, Function.update_apply] at hz
      grind
    | move x y _ held _ _ _ =>
      simp only [held, Function.update_apply] at hz
      grind
    | run x held _ _ _ =>
      rw [held, Function.update_apply] at hz
      grind
  have more : c < s'.installed := by
    cases e <;> omega
  obtain ran | ⟨z, hz⟩ := kept c more
  · cases e with
    | keep _ _ invoked _ => exact .inl (invoked ▸ ran)
    | install _ _ _ invoked _ => exact .inl (invoked ▸ ran)
    | move _ _ _ _ _ invoked _ => exact .inl (invoked ▸ ran)
    | run x _ _ invoked _ =>
      rw [invoked, List.mem_append, Option.mem_toList] at ran
      exact ran.elim (fun hx => .inr ⟨x, hx⟩) .inl
  · exact .inr (later z hz)

end Effect

/-! ### Runs -/

section Runs

variable [Inhabited Info]

omit [Inhabited Info] in
theorem owned_start : (({} : Lifetimes Info)).Owned := by
  refine ⟨?_, ?_, ?_, ?_, List.nodup_nil⟩ <;> simp [held]

theorem owned_step (s : Lifetimes Info) (op : Op Info) (s' : Lifetimes Info) (h : s.Owned)
    (last : s.step op = some s') : s'.Owned :=
  h.effect (Lifetimes.effect last)

/-- Frames that come and go in any way keep all callbacks exactly when none is overwritten; this is
already decided by the callbacks that ran once all frames are gone. -/
theorem exactlyOnce_iff (Info : Type) [Inhabited Info] (ops : List (Op Info)) (t : Lifetimes Info)
    (run : Transition.Run step {} ops t) :
    (∀ c, t.invoked.count c ≤ 1) ∧
      (Transition.Always step ExactlyOnce {} ops ↔ Transition.Each step Vacated {} ops) ∧
      ((∀ x, t.objects x = none) →
        ((∀ c < t.installed, t.invoked.count c = 1) ↔ Transition.Each step Vacated {} ops)) := by
  have owned : t.Owned := Transition.Reachable.invariant owned_step owned_start ⟨ops, run⟩
  have start : ({} : Lifetimes Info).Kept := fun c hc => absurd hc (Nat.not_lt_zero c)
  have exact_step : ∀ (s : Lifetimes Info) op s', s.Owned → s.Kept → s.step op = some s' →
      (s'.Kept ↔ s.Vacated op) := fun s op s' h kept last => h.kept_iff kept (effect last)
  refine ⟨List.nodup_iff_count_le_one.1 owned.nodup, ?_, fun gone => ?_⟩
  · have same : Transition.Always step ExactlyOnce {} ops ↔ Transition.Always step Kept {} ops := by
      refine forall₄_congr fun bs u _ before => ?_
      have h : u.Owned := Transition.Reachable.invariant owned_step owned_start ⟨bs, before⟩
      exact h.exactlyOnce_iff_kept
    rw [same, Transition.always_iff_each owned_step exact_step owned_start]
    exact and_iff_right start
  · have ended : (∀ c < t.installed, t.invoked.count c = 1) ↔ t.Kept := by
      rw [← owned.exactlyOnce_iff_kept]
      simp [ExactlyOnce, held, gone]
    have lost : ∀ (s : Lifetimes Info) op s', s.Owned → ¬ s.Kept → s.step op = some s' →
        ¬ s'.Kept := fun s op s' _ h last after => h ((effect last).kept_of_kept after)
    rw [ended, Transition.last_iff_each owned_step exact_step lost owned_start run]
    exact and_iff_right start

theorem exactlyOnce_iff_moved :
    ∃ t, Transition.Run (@step DmaBufInfo _) {}
        [.construct 0, .install 0, .moveConstruct 1 0, .destroy 0, .destroy 1] t ∧
      Transition.Each (@step DmaBufInfo _) Vacated {}
        [.construct 0, .install 0, .moveConstruct 1 0, .destroy 0, .destroy 1] := by
  have run : Transition.Run (@step DmaBufInfo _) {}
      [.construct 0, .install 0, .moveConstruct 1 0, .destroy 0, .destroy 1] _ := rfl
  refine ⟨_, run, ((exactlyOnce_iff DmaBufInfo _ _ run).2.2 ?_).1 (by decide)⟩
  intro x
  simp only [Function.update_apply, set, move]
  grind

/-- Move assignment onto a frame that still holds its callback: callback 0 never runs. -/
theorem not_exactlyOnce_moveAssign :
    ∃ t, Transition.Run (@step DmaBufInfo _) {}
        [.construct 0, .install 0, .construct 1, .install 1, .moveAssign 0 1, .destroy 0,
          .destroy 1] t ∧
      (∀ x, t.objects x = none) ∧ 0 < t.installed ∧ t.invoked.count 0 = 0 := by
  refine ⟨_, rfl, ?_, by decide, by decide⟩
  intro x
  simp only [Function.update_apply, set, move]
  grind

end Runs

end Lifetimes

end SmoothDemon
