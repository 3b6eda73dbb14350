import SmoothDemon.Compute.OpenCLContext
import SmoothDemon.Library.Run

/-!
# OpenCLProgram

src/compute/OpenCLProgram.cpp and a caller who may release the kernels it was given, as the header
offers it to.  The object tracks every kernel it creates and releases all of them in its destructor,
whoever released them before: everything is released once iff the caller releases nothing
(`releasedOnce_iff`).
-/

namespace SmoothDemon

open Custody Transition

inductive ProgramHandle
  | program (handle : ℕ)
  | kernel (handle : ℕ)
  deriving DecidableEq

/-- The object; `returned` are the kernels its caller was given and has not released. -/
structure OpenCLProgram where
  program : Option ℕ := none
  kernels : List ℕ := []
  returned : List ℕ := []
  log : List (Event ProgramHandle) := []

namespace OpenCLProgram

variable (p : OpenCLProgram)

def releaseProgram : OpenCLProgram :=
  match p.program with
  | none => p
  | some h => { p with program := none, log := .release (.program h) :: p.log }

/-- `m_program = clCreateProgramWithSource(..)`. -/
def storeProgram (a : Created) : OpenCLProgram :=
  { p with
    program := a.handle
    log := a.handle.toList.map (fun h => .acquire (.program h)) ++ p.log }

/-- `buildErr` is what `clBuildProgram` returns. -/
def buildFromSource (create : Created) (buildErr : Int32) : OpenCLProgram × Bool :=
  let p := p.releaseProgram.storeProgram create
  if create.err ≠ clSuccess ∨ p.program = none then ({ p with program := none }, false)
  else if buildErr ≠ clSuccess then (p.releaseProgram, false)
  else (p, true)

def createKernel (create : Created) : OpenCLProgram × Option ℕ :=
  if p.program = none then (p, none)
  else
    let p := { p with
      log := create.handle.toList.map (fun h => Event.acquire (ProgramHandle.kernel h)) ++ p.log }
    match create.handle with
    | none => (p, none)
    | some kernel =>
      if create.err ≠ clSuccess then (p, none)
      else
        ({ p with kernels := p.kernels ++ [kernel], returned := kernel :: p.returned }, some kernel)

/-- A `clReleaseKernel` of the caller. -/
def callerRelease (kernel : ℕ) : OpenCLProgram :=
  { p with returned := p.returned.erase kernel, log := .release (.kernel kernel) :: p.log }

/-- The destructor. -/
def destroy : OpenCLProgram :=
  releaseProgram { p with
    kernels := []
    log := p.kernels.foldl (fun log kernel => .release (.kernel kernel) :: log) p.log }

inductive Op
  | buildFromSource (create : Created) (buildErr : Int32)
  | createKernel (create : Created)
  | callerRelease (kernel : ℕ)

/-- A driver hands out only handles that are not in use, and the caller releases each kernel it was
given at most once. -/
def step : Op → Option OpenCLProgram
  | .buildFromSource create buildErr =>
    if ∀ h ∈ create.handle, ¬ Out (.program h) p.releaseProgram.log then
      some (p.buildFromSource create buildErr).1
    else none
  | .createKernel create =>
    if ∀ h ∈ create.handle, ¬ Out (.kernel h) p.log then some (p.createKernel create).1 else none
  | .callerRelease kernel => if kernel ∈ p.returned then some (p.callerRelease kernel) else none

/-! ### What a call does to the handles -/

theorem program_releaseProgram : p.releaseProgram.program = none := by
  unfold releaseProgram
  cases h : p.program with
  | none => exact h
  | some handle => rfl

theorem kernels_releaseProgram : p.releaseProgram.kernels = p.kernels := by
  unfold releaseProgram
  cases p.program <;> rfl

/-- A build replaces the program, and drops the new one again if it does not compile. -/
theorem buildFromSource_cases (create : Created) (buildErr : Int32) :
    (p.buildFromSource create buildErr).1 = p.releaseProgram.storeProgram create ∨
      (p.buildFromSource create buildErr).1 =
        (p.releaseProgram.storeProgram create).releaseProgram := by
  unfold buildFromSource
  cases made : create.handle with
  | none =>
    have empty : (p.releaseProgram.storeProgram create).program = none := made
    left
    simp only [empty, or_true, if_true]
    rw [← empty]
  | some handle =>
    have stored : (p.releaseProgram.storeProgram create).program = some handle := made
    simp only [Created.err_eq made, stored, ne_eq, not_true_eq_false, reduceCtorEq, or_self,
      if_false]
    split_ifs
    · exact .inl rfl
    · exact .inr rfl

/-- Either no kernel is created, or a new one that the caller is given and the object tracks. -/
theorem createKernel_cases (create : Created) :
    (p.createKernel create).1 = p ∨
      ∃ kernel ∈ create.handle, (p.createKernel create).1 =
        { p with
          kernels := p.kernels ++ [kernel]
          returned := kernel :: p.returned
          log := .acquire (.kernel kernel) :: p.log } := by
  unfold createKernel
  by_cases built : p.program = none
  · rw [if_pos built]
    exact .inl rfl
  · rw [if_neg built]
    cases made : create.handle with
    | none => exact .inl rfl
    | some kernel =>
      right
      refine ⟨kernel, rfl, ?_⟩
      simp [Created.err_eq made]

/-! ### A caller that leaves the kernels to the object -/

/-- What the object has to give back. -/
def custody : List ProgramHandle :=
  p.kernels.map .kernel ++ p.program.toList.map .program

def Tracked : Prop := Tracks p.custody p.log

variable {p} {p' : OpenCLProgram}

theorem Tracked.releaseProgram (h : p.Tracked) : p.releaseProgram.Tracked := by
  unfold OpenCLProgram.releaseProgram
  cases program : p.program with
  | none => exact h
  | some handle =>
    have tracks : Tracks (p.kernels.map .kernel ++ [.program handle]) p.log := by
      simpa [Tracked, custody, program] using h
    have released := tracks.release (List.perm_append_singleton _ _)
    simpa [Tracked, custody] using released

theorem Tracked.storeProgram (h : p.Tracked) (empty : p.program = none) {a : Created}
    (free : ∀ h ∈ a.handle, ¬ Out (.program h) p.log) : (p.storeProgram a).Tracked := by
  have tracks : Tracks (p.kernels.map .kernel) p.log := by simpa [Tracked, custody, empty] using h
  cases made : a.handle with
  | none => simpa [Tracked, custody, OpenCLProgram.storeProgram, made] using tracks
  | some handle =>
    have acquired := tracks.acquire (free handle made) (List.perm_append_singleton _ _)
    simpa [Tracked, custody, OpenCLProgram.storeProgram, made] using acquired

theorem Tracked.buildFromSource (h : p.Tracked) {create : Created} (buildErr : Int32)
    (free : ∀ h ∈ create.handle, ¬ Out (.program h) p.releaseProgram.log) :
    (p.buildFromSource create buildErr).1.Tracked := by
  have stored := h.releaseProgram.storeProgram p.program_releaseProgram free
  obtain eq | eq := p.buildFromSource_cases create buildErr
  · exact eq ▸ stored
  · exact eq ▸ stored.releaseProgram

theorem Tracked.createKernel (h : p.Tracked) {create : Created}
    (free : ∀ h ∈ create.handle, ¬ Out (.kernel h) p.log) : (p.createKernel create).1.Tracked := by
  obtain eq | ⟨kernel, made, eq⟩ := p.createKernel_cases create
  · rwa [eq]
  · have front : ((p.kernels ++ [kernel]).map ProgramHandle.kernel ++
        p.program.toList.map ProgramHandle.program).Perm (.kernel kernel :: p.custody) := by
      simp [custody]
    rw [eq]
    exact Tracks.acquire h (free kernel made) front

/-- The destructor gives back the kernels, then the program. -/
theorem Tracked.destroy (h : p.Tracked) : Tracks [] p.destroy.log := by
  have program : Tracked { p with
      kernels := []
      log := p.kernels.foldl (fun log kernel => .release (.kernel kernel) :: log) p.log } := by
    have kernels := Tracks.releaseAll h
    rwa [List.foldl_map] at kernels
  have rest : Tracks p.destroy.custody p.destroy.log := program.releaseProgram
  have empty : p.destroy.custody = [] := by
    rw [custody, OpenCLProgram.destroy, kernels_releaseProgram, program_releaseProgram]
    rfl
  exact empty ▸ rest

theorem Tracked.releasedOnce (h : p.Tracked) : ReleasedOnce p.destroy.log :=
  h.destroy.releasedOnce

theorem tracked_step (h : p.Tracked) {op : Op} (left : ∀ kernel, op ≠ .callerRelease kernel)
    (taken : p.step op = some p') : p'.Tracked := by
  cases op with
  | buildFromSource create buildErr =>
    obtain ⟨free, ⟨⟩⟩ := Option.ite_none_right_eq_some.1 taken
    exact h.buildFromSource buildErr free
  | createKernel create =>
    obtain ⟨free, ⟨⟩⟩ := Option.ite_none_right_eq_some.1 taken
    exact h.createKernel free
  | callerRelease kernel => exact absurd rfl (left kernel)

theorem tracked_run {ops : List Op} (run : Run step {} ops p)
    (left : ∀ kernel, .callerRelease kernel ∉ ops) : p.Tracked := by
  induction ops using List.reverseRecOn generalizing p with
  | nil => exact run_nil.1 run ▸ Tracks.nil
  | append_singleton ops op ih =>
    obtain ⟨q, before, last⟩ := run_concat.1 run
    refine tracked_step (ih before fun kernel mem => left kernel ?_) (fun kernel eq => ?_) last
    · simp [mem]
    · exact left kernel (by simp [eq])

/-! ### A caller that releases a kernel -/

structure SameKernels (p p' : OpenCLProgram) : Prop where
  kernels : p'.kernels = p.kernels
  acquired : ∀ h, p'.log.count (.acquire (.kernel h)) = p.log.count (.acquire (.kernel h))
  released : ∀ h, p'.log.count (.release (.kernel h)) = p.log.count (.release (.kernel h))

theorem SameKernels.trans {p'' : OpenCLProgram} (h : SameKernels p p') (h' : SameKernels p' p'') :
    SameKernels p p'' :=
  ⟨h'.kernels.trans h.kernels, fun k => (h'.acquired k).trans (h.acquired k),
    fun k => (h'.released k).trans (h.released k)⟩

theorem sameKernels_releaseProgram : SameKernels p p.releaseProgram := by
  unfold releaseProgram
  cases p.program <;> exact ⟨rfl, by simp, by simp⟩

theorem sameKernels_storeProgram (a : Created) : SameKernels p (p.storeProgram a) := by
  cases made : a.handle <;> exact ⟨rfl, by simp [storeProgram, made], by simp [storeProgram, made]⟩

theorem sameKernels_buildFromSource (create : Created) (buildErr : Int32) :
    SameKernels p (p.buildFromSource create buildErr).1 := by
  have stored := (sameKernels_releaseProgram (p := p)).trans (sameKernels_storeProgram create)
  obtain eq | eq := p.buildFromSource_cases create buildErr
  · exact eq ▸ stored
  · exact eq ▸ stored.trans sameKernels_releaseProgram

/-- Every kernel created is still tracked, and the caller's releases are in the log. -/
structure Counted (ops : List Op) (p : OpenCLProgram) : Prop where
  acquired : ∀ h, p.log.count (.acquire (.kernel h)) = p.kernels.count h
  released : ∀ h, .callerRelease h ∈ ops → 0 < p.log.count (.release (.kernel h))

theorem Counted.congr {ops : List Op} {op : Op} (h : Counted ops p)
    (own : ∀ kernel, op ≠ .callerRelease kernel) (same : SameKernels p p') :
    Counted (ops ++ [op]) p' where
  acquired k := by rw [same.acquired, same.kernels, h.acquired]
  released k mem := by
    rw [same.released]
    refine h.released k ?_
    simpa [Ne.symm (own k)] using mem

theorem counted_step {ops : List Op} {op : Op} (h : Counted ops p) (taken : p.step op = some p') :
    Counted (ops ++ [op]) p' := by
  cases op with
  | buildFromSource create buildErr =>
    obtain ⟨-, ⟨⟩⟩ := Option.ite_none_right_eq_some.1 taken
    exact h.congr (by simp) (sameKernels_buildFromSource create buildErr)
  | createKernel create =>
    obtain ⟨-, ⟨⟩⟩ := Option.ite_none_right_eq_some.1 taken
    obtain eq | ⟨kernel, -, eq⟩ := p.createKernel_cases create
    · rw [eq]
      exact h.congr (by simp) ⟨rfl, fun _ => rfl, fun _ => rfl⟩
    · rw [eq]
      refine ⟨fun k => ?_, fun k mem => ?_⟩
      · simp [List.count_cons, h.acquired k]
      · have older : .callerRelease k ∈ ops := by simpa using mem
        simpa using h.released k older
  | callerRelease kernel =>
    obtain ⟨-, ⟨⟩⟩ := Option.ite_none_right_eq_some.1 taken
    refine ⟨fun k => ?_, fun k mem => ?_⟩
    · simpa [callerRelease] using h.acquired k
    · by_cases same : k = kernel
      · simp [callerRelease, same]
      · have older : .callerRelease k ∈ ops := by simpa [same] using mem
        have := h.released k older
        simp only [callerRelease, List.count_cons]
        omega

theorem counted_run {ops : List Op} (run : Run step {} ops p) : Counted ops p := by
  induction ops using List.reverseRecOn generalizing p with
  | nil => exact run_nil.1 run ▸ ⟨fun _ => rfl, by simp⟩
  | append_singleton ops op ih =>
    obtain ⟨q, before, last⟩ := run_concat.1 run
    exact counted_step (ih before) last

/-- The destructor releases each tracked kernel, whatever was released before. -/
theorem count_destroy (kernel : ℕ) :
    p.destroy.log.count (.acquire (.kernel kernel)) = p.log.count (.acquire (.kernel kernel)) ∧
      p.destroy.log.count (.release (.kernel kernel)) =
        p.kernels.count kernel + p.log.count (.release (.kernel kernel)) := by
  have injective : Function.Injective fun k : ℕ => Event.release (ProgramHandle.kernel k) :=
    fun a b same => by simpa using same
  have same := sameKernels_releaseProgram (p := { p with
    kernels := []
    log := p.kernels.foldl (fun log kernel => .release (.kernel kernel) :: log) p.log })
  rw [destroy, same.acquired, same.released]
  simp only [List.foldl_flip_cons_eq_append, List.count_append, List.count_reverse]
  rw [List.count_map_of_injective _ _ injective]
  simp [List.count_eq_zero]

/-- Everything is released once, in whatever order programs are built and kernels are created, iff
the caller never makes use of its right to release a kernel. -/
theorem releasedOnce_iff {ops : List Op} {p : OpenCLProgram} (run : Run step {} ops p) :
    ReleasedOnce p.destroy.log ↔ ∀ kernel, .callerRelease kernel ∉ ops := by
  constructor
  · intro once kernel mem
    have counted := counted_run run
    obtain ⟨acquired, released⟩ := p.count_destroy kernel
    have equal := once.count_eq (.kernel kernel)
    have := counted.released kernel mem
    rw [acquired, released, counted.acquired kernel] at equal
    omega
  · exact fun left => (tracked_run run left).releasedOnce

/-- The smallest use: one build and one kernel. -/
def oneKernel : List Op :=
  [.buildFromSource ⟨clSuccess, some 1, fun _ => by contradiction⟩ clSuccess,
    .createKernel ⟨clSuccess, some 2, fun _ => by contradiction⟩]

theorem run_oneKernel : Run step {} oneKernel
    { program := some 1
      kernels := [2]
      returned := [2]
      log := [.acquire (.kernel 2), .acquire (.program 1)] } :=
  rfl

theorem releasedOnce_iff_oneKernel : ∃ p, Run step {} oneKernel p ∧
    (ReleasedOnce p.destroy.log ↔ ∀ kernel, .callerRelease kernel ∉ oneKernel) :=
  ⟨_, run_oneKernel, releasedOnce_iff run_oneKernel⟩

/-- A caller that owns its kernel, as it was told, releases it; the object releases it again. -/
theorem not_releasedOnce : ¬ ∀ ops p, Run step {} ops p → ReleasedOnce p.destroy.log := by
  intro claim
  have once := claim _ _ (run_concat.2 ⟨_, run_oneKernel, (rfl : step _ (.callerRelease 2) = _)⟩)
  have equal := once.count_eq (.kernel 2)
  exact absurd equal (by decide)

end OpenCLProgram

end SmoothDemon
