import SmoothDemon.Compute.OpenCLBuffer

/-!
# The vector addition

tests/test_opencl.cpp computes in one scope and leaves it on the first failure.  Whatever OpenCL
answers, everything is given back in turn, except in one case: when exactly one of the two input
buffers cannot be mapped, the mapping of the other is forgotten (`vectorAdd_releasedOnce_iff`).
-/

namespace SmoothDemon

open Custody Transition

/-- The answers of OpenCL to the calls of tests/test_opencl.cpp. -/
structure VectorAddAnswers where
  setup : InitializeAnswer
  program : Created
  buildErr : Int32
  kernel : Created
  bufA : Created
  bufB : Created
  bufC : Created
  mapA : Created
  mapB : Created
  launch : Created
  mapC : Created

namespace ComputeScope

variable {s s' : ComputeScope}

def vectorBytes : ℕ := 1024 * 1024 * 4

/-- Up to the check of the buffers, and whether it is passed. -/
def prepare (a : VectorAddAnswers) : Option (Bool × ComputeScope) := do
  let s₁ ← step {} (.context (.initializeContext a.setup))
  if !(({} : OpenCLContext).initializeContext a.setup).2 then return (false, s₁)
  let s₂ ← s₁.step (.program (.buildFromSource a.program a.buildErr))
  if !(s₁.prog.buildFromSource a.program a.buildErr).2 then return (false, s₂)
  let s₃ ← s₂.step (.program (.createKernel a.kernel))
  if (s₂.prog.createKernel a.kernel).2 = none then return (false, s₃)
  let s₄ ← s₃.step (.construct vectorBytes a.bufA)
  let s₅ ← s₄.step (.construct vectorBytes a.bufB)
  let s₆ ← s₅.step (.construct vectorBytes a.bufC)
  return (s₆.bufs.all OpenCLBuffer.isValid, s₆)

/-- Both inputs are mapped, written and unmapped, if both can be mapped. -/
def fill (a : VectorAddAnswers) (s : ComputeScope) : Option (Bool × ComputeScope) := do
  let bufA := OpenCLBuffer.construct vectorBytes a.bufA
  let bufB := OpenCLBuffer.construct vectorBytes a.bufB
  let s ← s.step (.mapWrite 2 a.mapA)
  let s ← s.step (.mapWrite 1 a.mapB)
  if bufA.mapWrite a.mapA = none ∨ bufB.mapWrite a.mapB = none then return (false, s)
  let s ← s.step (.unmap 2 (bufA.mapWrite a.mapA))
  let s ← s.step (.unmap 1 (bufB.mapWrite a.mapB))
  return (true, s)

/-- From the launch on, with the exit code.  A launch that succeeds gives an event. -/
def launchKernel (a : VectorAddAnswers) (s : ComputeScope) : Option (ℕ × ComputeScope) := do
  if a.launch.err ≠ clSuccess then return (1, s)
  let bufC := OpenCLBuffer.construct vectorBytes a.bufC
  let event ← a.launch.handle
  let s ← s.step (.launch a.launch)
  let s ← s.step (.mapRead 0 a.mapC)
  let s ← s.step (.unmap 0 (bufC.mapRead a.mapC))
  let s ← s.step (.releaseEvent event)
  return (0, s)

/-- The exit code, and the scope before the destructors. -/
def vectorAdd (a : VectorAddAnswers) : Option (ℕ × ComputeScope) := do
  let (ready, s) ← prepare a
  if !ready then return (1, s)
  let (filled, s) ← fill a s
  if !filled then return (1, s)
  launchKernel a s

/-- Every object is there. -/
def Ready (a : VectorAddAnswers) : Prop :=
  (({} : OpenCLContext).initializeContext a.setup).2 ∧
    (a.program.handle ≠ none ∧ a.buildErr = clSuccess) ∧ a.kernel.handle ≠ none ∧
    a.bufA.handle ≠ none ∧ a.bufB.handle ≠ none ∧ a.bufC.handle ≠ none

/-- The buffers of the scope, and what its caller owns: nothing was handed to it that it had, nor
given back that it had not. -/
structure Caller (bufs : List OpenCLBuffer) (mappings : List Mapping) (events : List ℕ)
    (s : ComputeScope) : Prop where
  bufs : s.bufs = bufs
  mappings : s.mappings = mappings
  events : s.events = events
  tracks : Tracks s.owed (part ComputeHandle.caller? s.log)

/-- As long as the caller is handed nothing that it has and gives back only what it has, everything
is given back in turn. -/
theorem Parted.once_leave_iff (h : s.Parted)
    (tracks : Tracks s.owed (part ComputeHandle.caller? s.log)) :
    ReleasedOnce s.leave.log ↔ s.mappings = [] ∧ s.events = [] := by
  obtain ⟨contexts, programs, mems⟩ := h.leave
  rw [ComputeHandle.releasedOnce_iff_parts, and_iff_right contexts.releasedOnce,
    and_iff_right programs.releasedOnce, and_iff_right mems.releasedOnce, part_caller_leave,
    tracks.releasedOnce_iff_nil, owed_eq_nil]

section Caller

variable {bufs : List OpenCLBuffer} {mappings : List Mapping} {events : List ℕ}

/-- Calls on the context and the program, and new buffers, leave what the caller owns. -/
theorem Caller.context (h : s.Caller bufs mappings events) {op : OpenCLContext.Op}
    (taken : s.step (.context op) = some s') : s'.Caller bufs mappings events := by
  cases taken
  refine ⟨h.bufs, h.mappings, h.events, ?_⟩
  rw [part_withContext_of_ne fun _ => rfl]
  exact h.tracks

theorem Caller.program (h : s.Caller bufs mappings events) {op : OpenCLProgram.Op}
    (taken : s.step (.program op) = some s') :
    s'.Caller bufs mappings events ∧ s.prog.step op = some s'.prog := by
  obtain ⟨prog, step, rfl⟩ := Option.map_eq_some_iff.1 taken
  refine ⟨⟨h.bufs, h.mappings, h.events, ?_⟩, step⟩
  rw [part_withProgram_of_ne fun _ => rfl]
  exact h.tracks

theorem Caller.construct (h : s.Caller bufs mappings events) {sizeBytes : ℕ} {create : Created}
    (taken : s.step (.construct sizeBytes create) = some s') :
    s'.Caller (.construct sizeBytes create :: bufs) mappings events := by
  obtain ⟨-, ⟨⟩⟩ := Option.ite_none_right_eq_some.1 taken
  refine ⟨congrArg _ h.bufs, h.mappings, h.events, ?_⟩
  rw [part_withBuffer_of_ne fun _ => rfl]
  exact h.tracks

theorem Caller.mapped (h : s.Caller bufs mappings events) {b : OpenCLBuffer} {ptr : Option ℕ}
    {new : Option Mapping} (mapping : b.mappingAt ptr = new) (free : ∀ m ∈ new, m ∉ mappings) :
    (s.mapped b ptr).Caller bufs (new.toList ++ mappings) events := by
  unfold ComputeScope.mapped
  rw [mapping]
  cases new with
  | none => exact ⟨h.bufs, h.mappings, h.events, h.tracks⟩
  | some m =>
    have idle : ¬ Out (.mapping m) (part ComputeHandle.caller? s.log) := by
      rw [← h.tracks.mem_iff, mapping_mem_owed, h.mappings]
      exact free m rfl
    exact ⟨h.bufs, congrArg _ h.mappings, h.events, h.tracks.acquire idle (List.Perm.refl _)⟩

theorem Caller.unmapped (h : s.Caller bufs mappings events) {b : OpenCLBuffer} {ptr : Option ℕ}
    {old : Option Mapping} (mapping : b.mappingAt ptr = old) (own : ∀ m ∈ old, m ∈ mappings) :
    (s.unmapped (b.unmap ptr)).Caller bufs (old.elim mappings mappings.erase) events := by
  rw [OpenCLBuffer.unmap, mapping]
  cases old with
  | none => exact ⟨h.bufs, h.mappings, h.events, h.tracks⟩
  | some m =>
    have member : m ∈ s.mappings := h.mappings ▸ own m rfl
    exact ⟨h.bufs, congrArg (List.erase · m) h.mappings, h.events,
      h.tracks.release (owed_unmapped member)⟩

variable {i sizeBytes m : ℕ} {create answer : Created}

/-- A valid buffer is mapped where OpenCL says. -/
theorem mapInternal_construct (valid : create.handle = some m) (sizeBytes : ℕ)
    (answer : Created) :
    (OpenCLBuffer.construct sizeBytes create).mapInternal answer = answer.handle := by
  rw [OpenCLBuffer.mapInternal_eq, OpenCLBuffer.mem_construct, valid, Option.bind_some]

theorem mappingAt_construct (valid : create.handle = some m) (sizeBytes : ℕ) (ptr : Option ℕ) :
    (OpenCLBuffer.construct sizeBytes create).mappingAt ptr = ptr.map (Mapping.mk m) := by
  unfold OpenCLBuffer.mappingAt
  rw [OpenCLBuffer.mem_construct, valid]
  cases ptr <;> rfl

theorem Caller.mapWrite (h : s.Caller bufs mappings events)
    (there : bufs[i]? = some (.construct sizeBytes create)) (valid : create.handle = some m)
    (free : ∀ p ∈ answer.handle, ⟨m, p⟩ ∉ mappings)
    (taken : s.step (.mapWrite i answer) = some s') :
    s'.Caller bufs ((answer.handle.map (Mapping.mk m)).toList ++ mappings) events := by
  obtain ⟨b, found, ⟨⟩⟩ := Option.bind_eq_some_iff.1 taken
  rw [h.bufs, there] at found
  cases found
  refine h.mapped ?_ fun new member => ?_
  · rw [OpenCLBuffer.mapWrite, mapInternal_construct valid, mappingAt_construct valid]
  · obtain ⟨p, given, rfl⟩ := Option.map_eq_some_iff.1 member
    exact free p given

theorem Caller.mapRead (h : s.Caller bufs mappings events)
    (there : bufs[i]? = some (.construct sizeBytes create)) (valid : create.handle = some m)
    (free : ∀ p ∈ answer.handle, ⟨m, p⟩ ∉ mappings)
    (taken : s.step (.mapRead i answer) = some s') :
    s'.Caller bufs ((answer.handle.map (Mapping.mk m)).toList ++ mappings) events :=
  -- the flags, which are not modelled, are all that differs
  h.mapWrite there valid free taken

theorem Caller.unmap (h : s.Caller bufs mappings events) {ptr : Option ℕ}
    (there : bufs[i]? = some (.construct sizeBytes create)) (valid : create.handle = some m)
    (own : ∀ p ∈ ptr, ⟨m, p⟩ ∈ mappings) (taken : s.step (.unmap i ptr) = some s') :
    s'.Caller bufs (ptr.elim mappings fun p => mappings.erase ⟨m, p⟩) events := by
  obtain ⟨b, found, ⟨⟩⟩ := Option.bind_eq_some_iff.1 taken
  rw [h.bufs, there] at found
  cases found
  have mapping := mappingAt_construct valid sizeBytes ptr
  cases ptr with
  | none => exact h.unmapped mapping nofun
  | some p =>
    refine h.unmapped mapping fun old member => ?_
    cases member
    exact own p rfl

theorem Caller.launch (h : s.Caller bufs mappings events)
    (free : ∀ e ∈ answer.handle, e ∉ events) (taken : s.step (.launch answer) = some s') :
    s'.Caller bufs mappings (answer.handle.toList ++ events) := by
  cases taken
  cases made : answer.handle with
  | none => exact ⟨h.bufs, h.mappings, h.events, h.tracks⟩
  | some e =>
    have idle : ¬ Out (.event e) (part ComputeHandle.caller? s.log) := by
      rw [← h.tracks.mem_iff, event_mem_owed, h.events]
      exact free e made
    exact ⟨h.bufs, h.mappings, congrArg _ h.events, h.tracks.acquire idle (owed_launched e)⟩

theorem Caller.releaseEvent (h : s.Caller bufs mappings events) {event : ℕ}
    (own : event ∈ events) (taken : s.step (.releaseEvent event) = some s') :
    s'.Caller bufs mappings (events.erase event) := by
  cases taken
  have member : event ∈ s.events := h.events ▸ own
  exact ⟨h.bufs, h.mappings, congrArg (List.erase · event) h.events,
    h.tracks.release (owed_releaseEvent member)⟩

end Caller

theorem buildFromSource_snd (p : OpenCLProgram) (create : Created) (buildErr : Int32) :
    (p.buildFromSource create buildErr).2 ↔ create.handle ≠ none ∧ buildErr = clSuccess := by
  unfold OpenCLProgram.buildFromSource
  cases made : create.handle with
  | none =>
    have empty : (p.releaseProgram.storeProgram create).program = none := made
    simp [empty]
  | some handle =>
    have stored : (p.releaseProgram.storeProgram create).program = some handle := made
    by_cases ok : buildErr = clSuccess
    · simp [stored, Created.err_eq made, ok]
    · simp [stored, Created.err_eq made, ok]

theorem program_of_built {p : OpenCLProgram} {create : Created} {buildErr : Int32}
    (built : (p.buildFromSource create buildErr).2) :
    (p.buildFromSource create buildErr).1.program ≠ none := by
  obtain ⟨made, ok⟩ := (buildFromSource_snd p create buildErr).1 built
  obtain ⟨handle, made⟩ := Option.ne_none_iff_exists'.1 made
  have stored : (p.releaseProgram.storeProgram create).program = some handle := made
  simp [OpenCLProgram.buildFromSource, stored, Created.err_eq made, ok]

theorem createKernel_snd {p : OpenCLProgram} (built : p.program ≠ none) (create : Created) :
    (p.createKernel create).2 = none ↔ create.handle = none := by
  rw [OpenCLProgram.createKernel, if_neg built]
  cases made : create.handle with
  | none => simp
  | some kernel => simp [Created.err_eq made]

theorem isValid_construct (sizeBytes : ℕ) (create : Created) :
    (OpenCLBuffer.construct sizeBytes create).isValid ↔ create.handle ≠ none := by
  rw [OpenCLBuffer.isValid, OpenCLBuffer.mem_construct, Option.isSome_iff_ne_none]

theorem prepare_spec {a : VectorAddAnswers} {ready : Bool} (h : prepare a = some (ready, s)) :
    s.Parted ∧ s.Caller s.bufs [] [] ∧ (ready ↔ Ready a) ∧
      (ready → s.bufs = [.construct vectorBytes a.bufC, .construct vectorBytes a.bufB,
        .construct vectorBytes a.bufA]) := by
  have c₀ : Caller [] [] [] {} := ⟨rfl, rfl, rfl, Tracks.nil⟩
  simp only [prepare, Option.bind_eq_bind, Option.bind_eq_some_iff] at h
  obtain ⟨s₁, first, h⟩ := h
  have p₁ := parted_step parted_empty (by simp) first
  have c₁ := c₀.context first
  by_cases init : (({} : OpenCLContext).initializeContext a.setup).2
  swap
  · rw [if_pos (by simp [init])] at h
    cases h
    exact ⟨p₁, ⟨rfl, c₁.mappings, c₁.events, c₁.tracks⟩, by simp [Ready, init], by simp⟩
  rw [if_neg (by simp [init])] at h
  obtain ⟨s₂, second, h⟩ := Option.bind_eq_some_iff.1 h
  have p₂ := parted_step p₁ (by simp) second
  obtain ⟨c₂, prog₂⟩ := c₁.program second
  have builds := buildFromSource_snd s₁.prog a.program a.buildErr
  by_cases built : (s₁.prog.buildFromSource a.program a.buildErr).2
  swap
  · rw [if_pos (by simp [built])] at h
    cases h
    exact ⟨p₂, ⟨rfl, c₂.mappings, c₂.events, c₂.tracks⟩, by simp [Ready, ← builds, built], by simp⟩
  rw [if_neg (by simp [built])] at h
  obtain ⟨s₃, third, h⟩ := Option.bind_eq_some_iff.1 h
  have p₃ := parted_step p₂ (by simp) third
  obtain ⟨c₃, -⟩ := c₂.program third
  have loaded : s₂.prog.program ≠ none := by
    obtain ⟨-, eq⟩ := Option.ite_none_right_eq_some.1 prog₂
    rw [← Option.some.inj eq]
    exact program_of_built built
  have creates := createKernel_snd loaded a.kernel
  by_cases missing : (s₂.prog.createKernel a.kernel).2 = none
  · rw [if_pos missing] at h
    cases h
    exact ⟨p₃, ⟨rfl, c₃.mappings, c₃.events, c₃.tracks⟩, by simp [Ready, creates.1 missing],
      by simp⟩
  rw [if_neg missing] at h
  obtain ⟨s₄, fourth, h⟩ := Option.bind_eq_some_iff.1 h
  obtain ⟨s₅, fifth, h⟩ := Option.bind_eq_some_iff.1 h
  obtain ⟨s₆, sixth, h⟩ := Option.bind_eq_some_iff.1 h
  have p₆ := parted_step (parted_step (parted_step p₃ (by simp) fourth) (by simp) fifth) (by simp)
    sixth
  have c₆ := ((c₃.construct fourth).construct fifth).construct sixth
  cases h
  refine ⟨p₆, ⟨rfl, c₆.mappings, c₆.events, c₆.tracks⟩, ?_, fun _ => c₆.bufs⟩
  rw [c₆.bufs]
  simp only [List.all_cons, List.all_nil, Bool.and_true, Bool.and_eq_true, isValid_construct,
    Ready, init, ← builds, built, ← creates.not, missing]
  tauto

section Test

variable {a : VectorAddAnswers} {bufs : List OpenCLBuffer}

/-- Both mappings are gone again, but for the one that stands alone. -/
theorem fill_spec {filled : Bool} (h : fill a s = some (filled, s')) (parted : s.Parted)
    (caller : s.Caller bufs [] []) (validA : a.bufA.handle ≠ none) (validB : a.bufB.handle ≠ none)
    (apart : a.bufA.handle ≠ a.bufB.handle) (atA : bufs[2]? = some (.construct vectorBytes a.bufA))
    (atB : bufs[1]? = some (.construct vectorBytes a.bufB)) :
    s'.Parted ∧ s'.Caller bufs s'.mappings [] ∧ (filled → s'.mappings = []) ∧
      (s'.mappings = [] ↔ ¬ (a.mapA.handle = none ↔ a.mapB.handle ≠ none)) := by
  obtain ⟨mA, madeA⟩ := Option.ne_none_iff_exists'.1 validA
  obtain ⟨mB, madeB⟩ := Option.ne_none_iff_exists'.1 validB
  have other (p q : ℕ) : (⟨mB, p⟩ : Mapping) ≠ ⟨mA, q⟩ := fun same => by
    obtain rfl : mB = mA := congrArg Mapping.mem same
    exact apart (madeA.trans madeB.symm)
  simp only [fill, Option.bind_eq_bind, OpenCLBuffer.mapWrite, mapInternal_construct madeA,
    mapInternal_construct madeB] at h
  obtain ⟨s₁, first, h⟩ := Option.bind_eq_some_iff.1 h
  obtain ⟨s₂, second, h⟩ := Option.bind_eq_some_iff.1 h
  have p₂ := parted_step (parted_step parted (by simp) first) (by simp) second
  have c₂ := (caller.mapWrite atA madeA (by simp) first).mapWrite atB madeB
    (by cases a.mapA.handle <;> simp [other]) second
  by_cases unmapped : a.mapA.handle = none ∨ a.mapB.handle = none
  · rw [if_pos unmapped] at h
    cases h
    refine ⟨p₂, ⟨c₂.bufs, rfl, c₂.events, c₂.tracks⟩, by simp, ?_⟩
    rw [c₂.mappings]
    cases hA : a.mapA.handle <;> cases hB : a.mapB.handle <;> simp_all
  rw [if_neg unmapped] at h
  rw [not_or] at unmapped
  obtain ⟨pA, hA⟩ := Option.ne_none_iff_exists'.1 unmapped.1
  obtain ⟨pB, hB⟩ := Option.ne_none_iff_exists'.1 unmapped.2
  rw [hA, hB] at c₂ h
  obtain ⟨s₃, third, h⟩ := Option.bind_eq_some_iff.1 h
  obtain ⟨s₄, fourth, h⟩ := Option.bind_eq_some_iff.1 h
  have p₄ := parted_step (parted_step p₂ (by simp) third) (by simp) fourth
  have c₃ := c₂.unmap atA madeA (by simp) third
  have c₄ := c₃.unmap atB madeB (by simp [other]) fourth
  have unmaps : ([⟨mB, pB⟩, ⟨mA, pA⟩].erase ⟨mA, pA⟩).erase ⟨mB, pB⟩ = ([] : List Mapping) := by
    simp [other]
  cases h
  have none : s'.mappings = [] := c₄.mappings.trans unmaps
  exact ⟨p₄, ⟨c₄.bufs, rfl, c₄.events, c₄.tracks⟩, fun _ => none, by simp [none, hA, hB]⟩

/-- The launch leaves nothing, whether it succeeds or not. -/
theorem launchKernel_spec {code : ℕ} (h : launchKernel a s = some (code, s')) (parted : s.Parted)
    (caller : s.Caller bufs [] []) (validC : a.bufC.handle ≠ none)
    (atC : bufs[0]? = some (.construct vectorBytes a.bufC)) :
    s'.Parted ∧ s'.Caller bufs [] [] := by
  obtain ⟨mC, madeC⟩ := Option.ne_none_iff_exists'.1 validC
  simp only [launchKernel, Option.bind_eq_bind, OpenCLBuffer.mapRead,
    mapInternal_construct madeC] at h
  by_cases refused : a.launch.err ≠ clSuccess
  · rw [if_pos refused] at h
    cases h
    exact ⟨parted, caller⟩
  rw [if_neg refused] at h
  obtain ⟨event, given, h⟩ := Option.bind_eq_some_iff.1 h
  obtain ⟨s₁, first, h⟩ := Option.bind_eq_some_iff.1 h
  obtain ⟨s₂, second, h⟩ := Option.bind_eq_some_iff.1 h
  obtain ⟨s₃, third, h⟩ := Option.bind_eq_some_iff.1 h
  obtain ⟨s₄, fourth, h⟩ := Option.bind_eq_some_iff.1 h
  have p₄ := parted_step (parted_step (parted_step (parted_step parted (by simp) first) (by simp)
    second) (by simp) third) (by simp) fourth
  have c₂ := (caller.launch (by simp) first).mapRead atC madeC (by simp) second
  have c₃ := c₂.unmap atC madeC (by simp +contextual) third
  have c₄ := c₃.releaseEvent (by simp [given]) fourth
  cases h
  refine ⟨p₄, c₄.bufs, c₄.mappings.trans ?_, c₄.events.trans ?_, c₄.tracks⟩
  · cases a.mapC.handle with
    | none => rfl
    | some pC => exact List.erase_cons_head _ _
  · rw [given]
    exact List.erase_cons_head _ _

/-- The input buffers do not share their memory. -/
theorem Parted.handle_ne {createA createB : Created} {bufC : OpenCLBuffer} (h : s.Parted)
    (bufs : s.bufs = [bufC, .construct vectorBytes createB, .construct vectorBytes createA])
    (valid : createA.handle ≠ none) : createA.handle ≠ createB.handle := by
  obtain ⟨m, made⟩ := Option.ne_none_iff_exists'.1 valid
  have nodup := h.mem.nodup
  intro same
  rw [bufs, ← List.singleton_append, List.filterMap_append, List.nodup_append] at nodup
  simp [OpenCLBuffer.mem_construct, ← same, made] at nodup

/-- What the caller of the test owns when it returns. -/
theorem vectorAdd_spec {code : ℕ} (h : vectorAdd a = some (code, s)) :
    s.Parted ∧ s.Caller s.bufs s.mappings [] ∧
      (s.mappings = [] ↔ ¬ (Ready a ∧ (a.mapA.handle = none ↔ a.mapB.handle ≠ none))) := by
  obtain ⟨⟨ready, s₀⟩, prepared, h⟩ := Option.bind_eq_some_iff.1 h
  obtain ⟨p₀, c₀, iff, bufs₀⟩ := prepare_spec prepared
  cases ready with
  | false =>
    cases h
    have unready : ¬ Ready a := fun r => absurd (iff.2 r) Bool.false_ne_true
    exact ⟨p₀, ⟨rfl, rfl, c₀.events, c₀.tracks⟩, by simp [c₀.mappings, unready]⟩
  | true =>
    have isReady : Ready a := iff.1 rfl
    obtain ⟨-, -, -, validA, validB, validC⟩ := iff.1 rfl
    rw [bufs₀ rfl] at c₀
    have apart : a.bufA.handle ≠ a.bufB.handle := p₀.handle_ne (bufs₀ rfl) validA
    obtain ⟨⟨filled, s₁⟩, wrote, h⟩ := Option.bind_eq_some_iff.1 h
    obtain ⟨p₁, c₁, clear, alone⟩ := fill_spec wrote p₀ c₀ validA validB apart rfl rfl
    cases filled with
    | false =>
      cases h
      exact ⟨p₁, ⟨rfl, rfl, c₁.events, c₁.tracks⟩, by simp [alone, isReady]⟩
    | true =>
      have none : s₁.mappings = [] := clear rfl
      rw [none] at c₁
      obtain ⟨p₂, c₂⟩ := launchKernel_spec h p₁ c₁ validC rfl
      exact ⟨p₂, ⟨rfl, rfl, c₂.events, c₂.tracks⟩,
        iff_of_true c₂.mappings fun single => alone.1 none single.2⟩

end Test

/-- An Intel platform on which everything works but the second mapping. -/
def oneMapped : VectorAddAnswers where
  setup :=
    { search :=
        { err := clSuccess
          platforms := [⟨some 1, ⟨clSuccess, 6, "Intel".toList⟩, ⟨clSuccess, 0, []⟩, clSuccess,
            [some 2]⟩]
          fallbackName := ⟨clSuccess, 0, []⟩ }
      device := ⟨⟨clSuccess, 0, []⟩, none, none, none⟩
      context := made 3
      queue := made 4 }
  program := made 5
  buildErr := clSuccess
  kernel := made 6
  bufA := made 7
  bufB := made 8
  bufC := made 9
  mapA := made 10
  mapB := refused
  launch := made 11
  mapC := made 12

end ComputeScope

end SmoothDemon
