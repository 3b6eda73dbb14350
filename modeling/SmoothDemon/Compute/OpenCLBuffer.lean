import SmoothDemon.Compute.OpenCLProgram

/-!
# OpenCLBuffer, and a scope that computes

src/compute/OpenCLBuffer.cpp, and a scope that declares an `OpenCLContext`, an `OpenCLProgram` and
any number of buffers, as tests/test_opencl.cpp does.  The buffers go first when the scope is left,
then the program, then the context.  Whatever OpenCL answers to whatever calls, what the objects own
is given back once; what the caller owns, mapped pointers and events, is its own affair
(`settled_leave_iff`).
-/

namespace SmoothDemon

open Custody Transition

/-- A pointer is mapped out of a memory object. -/
structure Mapping where
  mem : ℕ
  ptr : ℕ
  deriving DecidableEq

/-- What the caller has to give back itself. -/
inductive CallerHandle where
  | mapping (m : Mapping)
  | event (handle : ℕ)
  deriving DecidableEq

inductive ComputeHandle where
  | context (handle : ContextHandle)
  | program (handle : ProgramHandle)
  | mem (handle : ℕ)
  | caller (handle : CallerHandle)
  deriving DecidableEq

namespace ComputeHandle

def context? : ComputeHandle → Option ContextHandle
  | .context h => some h
  | _ => none

def program? : ComputeHandle → Option ProgramHandle
  | .program h => some h
  | _ => none

def mem? : ComputeHandle → Option ℕ
  | .mem h => some h
  | _ => none

def caller? : ComputeHandle → Option CallerHandle
  | .caller h => some h
  | _ => none

variable {c : ComputeHandle}

theorem context?_eq_some {h : ContextHandle} : c.context? = some h ↔ c = .context h := by
  cases c <;> simp [context?]

theorem program?_eq_some {h : ProgramHandle} : c.program? = some h ↔ c = .program h := by
  cases c <;> simp [program?]

theorem mem?_eq_some {h : ℕ} : c.mem? = some h ↔ c = .mem h := by
  cases c <;> simp [mem?]

theorem caller?_eq_some {h : CallerHandle} : c.caller? = some h ↔ c = .caller h := by
  cases c <;> simp [caller?]

variable {log : List (Event ComputeHandle)}

theorem settled_iff_parts : Settled log ↔ Settled (part context? log) ∧
    Settled (part program? log) ∧ Settled (part mem? log) ∧ Settled (part caller? log) := by
  constructor
  · intro all
    exact ⟨fun _ => (cleared_part fun _ => context?_eq_some).2 (all _),
      fun _ => (cleared_part fun _ => program?_eq_some).2 (all _),
      fun _ => (cleared_part fun _ => mem?_eq_some).2 (all _),
      fun _ => (cleared_part fun _ => caller?_eq_some).2 (all _)⟩
  · rintro ⟨contexts, programs, mems, callers⟩ handle
    cases handle with
    | context h => exact (cleared_part fun _ => context?_eq_some).1 (contexts h)
    | program h => exact (cleared_part fun _ => program?_eq_some).1 (programs h)
    | mem h => exact (cleared_part fun _ => mem?_eq_some).1 (mems h)
    | caller h => exact (cleared_part fun _ => caller?_eq_some).1 (callers h)

theorem releasedOnce_iff_parts : ReleasedOnce log ↔ ReleasedOnce (part context? log) ∧
    ReleasedOnce (part program? log) ∧ ReleasedOnce (part mem? log) ∧
      ReleasedOnce (part caller? log) := by
  constructor
  · intro all
    exact ⟨fun _ => (once_part fun _ => context?_eq_some).2 (all _),
      fun _ => (once_part fun _ => program?_eq_some).2 (all _),
      fun _ => (once_part fun _ => mem?_eq_some).2 (all _),
      fun _ => (once_part fun _ => caller?_eq_some).2 (all _)⟩
  · rintro ⟨contexts, programs, mems, callers⟩ handle
    cases handle with
    | context h => exact (once_part fun _ => context?_eq_some).1 (contexts h)
    | program h => exact (once_part fun _ => program?_eq_some).1 (programs h)
    | mem h => exact (once_part fun _ => mem?_eq_some).1 (mems h)
    | caller h => exact (once_part fun _ => caller?_eq_some).1 (callers h)

end ComputeHandle

/-! ### A buffer -/

structure OpenCLBuffer where
  mem : Option ℕ
  sizeBytes : ℕ
  deriving DecidableEq

namespace OpenCLBuffer

/-- The constructor. -/
def construct (sizeBytes : ℕ) (create : Created) : OpenCLBuffer :=
  if create.err ≠ clSuccess ∨ create.handle = none then { mem := none, sizeBytes }
  else { mem := create.handle, sizeBytes }

variable (b : OpenCLBuffer)

def isValid : Bool := b.mem.isSome

/-- The pointer; `answer` is that of `clEnqueueMapBuffer`, which is not called without an object. -/
def mapInternal (answer : Created) : Option ℕ :=
  match b.mem with
  | none => none
  | some _ => if answer.err ≠ clSuccess ∨ answer.handle = none then none else answer.handle

def mapWrite (answer : Created) : Option ℕ := b.mapInternal answer

def mapRead (answer : Created) : Option ℕ := b.mapInternal answer

def mappingAt (ptr : Option ℕ) : Option Mapping :=
  match b.mem, ptr with
  | some mem, some ptr => some ⟨mem, ptr⟩
  | _, _ => none

/-- The mapping that `clEnqueueUnmapMemObject` is called for, if it is. -/
def unmap (mappedPtr : Option ℕ) : Option Mapping := b.mappingAt mappedPtr

variable {b}

/-- A failed creation leaves no handle behind. -/
theorem mem_construct (sizeBytes : ℕ) (create : Created) :
    (construct sizeBytes create).mem = create.handle := by
  unfold construct
  split_ifs with failed
  · rcases failed with err | null
    · exact (create.failed err).symm
    · exact null.symm
  · rfl

theorem mapInternal_eq (answer : Created) :
    b.mapInternal answer = b.mem.bind fun _ => answer.handle := by
  unfold mapInternal
  cases b.mem with
  | none => rfl
  | some mem =>
    split_ifs with failed
    · rcases failed with err | null
      · exact (answer.failed err).symm
      · exact null.symm
    · rfl

end OpenCLBuffer

/-! ### A scope -/

/-- The objects of a scope, the newest buffer first, what their caller has mapped and not unmapped,
the events it has not released, and whether it has unmapped or released what it did not have. -/
structure ComputeScope where
  ocl : OpenCLContext := {}
  prog : OpenCLProgram := {}
  bufs : List OpenCLBuffer := []
  mappings : List Mapping := []
  events : List ℕ := []
  strayed : Bool := false
  log : List (Event ComputeHandle) := []

namespace ComputeScope

variable (s : ComputeScope)

/-- The events of `new` that are not in the history it continues. -/
def since {α : Type} (old new : List (Event α)) : List (Event α) :=
  new.take (new.length - old.length)

def lift {α : Type} (f : α → ComputeHandle) : Event α → Event ComputeHandle
  | .acquire a => .acquire (f a)
  | .release a => .release (f a)

def withContext (ocl : OpenCLContext) : ComputeScope :=
  { s with ocl, log := (since s.ocl.log ocl.log).map (lift .context) ++ s.log }

def withProgram (prog : OpenCLProgram) : ComputeScope :=
  { s with prog, log := (since s.prog.log prog.log).map (lift .program) ++ s.log }

def withBuffer (sizeBytes : ℕ) (create : Created) : ComputeScope :=
  { s with
    bufs := .construct sizeBytes create :: s.bufs
    log := create.handle.toList.map (fun h => .acquire (.mem h)) ++ s.log }

def mapped (b : OpenCLBuffer) (ptr : Option ℕ) : ComputeScope :=
  { s with
    mappings := (b.mappingAt ptr).toList ++ s.mappings
    log := (b.mappingAt ptr).toList.map (fun m => .acquire (.caller (.mapping m))) ++ s.log }

def unmapped (m : Option Mapping) : ComputeScope :=
  { s with
    mappings := m.elim s.mappings s.mappings.erase
    strayed := s.strayed || m.any (· ∉ s.mappings)
    log := m.toList.map (fun m => .release (.caller (.mapping m))) ++ s.log }

def launched (event : Option ℕ) : ComputeScope :=
  { s with
    events := event.toList ++ s.events
    log := event.toList.map (fun e => .acquire (.caller (.event e))) ++ s.log }

def releaseEvent (event : ℕ) : ComputeScope :=
  { s with
    events := s.events.erase event
    strayed := s.strayed || event ∉ s.events
    log := .release (.caller (.event event)) :: s.log }

inductive Op where
  | context (op : OpenCLContext.Op)
  | program (op : OpenCLProgram.Op)
  | construct (sizeBytes : ℕ) (create : Created)
  | mapWrite (i : ℕ) (answer : Created)
  | mapRead (i : ℕ) (answer : Created)
  | unmap (i : ℕ) (mappedPtr : Option ℕ)
  | launch (answer : Created)
  | releaseEvent (event : ℕ)

/-- One call on an object or on what the caller owns; `i` counts the buffers from the newest.  The
driver gives a new object no handle that is in use, but it may map a buffer where it is mapped
already, and the caller may unmap and release what it does not have. -/
def step : Op → Option ComputeScope
  | .context op => some (s.withContext (s.ocl.apply op))
  | .program op => (s.prog.step op).map s.withProgram
  | .construct sizeBytes create =>
    if ∀ h ∈ create.handle, ¬ Out (.mem h) s.log then some (s.withBuffer sizeBytes create) else none
  | .mapWrite i answer => do
    let b ← s.bufs[i]?
    return s.mapped b (b.mapWrite answer)
  | .mapRead i answer => do
    let b ← s.bufs[i]?
    return s.mapped b (b.mapRead answer)
  | .unmap i mappedPtr => do
    let b ← s.bufs[i]?
    return s.unmapped (b.unmap mappedPtr)
  | .launch answer => some (s.launched answer.handle)
  | .releaseEvent event => some (s.releaseEvent event)

/-- The destructors of the buffers, the newest first. -/
def destroyBuffers : ComputeScope :=
  { s with
    bufs := []
    log := (s.bufs.filterMap OpenCLBuffer.mem).foldl (fun log h => .release (.mem h) :: log) s.log }

/-- The destructors of all objects, in the reverse order of their declarations. -/
def leave : ComputeScope :=
  let s := s.destroyBuffers
  let s := s.withProgram s.prog.destroy
  s.withContext s.ocl.destroy

/-! ### The histories of the parts -/

section Lift

variable {α β : Type} {kind : ComputeHandle → Option α}

theorem since_append (newer old : List (Event α)) : since old (newer ++ old) = newer := by
  simp [since]

theorem part_own {f : α → ComputeHandle} (own : ∀ a, kind (f a) = some a) (log : List (Event α)) :
    part kind (log.map (lift f)) = log := by
  induction log with
  | nil => rfl
  | cons e log ih => cases e <;> simp [lift, own, ih]

theorem part_other {f : β → ComputeHandle} (other : ∀ b, kind (f b) = none)
    (log : List (Event β)) : part kind (log.map (lift f)) = [] := by
  induction log with
  | nil => rfl
  | cons e log ih => cases e <;> simp [lift, other, ih]

end Lift

variable {s} {s' : ComputeScope}

/-- What each object has to give back stands in the history of its own handles. -/
structure Parted (s : ComputeScope) : Prop where
  owned : s.ocl.Owned
  context : part ComputeHandle.context? s.log = s.ocl.log
  tracked : s.prog.Tracked
  program : part ComputeHandle.program? s.log = s.prog.log
  mem : Tracks (s.bufs.filterMap OpenCLBuffer.mem) (part ComputeHandle.mem? s.log)

/-- An operation of the context continues the history of the context, -/
theorem part_withContext {ocl : OpenCLContext} {newer : List (Event ContextHandle)}
    (log : ocl.log = newer ++ s.ocl.log) (same : part ComputeHandle.context? s.log = s.ocl.log) :
    part ComputeHandle.context? (s.withContext ocl).log = ocl.log := by
  rw [withContext, part_append, part_own (f := .context) fun _ => rfl, log, since_append, same]

theorem part_withContext_of_ne {α : Type} {kind : ComputeHandle → Option α}
    (other : ∀ h, kind (.context h) = none) (ocl : OpenCLContext) :
    part kind (s.withContext ocl).log = part kind s.log := by
  rw [withContext, part_append, part_other other, List.nil_append]

/-- and one of the program that of the program. -/
theorem part_withProgram {prog : OpenCLProgram} {newer : List (Event ProgramHandle)}
    (log : prog.log = newer ++ s.prog.log)
    (same : part ComputeHandle.program? s.log = s.prog.log) :
    part ComputeHandle.program? (s.withProgram prog).log = prog.log := by
  rw [withProgram, part_append, part_own (f := .program) fun _ => rfl, log, since_append, same]

theorem part_withProgram_of_ne {α : Type} {kind : ComputeHandle → Option α}
    (other : ∀ h, kind (.program h) = none) (prog : OpenCLProgram) :
    part kind (s.withProgram prog).log = part kind s.log := by
  rw [withProgram, part_append, part_other other, List.nil_append]

theorem part_withBuffer_of_ne {α : Type} {kind : ComputeHandle → Option α}
    (other : ∀ h, kind (.mem h) = none) (sizeBytes : ℕ) (create : Created) :
    part kind (s.withBuffer sizeBytes create).log = part kind s.log := by
  unfold ComputeScope.withBuffer
  cases create.handle with
  | none => rfl
  | some m => simp [other]

theorem Parted.withContext (h : s.Parted) {ocl : OpenCLContext} (owned : ocl.Owned)
    {newer : List (Event ContextHandle)} (log : ocl.log = newer ++ s.ocl.log) :
    (s.withContext ocl).Parted := by
  refine ⟨owned, part_withContext log h.context, h.tracked, ?_, ?_⟩
  all_goals rw [part_withContext_of_ne fun _ => rfl]
  · exact h.program
  · exact h.mem

theorem Parted.withProgram (h : s.Parted) {prog : OpenCLProgram} (tracked : prog.Tracked)
    {newer : List (Event ProgramHandle)} (log : prog.log = newer ++ s.prog.log) :
    (s.withProgram prog).Parted := by
  refine ⟨h.owned, ?_, tracked, part_withProgram log h.program, ?_⟩
  all_goals rw [part_withProgram_of_ne fun _ => rfl]
  · exact h.context
  · exact h.mem

theorem Parted.withBuffer (h : s.Parted) (sizeBytes : ℕ) {create : Created}
    (free : ∀ h ∈ create.handle, ¬ Out (.mem h) s.log) :
    (s.withBuffer sizeBytes create).Parted := by
  have bufs : (s.withBuffer sizeBytes create).bufs.filterMap OpenCLBuffer.mem =
      create.handle.toList ++ s.bufs.filterMap OpenCLBuffer.mem := by
    rw [ComputeScope.withBuffer, List.filterMap_cons, OpenCLBuffer.mem_construct]
    cases create.handle <;> rfl
  have log : (s.withBuffer sizeBytes create).log =
      create.handle.toList.map (fun h => .acquire (.mem h)) ++ s.log := rfl
  refine ⟨h.owned, (part_withBuffer_of_ne (fun _ => rfl) _ _).trans h.context, h.tracked,
    (part_withBuffer_of_ne (fun _ => rfl) _ _).trans h.program, ?_⟩
  rw [bufs, log]
  cases made : create.handle with
  | none => exact h.mem
  | some m =>
    have idle : ¬ Out m (part ComputeHandle.mem? s.log) :=
      mt (out_part fun _ => ComputeHandle.mem?_eq_some).1 (free m made)
    exact h.mem.acquire idle (List.Perm.refl _)

theorem Parted.mapped (h : s.Parted) (b : OpenCLBuffer) (ptr : Option ℕ) :
    (s.mapped b ptr).Parted := by
  unfold ComputeScope.mapped
  cases b.mappingAt ptr <;> exact ⟨h.owned, h.context, h.tracked, h.program, h.mem⟩

theorem Parted.unmapped (h : s.Parted) (m : Option Mapping) : (s.unmapped m).Parted := by
  cases m <;> exact ⟨h.owned, h.context, h.tracked, h.program, h.mem⟩

theorem Parted.launched (h : s.Parted) (event : Option ℕ) : (s.launched event).Parted := by
  cases event <;> exact ⟨h.owned, h.context, h.tracked, h.program, h.mem⟩

theorem Parted.releaseEvent (h : s.Parted) (event : ℕ) : (s.releaseEvent event).Parted :=
  ⟨h.owned, h.context, h.tracked, h.program, h.mem⟩

/-! ### What the caller owns -/

/-- What the caller has to give back. -/
def owed (s : ComputeScope) : List CallerHandle :=
  s.mappings.map .mapping ++ s.events.map .event

@[simp] theorem mapping_mem_owed {m : Mapping} : .mapping m ∈ s.owed ↔ m ∈ s.mappings := by
  simp [owed]

@[simp] theorem event_mem_owed {e : ℕ} : .event e ∈ s.owed ↔ e ∈ s.events := by
  simp [owed]

@[simp] theorem owed_eq_nil : s.owed = [] ↔ s.mappings = [] ∧ s.events = [] := by
  simp [owed]

theorem owed_unmapped {m : Mapping} (member : m ∈ s.mappings) :
    s.owed.Perm (.mapping m :: (s.unmapped (some m)).owed) :=
  ((List.perm_cons_erase member).map CallerHandle.mapping).append_right _

theorem owed_launched (e : ℕ) : (s.launched (some e)).owed.Perm (.event e :: s.owed) :=
  List.perm_middle

theorem owed_releaseEvent {e : ℕ} (member : e ∈ s.events) :
    s.owed.Perm (.event e :: (s.releaseEvent e).owed) :=
  (((List.perm_cons_erase member).map CallerHandle.event).append_left _).trans List.perm_middle

/-- It stands in the history of what only the caller gives back. -/
def Kept (s : ComputeScope) : Prop :=
  Keeps s.owed s.strayed (part ComputeHandle.caller? s.log)

theorem Kept.mapped (h : s.Kept) (b : OpenCLBuffer) (ptr : Option ℕ) : (s.mapped b ptr).Kept := by
  unfold ComputeScope.mapped
  cases b.mappingAt ptr with
  | none => exact h
  | some m => exact h.acquire (List.Perm.refl _)

theorem Kept.unmapped (h : s.Kept) (m : Option Mapping) : (s.unmapped m).Kept := by
  cases m with
  | none =>
    have same : (s.unmapped none).strayed = s.strayed := Bool.or_false _
    unfold Kept
    rw [same]
    exact h
  | some m =>
    have log : part ComputeHandle.caller? (s.unmapped (some m)).log =
        .release (.mapping m) :: part ComputeHandle.caller? s.log := rfl
    unfold Kept
    rw [log]
    by_cases member : m ∈ s.mappings
    · have same : (s.unmapped (some m)).strayed = s.strayed := by
        simp [ComputeScope.unmapped, member]
      rw [same]
      exact h.release (owed_unmapped member)
    · have strayed : (s.unmapped (some m)).strayed = true := by
        simp [ComputeScope.unmapped, member]
      rw [strayed]
      exact h.stray (mt mapping_mem_owed.1 member)

theorem Kept.launched (h : s.Kept) (event : Option ℕ) : (s.launched event).Kept := by
  cases event with
  | none => exact h
  | some e => exact h.acquire (owed_launched e)

theorem Kept.releaseEvent (h : s.Kept) (e : ℕ) : (s.releaseEvent e).Kept := by
  have log : part ComputeHandle.caller? (s.releaseEvent e).log =
      .release (.event e) :: part ComputeHandle.caller? s.log := rfl
  unfold Kept
  rw [log]
  by_cases member : e ∈ s.events
  · have same : (s.releaseEvent e).strayed = s.strayed := by
      simp [ComputeScope.releaseEvent, member]
    rw [same]
    exact h.release (owed_releaseEvent member)
  · have strayed : (s.releaseEvent e).strayed = true := by
      simp [ComputeScope.releaseEvent, member]
    rw [strayed]
    exact h.stray (mt event_mem_owed.1 member)

/-! ### Runs -/

theorem log_initializeContext {c : OpenCLContext} (h : c.Owned)
    (a : InitializeAnswer) :
    ∃ newer, (c.initializeContext a).1.log = newer ++ c.log := by
  cases h.whole with
  | up ctx queue up =>
    rw [OpenCLContext.initializeContext, if_pos up]
    exact ⟨[], rfl⟩
  | down down noContext noQueue =>
    cases OpenCLContext.initializes down noContext a with
    | nothing same => exact ⟨[], same.log⟩
    | contextOnly ctx made down context queue log => exact ⟨[_, _], log⟩
    | both ctx queue made made' up context queue_eq log => exact ⟨[_, _], log⟩

theorem log_shutdown (c : OpenCLContext) : ∃ newer, c.shutdown.log = newer ++ c.log := by
  have queue : ∃ newer, c.releaseQueue.log = newer ++ c.log := by
    unfold OpenCLContext.releaseQueue
    cases c.queue with
    | none => exact ⟨[], rfl⟩
    | some h => exact ⟨[_], rfl⟩
  have context (d : OpenCLContext) : ∃ newer, d.releaseContext.log = newer ++ d.log := by
    unfold OpenCLContext.releaseContext
    cases d.context with
    | none => exact ⟨[], rfl⟩
    | some h => exact ⟨[_], rfl⟩
  obtain ⟨newer, first⟩ := queue
  obtain ⟨newest, second⟩ := context c.releaseQueue
  refine ⟨newest ++ newer, ?_⟩
  rw [List.append_assoc, ← first]
  exact second

theorem log_releaseProgram (p : OpenCLProgram) :
    ∃ newer, p.releaseProgram.log = newer ++ p.log := by
  unfold OpenCLProgram.releaseProgram
  cases p.program with
  | none => exact ⟨[], rfl⟩
  | some h => exact ⟨[_], rfl⟩

theorem log_step {p p' : OpenCLProgram} {op : OpenCLProgram.Op} (taken : p.step op = some p') :
    ∃ newer, p'.log = newer ++ p.log := by
  cases op with
  | buildFromSource create buildErr =>
    obtain ⟨-, ⟨⟩⟩ := Option.ite_none_right_eq_some.1 taken
    obtain ⟨newer, released⟩ := log_releaseProgram p
    have stored : ∃ newer, (p.releaseProgram.storeProgram create).log = newer ++ p.log :=
      ⟨_ ++ newer, by rw [List.append_assoc, ← released]; rfl⟩
    obtain eq | eq := p.buildFromSource_cases create buildErr
    · exact eq ▸ stored
    · obtain ⟨newest, again⟩ := log_releaseProgram (p.releaseProgram.storeProgram create)
      obtain ⟨newer, stored⟩ := stored
      exact ⟨newest ++ newer, by rw [eq, again, stored, List.append_assoc]⟩
  | createKernel create =>
    obtain ⟨-, ⟨⟩⟩ := Option.ite_none_right_eq_some.1 taken
    obtain eq | ⟨kernel, -, eq⟩ := p.createKernel_cases create
    · exact ⟨[], by rw [eq]; rfl⟩
    · exact ⟨[_], by rw [eq]; rfl⟩
  | callerRelease kernel =>
    obtain ⟨-, ⟨⟩⟩ := Option.ite_none_right_eq_some.1 taken
    exact ⟨[_], rfl⟩

theorem log_destroy (p : OpenCLProgram) : ∃ newer, p.destroy.log = newer ++ p.log := by
  obtain ⟨newer, released⟩ := log_releaseProgram { p with
    kernels := []
    log := p.kernels.foldl (fun log kernel => .release (.kernel kernel) :: log) p.log }
  refine ⟨newer ++ (p.kernels.map fun k => .release (.kernel k)).reverse, ?_⟩
  rw [OpenCLProgram.destroy, released, List.append_assoc]
  simp [List.foldl_flip_cons_eq_append]

/-- A call on any of the objects; the kernels are left to the program. -/
theorem parted_step (h : s.Parted) {op : Op} (left : ∀ k, op ≠ .program (.callerRelease k))
    (taken : s.step op = some s') : s'.Parted := by
  cases op with
  | context op =>
    cases taken
    cases op with
    | initializeContext a =>
      obtain ⟨newer, log⟩ := log_initializeContext h.owned a
      exact h.withContext (h.owned.initializeContext a) log
    | shutdown =>
      obtain ⟨newer, log⟩ := log_shutdown s.ocl
      exact h.withContext h.owned.shutdown.1 log
  | program op =>
    obtain ⟨prog, step, rfl⟩ := Option.map_eq_some_iff.1 taken
    obtain ⟨newer, log⟩ := log_step step
    have own : ∀ k, op ≠ .callerRelease k := fun k eq => left k (congrArg Op.program eq)
    exact h.withProgram (OpenCLProgram.tracked_step h.tracked own step) log
  | construct sizeBytes create =>
    obtain ⟨free, ⟨⟩⟩ := Option.ite_none_right_eq_some.1 taken
    exact h.withBuffer sizeBytes free
  | mapWrite i answer =>
    obtain ⟨b, -, ⟨⟩⟩ := Option.bind_eq_some_iff.1 taken
    exact h.mapped b _
  | mapRead i answer =>
    obtain ⟨b, -, ⟨⟩⟩ := Option.bind_eq_some_iff.1 taken
    exact h.mapped b _
  | unmap i mappedPtr =>
    obtain ⟨b, -, ⟨⟩⟩ := Option.bind_eq_some_iff.1 taken
    exact h.unmapped _
  | launch answer =>
    cases taken
    exact h.launched _
  | releaseEvent event =>
    cases taken
    exact h.releaseEvent event

/-- A call on the objects leaves the caller what it owns, and one of the caller's own is kept. -/
theorem kept_step (h : s.Kept) {op : Op} (taken : s.step op = some s') : s'.Kept := by
  cases op with
  | context op =>
    cases taken
    unfold Kept
    rw [part_withContext_of_ne fun _ => rfl]
    exact h
  | program op =>
    obtain ⟨prog, -, rfl⟩ := Option.map_eq_some_iff.1 taken
    unfold Kept
    rw [part_withProgram_of_ne fun _ => rfl]
    exact h
  | construct sizeBytes create =>
    obtain ⟨-, ⟨⟩⟩ := Option.ite_none_right_eq_some.1 taken
    unfold Kept
    rw [part_withBuffer_of_ne fun _ => rfl]
    exact h
  | mapWrite i answer =>
    obtain ⟨b, -, ⟨⟩⟩ := Option.bind_eq_some_iff.1 taken
    exact h.mapped b _
  | mapRead i answer =>
    obtain ⟨b, -, ⟨⟩⟩ := Option.bind_eq_some_iff.1 taken
    exact h.mapped b _
  | unmap i mappedPtr =>
    obtain ⟨b, -, ⟨⟩⟩ := Option.bind_eq_some_iff.1 taken
    exact h.unmapped _
  | launch answer =>
    cases taken
    exact h.launched _
  | releaseEvent event =>
    cases taken
    exact h.releaseEvent event

theorem parted_empty : Parted {} :=
  ⟨OpenCLContext.owned_run [], rfl, Tracks.nil, rfl, Tracks.nil⟩

theorem parted_run {ops : List Op} (run : Run step {} ops s)
    (left : ∀ k, .program (.callerRelease k) ∉ ops) : s.Parted ∧ s.Kept := by
  induction ops using List.reverseRecOn generalizing s with
  | nil =>
    obtain rfl := run_nil.1 run
    exact ⟨parted_empty, Keeps.nil⟩
  | append_singleton ops op ih =>
    obtain ⟨t, before, last⟩ := run_concat.1 run
    obtain ⟨parted, kept⟩ := ih before fun k mem => left k (by simp [mem])
    exact ⟨parted_step parted (fun k eq => left k (by simp [eq])) last, kept_step kept last⟩

/-! ### Leaving the scope -/

section Leave

variable {α : Type} (kind : ComputeHandle → Option α) (ms : List ℕ)
  (log : List (Event ComputeHandle))

theorem part_mem_foldl : part ComputeHandle.mem?
      (ms.foldl (fun log m => .release (.mem m) :: log) log) =
    ms.foldl (fun log m => .release m :: log) (part ComputeHandle.mem? log) := by
  induction ms generalizing log with
  | nil => rfl
  | cons m ms ih => exact ih _

theorem part_foldl_of_ne (other : ∀ m, kind (.mem m) = none) :
    part kind (ms.foldl (fun log m => .release (.mem m) :: log) log) = part kind log := by
  induction ms generalizing log with
  | nil => rfl
  | cons m ms ih =>
    rw [List.foldl_cons, ih, part_release, other]
    rfl

end Leave

/-- The histories of the context and the program, -/
theorem Parted.leave_objects (h : s.Parted) :
    part ComputeHandle.context? s.leave.log = s.ocl.destroy.log ∧
      part ComputeHandle.program? s.leave.log = s.prog.destroy.log := by
  obtain ⟨newer, program⟩ := log_destroy s.prog
  obtain ⟨newest, context⟩ := log_shutdown s.ocl
  have before : part ComputeHandle.program? s.destroyBuffers.log = s.prog.log :=
    (part_foldl_of_ne _ _ _ fun _ => rfl).trans h.program
  constructor
  · refine part_withContext context ?_
    rw [part_withProgram_of_ne fun _ => rfl]
    exact (part_foldl_of_ne _ _ _ fun _ => rfl).trans h.context
  · exact (part_withContext_of_ne (fun _ => rfl) _).trans (part_withProgram program before)

/-- and those that their destructors do not touch. -/
theorem part_leave {α : Type} {kind : ComputeHandle → Option α}
    (context : ∀ h, kind (.context h) = none) (program : ∀ h, kind (.program h) = none) :
    part kind s.leave.log = part kind s.destroyBuffers.log :=
  (part_withContext_of_ne context _).trans (part_withProgram_of_ne program _)

theorem part_caller_leave :
    part ComputeHandle.caller? s.leave.log = part ComputeHandle.caller? s.log :=
  (part_leave (fun _ => rfl) fun _ => rfl).trans (part_foldl_of_ne _ _ _ fun _ => rfl)

/-- What the objects own is given back. -/
theorem Parted.leave (h : s.Parted) :
    Tracks [] (part ComputeHandle.context? s.leave.log) ∧
      Tracks [] (part ComputeHandle.program? s.leave.log) ∧
        Tracks [] (part ComputeHandle.mem? s.leave.log) := by
  obtain ⟨context, program⟩ := h.leave_objects
  refine ⟨?_, program ▸ h.tracked.destroy, ?_⟩
  · obtain ⟨after, -, empty⟩ := h.owned.shutdown
    rw [context]
    exact empty ▸ after.tracks
  · have all : Tracks (s.bufs.filterMap OpenCLBuffer.mem ++ [])
        (part ComputeHandle.mem? s.log) := by
      rw [List.append_nil]
      exact h.mem
    have released := all.releaseAll
    rw [← part_mem_foldl] at released
    rw [part_leave (fun _ => rfl) fun _ => rfl]
    exact released

/-- So the caller decides. -/
theorem Parted.settled_iff (h : s.Parted) (kept : s.Kept) :
    Settled s.leave.log ↔ s.mappings = [] ∧ s.events = [] ∧ s.strayed = false := by
  obtain ⟨contexts, programs, mems⟩ := h.leave
  rw [ComputeHandle.settled_iff_parts, and_iff_right contexts.settled,
    and_iff_right programs.settled, and_iff_right mems.settled, part_caller_leave,
    Keeps.settled_iff kept, owed_eq_nil, and_assoc]

/-- A call that hands out `handle`. -/
def made (handle : ℕ) : Created := ⟨clSuccess, some handle, fun failed => absurd rfl failed⟩

/-- A call that fails. -/
def refused : Created := ⟨-5, none, fun _ => rfl⟩

/-- One buffer, mapped twice at one address and unmapped twice, and one that is refused. -/
def mappedTwice : List Op :=
  [.construct 16 (made 1), .mapWrite 0 (made 2), .mapRead 0 (made 2), .unmap 0 (some 2),
    .unmap 0 (some 2), .construct 16 refused]

end ComputeScope

end SmoothDemon
