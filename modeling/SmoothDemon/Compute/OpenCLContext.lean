import Mathlib.Data.List.Induction
import Mathlib.Data.List.Infix
import SmoothDemon.Library.Custody

/-!
# OpenCLContext

src/compute/OpenCLContext.cpp with the answers of the OpenCL calls as inputs; a handle may come back
after it was released.  Whatever succeeds or fails, the object is initialized exactly while it has a
context and a queue, and in the end gives each back once, the queue first (`wellOwned_run`).
-/

namespace SmoothDemon

open Custody

/-- `CL_SUCCESS`. -/
def clSuccess : Int32 := 0

/-- What a creating call returns: an error code and a handle, null if the call failed. -/
structure Created where
  err : Int32
  handle : Option ℕ
  failed : err ≠ clSuccess → handle = none

/-- A call that returned a handle did not fail. -/
theorem Created.err_eq {a : Created} {h : ℕ} (made : a.handle = some h) : a.err = clSuccess := by
  by_contra failed
  rw [a.failed failed] at made
  cases made

/-- What a string query sees: the error code and the size from its first call, the bytes its second
call writes. -/
structure StringAnswer where
  err : Int32
  size : ℕ
  bytes : List Char

def queryString (a : StringAnswer) : List Char :=
  if a.err ≠ clSuccess ∨ a.size = 0 then []
  else
    let value := (a.bytes ++ List.replicate a.size (Char.ofNat 0)).take a.size
    if value.getLast? = some (Char.ofNat 0) then value.dropLast else value

def queryPlatformString (a : StringAnswer) : List Char := queryString a

def queryDeviceString (a : StringAnswer) : List Char := queryString a

def toLower (s : List Char) : List Char := s.map Char.toLower

/-- A platform as the search sees it; `devices` is the vector of its GPUs, null where the second
`clGetDeviceIDs` did not fill it. -/
structure PlatformAnswer where
  id : Option ℕ
  name : StringAnswer
  vendor : StringAnswer
  devicesErr : Int32
  devices : List (Option ℕ)

structure SearchAnswer where
  err : Int32
  platforms : List PlatformAnswer
  fallbackName : StringAnswer

/-- A failed query of `QueryDeviceInfo` leaves its field alone. -/
structure DeviceAnswer where
  name : StringAnswer
  computeUnits : Option UInt32
  maxWorkGroupSize : Option UInt64
  globalMemSize : Option UInt64

structure InitializeAnswer where
  search : SearchAnswer
  device : DeviceAnswer
  context : Created
  queue : Created

def PlatformAnswer.isIntel (p : PlatformAnswer) : Bool :=
  "intel".toList <:+: toLower (queryPlatformString p.name) ∨
    "intel".toList <:+: toLower (queryPlatformString p.vendor)

inductive ContextHandle
  | context (handle : ℕ)
  | queue (handle : ℕ)
  deriving DecidableEq

structure OpenCLContext where
  initialized : Bool := false
  platform : Option ℕ := none
  device : Option ℕ := none
  context : Option ℕ := none
  queue : Option ℕ := none
  platformName : List Char := []
  deviceName : List Char := []
  computeUnits : UInt32 := 0
  maxWorkGroupSize : UInt64 := 0
  globalMemSize : UInt64 := 0
  log : List (Event ContextHandle) := []

namespace OpenCLContext

variable (c : OpenCLContext)

/-- The rest of `FindIntelGpuDevice` from a point of its loop, with the fallback found so far. -/
def findFrom (fallbackName : StringAnswer) :
    List PlatformAnswer → Option ℕ → Option ℕ → OpenCLContext × Bool
  | [], fallbackPlatform, fallbackDevice =>
    if fallbackPlatform.isSome then
      ({ c with
          platform := fallbackPlatform
          device := fallbackDevice
          platformName := queryPlatformString fallbackName }, true)
    else (c, false)
  | p :: platforms, fallbackPlatform, fallbackDevice =>
    if p.devicesErr ≠ clSuccess ∨ p.devices = [] then
      findFrom fallbackName platforms fallbackPlatform fallbackDevice
    else if p.isIntel then
      ({ c with
          platform := p.id
          device := p.devices.head?.join
          platformName := queryPlatformString p.name }, true)
    else if fallbackPlatform.isNone then
      findFrom fallbackName platforms p.id p.devices.head?.join
    else findFrom fallbackName platforms fallbackPlatform fallbackDevice

def findIntelGpuDevice (a : SearchAnswer) : OpenCLContext × Bool :=
  if a.err ≠ clSuccess ∨ a.platforms = [] then (c, false)
  else c.findFrom a.fallbackName a.platforms none none

def queryDeviceInfo (a : DeviceAnswer) : OpenCLContext :=
  { c with
    deviceName := queryDeviceString a.name
    computeUnits := a.computeUnits.getD c.computeUnits
    maxWorkGroupSize := a.maxWorkGroupSize.getD c.maxWorkGroupSize
    globalMemSize := a.globalMemSize.getD c.globalMemSize }

/-- `m_context = clCreateContext(..)`. -/
def storeContext (a : Created) : OpenCLContext :=
  { c with
    context := a.handle
    log := a.handle.toList.map (fun h => .acquire (.context h)) ++ c.log }

/-- `m_queue = clCreateCommandQueueWithProperties(..)`. -/
def storeQueue (a : Created) : OpenCLContext :=
  { c with
    queue := a.handle
    log := a.handle.toList.map (fun h => .acquire (.queue h)) ++ c.log }

def releaseQueue : OpenCLContext :=
  match c.queue with
  | none => c
  | some h => { c with queue := none, log := .release (.queue h) :: c.log }

def releaseContext : OpenCLContext :=
  match c.context with
  | none => c
  | some h => { c with context := none, log := .release (.context h) :: c.log }

/-- `Initialize`. -/
def initializeContext (a : InitializeAnswer) : OpenCLContext × Bool :=
  if c.initialized then (c, true)
  else
    match c.findIntelGpuDevice a.search with
    | (c, false) => (c, false)
    | (c, true) =>
      let c := (c.queryDeviceInfo a.device).storeContext a.context
      if a.context.err ≠ clSuccess ∨ c.context = none then (c, false)
      else
        let c := c.storeQueue a.queue
        if a.queue.err ≠ clSuccess ∨ c.queue = none then (c.releaseContext, false)
        else ({ c with initialized := true }, true)

def shutdown : OpenCLContext :=
  { c.releaseQueue.releaseContext with platform := none, device := none, initialized := false }

/-- The destructor. -/
def destroy : OpenCLContext := c.shutdown

inductive Op
  | initializeContext (a : InitializeAnswer)
  | shutdown

def apply : Op → OpenCLContext
  | .initializeContext a => (c.initializeContext a).1
  | .shutdown => c.shutdown

/-- An object after a sequence of calls. -/
def run (ops : List Op) : OpenCLContext := ops.foldl apply {}

/-! ### What a call does to the handles -/

/-- The fields that `FindIntelGpuDevice` and `QueryDeviceInfo` do not write. -/
structure SameHandles (c c' : OpenCLContext) : Prop where
  initialized : c'.initialized = c.initialized
  context : c'.context = c.context
  queue : c'.queue = c.queue
  log : c'.log = c.log

theorem sameHandles_findFrom (fallbackName : StringAnswer) (platforms : List PlatformAnswer)
    (fallbackPlatform fallbackDevice : Option ℕ) :
    SameHandles c (c.findFrom fallbackName platforms fallbackPlatform fallbackDevice).1 := by
  induction platforms generalizing fallbackPlatform fallbackDevice with
  | nil =>
    rw [findFrom]
    split_ifs <;> exact ⟨rfl, rfl, rfl, rfl⟩
  | cons p platforms ih =>
    rw [findFrom]
    split_ifs
    · exact ih _ _
    · exact ⟨rfl, rfl, rfl, rfl⟩
    · exact ih _ _
    · exact ih _ _

theorem sameHandles_findIntelGpuDevice (a : SearchAnswer) :
    SameHandles c (c.findIntelGpuDevice a).1 := by
  unfold findIntelGpuDevice
  split_ifs
  · exact ⟨rfl, rfl, rfl, rfl⟩
  · exact c.sameHandles_findFrom ..

/-- What `Initialize` does to an object without handles. -/
inductive Initializes (c : OpenCLContext) (a : InitializeAnswer) (c' : OpenCLContext) : Prop
  | nothing (same : SameHandles c c')
  | contextOnly (ctx : ℕ) (created : a.context.handle = some ctx)
      (initialized : c'.initialized = false) (context : c'.context = none) (queue : c'.queue = none)
      (log : c'.log = .release (.context ctx) :: .acquire (.context ctx) :: c.log)
  | both (ctx queue : ℕ) (created : a.context.handle = some ctx)
      (created' : a.queue.handle = some queue) (initialized : c'.initialized = true)
      (context : c'.context = some ctx) (queue_eq : c'.queue = some queue)
      (log : c'.log = .acquire (.queue queue) :: .acquire (.context ctx) :: c.log)

variable {c}

theorem initializes (idle : c.initialized = false) (noContext : c.context = none)
    (a : InitializeAnswer) : Initializes c a (c.initializeContext a).1 := by
  have same := c.sameHandles_findIntelGpuDevice a.search
  unfold initializeContext
  rw [if_neg (by simp [idle])]
  split
  · next found =>
    rw [found] at same
    exact .nothing same
  · next d found =>
    have same : SameHandles c d := by rwa [found] at same
    rcases made : a.context.handle with _ | ctx
    · have null : ((d.queryDeviceInfo a.device).storeContext a.context).context = none := made
      simp only [null, or_true, if_true]
      refine .nothing ⟨same.initialized, null.trans noContext.symm, same.queue, ?_⟩
      simpa [storeContext, queryDeviceInfo, made] using same.log
    · have stored : ((d.queryDeviceInfo a.device).storeContext a.context).context = some ctx := made
      have log : ((d.queryDeviceInfo a.device).storeContext a.context).log =
          .acquire (.context ctx) :: c.log := by
        simp [storeContext, queryDeviceInfo, made, same.log]
      set d' := (d.queryDeviceInfo a.device).storeContext a.context
      simp only [Created.err_eq made, stored, ne_eq, not_true_eq_false, reduceCtorEq, or_self,
        if_false]
      rcases made' : a.queue.handle with _ | queue
      · have null : (d'.storeQueue a.queue).queue = none := made'
        simp only [null, or_true, if_true]
        refine .contextOnly ctx made ?_ ?_ ?_ ?_ <;>
          simp [releaseContext, storeQueue, stored, made', log]
        exact same.initialized.trans idle
      · have both : (d'.storeQueue a.queue).queue = some queue := made'
        simp only [Created.err_eq made', both, not_true_eq_false, reduceCtorEq, or_self, if_false]
        refine .both ctx queue made made' rfl stored rfl ?_
        simp [storeQueue, made', log]

/-! ### Any sequence of calls -/

/-- No queue is in use when a context is released. -/
def QueueFirst : List (Event ContextHandle) → Prop
  | [] => True
  | .release (.context _) :: log => (∀ queue, ¬ Out (.queue queue) log) ∧ QueueFirst log
  | .release (.queue _) :: log => QueueFirst log
  | .acquire _ :: log => QueueFirst log

/-- What the object has to give back, the queue first. -/
def custody (c : OpenCLContext) : List ContextHandle :=
  c.queue.toList.map .queue ++ c.context.toList.map .context

/-- The representation invariant: initialized with both handles, or not and with neither. -/
inductive Whole (c : OpenCLContext) : Prop
  | up (ctx queue : ℕ) (initialized : c.initialized = true) (context : c.context = some ctx)
      (queue_eq : c.queue = some queue)
  | down (initialized : c.initialized = false) (context : c.context = none)
      (queue : c.queue = none)

structure Owned (c : OpenCLContext) : Prop where
  whole : c.Whole
  tracks : Tracks c.custody c.log
  queueFirst : QueueFirst c.log

theorem Owned.congr {c' : OpenCLContext} (h : c.Owned) (same : SameHandles c c') : c'.Owned := by
  obtain ⟨initialized, context, queue, log⟩ := same
  refine ⟨?_, ?_, log ▸ h.queueFirst⟩
  · cases h.whole with
    | up ctx q up ctx_eq q_eq =>
      exact .up ctx q (initialized.trans up) (context.trans ctx_eq) (queue.trans q_eq)
    | down down noCtx noQueue =>
      exact .down (initialized.trans down) (context.trans noCtx) (queue.trans noQueue)
  · rw [custody, context, queue, log]
    exact h.tracks

theorem custody_of_none {c : OpenCLContext} (context : c.context = none) (queue : c.queue = none) :
    c.custody = [] := by
  simp [custody, context, queue]

theorem custody_of_some {c : OpenCLContext} {ctx queue : ℕ} (context : c.context = some ctx)
    (queue_eq : c.queue = some queue) : c.custody = [.queue queue, .context ctx] := by
  simp [custody, context, queue_eq]

/-- While the object has no handles, whatever the driver hands out is not in use. -/
theorem Owned.initializeContext (h : c.Owned) (a : InitializeAnswer) :
    (c.initializeContext a).1.Owned := by
  cases h.whole with
  | up ctx queue up =>
    rw [OpenCLContext.initializeContext, if_pos up]
    exact h
  | down down noContext noQueue =>
    have tracks : Tracks [] c.log := custody_of_none noContext noQueue ▸ h.tracks
    have unused (handle : ContextHandle) : ¬ Out handle c.log := by simp [← tracks.mem_iff]
    cases initializes down noContext a with
    | nothing same => exact h.congr same
    | contextOnly ctx made down context queue log =>
      have created : Tracks [.context ctx] (.acquire (.context ctx) :: c.log) :=
        tracks.acquire (unused _) (List.Perm.refl _)
      have idle (q : ℕ) : ¬ Out (.queue q) (.acquire (.context ctx) :: c.log) := by
        simp [← created.mem_iff]
      refine ⟨.down down context queue, ?_, ?_⟩
      · rw [custody_of_none context queue, log]
        exact created.release (List.Perm.refl _)
      · rw [log]
        exact ⟨idle, h.queueFirst⟩
    | both ctx queue made made' up context queue_eq log =>
      have created : Tracks [.context ctx] (.acquire (.context ctx) :: c.log) :=
        tracks.acquire (unused _) (List.Perm.refl _)
      have free : ¬ Out (.queue queue) (.acquire (.context ctx) :: c.log) := by
        simp [← created.mem_iff]
      refine ⟨.up ctx queue up context queue_eq, ?_, ?_⟩
      · rw [custody_of_some context queue_eq, log]
        exact created.acquire free (List.Perm.refl _)
      · rw [log]
        exact h.queueFirst

/-- `Shutdown` gives back what there is, and leaves nothing. -/
theorem Owned.shutdown (h : c.Owned) :
    c.shutdown.Owned ∧ c.shutdown.initialized = false ∧ c.shutdown.custody = [] := by
  cases h.whole with
  | up ctx queue up context queue_eq =>
    have tracks := h.tracks
    rw [custody_of_some context queue_eq] at tracks
    have first := tracks.release (List.Perm.refl _)
    have idle (q : ℕ) : ¬ Out (.queue q) (.release (.queue queue) :: c.log) := by
      simp [← first.mem_iff]
    have eq : c.shutdown.context = none ∧ c.shutdown.queue = none ∧
        c.shutdown.log = .release (.context ctx) :: .release (.queue queue) :: c.log := by
      simp [OpenCLContext.shutdown, releaseQueue, releaseContext, context, queue_eq]
    obtain ⟨context', queue', log⟩ := eq
    have empty := custody_of_none context' queue'
    refine ⟨⟨.down rfl context' queue', ?_, ?_⟩, rfl, empty⟩
    · rw [empty, log]
      exact first.release (List.Perm.refl _)
    · rw [log]
      exact ⟨idle, h.queueFirst⟩
  | down down context queue =>
    have eq : c.shutdown.context = none ∧ c.shutdown.queue = none ∧ c.shutdown.log = c.log := by
      simp [OpenCLContext.shutdown, releaseQueue, releaseContext, context, queue]
    obtain ⟨context', queue', log⟩ := eq
    exact ⟨h.congr ⟨down.symm, context'.trans context.symm, queue'.trans queue.symm, log⟩, rfl,
      custody_of_none context' queue'⟩

theorem owned_run (ops : List Op) : (run ops).Owned := by
  induction ops using List.reverseRecOn with
  | nil => exact ⟨.down rfl rfl rfl, .nil, trivial⟩
  | append_singleton ops op ih =>
    rw [run, List.foldl_concat]
    cases op with
    | initializeContext a => exact ih.initializeContext a
    | shutdown => exact ih.shutdown.1

/-- What holds of an object between any two calls.  The last three are about its log if it is
destroyed next and about an `Initialize` made next. -/
structure WellOwned (c : OpenCLContext) : Prop where
  initialized_iff : c.initialized = true ↔ c.context ≠ none ∧ c.queue ≠ none
  null : c.initialized = false → c.context = none ∧ c.queue = none
  releasedOnce : ReleasedOnce c.destroy.log
  queueFirst : QueueFirst c.destroy.log
  repeated : c.initialized = true → ∀ a, c.initializeContext a = (c, true)

theorem Owned.wellOwned (h : c.Owned) : c.WellOwned := by
  obtain ⟨after, -, empty⟩ := h.shutdown
  refine ⟨?_, fun down => ?_, (empty ▸ after.tracks).releasedOnce, after.queueFirst, fun up a => ?_⟩
  · cases h.whole with
    | up ctx queue up context queue_eq =>
      exact iff_of_true up (by simp [context, queue_eq])
    | down down context queue => exact iff_of_false (by simp [down]) (by simp [context])
  · cases h.whole with
    | up ctx queue up => simp [up] at down
    | down _ context queue => exact ⟨context, queue⟩
  · rw [OpenCLContext.initializeContext, if_pos up]

/-- After any sequence of calls, whatever OpenCL answers. -/
theorem wellOwned_run (ops : List Op) : (run ops).WellOwned := (owned_run ops).wellOwned

end OpenCLContext

end SmoothDemon
