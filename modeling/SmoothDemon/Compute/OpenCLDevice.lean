import SmoothDemon.Compute.OpenCLContext
import SmoothDemon.Library.Records

/-!
# The device that is used

`FindIntelGpuDevice` goes over the platforms once.  It takes the first GPU of the first Intel
platform that has one, and else that of the first platform that has one (`findIntelGpuDevice_eq`).
`Shutdown` forgets the device but nothing that was asked about it: after any calls the names are
those of the device in use, and each of the three figures is the last one that any device gave
(`run_shows`).
-/

namespace SmoothDemon

/-! ### The choice -/

/-- It answers with a GPU. -/
def PlatformAnswer.hasGpu (p : PlatformAnswer) : Bool := p.devicesErr = clSuccess ∧ p.devices ≠ []

theorem PlatformAnswer.not_hasGpu_iff {p : PlatformAnswer} :
    p.hasGpu = false ↔ p.devicesErr ≠ clSuccess ∨ p.devices = [] := by
  rw [hasGpu, decide_eq_false_iff_not, not_and_or, not_not]

/-- The first of its GPUs. -/
def PlatformAnswer.gpu (p : PlatformAnswer) : Option ℕ := p.devices.head?.join

/-- An Intel platform with a GPU. -/
def intel? (platforms : List PlatformAnswer) : Option PlatformAnswer :=
  (platforms.filter PlatformAnswer.hasGpu).find? PlatformAnswer.isIntel

/-- The first platform with a GPU; one that has no id is not remembered. -/
def first? (platforms : List PlatformAnswer) : Option PlatformAnswer :=
  (platforms.filter PlatformAnswer.hasGpu).find? (·.id.isSome)

/-- The platform to use. -/
def SearchAnswer.chosen (a : SearchAnswer) : Option PlatformAnswer :=
  if a.err = clSuccess then (intel? a.platforms).or (first? a.platforms) else none

/-- The name of the fallback is asked for again. -/
def SearchAnswer.nameOf (a : SearchAnswer) (p : PlatformAnswer) : List Char :=
  queryPlatformString (if p.isIntel then p.name else a.fallbackName)

theorem isIntel_of_intel? {platforms : List PlatformAnswer} {p : PlatformAnswer}
    (found : intel? platforms = some p) : p.isIntel = true :=
  List.find?_some found

theorem not_isIntel_of_first? {platforms : List PlatformAnswer} {p : PlatformAnswer}
    (nowhere : intel? platforms = none) (found : first? platforms = some p) :
    p.isIntel = false := by
  have gpu : p ∈ platforms.filter PlatformAnswer.hasGpu := List.mem_of_find?_eq_some found
  simpa using List.find?_eq_none.1 nowhere p gpu

namespace OpenCLContext

variable (c : OpenCLContext)

/-- What the search writes. -/
def select (platform device : Option ℕ) (name : List Char) : OpenCLContext :=
  { c with platform, device, platformName := name }

/-- From a point of the loop, whatever fallback it has: an Intel platform ahead, or else the
fallback, or else the first platform ahead. -/
theorem findFrom_eq (fallbackName : StringAnswer) (platforms : List PlatformAnswer)
    (fallbackPlatform fallbackDevice : Option ℕ) :
    c.findFrom fallbackName platforms fallbackPlatform fallbackDevice =
      match intel? platforms, fallbackPlatform, first? platforms with
      | some p, _, _ => (c.select p.id p.gpu (queryPlatformString p.name), true)
      | none, some id, _ =>
        (c.select (some id) fallbackDevice (queryPlatformString fallbackName), true)
      | none, none, some p => (c.select p.id p.gpu (queryPlatformString fallbackName), true)
      | none, none, none => (c, false) := by
  induction platforms generalizing fallbackPlatform fallbackDevice with
  | nil => cases fallbackPlatform <;> rfl
  | cons p platforms ih =>
    rw [findFrom]
    cases gpu : p.hasGpu with
    | false =>
      have skipped : (p :: platforms).filter PlatformAnswer.hasGpu =
          platforms.filter PlatformAnswer.hasGpu := List.filter_cons_of_neg (by simp [gpu])
      rw [if_pos (PlatformAnswer.not_hasGpu_iff.1 gpu), ih, intel?, first?, intel?, first?, skipped]
    | true =>
      have kept : (p :: platforms).filter PlatformAnswer.hasGpu =
          p :: platforms.filter PlatformAnswer.hasGpu := List.filter_cons_of_pos gpu
      have listed : ¬ (p.devicesErr ≠ clSuccess ∨ p.devices = []) := by
        rw [← PlatformAnswer.not_hasGpu_iff, gpu]
        exact Bool.noConfusion
      rw [if_neg listed]
      cases isIntel : p.isIntel with
      | true =>
        have found : intel? (p :: platforms) = some p := by
          rw [intel?, kept, List.find?_cons_of_pos isIntel]
        rw [if_pos rfl, found]
        rfl
      | false =>
        have passed : intel? (p :: platforms) = intel? platforms := by
          rw [intel?, kept, List.find?_cons_of_neg (by simp [isIntel]), intel?]
        rw [if_neg Bool.false_ne_true, passed]
        cases fallbackPlatform with
        | some id =>
          rw [if_neg (by simp), ih]
          cases intel? platforms <;> rfl
        | none =>
          rw [if_pos Option.isNone_none, ih]
          cases id : p.id with
          | none =>
            have unnamed : first? (p :: platforms) = first? platforms := by
              rw [first?, kept, List.find?_cons_of_neg (by simp [id]), first?]
            rw [unnamed]
            cases intel? platforms <;> cases first? platforms <;> rfl
          | some i =>
            have named : first? (p :: platforms) = some p := by
              rw [first?, kept, List.find?_cons_of_pos (by simp [id])]
            rw [named]
            cases intel? platforms with
            | none => simp only [id]; rfl
            | some q => rfl

theorem findIntelGpuDevice_eq (a : SearchAnswer) :
    c.findIntelGpuDevice a =
      match a.chosen with
      | some p => (c.select p.id p.gpu (a.nameOf p), true)
      | none => (c, false) := by
  unfold findIntelGpuDevice SearchAnswer.chosen
  by_cases failed : a.err = clSuccess
  swap
  · rw [if_pos (.inl failed), if_neg failed]
  rw [if_pos failed]
  by_cases none : a.platforms = []
  · rw [if_pos (.inr none), none]
    rfl
  rw [if_neg (by simp [failed, none]), findFrom_eq]
  cases found : intel? a.platforms with
  | some p => simp [SearchAnswer.nameOf, isIntel_of_intel? found]
  | none =>
    cases first : first? a.platforms with
    | some p => simp [SearchAnswer.nameOf, not_isIntel_of_first? found first]
    | none => rfl

end OpenCLContext

/-! ### Any sequence of calls -/

/-- It gave a context and a queue. -/
def InitializeAnswer.completes (a : InitializeAnswer) : Bool :=
  a.context.handle.isSome && a.queue.handle.isSome

/-- What the calls have come to, without the object. -/
structure Setup where
  /-- The `Initialize` that stands. -/
  current : Option InitializeAnswer := none
  /-- Those that asked a device about itself, the oldest first. -/
  asked : List InitializeAnswer := []

def Setup.apply (s : Setup) : OpenCLContext.Op → Setup
  | .initializeContext a =>
    if s.current.isSome ∨ a.search.chosen.isNone then s
    else { current := if a.completes then some a else none, asked := s.asked ++ [a] }
  | .shutdown => { s with current := none }

namespace OpenCLContext

variable {c d e : OpenCLContext} {s : Setup}

/-- What was asked of a device, and not of a platform. -/
structure SameFigures (c c' : OpenCLContext) : Prop where
  deviceName : c'.deviceName = c.deviceName
  computeUnits : c'.computeUnits = c.computeUnits
  maxWorkGroupSize : c'.maxWorkGroupSize = c.maxWorkGroupSize
  globalMemSize : c'.globalMemSize = c.globalMemSize

structure SameDevice (c c' : OpenCLContext) : Prop extends SameFigures c c' where
  platform : c'.platform = c.platform
  device : c'.device = c.device
  platformName : c'.platformName = c.platformName

theorem SameDevice.trans (h : SameDevice c d) (h' : SameDevice d e) :
    SameDevice c e where
  deviceName := h'.deviceName.trans h.deviceName
  computeUnits := h'.computeUnits.trans h.computeUnits
  maxWorkGroupSize := h'.maxWorkGroupSize.trans h.maxWorkGroupSize
  globalMemSize := h'.globalMemSize.trans h.globalMemSize
  platform := h'.platform.trans h.platform
  device := h'.device.trans h.device
  platformName := h'.platformName.trans h.platformName

theorem sameDevice_releaseQueue : SameDevice c c.releaseQueue := by
  unfold releaseQueue
  split <;> exact ⟨⟨rfl, rfl, rfl, rfl⟩, rfl, rfl, rfl⟩

theorem sameDevice_releaseContext : SameDevice c c.releaseContext := by
  unfold releaseContext
  split <;> exact ⟨⟨rfl, rfl, rfl, rfl⟩, rfl, rfl, rfl⟩

theorem initialized_releaseContext : c.releaseContext.initialized = c.initialized := by
  unfold releaseContext
  split <;> rfl

theorem sameFigures_shutdown : SameFigures c c.shutdown := by
  have same : SameDevice c c.releaseQueue.releaseContext :=
    sameDevice_releaseQueue.trans sameDevice_releaseContext
  exact ⟨same.deviceName, same.computeUnits, same.maxWorkGroupSize, same.globalMemSize⟩

/-- Once a platform is chosen its device is asked, whether the rest succeeds or not. -/
theorem initializeContext_of_chosen (idle : c.initialized = false) {a : InitializeAnswer}
    {p : PlatformAnswer} (chosen : a.search.chosen = some p) :
    SameDevice ((c.select p.id p.gpu (a.search.nameOf p)).queryDeviceInfo a.device)
        (c.initializeContext a).1 ∧
      (c.initializeContext a).1.initialized = a.completes ∧
      (c.initializeContext a).2 = a.completes := by
  have found : c.findIntelGpuDevice a.search = (c.select p.id p.gpu (a.search.nameOf p), true) := by
    rw [findIntelGpuDevice_eq, chosen]
  unfold initializeContext
  rw [if_neg (by simp [idle]), found]
  dsimp only
  set d := (c.select p.id p.gpu (a.search.nameOf p)).queryDeviceInfo a.device
  have down : d.initialized = false := idle
  have stored : SameDevice d (d.storeContext a.context) := ⟨⟨rfl, rfl, rfl, rfl⟩, rfl, rfl, rfl⟩
  have queued : SameDevice d ((d.storeContext a.context).storeQueue a.queue) :=
    ⟨⟨rfl, rfl, rfl, rfl⟩, rfl, rfl, rfl⟩
  cases context : a.context.handle with
  | none =>
    have null : (d.storeContext a.context).context = none := context
    rw [if_pos (.inr null)]
    have incomplete : a.completes = false := by simp [InitializeAnswer.completes, context]
    exact ⟨stored, down.trans incomplete.symm, incomplete.symm⟩
  | some ctx =>
    have there : (d.storeContext a.context).context = some ctx := context
    rw [if_neg (by simp [Created.err_eq context, there])]
    cases queue : a.queue.handle with
    | none =>
      have null : ((d.storeContext a.context).storeQueue a.queue).queue = none := queue
      rw [if_pos (.inr null)]
      have incomplete : a.completes = false := by simp [InitializeAnswer.completes, queue]
      refine ⟨queued.trans sameDevice_releaseContext, ?_, incomplete.symm⟩
      rw [initialized_releaseContext, incomplete]
      exact down
    | some q =>
      have present : ((d.storeContext a.context).storeQueue a.queue).queue = some q := queue
      rw [if_neg (by simp [Created.err_eq queue, present])]
      have complete : a.completes = true := by
        simp [InitializeAnswer.completes, context, queue]
      have last : SameDevice d
          { (d.storeContext a.context).storeQueue a.queue with initialized := true } :=
        ⟨⟨rfl, rfl, rfl, rfl⟩, rfl, rfl, rfl⟩
      exact ⟨last, complete.symm, complete.symm⟩

/-- The object as the calls have left it: the device in use is the chosen one, and the figures are
the last that a device gave. -/
structure Shows (s : Setup) (c : OpenCLContext) : Prop where
  initialized : c.initialized = s.current.isSome
  asks : ∀ a ∈ s.current, s.asked.getLast? = some a
  uses : ∀ a ∈ s.current, ∃ p ∈ a.search.chosen,
    c.platform = p.id ∧ c.device = p.gpu ∧ c.platformName = a.search.nameOf p
  deviceName : c.deviceName =
    (s.asked.getLast?.map fun a => queryDeviceString a.device.name).getD []
  computeUnits : c.computeUnits = (s.asked.filterMap (·.device.computeUnits)).getLast?.getD 0
  maxWorkGroupSize : c.maxWorkGroupSize =
    (s.asked.filterMap (·.device.maxWorkGroupSize)).getLast?.getD 0
  globalMemSize : c.globalMemSize = (s.asked.filterMap (·.device.globalMemSize)).getLast?.getD 0

theorem Shows.shutdown (h : Shows s c) : Shows (s.apply .shutdown) c.shutdown := by
  have same : SameFigures c c.shutdown := sameFigures_shutdown
  exact ⟨rfl, nofun, nofun, same.deviceName.trans h.deviceName,
    same.computeUnits.trans h.computeUnits, same.maxWorkGroupSize.trans h.maxWorkGroupSize,
    same.globalMemSize.trans h.globalMemSize⟩

theorem Shows.initializeContext (h : Shows s c) (a : InitializeAnswer) :
    Shows (s.apply (.initializeContext a)) (c.initializeContext a).1 ∧
      (c.initializeContext a).2 = (s.apply (.initializeContext a)).current.isSome := by
  cases idle : c.initialized with
  | true =>
    have stands : s.current.isSome = true := h.initialized.symm.trans idle
    rw [OpenCLContext.initializeContext, if_pos idle, Setup.apply, if_pos (.inl stands)]
    exact ⟨h, stands.symm⟩
  | false =>
    have nothing : s.current.isSome = false := h.initialized.symm.trans idle
    cases chosen : a.search.chosen with
    | none =>
      have missed : c.findIntelGpuDevice a.search = (c, false) := by
        rw [findIntelGpuDevice_eq, chosen]
      rw [OpenCLContext.initializeContext, if_neg (by simp [idle]), missed, Setup.apply,
        if_pos (.inr (by simp [chosen]))]
      exact ⟨h, nothing.symm⟩
    | some p =>
      obtain ⟨same, initialized, result⟩ := initializeContext_of_chosen idle chosen
      rw [Setup.apply, if_neg (by simp [nothing, chosen])]
      have current : (if a.completes then some a else none).isSome = a.completes := by
        cases a.completes <;> rfl
      refine ⟨⟨initialized.trans current.symm, ?_, ?_, ?_, ?_, ?_, ?_⟩, result.trans current.symm⟩
      · intro b hb
        rw [Option.mem_def, Option.ite_none_right_eq_some] at hb
        rw [List.getLast?_concat, hb.2]
      · intro b hb
        rw [Option.mem_def, Option.ite_none_right_eq_some] at hb
        obtain ⟨-, ⟨⟩⟩ := hb
        exact ⟨p, chosen, same.platform, same.device, same.platformName⟩
      · rw [same.deviceName, List.getLast?_concat]
        rfl
      · rw [same.computeUnits, Records.getD_getLast?_concat, ← h.computeUnits]
        rfl
      · rw [same.maxWorkGroupSize, Records.getD_getLast?_concat, ← h.maxWorkGroupSize]
        rfl
      · rw [same.globalMemSize, Records.getD_getLast?_concat, ← h.globalMemSize]
        rfl

/-- After any calls, whatever OpenCL answers, and of the call made next. -/
theorem run_shows (ops : List Op) : Shows (ops.foldl Setup.apply {}) (run ops) ∧
    ∀ a, ((run ops).initializeContext a).2 =
      ((ops ++ [Op.initializeContext a]).foldl Setup.apply {}).current.isSome := by
  have shows : Shows (ops.foldl Setup.apply {}) (run ops) := by
    induction ops using List.reverseRecOn with
    | nil => exact ⟨rfl, nofun, nofun, rfl, rfl, rfl, rfl⟩
    | append_singleton ops op ih =>
      rw [run, List.foldl_concat, List.foldl_concat]
      cases op with
      | initializeContext a => exact (ih.initializeContext a).1
      | shutdown => exact ih.shutdown
  refine ⟨shows, fun a => ?_⟩
  rw [List.foldl_concat]
  exact (shows.initializeContext a).2

end OpenCLContext

end SmoothDemon
