import SmoothDemon.Library.Records
import SmoothDemon.Monitor.GpuProcess

/-!
# The GPU totals of a process

What `GpuMonitor::sample_process_gpu` (src/gpu.cpp) makes of the fdinfo files.  A file of a matching
driver that carries a client id reports its times for that client; the totals count the largest
report of each client once.  So they, and what the call returns and stores, depend on the set of the
reports alone (`sampleProcessGpu_reports`).
-/

namespace SmoothDemon

open Text

/-! ### What a file reports -/

/-- The number a line gives behind a key. -/
def valueAt (key line : List Char) : Option UInt64 :=
  if key <+: line then scanU64 (line.drop key.length) else none

/-- The last such number. -/
def lastValue (key content : List Char) : Option UInt64 :=
  ((lines content).filterMap (valueAt key)).getLast?

def driverKey : List Char := "drm-driver:".toList

def clientKey : List Char := "drm-client-id:".toList

def Engine.key : Engine → List Char
  | .render => "drm-engine-render:".toList
  | .copy => "drm-engine-copy:".toList

/-- A line that names one of the two drivers. -/
def NamesDriver (line : List Char) : Prop :=
  driverKey <+: line ∧ ("i915".toList <:+: line ∨ "xe".toList <:+: line)

instance (line : List Char) : Decidable (NamesDriver line) :=
  inferInstanceAs (Decidable (_ ∧ (_ ∨ _)))

/-- The client a file is about and its times, where the file can be read, names one of the drivers
and carries a client id. -/
def reported (file : List Char × Option (List Char)) : Option (UInt64 × ClientEntry) :=
  if startsWithDigit file.1 then
    file.2.bind fun content =>
      if ∃ line ∈ lines content, NamesDriver line then
        (lastValue clientKey content).map fun client =>
          (client, { renderNs := (lastValue (Engine.key .render) content).getD 0
                     copyNs := (lastValue (Engine.key .copy) content).getD 0 })
      else none
  else none

def reports (files : List (List Char × Option (List Char))) : List (UInt64 × ClientEntry) :=
  files.filterMap reported

/-! ### The loop over the lines -/

theorem isSome_lastValue {key content : List Char} :
    (lastValue key content).isSome ↔ ∃ line ∈ lines content, (valueAt key line).isSome := by
  rw [lastValue, List.getLast?_isSome, Ne, List.filterMap_eq_nil_iff, not_forall₂]
  simp [Option.isSome_iff_ne_none]

theorem valueAt_of_start {key line : List Char} (start : key <+: line) :
    valueAt key line = scanU64 (line.drop key.length) := if_pos start

theorem valueAt_of_not_start {key line : List Char} (other : ¬ key <+: line) :
    valueAt key line = none := if_neg other

namespace FdInfo

/-- Each line sets the one field its key stands for. -/
theorem readLine_eq (r : FdInfo) (line : List Char) :
    r.readLine line =
      { clientId := (valueAt clientKey line).getD r.clientId
        renderNs := (valueAt (Engine.key .render) line).getD r.renderNs
        copyNs := (valueAt (Engine.key .copy) line).getD r.copyNs
        hasClient := r.hasClient || (valueAt clientKey line).isSome
        isI915 := r.isI915 || decide (NamesDriver line) } := by
  by_cases driver : driverKey <+: line
  · have client : ¬ clientKey <+: line := not_start_of_start driver (by decide)
    have render : ¬ Engine.key .render <+: line := not_start_of_start driver (by decide)
    have copy : ¬ Engine.key .copy <+: line := not_start_of_start driver (by decide)
    rw [valueAt_of_not_start client, valueAt_of_not_start render, valueAt_of_not_start copy]
    by_cases named : NamesDriver line
    · have eq : r.readLine line = { r with isI915 := true } :=
        (if_pos driver).trans (if_pos named.2)
      simp [eq, named]
    · have eq : r.readLine line = r :=
        (if_pos driver).trans (if_neg fun driver' => named ⟨driver, driver'⟩)
      simp [eq, named]
  have unnamed : ¬ NamesDriver line := fun named => driver named.1
  by_cases client : clientKey <+: line
  · have render : ¬ Engine.key .render <+: line := not_start_of_start client (by decide)
    have copy : ¬ Engine.key .copy <+: line := not_start_of_start client (by decide)
    rw [valueAt_of_start client, valueAt_of_not_start render, valueAt_of_not_start copy]
    refine (if_neg driver).trans ((if_pos client).trans ?_)
    split
    · rename_i id found
      have value : scanU64 (line.drop clientKey.length) = some id := found
      simp [value, unnamed]
    · rename_i missing
      have value : scanU64 (line.drop clientKey.length) = none := missing
      simp [value, unnamed]
  rw [valueAt_of_not_start client]
  by_cases render : Engine.key .render <+: line
  · have copy : ¬ Engine.key .copy <+: line := not_start_of_start render (by decide)
    have eq : r.readLine line =
        { r with renderNs := (scanU64 (line.drop (Engine.key .render).length)).getD r.renderNs } :=
      (if_neg driver).trans ((if_neg client).trans (if_pos render))
    simp [eq, valueAt_of_start render, valueAt_of_not_start copy, unnamed]
  rw [valueAt_of_not_start render]
  by_cases copy : Engine.key .copy <+: line
  · have eq : r.readLine line =
        { r with copyNs := (scanU64 (line.drop (Engine.key .copy).length)).getD r.copyNs } :=
      (if_neg driver).trans ((if_neg client).trans ((if_neg render).trans (if_pos copy)))
    simp [eq, valueAt_of_start copy, unnamed]
  · have eq : r.readLine line = r :=
      (if_neg driver).trans ((if_neg client).trans ((if_neg render).trans (if_neg copy)))
    simp [eq, valueAt_of_not_start copy, unnamed]

/-- What the loop gathers. -/
theorem read_eq (content : List Char) :
    read content =
      { clientId := (lastValue clientKey content).getD 0
        renderNs := (lastValue (Engine.key .render) content).getD 0
        copyNs := (lastValue (Engine.key .copy) content).getD 0
        hasClient := (lastValue clientKey content).isSome
        isI915 := decide (∃ line ∈ lines content, NamesDriver line) } := by
  have clientId : (read content).clientId = (lastValue clientKey content).getD 0 :=
    Records.foldl_last (fun r line => congrArg FdInfo.clientId (readLine_eq r line)) {} _
  have renderNs : (read content).renderNs = (lastValue (Engine.key .render) content).getD 0 :=
    Records.foldl_last (fun r line => congrArg FdInfo.renderNs (readLine_eq r line)) {} _
  have copyNs : (read content).copyNs = (lastValue (Engine.key .copy) content).getD 0 :=
    Records.foldl_last (fun r line => congrArg FdInfo.copyNs (readLine_eq r line)) {} _
  have hasClient : (read content).hasClient = (lastValue clientKey content).isSome := by
    have step (r : FdInfo) (line : List Char) :
        (r.readLine line).hasClient ↔ r.hasClient ∨ (valueAt clientKey line).isSome := by
      rw [readLine_eq, Bool.or_eq_true]
    rw [Bool.eq_iff_iff, isSome_lastValue, read, Records.foldl_raised step]
    exact or_iff_right Bool.false_ne_true
  have isI915 : (read content).isI915 = decide (∃ line ∈ lines content, NamesDriver line) := by
    have step (r : FdInfo) (line : List Char) :
        (r.readLine line).isI915 ↔ r.isI915 ∨ NamesDriver line := by
      rw [readLine_eq, Bool.or_eq_true, decide_eq_true_iff]
    rw [Bool.eq_iff_iff, decide_eq_true_iff, read, Records.foldl_raised step]
    exact or_iff_right Bool.false_ne_true
  rw [← clientId, ← renderNs, ← copyNs, ← hasClient, ← isI915]

end FdInfo

/-! ### The totals -/

/-- The larger of two times, for each engine. -/
def ClientEntry.raise (times slot : ClientEntry) : ClientEntry where
  renderNs := if slot.renderNs < times.renderNs then times.renderNs else slot.renderNs
  copyNs := if slot.copyNs < times.copyNs then times.copyNs else slot.copyNs

theorem timeNs_raise (e : Engine) (times slot : ClientEntry) :
    ((times.raise slot).timeNs e).toNat = max (slot.timeNs e).toNat (times.timeNs e).toNat := by
  have larger (a b : UInt64) : (if a < b then b else a).toNat = max a.toNat b.toNat := by
    split_ifs with less
    · exact (max_eq_right (UInt64.lt_iff_toNat_lt.1 less).le).symm
    · exact (max_eq_left (not_lt.1 (mt UInt64.lt_iff_toNat_lt.2 less))).symm
  cases e with
  | render => exact larger _ _
  | copy => exact larger _ _

theorem enterFile_eq (clients : List (UInt64 × ClientEntry))
    (file : List Char × Option (List Char)) :
    enterFile clients file =
      match reported file with
      | none => clients
      | some r => Keys.modify r.1 {} r.2.raise clients := by
  obtain ⟨name, text⟩ := file
  unfold enterFile reported
  split_ifs with digit
  · cases text with
    | none => rfl
    | some content =>
      simp only [FdInfo.enter, FdInfo.read_eq, Option.bind_some]
      by_cases named : ∃ line ∈ lines content, NamesDriver line
      · cases client : lastValue clientKey content with
        | none => simp [named]
        | some id =>
          simp [named]
          rfl
      · simp [named]
  · rfl

theorem clientsOf_eq (files : List (List Char × Option (List Char))) :
    clientsOf files = Keys.collect Prod.fst {} (fun r => r.2.raise) (reports files) := by
  rw [clientsOf, Keys.collect, reports, List.foldl_filterMap]
  congr 1
  funext clients file
  rw [enterFile_eq]
  split <;> simp_all

/-- The largest report of each client, added over the clients there are. -/
def reportedNs (e : Engine) (files : List (List Char × Option (List Char))) : ℕ :=
  ∑ client ∈ ((reports files).map Prod.fst).toFinset,
    Keys.largest Prod.fst (fun r => (r.2.timeNs e).toNat) (reports files) client

theorem timeSum_clientsOf (e : Engine) (files : List (List Char × Option (List Char))) :
    GpuCall.timeSum e (clientsOf files) = reportedNs e files := by
  have raise (r : UInt64 × ClientEntry) (slot : ClientEntry) := timeNs_raise e r.2 slot
  have start : (ClientEntry.timeNs {} e).toNat = 0 := by
    cases e <;> rfl
  rw [clientsOf_eq]
  exact Keys.sum_collect (w := fun c : ClientEntry => (c.timeNs e).toNat) start raise _

theorem reportedNs_congr {files files' : List (List Char × Option (List Char))}
    (same : ∀ r, r ∈ reports files ↔ r ∈ reports files') (e : Engine) :
    reportedNs e files = reportedNs e files' := by
  have set : (reports files).toFinset = (reports files').toFinset := by
    ext r
    rw [List.mem_toFinset, List.mem_toFinset, same]
  have clients :
      ((reports files).map Prod.fst).toFinset = ((reports files').map Prod.fst).toFinset := by
    ext client
    simp [same]
  simp only [reportedNs, Keys.largest, set, clients]

/-- What is left of `sample_process_gpu` behind the scan, over the clients in the order in which the
map has them. -/
def sampleClients (states : ProcessStates) (pid now : ℤ) (clients : List (UInt64 × ClientEntry)) :
    ProcessStates × Bool × GpuShare :=
  if clients.isEmpty then (states, false, {})
  else
    let (state, share) := (states pid).update clients now
    (Function.update states pid state, true, share)

theorem sampleProcessGpu_eq (states : ProcessStates) (pid now : ℤ)
    (files : List (List Char × Option (List Char))) :
    sampleProcessGpu states { pid, now, fdinfo := some files } =
      sampleClients states pid now (clientsOf files) := rfl

/-- The rest of the function looks at the totals, and whether there are clients. -/
theorem sampleClients_congr {clients clients' : List (UInt64 × ClientEntry)}
    (none : clients = [] ↔ clients' = []) (total : ∀ e, totalNs e clients = totalNs e clients')
    (states : ProcessStates) (pid now : ℤ) :
    sampleClients states pid now clients = sampleClients states pid now clients' := by
  have empty : clients.isEmpty = clients'.isEmpty := by
    rw [Bool.eq_iff_iff, List.isEmpty_iff, List.isEmpty_iff, none]
  simp only [sampleClients, ProcessGpuState.update, ProcessGpuState.store, total, empty]

/-- Files with the same reports, scanned in any order and with any of them repeated, and their
clients in any order, come to the same totals: the largest report of each client, added in 64 bits.
The call returns and stores the same. -/
theorem sampleProcessGpu_reports {files files' : List (List Char × Option (List Char))}
    (same : ∀ r, r ∈ reports files ↔ r ∈ reports files') {clients : List (UInt64 × ClientEntry)}
    (order : clients.Perm (clientsOf files')) :
    (∀ e, (totalNs e clients).toNat = reportedNs e files % 2 ^ 64) ∧
      ∀ states pid now, sampleClients states pid now clients =
        sampleProcessGpu states { pid, now, fdinfo := some files } := by
  have total (e : Engine) : (totalNs e clients).toNat = reportedNs e files % 2 ^ 64 := by
    have perm : GpuCall.timeSum e clients = GpuCall.timeSum e (clientsOf files') := by
      unfold GpuCall.timeSum
      exact (order.map _).sum_eq
    rw [GpuCall.toNat_totalNs_eq_mod, perm, timeSum_clientsOf, reportedNs_congr same]
  refine ⟨total, fun states pid now => ?_⟩
  rw [sampleProcessGpu_eq]
  refine sampleClients_congr ?_ (fun e => UInt64.toNat_inj.1 ?_) states pid now
  · have empty : reports files' = [] ↔ reports files = [] := by
      simp only [List.eq_nil_iff_forall_not_mem, same]
    rw [← List.isEmpty_iff, order.isEmpty_eq, List.isEmpty_iff, clientsOf_eq, clientsOf_eq,
      Keys.collect_eq_nil_iff, Keys.collect_eq_nil_iff, empty]
  · rw [total, GpuCall.toNat_totalNs_eq_mod, timeSum_clientsOf]

section Example

/-- The files of two clients, one of them with two fds. -/
def clientFiles : List (List Char × Option (List Char)) :=
  (GpuCall.oneClient 0 "1" "7").fdinfo.getD [] ++ (GpuCall.oneClient 0 "2" "5").fdinfo.getD []

theorem sampleProcessGpu_clientFiles :
    (∀ e, (totalNs e (clientsOf clientFiles.reverse).reverse).toNat =
      reportedNs e clientFiles % 2 ^ 64) ∧
    ∀ states pid now, sampleClients states pid now (clientsOf clientFiles.reverse).reverse =
      sampleProcessGpu states { pid, now, fdinfo := some clientFiles } := by
  refine sampleProcessGpu_reports (fun r => ?_) (List.reverse_perm _)
  unfold reports
  rw [List.filterMap_reverse, List.mem_reverse]

example : reportedNs .render (clientFiles ++ clientFiles) = 12 * 10 ^ 9 := by decide +kernel

end Example

end SmoothDemon
