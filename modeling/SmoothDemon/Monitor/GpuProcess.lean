import Mathlib.Algebra.Order.Field.Rat
import Mathlib.Tactic.FieldSimp
import Mathlib.Tactic.Linarith
import Mathlib.Tactic.Positivity
import SmoothDemon.Monitor.Procfs

/-!
# GPU time of a process

`GpuMonitor::sample_process_gpu` (src/gpu.cpp).  The monitor merges the fdinfo files of a process by
client and keeps, for each pid, only the sum over the clients.  So the share it reports is bounded
by the work of the clients it still sees iff that sum did not fall since the baseline, or the work
filled the whole time anyway (`GpuCall.pct_le_work_iff`).
-/

namespace SmoothDemon

open Text

inductive Engine where
  | render
  | copy
  deriving DecidableEq

structure ClientEntry where
  renderNs : UInt64 := 0
  copyNs : UInt64 := 0
  deriving DecidableEq

def ClientEntry.timeNs (c : ClientEntry) : Engine → UInt64
  | .render => c.renderNs
  | .copy => c.copyNs

/-! ### The fdinfo files -/

/-- What the loop over the lines of a file gathers. -/
structure FdInfo where
  clientId : UInt64 := 0
  renderNs : UInt64 := 0
  copyNs : UInt64 := 0
  hasClient : Bool := false
  isI915 : Bool := false

namespace FdInfo

def readLine (r : FdInfo) (line : List Char) : FdInfo :=
  let driverKey := "drm-driver:".toList
  let clientKey := "drm-client-id:".toList
  let renderKey := "drm-engine-render:".toList
  let copyKey := "drm-engine-copy:".toList
  if driverKey <+: line then
    if "i915".toList <:+: line ∨ "xe".toList <:+: line then { r with isI915 := true } else r
  else if clientKey <+: line then
    match scanU64 (line.drop clientKey.length) with
    | some clientId => { r with clientId, hasClient := true }
    | none => r
  else if renderKey <+: line then
    { r with renderNs := (scanU64 (line.drop renderKey.length)).getD r.renderNs }
  else if copyKey <+: line then
    { r with copyNs := (scanU64 (line.drop copyKey.length)).getD r.copyNs }
  else r

def read (content : List Char) : FdInfo := (lines content).foldl readLine {}

/-- The largest times seen so far. -/
def raise (r : FdInfo) (slot : ClientEntry) : ClientEntry where
  renderNs := if slot.renderNs < r.renderNs then r.renderNs else slot.renderNs
  copyNs := if slot.copyNs < r.copyNs then r.copyNs else slot.copyNs

/-- Files without a driver or a client are passed over. -/
def enter (r : FdInfo) (clients : List (UInt64 × ClientEntry)) : List (UInt64 × ClientEntry) :=
  if !r.isI915 || !r.hasClient then clients else Keys.modify r.clientId {} r.raise clients

end FdInfo

/-- One entry of the directory: its name, and what the file reads if it can be opened. -/
def enterFile (clients : List (UInt64 × ClientEntry)) (file : List Char × Option (List Char)) :
    List (UInt64 × ClientEntry) :=
  if startsWithDigit file.1 then
    match file.2 with
    | none => clients
    | some content => (FdInfo.read content).enter clients
  else clients

def clientsOf (files : List (List Char × Option (List Char))) : List (UInt64 × ClientEntry) :=
  files.foldl enterFile []

def totalNs (e : Engine) (clients : List (UInt64 × ClientEntry)) : UInt64 :=
  (clients.map fun c => c.2.timeNs e).sum

/-! ### Sampling -/

structure ProcessGpuState where
  prevRenderNs : UInt64 := 0
  prevCopyNs : UInt64 := 0
  prevTime : ℤ := 0
  firstSample : Bool := true

def ProcessGpuState.prevNs (state : ProcessGpuState) : Engine → UInt64
  | .render => state.prevRenderNs
  | .copy => state.prevCopyNs

/-- `out_render_pct` and `out_copy_pct`. -/
structure GpuShare where
  renderPct : ℚ := 0
  copyPct : ℚ := 0
  deriving DecidableEq

def GpuShare.pct (share : GpuShare) : Engine → ℚ
  | .render => share.renderPct
  | .copy => share.copyPct

def clamp (v lo hi : ℚ) : ℚ := if v < lo then lo else if hi < v then hi else v

def enginePct (d : UInt64) (dt : ℚ) : ℚ := clamp (d.toNat / 10 ^ 9 / dt * 100) 0 100

namespace ProcessGpuState

def store (clients : List (UInt64 × ClientEntry)) (now : ℤ) : ProcessGpuState where
  prevRenderNs := totalNs .render clients
  prevCopyNs := totalNs .copy clients
  prevTime := now
  firstSample := false

/-- Seconds since the baseline. -/
def elapsed (state : ProcessGpuState) (now : ℤ) : ℚ := (now - state.prevTime : ℤ) / 10 ^ 9

def update (state : ProcessGpuState) (clients : List (UInt64 × ClientEntry)) (now : ℤ) :
    ProcessGpuState × GpuShare :=
  if state.firstSample then (store clients now, {})
  else if 1 / 1000 < state.elapsed now then
    (store clients now,
      { renderPct := enginePct (totalNs .render clients - state.prevRenderNs) (state.elapsed now)
        copyPct := enginePct (totalNs .copy clients - state.prevCopyNs) (state.elapsed now) })
  else (state, {})

end ProcessGpuState

/-- A call for a pid, at a time, with the entries of its fdinfo directory if that can be opened. -/
structure GpuCall where
  pid : ℤ
  now : ℤ
  fdinfo : Option (List (List Char × Option (List Char)))

/-- `process_states_`; a pid without an entry has a default one. -/
abbrev ProcessStates := ℤ → ProcessGpuState

def sampleProcessGpu (states : ProcessStates) (call : GpuCall) : ProcessStates × Bool × GpuShare :=
  match call.fdinfo with
  | none => (states, false, {})
  | some files =>
    let clients := clientsOf files
    if clients.isEmpty then (states, false, {})
    else
      let (state, share) := (states call.pid).update clients call.now
      (Function.update states call.pid state, true, share)

namespace GpuCall

def run (calls : List GpuCall) : ProcessStates :=
  calls.foldl (fun states call => (sampleProcessGpu states call).1) fun _ => {}

/-- The clients a call sees. -/
def clients (call : GpuCall) : List (UInt64 × ClientEntry) := (call.fdinfo.map clientsOf).getD []

/-! ### Work and what is reported of it -/

/-- The times of the clients, added without wrapping. -/
def timeSum (e : Engine) (clients : List (UInt64 × ClientEntry)) : ℕ :=
  (clients.map fun c => (c.2.timeNs e).toNat).sum

/-- How much the clients of `after` that are in `before` have grown, and the times of those that are
new.  A client whose time went back has not worked. -/
def growth (e : Engine) (before after : List (UInt64 × ClientEntry)) : ℕ :=
  (after.map fun c => (c.2.timeNs e).toNat -
    ((Keys.get before c.1).map fun b => (b.timeNs e).toNat).getD 0).sum

/-- A first sample or one that comes more than 1 ms after the baseline. -/
def Rebases (state : ProcessGpuState) (now : ℤ) : Prop :=
  state.firstSample ∨ 1 / 1000 < state.elapsed now

instance (state : ProcessGpuState) (now : ℤ) : Decidable (Rebases state now) :=
  inferInstanceAs (Decidable (_ ∨ _))

/-- The work between two calls fills the time between them; or, where the first call set the
baseline, the sum over the clients has not fallen; or, where an older baseline stayed, the
difference to it is in proportion to the time since it. -/
def Covered (e : Engine) (state : ProcessGpuState) (first second : GpuCall) : Prop :=
  let work := growth e first.clients second.clients
  let prev := (state.prevNs e).toNat
  let total := timeSum e second.clients
  second.now - first.now ≤ work ∨
    if Rebases state first.now then timeSum e first.clients ≤ total
    else (if prev ≤ total then total - prev else total + 2 ^ 64 - prev) * (second.now - first.now) ≤
      work * (second.now - state.prevTime)

instance (e : Engine) (state : ProcessGpuState) (first second : GpuCall) :
    Decidable (Covered e state first second) :=
  inferInstanceAs (Decidable (_ ∨ ite _ _ _))

/-! ### The clients -/

theorem nodup_clientsOf (files : List (List Char × Option (List Char))) :
    ((clientsOf files).map Prod.fst).Nodup := by
  have kept (clients : List (UInt64 × ClientEntry)) (h : (clients.map Prod.fst).Nodup)
      (file : List Char × Option (List Char)) : ((enterFile clients file).map Prod.fst).Nodup := by
    unfold enterFile FdInfo.enter
    split
    · split
      · exact h
      · split
        · exact h
        · exact Keys.nodup_modify h
    · exact h
  exact List.foldlRecOn files enterFile .nil fun clients h file _ => kept clients h file

theorem nodup_clients (call : GpuCall) : (call.clients.map Prod.fst).Nodup := by
  unfold clients
  cases call.fdinfo with
  | none => exact .nil
  | some files => exact nodup_clientsOf files

variable {e : Engine} {before after : List (UInt64 × ClientEntry)}

theorem toNat_totalNs_eq_mod : (totalNs e after).toNat = timeSum e after % 2 ^ 64 := by
  unfold totalNs timeSum
  induction after with
  | nil => rfl
  | cons c after ih =>
    rw [List.map_cons, List.sum_cons, UInt64.toNat_add, ih, List.map_cons, List.sum_cons,
      Nat.add_mod_mod]

theorem toNat_totalNs (fits : timeSum e after < 2 ^ 64) :
    (totalNs e after).toNat = timeSum e after := by
  rw [toNat_totalNs_eq_mod, Nat.mod_eq_of_lt fits]

theorem growth_le : growth e before after ≤ timeSum e after :=
  List.sum_le_sum fun _ _ => Nat.sub_le _ _

/-- What the clients of `after` have on the clock, they had before or have worked since. -/
theorem timeSum_le (distinct : (before.map Prod.fst).Nodup)
    (distinct' : (after.map Prod.fst).Nodup) :
    timeSum e after ≤ timeSum e before + growth e before after := by
  have had := Keys.sum_get_le distinct' distinct fun b => (b.timeNs e).toNat
  rw [List.map_map] at had
  calc timeSum e after
      ≤ (after.map fun c => ((Keys.get before c.1).map fun b => (b.timeNs e).toNat).getD 0 +
          ((c.2.timeNs e).toNat -
            ((Keys.get before c.1).map fun b => (b.timeNs e).toNat).getD 0)).sum :=
        List.sum_le_sum fun _ _ => Nat.sub_le_iff_le_add'.1 le_rfl
    _ ≤ timeSum e before + growth e before after := by
        rw [List.sum_map_add]
        exact Nat.add_le_add_right had _

/-! ### The share -/

theorem toNat_sub_eq (a b : UInt64) : (a - b).toNat =
    if b.toNat ≤ a.toNat then a.toNat - b.toNat else a.toNat + 2 ^ 64 - b.toNat := by
  have ha := a.toNat_lt
  have hb := b.toNat_lt
  rw [UInt64.toNat_sub]
  split_ifs <;> omega

/-- A share of the time `since` the baseline against the work in the time `apart`. -/
theorem enginePct_le_iff {since apart : ℤ} (hs : 0 < since) (ha : 0 < apart) (d : UInt64)
    (work : ℕ) :
    enginePct d (since / 10 ^ 9) ≤ 100 * (work / 10 ^ 9) / (apart / 10 ^ 9) ↔
      apart ≤ work ∨ d.toNat * apart ≤ work * since := by
  have since_pos : (0 : ℚ) < since := Int.cast_pos.2 hs
  have apart_pos : (0 : ℚ) < apart := Int.cast_pos.2 ha
  have share : (d.toNat / 10 ^ 9 / (since / 10 ^ 9) * 100 : ℚ) = 100 * d.toNat / since := by
    field_simp
  have bound : (100 * (work / 10 ^ 9) / (apart / 10 ^ 9) : ℚ) = 100 * work / apart := by
    field_simp
  have clamped : enginePct d (since / 10 ^ 9) = min (100 * d.toNat / since : ℚ) 100 := by
    have positive : ¬ (100 * d.toNat / since : ℚ) < 0 := not_lt.2 (by positivity)
    rw [enginePct, share, clamp, if_neg positive]
    split_ifs with above
    · exact (min_eq_right above.le).symm
    · exact (min_eq_left (not_lt.1 above)).symm
  rw [clamped, bound, min_le_iff, or_comm, le_div_iff₀ apart_pos,
    div_le_div_iff₀ since_pos apart_pos]
  refine or_congr ?_ ?_
  · rw [mul_le_mul_iff_right₀ (by norm_num)]
    exact_mod_cast Iff.rfl
  · rw [mul_assoc, mul_assoc, mul_le_mul_iff_right₀ (by norm_num)]
    exact_mod_cast Iff.rfl

/-! ### The states -/

theorem sample_of_clients {call : GpuCall} (h : call.clients ≠ []) (states : ProcessStates) :
    sampleProcessGpu states call =
      (Function.update states call.pid ((states call.pid).update call.clients call.now).1, true,
        ((states call.pid).update call.clients call.now).2) := by
  obtain ⟨pid, now, fdinfo⟩ := call
  cases fdinfo with
  | none => exact absurd rfl h
  | some files => exact if_neg (mt List.isEmpty_iff.1 h)

theorem sample_own {call : GpuCall} (h : call.clients ≠ []) (states : ProcessStates) :
    (sampleProcessGpu states call).1 call.pid =
      ((states call.pid).update call.clients call.now).1 := by
  rw [sample_of_clients h]
  exact Function.update_self ..

theorem sample_of_no_clients {call : GpuCall} (h : call.clients = []) (states : ProcessStates) :
    sampleProcessGpu states call = (states, false, {}) := by
  obtain ⟨pid, now, fdinfo⟩ := call
  cases fdinfo with
  | none => rfl
  | some files => exact if_pos (List.isEmpty_iff.2 h)

/-- Only a call for the pid that sees clients touches its state. -/
theorem sample_other {call : GpuCall} {pid : ℤ} (h : call.pid = pid → call.clients = [])
    (states : ProcessStates) : (sampleProcessGpu states call).1 pid = states pid := by
  by_cases none : call.clients = []
  · rw [sample_of_no_clients none]
  · rw [sample_of_clients none]
    exact Function.update_of_ne (fun same => none (h same.symm)) _ _

theorem update_of_rebases {state : ProcessGpuState} {now : ℤ} (h : Rebases state now)
    (clients : List (UInt64 × ClientEntry)) :
    (state.update clients now).1 = .store clients now := by
  unfold ProcessGpuState.update
  split_ifs with first late
  · rfl
  · rfl
  · exact absurd h (not_or.2 ⟨first, late⟩)

theorem update_of_not_rebases {state : ProcessGpuState} {now : ℤ} (h : ¬ Rebases state now)
    (clients : List (UInt64 × ClientEntry)) : (state.update clients now).1 = state := by
  rw [Rebases, not_or] at h
  rw [ProcessGpuState.update, if_neg h.1, if_neg h.2]

theorem pct_update {state : ProcessGpuState} {now : ℤ} (measured : state.firstSample = false)
    (late : 1 / 1000 < state.elapsed now) (clients : List (UInt64 × ClientEntry)) (e : Engine) :
    (state.update clients now).2.pct e =
      enginePct (totalNs e clients - state.prevNs e) (state.elapsed now) := by
  rw [ProcessGpuState.update, if_neg (Bool.eq_false_iff.1 measured), if_pos late]
  cases e <;> rfl

theorem run_concat (calls : List GpuCall) (call : GpuCall) :
    run (calls ++ [call]) = (sampleProcessGpu (run calls) call).1 :=
  List.foldl_concat ..

theorem run_append_of_fails {pid : ℤ} {calls others : List GpuCall}
    (h : ∀ c ∈ others, c.pid = pid → c.clients = []) :
    run (calls ++ others) pid = run calls pid := by
  induction others using List.reverseRecOn with
  | nil => rw [List.append_nil]
  | append_singleton others call ih =>
    rw [List.forall_mem_append, List.forall_mem_singleton] at h
    rw [← List.append_assoc, run_concat, sample_other h.2, ih h.1]

/-- Once there is a baseline, it is what one of the calls saw. -/
theorem run_measured {pid : ℤ} {calls : List GpuCall} (h : (run calls pid).firstSample = false) :
    ∃ c ∈ calls, run calls pid = .store c.clients c.now := by
  induction calls using List.reverseRecOn with
  | nil => cases h
  | append_singleton calls call ih =>
    rw [run_concat] at h ⊢
    have earlier (same : (sampleProcessGpu (run calls) call).1 pid = run calls pid) :
        ∃ c ∈ calls ++ [call],
          (sampleProcessGpu (run calls) call).1 pid = .store c.clients c.now := by
      obtain ⟨c, hc, baseline⟩ := ih (same ▸ h)
      exact ⟨c, List.mem_append_left _ hc, same.trans baseline⟩
    by_cases touches : call.pid = pid → call.clients = []
    · exact earlier (sample_other touches _)
    · rw [Classical.not_imp] at touches
      obtain ⟨rfl, some⟩ := touches
      by_cases rebases : Rebases (run calls call.pid) call.now
      · rw [sample_own some, update_of_rebases rebases]
        exact ⟨call, List.mem_append_right _ (List.mem_singleton_self call), rfl⟩
      · exact earlier ((sample_own some _).trans (update_of_not_rebases rebases _))

/-- The state a call leaves that sees clients. -/
theorem run_success {calls : List GpuCall} {call : GpuCall} (h : call.clients ≠ []) :
    run (calls ++ [call]) call.pid =
      if Rebases (run calls call.pid) call.now then .store call.clients call.now
      else run calls call.pid := by
  rw [run_concat, sample_own h]
  split_ifs with rebases
  · exact update_of_rebases rebases _
  · exact update_of_not_rebases rebases _

/-- What a call reports against an older baseline. -/
theorem pct_le_iff {e : Engine} {state : ProcessGpuState} {first second : GpuCall} {work : ℕ}
    (measured : state.firstSample = false) (older : state.prevTime ≤ first.now)
    (apart : first.now + 10 ^ 6 < second.now) (fits : timeSum e second.clients < 2 ^ 64) :
    (state.update second.clients second.now).2.pct e ≤
        100 * (work / 10 ^ 9) / ((second.now - first.now : ℤ) / 10 ^ 9) ↔
      second.now - first.now ≤ work ∨
        (if (state.prevNs e).toNat ≤ timeSum e second.clients then
            timeSum e second.clients - (state.prevNs e).toNat
          else timeSum e second.clients + 2 ^ 64 - (state.prevNs e).toNat) *
            (second.now - first.now) ≤ work * (second.now - state.prevTime) := by
  have late : 1 / 1000 < state.elapsed second.now := by
    have ns : ((10 ^ 6 : ℤ) : ℚ) < (second.now - state.prevTime : ℤ) := Int.cast_lt.2 (by linarith)
    rw [ProcessGpuState.elapsed, lt_div_iff₀ (by norm_num)]
    norm_num at ns ⊢
    linarith
  rw [pct_update measured late, ProcessGpuState.elapsed,
    enginePct_le_iff (by linarith) (by linarith), toNat_sub_eq, toNat_totalNs fits]

section Share

variable {before between : List GpuCall} {first second : GpuCall}

/-- The state the second of two calls for a pid finds, without another such call in between. -/
theorem run_between (sees : first.clients ≠ [])
    (consecutive : ∀ c ∈ between, c.pid = first.pid → c.clients = []) :
    run (before ++ first :: between) first.pid =
      if Rebases (run before first.pid) first.now then .store first.clients first.now
      else run before first.pid := by
  have split : before ++ first :: between = before ++ [first] ++ between := by simp
  rw [split, run_append_of_fails consecutive, run_success sees]

/-- Where the earlier call set the baseline, its sum is the one the difference is taken from: the
share is bounded by the work iff the work fills the time or the sum has not fallen. -/
theorem pct_le_rebased_iff {e : Engine} (fits₁ : timeSum e first.clients < 2 ^ 64)
    (fits₂ : timeSum e second.clients < 2 ^ 64) (sees : first.clients ≠ [])
    (sees' : second.clients ≠ []) (pid : second.pid = first.pid)
    (consecutive : ∀ c ∈ between, c.pid = first.pid → c.clients = [])
    (apart : first.now + 10 ^ 6 < second.now)
    (rebases : Rebases (run before first.pid) first.now) :
    (sampleProcessGpu (run (before ++ first :: between)) second).2.2.pct e ≤
        100 * (growth e first.clients second.clients / 10 ^ 9) /
          ((second.now - first.now : ℤ) / 10 ^ 9) ↔
      second.now - first.now ≤ growth e first.clients second.clients ∨
        timeSum e first.clients ≤ timeSum e second.clients := by
  rw [sample_of_clients sees', pid, run_between sees consecutive, if_pos rebases,
    pct_le_iff rfl le_rfl apart fits₂]
  have sum : ((ProcessGpuState.store first.clients first.now).prevNs e).toNat =
      timeSum e first.clients := by
    rw [← toNat_totalNs fits₁]
    cases e <;> rfl
  have kept := timeSum_le (e := e) (nodup_clients first) (nodup_clients second)
  have seen : growth e first.clients second.clients ≤ timeSum e second.clients := growth_le
  have time : 0 < second.now - first.now := by linarith
  rw [sum]
  refine or_congr_right ((mul_le_mul_iff_left₀ time).trans ?_)
  split_ifs with fallen
  · refine iff_of_true ?_ fallen
    omega
  · refine iff_of_false ?_ fallen
    omega

/-- Two calls for a pid that see clients, without another such call in between and more than 1 ms
apart: the share the second reports is at most the work of the clients it sees over the time between
the two, iff that work is covered. -/
theorem pct_le_work_iff (e : Engine)
    (clock : (before ++ first :: (between ++ [second])).Pairwise fun c d => c.now ≤ d.now)
    (fits : ∀ c ∈ before ++ first :: (between ++ [second]), timeSum e c.clients < 2 ^ 64)
    (sees : first.clients ≠ []) (sees' : second.clients ≠ []) (pid : second.pid = first.pid)
    (consecutive : ∀ c ∈ between, c.pid = first.pid → c.clients = [])
    (apart : first.now + 10 ^ 6 < second.now) :
    (sampleProcessGpu (run (before ++ first :: between)) second).2.2.pct e ≤
        100 * (growth e first.clients second.clients / 10 ^ 9) /
          ((second.now - first.now : ℤ) / 10 ^ 9) ↔
      Covered e (run before first.pid) first second := by
  have fits₁ : timeSum e first.clients < 2 ^ 64 := fits first (by simp)
  have fits₂ : timeSum e second.clients < 2 ^ 64 := fits second (by simp)
  rw [Covered]
  by_cases rebases : Rebases (run before first.pid) first.now
  · rw [if_pos rebases]
    exact pct_le_rebased_iff fits₁ fits₂ sees sees' pid consecutive apart rebases
  · -- the call came within 1 ms of an older baseline, which stays
    rw [if_neg rebases, sample_of_clients sees', pid, run_between sees consecutive,
      if_neg rebases]
    have measured : (run before first.pid).firstSample = false :=
      Bool.eq_false_iff.2 fun first => rebases (.inl first)
    obtain ⟨c, hc, baseline⟩ := run_measured measured
    have older : (run before first.pid).prevTime ≤ first.now := by
      rw [baseline]
      exact (List.pairwise_append.1 clock).2.2 c hc first List.mem_cons_self
    exact pct_le_iff measured older apart fits₂

/-- A call, at second `t`, that sees one client, which has spent these seconds rendering. -/
def oneClient (t : ℤ) (client seconds : String) : GpuCall where
  pid := 12
  now := t * 10 ^ 9
  fdinfo := some [(".".toList, none),
    ("5".toList, some ("drm-driver:\ti915\ndrm-client-id:\t".toList ++ client.toList ++
      "\ndrm-engine-render:\t".toList ++ seconds.toList ++ "000000000 ns\n".toList))]

/-- A client that has worked for half of the time. -/
theorem pct_le_work_grown :
    (sampleProcessGpu (run ([] ++ oneClient 0 "1" "7" :: [])) (oneClient 2 "1" "8")).2.2.pct .render ≤
      100 * (growth .render (oneClient 0 "1" "7").clients (oneClient 2 "1" "8").clients / 10 ^ 9) /
        (((oneClient 2 "1" "8").now - (oneClient 0 "1" "7").now : ℤ) / 10 ^ 9) := by
  have exact_bound := @pct_le_work_iff [] [] (oneClient 0 "1" "7") (oneClient 2 "1" "8") .render
    (by decide +kernel) (by decide +kernel) (by decide +kernel) (by decide +kernel) rfl (by simp)
    (by decide +kernel)
  exact exact_bound.2 (by decide +kernel)

/-- A client that rendered for 7 s is closed, and a new one has not rendered at all. -/
theorem not_pct_le_work : ¬ ∀ first second : GpuCall, first.clients ≠ [] → second.clients ≠ [] →
    second.pid = first.pid → first.now + 10 ^ 6 < second.now →
    (∀ c ∈ [first, second], ∀ e, timeSum e c.clients < 2 ^ 64) → ∀ e,
    (sampleProcessGpu (run [first]) second).2.2.pct e ≤
      100 * (growth e first.clients second.clients / 10 ^ 9) /
        ((second.now - first.now : ℤ) / 10 ^ 9) := by
  intro claim
  have fits : ∀ c ∈ [oneClient 0 "1" "7", oneClient 2 "2" "0"],
      ∀ e, timeSum e c.clients < 2 ^ 64 := by
    rintro c hc (_ | _)
    all_goals revert c
    all_goals decide +kernel
  have bound := claim (oneClient 0 "1" "7") (oneClient 2 "2" "0") (by decide +kernel)
    (by decide +kernel) rfl (by decide +kernel) fits .render
  exact absurd bound (by decide +kernel)

end Share

end GpuCall

end SmoothDemon
