import Mathlib.Data.List.Perm.Basic
import Mathlib.Data.List.Induction
import SmoothDemon.Capture.PortalSession

/-!
# What the portal client gives back

A whole `RequestScreenCast` as a function of what the portal answers, any number of them on one
object, and its destructor.  A request that gets a session handle overwrites the one the object has,
and the destructor closes the last, so everything is given back exactly once iff no more than one
request gets one (`lifetime_balanced_iff`).
-/

namespace SmoothDemon

/-- What the portal makes of a request: the response to each of the three calls and the result of
`dup`, where `none` is a call that throws. -/
structure Outcome where
  create : Option Response
  select : Option Response
  start : Option Response
  openRemote : Option (Option ℕ)
  deriving DecidableEq

namespace Outcome

variable (o : Outcome)

/-- The session handle the request obtains. -/
def handle? : Option String :=
  o.create.bind fun r => (PortalSession.accept r).bind fun r => r.sessionHandle

/-- The node of the first stream. -/
def node? : Option UInt32 :=
  (o.start.bind PortalSession.accept).bind fun r => r.streams.bind List.head?

/-- What the request stores in `pw_fd_`, if it comes that far. -/
def fd? : Option (Option ℕ) :=
  o.handle?.bind fun _ => (o.select.bind PortalSession.accept).bind fun _ =>
    o.node?.bind fun _ => o.openRemote

theorem handle?_of_fd? (reached : o.fd?.isSome) : o.handle?.isSome := by
  unfold fd? at reached
  cases h : o.handle? with
  | none => simp [h] at reached
  | some handle => rfl

end Outcome

namespace PortalSession

variable (p : PortalSession)

/-- `RequestScreenCast`; a failing step leaves what the earlier ones stored. -/
def requestScreenCast (o : Outcome) : PortalSession × Bool :=
  match o.create.bind p.onCreateResponse with
  | none => (p, false)
  | some p =>
    match o.select.bind p.onSelectResponse with
    | none => (p, false)
    | some p =>
      match o.start.bind p.onStartResponse with
      | none => (p, false)
      | some p =>
        match o.openRemote with
        | none => (p, false)
        | some fd => (p.storeFd fd, fd.isSome)

/-- A sequence of requests on one object, ended by its destructor. -/
def requests (os : List Outcome) : PortalSession :=
  os.foldl (fun p o => (p.requestScreenCast o).1) {}

def lifetime (os : List Outcome) : PortalSession := (requests os).destroy

/-- Whatever was obtained was given back, once each time. -/
def Balanced : Prop :=
  ∀ h : PortalHandle, p.log.count (.release h) = p.log.count (.acquire h)

/-! ### One request -/

def sessionEvents (handle : Option String) : List (Custody.Event PortalHandle) :=
  handle.toList.map fun h => .acquire (.session h)

def fdEvents (fd : Option ℕ) : List (Custody.Event PortalHandle) :=
  fd.toList.map fun n => .acquire (.fd n)

theorem create_bind (o : Outcome) : o.create.bind p.onCreateResponse = o.handle?.map fun h =>
    { p with sessionHandle := h, log := .acquire (.session h) :: p.log } := by
  unfold Outcome.handle? onCreateResponse
  rcases o.create with _ | r
  · rfl
  · simp only [Option.bind_some]
    rcases accept r with _ | r
    · rfl
    · rcases h : r.sessionHandle with _ | handle <;> simp [h]

theorem select_bind (o : Outcome) :
    o.select.bind p.onSelectResponse = (o.select.bind accept).map fun _ => p := by
  rcases o.select with _ | r <;> rfl

theorem start_bind (o : Outcome) :
    o.start.bind p.onStartResponse = o.node?.map fun node => { p with nodeId := node } := by
  unfold Outcome.node? onStartResponse
  rcases o.start with _ | r
  · rfl
  · simp only [Option.bind_some]
    rcases accept r with _ | r
    · rfl
    · rcases h : r.streams with _ | _ | ⟨node, rest⟩ <;> simp [h]

theorem requestScreenCast_spec (o : Outcome) :
    (p.requestScreenCast o).1.sessionHandle = o.handle?.getD p.sessionHandle ∧
      (p.requestScreenCast o).1.pwFd = o.fd?.getD p.pwFd ∧
      (p.requestScreenCast o).1.log =
        fdEvents o.fd?.join ++ (sessionEvents o.handle? ++ p.log) := by
  unfold requestScreenCast Outcome.fd?
  rw [create_bind]
  cases o.handle? with
  | none => exact ⟨rfl, rfl, rfl⟩
  | some handle =>
    simp only [Option.map_some, Option.bind_some, select_bind, start_bind]
    cases o.select.bind accept with
    | none => exact ⟨rfl, rfl, rfl⟩
    | some r =>
      simp only [Option.map_some, Option.bind_some]
      cases o.node? with
      | none => exact ⟨rfl, rfl, rfl⟩
      | some node =>
        simp only [Option.map_some, Option.bind_some]
        rcases o.openRemote with _ | _ | fd <;> exact ⟨rfl, rfl, rfl⟩

/-! ### Any number of requests -/

/-- The session handles the requests obtain, in this order. -/
def handles (os : List Outcome) : List String := os.filterMap Outcome.handle?

def fds (os : List Outcome) : List (Option ℕ) := os.filterMap Outcome.fd?

theorem handles_concat (os : List Outcome) (o : Outcome) :
    handles (os ++ [o]) = handles os ++ o.handle?.toList := by
  unfold handles
  rw [List.filterMap_append]
  cases h : o.handle? <;> simp [h]

theorem fds_concat (os : List Outcome) (o : Outcome) :
    fds (os ++ [o]) = fds os ++ o.fd?.toList := by
  unfold fds
  rw [List.filterMap_append]
  cases h : o.fd? <;> simp [h]

/-- Only a request that obtained a session handle comes as far as `dup`. -/
theorem length_fds_le (os : List Outcome) : (fds os).length ≤ (handles os).length := by
  induction os using List.reverseRecOn with
  | nil => simp [fds, handles]
  | append_singleton os o ih =>
    rw [fds_concat, handles_concat, List.length_append, List.length_append]
    have once : o.fd?.toList.length ≤ o.handle?.toList.length := by
      cases h : o.fd? with
      | none => simp
      | some fd =>
        obtain ⟨handle, h'⟩ := Option.isSome_iff_exists.1 (o.handle?_of_fd? (by simp [h]))
        simp [h']
    omega

/-- What the object holds after the requests, and what it has been given. -/
structure Holds (p : PortalSession) (hs : List String) (fs : List (Option ℕ)) : Prop where
  handle : p.sessionHandle = hs.getLast?.getD ""
  fd : p.pwFd = fs.getLast?.join
  released : ∀ h, .release h ∉ p.log
  sessions : ∀ x, p.log.count (.acquire (.session x)) = hs.count x
  fds : ∀ n, p.log.count (.acquire (.fd n)) = fs.count (some n)

theorem requests_concat (os : List Outcome) (o : Outcome) :
    requests (os ++ [o]) = ((requests os).requestScreenCast o).1 := by
  simp [requests]

theorem count_sessionEvents (handle : Option String) (x : String) :
    (sessionEvents handle).count (.acquire (.session x)) = handle.toList.count x := by
  cases handle <;> simp [sessionEvents, List.count_singleton]

theorem count_fdEvents (fd : Option (Option ℕ)) (n : ℕ) :
    (fdEvents fd.join).count (.acquire (.fd n)) = fd.toList.count (some n) := by
  rcases fd with _ | _ | fd <;> simp [fdEvents, List.count_singleton]

theorem holds_requests (os : List Outcome) : (requests os).Holds (handles os) (fds os) := by
  induction os using List.reverseRecOn with
  | nil =>
    exact ⟨rfl, rfl, by simp [requests], by simp [requests, handles], by simp [requests, fds]⟩
  | append_singleton os o ih =>
    obtain ⟨handle, fd, log⟩ := (requests os).requestScreenCast_spec o
    rw [requests_concat, handles_concat, fds_concat]
    refine ⟨?_, ?_, fun h => ?_, fun x => ?_, fun n => ?_⟩
    · rw [handle, ih.handle]
      cases o.handle? <;> simp
    · rw [fd, ih.fd]
      cases o.fd? <;> simp
    · rw [log]
      simp [fdEvents, sessionEvents, ih.released h]
    · rw [log, List.count_append, List.count_append, List.count_append, ih.sessions,
        count_sessionEvents]
      have other : (fdEvents o.fd?.join).count (.acquire (.session x)) = 0 := by
        simp [fdEvents, List.count_eq_zero]
      omega
    · rw [log, List.count_append, List.count_append, List.count_append, ih.fds, count_fdEvents]
      have other : (sessionEvents o.handle?).count (.acquire (.fd n)) = 0 := by
        simp [sessionEvents, List.count_eq_zero]
      omega

/-! ### The destructor -/

/-- The session the destructor closes. -/
def openSession : List String := if p.sessionHandle = "" then [] else [p.sessionHandle]

/-- What the destructor gives back. -/
def givenBack : List PortalHandle :=
  p.pwFd.toList.map PortalHandle.fd ++ p.openSession.map PortalHandle.session

theorem destroy_log : p.destroy.log = p.givenBack.map .release ++ p.log := by
  unfold destroy closeSession closeFd givenBack openSession
  split_ifs
  · cases p.pwFd <;> rfl
  · cases p.pwFd <;> rfl

theorem count_session_givenBack (x : String) :
    p.givenBack.count (.session x) = p.openSession.count x := by
  have others : (p.pwFd.toList.map PortalHandle.fd).count (.session x) = 0 := by
    simp [List.count_eq_zero]
  rw [givenBack, List.count_append, others, Nat.zero_add]
  exact List.count_map_of_injective _ _ (fun _ _ same => PortalHandle.session.inj same) _

theorem count_fd_givenBack (n : ℕ) : p.givenBack.count (.fd n) = p.pwFd.toList.count n := by
  have others : (p.openSession.map PortalHandle.session).count (.fd n) = 0 := by
    simp [List.count_eq_zero]
  rw [givenBack, List.count_append, others, Nat.add_zero]
  exact List.count_map_of_injective _ _ (fun _ _ same => PortalHandle.fd.inj same) _

variable {p} {hs : List String} {fs : List (Option ℕ)}

theorem count_acquire_destroy (x : PortalHandle) :
    p.destroy.log.count (.acquire x) = p.log.count (.acquire x) := by
  have none : (p.givenBack.map Custody.Event.release).count (.acquire x) = 0 := by
    simp [List.count_eq_zero]
  rw [destroy_log, List.count_append, none, Nat.zero_add]

/-- Only the last session and the last descriptor are given back. -/
theorem Holds.count_release_destroy (h : p.Holds hs fs) (x : PortalHandle) :
    p.destroy.log.count (.release x) = p.givenBack.count x := by
  have before : p.log.count (.release x) = 0 := List.count_eq_zero.2 (h.released x)
  rw [destroy_log, List.count_append, before, Nat.add_zero]
  exact List.count_map_of_injective _ _ (fun _ _ same => Custody.Event.release.inj same) _

theorem Holds.balanced_iff (h : p.Holds hs fs) :
    p.destroy.Balanced ↔
      p.openSession.Perm hs ∧ ∀ n, p.pwFd.toList.count n = fs.count (some n) := by
  rw [List.perm_iff_count]
  constructor
  · intro balanced
    refine ⟨fun x => ?_, fun n => ?_⟩
    · rw [← count_session_givenBack, ← h.count_release_destroy, balanced, count_acquire_destroy,
        h.sessions]
    · rw [← count_fd_givenBack, ← h.count_release_destroy, balanced, count_acquire_destroy, h.fds]
  · rintro ⟨closed, stored⟩ (x | n)
    · rw [h.count_release_destroy, count_acquire_destroy, count_session_givenBack, h.sessions,
        closed]
    · rw [h.count_release_destroy, count_acquire_destroy, count_fd_givenBack, h.fds, stored]

theorem Holds.perm_openSession_iff (h : p.Holds hs fs) :
    p.openSession.Perm hs ↔ hs = [] ∨ ∃ x ≠ "", hs = [x] := by
  unfold openSession
  rw [h.handle]
  constructor
  · intro perm
    split_ifs at perm with empty
    · exact .inl perm.symm.eq_nil
    · have single := List.perm_singleton.1 perm.symm
      exact .inr ⟨_, empty, single⟩
  · rintro (rfl | ⟨x, nonempty, rfl⟩)
    · simp
    · simp [nonempty]

/-- Whatever the portal answers, every session and every descriptor is given back exactly once iff
at most one request obtains a session handle, and that handle is not empty. -/
theorem lifetime_balanced_iff (os : List Outcome) :
    (lifetime os).Balanced ↔ handles os = [] ∨ ∃ h ≠ "", handles os = [h] := by
  have holds := holds_requests os
  unfold lifetime
  rw [holds.balanced_iff, holds.perm_openSession_iff, and_iff_left_of_imp]
  intro few n
  have single : (fds os).length ≤ 1 := by
    have le := length_fds_le os
    rcases few with none | ⟨h, -, one⟩
    · simp only [none, List.length_nil] at le
      omega
    · simp only [one, List.length_singleton] at le
      omega
  rw [holds.fd]
  match fds os, single with
  | [], _ => rfl
  | [none], _ => rfl
  | [some fd], _ => simp [List.count_singleton]

/-- A second session makes the object forget the first. -/
theorem not_balanced_again : ¬ ∀ os : List Outcome, (lifetime os).Balanced := by
  intro claim
  let answered (handle : String) : Outcome :=
    { create := some { code := 0, sessionHandle := some handle }
      select := none
      start := none
      openRemote := none }
  have balanced := claim [answered "a", answered "b"] (.session "a")
  exact absurd balanced (by decide)

end PortalSession

end SmoothDemon
