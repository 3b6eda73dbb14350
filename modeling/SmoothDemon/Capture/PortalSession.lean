import SmoothDemon.Library.Custody
import Std.Data.String.ToNat

/-!
# PortalSession

The screen-cast client of src/capture/PortalSession.cpp.  Requests are identified by their request
path, which the client predicts from its bus name and a token; tokens are numbered, so no two
requests of a process share a path (`makeRequestPath_injective`).  What a response does to the
object is a function of the object and the response; `log` keeps the sessions and descriptors it
took over and gave up.
-/

namespace SmoothDemon

def uniqueNameToSender (unique : String) : String :=
  let s := if unique.startsWith ":" then (unique.drop 1).toString else unique
  s.map fun c => if c = '.' then '_' else c

/-- `make_token`, with the counter after its increment. -/
def makeToken (tag : String) (counter : ℕ) : String :=
  "smoothdemon_" ++ (tag ++ ("_" ++ Nat.repr counter))

def makeRequestPath (sender token : String) : String :=
  "/org/freedesktop/portal/desktop/request/" ++ (sender ++ ("/" ++ token))

inductive Request
  | createSession
  | selectSources
  | start
  deriving DecidableEq

def Request.tag : Request → String
  | .createSession => "create"
  | .selectSources => "select"
  | .start => "start"

theorem makeToken_injective {req req' : Request} {n n' : ℕ}
    (same : makeToken req.tag n = makeToken req'.tag n') : n = n' := by
  have chars := congrArg String.toList same
  cases req <;> cases req' <;> simp [makeToken, Request.tag] at chars
  all_goals exact Nat.repr_injective (String.toList_injective (by simpa using chars))

theorem makeRequestPath_injective {sender token token' : String}
    (same : makeRequestPath sender token = makeRequestPath sender token') : token = token' := by
  unfold makeRequestPath at same
  rw [String.append_right_inj, String.append_right_inj, String.append_right_inj] at same
  exact same

/-- The body of a `Response` signal: the code, and the two results that are looked up. -/
structure Response where
  code : UInt32
  sessionHandle : Option String := none
  streams : Option (List UInt32) := none
  deriving DecidableEq

/-- What the object has to give back. -/
inductive PortalHandle
  | session (handle : String)
  | fd (fd : ℕ)
  deriving DecidableEq

structure PortalSession where
  sessionHandle : String := ""
  pwFd : Option ℕ := none
  nodeId : UInt32 := 0
  log : List (Custody.Event PortalHandle) := []

namespace PortalSession

variable (p : PortalSession)

/-- The tail of `AwaitPortalResponse`: only a response with code 0 counts. -/
def accept (r : Response) : Option Response := if r.code ≠ 0 then none else some r

/-- The rest of the `CreateSession` block; `none` is a `return false`. -/
def onCreateResponse (r : Response) : Option PortalSession :=
  (accept r).bind fun r =>
    match r.sessionHandle with
    | none => none
    | some handle =>
      some { p with sessionHandle := handle, log := .acquire (.session handle) :: p.log }

def onSelectResponse (r : Response) : Option PortalSession := (accept r).map fun _ => p

def onStartResponse (r : Response) : Option PortalSession :=
  (accept r).bind fun r =>
    match r.streams with
    | none => none
    | some [] => none
    | some (node :: _) => some { p with nodeId := node }

/-- The response to a request, as `RequestScreenCast` handles it. -/
def onResponse : Request → Response → Option PortalSession
  | .createSession => p.onCreateResponse
  | .selectSources => p.onSelectResponse
  | .start => p.onStartResponse

/-- `pw_fd_ = ::dup(..)`; a failing `dup` stores -1. -/
def storeFd : Option ℕ → PortalSession
  | none => { p with pwFd := none }
  | some fd => { p with pwFd := some fd, log := .acquire (.fd fd) :: p.log }

def closeSession : PortalSession :=
  if p.sessionHandle = "" then p
  else { p with log := .release (.session p.sessionHandle) :: p.log }

def closeFd : PortalSession :=
  match p.pwFd with
  | none => p
  | some fd => { p with pwFd := none, log := .release (.fd fd) :: p.log }

/-- `~PortalSession`, with a `Close` call that does not fail. -/
def destroy : PortalSession := p.closeSession.closeFd

end PortalSession

end SmoothDemon
