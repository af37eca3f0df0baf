/-
The closed sets of the protocol.

Each set is an inductive type with the text of its members; the list of all members
is the source's array, and reading a text back searches that list, as `includes`
does.
-/
import PiMesh.Shared.Config

namespace PiMesh

/-- `FRAME_TYPES`. -/
inductive MeshFrameType where
  | hello | welcome | msg | ack | reply | remind | presence | mailbox | statusReq | statusRes
  | join | leave | reserve | read | ping | pong | activity | claim | release | lease
  | leaseStatus | ctl | ctlAck | error
deriving DecidableEq, Repr

namespace MeshFrameType

def text : MeshFrameType → String
  | hello => "hello" | welcome => "welcome" | msg => "msg" | ack => "ack" | reply => "reply"
  | remind => "remind" | presence => "presence" | mailbox => "mailbox"
  | statusReq => "status_req" | statusRes => "status_res" | join => "join" | leave => "leave"
  | reserve => "reserve" | read => "read" | ping => "ping" | pong => "pong"
  | activity => "activity" | claim => "claim" | release => "release" | lease => "lease"
  | leaseStatus => "lease_status" | ctl => "ctl" | ctlAck => "ctl_ack" | error => "error"

def all : List MeshFrameType :=
  [hello, welcome, msg, ack, reply, remind, presence, mailbox, statusReq, statusRes, join, leave,
    reserve, read, ping, pong, activity, claim, release, lease, leaseStatus, ctl, ctlAck, error]

def ofText? (s : String) : Option MeshFrameType := all.find? fun t => t.text == s

end MeshFrameType

/-- `ERROR_CODES`. -/
inductive MeshErrorCode where
  | invalidFrame | oversized | helloRequired | invalidAlias | aliasTaken | invalidRoom
  | invalidToken | notMember | observerReadonly | lastRoom | peerNotFound | rateLimited
  | policyDenied | noCapablePeer | capsUnsupported | leaseHeld | leaseNotHeld | leaseStale
  | forceRequiresReason | unreachable | unsupported | hashMismatch | replyWithoutTarget
  | timeout | expired | brokerUnavailable | shuttingDown | internal
deriving DecidableEq, Repr

namespace MeshErrorCode

def text : MeshErrorCode → String
  | invalidFrame => "invalid_frame" | oversized => "oversized"
  | helloRequired => "hello_required" | invalidAlias => "invalid_alias"
  | aliasTaken => "alias_taken" | invalidRoom => "invalid_room"
  | invalidToken => "invalid_token" | notMember => "not_member"
  | observerReadonly => "observer_readonly" | lastRoom => "last_room"
  | peerNotFound => "peer_not_found" | rateLimited => "rate_limited"
  | policyDenied => "policy_denied" | noCapablePeer => "no_capable_peer"
  | capsUnsupported => "caps_unsupported" | leaseHeld => "lease_held"
  | leaseNotHeld => "lease_not_held" | leaseStale => "lease_stale"
  | forceRequiresReason => "force_requires_reason" | unreachable => "unreachable"
  | unsupported => "unsupported" | hashMismatch => "hash_mismatch"
  | replyWithoutTarget => "reply_without_target" | timeout => "timeout" | expired => "expired"
  | brokerUnavailable => "broker_unavailable" | shuttingDown => "shutting_down"
  | internal => "internal"

def all : List MeshErrorCode :=
  [invalidFrame, oversized, helloRequired, invalidAlias, aliasTaken, invalidRoom, invalidToken,
    notMember, observerReadonly, lastRoom, peerNotFound, rateLimited, policyDenied,
    noCapablePeer, capsUnsupported, leaseHeld, leaseNotHeld, leaseStale, forceRequiresReason,
    unreachable, unsupported, hashMismatch, replyWithoutTarget, timeout, expired,
    brokerUnavailable, shuttingDown, internal]

def ofText? (s : String) : Option MeshErrorCode := all.find? fun c => c.text == s

end MeshErrorCode

/-- `PRIORITIES`. -/
inductive MeshPriority where
  | normal | urgent | force
deriving DecidableEq, Repr

namespace MeshPriority

def text : MeshPriority → String
  | normal => "normal" | urgent => "urgent" | force => "force"

def all : List MeshPriority := [normal, urgent, force]

def ofText? (s : String) : Option MeshPriority := all.find? fun p => p.text == s

end MeshPriority

/-- `ROLES`. -/
inductive MeshRole where
  | member | observer
deriving DecidableEq, Repr

namespace MeshRole

def text : MeshRole → String
  | member => "member" | observer => "observer"

def all : List MeshRole := [member, observer]

def ofText? (s : String) : Option MeshRole := all.find? fun r => r.text == s

end MeshRole

/-- `CTL_ACTIONS`. -/
inductive CtlAction where
  | abort | redirect | jobStop | jobPause | jobResume | runStop | runSteer
deriving DecidableEq, Repr

namespace CtlAction

def text : CtlAction → String
  | abort => "abort" | redirect => "redirect" | jobStop => "job_stop" | jobPause => "job_pause"
  | jobResume => "job_resume" | runStop => "run_stop" | runSteer => "run_steer"

def all : List CtlAction := [abort, redirect, jobStop, jobPause, jobResume, runStop, runSteer]

def ofText? (s : String) : Option CtlAction := all.find? fun a => a.text == s

end CtlAction

/-- `CTL_STATUSES`; the broker only tests membership. -/
def ctlStatuses : List String :=
  ["aborted", "redirected", "stopped", "paused", "resumed", "steered", "not_busy", "still_busy",
    "abort_unavailable", "not_found", "not_pausable", "not_paused", "not_running",
    "not_supported", "unsupported", "not_authorized", "identity_mismatch", "timeout", "error"]

/-- `ACK_STATUSES`. -/
inductive AckStatus where
  | delivered | queuedOffline | droppedOffline | ok
deriving DecidableEq, Repr

namespace AckStatus

def text : AckStatus → String
  | delivered => "delivered" | queuedOffline => "queued_offline"
  | droppedOffline => "dropped_offline" | ok => "ok"

def all : List AckStatus := [delivered, queuedOffline, droppedOffline, ok]

def ofText? (s : String) : Option AckStatus := all.find? fun a => a.text == s

end AckStatus

/-! ### Reading a text back -/

@[simp] theorem MeshFrameType.ofText?_text (t : MeshFrameType) :
    MeshFrameType.ofText? t.text = some t := by
  cases t <;> decide

@[simp] theorem MeshPriority.ofText?_text (p : MeshPriority) :
    MeshPriority.ofText? p.text = some p := by
  cases p <;> decide

@[simp] theorem MeshRole.ofText?_text (r : MeshRole) : MeshRole.ofText? r.text = some r := by
  cases r <;> decide

theorem MeshFrameType.text_of_ofText? {s : String} {t : MeshFrameType}
    (h : MeshFrameType.ofText? s = some t) : s = t.text := by
  have := List.find?_some h
  exact (beq_iff_eq.mp this).symm

theorem MeshPriority.text_of_ofText? {s : String} {p : MeshPriority}
    (h : MeshPriority.ofText? s = some p) : s = p.text := by
  have := List.find?_some h
  exact (beq_iff_eq.mp this).symm

end PiMesh
