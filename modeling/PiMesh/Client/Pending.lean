/-
Missions that wait for an answer.

`PendingReplies` keeps one entry for each message whose answer is awaited.  An entry goes
when its reply arrives, when its deadline fires or when it is cancelled, and going is what
resolves its promise; so each operation here returns the promises it resolved.  The timers
of an entry are cleared with it, and a timer may fire at any time while it is armed.
-/
import PiMesh.Client.Frames

namespace PiMesh

open Js

/-- Why an entry was given up. -/
inductive CancelReason where
  | superseded | renamed | shuttingDown | cancelled | droppedOffline
  /-- The send was answered with an error. -/
  | refused (code : Option MeshErrorCode)
deriving DecidableEq

def CancelReason.text : CancelReason → String
  | superseded => "superseded" | renamed => "renamed" | shuttingDown => "shutting_down"
  | cancelled => "cancelled" | droppedOffline => "dropped_offline"
  | refused code => (code.map MeshErrorCode.text).getD "error"

/-- `PendingResolution`. -/
inductive Resolution (ν : Type) where
  | reply (frame : Inbound ν)
  | expired
  | error (reason : CancelReason)

structure PendingEntry where
  expiresAt : Int
  remindCount : Nat := 0
  /-- The reminders that are still scheduled. -/
  reminders : Nat
  /-- The call that registered it has returned already. -/
  launch : Bool
deriving DecidableEq

structure PendingReplies where
  entries : Map String PendingEntry := .empty
  unmatchedReplyCount : Nat := 0

/-- The promises an operation resolved. -/
abbrev Resolved (ν : Type) := List (String × Resolution ν)

namespace PendingReplies

variable {ν : Type}

def has (p : PendingReplies) (msgId : String) : Bool := p.entries.has msgId

def isLaunch (p : PendingReplies) (msgId : String) : Bool :=
  (p.entries.get? msgId).any fun e => e.launch

def drop (p : PendingReplies) (msgId : String) : PendingReplies :=
  { p with entries := p.entries.delete msgId }

def unmatched (p : PendingReplies) : PendingReplies :=
  { p with unmatchedReplyCount := p.unmatchedReplyCount + 1 }

def cancel (p : PendingReplies) (msgId : String) (reason : CancelReason) :
    PendingReplies × Resolved ν :=
  if p.has msgId then (p.drop msgId, [(msgId, .error reason)]) else (p, [])

def cancelAll (p : PendingReplies) (reason : CancelReason) : PendingReplies × Resolved ν :=
  ({ p with entries := .empty }, p.entries.keys.map fun msgId => (msgId, .error reason))

def register (p : PendingReplies) (now : Int) (msgId : String) (expiresAt : Int) (launch : Bool) :
    PendingReplies × Resolved ν :=
  let (p, resolved) := p.cancel msgId .superseded
  -- no instant reminders: there are two if any time is left, and none otherwise
  let entry : PendingEntry :=
    { expiresAt, reminders := if now < expiresAt then maxReminds else 0, launch }
  ({ p with entries := p.entries.set msgId entry }, resolved)

/-- Route a reply: whether it resolved an entry. -/
def handleReply (p : PendingReplies) (frame : Inbound ν) : PendingReplies × Resolved ν × Bool :=
  match frame.replyTo with
  | none => (p.unmatched, [], false)
  | some replyTo =>
      if p.has replyTo then (p.drop replyTo, [(replyTo, .reply frame)], true)
      else (p.unmatched, [], false)

/-- The deadline of an entry. -/
def expire (p : PendingReplies) (msgId : String) : PendingReplies × Resolved ν :=
  if p.has msgId then (p.drop msgId, [(msgId, .expired)]) else (p, [])

/-- A reminder of an entry: whether `onRemind` is called. -/
def remind (p : PendingReplies) (msgId : String) : PendingReplies × Bool :=
  match p.entries.get? msgId with
  | some e =>
      if e.reminders = 0 then (p, false)
      else
        let fired := { e with reminders := e.reminders - 1 }
        let counted := { fired with remindCount := e.remindCount + 1 }
        if e.remindCount ≥ maxReminds then
          ({ p with entries := p.entries.set msgId fired }, false)
        else ({ p with entries := p.entries.set msgId counted }, true)
  | none => (p, false)

end PendingReplies

end PiMesh
