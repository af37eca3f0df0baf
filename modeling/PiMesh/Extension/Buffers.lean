/-
Where inbound frames wait.

`InboundBatcher` gathers a burst until its window closes, and longer while the agent is
busy; `DeferredInbox` keeps broadcasts that are not for this session until the next prompt
of the user.  The operations here change a buffer and return what has to be sent; sending is
up to whoever owns the buffer.
-/
import PiMesh.Extension.Content

namespace PiMesh

open Js

variable {ν : Type} [Number ν]

/-! ### Policy -/

inductive InboundBroadcastPolicy where
  | immediate | deferred
deriving DecidableEq, Repr

/-- `[\w-]`. -/
def isNameChar (c : Char) : Bool := c.isAlphanum || c == '_' || c == '-'

/-- The text begins with the alias, in any case, and the alias ends there. -/
def namesAlias (name text : List Char) : Bool :=
  (text.take name.length).map Char.toLower == name.map Char.toLower &&
    (text.drop name.length).head?.all fun c => !isNameChar c

/-- `mention.test(text)`; `fresh` says that no name is under way. -/
def mentionsFrom (name : List Char) : Bool → List Char → Bool
  | fresh, [] => fresh && namesAlias name []
  | fresh, c :: rest =>
      (fresh && (namesAlias name (c :: rest) || c == '@' && namesAlias name rest)) ||
        mentionsFrom name (!isNameChar c) rest

/-- `classifyInbound`. -/
def classifyInbound (frame : Members ν) (selfAlias : String) (policy : InboundBroadcastPolicy)
    (matchedReply : Bool) : InboundBroadcastPolicy :=
  let type := frameType? frame
  let priority := framePriority? frame
  if policy ≠ .deferred ∨ matchedReply = true then .immediate
  else if priority = some .urgent ∨ priority = some .force then .immediate
  else if type ≠ some .msg ∧ type ≠ some .mailbox ∧ type ≠ some .reply then .immediate
  else if isTrue (getOf frame) "broadcast" = false ∧ isTrue (getOf frame) "replyAll" = false then
    .immediate
  else
    let name := match selfAlias.toList with
      | '@' :: rest => rest
      | name => name
    if name = [] ∨ mentionsFrom name true ((textOf frame "body").getD "").toList = true then .immediate
    else .deferred

/-- `bypassesBatch`. -/
def bypassesBatch (frame : Members ν) (busy : Bool) : Bool :=
  decide (framePriority? frame = some .force) || decide (frameType? frame = some .remind) ||
    (decide (framePriority? frame = some .urgent) && busy)

/-! ### The batcher -/

/-- `InboundBatcher`: its frames, and whether its timers are armed. -/
structure InboundBatcher (ν : Type) where
  frames : List (SessionFrame ν) := []
  timer : Bool := false
  maxTimer : Bool := false

namespace InboundBatcher

/-- `push`. -/
def push (b : InboundBatcher ν) (windowMs : Nat) (f : SessionFrame ν) : InboundBatcher ν :=
  { b with frames := b.frames ++ [f], timer := b.timer || decide (0 < windowMs) }

/-- `flushNow`: the batch to send, if there is one. -/
def flushNow (b : InboundBatcher ν) : List (SessionFrame ν) × InboundBatcher ν := (b.frames, {})

/-- `onWindow` holds the batch: the agent is busy, and nothing in it is urgent. -/
def holds (b : InboundBatcher ν) (busy : Bool) : Bool :=
  busy && !b.frames.any fun f => decide (framePriority? f.members = some .urgent)

end InboundBatcher

/-! ### The deferred inbox -/

/-- `DeferredInbox`. -/
structure DeferredInbox (ν : Type) where
  pending : List (SessionFrame ν) := []
  queued : List (SessionFrame ν) := []
  draining : Bool := false

namespace DeferredInbox

/-- `push`. -/
def push (d : DeferredInbox ν) (f : SessionFrame ν) : DeferredInbox ν :=
  { d with pending := d.pending ++ [f] }

/-- `queueForPrompt`, after its message was sent. -/
def queueForPrompt (d : DeferredInbox ν) : DeferredInbox ν :=
  { d with queued := d.queued ++ d.pending, pending := [] }

/-- `promptStarting`. -/
def promptStarting (d : DeferredInbox ν) : DeferredInbox ν := { d with draining := true }

/-- `agentStarting`: the frames the prompt took along. -/
def agentStarting (d : DeferredInbox ν) : List (SessionFrame ν) × DeferredInbox ν :=
  if d.draining then (d.queued, { d with queued := [], draining := false }) else ([], d)

/-- `flush`, after its message was sent. -/
def flush (d : DeferredInbox ν) : DeferredInbox ν := { d with pending := [] }

/-- `clear`. -/
def clear : DeferredInbox ν := {}

end DeferredInbox

end PiMesh
