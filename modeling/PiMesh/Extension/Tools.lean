/-
The `mesh_send` tool.

The tool checks its parameters, works out a room, asks the guards and hands everything to
`client.send`, the room among it.  What it asks of its surroundings is gathered in
`SendTool`: the peers the client has seen, the guards, which keep state of their own, and
whether the broker can be reached.  A refusal is the text of the result.
-/
import PiMesh.Client.Requests

namespace PiMesh

open Js

variable {ν : Type} [Number ν]

/-- What `checkSend` of the guards is asked. -/
structure GuardInput where
  /-- `from`. -/
  sender : String
  /-- `to`. -/
  recipient : String
  room : String
  body : String
  priority : MeshPriority
deriving DecidableEq

/-- What `mesh_send` finds around it. -/
structure SendTool where
  /-- `client.knowsPeer`. -/
  knowsPeer : String → Bool
  /-- `guards.checkSend`: the reason of a refusal. -/
  checkSend : GuardInput → Option String
  /-- The client is online, or its `connect()` succeeds. -/
  reachable : Bool

/-- The parameters of `mesh_send`, each as the type its schema gives it; a text is none where
it is blank. -/
structure MeshSendParams (ν : Type) where
  /-- `to`. -/
  recipient : Option String := none
  message : Option String := none
  room : Option String := none
  priority : Option MeshPriority := none
  reason : Option String := none
  interrupt : Bool := false
  awaitReply : Bool := false
  block : Option Bool := none
  timeoutMs : Option Int := none
  refs : Option (List String) := none
  taskPackage : Option (Json ν) := none
  broadcast : Bool := false
  replyTo : Option (List String) := none
  signal : Bool := false

/-- `/^[a-z0-9][a-z0-9.-]*-broadcast$/`. -/
def isRoomBroadcast (name : String) : Bool :=
  endsWithString name "-broadcast" &&
    match name.toList.take (name.toList.length - "-broadcast".toList.length) with
    | [] => false
    | c :: rest => isLowerOrDigit c && rest.all fun c => isLowerOrDigit c || c == '.' || c == '-'

/-- `checkSendTarget`: the error and its hint. -/
def checkSendTarget (knowsPeer : String → Bool) (recipient : String) : Option (String × String) :=
  if recipient = "*" then
    some ("invalid_target",
      "\"*\" is not an alias — to reach a whole room use broadcast: true (omit to)")
  else if isRoomBroadcast recipient && !knowsPeer recipient then
    some ("invalid_target", s!"\"{recipient}\" looks like a room-broadcast pseudo-target — use broadcast: true (no such alias online)")
  else none

/-- The room `mesh_send` passes on: the one it is given, else the default room while the
session is in it, else the first one it joined. -/
def meshSendRoom (st : ClientState ν) (room : Option String) : String :=
  room.getD (if st.joinedRooms.has defaultRoom then defaultRoom
    else st.joinedRooms.elems.head?.getD defaultRoom)

/-- The task package of a send, which a capability needs. -/
def sendPackage (rt : Runtime) (cap : Option String) (package : Option (Json ν)) :
    Except String (Option MeshTaskPackage) :=
  match cap, package with
  | some _, none =>
      .error "error: task_package_required — to:'cap:<name>' needs a valid five-field taskPackage"
  | some _, some value =>
      match validateTaskPackage rt value with
      | .error reason =>
          .error s!"error: invalid_task_package: {reason} — to:'cap:<name>' needs a valid five-field taskPackage"
      | .ok pkg => .ok (some pkg)
  | none, some value =>
      match validateTaskPackage rt value with
      | .error reason => .error s!"error: invalid_task_package — {reason}"
      | .ok pkg => .ok (some pkg)
  | none, none => .ok none

/-- `execMeshSend`, up to its call of `client.send`: what is passed there. -/
def execMeshSend (tool : SendTool) (env : ClientEnv) (st : ClientState ν) (p : MeshSendParams ν) :
    Except String SendOpts := do
  let message ← match p.message with
    | none => throw "error: invalid_frame (message is required)"
    | some message => pure message
  if !p.broadcast && p.recipient.isNone then
    throw "error: invalid_frame (to is required unless broadcast: true)"
  if p.broadcast && p.recipient.isSome then
    throw "error: broadcast_with_to (omit 'to' when broadcasting)"
  let cap := if p.broadcast then none else p.recipient.bind fun t => capTargetName env.rt t
  if !p.broadcast && cap.isNone && p.recipient.any fun t =>
      startsWithString (env.rt.toLowerCase (trim t)) "cap:" then
    throw "error: invalid_target (cap:<name> is not a valid capability)"
  let taskPackage ← sendPackage env.rt cap p.taskPackage
  let recipient := match cap, p.recipient with
    | some cap, _ => String.ofList ("cap:".toList ++ cap.toList)
    | none, some t => normalizeAlias env.rt t
    | none, none => "*"
  let room := meshSendRoom st p.room
  let priority := p.priority.getD .normal
  if !p.broadcast && cap.isNone then
    if let some (error, hint) := checkSendTarget tool.knowsPeer recipient then
      throw s!"blocked: {error} — {hint}"
  if let some reason := tool.checkSend ⟨st.conn.name, recipient, room, message, priority⟩ then
    throw s!"blocked: {reason}"
  if !tool.reachable then
    throw "blocked: broker_unavailable"
  return { recipient := if p.broadcast then none else some recipient, message, room := some room,
           priority := some priority, reason := p.reason, interrupt := p.interrupt,
           awaitReply := p.awaitReply, block := some (p.block.getD true), timeoutMs := p.timeoutMs,
           refs := p.refs, taskPackage, broadcast := p.broadcast, replyTo := p.replyTo,
           signal := !(p.awaitReply && p.block == some false) && p.signal }

end PiMesh
