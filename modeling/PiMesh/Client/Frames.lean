/-
What a client writes and reads.

`ClientFrame` is what `client.ts` passes to `buildFrame`, with the id and the time
`buildFrame` adds; `members` is the object that is encoded, its members in the order in
which `buildFrame` sets them.  `Inbound` is an accepted frame as the interface `MeshFrame`
types it, with the members `onFrame` and the callers of a request read.

A reason why a connection could not be made is a value of `ConnectError`: the source
throws an `Error` and later looks for `alias_taken` and `timeout` in its message.
-/
import PiMesh.Protocol.Frames

namespace PiMesh

open Js

/-! ### Bounds -/

def ackTimeoutMs : Int := 5000
def outboxFlushCap : Nat := 50
def defaultAwaitReplyTimeoutMs : Int := 1800000
def minAwaitReplyTimeoutMs : Int := 25
def maxAwaitReplyTimeoutMs : Int := 1800000
def maxReminds : Nat := 2
def missionCap : Nat := 200
def inboxCap : Nat := 512
def aliasRetryAttempts : Nat := 4
def aliasRetryAttemptsInvoluntary : Nat := 8
def handledReplyWindowMs : Int := 1800000
def recentAnswerWindowMs : Int := 300000
def lastInboundCap : Nat := 64

/-! ### Text -/

/-- `s.slice(0, n)`; a pair of surrogates is never cut. -/
def sliceFront : Nat → List Char → List Char
  | _, [] => []
  | n, c :: rest => if utf16Size c ≤ n then c :: sliceFront (n - utf16Size c) rest else []

/-- `normalizeAlias`. -/
def normalizeAlias (rt : Runtime) (raw : String) : String :=
  rt.toLowerCase (String.ofList ((trim raw).toList.dropWhile fun c => c == '@'))

/-- `text.trim() === ""`. -/
def isBlank (text : String) : Bool := (trim text).isEmpty

/-! ### Outgoing frames -/

structure FileReservation where
  pattern : String
  reason : Option String := none
  since : Option String := none
deriving DecidableEq

section Members

variable {ν : Type} [Number ν]

def FileReservation.json (r : FileReservation) : Json ν :=
  .obj ([("pattern", .str r.pattern)] ++ (r.reason.map fun s => ("reason", .str s)).toList ++
    (r.since.map fun s => ("since", .str s)).toList)

def MeshTaskPackage.json (p : MeshTaskPackage) : Json ν :=
  .obj [("task", .str p.task), ("goalAcceptance", .str p.goalAcceptance),
    ("paths", jsonStrs p.paths),
    ("branchBase", .obj [("branch", .str p.branch), ("base", .str p.base)]),
    ("reply", .obj [("to", .str p.replyTo), ("deadline", .str p.deadline),
      ("format", .str p.format)])]

end Members

/-- A frame of the client's own. -/
structure ClientFrame where
  type : MeshFrameType
  id : String
  ts : String
  /-- `from`. -/
  sender : String
  /-- `to`. -/
  recipient : Option String := none
  room : Option String := none
  replyTo : Option String := none
  replyTargets : Option (List String) := none
  priority : Option MeshPriority := none
  body : Option String := none
  refs : Option (List String) := none
  reasonHash : Option String := none
  action : Option String := none
  target : Option String := none
  settled : Option Bool := none
  expiresAt : Option String := none
  code : Option MeshErrorCode := none
  status : Option String := none
  rooms : Option (List String) := none
  role : Option MeshRole := none
  roles : Option (List (String × MeshRole)) := none
  reservations : Option (List FileReservation) := none
  broadcast : Option Bool := none
  replyAll : Option Bool := none
  reads : Option String := none
  token : Option String := none
  interrupt : Option Bool := none
  receipt : Option Bool := none
  clientVersion : Option String := none
  taskPackage : Option MeshTaskPackage := none
  task : Option String := none
  paths : Option (List String) := none
  ttlMs : Option Int := none
  leaseId : Option String := none
  caps : Option (List String) := none
  proto : Option Int := none
deriving DecidableEq

namespace ClientFrame

variable {ν : Type} [Number ν]

/-- The object `buildFrame` returns: absent options leave no member behind. -/
def members (rt : Runtime) (f : ClientFrame) : Members ν :=
  [("v", jsonNat 1), ("type", .str f.type.text), ("id", .str f.id), ("ts", .str f.ts),
    ("from", .str f.sender)] ++
  ([("to", f.recipient.map .str), ("room", f.room.map .str), ("replyTo", f.replyTo.map .str),
    ("replyTargets", f.replyTargets.map jsonStrs), ("priority", f.priority.map fun p => .str p.text),
    ("body", f.body.map .str), ("bodyHash", f.body.map fun b => .str (rt.sha256 b)),
    ("refs", f.refs.map jsonStrs), ("reasonHash", f.reasonHash.map .str),
    ("action", f.action.map .str), ("target", f.target.map .str),
    ("settled", f.settled.map .bool), ("expiresAt", f.expiresAt.map .str),
    ("code", f.code.map fun c => .str c.text), ("status", f.status.map .str),
    ("rooms", f.rooms.map jsonStrs), ("role", f.role.map fun r => .str r.text),
    ("roles", f.roles.map fun rs => .obj (rs.map fun e => (e.1, .str e.2.text))),
    ("reservations", f.reservations.map fun rs => .arr (rs.map FileReservation.json)),
    ("broadcast", f.broadcast.map .bool), ("replyAll", f.replyAll.map .bool),
    ("reads", f.reads.map .str), ("token", f.token.map .str),
    ("interrupt", f.interrupt.map .bool), ("receipt", f.receipt.map .bool),
    ("clientVersion", f.clientVersion.map .str),
    ("taskPackage", f.taskPackage.map MeshTaskPackage.json), ("task", f.task.map .str),
    ("paths", f.paths.map jsonStrs), ("ttlMs", f.ttlMs.map fun n => .num (Number.ofInteger n)),
    ("leaseId", f.leaseId.map .str), ("caps", f.caps.map jsonStrs),
    ("proto", f.proto.map fun n => .num (Number.ofInteger n))
   ] : List (String × Option (Json ν))).filterMap fun e => e.2.map (e.1, ·)

/-- `encodeFrame` does not throw. -/
def encodes (ν : Type) [Number ν] (rt : Runtime) (maxFrameBytes : Nat) (f : ClientFrame) : Bool :=
  (encodeFrame (f.members rt : Members ν) maxFrameBytes).isSome

end ClientFrame

/-! ### Incoming frames -/

inductive TurnState where
  | busy | idle | rateLimited | blocked
deriving DecidableEq

/-- An entry of the `peers` member. -/
structure MeshPeerInfo (ν : Type) where
  /-- `alias`. -/
  name : String
  rooms : Option (List String)
  reservations : Option (List (Json ν))
  activity : Option TurnState

structure Inbound (ν : Type) where
  type : MeshFrameType
  id : String
  ts : String
  /-- `from`. -/
  sender : Option String := none
  room : Option String := none
  replyTo : Option String := none
  replyTargets : Option (List String) := none
  body : Option String := none
  bodyHash : Option String := none
  code : Option MeshErrorCode := none
  status : Option String := none
  receipt : Bool := false
  reservations : Option (List (Json ν)) := none
  peers : Option (List (MeshPeerInfo ν)) := none
  rooms : Option (List String) := none
  mailboxCount : Option Int := none
  deliveredCount : Option Int := none
  totalCount : Option Int := none
  routedTo : Option String := none
  proto : Option Int := none
  stats : Option (Json ν) := none
  target : Option String := none
  settled : Option Bool := none
  task : Option String := none
  owner : Option String := none
  paths : Option (List String) := none
  leaseId : Option String := none
  fence : Option Int := none
  epoch : Option Int := none
  expiresAt : Option String := none

/-- What settles a request: an `ack`, or an `error` with its code. -/
structure Ack where
  code : Option (Option MeshErrorCode)
  status : Option String := none
  deliveredCount : Option Int := none
  totalCount : Option Int := none
  routedTo : Option String := none
deriving DecidableEq

namespace Ack

/-- `ack.type === "error"`. -/
def isError (a : Ack) : Bool := a.code.isSome

/-- `ack.code ?? "internal"`. -/
def codeOr (a : Ack) : MeshErrorCode := (a.code.bind id).getD .internal

/-- The error frames the client makes up for itself. -/
def failed (code : MeshErrorCode) : Ack := { code := some (some code) }

end Ack

/-- The view of a frame that settles a request. -/
def Inbound.toAck {ν : Type} (f : Inbound ν) : Ack where
  code := if f.type = .error then some f.code else none
  status := f.status
  deliveredCount := f.deliveredCount
  totalCount := f.totalCount
  routedTo := f.routedTo

/-! ### Failed connections -/

inductive ConnectError where
  /-- The broker answered the hello with an error. -/
  | refused (code : MeshErrorCode)
  | helloTimeout
  | brokerUnavailable
  | oversized
  | shuttingDown
  /-- Anything else that is thrown: a bad endpoint, a queued frame that is too large. -/
  | thrown
deriving DecidableEq

namespace ConnectError

/-- `message.includes("alias_taken")`. -/
def isAliasTaken (e : ConnectError) : Bool := decide (e = .refused .aliasTaken)

/-- `message.includes("timeout")`. -/
def isTimeout (e : ConnectError) : Bool := decide (e = .helloTimeout ∨ e = .refused .timeout)

end ConnectError

end PiMesh
