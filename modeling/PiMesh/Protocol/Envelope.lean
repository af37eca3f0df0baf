/-
Frames: validation, the typed view the handlers use, and construction.

A frame on the wire is a JSON object.  `validateFrame` is a list of rules read off
`validateFrame` of `protocol/envelope.ts` in the order in which the source applies
them; the first rule that objects decides the error.  A rule sees the object only
through the lookup of its members, so a key that is absent is the source's
`undefined`.

The source then casts the accepted object to the interface `MeshFrame`.  A cast
checks nothing; what a handler does with a member of another type than declared is
a `TypeError` at best.  `castFrame` makes that visible: it fails on any member a
handler reads at a type the value does not have, with one exception.  `rooms` is
kept as the JSON value it is, because `handleHello` iterates over it without a check.
-/
import PiMesh.Protocol.TaskPackage
import PiMesh.Protocol.Types

namespace PiMesh

open Js

variable {ν : Type} [Number ν]

/-- The members of an object by name. -/
abbrev Get (ν : Type) := String → Option (Json ν)

/-- The members of a wire object. -/
abbrev Members (ν : Type) := List (String × Json ν)

/-- The lookup of an object's members. -/
def getOf (ms : Members ν) : Get ν := fun k => lookupEntry k ms

/-- A refused frame: the code the peer is told and the detail for the log. -/
structure Reject where
  code : MeshErrorCode
  detail : String
deriving DecidableEq

/-- One rule: `none` where it has nothing to object to. -/
abbrev Rule (ν : Type) := Get ν → Option Reject

/-! ### Tests on one member -/

def isStr (p : String → Bool) : Json ν → Bool
  | .str s => p s
  | _ => false

def isInt (p : Int → Bool) : Json ν → Bool
  | .num x => match Number.toInteger? x with
    | some n => p n
    | none => false
  | _ => false

def isBool : Json ν → Bool
  | .bool _ => true
  | _ => false

/-- An array within length bounds whose items all pass. -/
def isArr (lo hi : Nat) (p : Json ν → Bool) : Json ν → Bool
  | .arr items => lo ≤ items.length && items.length ≤ hi && items.all p
  | _ => false

def lengthIn (lo hi : Nat) (s : String) : Bool := lo ≤ strLength s && strLength s ≤ hi

/-- `isValidIso`. -/
def isValidIso (rt : Runtime) : Json ν → Bool := isStr fun s =>
  isIso8601 s && (rt.dateParse s).isSome

/-- `isValidRefPath`. -/
def isValidRefPath (ref : String) : Bool :=
  if strLength ref = 0 || strLength ref > maxRefChars then false
  else if startsWithString ref "/" || startsWithString ref "~" then false
  else if includesString ref "\\" then false
  else if (splitChars '/' ref.toList).any (fun seg => seg == "..".toList) then false
  else if ref == ".env" || startsWithString ref ".env." || endsWithString ref "/.env" then false
  else if includesString ref ".env/" || includesString ref "/.env/" then false
  else true

/-- `isValidReservationPattern`. -/
def isValidReservationPattern (pattern : String) : Bool :=
  lengthIn 1 512 pattern && !pattern.toList.contains (Char.ofNat 0)

/-- One entry of `isValidReservations`. -/
def isValidReservation (rt : Runtime) : Json ν → Bool
  | .obj r =>
      let get := getOf r
      (match get "pattern" with
       | some v => isStr isValidReservationPattern v
       | none => false) &&
      (match get "reason" with
       | some v => isStr (fun s => strLength s ≤ 512) v
       | none => true) &&
      (match get "since" with
       | some v => isStr (fun s => (rt.dateParse s).isSome) v
       | none => true)
  | _ => false

/-- `isValidReservations`. -/
def isValidReservations (rt : Runtime) : Json ν → Bool
  | .arr items => items.all (isValidReservation rt)
  | _ => false

/-- `isValidCaps`. -/
def isValidCaps : Json ν → Bool :=
  isArr 0 maxCaps (isStr fun cap => lengthIn 1 maxCapChars cap && isCapName cap)

/-- `isValidProto`. -/
def isValidProto : Json ν → Bool := isInt fun n => 1 ≤ n && n ≤ 1000

/-- One entry of `peers`. -/
def isValidPeerEntry : Json ν → Option Reject
  | .obj p =>
      match getOf p "caps", getOf p "proto" with
      | caps, proto =>
          if !(caps.all isValidCaps) then some ⟨.invalidFrame, "bad peer caps"⟩
          else if !(proto.all isValidProto) then some ⟨.invalidFrame, "bad peer proto"⟩
          else none
  | _ => some ⟨.invalidFrame, "bad peer"⟩

/-! ### Rules -/

/-- A member that may be absent, and otherwise passes a test. -/
def optional (key : String) (test : Json ν → Bool) (code : MeshErrorCode) (detail : String) :
    Rule ν := fun get =>
  match get key with
  | none => none
  | some v => if test v then none else some ⟨code, detail⟩

/-- A member that must be there and pass a test. -/
def required (key : String) (test : Json ν → Bool) (code : MeshErrorCode) (detail : String) :
    Rule ν := fun get =>
  match get key with
  | none => some ⟨code, detail⟩
  | some v => if test v then none else some ⟨code, detail⟩

/-- A rule for frames of certain types only. -/
def whenType (types : List MeshFrameType) (rule : Rule ν) : Rule ν := fun get =>
  match get "type" with
  | some (.str s) => if types.any (fun t => t.text == s) then rule get else none
  | _ => none

/-- The member is the text `s`. -/
def isText (get : Get ν) (key s : String) : Bool :=
  match get key with
  | some (.str t) => t == s
  | _ => false

/-- The member is `true`. -/
def isTrue (get : Get ν) (key : String) : Bool :=
  match get key with
  | some (.bool b) => b
  | _ => false

def isReasonHash : Json ν → Bool := isStr isSha256Hex

/-- Rule 4: body size and hash. -/
def bodyRule (rt : Runtime) (maxBody : Nat) : Rule ν := fun get =>
  match get "body" with
  | none =>
      if (get "bodyHash").isSome then some ⟨.invalidFrame, "bodyHash without body"⟩ else none
  | some (.str body) =>
      if byteLength body.toList > maxBody then some ⟨.invalidFrame, "body too large"⟩
      else
        match get "bodyHash" with
        | none => none
        | some (.str h) =>
            if !isSha256Hex h then some ⟨.invalidFrame, "bad bodyHash"⟩
            else if rt.sha256 body ≠ h then some ⟨.hashMismatch, "bodyHash mismatch"⟩
            else none
        | some _ => some ⟨.invalidFrame, "bad bodyHash"⟩
  | some _ => some ⟨.invalidFrame, "body not string"⟩

/-- Rule 5: `force` needs a reason. -/
def forceRule : Rule ν := fun get =>
  if isText get "priority" "force" then
    required "reasonHash" isReasonHash .forceRequiresReason "force without reasonHash" get
  else none

/-- `interrupt` modifies `force` and nothing else; the hash is checked otherwise. -/
def interruptRule : Rule ν := fun get =>
  if isTrue get "interrupt" && !isText get "priority" "force" then
    some ⟨.invalidFrame, "interrupt requires priority=force"⟩
  else optional "reasonHash" isReasonHash .invalidFrame "bad reasonHash" get

/-- Rule 6b: designated reply targets. -/
def replyTargetsRule : Rule ν := fun get =>
  match get "replyTargets" with
  | none => none
  | some (.arr items) =>
      if items.length = 0 ∨ items.length > maxReplyTargets then
        some ⟨.invalidFrame, "bad replyTargets"⟩
      else if !items.all (isStr isValidAlias) then some ⟨.invalidFrame, "bad replyTarget"⟩
      else if !isText get "type" "msg" && !isText get "type" "reply" then
        some ⟨.invalidFrame, "replyTargets on non-msg/reply"⟩
      else if isText get "type" "reply" && (get "to").isSome then
        some ⟨.invalidFrame, "replyTargets with to"⟩
      else none
  | some _ => some ⟨.invalidFrame, "bad replyTargets"⟩

/-- Rule 7: refs. -/
def refsRule : Rule ν := fun get =>
  match get "refs" with
  | none => none
  | some (.arr items) =>
      if items.length > maxRefs then some ⟨.invalidFrame, "bad refs"⟩
      else if !items.all (isStr isValidRefPath) then some ⟨.invalidFrame, "bad ref path"⟩
      else none
  | some _ => some ⟨.invalidFrame, "bad refs"⟩

/-- Rule 9b: the auth token. -/
def tokenRule : Rule ν := fun get =>
  match get "token" with
  | none => none
  | some v =>
      if !isText get "type" "hello" then some ⟨.invalidFrame, "token on non-hello"⟩
      else if isStr (lengthIn 1 128) v then none
      else some ⟨.invalidFrame, "bad token"⟩

def taskPackageRule (rt : Runtime) : Rule ν := fun get =>
  match get "taskPackage" with
  | none => none
  | some v =>
      match validateTaskPackage rt v with
      | .ok _ => none
      | .error reason => some ⟨.invalidFrame, "bad taskPackage: " ++ reason⟩

def peersRule : Rule ν := fun get =>
  match get "peers" with
  | none => none
  | some (.arr items) => items.findSome? isValidPeerEntry
  | some _ => some ⟨.invalidFrame, "bad peers"⟩

def rolesRule : Rule ν := fun get =>
  match get "roles" with
  | none => none
  | some (.obj entries) =>
      if entries.all (fun e => isStr (fun s => (MeshRole.ofText? s).isSome) e.2) then none
      else some ⟨.invalidFrame, "bad role value"⟩
  | some _ => some ⟨.invalidFrame, "bad roles"⟩

/-- The actions that act on a named job or run. -/
def targetActions : List CtlAction := [.jobStop, .jobPause, .jobResume, .runStop, .runSteer]

/-- A body that is more than white space. -/
def hasBody (get : Get ν) : Bool :=
  match get "body" with
  | some (.str body) => trim body != ""
  | _ => false

/-- Control frames: action, target, reason, alias target and body. -/
def ctlRule (rt : Runtime) : Rule ν := whenType [.ctl] fun get =>
  let acts (actions : List CtlAction) : Bool := actions.any fun a => isText get "action" a.text
  if (get "action").isNone then some ⟨.invalidFrame, "ctl requires action"⟩
  else if acts targetActions && (get "target").isNone then
    some ⟨.invalidFrame, "ctl requires target"⟩
  else if acts [.abort, .redirect] && !((get "reasonHash").any isReasonHash) then
    some ⟨.invalidFrame, "ctl abort/redirect requires reasonHash"⟩
  else if (get "to").any (isStr fun s => (capTargetName rt s).isSome) then
    some ⟨.invalidAlias, "ctl target must be an alias, not a cap route"⟩
  else if acts [.redirect] && !hasBody get then
    some ⟨.invalidFrame, "redirect requires a body"⟩
  else if acts [.runSteer] && !hasBody get then
    some ⟨.invalidFrame, "run_steer requires a body"⟩
  else none

def ctlAckRule : Rule ν := whenType [.ctlAck] fun get =>
  if (get "replyTo").isNone then some ⟨.invalidFrame, "ctl_ack requires replyTo"⟩
  else required "status" (isStr fun s => ctlStatuses.contains s) .invalidFrame
    "bad ctl_ack status" get

/-- Rule 9: broadcast. -/
def broadcastRule : Rule ν := fun get =>
  match get "broadcast" with
  | none => none
  | some (.bool true) =>
      if (get "to").isSome then some ⟨.invalidFrame, "broadcast with to"⟩
      else required "room" (isStr fun _ => true) .invalidRoom "broadcast without room" get
  | some (.bool false) => none
  | some _ => some ⟨.invalidFrame, "bad broadcast"⟩

def replyAllRule : Rule ν := fun get =>
  match get "replyAll" with
  | none => none
  | some (.bool true) =>
      if (get "to").isSome then some ⟨.invalidFrame, "replyAll with to"⟩
      else if !isText get "type" "reply" then some ⟨.invalidFrame, "replyAll on non-reply"⟩
      else none
  | some (.bool false) => none
  | some _ => some ⟨.invalidFrame, "bad replyAll"⟩

/-- A target: a capability route or an alias. -/
def isTarget (rt : Runtime) (s : String) : Bool := (capTargetName rt s).isSome || isValidAlias s

/-- The rules in the order of the source. -/
def frameRules (rt : Runtime) (maxBody : Nat) : List (Rule ν) :=
  [ required "v" (isInt fun n => n == 1) .invalidFrame "v !== 1",
    required "type" (isStr fun s => (MeshFrameType.ofText? s).isSome) .invalidFrame "unknown type",
    required "id" (isStr (lengthIn 1 maxFrameIdChars)) .invalidFrame "bad id",
    required "ts" (isValidIso rt) .invalidFrame "bad ts",
    optional "from" (isStr isValidAlias) .invalidAlias "bad from",
    optional "to" (isStr (isTarget rt)) .invalidAlias "bad to",
    optional "room" (isStr isValidRoom) .invalidRoom "bad room",
    bodyRule rt maxBody,
    optional "priority" (isStr fun s => (MeshPriority.ofText? s).isSome) .invalidFrame "bad priority",
    optional "role" (isStr fun s => (MeshRole.ofText? s).isSome) .invalidFrame "bad role",
    forceRule,
    interruptRule,
    whenType [.reply, .remind]
      (required "replyTo" (isStr fun s => strLength s != 0) .replyWithoutTarget "missing replyTo"),
    optional "replyTo" (isStr fun _ => true) .invalidFrame "bad replyTo",
    replyTargetsRule,
    refsRule,
    optional "reservations" (isValidReservations rt) .invalidFrame "bad reservations",
    tokenRule,
    optional "clientVersion" (isStr (lengthIn 1 64)) .invalidFrame "bad clientVersion",
    taskPackageRule rt,
    optional "routedCap" (isStr fun s => (normalizeCaps rt [s]).length == 1) .invalidFrame
      "bad routedCap",
    optional "routedTo" (isStr isValidAlias) .invalidAlias "bad routedTo",
    optional "task" (isStr (lengthIn 1 128)) .invalidFrame "bad task",
    optional "paths" (isArr 1 maxTaskPaths (isStr (lengthIn 1 256))) .invalidFrame "bad paths",
    optional "ttlMs" (isInt fun n => 0 < n) .invalidFrame "bad ttlMs",
    optional "leaseId" (isStr (lengthIn 1 128)) .invalidFrame "bad leaseId",
    optional "fence" (isInt fun n => 1 ≤ n) .invalidFrame "bad fence",
    optional "epoch" (isInt fun n => 1 ≤ n) .invalidFrame "bad epoch",
    optional "owner" (isStr isValidAlias) .invalidAlias "bad owner",
    optional "expiresAt" (isStr fun s => (rt.dateParse s).isSome) .invalidFrame "bad expiresAt",
    optional "caps" isValidCaps .invalidFrame "bad caps",
    optional "proto" isValidProto .invalidFrame "bad proto",
    peersRule,
    rolesRule,
    optional "action" (isStr fun s => (CtlAction.ofText? s).isSome) .invalidFrame "bad action",
    optional "target" (isStr fun s => lengthIn 1 maxCtlTargetChars s && isCtlTarget s)
      .invalidFrame "bad target",
    optional "settled" isBool .invalidFrame "bad settled",
    ctlRule rt,
    ctlAckRule,
    broadcastRule,
    replyAllRule,
    whenType [.read] (required "reads" (isStr (lengthIn 1 maxFrameIdChars)) .invalidFrame "bad reads"),
    whenType [.read] (required "to" (isStr fun _ => true) .invalidFrame "read without to"),
    optional "deliveredCount" (isInt fun n => 0 ≤ n) .invalidFrame "bad deliveredCount",
    optional "totalCount" (isInt fun n => 0 ≤ n) .invalidFrame "bad totalCount",
    whenType [.activity] (required "status"
      (isStr fun s => s == "busy" || s == "idle" || s == "rate_limited" || s == "blocked")
      .invalidFrame "bad activity status"),
    whenType [.activity] (required "from" (isStr fun _ => true) .invalidAlias
      "activity without from"),
    whenType [.ack] (optional "status" (isStr fun s => (AckStatus.ofText? s).isSome) .invalidFrame
      "bad ack status"),
    whenType [.error] (required "code" (isStr fun s => (MeshErrorCode.ofText? s).isSome)
      .invalidFrame "bad error code"),
    optional "expiresAt" (isValidIso rt) .invalidFrame "bad expiresAt" ]

/-- `validateFrame`: the members of an accepted frame, or the first objection. -/
def validateFrame (rt : Runtime) (maxBody : Nat) (value : Json ν) : Except Reject (Members ν) :=
  match value with
  | .obj ms =>
      match (frameRules rt maxBody).findSome? (fun rule => rule (getOf ms)) with
      | some r => .error r
      | none => .ok ms
  | _ => .error ⟨.invalidFrame, "not an object"⟩

/-- `parseFrameLine`, with the default bound on bodies that broker and clients use. -/
def parseFrameLine (rt : Runtime) (line : List Char) : Except Reject (Members ν) :=
  match Json.parse line with
  | none => .error ⟨.invalidFrame, "JSON parse error"⟩
  | some value => validateFrame rt maxBodyBytes value

/-! ### The typed view -/

/-- What a handler would do with a value it cannot use: throw. -/
inductive JsError where
  /-- A member does not have the type the interface declares. -/
  | wrongType (key : String)
  /-- `new Set(value)` on something that is not iterable. -/
  | notIterable
  /-- An object whose own `toString` is not a function, where a string is needed, or arrays nested
  too deep for one. -/
  | noPrimitive
  /-- `push(...items)` with more items than a call takes. -/
  | tooManyArguments
deriving DecidableEq, Repr

/-- The interface `MeshFrame`, with the members the broker's handlers read. -/
structure MeshFrame (ν : Type) where
  /-- The object itself, which is what the broker relays. -/
  raw : Members ν
  type : MeshFrameType
  id : String
  /-- `from`. -/
  sender : Option String
  /-- `to`. -/
  recipient : Option String
  room : Option String
  replyTo : Option String
  replyTargets : Option (List String)
  priority : Option MeshPriority
  task : Option String
  paths : Option (List String)
  ttlMs : Option Int
  leaseId : Option String
  action : Option CtlAction
  status : Option (Json ν)
  rooms : Option (Json ν)
  role : Option MeshRole
  roles : Option (List (String × MeshRole))
  reservations : Option (List (Json ν))
  broadcast : Option Bool
  replyAll : Option Bool
  token : Option String
  clientVersion : Option String
  caps : Option (List String)
  proto : Option Int

def asStr : Json ν → Option String
  | .str s => some s
  | _ => none

def asBool : Json ν → Option Bool
  | .bool b => some b
  | _ => none

def asInt : Json ν → Option Int
  | .num x => Number.toInteger? x
  | _ => none

def asArr {α : Type} (conv : Json ν → Option α) : Json ν → Option (List α)
  | .arr items => items.mapM conv
  | _ => none

/-- A reservation as the broker uses it: an object whose `since`, if any, is a string. -/
def asReservation : Json ν → Option (Json ν)
  | .obj r => if (getOf r "since").all (isStr fun _ => true) then some (.obj r) else none
  | _ => none

def asRoles : Json ν → Option (List (String × MeshRole))
  | .obj entries => entries.mapM fun e => ((asStr e.2).bind MeshRole.ofText?).map (e.1, ·)
  | _ => none

/-- Use an optional member at a type. -/
def useMember {α : Type} (get : Get ν) (key : String) (conv : Json ν → Option α) :
    Except JsError (Option α) :=
  match get key with
  | none => .ok none
  | some v =>
      match conv v with
      | some a => .ok (some a)
      | none => .error (.wrongType key)

/-- Use a member at a type. -/
def needMember {α : Type} (get : Get ν) (key : String) (conv : Json ν → Option α) :
    Except JsError α :=
  match (get key).bind conv with
  | some a => .ok a
  | none => .error (.wrongType key)

/-- `value as MeshFrame`, with the failures the handlers would run into. -/
def castFrame (ms : Members ν) : Except JsError (MeshFrame ν) := do
  let get := getOf ms
  let type ← needMember get "type" fun v => (asStr v).bind MeshFrameType.ofText?
  let id ← needMember get "id" asStr
  let sender ← useMember get "from" asStr
  let recipient ← useMember get "to" asStr
  let room ← useMember get "room" asStr
  let replyTo ← useMember get "replyTo" asStr
  let replyTargets ← useMember get "replyTargets" (asArr asStr)
  let priority ← useMember get "priority" fun v => (asStr v).bind MeshPriority.ofText?
  let task ← useMember get "task" asStr
  let paths ← useMember get "paths" (asArr asStr)
  let ttlMs ← useMember get "ttlMs" asInt
  let leaseId ← useMember get "leaseId" asStr
  let action ← useMember get "action" fun v => (asStr v).bind CtlAction.ofText?
  let role ← useMember get "role" fun v => (asStr v).bind MeshRole.ofText?
  let roles ← useMember get "roles" asRoles
  let reservations ← useMember get "reservations" (asArr asReservation)
  let broadcast ← useMember get "broadcast" asBool
  let replyAll ← useMember get "replyAll" asBool
  let token ← useMember get "token" asStr
  let clientVersion ← useMember get "clientVersion" asStr
  let caps ← useMember get "caps" (asArr asStr)
  let proto ← useMember get "proto" asInt
  return { raw := ms, type, id, sender, recipient, room, replyTo, replyTargets, priority, task,
           paths, ttlMs, leaseId, action, status := get "status", rooms := get "rooms", role,
           roles, reservations, broadcast, replyAll, token, clientVersion, caps, proto }

/-- `effectiveCaps`: capabilities count from protocol 2 on. -/
def effectiveCaps (proto : Option Int) (caps : Option (List String)) : List String :=
  match proto with
  | none => []
  | some p => if p < protoVersion then [] else caps.getD []

/-- `frame.type`. -/
def frameType? (ms : Members ν) : Option MeshFrameType :=
  (getOf ms "type").bind fun v => (asStr v).bind MeshFrameType.ofText?

/-- `frame.priority`. -/
def framePriority? (ms : Members ν) : Option MeshPriority :=
  (getOf ms "priority").bind fun v => (asStr v).bind MeshPriority.ofText?

/-! ### Rewriting and building -/

/-- `{ ...frame, key: value }`. -/
def withMember (ms : Members ν) (key : String) (value : Json ν) : Members ν := setEntry key value ms

/-- `{ ...frame, key: undefined }`, as far as its JSON text goes. -/
def withoutMember (ms : Members ν) (key : String) : Members ν :=
  ms.filter fun m => decide (m.1 ≠ key)

/-- What `buildFrame` adds on its own: a fresh id and the time. -/
structure Stamp where
  freshId : String
  nowIso : String

/-- The options of `buildFrame` the broker uses. -/
structure BuildFrameOpts (ν : Type) where
  type : MeshFrameType
  id : Option String := none
  sender : Option String := none
  recipient : Option String := none
  room : Option (Json ν) := none
  replyTo : Option String := none
  body : Option String := none
  expiresAt : Option String := none
  code : Option MeshErrorCode := none
  status : Option String := none
  peers : Option (List (Json ν)) := none
  rooms : Option (List (Json ν)) := none
  mailboxCount : Option Nat := none
  interruptStatus : Option String := none
  reservations : Option (List (Json ν)) := none
  deliveredCount : Option Nat := none
  totalCount : Option Nat := none
  routedTo : Option String := none
  task : Option String := none
  paths : Option (List String) := none
  leaseId : Option String := none
  fence : Option Nat := none
  epoch : Option Int := none
  owner : Option String := none
  caps : Option (List String) := none
  proto : Option Int := none
  stats : Option (Json ν) := none

def jsonNat (n : Nat) : Json ν := .num (Number.ofInteger n)

def jsonStrs (l : List String) : Json ν := .arr (l.map .str)

/-- `buildFrame`: absent options leave no member behind. -/
def buildFrame (rt : Runtime) (stamp : Stamp) (o : BuildFrameOpts ν) : Members ν :=
  [("v", jsonNat 1), ("type", .str o.type.text), ("id", .str (o.id.getD stamp.freshId)),
    ("ts", .str stamp.nowIso)] ++
  ([("from", o.sender.map .str), ("to", o.recipient.map .str), ("room", o.room),
    ("replyTo", o.replyTo.map .str), ("body", o.body.map .str),
    ("bodyHash", o.body.map fun b => .str (rt.sha256 b)), ("expiresAt", o.expiresAt.map .str),
    ("code", o.code.map fun c => .str c.text), ("status", o.status.map .str),
    ("peers", o.peers.map .arr), ("rooms", o.rooms.map .arr),
    ("mailboxCount", o.mailboxCount.map jsonNat),
    ("interruptStatus", o.interruptStatus.map .str), ("reservations", o.reservations.map .arr),
    ("deliveredCount", o.deliveredCount.map jsonNat), ("totalCount", o.totalCount.map jsonNat),
    ("routedTo", o.routedTo.map .str), ("task", o.task.map .str),
    ("paths", o.paths.map jsonStrs), ("leaseId", o.leaseId.map .str),
    ("fence", o.fence.map jsonNat), ("epoch", o.epoch.map fun n => .num (Number.ofInteger n)),
    ("owner", o.owner.map .str), ("caps", o.caps.map jsonStrs),
    ("proto", o.proto.map fun n => .num (Number.ofInteger n)), ("stats", o.stats)
   ] : List (String × Option (Json ν))).filterMap fun e => e.2.map (e.1, ·)

end PiMesh
