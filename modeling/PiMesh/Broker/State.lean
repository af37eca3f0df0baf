/-
The broker's tables, and what is in flight between it and its sockets.

`BrokerState` holds the tables of `broker/state.ts`, the closure variables of
`createBroker` (`pendingCtl`, `leases`), and three things that live in the runtime
rather than in the source: the sockets, the writes handed to them, and the fan-outs
that wait for a `Promise.all`.  `queued` and `drops` are a record of what went through
the mailboxes; nothing reads them.

A callback passed to `writeFrame` is a closure over its surroundings.  Here it is a
value of `WriteCallback`, one constructor per closure of the source, with the
variables that closure captured.  `writes` keeps every call of `writeFrame` in order
with how it ended, so the list is both what is pending and the history of what the
broker sent.

Objects are compared by identity in the source (`state.peers.get(alias) === peer`).
A record, a stored message and a room id that is not a string carry a number `ref`
that no two of them share.
-/
import PiMesh.Broker.Lease
import PiMesh.Broker.Policy
import PiMesh.Protocol.Frames

namespace PiMesh

open Js

/-- Sockets are known by number. -/
abbrev SocketId := Nat

/-- A room id as the maps key it: a JSON value, and its identity where it is an array. -/
structure RoomKey (ν : Type) where
  value : Json ν
  ref : Nat := 0
deriving DecidableEq

/-- The key of an ordinary room id. -/
def RoomKey.ofString {ν : Type} (room : String) : RoomKey ν := ⟨.str room, 0⟩

inductive ActivityState where
  | busy | idle | rateLimited | blocked
deriving DecidableEq, Repr

def ActivityState.text : ActivityState → String
  | busy => "busy" | idle => "idle" | rateLimited => "rate_limited" | blocked => "blocked"

structure Activity where
  state : ActivityState
  /-- `at`. -/
  since : String
deriving DecidableEq

structure PeerRecord (ν : Type) where
  ref : Nat
  /-- `alias`. -/
  name : String
  socket : SocketId
  rooms : Map (RoomKey ν) MeshRole
  clientVersion : Option String
  connectedAt : Int
  lastSeenAt : Int
  helloDone : Bool
  reservations : List (Json ν)
  activity : Option Activity
  via : Option String
  caps : List String
  proto : Int

/-- What a closure keeps of a record: who it is, and which object it was. -/
structure PeerRef where
  ref : Nat
  name : String
  socket : SocketId
deriving DecidableEq

def PeerRecord.toRef {ν : Type} (p : PeerRecord ν) : PeerRef := ⟨p.ref, p.name, p.socket⟩

structure StoredMsg (ν : Type) where
  ref : Nat
  frame : Members ν
  enqueuedAt : Int

structure TokenBucket where
  tokens : ℚ
  lastRefillAt : Int
deriving DecidableEq

structure PeerRates where
  msg : TokenBucket
  urgent : TokenBucket
  force : TokenBucket
deriving DecidableEq

structure BrokerStats where
  relayed : Nat := 0
  refused : Nat := 0
  mailboxDelivered : Nat := 0
  mailboxDropped : Nat := 0
deriving DecidableEq

structure PendingCtl where
  sender : String
  recipient : String
  action : Option CtlAction
  /-- `at`. -/
  since : Int
deriving DecidableEq

structure Socket where
  destroyed : Bool := false
  /-- `false` once our side has sent its FIN. -/
  writable : Bool := true
  /-- The `close` event has been delivered. -/
  closed : Bool := false
  /-- Arrived over TCP or TLS, so hello needs the token. -/
  tokenRequired : Bool := false
  /-- The handshake deadline is still armed. -/
  helloTimer : Bool := true
  remoteAddress : Option String := none
deriving DecidableEq

/-- The closures passed to `writeFrame`. -/
inductive WriteCallback (ν : Type) where
  /-- `() => {}`. -/
  | ignore
  /-- `sendTo`: close the record on failure. -/
  | sendTo (peer : PeerRef)
  /-- A mailbox frame sent by `sendTo` at hello; `msg` is the stored message it carries. -/
  | flushed (peer : PeerRef) (msg : StoredMsg ν)
  /-- One copy of a `replyAll` or `replyTargets` fan-out. -/
  | replyCopy (group : Nat) (target : PeerRef)
  /-- One copy of a broadcast. -/
  | broadcastCopy (group : Nat) (target : PeerRef)
  /-- A direct message; `routedTo` is what a capability route tells the sender. -/
  | direct (sender target : PeerRef) (id : String) (interruptStatus routedTo : Option String)
  /-- `routeOnlineOnly`. -/
  | onlineOnly (sender target : PeerRef) (id : String) (silentDrop : Bool)
  | ctl (sender target : PeerRef) (id : String)
  | ctlAck (target : PeerRef)

inductive WriteStatus where
  | pending | ok | failed
deriving DecidableEq, Repr

/-- One call of `writeFrame`. -/
structure Write (ν : Type) where
  socket : SocketId
  frame : Members ν
  callback : WriteCallback ν
  status : WriteStatus

inductive GroupKind where
  | reply | broadcast
deriving DecidableEq, Repr

/-- A fan-out waiting for `Promise.all`. -/
structure Group where
  kind : GroupKind
  sender : PeerRef
  id : String
  total : Nat := 0
  waiting : Nat := 0
  delivered : Nat := 0
  /-- The `then` handler has run. -/
  acked : Bool := false
deriving DecidableEq

namespace Group

/-- `total += 1`. -/
def count (gr : Group) : Group := { gr with total := gr.total + 1 }

/-- A promise more for `Promise.all`. -/
def await (gr : Group) : Group := { gr with waiting := gr.waiting + 1 }

/-- `resolve(true)`. -/
def arrive (gr : Group) : Group :=
  { gr with waiting := gr.waiting - 1, delivered := gr.delivered + 1 }

/-- `resolve(false)`. -/
def fail (gr : Group) : Group := { gr with waiting := gr.waiting - 1 }

/-- The `then` handler runs. -/
def answer (gr : Group) : Group := { gr with acked := true }

end Group

/-- A message that left a mailbox undelivered, as `notifyDropped` found it. -/
structure Drop (ν : Type) where
  msg : StoredMsg ν
  /-- The sender had a live record, so the notice was sent. -/
  notified : Bool

/-- A call of `enqueueMailbox`: the alias, the message, and the fan-out it is a copy of. -/
structure Queued (ν : Type) where
  recipient : String
  msg : StoredMsg ν
  group : Option Nat

structure BrokerState (ν : Type) where
  peers : Map String (PeerRecord ν) := Map.empty
  rooms : Map (RoomKey ν) (Js.Set String) := Map.empty
  mailbox : Map String (List (StoredMsg ν)) := Map.empty
  rates : Map String PeerRates := Map.empty
  knownAliases : Map String Int := Map.empty
  stats : BrokerStats := {}
  pendingCtl : Map String PendingCtl := Map.empty
  leases : LeaseTable
  sockets : Map SocketId Socket := Map.empty
  writes : List (Write ν) := []
  groups : List Group := []
  /-- Every message that was put into a mailbox, in order. -/
  queued : List (Queued ν) := []
  /-- Every message that left one undelivered, in order. -/
  drops : List (Drop ν) := []
  /-- How many ids `makeMsgId` has made. -/
  ids : Nat := 0
  /-- How many objects have been given a `ref`. -/
  refs : Nat := 0

/-- `newBucket`. -/
def newBucket (tokens : ℚ) (now : Int) : TokenBucket := ⟨tokens, now⟩

/-! ### Rate limits -/

inductive RateKind where
  | msg | urgent | force
deriving DecidableEq, Repr

/-- `getRates`, without storing the new entry; `clock` is what `Date.now()` answers. -/
def getRates (rates : Map String PeerRates) (name : String) (limits : RateLimits) (clock : Int) :
    PeerRates :=
  match rates.get? name with
  | some r => r
  | none => ⟨newBucket limits.msgPerMin clock, newBucket limits.urgentPerMin clock,
      newBucket limits.forcePerMin clock⟩

def refill (bucket : TokenBucket) (cap : ℚ) (now : Int) : TokenBucket :=
  if cap ≤ 0 then bucket
  else
    let elapsed := now - bucket.lastRefillAt
    if elapsed ≤ 0 then bucket
    else
      let gained : ℚ := (elapsed : ℚ) / (rateBucketWindowMs : ℚ) * cap
      ⟨min cap (bucket.tokens + gained), now⟩

def TokenBucket.take (b : TokenBucket) : TokenBucket := { b with tokens := b.tokens - 1 }

/-- `checkRate`: whether a token was there, and the buckets afterwards.  An urgent or
forced message takes a message token too. -/
def checkRate (rates : Map String PeerRates) (name : String) (kind : RateKind)
    (limits : RateLimits) (clock now : Int) : Bool × Map String PeerRates :=
  let r := getRates rates name limits clock
  let r : PeerRates := ⟨refill r.msg limits.msgPerMin now, refill r.urgent limits.urgentPerMin now,
    refill r.force limits.forcePerMin now⟩
  match kind with
  | .msg =>
      if r.msg.tokens < 1 then (false, rates.set name r)
      else (true, rates.set name { r with msg := r.msg.take })
  | .urgent =>
      if r.urgent.tokens < 1 ∨ r.msg.tokens < 1 then (false, rates.set name r)
      else (true, rates.set name { r with urgent := r.urgent.take, msg := r.msg.take })
  | .force =>
      if r.force.tokens < 1 ∨ r.msg.tokens < 1 then (false, rates.set name r)
      else (true, rates.set name { r with force := r.force.take, msg := r.msg.take })

/-- The bucket a message of this priority draws on. -/
def rateKind : MeshPriority → RateKind
  | .force => .force
  | .urgent => .urgent
  | .normal => .msg

end PiMesh
