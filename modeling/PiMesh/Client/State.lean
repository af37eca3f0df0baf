/-
The state of a client, and what its promises wait for.

A method of `MeshClient` runs until its first `await`; what comes after is a continuation
that runs later, as a microtask.  Here a call that has not returned has a `Stage`: the
point it waits at, with the variables its continuation uses.  When what it waits for is
settled a `Job` is queued, and the queue runs first in, first out.  `Conn` is the part of
the state that is about the connection, `Book` the part about missions; `sent` and
`emitted` are a record of what left the client, which nothing reads.

`connect()` is one promise that several callers share, so `Connecting` lists who waits for
it.  `rename()` dials on its own, beside that promise; how far it is stands in `renames`.
-/
import PiMesh.Client.Pending

namespace PiMesh

open Js

/-- Calls of a method are known by number. -/
abbrev CallId := Nat

/-- Sockets are known by number. -/
abbrev ClientSocketId := Nat

/-- What `doConnect` finds in `brokerUrl`. -/
inductive DialMode where
  /-- No endpoint: `ensureBroker` first. -/
  | ensure
  /-- An endpoint to connect to at once. -/
  | direct
  /-- An endpoint whose certificate cannot be read. -/
  | throws
deriving DecidableEq

/-- The options and the surroundings of a client. -/
structure ClientEnv where
  rt : Runtime
  maxFrameBytes : Nat := defaultMaxFrameBytes
  brokerToken : Option String := none
  caps : List String := []
  /-- `MESH_VERSION`. -/
  clientVersion : String := ""
  projectRoom : Option String := none
  noReconnect : Bool := false
  strictAlias : Bool := false
  dial : DialMode := .ensure
  /-- The aliases `defaultAlias()` returns, in the order of the calls. -/
  freshAlias : Nat → String

/-! ### The connection -/

/-- Who runs `doConnect`. -/
inductive Owner where
  | connect
  | rename (c : CallId)
deriving DecidableEq

/-- Who waits for the promise of `connect()`. -/
inductive Waiter where
  | call (c : CallId)
  /-- The backoff timer, which goes on to `onSocketClosed` on failure. -/
  | backoff
  /-- The watchdog, which ignores the outcome. -/
  | watchdog
deriving DecidableEq

inductive Phase where
  | dialing
  | sleeping
  /-- Under a random alias, after this error. -/
  | fallback (first : ConnectError)
deriving DecidableEq

/-- `doConnectWithAliasFallback` at work. -/
structure Connecting where
  attempts : Nat
  attempt : Nat := 0
  phase : Phase := .dialing
  waiters : List Waiter
deriving DecidableEq

/-- How far a `rename` is. -/
inductive RenameStage where
  /-- Offline: `await this.connect()`. -/
  | connecting (target : String)
  /-- The old socket is to close. -/
  | detaching (target old : String) (sock : ClientSocketId)
  /-- It has, or the wait is over. -/
  | detached (target old : String)
  | dialing (target old : String) (attempt : Nat)
  | sleeping (target old : String) (attempt : Nat)
  /-- Back to the old alias, after this error. -/
  | restoring (old : String) (err : ConnectError)
deriving DecidableEq

structure ClientSocket where
  owner : Owner
  /-- The alias of the hello that was written. -/
  hello : Option String := none
  /-- The handshake is over. -/
  settled : Bool := false
  welcomed : Bool := false
  /-- The handshake deadline is armed. -/
  helloArmed : Bool := false
  /-- `end()` was called. -/
  ended : Bool := false
  destroyed : Bool := false
  /-- The `close` event has been delivered. -/
  closed : Bool := false
deriving DecidableEq

structure Conn where
  /-- `aliasInternal`. -/
  name : String
  socket : Option ClientSocketId := none
  online : Bool := false
  brokerProto : Int := 1
  intentionallyClosed : Bool := false
  userClosed : Bool := false
  aliasFallbackDone : Bool := false
  connecting : Option Connecting := none
  reconnectAttempt : Nat := 0
  /-- The handle of the last backoff timer; it stays after the timer has fired. -/
  reconnectTimer : Option Nat := none
  /-- The backoff timers that have neither fired nor been cleared. -/
  armed : List Nat := []
  involuntaryClose : Bool := false
  heartbeat : Bool := false
  watchdog : Bool := false
  /-- The socket whose deadline `this.helloTimer` is. -/
  helloTimer : Option ClientSocketId := none
  sockets : Map ClientSocketId ClientSocket := .empty
  /-- The `doConnect` calls that wait for `ensureBroker`. -/
  ensuring : List Owner := []
  renames : Map CallId RenameStage := .empty
  nextSocket : Nat := 0
  nextTimer : Nat := 0
  nextAlias : Nat := 0

namespace Conn

/-- `!socket.destroyed`. -/
def isAlive (k : Conn) (sock : ClientSocketId) : Bool :=
  (k.sockets.get? sock).any fun s => !s.destroyed

/-- The socket a frame can be written to. -/
def writable (k : Conn) : Option ClientSocketId :=
  if k.online then k.socket.filter k.isAlive else none

def modifySocket (k : Conn) (sock : ClientSocketId) (f : ClientSocket → ClientSocket) : Conn :=
  match k.sockets.get? sock with
  | some s => { k with sockets := k.sockets.set sock (f s) }
  | none => k

/-- `clearTimeout(this.helloTimer)`. -/
def clearHelloTimer (k : Conn) : Conn :=
  match k.helloTimer with
  | some sock => k.modifySocket sock fun s => { s with helloArmed := false }
  | none => k

/-- `clearTimeout(this.reconnectTimer); this.reconnectTimer = null`. -/
def clearReconnectTimer (k : Conn) : Conn :=
  match k.reconnectTimer with
  | some t => { k with armed := k.armed.filter fun t' => t' ≠ t, reconnectTimer := none }
  | none => k

end Conn

/-! ### Calls -/

/-- A `send` that passed its checks. -/
structure SendPlan where
  /-- `to`. -/
  recipient : Option String
  room : String
  message : String
  priority : MeshPriority := .normal
  reason : Option String := none
  awaitReply : Bool := false
  launch : Bool := false
  timeoutMs : Int := defaultAwaitReplyTimeoutMs
  refs : Option (List String) := none
  taskPackage : Option MeshTaskPackage := none
  broadcast : Bool := false
  replyTargets : Option (List String) := none
  interrupt : Bool := false
  /-- The caller passed an `AbortSignal`. -/
  signal : Bool := false
deriving DecidableEq

/-- A `reply` that passed its checks, with what it read of the original message. -/
structure ReplyPlan where
  msgId : String
  body : String
  refs : Option (List String) := none
  /-- `to`. -/
  recipient : Option String := none
  replyAll : Bool := false
  receipt : Bool := false
  room : Option String := none
  designated : Option (List String) := none
  /-- `original.from`. -/
  sender : Option String := none
deriving DecidableEq

/-- What a round trip is for. -/
inductive TripUse where
  | reserve (merged : List FileReservation)
  | release (merged : List FileReservation) (releasing : List String)
  | join (room : String) (role : MeshRole)
  | leave (room : String)
deriving DecidableEq

/-- Where a call waits. -/
inductive Stage where
  | connect
  | sendConnect (plan : SendPlan)
  | sendAck (plan : SendPlan) (id : String)
  | sendReply (plan : SendPlan) (id : String)
  | replyConnect (plan : ReplyPlan)
  | replyAck (id : String)
  | reserveConnect (patterns : List String) (reason : Option String)
  | releaseConnect (merged : List FileReservation) (releasing : List String)
  | tripConnect (use : TripUse) (frame : ClientFrame)
  | tripAck (use : TripUse) (id : String)
  | status (id : String)
  | rename
  | closing (sock : ClientSocketId)
  | waitAll (start deadline : Int) (targets : List String) (signal : Bool)
deriving DecidableEq

inductive SendResult where
  | delivered (msgId : String) (deliveredCount totalCount : Option Int)
      (routedTo room : Option String)
  | queuedOffline (msgId : String) (deliveredCount totalCount : Option Int)
      (routedTo room : Option String)
  | reply (msgId response outputHash : String)
  | expired (msgId : String)
  | blocked (msgId : Option String) (reason : String)
  | error (msgId : Option String) (reason : String)
deriving DecidableEq

structure WelcomeInfo (ν : Type) where
  name : String
  rooms : List String
  peers : List (MeshPeerInfo ν)
  mailboxCount : Int

structure LastInbound where
  msgId : String
  /-- `at`. -/
  ts : String
  type : MeshFrameType
deriving DecidableEq

inductive WaitAllStatus where
  | complete | timeout | cancelled
deriving DecidableEq

structure MissingAnswer where
  msgId : String
  /-- `to`. -/
  recipient : String
  lastActivity : Option LastInbound
deriving DecidableEq

structure WaitAllSummary where
  status : WaitAllStatus
  total : Nat
  answered : Nat
  elapsedMs : Int
  missing : List MissingAnswer
  /-- Message, recipient, response. -/
  answers : List (String × String × String)
deriving DecidableEq

/-- What a promise is rejected with. -/
inductive Rejection where
  | connect (err : ConnectError)
  | code (code : MeshErrorCode)
  | frameSize
deriving DecidableEq

inductive CallResult (ν : Type) where
  | welcome (info : WelcomeInfo ν)
  | send (result : SendResult)
  | released (released : List String) (result : SendResult)
  | void
  | snapshot (peers : List (MeshPeerInfo ν)) (rooms : List String) (stats : Option (Json ν))
  | renamed (name : String) (unchanged : Bool)
  /-- `invalid_alias`, or why no connection could be made. -/
  | notRenamed (err : Option ConnectError)
  | verdict (summary : WaitAllSummary)
  | rejected (reason : Rejection)

/-! ### Missions -/

inductive MissionStatus where
  | waiting | answered | expired | failed
deriving DecidableEq

structure Mission where
  /-- `to`. -/
  recipient : String
  room : String
  status : MissionStatus := .waiting
  answered : Bool := false
  response : Option String := none
  /-- `at`. -/
  ts : Option String := none
  sentAt : Int
deriving DecidableEq

/-- Who awaits the promise of an entry. -/
inductive Watcher where
  | call (c : CallId)
  /-- The `then` of a launched mission. -/
  | launch
deriving DecidableEq

structure Book (ν : Type) where
  pending : PendingReplies := {}
  /-- Recipient and room. -/
  awaitTargets : Map String (String × String) := .empty
  awaitedMissions : Map String Mission := .empty
  watchers : Map String Watcher := .empty
  /-- Promises that were resolved before anyone awaited them. -/
  settled : Map String (Resolution ν) := .empty
  handledReplyTargets : Map String Int := .empty
  reportedMissions : Js.Set String := .empty
  waitAllInFlight : Nat := 0
  lastInboundFrom : Map String LastInbound := .empty

/-! ### The client -/

/-- Microtasks. -/
inductive Job (ν : Type) where
  /-- An acknowledgement for the call that awaits it. -/
  | acked (c : CallId) (ack : Ack)
  | resolved (w : Watcher) (id : String) (r : Resolution ν)
  /-- The promise of `connect()`, for one of those who wait for it. -/
  | connected (w : Waiter) (info : WelcomeInfo ν)
  | connectFailed (w : Waiter) (err : ConnectError)
  /-- The rest of `doConnect`, after the welcome. -/
  | welcomed (owner : Owner) (info : WelcomeInfo ν)
  /-- `doConnect` returned or threw. -/
  | dialed (owner : Owner) (r : Except ConnectError (WelcomeInfo ν))
  /-- The `finally` of `connect()`. -/
  | connectDone (r : Except ConnectError (WelcomeInfo ν))
  /-- The wait of `rename` for its old socket is over. -/
  | detached (c : CallId)
  /-- The wait of `close` for its socket is over. -/
  | closed (c : CallId)

/-- The events listeners act on; `matchedReply` is how an answer was injected. -/
inductive Emit (ν : Type) where
  | inbound (frame : Inbound ν) (matchedReply : Option Bool)
  | reply (frame : Inbound ν)
  | expired (msgId : String)
  | droppedOffline (msgId : String)

structure ClientState (ν : Type) where
  conn : Conn
  book : Book ν := {}
  joinedRooms : Js.Set String
  roomRoles : Map String MeshRole
  ownReservations : List FileReservation := []
  peerReservations : Map String (List (Json ν)) := .empty
  peerRooms : Map String (Js.Set String) := .empty
  peerActivity : Map String TurnState := .empty
  inbox : Map String (Inbound ν) := .empty
  ackWaiters : Map String CallId := .empty
  statusWaiters : Map String CallId := .empty
  outbox : List ClientFrame := []
  calls : Map CallId Stage := .empty
  results : Map CallId (CallResult ν) := .empty
  /-- The signals that were aborted. -/
  aborted : Js.Set CallId := .empty
  jobs : List (Job ν) := []
  /-- The socket whose chunk is being read, while lines of it may still come. -/
  reading : Option ClientSocketId := none
  /-- How many ids `makeMsgId` has made. -/
  ids : Nat := 0
  sent : List (ClientSocketId × ClientFrame) := []
  emitted : List (Emit ν) := []

namespace ClientState

variable {ν : Type}

def push (st : ClientState ν) (jobs : List (Job ν)) : ClientState ν :=
  { st with jobs := st.jobs ++ jobs }

def setConn (st : ClientState ν) (conn : Conn) : ClientState ν := { st with conn }

def setStage (st : ClientState ν) (c : CallId) (stage : Stage) : ClientState ν :=
  { st with calls := st.calls.set c stage }

/-- A call returns; a promise that is settled stays as it is. -/
def finish (st : ClientState ν) (c : CallId) (result : CallResult ν) : ClientState ν :=
  { st with calls := st.calls.delete c
            results := if st.results.has c then st.results else st.results.set c result }

def emit (st : ClientState ν) (e : Emit ν) : ClientState ν :=
  { st with emitted := st.emitted ++ [e] }

/-- A promise of `PendingReplies` is resolved. -/
def settle (st : ClientState ν) (id : String) (r : Resolution ν) : ClientState ν :=
  match st.book.watchers.get? id with
  | some w => st.push [.resolved w id r]
  | none => { st with book := { st.book with settled := st.book.settled.set id r } }

/-- The outcome of an operation of `PendingReplies`. -/
def setPending (st : ClientState ν) (r : PendingReplies × Resolved ν) : ClientState ν :=
  r.2.foldl (fun st e => st.settle e.1 e.2) { st with book := { st.book with pending := r.1 } }

/-- `await pendingPromise`. -/
def watch (st : ClientState ν) (id : String) (w : Watcher) : ClientState ν :=
  let st := { st with book := { st.book with watchers := st.book.watchers.set id w } }
  match st.book.settled.get? id with
  | some r => st.push [.resolved w id r]
  | none => st

def setMission (st : ClientState ν) (id : String) (f : Mission → Mission) : ClientState ν :=
  match st.book.awaitedMissions.get? id with
  | some m =>
      let missions := st.book.awaitedMissions.set id (f m)
      { st with book := { st.book with awaitedMissions := missions } }
  | none => st

def dropMission (st : ClientState ν) (id : String) : ClientState ν :=
  let missions := st.book.awaitedMissions.delete id
  { st with book := { st.book with awaitedMissions := missions } }

def dropTarget (st : ClientState ν) (id : String) : ClientState ν :=
  { st with book := { st.book with awaitTargets := st.book.awaitTargets.delete id } }

/-- Take the next id. -/
def useId (st : ClientState ν) : ClientState ν := { st with ids := st.ids + 1 }

end ClientState

/-- Drop the oldest entries down to a bound. -/
def pruneMap {κ α : Type} [DecidableEq κ] (cap : Nat) (m : Map κ α) : Map κ α :=
  (m.keys.take (m.size - cap)).foldl Map.delete m

/-! ### Writing -/

section Writing

variable {ν : Type} [Number ν]

/-- `writeOrQueue`; nothing where `encodeFrame` throws. -/
def writeOrQueue (env : ClientEnv) (st : ClientState ν) (frame : ClientFrame) :
    Option (ClientState ν) :=
  match st.conn.writable with
  | some sock =>
      if frame.encodes ν env.rt env.maxFrameBytes then
        some { st with sent := st.sent ++ [(sock, frame)] }
      else none
  | none =>
      if st.outbox.length < outboxFlushCap then some { st with outbox := st.outbox ++ [frame] }
      else some st

/-- The loop of `flushOutbox`; the flag says that `encodeFrame` did not throw. -/
def flushFrames (env : ClientEnv) : Nat → ClientState ν → ClientState ν × Bool
  | 0, st => (st, true)
  | n + 1, st =>
      match st.outbox with
      | [] => (st, true)
      | frame :: rest =>
          let st := { st with outbox := rest }
          match st.conn.socket.filter st.conn.isAlive with
          | some sock =>
              if frame.encodes ν env.rt env.maxFrameBytes then
                flushFrames env n { st with sent := st.sent ++ [(sock, frame)] }
              else (st, false)
          | none => flushFrames env n st

/-- `flushOutbox`. -/
def flushOutbox (env : ClientEnv) (st : ClientState ν) : ClientState ν × Bool :=
  flushFrames env (min st.outbox.length outboxFlushCap) st

end Writing

end PiMesh
