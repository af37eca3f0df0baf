/-
What drives a client.

A step is a call of the host, an event of a socket, a timer that fires, or the first of
the queued microtasks.  Timers and sockets wait until the queue is empty.  The host may
call at any time: its own continuations are microtasks, and its listeners run inside the
handlers.  The lines of one chunk are handled one after the other before any microtask, so
a line may follow a line of the same socket while jobs are queued.

A timer may fire at any time while it is armed.  An event that cannot occur in a state
leaves it alone.
-/
import PiMesh.Client.OnFrame

namespace PiMesh

open Js

variable {ν : Type} [Number ν]

/-- The methods of a client. -/
inductive Op where
  | connect
  | send (opts : SendOpts)
  | reply (msgId body : String) (opts : ReplyOpts)
  | reserve (patterns : List String) (reason : Option String)
  | release (patterns : Option (List String))
  | join (room : String) (role : MeshRole)
  | leave (room : String)
  | status (room : Option String)
  | rename (newAlias : String)
  | close
  | waitAll (timeoutMs : Int) (signal : Bool)
  | cancelAllAwaited
  | forgetRoom (room : String)
  | sendActivity (state : String)
  | sendRead (msgId recipient : String)
deriving DecidableEq

inductive ClientEvent (ν : Type) where
  /-- The host calls a method; the number is new. -/
  | call (c : CallId) (op : Op)
  /-- The host aborts the signal it passed to a call. -/
  | abort (c : CallId)
  | microtask
  /-- `ensureBroker` is done for one of those who wait for it. -/
  | ensured (owner : Owner) (ok : Bool)
  /-- `connect` of a socket. -/
  | connected (sock : ClientSocketId)
  /-- An accepted line. -/
  | line (sock : ClientSocketId) (frame : Inbound ν)
  /-- `FrameDecoder.push` threw. -/
  | oversized (sock : ClientSocketId)
  | helloTimeout (sock : ClientSocketId)
  /-- `error` of a socket, which destroys it. -/
  | failed (sock : ClientSocketId)
  /-- `close` of a socket. -/
  | closed (sock : ClientSocketId)
  | backoff (timer : Nat)
  /-- The alias ladder of `connect()` wakes up. -/
  | retry
  | renameRetry (c : CallId)
  /-- The bound on the wait of `rename` or `close` for a socket. -/
  | endTimeout (c : CallId)
  | watchdog
  | heartbeat
  | ackTimeout (id : String)
  | statusTimeout (id : String)
  /-- The deadline of a mission. -/
  | expire (id : String)
  | remind (id : String)
  /-- The next look of a `waitAll`. -/
  | tick (c : CallId)

/-! ### Calls and continuations -/

def handleCall (env : ClientEnv) (now : Int) (st : ClientState ν) (c : CallId) : Op → ClientState ν
  | .connect => connect env (st.setStage c .connect) (.call c)
  | .send opts => startSend env now st c opts
  | .reply msgId body opts => startReply env now st c msgId body opts
  | .reserve patterns reason => startReserve env now st c patterns reason
  | .release patterns => startRelease env now st c patterns
  | .join room role => startJoin env now st c room role
  | .leave room => startLeave env now st c room
  | .status room => startStatus env now st c room
  | .rename newAlias => startRename env st c newAlias
  | .close => startClose st c
  | .waitAll timeoutMs signal => startWaitAll env now st c timeoutMs signal
  | .cancelAllAwaited => (cancelAllAwaited st).finish c .void
  | .forgetRoom room => (forgetRoom st room).finish c .void
  | .sendActivity state => (sendActivity env now st state).finish c .void
  | .sendRead msgId recipient => (sendRead env now st msgId recipient).finish c .void

/-- A call goes on once it is connected. -/
def handleCallConnected (env : ClientEnv) (now : Int) (st : ClientState ν) (c : CallId)
    (info : WelcomeInfo ν) : ClientState ν :=
  match st.calls.get? c with
  | some .connect => st.finish c (.welcome info)
  | some (.sendConnect plan) => issueSend env now st c plan
  | some (.replyConnect plan) => issueReply env now st c plan
  | some (.reserveConnect patterns reason) => issueReserve env now st c patterns reason
  | some (.releaseConnect merged releasing) => issueRelease env now st c merged releasing
  | some (.tripConnect use frame) => sendTrip env st c use frame
  | some .rename => handleRenameConnected env st c (.ok info)
  | _ => st

/-- A call could not be connected. -/
def handleCallRefused (env : ClientEnv) (st : ClientState ν) (c : CallId) (err : ConnectError) :
    ClientState ν :=
  match st.calls.get? c with
  | some .connect => st.finish c (.rejected (.connect err))
  | some (.sendConnect _) => st.finish c (.send (.blocked none "broker_unavailable"))
  | some (.replyConnect plan) =>
      st.finish c (.send (.blocked (some plan.msgId) "broker_unavailable"))
  | some (.reserveConnect _ _) => st.finish c (.send (.blocked none "broker_unavailable"))
  | some (.releaseConnect _ _) => st.finish c (.released [] (.blocked none "broker_unavailable"))
  | some (.tripConnect use frame) =>
      (st.setStage c (.tripAck use frame.id)).push [.acked c (.failed (tripCode err))]
  | some .rename => handleRenameConnected env st c (.error err)
  | _ => st

def handleAcked (st : ClientState ν) (c : CallId) (ack : Ack) : ClientState ν :=
  match st.calls.get? c with
  | some (.sendAck plan id) => sendAcked st c plan id ack
  | some (.replyAck id) => replyAcked st c id ack
  | some (.tripAck use id) => tripAcked st c use id ack
  | _ => st

def handleResolved (st : ClientState ν) (w : Watcher) (id : String) (r : Resolution ν) :
    ClientState ν :=
  match w with
  | .launch => launchResolved st id r
  | .call c =>
      match st.calls.get? c with
      | some (.sendReply _ _) => sendResolved st c id r
      | _ => st

/-- One microtask. -/
def handleJob (env : ClientEnv) (now : Int) (st : ClientState ν) : Job ν → ClientState ν
  | .acked c ack => handleAcked st c ack
  | .resolved w id r => handleResolved st w id r
  | .connected (.call c) info => handleCallConnected env now st c info
  | .connected _ _ => st
  | .connectFailed (.call c) err => handleCallRefused env st c err
  | .connectFailed .backoff _ => onSocketClosed env st none
  | .connectFailed .watchdog _ => st
  | .welcomed owner info => handleWelcomed env st owner info
  | .dialed .connect r => handleDialed env st r
  | .dialed (.rename c) r => handleRenameDialed env st c r
  | .connectDone r => handleConnectDone st r
  | .detached c => handleDetached env st c
  | .closed c => handleClosed st c

def handleMicrotask (env : ClientEnv) (now : Int) (st : ClientState ν) : ClientState ν :=
  match st.jobs with
  | [] => st
  | job :: rest => handleJob env now { st with jobs := rest, reading := none } job

/-- The host aborts a signal. -/
def handleAbort (env : ClientEnv) (now : Int) (st : ClientState ν) (c : CallId) : ClientState ν :=
  let st := { st with aborted := st.aborted.add c }
  match st.calls.get? c with
  | some (.sendReply plan id) =>
      if plan.signal then st.setPending (st.book.pending.cancel id .cancelled) else st
  | some (.waitAll start _ targets true) => endWaitAll env now st c start targets .cancelled
  | _ => st

/-! ### Sockets and timers -/

/-- A line: part of the handshake, or a frame. -/
def handleClientLine (env : ClientEnv) (now : Int) (st : ClientState ν) (sock : ClientSocketId)
    (frame : Inbound ν) : ClientState ν :=
  match st.conn.sockets.get? sock with
  | some s =>
      if s.closed || (s.destroyed && st.reading ≠ some sock) ||
          (!st.jobs.isEmpty && st.reading ≠ some sock) then st
      else
        let st := { st with reading := some sock }
        if s.settled then onFrame env now st frame
        else if frame.type = .welcome then acceptWelcome st sock s.owner frame
        else if frame.type = .error then
          failHandshake st sock (.refused (frame.code.getD .internal))
        else st
  | none => st

/-- A line of this socket reaches `onFrame`. -/
def ClientState.listens (st : ClientState ν) (sock : ClientSocketId) : Bool :=
  (st.conn.sockets.get? sock).any fun s =>
    !(s.closed || (s.destroyed && st.reading ≠ some sock) ||
      (!st.jobs.isEmpty && st.reading ≠ some sock)) && s.settled

/-- The calls that wait for a socket to close. -/
def waitsFor (st : ClientState ν) (sock : ClientSocketId) : List CallId :=
  (st.conn.renames.entries.filterMap fun e =>
      match e.2 with
      | .detaching _ _ s => if s = sock then some e.1 else none
      | _ => none) ++
    st.calls.entries.filterMap fun e =>
      match e.2 with
      | .closing s => if s = sock then some e.1 else none
      | _ => none

/-- The wait of a `rename` or a `close` for its socket is over. -/
def endWait (st : ClientState ν) (c : CallId) : ClientState ν := endClose (endDetach st c) c

/-- The listeners of `close`: the handshake's, the client's, and those who wait for it. -/
def handleSocketClose (env : ClientEnv) (st : ClientState ν) (sock : ClientSocketId) :
    ClientState ν :=
  match st.conn.sockets.get? sock with
  | some s =>
      if s.closed then st
      else
        let st := st.setConn (st.conn.modifySocket sock fun s =>
          { s with destroyed := true, closed := true })
        let st := failHandshake st sock .brokerUnavailable
        let st := if s.welcomed then onSocketClosed env st (some sock) else st
        (waitsFor st sock).foldl endWait st
  | none => st

def handleSocketError (st : ClientState ν) (sock : ClientSocketId) : ClientState ν :=
  match st.conn.sockets.get? sock with
  | some s =>
      if s.destroyed then st
      else
        let st := failHandshake st sock .brokerUnavailable
        st.setConn (st.conn.modifySocket sock fun s => { s with destroyed := true })
  | none => st

def handleHelloTimeout (st : ClientState ν) (sock : ClientSocketId) : ClientState ν :=
  match st.conn.sockets.get? sock with
  | some s =>
      if s.helloArmed then
        let st := st.setConn (st.conn.modifySocket sock fun s => { s with helloArmed := false })
        failHandshake st sock .helloTimeout
      else st
  | none => st

def handleAckTimeout (st : ClientState ν) (id : String) : ClientState ν :=
  match st.ackWaiters.get? id with
  | some c =>
      { st with ackWaiters := st.ackWaiters.delete id }.push [.acked c (.failed .timeout)]
  | none => st

def handleStatusTimeout (st : ClientState ν) (id : String) : ClientState ν :=
  match st.statusWaiters.get? id with
  | some c =>
      { st with statusWaiters := st.statusWaiters.delete id }.finish c (.snapshot [] [] none)
  | none => st

def handleRemind (env : ClientEnv) (now : Int) (st : ClientState ν) (id : String) :
    ClientState ν :=
  let (pending, reminds) := st.book.pending.remind id
  let st := { st with book := { st.book with pending } }
  if reminds then sendRemind env now st id else st

def handleTick (env : ClientEnv) (now : Int) (st : ClientState ν) (c : CallId) : ClientState ν :=
  match st.calls.get? c with
  | some (.waitAll start deadline targets signal) =>
      tickWaitAll env now st c start deadline targets signal
  | _ => st

/-- The events that wait until no microtask is queued. -/
def handleTurn (env : ClientEnv) (now : Int) (st : ClientState ν) : ClientEvent ν → ClientState ν
  | .ensured owner ok => if owner ∈ st.conn.ensuring then handleEnsured st owner ok else st
  | .connected sock =>
      if (st.conn.sockets.get? sock).any fun s => !s.destroyed && s.hello.isNone && !s.settled then
        handleConnected env now st sock
      else st
  | .oversized sock => failHandshake st sock .oversized
  | .helloTimeout sock => handleHelloTimeout st sock
  | .failed sock => handleSocketError st sock
  | .closed sock => handleSocketClose env st sock
  | .backoff t => handleBackoff env st t
  | .retry => handleRetry env st
  | .renameRetry c => handleRenameRetry env st c
  | .endTimeout c => endWait st c
  | .watchdog => handleWatchdog env st
  | .heartbeat => handleHeartbeat env now st
  | .ackTimeout id => handleAckTimeout st id
  | .statusTimeout id => handleStatusTimeout st id
  | .expire id => st.setPending (st.book.pending.expire id)
  | .remind id => handleRemind env now st id
  | .tick c => handleTick env now st c
  | _ => st

/-! ### Steps -/

/-- The number of a call has not been used. -/
def isNewCall (st : ClientState ν) (c : CallId) : Bool :=
  !st.calls.has c && !st.results.has c && !st.conn.renames.has c

/-- The state after an event at time `now`. -/
def clientStep (env : ClientEnv) (now : Int) (st : ClientState ν) (e : ClientEvent ν) :
    ClientState ν :=
  match e with
  | .call c op => if isNewCall st c then handleCall env now st c op else st
  | .abort c => handleAbort env now st c
  | .microtask => handleMicrotask env now st
  | .line sock frame => handleClientLine env now st sock frame
  | e => if st.jobs.isEmpty then handleTurn env now { st with reading := none } e else st

/-- A new client. -/
def ClientState.init (name : String) (rooms : List String) (reservations : List FileReservation) :
    ClientState ν :=
  { conn := { name }, joinedRooms := .ofList rooms,
    roomRoles := rooms.foldl (fun m room => m.set room .member) .empty,
    ownReservations := reservations }

/-- A labelled step of a client. -/
def ClientStep (env : ClientEnv) (st : ClientState ν) (e : Int × ClientEvent ν)
    (st' : ClientState ν) : Prop :=
  clientStep env e.1 st e.2 = st'

end PiMesh
