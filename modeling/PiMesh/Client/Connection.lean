/-
Connecting, losing the connection and coming back.

`connect` shares one promise among its callers and clears the flags a `close` has set;
`doConnect` dials and shakes hands; `onSocketClosed` gives up what was in flight and arms a
backoff timer.  The watchdog and the backoff timer both end in `connect`.  `rename` detaches
under the old alias, dials under the new one on its own, and goes back through `connect`
when that fails; `close` sets both flags and ends the socket.
-/
import PiMesh.Client.State

namespace PiMesh

open Js

variable {ν : Type} [Number ν]

/-! ### Dialing -/

/-- The socket of `doConnect`: dropped at once where `close()` came in between. -/
def openSocket (st : ClientState ν) (owner : Owner) : ClientState ν :=
  let k := st.conn
  let sock := k.nextSocket
  if k.userClosed then
    let k := { k with nextSocket := sock + 1,
                      sockets := k.sockets.set sock { owner, settled := true, destroyed := true } }
    (st.setConn k).push [.dialed owner (.error .shuttingDown)]
  else
    st.setConn { k with nextSocket := sock + 1, socket := some sock, helloTimer := some sock,
                        sockets := k.sockets.set sock { owner, helloArmed := true } }

/-- `doConnect`, up to its first `await`. -/
def doConnect (env : ClientEnv) (st : ClientState ν) (owner : Owner) : ClientState ν :=
  match env.dial with
  | .ensure => st.setConn { st.conn with ensuring := st.conn.ensuring ++ [owner] }
  | .direct => openSocket st owner
  | .throws => st.push [.dialed owner (.error .thrown)]

/-- `ensureBroker` returned or threw. -/
def handleEnsured (st : ClientState ν) (owner : Owner) (ok : Bool) : ClientState ν :=
  let st := st.setConn { st.conn with ensuring := st.conn.ensuring.erase owner }
  if ok then openSocket st owner else st.push [.dialed owner (.error .brokerUnavailable)]

/-- The hello, written when the socket is connected. -/
def helloFrame (env : ClientEnv) (now : Int) (st : ClientState ν) : ClientFrame :=
  let observed := st.joinedRooms.elems.filter fun room => st.roomRoles.get? room = some .observer
  { type := .hello, id := env.rt.makeMsgId st.ids, ts := env.rt.toISOString now,
    sender := st.conn.name, rooms := some st.joinedRooms.elems,
    roles := if observed.isEmpty then none else some (observed.map fun room => (room, .observer)),
    reservations := if st.ownReservations.isEmpty then none else some st.ownReservations,
    token := env.brokerToken.map env.rt.sha256, clientVersion := some env.clientVersion,
    caps := some env.caps, proto := some protoVersion }

/-- `connect` of a socket; nothing is written to one whose `end()` was called. -/
def handleConnected (env : ClientEnv) (now : Int) (st : ClientState ν) (sock : ClientSocketId) :
    ClientState ν :=
  let frame := helloFrame env now st
  let ended := (st.conn.sockets.get? sock).any fun s => s.ended
  if !ended && frame.encodes ν env.rt env.maxFrameBytes then
    let k := st.conn.modifySocket sock fun s => { s with hello := some st.conn.name }
    { st.useId with conn := k, sent := st.sent ++ [(sock, frame)] }
  else st.useId

/-- `fail` of a handshake. -/
def failHandshake (st : ClientState ν) (sock : ClientSocketId) (err : ConnectError) :
    ClientState ν :=
  match st.conn.sockets.get? sock with
  | some s =>
      if s.settled then st
      else
        let k := st.conn.clearHelloTimer.modifySocket sock fun s =>
          { s with settled := true, destroyed := true }
        (st.setConn k).push [.dialed s.owner (.error err)]
  | none => st

/-! ### The welcome -/

/-- `applyPeerReservations`. -/
def applyPeerReservations (m : Map String (List (Json ν))) (name : String)
    (reservations : Option (List (Json ν))) : Map String (List (Json ν)) :=
  match reservations with
  | some (r :: rest) => m.set name (r :: rest)
  | _ => m.delete name

/-- What the welcome seeds: reservations, turn states, and the rooms of the others. -/
def seedPeers (st : ClientState ν) (peers : List (MeshPeerInfo ν)) : ClientState ν :=
  let others := peers.filter fun p => p.name ≠ st.conn.name
  let rooms : Map String (Js.Set String) := others.foldl (fun m p =>
    match p.rooms with
    | some rooms => m.set p.name (.ofList rooms)
    | none => m) .empty
  { st with
    peerReservations := peers.foldl (fun m p => applyPeerReservations m p.name p.reservations)
      st.peerReservations
    peerActivity := peers.foldl (fun m p =>
      match p.activity with
      | some state => m.set p.name state
      | none => m) st.peerActivity
    peerRooms := rooms }

/-- A welcome settles the handshake. -/
def acceptWelcome (st : ClientState ν) (sock : ClientSocketId) (owner : Owner)
    (frame : Inbound ν) : ClientState ν :=
  let k := st.conn.clearHelloTimer.modifySocket sock fun s =>
    { s with settled := true, welcomed := true }
  let k := { k with online := true, brokerProto := frame.proto.getD 1, reconnectAttempt := 0 }
  let info : WelcomeInfo ν :=
    { name := k.name, rooms := frame.rooms.getD st.joinedRooms.elems,
      peers := frame.peers.getD [], mailboxCount := frame.mailboxCount.getD 0 }
  (seedPeers (st.setConn k) (frame.peers.getD [])).push [.welcomed owner info]

/-- The rest of `doConnect`: timers, and what waited in the outbox. -/
def handleWelcomed (env : ClientEnv) (st : ClientState ν) (owner : Owner) (info : WelcomeInfo ν) :
    ClientState ν :=
  let st := st.setConn { st.conn with heartbeat := true, watchdog := true }
  match flushOutbox env st with
  | (st, true) => st.push [.dialed owner (.ok info)]
  | (st, false) => st.push [.dialed owner (.error .thrown)]

/-! ### One promise for all callers -/

/-- `connect()`, for one of its callers. -/
def connect (env : ClientEnv) (st : ClientState ν) (w : Waiter) : ClientState ν :=
  let k := st.conn
  if k.online && k.socket.isSome then
    st.push [.connected w ⟨k.name, st.joinedRooms.elems, [], 0⟩]
  else
    let k := { k with intentionallyClosed := false, userClosed := false }
    match k.connecting with
    | some p => st.setConn { k with connecting := some { p with waiters := p.waiters ++ [w] } }
    | none =>
        let attempts :=
          if k.involuntaryClose then aliasRetryAttemptsInvoluntary else aliasRetryAttempts
        doConnect env (st.setConn { k with connecting := some { attempts, waiters := [w] } }) .connect

/-- `doConnectWithAliasFallback` after its `doConnect`. -/
def handleDialed (env : ClientEnv) (st : ClientState ν)
    (r : Except ConnectError (WelcomeInfo ν)) : ClientState ν :=
  match st.conn.connecting with
  | none => st
  | some p =>
      match p.phase, r with
      | .fallback first, r =>
          let st := st.setConn { st.conn with aliasFallbackDone := false }
          match r with
          | .ok info => st.push [.connectDone (.ok info)]
          | .error _ => st.push [.connectDone (.error first)]
      | _, .ok info =>
          let k := { st.conn with aliasFallbackDone := false, involuntaryClose := false }
          (st.setConn k).push [.connectDone (.ok info)]
      | _, .error err =>
          if !err.isAliasTaken then st.push [.connectDone (.error err)]
          else if p.attempt < p.attempts then
            st.setConn { st.conn with connecting := some { p with phase := .sleeping } }
          else
            let k := { st.conn with involuntaryClose := false }
            if env.strictAlias || k.aliasFallbackDone then
              (st.setConn k).push [.connectDone (.error err)]
            else
              let p := { p with phase := .fallback err }
              let k := { k with aliasFallbackDone := true, name := env.freshAlias k.nextAlias,
                                nextAlias := k.nextAlias + 1, connecting := some p }
              doConnect env (st.setConn k) .connect

/-- The alias ladder wakes up. -/
def handleRetry (env : ClientEnv) (st : ClientState ν) : ClientState ν :=
  match st.conn.connecting with
  | some p =>
      if p.phase = .sleeping then
        let p := { p with attempt := p.attempt + 1, phase := .dialing }
        doConnect env (st.setConn { st.conn with connecting := some p }) .connect
      else st
  | none => st

/-- The `finally` of `connect()`, and the reactions it sets off. -/
def handleConnectDone (st : ClientState ν) (r : Except ConnectError (WelcomeInfo ν)) :
    ClientState ν :=
  match st.conn.connecting with
  | none => st
  | some p =>
      let st := st.setConn { st.conn with connecting := none }
      match r with
      | .ok info => st.push (p.waiters.map fun w => .connected w info)
      | .error err => st.push (p.waiters.map fun w => .connectFailed w err)

/-! ### Losing the connection -/

/-- Requests in flight end with an error. -/
def loseRequests (st : ClientState ν) : ClientState ν :=
  let lost : Ack := { code := some (some .internal), status := some "connection_lost" }
  let st := st.push (st.ackWaiters.values.map fun c => .acked c lost)
  let st := st.statusWaiters.values.foldl (fun st c => st.finish c (.snapshot [] [] none)) st
  { st with ackWaiters := .empty, statusWaiters := .empty }

/-- `onSocketClosed`. -/
def onSocketClosed (env : ClientEnv) (st : ClientState ν) (closed : Option ClientSocketId) :
    ClientState ν :=
  if st.conn.connecting.isSome then st
  else if closed.any fun sock => st.conn.socket ≠ some sock then st
  else
    let st := loseRequests (st.setConn
      { st.conn with online := false, socket := none, heartbeat := false })
    let k := st.conn
    if k.intentionallyClosed || env.noReconnect then st
    else
      st.setConn { k with involuntaryClose := true, reconnectAttempt := k.reconnectAttempt + 1,
                          reconnectTimer := some k.nextTimer, armed := k.armed ++ [k.nextTimer],
                          nextTimer := k.nextTimer + 1 }

/-- The backoff timer `t` fires. -/
def handleBackoff (env : ClientEnv) (st : ClientState ν) (t : Nat) : ClientState ν :=
  if t ∈ st.conn.armed then
    connect env (st.setConn { st.conn with armed := st.conn.armed.filter fun t' => t' ≠ t }) .backoff
  else st

/-- A tick of the watchdog kicks `connect()`. -/
def watchdogKicks (env : ClientEnv) (k : Conn) : Bool :=
  k.watchdog && !(k.online || k.connecting.isSome || k.reconnectTimer.isSome ||
    k.intentionallyClosed || env.noReconnect)

def handleWatchdog (env : ClientEnv) (st : ClientState ν) : ClientState ν :=
  if watchdogKicks env st.conn then connect env st .watchdog else st

def handleHeartbeat (env : ClientEnv) (now : Int) (st : ClientState ν) : ClientState ν :=
  if st.conn.heartbeat then
    match st.conn.writable with
    | some sock =>
        let ping : ClientFrame := { type := .ping, id := env.rt.makeMsgId st.ids,
                                    ts := env.rt.toISOString now, sender := st.conn.name }
        { st.useId with sent := st.sent ++ [(sock, ping)] }
    | none => st
  else st

/-! ### Renaming -/

def setRename (st : ClientState ν) (c : CallId) (stage : RenameStage) : ClientState ν :=
  st.setConn { st.conn with renames := st.conn.renames.set c stage }

/-- A rename returns. -/
def finishRename (st : ClientState ν) (c : CallId) (result : CallResult ν) : ClientState ν :=
  let st := st.setConn { st.conn with renames := st.conn.renames.delete c }
  match st.calls.get? c with
  | some .rename => st.finish c result
  | _ => st

/-- Re-hello under the new alias. -/
def renameDial (env : ClientEnv) (st : ClientState ν) (c : CallId) (target old : String) :
    ClientState ν :=
  let st := setRename (st.setConn { st.conn with name := target }) c (.dialing target old 0)
  doConnect env st (.rename c)

/-- Detach the old alias. -/
def renameDetach (env : ClientEnv) (st : ClientState ν) (c : CallId) (target : String) :
    ClientState ν :=
  let old := st.conn.name
  let oldSocket := st.conn.socket.filter st.conn.isAlive
  let k := { st.conn.clearReconnectTimer with intentionallyClosed := true, heartbeat := false }
  let st := (st.setConn k).setPending (st.book.pending.cancelAll .renamed)
  let st := st.setConn { st.conn with socket := none, online := false }
  match oldSocket with
  | some sock =>
      let k := st.conn.modifySocket sock fun s => { s with ended := true }
      setRename (st.setConn k) c (.detaching target old sock)
  | none => renameDial env st c target old

/-- `rename`, up to its first `await`. -/
def startRename (env : ClientEnv) (st : ClientState ν) (c : CallId) (newAlias : String) :
    ClientState ν :=
  let target := normalizeAlias env.rt newAlias
  let st := st.setStage c .rename
  if !isValidAlias target then finishRename st c (.notRenamed none)
  else if target = st.conn.name then finishRename st c (.renamed target true)
  else if !st.conn.online then connect env (setRename st c (.connecting target)) (.call c)
  else renameDetach env st c target

/-- The wait for the old socket is over: its `close` came, or the bound on it. -/
def endDetach (st : ClientState ν) (c : CallId) : ClientState ν :=
  match st.conn.renames.get? c with
  | some (.detaching target old _) => (setRename st c (.detached target old)).push [.detached c]
  | _ => st

def handleDetached (env : ClientEnv) (st : ClientState ν) (c : CallId) : ClientState ν :=
  match st.conn.renames.get? c with
  | some (.detached target old) => renameDial env st c target old
  | _ => st

/-- `rename` after its `doConnect`. -/
def handleRenameDialed (env : ClientEnv) (st : ClientState ν) (c : CallId)
    (r : Except ConnectError (WelcomeInfo ν)) : ClientState ν :=
  match st.conn.renames.get? c with
  | some (.dialing target old attempt) =>
      match r with
      | .ok _ =>
          finishRename (st.setConn { st.conn with intentionallyClosed := false }) c
            (.renamed target false)
      | .error err =>
          if err.isAliasTaken && decide (attempt < aliasRetryAttempts) then
            setRename st c (.sleeping target old attempt)
          else
            let st := st.setConn { st.conn with name := old, intentionallyClosed := true }
            connect env (setRename st c (.restoring old err)) (.call c)
  | _ => st

def handleRenameRetry (env : ClientEnv) (st : ClientState ν) (c : CallId) : ClientState ν :=
  match st.conn.renames.get? c with
  | some (.sleeping target old attempt) =>
      doConnect env (setRename st c (.dialing target old (attempt + 1))) (.rename c)
  | _ => st

/-- `rename` after its `connect()`, which it needs to detach and to go back. -/
def handleRenameConnected (env : ClientEnv) (st : ClientState ν) (c : CallId)
    (r : Except ConnectError (WelcomeInfo ν)) : ClientState ν :=
  match st.conn.renames.get? c, r with
  | some (.connecting target), .ok _ => renameDetach env st c target
  | some (.connecting _), .error _ => finishRename st c (.notRenamed (some .brokerUnavailable))
  | some (.restoring _ err), _ => finishRename st c (.notRenamed (some err))
  | _, _ => st

/-! ### Closing -/

/-- `close`, up to its `await`. -/
def startClose (st : ClientState ν) (c : CallId) : ClientState ν :=
  let k := { st.conn.clearReconnectTimer with
    intentionallyClosed := true, userClosed := true, heartbeat := false, watchdog := false }
  let st := (st.setConn k).setPending (st.book.pending.cancelAll .shuttingDown)
  let alive := st.conn.socket.filter st.conn.isAlive
  let st := st.setConn { st.conn with socket := none, online := false }
  match alive with
  | some sock =>
      let k := st.conn.modifySocket sock fun s => { s with ended := true }
      (st.setConn k).setStage c (.closing sock)
  | none => st.finish c .void

/-- The wait for the socket is over. -/
def endClose (st : ClientState ν) (c : CallId) : ClientState ν :=
  match st.calls.get? c with
  | some (.closing _) => st.push [.closed c]
  | _ => st

def handleClosed (st : ClientState ν) (c : CallId) : ClientState ν :=
  match st.calls.get? c with
  | some (.closing _) => st.finish c .void
  | _ => st

end PiMesh
