/-
What drives the broker.

`serverHandler` and the two timers of `createBroker` react to events: a connection, a
line the decoder cut off, the end of a stream, a write that settled, a tick.  Each
event carries the reading of the clock its handler sees.  Between two events anything
may happen, so a run is any list of events.

A chunk with several lines is several `line` events in a row; the `data` handler goes
on with the rest of a chunk after it destroyed the socket, so a line may still arrive
on a destroyed socket, until its `close`.  An event that cannot occur in a state (a
write that has settled already, a socket that was never opened) leaves it alone.
-/
import PiMesh.Broker.Broker

namespace PiMesh

open Js

variable {ν : Type} [Number ν] [DecidableEq ν]

open BrokerState

inductive Event where
  | connect (sock : SocketId) (tokenRequired : Bool) (remoteAddress : Option String)
  /-- A complete line, without its newline. -/
  | line (sock : SocketId) (text : List Char)
  /-- `FrameDecoder.push` threw. -/
  | oversized (sock : SocketId)
  /-- The handshake deadline. -/
  | helloTimeout (sock : SocketId)
  /-- `end`: the peer's FIN, which the broker answers with its own. -/
  | halfClosed (sock : SocketId)
  /-- The runtime destroyed the socket, after an error or a reset. -/
  | lost (sock : SocketId)
  | close (sock : SocketId)
  /-- The callback of `socket.write` for the write number `i`. -/
  | written (i : Nat) (ok : Bool)
  /-- The bound on the write number `i`. -/
  | writeTimeout (i : Nat)
  /-- `Promise.all` of the fan-out number `g` resolved. -/
  | settled (g : Nat)
  | sweep
  | purge
deriving DecidableEq

namespace BrokerState

/-- Change a socket that was opened. -/
def modifySocket (st : BrokerState ν) (sock : SocketId) (f : Socket → Socket) : BrokerState ν :=
  match st.sockets.get? sock with
  | some s => { st with sockets := st.sockets.set sock (f s) }
  | none => st

/-- The socket was opened and its `close` has not been delivered. -/
def isConnected (st : BrokerState ν) (sock : SocketId) : Bool :=
  match st.sockets.get? sock with
  | some s => !s.closed
  | none => false

/-- `clearTimeout(helloTimer)`. -/
def clearTimer (st : BrokerState ν) (sock : SocketId) : BrokerState ν :=
  st.modifySocket sock fun s => { s with helloTimer := false }

/-- How write `i` ended. -/
def settleWrite (st : BrokerState ν) (i : Nat) (status : WriteStatus) : BrokerState ν :=
  { st with writes := st.writes.modify i fun w => { w with status } }

end BrokerState

/-! ### A line -/

/-- An accepted frame: dispatch it, then disarm the deadline once the handshake is done. -/
def handleFrame (env : Env) (now : Int) (st : BrokerState ν) (sock : SocketId)
    (frame : MeshFrame ν) : Except JsError (BrokerState ν) := do
  let st ← dispatch env now st sock frame
  if (authed st sock frame).isSome || frame.type = .hello then .ok (st.clearTimer sock) else .ok st

/-- The body of the loop over the lines of a chunk. -/
def handleLine (env : Env) (now : Int) (st : BrokerState ν) (sock : SocketId) (text : List Char) :
    Except JsError (BrokerState ν) :=
  match parseFrameLine env.rt text with
  | .error r => .ok (sendError env now st sock r.code none)
  | .ok ms => do
      let frame ← castFrame ms
      handleFrame env now st sock frame

/-! ### Sockets -/

/-- The `close` handler. -/
def handleClose (env : Env) (now : Int) (st : BrokerState ν) (sock : SocketId) : BrokerState ν :=
  let gone := st.peers.values.filter fun p => p.socket = sock
  gone.foldl (fun st p => closePeer env now st p.name)
    (st.modifySocket sock fun s => { s with destroyed := true, closed := true, helloTimer := false })

/-- A write settled: note how, and run its callback. -/
def handleWritten (env : Env) (now : Int) (st : BrokerState ν) (i : Nat) (ok : Bool) :
    BrokerState ν :=
  match st.writes[i]? with
  | some w =>
      if w.status = .pending then
        runCallback env now (st.settleWrite i (if ok then .ok else .failed)) w.frame ok w.callback
      else st
  | none => st

/-- The bound on a write expired: the socket goes first. -/
def handleWriteTimeout (env : Env) (now : Int) (st : BrokerState ν) (i : Nat) : BrokerState ν :=
  match st.writes[i]? with
  | some w =>
      if w.status = .pending then handleWritten env now (st.destroy w.socket) i false else st
  | none => st

/-- The `then` of a fan-out. -/
def handleSettled (env : Env) (now : Int) (st : BrokerState ν) (g : Nat) : BrokerState ν :=
  match st.groups[g]? with
  | some gr =>
      if gr.waiting = 0 ∧ gr.acked = false then
        let st := st.modifyGroup g Group.answer
        match gr.kind with
        | .reply =>
            if gr.delivered > 0 then
              sendAck env now st gr.sender gr.id .delivered none (some gr.delivered) (some gr.total)
            else sendAck env now st gr.sender gr.id .droppedOffline
        | .broadcast =>
            sendAck env now (st.addRelayed gr.delivered) gr.sender gr.id
              (if gr.delivered > 0 then .delivered else .queuedOffline) none
              (some gr.delivered) (some gr.total)
      else st
  | none => st

/-! ### Timers -/

def maxAliasAgeMs : Int := 86400000

/-- `pruneStaleKnownAliases`. -/
def pruneStaleKnownAliases (now : Int) (st : BrokerState ν) : BrokerState ν :=
  let stale := (st.knownAliases.entries.filter fun e =>
    !st.peers.has e.1 && !st.mailbox.has e.1 && decide (now - e.2 > maxAliasAgeMs)).map Prod.fst
  { st with knownAliases := stale.foldl Map.delete st.knownAliases }

/-- A reservation the sweep keeps: no date, no readable date, or a recent one. -/
def isCurrentReservation (env : Env) (now : Int) : Json ν → Bool
  | .obj r =>
      match (getOf r "since").bind asStr with
      | none => true
      | some since =>
          match env.rt.dateParse since with
          | none => true
          | some t => now - t ≤ env.cfg.reservationTtlMs
  | _ => true

/-- Expire the reservations of one peer, and tell the others. -/
def expireReservations (env : Env) (now : Int) (st : BrokerState ν) (peer : PeerRecord ν) :
    BrokerState ν :=
  let kept := peer.reservations.filter (isCurrentReservation env now)
  let st := if st.isCurrent peer.toRef then st.updatePeer { peer with reservations := kept } else st
  if kept.length < peer.reservations.length then broadcastReservations env now st peer.name kept
  else st

/-- The sweep: silent sockets, stale aliases, old reservations. -/
def handleSweep (env : Env) (now : Int) (st : BrokerState ν) : BrokerState ν :=
  let silent := st.peers.values.filter fun p =>
    p.helloDone && decide (now - p.lastSeenAt > env.cfg.brokerSilenceMs)
  let st := silent.foldl (fun st p => st.destroy p.socket) st
  let st := pruneStaleKnownAliases now st
  if env.cfg.reservationTtlMs > 0 then
    st.peers.values.foldl (expireReservations env now) st
  else st

/-- `purgeMailboxExpired`. -/
def handlePurge (env : Env) (now : Int) (st : BrokerState ν) : BrokerState ν :=
  let (dropped, mail) := purgeAllExpired st.mail env.cfg now
  notifyDropped env now (st.setMail mail) dropped

/-! ### Steps and runs -/

/-- The state after an event at time `now`; an exception has none. -/
def step (env : Env) (now : Int) (st : BrokerState ν) : Event → Except JsError (BrokerState ν)
  | .connect sock tokenRequired remoteAddress =>
      if st.sockets.has sock then .ok st
      else .ok { st with sockets := st.sockets.set sock { tokenRequired, remoteAddress } }
  | .line sock text =>
      if st.isConnected sock then handleLine env now st sock text else .ok st
  | .oversized sock =>
      if st.isConnected sock then .ok ((sendError env now st sock .oversized none).destroy sock)
      else .ok st
  | .helloTimeout sock =>
      if (st.sockets.get? sock).any fun s => s.helloTimer then
        .ok ((sendError env now (st.clearTimer sock) sock .timeout none).destroy sock)
      else .ok st
  | .halfClosed sock => .ok (st.modifySocket sock fun s => { s with writable := false })
  | .lost sock => .ok (st.destroy sock)
  | .close sock => if st.isConnected sock then .ok (handleClose env now st sock) else .ok st
  | .written i ok => .ok (handleWritten env now st i ok)
  | .writeTimeout i => .ok (handleWriteTimeout env now st i)
  | .settled g => .ok (handleSettled env now st g)
  | .sweep => .ok (handleSweep env now st)
  | .purge =>
      if (purgeLoop env.cfg now st.mailbox.keys st.mail).1 then .ok (handlePurge env now st)
      else .error .tooManyArguments

/-- The empty broker. -/
def BrokerState.init (epoch : Int) : BrokerState ν := { leases := { epoch } }

end PiMesh
