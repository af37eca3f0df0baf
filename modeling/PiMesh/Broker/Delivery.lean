/-
Writing to peers.

A call of `writeFrame` ends in one of two ways at once: the bytes are handed to the
socket and the callback waits, or the frame does not fit, the socket is gone, and the
callback runs with `false` before the call returns.  `attempt` is that decision.

The callbacks call each other only downwards: a failed write closes the record it was
meant for, closing a record writes notices whose callbacks do nothing, and an
acknowledgement is itself a write whose failure closes a record.  The functions below
follow that order, so none of them is recursive.
-/
import PiMesh.Broker.Mailbox
import PiMesh.Broker.Rooms

namespace PiMesh

open Js

variable {ν : Type} [Number ν] [DecidableEq ν]

/-- What a broker is created with. -/
structure Env where
  rt : Runtime
  cfg : MeshConfig
  policy : MeshPolicy

namespace BrokerState

/-- A socket can still be written to and its peer is not known to be gone. -/
def isOpen (st : BrokerState ν) (sock : SocketId) : Bool :=
  match st.sockets.get? sock with
  | some s => !s.destroyed && s.writable
  | none => false

/-- `socket.destroyed`. -/
def isDestroyed (st : BrokerState ν) (sock : SocketId) : Bool :=
  match st.sockets.get? sock with
  | some s => s.destroyed
  | none => true

/-- `socket.destroy()`. -/
def destroy (st : BrokerState ν) (sock : SocketId) : BrokerState ν :=
  match st.sockets.get? sock with
  | some s => { st with sockets := st.sockets.set sock { s with destroyed := true } }
  | none => st

/-- The stamp of the next frame built, and the state that has used it. -/
def stamp (env : Env) (now : Int) (st : BrokerState ν) : Stamp :=
  ⟨env.rt.makeMsgId st.ids, env.rt.toISOString now⟩

def useId (st : BrokerState ν) : BrokerState ν := { st with ids := st.ids + 1 }

/-- The peer is online: a record with its handshake done on a live socket. -/
def online (st : BrokerState ν) (name : String) : Option (PeerRecord ν) :=
  match st.peers.get? name with
  | some p => if p.helloDone && !st.isDestroyed p.socket then some p else none
  | none => none

/-- `state.peers.get(alias) === peer`. -/
def isCurrent (st : BrokerState ν) (peer : PeerRef) : Bool :=
  match st.peers.get? peer.name with
  | some p => p.ref == peer.ref
  | none => false

def addRelayed (st : BrokerState ν) (n : Nat) : BrokerState ν :=
  { st with stats := { st.stats with relayed := st.stats.relayed + n } }

def addRefused (st : BrokerState ν) : BrokerState ν :=
  { st with stats := { st.stats with refused := st.stats.refused + 1 } }

def mail (st : BrokerState ν) : Mail ν := ⟨st.mailbox, st.stats⟩

def setMail (st : BrokerState ν) (m : Mail ν) : BrokerState ν :=
  { st with mailbox := m.mailbox, stats := m.stats }

/-- A new fan-out, which gets the next number. -/
def openGroup (st : BrokerState ν) (kind : GroupKind) (sender : PeerRef) (id : String) :
    BrokerState ν :=
  { st with groups := st.groups ++ [{ kind, sender, id }] }

/-- Change the fan-out number `g`. -/
def modifyGroup (st : BrokerState ν) (g : Nat) (f : Group → Group) : BrokerState ν :=
  { st with groups := st.groups.modify g f }

end BrokerState

open BrokerState

/-- The first half of `writeFrame`: hand the bytes over, or fail on the spot. -/
def attempt (st : BrokerState ν) (sock : SocketId) (frame : Members ν) (maxBytes : Nat)
    (cb : WriteCallback ν) : BrokerState ν × Bool :=
  if (encodeFrame frame maxBytes).isSome && st.isOpen sock then
    ({ st with writes := st.writes ++ [⟨sock, frame, cb, .pending⟩] }, true)
  else ({ st with writes := st.writes ++ [⟨sock, frame, cb, .failed⟩] }, false)

/-- A write nobody waits for. -/
def writeIgnored (st : BrokerState ν) (sock : SocketId) (frame : Members ν) (maxBytes : Nat) :
    BrokerState ν :=
  (attempt st sock frame maxBytes .ignore).1

/-! ### Closing a peer -/

def presenceFrame (env : Env) (now : Int) (st : BrokerState ν) (name : String) (status : String)
    (room : RoomKey ν) (caps : Option (List String)) (proto : Option Int) : Members ν :=
  buildFrame env.rt (st.stamp env now)
    { type := .presence, sender := some name, status := some status, room := some room.value,
      caps, proto }

/-- `broadcastToRoom`: `write` for each member that has a record, one excepted. -/
def broadcastToRoom (st : BrokerState ν) (room : RoomKey ν) (exclude : String)
    (write : BrokerState ν → PeerRecord ν → BrokerState ν) : BrokerState ν :=
  match st.rooms.get? room with
  | none => st
  | some members =>
      members.elems.foldl (fun st name =>
        if name = exclude then st
        else
          match st.peers.get? name with
          | some p => write st p
          | none => st) st

/-- `closePeer`: purge the tables, then tell former room mates and holders of its claims. -/
def closePeer (env : Env) (now : Int) (st : BrokerState ν) (name : String) : BrokerState ν :=
  match st.peers.get? name with
  | none => st
  | some peer =>
      let st := { st with rooms := detachFromRooms st.rooms peer, peers := st.peers.delete name }
      let st := st.destroy peer.socket
      let st := peer.rooms.keys.foldl (fun st room =>
        let frame := presenceFrame env now st name "offline" room none none
        broadcastToRoom st.useId room name fun st p =>
          writeIgnored st p.socket frame defaultMaxFrameBytes) st
      if peer.reservations.isEmpty then st
      else
        st.peers.values.foldl (fun st p =>
          let frame := buildFrame env.rt (st.stamp env now)
            { type := .reserve, sender := some name, reservations := some [] }
          writeIgnored st.useId p.socket frame defaultMaxFrameBytes) st

/-- Close the record a write failed for, unless the alias has a newer one. -/
def closeIfCurrent (env : Env) (now : Int) (st : BrokerState ν) (peer : PeerRef) : BrokerState ν :=
  if st.isCurrent peer then closePeer env now st peer.name else st

/-! ### Frames the broker makes itself -/

/-- `sendTo`, with the callback its write is entered under. -/
def sendWith (env : Env) (now : Int) (st : BrokerState ν) (peer : PeerRef) (frame : Members ν)
    (cb : WriteCallback ν) : BrokerState ν :=
  match attempt st peer.socket frame env.cfg.maxFrameBytes cb with
  | (st, true) => st
  | (st, false) => closeIfCurrent env now st peer

def sendTo (env : Env) (now : Int) (st : BrokerState ν) (peer : PeerRef) (frame : Members ν) :
    BrokerState ν :=
  sendWith env now st peer frame (.sendTo peer)

def sendError (env : Env) (now : Int) (st : BrokerState ν) (sock : SocketId) (code : MeshErrorCode)
    (id : Option String) : BrokerState ν :=
  let frame := buildFrame env.rt (st.stamp env now) { type := .error, code := some code, id }
  writeIgnored (if id.isSome then st else st.useId) sock frame env.cfg.maxFrameBytes

def sendAck (env : Env) (now : Int) (st : BrokerState ν) (peer : PeerRef) (id : String)
    (status : AckStatus) (interruptStatus : Option String := none)
    (deliveredCount totalCount : Option Nat := none) (routedTo : Option String := none) :
    BrokerState ν :=
  sendTo env now st peer (buildFrame env.rt (st.stamp env now)
    { type := .ack, id := some id, status := some status.text, interruptStatus, deliveredCount,
      totalCount, routedTo })

/-- A refused request: counted, and told to the sender. -/
def refuse (env : Env) (now : Int) (st : BrokerState ν) (sock : SocketId) (code : MeshErrorCode)
    (id : String) : BrokerState ν :=
  sendError env now st.addRefused sock code (some id)

/-- `notifyDropped`: tell each original sender that is online. -/
def notifyDropped (env : Env) (now : Int) (st : BrokerState ν) (dropped : List (StoredMsg ν)) :
    BrokerState ν :=
  dropped.foldl (fun st m =>
    match ((getOf m.frame "from").bind asStr).bind st.online with
    | none => { st with drops := st.drops ++ [⟨m, false⟩] }
    | some sender =>
        let st := { st with drops := st.drops ++ [⟨m, true⟩] }
        sendTo env now st sender.toRef (buildFrame env.rt (st.stamp env now)
          { type := .ack, id := (getOf m.frame "id").bind asStr,
            status := some AckStatus.droppedOffline.text,
            recipient := (getOf m.frame "to").bind asStr })) st

/-- `notifyDropped(enqueueMailbox(state, config, alias, frame))`. -/
def enqueue (env : Env) (now : Int) (st : BrokerState ν) (name : String) (frame : Members ν)
    (group : Option Nat := none) : BrokerState ν :=
  let msg : StoredMsg ν := ⟨st.refs, frame, now⟩
  let (dropped, mail) := enqueueMailbox st.mail env.cfg name msg now
  notifyDropped env now
    { st.setMail mail with refs := st.refs + 1, queued := st.queued ++ [⟨name, msg, group⟩] } dropped

/-! ### Callbacks -/

/-- Run the callback of a write that has settled. -/
def runCallback (env : Env) (now : Int) (st : BrokerState ν) (frame : Members ν) (ok : Bool) :
    WriteCallback ν → BrokerState ν
  | .ignore => st
  | .sendTo peer => if ok then st else closeIfCurrent env now st peer
  | .flushed peer _ => if ok then st else closeIfCurrent env now st peer
  | .replyCopy g target =>
      if ok then (st.addRelayed 1).modifyGroup g Group.arrive
      else (closeIfCurrent env now st target).modifyGroup g Group.fail
  | .broadcastCopy g target =>
      if ok then st.modifyGroup g Group.arrive
      else
        let st := closeIfCurrent env now st target
        (enqueue env now st target.name frame (some g)).modifyGroup g Group.fail
  | .direct sender target id interruptStatus routedTo =>
      if ok then
        sendAck env now (st.addRelayed 1) sender id .delivered interruptStatus none none routedTo
      else
        let st := closeIfCurrent env now st target
        let st := enqueue env now st target.name frame
        sendAck env now st sender id .queuedOffline interruptStatus none none routedTo
  | .onlineOnly sender target id silentDrop =>
      if ok then
        let st := st.addRelayed 1
        if silentDrop then st else sendAck env now st sender id .delivered
      else
        let st := closeIfCurrent env now st target
        if silentDrop then st else sendAck env now st sender id .droppedOffline
  | .ctl sender target id =>
      if ok then st.addRelayed 1
      else
        let st := { st with pendingCtl := st.pendingCtl.delete id }
        let st := closeIfCurrent env now st target
        sendError env now st sender.socket .unreachable (some id)
  | .ctlAck _ => if ok then st.addRelayed 1 else st

/-- `writeFrame` for a frame that is passed on. -/
def relay (env : Env) (now : Int) (st : BrokerState ν) (target : PeerRef) (frame : Members ν)
    (cb : WriteCallback ν) : BrokerState ν :=
  match attempt st target.socket frame env.cfg.maxFrameBytes cb with
  | (st, true) => st
  | (st, false) => runCallback env now st frame false cb

end PiMesh
