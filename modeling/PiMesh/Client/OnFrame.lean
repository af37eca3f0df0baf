/-
What a client does with a frame after the handshake.

A reply is the case with many ways: it may answer a live mission, blocking or launched,
repeat an answer that was handled, or answer nobody.  Which way it goes is decided when it
arrives, from the entry of its mission and the number of `waitAll` calls in flight.

Frames for the lease and control requests settle waiters of their own, which are not part
of this model.
-/
import PiMesh.Client.Requests

namespace PiMesh

open Js

variable {ν : Type} [Number ν]

/-! ### Replies -/

/-- The key of an answer in `handledReplyTargets`. -/
def replyKey (rt : Runtime) (replyTo body : String) : String :=
  String.ofList (replyTo.toList ++ '|' :: (rt.sha256 body).toList)

/-- `pruneHandledReplyTargets`. -/
def pruneHandled (now : Int) (m : Map String Int) : Map String Int :=
  ((m.entries.filter fun e => decide (now - e.2 > handledReplyWindowMs)).map Prod.fst).foldl
    Map.delete m

/-- `markReplyHandled`. -/
def markReplyHandled (env : ClientEnv) (now : Int) (book : Book ν) (replyTo body : String) :
    Book ν :=
  let handled := book.handledReplyTargets.set (replyKey env.rt replyTo body) now
  { book with handledReplyTargets := pruneHandled now handled }

/-- This answer was handled already, not long ago. -/
def isHandledReply (env : ClientEnv) (now : Int) (book : Book ν) (replyTo body : String) : Bool :=
  (book.handledReplyTargets.get? (replyKey env.rt replyTo body)).any fun ts =>
    now - ts < handledReplyWindowMs

/-- `noteInboundFrom`. -/
def noteInboundFrom (st : ClientState ν) (frame : Inbound ν) : ClientState ν :=
  match frame.sender.filter fun name => name ≠ st.conn.name with
  | some name =>
      let last := pruneMap lastInboundCap
        (st.book.lastInboundFrom.set name ⟨frame.id, frame.ts, frame.type⟩)
      { st with book := { st.book with lastInboundFrom := last } }
  | none => st

/-- Keep a frame as a target for replies. -/
def keepInbound (st : ClientState ν) (frame : Inbound ν) : ClientState ν :=
  if frame.id.isEmpty then st
  else { st with inbox := pruneMap inboxCap (st.inbox.set frame.id frame) }

/-- An answer to a live mission. -/
def onMatchedReply (env : ClientEnv) (now : Int) (st : ClientState ν) (frame : Inbound ν)
    (replyTo : String) (wake : Bool) : ClientState ν :=
  let body := frame.body.getD ""
  let st := { st with book := markReplyHandled env now st.book replyTo body }
  let st := st.setMission replyTo fun m =>
    { m with status := .answered, answered := true, response := some body, ts := some frame.ts }
  if wake then (keepInbound st frame).emit (.inbound frame (some true))
  else st.emit (.reply frame)

/-- An answer nobody waits for. -/
def onOrphanReply (env : ClientEnv) (now : Int) (st : ClientState ν) (frame : Inbound ν) :
    ClientState ν :=
  match frame.replyTo with
  | none => (keepInbound st frame).emit (.inbound frame none)
  | some replyTo =>
      let body := frame.body.getD ""
      if isHandledReply env now st.book replyTo body then
        { st with book := { st.book with pending := st.book.pending.unmatched } }
      else
        let st := { st with book := markReplyHandled env now st.book replyTo body }
        (keepInbound st frame).emit (.inbound frame none)

def onReply (env : ClientEnv) (now : Int) (st : ClientState ν) (frame : Inbound ν) :
    ClientState ν :=
  if frame.receipt then (keepInbound st frame).emit (.inbound frame (some false))
  else
    let st := noteInboundFrom st frame
    -- the flag is read before the entry goes
    let wake := frame.replyTo.any st.book.pending.isLaunch && decide (st.book.waitAllInFlight = 0)
    match frame.replyTo with
    | none => onOrphanReply env now st frame
    | some replyTo =>
        let (pending, resolved, matched) := st.book.pending.handleReply frame
        let st := st.setPending (pending, resolved)
        if matched then onMatchedReply env now st frame replyTo wake
        else onOrphanReply env now st frame

/-! ### Acknowledgements and errors -/

/-- An `ack`: for a request, or news that a message was dropped. -/
def onAck (st : ClientState ν) (frame : Inbound ν) : ClientState ν :=
  match st.ackWaiters.get? frame.id with
  | some c =>
      { st with ackWaiters := st.ackWaiters.delete frame.id }.push [.acked c frame.toAck]
  | none =>
      if frame.status = some "dropped_offline" then
        let st := st.setPending (st.book.pending.cancel frame.id .droppedOffline)
        let st := st.setMission frame.id fun m =>
          { m with status := .failed, response := some CancelReason.droppedOffline.text }
        st.emit (.droppedOffline frame.id)
      else st

/-- The waiter of a status request, if there is one. -/
def onStatus (st : ClientState ν) (frame : Inbound ν) : ClientState ν :=
  match st.statusWaiters.get? frame.id with
  | some c =>
      { st with statusWaiters := st.statusWaiters.delete frame.id }.finish c
        (.snapshot (frame.peers.getD []) (frame.rooms.getD []) frame.stats)
  | none => st

def onStatusRes (st : ClientState ν) (frame : Inbound ν) : ClientState ν :=
  let others := (frame.peers.getD []).filter fun p => p.name ≠ st.conn.name
  let rooms := others.foldl (fun (m : Map String (Js.Set String)) p =>
    match p.rooms with
    | some rooms => m.set p.name (.ofList rooms)
    | none => m) st.peerRooms
  onStatus { st with peerRooms := rooms } frame

def onError (st : ClientState ν) (frame : Inbound ν) : ClientState ν :=
  let st := match st.ackWaiters.get? frame.id with
    | some c => { st with ackWaiters := st.ackWaiters.delete frame.id }.push [.acked c frame.toAck]
    | none => st
  onStatus st frame

/-! ### News of the others -/

def onReserve (st : ClientState ν) (frame : Inbound ν) : ClientState ν :=
  match frame.sender.filter fun name => name ≠ st.conn.name with
  | some name =>
      { st with peerReservations :=
          applyPeerReservations st.peerReservations name frame.reservations }
  | none => st

def turnState? (status : Option String) : Option TurnState :=
  match status with
  | some "busy" => some .busy
  | some "idle" => some .idle
  | some "rate_limited" => some .rateLimited
  | some "blocked" => some .blocked
  | _ => none

def onActivity (st : ClientState ν) (frame : Inbound ν) : ClientState ν :=
  match frame.sender, turnState? frame.status with
  | some name, some state => { st with peerActivity := st.peerActivity.set name state }
  | _, _ => st

/-- A peer left a room; one that is in no room we know of is gone. -/
def onOffline (st : ClientState ν) (name : String) (room : Option String) : ClientState ν :=
  let peerRooms := match st.peerRooms.get? name with
    | none => st.peerRooms
    | some rooms =>
        let rooms := match room with
          | some room => rooms.delete room
          | none => .empty
        if rooms.size = 0 then st.peerRooms.delete name else st.peerRooms.set name rooms
  let st := { st with peerRooms }
  if peerRooms.has name then st
  else
    { st with peerReservations := st.peerReservations.delete name
              peerActivity := st.peerActivity.delete name }

/-- A peer joined a room. -/
def onOnline (st : ClientState ν) (name : String) (room : Option String) : ClientState ν :=
  match room with
  | some room =>
      let rooms := (st.peerRooms.get? name).getD .empty
      { st with peerRooms := st.peerRooms.set name (rooms.add room) }
  | none => st

def onPresence (st : ClientState ν) (frame : Inbound ν) : ClientState ν :=
  match frame.sender.filter fun name => name ≠ st.conn.name with
  | some name =>
      if frame.status = some "offline" then onOffline st name frame.room
      else if frame.status = some "online" then onOnline st name frame.room
      else st
  | none => st

/-! ### All frames -/

/-- `onFrame`. -/
def onFrame (env : ClientEnv) (now : Int) (st : ClientState ν) (frame : Inbound ν) :
    ClientState ν :=
  match frame.type with
  | .ack => onAck st frame
  | .statusRes => onStatusRes st frame
  | .msg | .mailbox => (noteInboundFrom (keepInbound st frame) frame).emit (.inbound frame none)
  | .reserve => onReserve st frame
  | .remind => st.emit (.inbound frame none)
  | .reply => onReply env now st frame
  | .activity => onActivity st frame
  | .presence => onPresence st frame
  | .error => onError st frame
  | _ => st

end PiMesh
