/-
The broker: one handler per frame type, and the events that drive it.

A handler is the source function of the same name as a function of the state.  It
runs to its end within one turn of the event loop, so it sees one reading of the
clock.  What happens later (a write settling, a fan-out whose last copy settled, a
socket closing, a timer) is an event of its own, and events may come in any order.

Only `handleHello` can throw; an exception there leaves the `data` handler and ends
the process, so a step that throws has no next state.
-/
import PiMesh.Broker.Delivery

namespace PiMesh

open Js

variable {ν : Type} [Number ν] [DecidableEq ν]

open BrokerState

/-! ### Hello -/

/-- `broadcastReservations`. -/
def broadcastReservations (env : Env) (now : Int) (st : BrokerState ν) (name : String)
    (reservations : List (Json ν)) : BrokerState ν :=
  let frame := buildFrame env.rt (st.stamp env now)
    { type := .reserve, sender := some name, reservations := some reservations }
  st.peers.values.foldl (fun st p =>
    if p.name = name then st else sendTo env now st p.toRef frame) st.useId

/-- The keys of the requested rooms: an array or object is a key of its own. -/
def roomKeys (refs : Nat) (items : List (Json ν)) : List (RoomKey ν) :=
  items.zipIdx.map fun e =>
    match e.1 with
    | .arr _ => ⟨e.1, refs + e.2 + 1⟩
    | .obj _ => ⟨e.1, refs + e.2 + 1⟩
    | _ => ⟨e.1, 0⟩

/-- The role a hello asks for in a room: the entry of `roles`, or `role ?? "member"`. -/
def helloRole (frame : MeshFrame ν) (key : RoomKey ν) : Except JsError MeshRole :=
  let fallback := frame.role.getD .member
  match frame.roles with
  | none => .ok fallback
  | some roles =>
      match coerceString key.value with
      | none => .error .noPrimitive
      | some s => .ok ((lookupEntry s roles).getD fallback)

/-- Join the requested rooms one by one, up to the first refusal. -/
def joinAll (cfg : MeshConfig) (frame : MeshFrame ν) :
    List (RoomKey ν) → RoomTable ν → PeerRecord ν →
      Except JsError (Option MeshErrorCode × RoomTable ν × PeerRecord ν)
  | [], rooms, peer => .ok (none, rooms, peer)
  | key :: rest, rooms, peer => do
      let role ← helloRole frame key
      match ← joinRoom cfg rooms peer key role with
      | (some code, rooms, peer) => .ok (some code, rooms, peer)
      | (none, rooms, peer) => joinAll cfg frame rest rooms peer

/-- The rooms a hello asks for and how many refs they took; without the member it is
the default room. -/
def requestedRooms (refs : Nat) (frame : MeshFrame ν) :
    Except JsError (List (RoomKey ν) × Nat) :=
  match frame.rooms with
  | none => .ok ([.ofString defaultRoom], 0)
  | some v =>
      match iterate v with
      | none => .error .notIterable
      | some items => .ok ((Js.Set.ofList (roomKeys refs items)).elems, items.length)

/-- The token a TCP or TLS hello must carry. -/
def tokenAccepted (env : Env) (s : Option Socket) (token : Option String) : Bool :=
  match s with
  | some s =>
      if s.tokenRequired then
        match env.cfg.brokerToken with
        | some secret => token == some (env.rt.sha256 secret)
        | none => false
      else true
  | none => true

/-- Where the connection came from. -/
def viaOf (env : Env) (s : Option Socket) : Option String :=
  match s with
  | some s =>
      if s.tokenRequired then
        let address := s.remoteAddress.getD "?"
        let bare := if startsWithString address "::ffff:" then String.ofList (address.toList.drop 7)
          else address
        some ((if env.cfg.tls then "tls:" else "tcp:") ++ bare)
      else none
  | none => none

/-- The record of an accepted hello, before it has joined anything. -/
def newPeer (env : Env) (now : Int) (st : BrokerState ν) (sock : SocketId) (name : String)
    (frame : MeshFrame ν) : PeerRecord ν :=
  { ref := st.refs, name, socket := sock, rooms := Map.empty, connectedAt := now,
    lastSeenAt := now, helloDone := true, reservations := frame.reservations.getD [],
    clientVersion := frame.clientVersion.bind fun v =>
      if strLength v > 0 then some (String.ofList (v.toList.take 64)) else none,
    activity := none, via := viaOf env (st.sockets.get? sock),
    caps := effectiveCaps frame.proto frame.caps, proto := frame.proto.getD 1 }

def welcomeFrame (env : Env) (now : Int) (st : BrokerState ν) (peer : PeerRecord ν) (id : String)
    (mailboxCount : Nat) : Members ν :=
  buildFrame env.rt (st.stamp env now)
    { type := .welcome, id := some id, sender := some peer.name,
      rooms := some (peer.rooms.keys.map RoomKey.value),
      peers := some (peersSnapshot env.rt st.peers none), mailboxCount := some mailboxCount,
      proto := some protoVersion }

/-- `for (const mf of mailboxFrames) sendTo(peer, mf)`. -/
def sendMailbox (env : Env) (now : Int) (st : BrokerState ν) (peer : PeerRef)
    (fresh : List (StoredMsg ν)) : BrokerState ν :=
  fresh.foldl (fun st m => sendWith env now st peer (mailboxFrame env.rt m) (.flushed peer m)) st

/-- `announceOnline`; a record that a failed write closed has no rooms left. -/
def announceOnline (env : Env) (now : Int) (st : BrokerState ν) (peer : PeerRecord ν) :
    BrokerState ν :=
  let joined := if st.isCurrent peer.toRef then peer.rooms.keys else []
  joined.foldl (fun st room =>
    let frame := presenceFrame env now st peer.name "online" room (some peer.caps) (some peer.proto)
    broadcastToRoom st.useId room peer.name fun st p => sendTo env now st p.toRef frame) st

/-- What follows the room loop of an accepted hello: flush, welcome, announce. -/
def welcome (env : Env) (now : Int) (st : BrokerState ν) (peer : PeerRecord ν) (id : String) :
    BrokerState ν :=
  let (fresh, dropped, mail) := flushMailbox st.mail env.cfg peer.name now
  let st := notifyDropped env now (st.setMail mail) dropped
  let st := sendTo env now st peer.toRef (welcomeFrame env now st peer id fresh.length)
  -- mailbox frames right after the welcome
  let st := sendMailbox env now st peer.toRef fresh
  let st := announceOnline env now st peer
  if peer.reservations.isEmpty then st
  else broadcastReservations env now st peer.name peer.reservations

/-- Put a new record under its alias.  A record that is there already is dropped, its
socket being destroyed. -/
def BrokerState.enroll (st : BrokerState ν) (now : Int) (peer : PeerRecord ν) : BrokerState ν :=
  { st with
    peers := (if (st.peers.get? peer.name).isSome then st.peers.delete peer.name
      else st.peers).set peer.name peer
    knownAliases := st.knownAliases.set peer.name now
    refs := st.refs + 1 }

/-- A hello that asks for a room it cannot have: undo the rooms it joined before. -/
def refuseRooms (env : Env) (now : Int) (st : BrokerState ν) (sock : SocketId)
    (peer : PeerRecord ν) (code : MeshErrorCode) (id : String) : BrokerState ν :=
  let st := sendError env now st sock code (some id)
  { st with rooms := detachFromRooms st.rooms peer, peers := st.peers.delete peer.name }.destroy sock

/-- `handleHello`. -/
def handleHello (env : Env) (now : Int) (st : BrokerState ν) (sock : SocketId)
    (frame : MeshFrame ν) : Except JsError (BrokerState ν) :=
  match frame.sender with
  | none => .ok ((sendError env now st sock .invalidAlias (some frame.id)).destroy sock)
  | some name =>
      if !tokenAccepted env (st.sockets.get? sock) frame.token then
        .ok ((sendError env now st sock .invalidToken (some frame.id)).destroy sock)
      else if (st.peers.get? name).any fun e => e.socket != sock && !st.isDestroyed e.socket then
        .ok ((sendError env now st sock .aliasTaken (some frame.id)).destroy sock)
      else do
        let peer := newPeer env now st sock name frame
        let st := st.enroll now peer
        let (requested, taken) ← requestedRooms st.refs frame
        let st := { st with refs := st.refs + taken + 1 }
        match ← joinAll env.cfg frame requested st.rooms peer with
        | (some code, rooms, peer) =>
            .ok (refuseRooms env now { st with rooms } sock peer code frame.id)
        | (none, rooms, peer) =>
            .ok (welcome env now { st with rooms, peers := st.peers.set name peer } peer frame.id)

/-! ### Messages -/

/-- `checkRate` on the broker's buckets. -/
def takeRate (env : Env) (now : Int) (st : BrokerState ν) (name : String) (kind : RateKind) :
    Bool × BrokerState ν :=
  let (allowed, rates) := checkRate st.rates name kind env.policy.rateLimits now now
  (allowed, { st with rates })

/-- `routedFrame` and `interruptStatus` of a decision that lets the message through. -/
def routed (decision : PolicyDecision) (priority : MeshPriority) (frame : Members ν) :
    Members ν × Option String :=
  match decision with
  | .downgrade => (withoutMember (withMember frame "priority" (.str "urgent")) "interrupt",
      some "force_downgraded")
  | _ => (frame, if priority = .force then some "force_accepted" else none)

/-- The alias is still in the set the loop runs over; a drop notice that fails can take
a later member out of it. -/
def stillMember (st : BrokerState ν) (key : RoomKey ν) (name : String) : Bool :=
  (st.rooms.get? key).any fun members => members.has name

/-- One member of a broadcast: a write to who is online, the mailbox for who is known. -/
def broadcastOne (env : Env) (now : Int) (g : Nat) (key : RoomKey ν) (frame : Members ν)
    (st : BrokerState ν) (name : String) : BrokerState ν :=
  if !stillMember st key name then st
  else
    let st := st.modifyGroup g Group.count
    match st.online name with
    | some t =>
        let st := st.modifyGroup g Group.await
        relay env now st t.toRef frame (.broadcastCopy g t.toRef)
    | none => if st.knownAliases.has name then enqueue env now st name frame (some g) else st

/-- `routeCapMsg`: how busy a candidate is. -/
def busyScore (env : Env) (now : Int) (p : PeerRecord ν) : ℚ :=
  match p.activity with
  | none => 0
  | some act =>
      match act.state with
      | .idle => 0
      | .busy =>
          match env.rt.dateParse act.since with
          | some since => ((max 1 (now - since) : Int) : ℚ)
          | none => 1
      | _ => 9007199254740991 / 2

/-- A member that could take a message for `cap`, policy aside. -/
def isCapable (room : RoomKey ν) (cap : String) (p : PeerRecord ν) : Bool :=
  p.rooms.get? room == some .member && p.caps.contains cap

/-- `routeCapMsg`. -/
def routeCapMsg (env : Env) (now : Int) (st : BrokerState ν) (sender : PeerRecord ν)
    (frame : MeshFrame ν) (cap room : String) : BrokerState ν :=
  let priority := frame.priority.getD .normal
  let key : RoomKey ν := .ofString room
  let (allowed, st) := takeRate env now st sender.name (rateKind priority)
  if !allowed then refuse env now st sender.socket .rateLimited frame.id
  else
    match st.rooms.get? key with
    | none => refuse env now st sender.socket .peerNotFound frame.id
    | some members =>
        let decide_ (p : PeerRecord ν) : PolicyDecision :=
          evaluatePolicy env.policy ⟨sender.name, p.name, room, priority⟩
        let onlinePeers := (members.elems.filter fun name => name ≠ sender.name).filterMap st.online
        let capable := onlinePeers.filter (isCapable key cap)
        let candidates := capable.filter fun p => !(decide_ p).isDeny
        let before (a b : PeerRecord ν) : Prop :=
          busyScore env now a < busyScore env now b ∨
            (busyScore env now a = busyScore env now b ∧
              env.rt.localeCompare a.name b.name ≠ .gt)
        have : DecidableRel before := fun _ _ => inferInstanceAs (Decidable (_ ∨ _))
        match candidates.insertionSort before with
        | [] =>
            let code : MeshErrorCode :=
              if !capable.isEmpty then .policyDenied
              else if onlinePeers.isEmpty then .noCapablePeer
              else if onlinePeers.all (fun p => p.caps.isEmpty) then .capsUnsupported
              else .noCapablePeer
            refuse env now st sender.socket code frame.id
        | chosen :: _ =>
            let decision := decide_ chosen
            if decision.isDeny then refuse env now st sender.socket .policyDenied frame.id
            else
              let raw := withMember (withMember (withMember frame.raw "to" (.str chosen.name))
                "routedCap" (.str cap)) "routedTo" (.str chosen.name)
              let (routedFrame, interruptStatus) := routed decision priority raw
              relay env now st chosen.toRef routedFrame
                (.direct sender.toRef chosen.toRef frame.id interruptStatus (some chosen.name))

/-- `routeMsg`, the broadcast branch. -/
def routeBroadcast (env : Env) (now : Int) (st : BrokerState ν) (sender : PeerRecord ν)
    (frame : MeshFrame ν) (room : String) : BrokerState ν :=
  let key : RoomKey ν := .ofString room
  match sender.rooms.get? key with
  | none => refuse env now st sender.socket .notMember frame.id
  | some .observer => refuse env now st sender.socket .observerReadonly frame.id
  | some .member =>
      let members := (st.rooms.get? key).getD Js.Set.empty
      if members.size ≤ 1 then refuse env now st sender.socket .peerNotFound frame.id
      else
        let priority := frame.priority.getD .normal
        let (allowed, st) := takeRate env now st sender.name (rateKind priority)
        if !allowed then refuse env now st sender.socket .rateLimited frame.id
        else
          -- the policy is asked once for the whole room
          match evaluatePolicy env.policy ⟨sender.name, "*", room, priority⟩ with
          | .deny code => refuse env now st sender.socket code frame.id
          | _ =>
              let g := st.groups.length
              let st := st.openGroup .broadcast sender.toRef frame.id
              (members.elems.filter fun name => name ≠ sender.name).foldl
                (broadcastOne env now g key frame.raw) st

/-- `routeMsg`, the direct branch. -/
def routeDirect (env : Env) (now : Int) (st : BrokerState ν) (sender : PeerRecord ν)
    (frame : MeshFrame ν) (room target : String) : BrokerState ν :=
  let key : RoomKey ν := .ofString room
  let online := st.online target
  if online.isNone && !st.knownAliases.has target then
    refuse env now st sender.socket .peerNotFound frame.id
  else if online.any fun t => !t.rooms.has key then
    refuse env now st sender.socket .notMember frame.id
  else
    let priority := frame.priority.getD .normal
    let (allowed, st) := takeRate env now st sender.name (rateKind priority)
    if !allowed then refuse env now st sender.socket .rateLimited frame.id
    else
      let decision := evaluatePolicy env.policy ⟨sender.name, target, room, priority⟩
      match decision with
      | .deny code => refuse env now st sender.socket code frame.id
      | _ =>
          let (routedFrame, interruptStatus) := routed decision priority frame.raw
          match online with
          | some t =>
              relay env now st t.toRef routedFrame
                (.direct sender.toRef t.toRef frame.id interruptStatus none)
          | none =>
              -- a known alias that is offline: mailbox first, then the ack
              let st := (enqueue env now st target routedFrame).addRelayed 1
              sendAck env now st sender.toRef frame.id .queuedOffline interruptStatus

/-- `routeMsg`. -/
def routeMsg (env : Env) (now : Int) (st : BrokerState ν) (sender : PeerRecord ν)
    (frame : MeshFrame ν) : BrokerState ν :=
  let room := frame.room.getD defaultRoom
  if frame.broadcast = some true then routeBroadcast env now st sender frame room
  else
    match frame.recipient with
    | none => refuse env now st sender.socket .invalidFrame frame.id
    | some target =>
        match sender.rooms.get? (.ofString room) with
        | none => refuse env now st sender.socket .notMember frame.id
        | some .observer => refuse env now st sender.socket .observerReadonly frame.id
        | some .member =>
            match capTargetName env.rt target with
            | some cap => routeCapMsg env now st sender frame cap room
            | none => routeDirect env now st sender frame room target

/-! ### Replies, reminders and receipts -/

/-- One recipient of a reply, if it is online; replies are never stored. -/
def replyOne (env : Env) (now : Int) (g : Nat) (frame : Members ν) (st : BrokerState ν)
    (name : String) : BrokerState ν :=
  match st.online name with
  | none => st
  | some t =>
      let st := (st.modifyGroup g Group.count).modifyGroup g Group.await
      relay env now st t.toRef frame (.replyCopy g t.toRef)

/-- The loop `routeReplyAll` and `routeReplyTargets` share. -/
def replyFan (env : Env) (now : Int) (st : BrokerState ν) (sender : PeerRecord ν)
    (frame : MeshFrame ν) (names : List String) : BrokerState ν :=
  let g := st.groups.length
  let st := st.openGroup .reply sender.toRef frame.id
  (names.filter fun name => name ≠ sender.name).foldl (replyOne env now g frame.raw) st

/-- `routeReplyAll`. -/
def routeReplyAll (env : Env) (now : Int) (st : BrokerState ν) (sender : PeerRecord ν)
    (frame : MeshFrame ν) : BrokerState ν :=
  let members := (st.rooms.get? (.ofString (frame.room.getD defaultRoom))).getD Js.Set.empty
  if members.size ≤ 1 then sendAck env now st sender.toRef frame.id .droppedOffline
  else replyFan env now st sender frame members.elems

/-- `routeReplyTargets`. -/
def routeReplyTargets (env : Env) (now : Int) (st : BrokerState ν) (sender : PeerRecord ν)
    (frame : MeshFrame ν) (targets : List String) : BrokerState ν :=
  replyFan env now st sender frame targets

/-- `routeOnlineOnly`. -/
def routeOnlineOnly (env : Env) (now : Int) (st : BrokerState ν) (sender : PeerRecord ν)
    (frame : MeshFrame ν) (silentDrop : Bool) : BrokerState ν :=
  match frame.recipient.bind st.online with
  | some t => relay env now st t.toRef frame.raw (.onlineOnly sender.toRef t.toRef frame.id silentDrop)
  | none => if silentDrop then st else sendAck env now st sender.toRef frame.id .droppedOffline

/-- The `reply` case of `dispatch`. -/
def routeReply (env : Env) (now : Int) (st : BrokerState ν) (sender : PeerRecord ν)
    (frame : MeshFrame ν) : BrokerState ν :=
  let (allowed, st) := takeRate env now st sender.name .msg
  if !allowed then sendError env now st sender.socket .rateLimited (some frame.id)
  else if frame.replyAll = some true then routeReplyAll env now st sender frame
  else
    match frame.replyTargets with
    | some targets => routeReplyTargets env now st sender frame targets
    | none => routeOnlineOnly env now st sender frame false

/-! ### Control -/

/-- Abort and redirect are as strong as a forced message. -/
def ctlPriority (action : Option CtlAction) : MeshPriority :=
  if action = some .abort ∨ action = some .redirect then .force else .normal

/-- `handleCtl`. -/
def handleCtl (env : Env) (now : Int) (st : BrokerState ν) (sender : PeerRecord ν)
    (frame : MeshFrame ν) : BrokerState ν :=
  match frame.recipient with
  | none => sendError env now st sender.socket .invalidFrame (some frame.id)
  | some target =>
      let room := frame.room.getD defaultRoom
      let key : RoomKey ν := .ofString room
      match sender.rooms.get? key with
      | none => refuse env now st sender.socket .notMember frame.id
      | some .observer => refuse env now st sender.socket .observerReadonly frame.id
      | some .member =>
          match st.online target with
          | none => sendError env now st sender.socket .unreachable (some frame.id)
          | some t =>
              if !t.rooms.has key then refuse env now st sender.socket .notMember frame.id
              else
                let priority := ctlPriority frame.action
                if evaluatePolicy env.policy ⟨sender.name, target, room, priority⟩ ≠ .allow then
                  refuse env now st sender.socket .policyDenied frame.id
                else
                  let (allowed, st) := takeRate env now st sender.name (rateKind priority)
                  if !allowed then refuse env now st sender.socket .rateLimited frame.id
                  else
                    let stale := (st.pendingCtl.entries.filter fun e =>
                      decide (now - e.2.since > ctlPendingTtlMs)).map Prod.fst
                    let pendingCtl := (stale.foldl Map.delete st.pendingCtl).set frame.id
                      ⟨sender.name, target, frame.action, now⟩
                    relay env now { st with pendingCtl } t.toRef frame.raw
                      (.ctl sender.toRef t.toRef frame.id)

/-- `handleCtlAck`. -/
def handleCtlAck (env : Env) (now : Int) (st : BrokerState ν) (sender : PeerRecord ν)
    (frame : MeshFrame ν) : BrokerState ν :=
  match frame.replyTo with
  | none => st
  | some replyTo =>
      match st.pendingCtl.get? replyTo with
      | none => st
      | some pending =>
          if pending.recipient ≠ sender.name ∨ some pending.sender ≠ frame.recipient then st
          else if pending.action ≠ frame.action then st
          else
            let st := { st with pendingCtl := st.pendingCtl.delete replyTo }
            match frame.recipient.bind st.online with
            | none => st
            | some t => relay env now st t.toRef frame.raw (.ctlAck t.toRef)

/-! ### Leases -/

/-- `sendLease`. -/
def sendLease (env : Env) (now : Int) (st : BrokerState ν) (peer : PeerRef) (id : String)
    (opts : BuildFrameOpts ν) : BrokerState ν :=
  sendTo env now st peer (buildFrame env.rt (st.stamp env now)
    { opts with type := .lease, id := some id, replyTo := some id })

/-- The members of a lease answer that carries the lease. -/
def leaseOpts (env : Env) (status body : String) (l : LeaseRecord) : BuildFrameOpts ν :=
  { type := .lease, status := some status, task := some l.task, owner := some l.owner,
    leaseId := some l.leaseId, fence := some l.fence, epoch := some l.epoch, paths := some l.paths,
    expiresAt := some (env.rt.toISOString l.expiresAt), body := some body }

/-- `handleClaim`. -/
def handleClaim (env : Env) (now : Int) (st : BrokerState ν) (peer : PeerRecord ν)
    (frame : MeshFrame ν) : BrokerState ν :=
  let room := frame.room.getD defaultRoom
  if !peer.rooms.has (.ofString room) then
    sendError env now st peer.socket .notMember (some frame.id)
  else
    let (outcome, leases) := st.leases.claim (fun _ => now) (env.rt.makeMsgId st.ids)
      (env.rt.toISOString now) (frame.task.getD "") peer.name (frame.paths.getD [])
      (frame.ttlMs.getD defaultLeaseTtlMs)
    let st := { st with leases, ids := st.ids + 1 }
    match outcome with
    | .granted lease reused =>
        sendLease env now st peer.toRef frame.id
          (leaseOpts env "granted" (if reused then "reused" else "granted") lease)
    | .held holder =>
        sendLease env now st peer.toRef frame.id
          { type := .lease, status := some "held", task := frame.task, owner := some holder,
            body := some "held" }
    | .invalid reason =>
        sendLease env now st peer.toRef frame.id
          { type := .lease, status := some "invalid", task := frame.task, body := some reason }

/-- `handleLeaseStatus`. -/
def handleLeaseStatus (env : Env) (now : Int) (st : BrokerState ν) (peer : PeerRecord ν)
    (frame : MeshFrame ν) : BrokerState ν :=
  let (lease, leases) := st.leases.get (fun _ => now) (frame.task.getD "")
  let st := { st with leases }
  match lease with
  | none =>
      sendLease env now st peer.toRef frame.id
        { type := .lease, status := some "not_held", task := frame.task, body := some "not_held" }
  | some l => sendLease env now st peer.toRef frame.id (leaseOpts env "current" "current" l)

/-- `handleRelease`. -/
def handleRelease (env : Env) (now : Int) (st : BrokerState ν) (peer : PeerRecord ν)
    (frame : MeshFrame ν) : BrokerState ν :=
  let room := frame.room.getD defaultRoom
  if !peer.rooms.has (.ofString room) then
    sendError env now st peer.socket .notMember (some frame.id)
  else
    let (outcome, leases) := st.leases.release (fun _ => now) (frame.task.getD "") peer.name
      (frame.leaseId.getD "")
    let st := { st with leases }
    match outcome with
    | .released l => sendLease env now st peer.toRef frame.id (leaseOpts env "released" "released" l)
    | .notHeld =>
        sendLease env now st peer.toRef frame.id
          { type := .lease, status := some "not_held", task := frame.task, body := some "not_held" }

/-! ### Dispatch -/

/-- Replace the record of an alias that has one, keeping its place in the table. -/
def BrokerState.updatePeer (st : BrokerState ν) (peer : PeerRecord ν) : BrokerState ν :=
  { st with peers := st.peers.set peer.name peer }

def activityState : Option (Json ν) → ActivityState
  | some (.str s) =>
      if s = "busy" then .busy else if s = "rate_limited" then .rateLimited
      else if s = "blocked" then .blocked else .idle
  | _ => .idle

/-- The `activity` case of `dispatch`. -/
def handleActivity (env : Env) (now : Int) (st : BrokerState ν) (peer : PeerRecord ν)
    (frame : MeshFrame ν) : BrokerState ν :=
  let state := activityState frame.status
  let peer := { peer with activity := some ⟨state, env.rt.toISOString now⟩ }
  peer.rooms.keys.foldl (fun st room =>
    let out := buildFrame env.rt (st.stamp env now)
      { type := .activity, sender := some peer.name, status := some state.text,
        room := some room.value }
    broadcastToRoom st.useId room peer.name fun st p => sendTo env now st p.toRef out)
    (st.updatePeer peer)

/-- The `join` case of `dispatch`. -/
def handleJoin (env : Env) (now : Int) (st : BrokerState ν) (sock : SocketId)
    (peer : PeerRecord ν) (frame : MeshFrame ν) : Except JsError (BrokerState ν) :=
  match frame.room with
  | none => .ok (sendError env now st sock .invalidRoom (some frame.id))
  | some room => do
      match ← joinRoom env.cfg st.rooms peer (.ofString room) (frame.role.getD .member) with
      | (some code, rooms, _) => .ok (sendError env now { st with rooms } sock code (some frame.id))
      | (none, rooms, peer) =>
          let st := { st with rooms }.updatePeer peer
          let st := sendAck env now st peer.toRef frame.id .ok
          let out := presenceFrame env now st peer.name "online" (.ofString room) none none
          .ok (broadcastToRoom st.useId (.ofString room) peer.name fun st p =>
            sendTo env now st p.toRef out)

/-- The `leave` case of `dispatch`. -/
def handleLeave (env : Env) (now : Int) (st : BrokerState ν) (sock : SocketId)
    (peer : PeerRecord ν) (frame : MeshFrame ν) : BrokerState ν :=
  match frame.room with
  | none => sendError env now st sock .invalidRoom (some frame.id)
  | some room =>
      match leaveRoom st.rooms peer (.ofString room) with
      | (some code, _, _) => sendError env now st sock code (some frame.id)
      | (none, rooms, peer) =>
          let st := { st with rooms }.updatePeer peer
          let st := sendAck env now st peer.toRef frame.id .ok
          let out := presenceFrame env now st peer.name "offline" (.ofString room) none none
          broadcastToRoom st.useId (.ofString room) peer.name fun st p =>
            sendTo env now st p.toRef out

/-- The `status_req` case of `dispatch`. -/
def handleStatusReq (env : Env) (now : Int) (st : BrokerState ν) (peer : PeerRecord ν)
    (frame : MeshFrame ν) : BrokerState ν :=
  let s := st.stats
  sendTo env now st peer.toRef (buildFrame env.rt (st.stamp env now)
    { type := .statusRes, id := some frame.id,
      peers := some (peersSnapshot env.rt st.peers frame.room),
      rooms := some (st.rooms.keys.map RoomKey.value),
      stats := some (.obj [("relayed", jsonNat s.relayed), ("refused", jsonNat s.refused),
        ("mailboxDelivered", jsonNat s.mailboxDelivered),
        ("mailboxDropped", jsonNat s.mailboxDropped)]) })

/-- A frame of an authenticated peer. -/
def dispatchPeer (env : Env) (now : Int) (st : BrokerState ν) (sock : SocketId)
    (peer : PeerRecord ν) (frame : MeshFrame ν) : Except JsError (BrokerState ν) :=
  match frame.type with
  | .claim => .ok (handleClaim env now st peer frame)
  | .release => .ok (handleRelease env now st peer frame)
  | .leaseStatus => .ok (handleLeaseStatus env now st peer frame)
  | .msg => .ok (routeMsg env now st peer frame)
  | .reserve =>
      let peer := { peer with reservations := frame.reservations.getD [] }
      let st := broadcastReservations env now (st.updatePeer peer) peer.name peer.reservations
      .ok (sendAck env now st peer.toRef frame.id .ok)
  | .reply => .ok (routeReply env now st peer frame)
  | .remind => .ok (routeOnlineOnly env now st peer frame true)
  | .read => .ok (routeOnlineOnly env now st peer frame true)
  | .ctl => .ok (handleCtl env now st peer frame)
  | .ctlAck => .ok (handleCtlAck env now st peer frame)
  | .activity => .ok (handleActivity env now st peer frame)
  | .ping =>
      .ok (sendTo env now st peer.toRef (buildFrame env.rt (st.stamp env now)
        { type := .pong, id := some frame.id }))
  | .statusReq => .ok (handleStatusReq env now st peer frame)
  | .join => handleJoin env now st sock peer frame
  | .leave => .ok (handleLeave env now st sock peer frame)
  | _ => .ok (sendError env now st sock .invalidFrame (some frame.id))

/-- The record a frame's `from` names, if it is bound to the socket the frame came from. -/
def authed (st : BrokerState ν) (sock : SocketId) (frame : MeshFrame ν) : Option (PeerRecord ν) :=
  match frame.sender.bind st.peers.get? with
  | some p => if p.socket = sock ∧ p.helloDone = true then some p else none
  | none => none

/-- `dispatch`. -/
def dispatch (env : Env) (now : Int) (st : BrokerState ν) (sock : SocketId) (frame : MeshFrame ν) :
    Except JsError (BrokerState ν) :=
  match authed st sock frame with
  | some peer =>
      if frame.type = .hello then .ok (sendError env now st sock .invalidFrame (some frame.id))
      else
        let peer := { peer with lastSeenAt := now }
        dispatchPeer env now (st.updatePeer peer) sock peer frame
  | none =>
      if frame.type = .hello then handleHello env now st sock frame
      else .ok (sendError env now st sock .helloRequired (some frame.id))

end PiMesh
