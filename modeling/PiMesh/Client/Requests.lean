/-
The requests of a client.

Each request checks its arguments, connects if it has to, registers what it will wait for
and writes a frame; the rest runs when the acknowledgement is there.  `send` comes in three
kinds: fire and forget, blocking until the answer, and launched, where the answer is
awaited in the background.  `reserve`, `release`, `join` and `leave` are round trips.

Registration comes before the write, so whatever goes wrong in the write leaves it behind.
-/
import PiMesh.Client.Connection

namespace PiMesh

open Js

variable {ν : Type} [Number ν]

/-! ### Send: the checks -/

structure SendOpts where
  /-- `to`. -/
  recipient : Option String := none
  message : String
  room : Option String := none
  priority : Option MeshPriority := none
  reason : Option String := none
  awaitReply : Bool := false
  block : Option Bool := none
  timeoutMs : Option Int := none
  refs : Option (List String) := none
  taskPackage : Option MeshTaskPackage := none
  broadcast : Bool := false
  replyTo : Option (List String) := none
  interrupt : Bool := false
  signal : Bool := false
deriving DecidableEq

/-- `resolveSendRoom`. -/
def resolveSendRoom (env : ClientEnv) (st : ClientState ν) (recipient : Option String) :
    Option String :=
  let shared := recipient.bind fun name => st.joinedRooms.elems.find? fun room =>
    (st.peerRooms.get? name).any fun rooms => rooms.has room
  match shared with
  | some room => some room
  | none =>
      match env.projectRoom.filter st.joinedRooms.has with
      | some room => some room
      | none =>
          if st.joinedRooms.has defaultRoom then some defaultRoom else st.joinedRooms.elems.head?

/-- The reply targets of a send, or why they are refused. -/
def planReplyTargets (rt : Runtime) : Option (List String) → Except String (Option (List String))
  | none => .ok none
  | some raw =>
      if raw.isEmpty || decide (raw.length > maxReplyTargets) then
        .error "invalid_frame: bad replyTo"
      else
        let targets := raw.map (normalizeAlias rt)
        if targets.all isValidAlias then .ok (some targets) else .error "invalid_alias"

/-- A reason that says something. -/
def hasReason (reason : Option String) : Bool := reason.any fun r => !isBlank r

/-- Whom a send is for: a capability, an alias, or nobody in particular. -/
def sendTarget (rt : Runtime) (opts : SendOpts) : Option String :=
  match (if opts.broadcast then none else opts.recipient.bind fun t => capTargetName rt t) with
  | some cap => some (String.ofList ("cap:".toList ++ cap.toList))
  | none => opts.recipient.map (normalizeAlias rt)

/-- The send is for a capability. -/
def isCapSend (rt : Runtime) (opts : SendOpts) : Bool :=
  !opts.broadcast && (opts.recipient.bind fun t => capTargetName rt t).isSome

/-- The checks of `send`, in their order. -/
def planSend (env : ClientEnv) (st : ClientState ν) (opts : SendOpts) :
    Except SendResult SendPlan := do
  let recipient := sendTarget env.rt opts
  let cap := isCapSend env.rt opts
  if opts.broadcast then
    if recipient.isSome then throw (.error none "broadcast_with_to")
  else
    if !(cap || recipient.any isValidAlias) then throw (.error none "invalid_alias")
    if recipient = some st.conn.name then throw (.blocked none "self_send")
  if cap && st.conn.online && decide (st.conn.brokerProto < 2) then
    throw (.error none "broker_too_old (restart the broker to enable cap routing)")
  let room ← match (opts.room.orElse fun _ => resolveSendRoom env st recipient).filter isValidRoom with
    | some room => pure room
    | none => throw (.error none "not_in_any_room")
  if byteLength opts.message.toList > maxBodyBytes then
    throw (.error none "invalid_frame: body too large")
  if opts.refs.any fun refs => decide (refs.length > maxRefs) || !refs.all isValidRefPath then
    throw (.error none "invalid_frame: bad refs")
  let replyTargets ← match planReplyTargets env.rt opts.replyTo with
    | .ok targets => pure targets
    | .error reason => throw (.error none reason)
  let priority := opts.priority.getD .normal
  if priority = .force && !hasReason opts.reason then
    throw (.error none "force_requires_reason")
  if opts.interrupt && (decide (priority ≠ .force) || !hasReason opts.reason) then
    throw (.error none "interrupt_requires_force_reason")
  if opts.block = some false && !opts.awaitReply then
    throw (.error none "block_requires_awaitReply")
  return { recipient, room, message := opts.message, priority, reason := opts.reason,
           awaitReply := opts.awaitReply, launch := opts.awaitReply && opts.block == some false,
           timeoutMs := min maxAwaitReplyTimeoutMs
             (max minAwaitReplyTimeoutMs (opts.timeoutMs.getD defaultAwaitReplyTimeoutMs)),
           refs := opts.refs, taskPackage := opts.taskPackage, broadcast := opts.broadcast,
           replyTargets, interrupt := opts.interrupt, signal := opts.signal }

/-! ### Send -/

def sendFrame (env : ClientEnv) (now : Int) (st : ClientState ν) (plan : SendPlan) : ClientFrame where
  type := .msg
  id := env.rt.makeMsgId st.ids
  ts := env.rt.toISOString now
  sender := st.conn.name
  recipient := plan.recipient
  room := some plan.room
  priority := some plan.priority
  body := some plan.message
  refs := plan.refs
  taskPackage := plan.taskPackage
  broadcast := if plan.broadcast then some true else none
  replyTargets := plan.replyTargets
  reasonHash := if plan.priority = .force then some (env.rt.sha256 (plan.reason.getD "")) else none
  interrupt := if plan.interrupt then some true else none
  expiresAt := if plan.awaitReply then some (env.rt.toISOString (now + plan.timeoutMs)) else none

/-- A mission, its target and its entry. -/
def registerMission (st : ClientState ν) (now : Int) (plan : SendPlan) (id : String) :
    ClientState ν :=
  let recipient := plan.recipient.getD "*"
  let mission : Mission := { recipient, room := plan.room, sentAt := now }
  let book := { st.book with
    awaitTargets := st.book.awaitTargets.set id (recipient, plan.room)
    awaitedMissions := pruneMap missionCap (st.book.awaitedMissions.set id mission) }
  { st with book }.setPending (book.pending.register now id (now + plan.timeoutMs) plan.launch)

/-- `waitAck`. -/
def waitAck (st : ClientState ν) (id : String) (c : CallId) : ClientState ν :=
  { st with ackWaiters := st.ackWaiters.set id c }

/-- `send`, from the frame to the wait for its acknowledgement. -/
def issueSend (env : ClientEnv) (now : Int) (st : ClientState ν) (c : CallId) (plan : SendPlan) :
    ClientState ν :=
  let frame := sendFrame env now st plan
  let st := st.useId
  let st := if plan.awaitReply then registerMission st now plan frame.id else st
  let st := waitAck st frame.id c
  match writeOrQueue env st frame with
  | some st => st.setStage c (.sendAck plan frame.id)
  | none => st.finish c (.rejected .frameSize)

def startSend (env : ClientEnv) (now : Int) (st : ClientState ν) (c : CallId) (opts : SendOpts) :
    ClientState ν :=
  match planSend env st opts with
  | .error result => st.finish c (.send result)
  | .ok plan =>
      if st.conn.online then issueSend env now st c plan
      else connect env (st.setStage c (.sendConnect plan)) (.call c)

/-- `BLOCKED_CODES`. -/
def blockedCodes : List MeshErrorCode :=
  [.policyDenied, .rateLimited, .peerNotFound, .notMember, .observerReadonly, .forceRequiresReason]

/-- What a send reports for an acknowledgement that is not an error. -/
def ackResult (id : String) (ack : Ack) (routedTo room : Option String) : SendResult :=
  match ack.status with
  | some "delivered" => .delivered id ack.deliveredCount ack.totalCount routedTo room
  | some "queued_offline" => .queuedOffline id ack.deliveredCount ack.totalCount routedTo room
  | status => .error (some id)
      (String.ofList ("unexpected_ack_status: ".toList ++ (status.getD "missing").toList))

/-- The mission of a refused send is dead. -/
def failMission (st : ClientState ν) (id : String) (code : Option MeshErrorCode) : ClientState ν :=
  let reason := CancelReason.refused code
  let st := (st.setPending (st.book.pending.cancel id reason)).dropTarget id
  st.setMission id fun m => { m with status := .failed, response := some reason.text }

/-- `send` after its acknowledgement. -/
def sendAcked (st : ClientState ν) (c : CallId) (plan : SendPlan) (id : String) (ack : Ack) :
    ClientState ν :=
  if ack.isError then
    let st := if plan.awaitReply then failMission st id (ack.code.bind fun code => code) else st
    let code := ack.codeOr
    st.finish c (.send (if code ∈ blockedCodes then .blocked (some id) code.text
      else .error (some id) code.text))
  else if !plan.awaitReply then
    st.finish c (.send (ackResult id ack ack.routedTo (if plan.broadcast then some plan.room else none)))
  else if plan.launch then (st.watch id .launch).finish c (.send (ackResult id ack none none))
  else
    let st := if plan.signal && st.aborted.has c then
        st.setPending (st.book.pending.cancel id .cancelled)
      else st
    (st.setStage c (.sendReply plan id)).watch id (.call c)

/-- An expired mission, in the foreground or not. -/
def expireMission (st : ClientState ν) (id : String) : ClientState ν :=
  (st.setMission id fun m => { m with status := .expired }).emit (.expired id)

/-- `send` after its answer, or what came instead of one. -/
def sendResolved (st : ClientState ν) (c : CallId) (id : String) (r : Resolution ν) :
    ClientState ν :=
  let st := st.dropTarget id
  match r with
  | .reply frame => st.finish c (.send (.reply id (frame.body.getD "") (frame.bodyHash.getD "")))
  | .expired => (expireMission st id).finish c (.send (.expired id))
  | .error .cancelled => (st.dropMission id).finish c (.send (.error (some id) "cancelled"))
  | .error reason => st.finish c (.send (.error (some id) reason.text))

/-- The `then` of a launched mission. -/
def launchResolved (st : ClientState ν) (id : String) (r : Resolution ν) : ClientState ν :=
  let st := st.dropTarget id
  match r with
  | .expired => expireMission st id
  | _ => st

/-! ### Reply -/

structure ReplyOpts where
  refs : Option (List String) := none
  /-- `to`. -/
  recipient : Option String := none
  replyAll : Bool := false
  receipt : Bool := false
  room : Option String := none
deriving DecidableEq

/-- The checks of `reply`. -/
def planReply (st : ClientState ν) (msgId body : String) (opts : ReplyOpts) :
    Except SendResult ReplyPlan := do
  let original := st.inbox.get? msgId
  let oneShot := opts.room.isSome && original.isNone && (opts.recipient.isSome || opts.replyAll)
  if (original.bind fun f => f.sender).isNone && !oneShot then
    throw (.error (some msgId) "reply_without_target")
  if opts.replyAll && opts.recipient.isSome then throw (.error (some msgId) "reply_all_with_to")
  if byteLength body.toList > maxBodyBytes then
    throw (.error (some msgId) "invalid_frame: body too large")
  if opts.refs.any fun refs => decide (refs.length > maxRefs) || !refs.all isValidRefPath then
    throw (.error (some msgId) "invalid_frame: bad refs")
  return { msgId, body, refs := opts.refs, recipient := opts.recipient, replyAll := opts.replyAll,
           receipt := opts.receipt,
           room := (original.bind fun f => f.room).orElse fun _ => opts.room,
           designated := original.bind fun f => f.replyTargets,
           sender := original.bind fun f => f.sender }

/-- Whom a reply goes to; an error is a reason to refuse it. -/
def replyRoute (rt : Runtime) (plan : ReplyPlan) :
    Except String (Option String × Option (List String)) :=
  if plan.replyAll then .ok (none, none)
  else
    match plan.recipient with
    | some name =>
        let target := normalizeAlias rt name
        if isValidAlias target then .ok (some target, none) else .error "invalid_alias"
    | none =>
        match plan.designated.filter fun targets => !targets.isEmpty with
        | some targets =>
            if targets.length > maxReplyTargets then .error "invalid_frame: bad replyTargets"
            else .ok (none, some targets)
        | none =>
            match plan.sender.filter isValidAlias with
            | some target => .ok (some target, none)
            | none => .error "invalid_alias"

def issueReply (env : ClientEnv) (now : Int) (st : ClientState ν) (c : CallId) (plan : ReplyPlan) :
    ClientState ν :=
  match replyRoute env.rt plan with
  | .error reason => st.finish c (.send (.error (some plan.msgId) reason))
  | .ok (recipient, replyTargets) =>
      let frame : ClientFrame :=
        { type := .reply, id := env.rt.makeMsgId st.ids, ts := env.rt.toISOString now,
          sender := st.conn.name, recipient, room := plan.room, replyTo := some plan.msgId,
          replyTargets, body := some plan.body, refs := plan.refs,
          replyAll := if plan.replyAll then some true else none,
          receipt := if plan.receipt then some true else none }
      match writeOrQueue env (waitAck st.useId frame.id c) frame with
      | some st => st.setStage c (.replyAck frame.id)
      | none => (waitAck st.useId frame.id c).finish c (.rejected .frameSize)

def startReply (env : ClientEnv) (now : Int) (st : ClientState ν) (c : CallId)
    (msgId body : String) (opts : ReplyOpts) : ClientState ν :=
  match planReply st msgId body opts with
  | .error result => st.finish c (.send result)
  | .ok plan =>
      if st.conn.online then issueReply env now st c plan
      else connect env (st.setStage c (.replyConnect plan)) (.call c)

/-- `reply` after its acknowledgement. -/
def replyAcked (st : ClientState ν) (c : CallId) (id : String) (ack : Ack) : ClientState ν :=
  if ack.isError then st.finish c (.send (.error (some id) ack.codeOr.text))
  else if ack.status = some "dropped_offline" then
    st.finish c (.send (.error (some id) "dropped_offline"))
  else st.finish c (.send (.delivered id ack.deliveredCount ack.totalCount none none))

/-! ### Round trips -/

/-- The write of a round trip, once the client is online. -/
def sendTrip (env : ClientEnv) (st : ClientState ν) (c : CallId) (use : TripUse)
    (frame : ClientFrame) : ClientState ν :=
  let st := waitAck st frame.id c
  match writeOrQueue env st frame with
  | some st => st.setStage c (.tripAck use frame.id)
  | none => st.finish c (.rejected .frameSize)

/-- `roundTrip`: a closed client stays closed. -/
def roundTrip (env : ClientEnv) (st : ClientState ν) (c : CallId) (use : TripUse)
    (frame : ClientFrame) : ClientState ν :=
  if st.conn.online then sendTrip env st c use frame
  else if st.conn.userClosed then
    (st.setStage c (.tripAck use frame.id)).push [.acked c (.failed .shuttingDown)]
  else connect env (st.setStage c (.tripConnect use frame)) (.call c)

/-- The code a round trip reports where it could not connect. -/
def tripCode (err : ConnectError) : MeshErrorCode :=
  if err.isAliasTaken then .aliasTaken else if err.isTimeout then .timeout else .brokerUnavailable

/-- `setOwnReservations`. -/
def setOwnReservations (st : ClientState ν) (next : List FileReservation) : ClientState ν :=
  { st with
    ownReservations := next
    peerReservations := st.peerReservations.set st.conn.name (next.map FileReservation.json) }

/-- A round trip after its acknowledgement. -/
def tripAcked (st : ClientState ν) (c : CallId) (use : TripUse) (id : String) (ack : Ack) :
    ClientState ν :=
  match use with
  | .reserve merged =>
      if ack.isError then st.finish c (.send (.error none ack.codeOr.text))
      else (setOwnReservations st merged).finish c (.send (.delivered id none none none none))
  | .release merged releasing =>
      if ack.isError then st.finish c (.released [] (.error none ack.codeOr.text))
      else
        (setOwnReservations st merged).finish c
          (.released releasing (.delivered id none none none none))
  | .join room role =>
      if ack.isError then st.finish c (.rejected (.code ack.codeOr))
      else
        { st with joinedRooms := st.joinedRooms.add room, roomRoles := st.roomRoles.set room role
          }.finish c .void
  | .leave room =>
      if ack.isError then
        let st := if ack.code = some (some .notMember) then
            { st with joinedRooms := st.joinedRooms.delete room }
          else st
        st.finish c (.rejected (.code ack.codeOr))
      else
        { st with joinedRooms := st.joinedRooms.delete room, roomRoles := st.roomRoles.delete room
          }.finish c .void

/-- A frame with nothing but its type, its sender and a stamp. -/
def bareFrame (env : ClientEnv) (now : Int) (st : ClientState ν) (type : MeshFrameType) :
    ClientFrame :=
  { type, id := env.rt.makeMsgId st.ids, ts := env.rt.toISOString now, sender := st.conn.name }

/-! ### Reservations -/

/-- The trimmed patterns, or the first that is not valid. -/
def validPatterns : List String → Except String (List String)
  | [] => .ok []
  | raw :: rest =>
      let pattern := trim raw
      if pattern.isEmpty || !isValidReservationPattern pattern then .error raw
      else (validPatterns rest).map fun valid => pattern :: valid

/-- Replace the reservation of a pattern, or add it at the end. -/
def reservePattern (merged : List FileReservation) (entry : FileReservation) :
    List FileReservation :=
  match merged.findIdx? fun r => r.pattern == entry.pattern with
  | some i => merged.set i entry
  | none => merged ++ [entry]

/-- The list a `reserve` asks for. -/
def mergeReserve (env : ClientEnv) (now : Int) (own : List FileReservation)
    (patterns : List String) (reason : Option String) : List FileReservation :=
  let reason := (reason.filter fun r => !isBlank r).map fun r =>
    String.ofList (sliceFront 512 (trim r).toList)
  patterns.foldl (fun merged pattern =>
    reservePattern merged { pattern, reason, since := some (env.rt.toISOString now) }) own

/-- The list a `release` asks for. -/
def mergeRelease (own : List FileReservation) (releasing : List String) : List FileReservation :=
  own.filter fun r => !releasing.contains r.pattern

def issueReserve (env : ClientEnv) (now : Int) (st : ClientState ν) (c : CallId)
    (patterns : List String) (reason : Option String) : ClientState ν :=
  let merged := mergeReserve env now st.ownReservations patterns reason
  roundTrip env st.useId c (.reserve merged)
    { bareFrame env now st .reserve with reservations := some merged }

def startReserve (env : ClientEnv) (now : Int) (st : ClientState ν) (c : CallId)
    (patterns : List String) (reason : Option String) : ClientState ν :=
  match validPatterns patterns with
  | .error raw => st.finish c (.send (.error none
      (String.ofList ("invalid_pattern: ".toList ++ sliceFront 80 raw.toList))))
  | .ok [] => st.finish c (.send (.error none "invalid_pattern"))
  | .ok (p :: ps) =>
      if st.conn.online then issueReserve env now st c (p :: ps) reason
      else connect env (st.setStage c (.reserveConnect (p :: ps) reason)) (.call c)

def issueRelease (env : ClientEnv) (now : Int) (st : ClientState ν) (c : CallId)
    (merged : List FileReservation) (releasing : List String) : ClientState ν :=
  roundTrip env st.useId c (.release merged releasing)
    { bareFrame env now st .reserve with reservations := some merged }

/-- The patterns a `release` is about. -/
def releasedPatterns (own : List FileReservation) : Option (List String) → List String
  | none => own.map FileReservation.pattern
  | some ps => (ps.map trim).filter fun p => !p.isEmpty

/-- `release`; the list is computed before it connects. -/
def startRelease (env : ClientEnv) (now : Int) (st : ClientState ν) (c : CallId)
    (patterns : Option (List String)) : ClientState ν :=
  let releasing := releasedPatterns st.ownReservations patterns
  if releasing.isEmpty then st.finish c (.released [] (.delivered "" none none none none))
  else
    let merged := mergeRelease st.ownReservations releasing
    if st.conn.online then issueRelease env now st c merged releasing
    else connect env (st.setStage c (.releaseConnect merged releasing)) (.call c)

/-! ### Rooms, status, notices -/

def startJoin (env : ClientEnv) (now : Int) (st : ClientState ν) (c : CallId) (room : String)
    (role : MeshRole) : ClientState ν :=
  roundTrip env st.useId c (.join room role)
    { bareFrame env now st .join with room := some room, role := some role }

def startLeave (env : ClientEnv) (now : Int) (st : ClientState ν) (c : CallId) (room : String) :
    ClientState ν :=
  roundTrip env st.useId c (.leave room) { bareFrame env now st .leave with room := some room }

/-- `forgetRoom`. -/
def forgetRoom (st : ClientState ν) (room : String) : ClientState ν :=
  { st with joinedRooms := st.joinedRooms.delete room, roomRoles := st.roomRoles.delete room }

def startStatus (env : ClientEnv) (now : Int) (st : ClientState ν) (c : CallId)
    (room : Option String) : ClientState ν :=
  if !st.conn.online then st.finish c (.snapshot [] [] none)
  else
    let frame := { bareFrame env now st .statusReq with room }
    let st := { st.useId with statusWaiters := st.statusWaiters.set frame.id c }
    match writeOrQueue env st frame with
    | some st => st.setStage c (.status frame.id)
    | none => st.finish c (.rejected .frameSize)

/-- A frame nobody waits for. -/
def sendNotice (env : ClientEnv) (st : ClientState ν) (frame : ClientFrame) : ClientState ν :=
  if st.conn.online then (writeOrQueue env st.useId frame).getD st.useId else st

/-- `sendActivity`. -/
def sendActivity (env : ClientEnv) (now : Int) (st : ClientState ν) (state : String) :
    ClientState ν :=
  sendNotice env st { bareFrame env now st .activity with status := some state }

/-- `sendRead`. -/
def sendRead (env : ClientEnv) (now : Int) (st : ClientState ν) (msgId recipient : String) :
    ClientState ν :=
  sendNotice env st
    { bareFrame env now st .read with recipient := some recipient, reads := some msgId }

/-- `sendRemind`, which names the message by its own id. -/
def sendRemind (env : ClientEnv) (now : Int) (st : ClientState ν) (msgId : String) :
    ClientState ν :=
  match st.book.awaitTargets.get? msgId with
  | none => st
  | some (recipient, room) =>
      if (st.peerActivity.get? recipient).any fun a => a = .rateLimited || a = .blocked then st
      else
        let frame := { bareFrame env now st .remind with
          id := msgId, recipient := some recipient, room := some room, replyTo := some msgId,
          body := some (String.ofList ("reminder: reply expected for ".toList ++ msgId.toList)) }
        (writeOrQueue env st frame).getD st

/-! ### Waiting for a batch -/

/-- `cancelAllAwaited`. -/
def cancelAllAwaited (st : ClientState ν) : ClientState ν :=
  let st := st.book.awaitTargets.keys.foldl (fun st id =>
    (st.dropMission id).setPending (st.book.pending.cancel id .cancelled)) st
  { st with book := { st.book with awaitTargets := .empty } }

/-- The missions a `waitAll` reports on. -/
def waitAllTargets (env : ClientEnv) (now : Int) (book : Book ν) : List String :=
  let recent := book.awaitedMissions.entries.filter fun e =>
    decide (e.2.status = .answered) && !book.reportedMissions.has e.1 &&
      e.2.ts.any fun ts => (env.rt.dateParse ts).any fun t => now - t ≤ recentAnswerWindowMs
  (Js.Set.ofList (book.awaitTargets.keys ++ recent.map Prod.fst)).elems

/-- `lastInboundSince`. -/
def lastInboundSince (env : ClientEnv) (now : Int) (book : Book ν) (name : String) (since : Int) :
    Option LastInbound :=
  (book.lastInboundFrom.get? (normalizeAlias env.rt name)).filter fun last =>
    (env.rt.dateParse last.ts).any fun t => since ≤ t && t ≤ now + 5000

/-- `summarize`. -/
def summarize (env : ClientEnv) (now : Int) (book : Book ν) (start : Int) (status : WaitAllStatus)
    (targets : List String) : WaitAllSummary :=
  let known := targets.filterMap fun id => (book.awaitedMissions.get? id).map fun m => (id, m)
  let answers := known.filterMap fun e =>
    if e.2.answered then e.2.response.map fun response => (e.1, e.2.recipient, response) else none
  let missing := (known.filter fun e => !(e.2.answered && e.2.response.isSome)).map fun e =>
    ⟨e.1, e.2.recipient, lastInboundSince env now book e.2.recipient e.2.sentAt⟩
  { status, total := targets.length, answered := answers.length, elapsedMs := now - start,
    missing, answers }

/-- The missions a verdict reports are not listed again. -/
def reportMissions (book : Book ν) (targets : List String) : Book ν :=
  let answered := targets.filter fun id =>
    (book.awaitedMissions.get? id).any fun m => m.answered
  let reported := answered.foldl Js.Set.add book.reportedMissions
  let reported :=
    if reported.size > 512 then (reported.elems.take 256).foldl Js.Set.delete reported else reported
  { book with reportedMissions := reported }

/-- `done` of a `waitAll`. -/
def endWaitAll (env : ClientEnv) (now : Int) (st : ClientState ν) (c : CallId) (start : Int)
    (targets : List String) (status : WaitAllStatus) : ClientState ν :=
  let book := { st.book with waitAllInFlight := st.book.waitAllInFlight - 1 }
  let book := if status = .cancelled then book else reportMissions book targets
  { st with book }.finish c (.verdict (summarize env now book start status targets))

/-- `tick` of a `waitAll`. -/
def tickWaitAll (env : ClientEnv) (now : Int) (st : ClientState ν) (c : CallId)
    (start deadline : Int) (targets : List String) (signal : Bool) : ClientState ν :=
  if targets.all fun id => (st.book.awaitedMissions.get? id).any fun m => m.answered then
    endWaitAll env now st c start targets .complete
  else if deadline ≤ now then endWaitAll env now st c start targets .timeout
  else st.setStage c (.waitAll start deadline targets signal)

def startWaitAll (env : ClientEnv) (now : Int) (st : ClientState ν) (c : CallId) (timeoutMs : Int)
    (signal : Bool) : ClientState ν :=
  let targets := waitAllTargets env now st.book
  let st := { st with book := { st.book with waitAllInFlight := st.book.waitAllInFlight + 1 } }
  if signal && st.aborted.has c then endWaitAll env now st c now targets .cancelled
  else tickWaitAll env now st c now (now + max 25 timeoutMs) targets signal

end PiMesh
