/-
The control plane and the task leases of a client.

`control` asks a peer to act and waits for its `ctl_ack`; `claim`, `releaseLease` and
`leaseStatus` ask the broker about a task.  Neither is queued: a client that is not online
refuses them at once.  Their waiters are maps of their own, and what settles one of them
settles the promise of the caller directly.

A `MeshClient` is the client of the other modules with these requests added.  Calls of the
two kinds are numbered separately.
-/
import PiMesh.Client.Events

namespace PiMesh

open Js

variable {ν : Type} [Number ν]

def ctlAckTimeoutMs : Int := 15000

/-! ### Results -/

structure CtlResult where
  status : String
  reason : Option String := none
  settled : Option Bool := none
  target : Option String := none
  ctlId : Option String := none
deriving DecidableEq

structure LeaseInfo where
  leaseId : String
  task : String
  owner : String
  paths : List String
  fence : Int
  epoch : Int
  expiresAt : String
deriving DecidableEq

inductive LeaseResult where
  | granted (lease : LeaseInfo)
  | current (lease : LeaseInfo)
  | released (lease : LeaseInfo)
  | held (holder : String)
  | notHeld
  | error (reason : String)
deriving DecidableEq

/-- What these calls return. -/
inductive PlaneResult where
  | ctl (result : CtlResult)
  | lease (result : LeaseResult)
  | rejected (reason : Rejection)
deriving DecidableEq

/-- The statuses `mapCtlReply` passes on with what the target says about its turn. -/
def settledStatuses : List String :=
  ["aborted", "redirected", "not_busy", "still_busy", "abort_unavailable", "not_found",
    "not_pausable", "not_paused", "not_running", "not_supported", "unsupported",
    "identity_mismatch"]

/-- `mapCtlReply`. -/
def mapCtlReply (frame : Inbound ν) (target : Option String) : CtlResult :=
  let target := frame.target.orElse fun _ => target
  let ctlId := some (frame.replyTo.getD frame.id)
  if frame.type = .error then
    match frame.code with
    | some .unreachable =>
        { status := "unreachable", reason := some "peer is offline (ctl is never queued)", target,
          ctlId }
    | some .policyDenied =>
        { status := "not_authorized", reason := some "policy_denied", target, ctlId }
    | code => { status := "error", reason := some ((code.map MeshErrorCode.text).getD "error"),
                target, ctlId }
  else
    let status := frame.status.getD "error"
    if status ∈ settledStatuses then { status, settled := frame.settled, target, ctlId }
    else if status ∈ ["stopped", "paused", "resumed", "steered"] then { status, target, ctlId }
    else if status = "timeout" then
      { status, reason := some "target-side timeout: the action may still be running", target, ctlId }
    else if status = "not_authorized" then
      { status, reason := some (frame.body.getD "not_authorized"), target, ctlId }
    else
      { status := "error",
        reason := some (String.ofList ("unknown ctl_ack status: ".toList ++ status.toList)),
        target, ctlId }

/-- `leaseResult`. -/
def leaseResult (frame : Inbound ν) : LeaseResult :=
  let lease : LeaseInfo :=
    { leaseId := frame.leaseId.getD "", task := frame.task.getD "", owner := frame.owner.getD "",
      paths := frame.paths.getD [], fence := frame.fence.getD 0, epoch := frame.epoch.getD 0,
      expiresAt := frame.expiresAt.getD "" }
  match frame.status with
  | some "granted" => .granted lease
  | some "released" => .released lease
  | some "current" => .current lease
  | some "held" => .held (frame.owner.getD "?")
  | some "not_held" => .notHeld
  | status => .error (frame.body.getD (status.getD "lease_failed"))

/-! ### The client -/

/-- Who waits for a `ctl_ack`. -/
structure CtlWaiter where
  call : CallId
  target : Option String
  timeoutMs : Int
deriving DecidableEq

structure MeshClient (ν : Type) where
  base : ClientState ν
  ctlWaiters : Map String CtlWaiter := .empty
  /-- The call, and what it asked for. -/
  leaseWaiters : Map String (CallId × MeshFrameType) := .empty
  answers : Map CallId PlaneResult := .empty

namespace MeshClient

/-- A call returns; a promise that is settled stays as it is. -/
def answer (m : MeshClient ν) (c : CallId) (r : PlaneResult) : MeshClient ν :=
  { m with answers := if m.answers.has c then m.answers else m.answers.set c r }

/-- `this.ctlWaiters.delete(id)`. -/
def dropCtl (m : MeshClient ν) (id : String) : MeshClient ν :=
  { m with ctlWaiters := m.ctlWaiters.delete id }

/-- `this.leaseWaiters.delete(id)`. -/
def dropLease (m : MeshClient ν) (id : String) : MeshClient ν :=
  { m with leaseWaiters := m.leaseWaiters.delete id }

/-- The number of a call has not been used. -/
def isNew (m : MeshClient ν) (c : CallId) : Bool :=
  !m.answers.has c && m.ctlWaiters.values.all (fun w => w.call != c) &&
    m.leaseWaiters.values.all fun w => w.1 != c

end MeshClient

/-- `homeRoom`. -/
def homeRoom (st : ClientState ν) : String := st.joinedRooms.elems.head?.getD defaultRoom

/-! ### Control -/

structure ControlOpts where
  /-- `to`. -/
  recipient : String
  action : CtlAction
  target : Option String := none
  message : Option String := none
  reason : Option String := none
  timeoutMs : Option Int := none
deriving DecidableEq

/-- The message says nothing. -/
def saysNothing (message : Option String) : Bool := message.all isBlank

/-- The checks of `control`, in their order; an error is what it returns. -/
def planControl (env : ClientEnv) (st : ClientState ν) (opts : ControlOpts) :
    Except CtlResult String := do
  let target := normalizeAlias env.rt opts.recipient
  let refuse (reason : String) : CtlResult := { status := "error", reason := some reason }
  if !isValidAlias target then throw (refuse "invalid_alias")
  if target = st.conn.name then throw (refuse "self_control")
  if (opts.action = .abort ∨ opts.action = .redirect) ∧ saysNothing opts.reason then
    throw (refuse "force_requires_reason")
  if opts.action = .redirect ∧ saysNothing opts.message then
    throw (refuse "redirect_requires_message")
  if opts.action = .runSteer ∧ saysNothing opts.message then
    throw (refuse "run_steer_requires_message")
  if opts.action ∈ targetActions ∧
      !(opts.target.any fun t => lengthIn 1 maxCtlTargetChars t && isCtlTarget t) then
    throw (refuse "invalid_target")
  if opts.message.any fun m => decide (byteLength m.toList > maxBodyBytes) then
    throw (refuse "invalid_frame: body too large")
  if st.conn.writable.isNone then throw (refuse "broker_unavailable")
  if st.conn.brokerProto < 2 then
    throw { refuse "broker_too_old (restart the broker to enable the control plane)" with
            target := opts.target }
  return target

def ctlFrame (env : ClientEnv) (now : Int) (st : ClientState ν) (recipient : String)
    (opts : ControlOpts) : ClientFrame :=
  { bareFrame env now st .ctl with
    recipient := some recipient, room := some (homeRoom st), action := some opts.action.text,
    target := opts.target, body := opts.message, reasonHash := opts.reason.map env.rt.sha256 }

/-- The message of a `FrameSizeError`. -/
def frameSizeText (ν : Type) [Number ν] (rt : Runtime) (maxFrameBytes : Nat) (f : ClientFrame) :
    String :=
  let bytes := byteLength (encodeLine (f.members rt : Members ν))
  String.ofList ("frame ".toList ++ (toString bytes).toList ++ "B exceeds max ".toList ++
    (toString maxFrameBytes).toList ++ ['B'])

/-- `control`; the waiter is there before the frame is written. -/
def control (env : ClientEnv) (now : Int) (m : MeshClient ν) (c : CallId) (opts : ControlOpts) :
    MeshClient ν :=
  match planControl env m.base opts with
  | .error r => m.answer c (.ctl r)
  | .ok recipient =>
      let frame := ctlFrame env now m.base recipient opts
      let waiter : CtlWaiter :=
        { call := c, target := opts.target, timeoutMs := opts.timeoutMs.getD ctlAckTimeoutMs }
      let m := { m with base := m.base.useId, ctlWaiters := m.ctlWaiters.set frame.id waiter }
      match m.base.conn.writable with
      | none => m
      | some sock =>
          if frame.encodes ν env.rt env.maxFrameBytes then
            { m with base := { m.base with sent := m.base.sent ++ [(sock, frame)] } }
          else
            (m.dropCtl frame.id).answer c (.ctl
              { status := "error", reason := some (frameSizeText ν env.rt env.maxFrameBytes frame),
                target := opts.target, ctlId := some frame.id })

structure CtlAckOpts where
  replyTo : String
  /-- `to`. -/
  recipient : String
  status : String
  action : Option String := none
  settled : Option Bool := none
  code : Option MeshErrorCode := none
  reason : Option String := none
deriving DecidableEq

def ctlAckFrame (env : ClientEnv) (now : Int) (st : ClientState ν) (ack : CtlAckOpts) :
    ClientFrame :=
  { bareFrame env now st .ctlAck with
    recipient := some ack.recipient, replyTo := some ack.replyTo, status := some ack.status,
    action := ack.action, settled := ack.settled, code := ack.code, body := ack.reason }

/-- `sendCtlAck`, which is best effort. -/
def sendCtlAck (env : ClientEnv) (now : Int) (m : MeshClient ν) (ack : CtlAckOpts) : MeshClient ν :=
  match m.base.conn.writable with
  | none => m
  | some sock =>
      let frame := ctlAckFrame env now m.base ack
      if frame.encodes ν env.rt env.maxFrameBytes then
        { m with base := { m.base.useId with sent := m.base.sent ++ [(sock, frame)] } }
      else { m with base := m.base.useId }

/-! ### Leases -/

/-- `requestLease`, for a frame that was made. -/
def requestLease (env : ClientEnv) (m : MeshClient ν) (c : CallId) (frame : ClientFrame) :
    MeshClient ν :=
  match m.base.conn.writable with
  | none => m.answer c (.lease (.error "broker_unavailable"))
  | some sock =>
      if m.base.conn.brokerProto < 2 then
        m.answer c (.lease (.error "broker_too_old (restart the broker to enable task leases)"))
      else
        let m := { m with leaseWaiters := m.leaseWaiters.set frame.id (c, frame.type) }
        if frame.encodes ν env.rt env.maxFrameBytes then
          { m with base := { m.base with sent := m.base.sent ++ [(sock, frame)] } }
        else m.answer c (.rejected .frameSize)

/-- What a lease request asks for. -/
inductive LeaseAsk where
  | claim (task : String) (paths : List String) (ttlMs : Option Int)
  | release (task leaseId : String)
  | status (task : String)
deriving DecidableEq

/-- The frame of `claim`, `releaseLease` and `leaseStatus`. -/
def leaseFrame (env : ClientEnv) (now : Int) (st : ClientState ν) : LeaseAsk → ClientFrame
  | .claim task paths ttlMs =>
      { bareFrame env now st .claim with
        room := some (homeRoom st), task := some task, paths := some paths, ttlMs }
  | .release task leaseId =>
      { bareFrame env now st .release with
        room := some (homeRoom st), task := some task, leaseId := some leaseId }
  | .status task =>
      { bareFrame env now st .leaseStatus with room := some (homeRoom st), task := some task }

/-- `claim`, `releaseLease` and `leaseStatus`: the frame is made before anything is checked. -/
def askLease (env : ClientEnv) (now : Int) (m : MeshClient ν) (c : CallId) (ask : LeaseAsk) :
    MeshClient ν :=
  requestLease env { m with base := m.base.useId } c (leaseFrame env now m.base ask)

/-! ### Frames -/

/-- A `lease` answers the request it names, or the one whose id it has. -/
def onLease (m : MeshClient ν) (frame : Inbound ν) : MeshClient ν :=
  let key := frame.replyTo.getD frame.id
  match m.leaseWaiters.get? key with
  | some w => (m.dropLease key).answer w.1 (.lease (leaseResult frame))
  | none => m

/-- Settle the waiter of a control request, if there is one. -/
def settleCtl (m : MeshClient ν) (key : String) (frame : Inbound ν) : MeshClient ν :=
  match m.ctlWaiters.get? key with
  | some w => (m.dropCtl key).answer w.call (.ctl (mapCtlReply frame w.target))
  | none => m

def onCtlAck (m : MeshClient ν) (frame : Inbound ν) : MeshClient ν :=
  match frame.replyTo with
  | some key => settleCtl m key frame
  | none => m

/-- What `onFrame` does beside the client of the other modules; an error has nothing to say
to the leases. -/
def onPlaneFrame (m : MeshClient ν) (frame : Inbound ν) : MeshClient ν :=
  match frame.type with
  | .lease => onLease m frame
  | .ctlAck => onCtlAck m frame
  | .error => settleCtl m frame.id frame
  | _ => m

/-! ### Timers -/

/-- No `ctl_ack` in time. -/
def handleCtlTimeout (m : MeshClient ν) (id : String) : MeshClient ν :=
  match m.ctlWaiters.get? id with
  | some w =>
      let reason := String.ofList ("no ctl_ack within ".toList ++ (toString w.timeoutMs).toList ++
        "ms — the target may have acted".toList)
      (m.dropCtl id).answer w.call (.ctl
        { status := "timeout", reason := some reason, target := w.target, ctlId := some id })
  | none => m

/-- The write of a control request failed. -/
def handleCtlWriteFailed (m : MeshClient ν) (id message : String) : MeshClient ν :=
  match m.ctlWaiters.get? id with
  | some w =>
      let reason := String.ofList ("write_failed: ".toList ++ message.toList)
      (m.dropCtl id).answer w.call (.ctl
        { status := "error", reason := some reason, target := w.target, ctlId := some id })
  | none => m

def handleLeaseTimeout (m : MeshClient ν) (id : String) : MeshClient ν :=
  match m.leaseWaiters.get? id with
  | some w => (m.dropLease id).answer w.1 (.lease (.error "timeout"))
  | none => m

/-! ### Steps -/

inductive MeshEvent (ν : Type) where
  /-- An event of the client of the other modules. -/
  | base (e : ClientEvent ν)
  | control (c : CallId) (opts : ControlOpts)
  | sendCtlAck (ack : CtlAckOpts)
  | askLease (c : CallId) (ask : LeaseAsk)
  | ctlTimeout (id : String)
  | ctlWriteFailed (id message : String)
  | leaseTimeout (id : String)

/-- A timer, which waits until no microtask is queued. -/
def whenIdle (m : MeshClient ν) (f : MeshClient ν → MeshClient ν) : MeshClient ν :=
  if m.base.jobs.isEmpty then f { m with base := { m.base with reading := none } } else m

/-- What an event of the client of the other modules does here: a line that reaches `onFrame`
is read for the waiters of these requests too. -/
def handleBase (env : ClientEnv) (now : Int) (m : MeshClient ν) (e : ClientEvent ν) : MeshClient ν :=
  let m' := { m with base := clientStep env now m.base e }
  match e with
  | .line sock frame => if m.base.listens sock then onPlaneFrame m' frame else m'
  | _ => m'

/-- The state after an event at time `now`. -/
def meshStep (env : ClientEnv) (now : Int) (m : MeshClient ν) : MeshEvent ν → MeshClient ν
  | .base e => handleBase env now m e
  | .control c opts => if m.isNew c then control env now m c opts else m
  | .sendCtlAck ack => sendCtlAck env now m ack
  | .askLease c ask => if m.isNew c then askLease env now m c ask else m
  | .ctlTimeout id => whenIdle m fun m => handleCtlTimeout m id
  | .ctlWriteFailed id message => whenIdle m fun m => handleCtlWriteFailed m id message
  | .leaseTimeout id => whenIdle m fun m => handleLeaseTimeout m id

/-- A new client. -/
def MeshClient.init (name : String) (rooms : List String) (reservations : List FileReservation) :
    MeshClient ν :=
  { base := .init name rooms reservations }

/-- A labelled step of a client. -/
def MeshStep (env : ClientEnv) (m : MeshClient ν) (e : Int × MeshEvent ν) (m' : MeshClient ν) :
    Prop :=
  meshStep env e.1 m e.2 = m'

end PiMesh
