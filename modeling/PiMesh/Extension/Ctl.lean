/-
A control frame on the session it is for.

`handleCtlFrame` is an `async` function.  It sleeps between two looks at a turn that was
aborted, and it awaits a local extension, which answers on the event bus any number of times or
never.  Here it is cut at these points.  While the bus emits the request, local handlers may
answer at once; a timer or the awaiting function runs only when `emit` is done.

The alias, the list of allowed senders and the event bus are those of the time of the call.
-/
import PiMesh.Client.Frames
import PiMesh.Lib.Hosted
import PiMesh.Lib.Transition

namespace PiMesh

open Js Hosting

variable {ν : Type}

/-- What `handleCtlFrame` reads of a frame. -/
structure CtlFrame where
  id : String
  /-- `from`. -/
  sender : Option String := none
  action : Option String := none
  target : Option String := none
  body : Option String := none
  bodyHash : Option String := none
  reasonHash : Option String := none
deriving DecidableEq

/-- The session and its host. -/
structure CtlTarget where
  /-- `client.alias`. -/
  self : String
  ctlAllowFrom : List String := []
  /-- `abort` and `isIdle` are functions. -/
  canAbort : Bool := true
  /-- The host has an event bus. -/
  hasBus : Bool := true
  settleTimeoutMs : Int := 10000

/-- What is emitted to the local extensions. -/
structure LocalCtlRequest where
  ctlId : String
  action : String
  target : Option String
  message : Option String
  sender : String
  recipient : String
deriving DecidableEq

/-- `LocalCtlReply`: what is read of the answer of a local extension. -/
structure LocalCtlReply (ν : Type) where
  status : Option (Json ν) := none
  settled : Option (Json ν) := none

structure CtlAck (ν : Type) where
  replyTo : String
  recipient : String
  status : String
  action : String
  settled : Option (Json ν) := none
  reason : Option String := none

/-- What is called outside. -/
inductive CtlCall (ν : Type) where
  | isIdle
  | abort
  | sendMessage (content : String)
  | ledger (input : Members ν)
  | emit (payload : LocalCtlRequest)
  /-- `sendCtlAck`. -/
  | ack (a : CtlAck ν)

inductive CtlPhase (ν : Type) where
  /-- Asleep until the next look at the turn. -/
  | settling (deadline : Int)
  /-- No local extension has answered. -/
  | asking
  /-- The promise of the answer is resolved. -/
  | answered (reply : LocalCtlReply ν)
  | over

structure CtlVars (ν : Type) where
  acked : Bool := false
  ledgerFailures : Nat := 0
  phase : CtlPhase ν := .over
  /-- `emit` has not returned. -/
  emitting : Bool := false

inductive CtlEvent (ν : Type) where
  /-- The sleep is over. -/
  | wake
  /-- A local handler calls the handler of the reply channel. -/
  | localReply (data : Json ν)
  /-- `emit` returns, or throws. -/
  | emitted (threw : Bool)
  | localTimeout
  /-- The function that awaits the answer goes on. -/
  | resume

/-- `ctx.abort` and the actions of the local extensions. -/
def localActions : List String := ["job_stop", "job_pause", "job_resume", "run_stop", "run_steer"]

/-- What the reply channel makes of its data. -/
def LocalCtlReply.ofData : Json ν → LocalCtlReply ν
  | .obj ms => { status := getOf ms "status", settled := getOf ms "settled" }
  | .arr _ => {}
  | _ => { status := some (.str "error") }

/-- The status of an answer, clamped to the closed set. -/
def LocalCtlReply.clamped (reply : LocalCtlReply ν) : String :=
  match reply.status.bind asStr with
  | some s => if s ∈ ctlStatuses then s else "error"
  | none => "error"

namespace Ctl

abbrev CtlM (ν : Type) := HostM (CtlCall ν) (CtlVars ν)

/-- What the ledger keeps of an acknowledgement. -/
def ledgerInput (target : CtlTarget) (frame : CtlFrame) (sender status : String) : Members ν :=
  [("event", .str "ctl"), ("id", .str frame.id), ("from", .str sender), ("to", .str target.self),
    ("code", .str status), ("action", .str (frame.action.getD ""))] ++
  (frame.target.map fun t => ("target", .str t)).toList ++
  (frame.bodyHash.map fun hash => ("bodyHash", .str hash)).toList ++
  (frame.reasonHash.map fun hash => ("reasonHash", .str hash)).toList

/-- The message a redirect injects. -/
def redirectContent (frame : CtlFrame) (sender : String) : String :=
  let body := frame.body.getD ""
  let id := frame.id
  s!"[mesh] @{sender} redirected your turn: {body}\n" ++
    s!"↩ answer with the mesh_reply tool using msgId \"{id}\""

section Code

variable (host : Nat → Bool) (target : CtlTarget) (frame : CtlFrame) (sender : String)

/-- `ack`: one for a frame, with a line in the ledger. -/
def ack (status : String) (settled : Option (Json ν)) (reason : Option String) : CtlM ν Unit := do
  let v ← vars
  if v.acked then pure ()
  else
    change fun v => { v with acked := true }
    if ← caught (perform host (.ledger (ledgerInput target frame sender status))) then pure ()
    else change fun v => { v with ledgerFailures := v.ledgerFailures + 1 }
    note (.ack
      { replyTo := frame.id, recipient := sender, status, action := frame.action.getD "",
        settled, reason })

def injectRedirect : CtlM ν Bool :=
  caught (perform host (.sendMessage (redirectContent frame sender)))

/-- A redirect whose turn is idle. -/
def redirect : CtlM ν Unit := do
  if ← injectRedirect host frame sender then
    ack host target frame sender "redirected" (some (.bool true)) none
  else ack host target frame sender "error" none none

/-- What follows the settle loop. -/
def settled : CtlM ν Unit := do
  change fun v => { v with phase := .over }
  let settled ← ask host .isIdle
  if frame.action = some "redirect" then
    if settled then redirect host target frame sender
    -- no instruction behind a turn that is still running
    else ack host target frame sender "still_busy" (some (.bool false)) none
  else
    ack host target frame sender (if settled then "aborted" else "still_busy")
      (some (.bool settled)) none

/-- The settle loop, from its test to its next sleep. -/
def settleLoop (now deadline : Int) : CtlM ν Unit := do
  if now < deadline then
    if ← ask host .isIdle then settled host target frame sender
    else change fun v => { v with phase := .settling deadline }
  else settled host target frame sender

/-- The actions on the turn of this session. -/
def abortTurn (now : Int) : CtlM ν Unit := do
  if !target.canAbort then ack host target frame sender "abort_unavailable" none none
  else if ← ask host .isIdle then
    if frame.action = some "redirect" then redirect host target frame sender
    else ack host target frame sender "not_busy" (some (.bool true)) none
  else if ← caught (perform host .abort) then
    settleLoop host target frame sender now (now + target.settleTimeoutMs)
  else ack host target frame sender "abort_unavailable" none none

/-- The promise of a local answer is resolved. -/
def settleLocal (reply : LocalCtlReply ν) : CtlM ν Unit :=
  change fun v => { v with phase := .answered reply }

/-- `requestLocalControl`. -/
def requestLocalControl : CtlM ν Unit := do
  if !target.hasBus then settleLocal { status := some (.str "unsupported") }
  else
    change fun v => { v with phase := .asking, emitting := true }
    note (.emit
      { ctlId := frame.id, action := frame.action.getD "", target := frame.target,
        message := frame.body, sender, recipient := target.self })

end Code

section Code

variable (host : Nat → Bool) (target : CtlTarget) (frame : CtlFrame)

def handleCtlFrame (now : Int) : CtlM ν Unit :=
  match frame.sender with
  | none => pure ()
  | some sender =>
      let action := frame.action.getD ""
      if action = "abort" ∨ action = "redirect" then abortTurn host target frame sender now
      else if action = "run_steer" ∧ sender ∉ target.ctlAllowFrom then
        ack host target frame sender "not_authorized" none (some "ctl.allowFrom")
      else if action ∈ localActions then requestLocalControl target frame sender
      else ack host target frame sender "unsupported" none none

/-- It goes on where it was cut. -/
def goOn (sender : String) (now : Int) (phase : CtlPhase ν) : CtlEvent ν → CtlM ν Unit
  | .wake =>
      match phase with
      | .settling deadline => settleLoop host target frame sender now deadline
      | _ => pure ()
  | .localReply data =>
      match phase with
      | .asking => settleLocal (.ofData data)
      | _ => pure ()
  | .emitted threw => do
      change fun v => { v with emitting := false }
      match phase with
      | .asking => if threw then settleLocal { status := some (.str "error") } else pure ()
      | _ => pure ()
  | .localTimeout =>
      match phase with
      | .asking => settleLocal { status := some (.str "timeout") }
      | _ => pure ()
  | .resume =>
      match phase with
      | .answered reply => do
          change fun v => { v with phase := .over }
          ack host target frame sender reply.clamped reply.settled none
      | _ => pure ()

/-- What can happen in a state. -/
def possible (v : CtlVars ν) : CtlEvent ν → Bool
  | .wake => match v.phase with | .settling _ => true | _ => false
  | .localReply _ => true
  | .emitted _ => v.emitting
  | .localTimeout => !v.emitting && match v.phase with | .asking => true | _ => false
  | .resume => !v.emitting && match v.phase with | .answered _ => true | _ => false

/-- How it starts: with the call. -/
def start (now : Int) : Hosted (CtlCall ν) (CtlVars ν) :=
  after (handleCtlFrame host target frame now) { vars := {} }

def step (h : Hosted (CtlCall ν) (CtlVars ν)) (x : Int × CtlEvent ν) :
    Option (Hosted (CtlCall ν) (CtlVars ν)) :=
  match frame.sender with
  | none => none
  | some sender =>
      if possible h.vars x.2 then
        some (after (goOn host target frame sender x.1 h.vars.phase x.2) h)
      else none

end Code

end Ctl

def CtlStep (host : Nat → Bool) (target : CtlTarget) (frame : CtlFrame)
    (h : Hosted (CtlCall ν) (CtlVars ν)) (x : Int × CtlEvent ν)
    (h' : Hosted (CtlCall ν) (CtlVars ν)) : Prop :=
  Ctl.step host target frame h x = some h'

end PiMesh
