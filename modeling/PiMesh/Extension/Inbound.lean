/-
How a session takes in a frame.

`injectInbound` hands a frame to the agent's session.  A forced message aborts the running
turn of a busy host; everything else is queued.  What the function does to the host is
listed in the order of the calls, and what it leaves to a timer is named.  The text of the
injected message is built by `buildInboundMessage` and plays no part in these decisions.
-/
import PiMesh.Protocol.Envelope

namespace PiMesh

open Js

variable {ν : Type}

/-- The part of Pi's `SessionContext` that decides how a frame is taken in. -/
structure SessionContext where
  /-- `abort` is a function. -/
  canAbort : Bool
  /-- What `isIdle()` answers, call by call; `none` where it is not a function. -/
  isIdle : Option (Nat → Bool)

inductive DeliverAs where
  | followUp | steer
deriving DecidableEq, Repr

/-- What the session's host is asked to do. -/
inductive HostCall where
  | abort
  | sendMessage (triggerTurn : Bool) (deliverAs : DeliverAs)
deriving DecidableEq, Repr

/-- What is left to timers. -/
inductive Waiting where
  /-- `deliverWhenIdle`: send once the host is idle. -/
  | whenIdle
  /-- `deliverInterrupted`: abort again if it must, then send. -/
  | interrupted
deriving DecidableEq, Repr

/-- `InjectedInbound`, with what was done to get there. -/
structure InjectedInbound where
  deliverAs : DeliverAs
  aborted : Bool
  calls : List HostCall
  waiting : Option Waiting := none
deriving DecidableEq

/-- The frame makes the host abort, now or from a timer. -/
def InjectedInbound.aborts (i : InjectedInbound) : Bool :=
  decide (.abort ∈ i.calls) || decide (i.waiting = some .interrupted)

/-- `mapPriority`. -/
def mapPriority : MeshPriority → DeliverAs
  | .normal => .followUp
  | _ => .steer

/-- `frame.priority ?? "normal"`. -/
def inboundPriority (frame : Members ν) : MeshPriority := (framePriority? frame).getD .normal

/-- `mapReplyDelivery`: an answer interrupts the current reflection. -/
def mapReplyDelivery (frame : Members ν) : DeliverAs :=
  if frameType? frame = some .reply then .steer else mapPriority (inboundPriority frame)

/-- `deliverWhenIdle`, as far as it runs at once; `n` calls of `isIdle` came before. -/
def deliverWhenIdle (ctx : SessionContext) (n : Nat) : List HostCall × Option Waiting :=
  if ctx.isIdle.any fun idle => idle n then ([.sendMessage true .steer], none)
  else ([], some .whenIdle)

/-- The host exposes `abort` and `isIdle`; the answers of `isIdle`. -/
def abortable (ctx : Option SessionContext) : Option (Nat → Bool) :=
  match ctx with
  | some c => if c.canAbort then c.isIdle else none
  | none => none

/-- `deliverInterrupted`, as far as it runs at once. -/
def deliverInterrupted (ctx : Option SessionContext) : InjectedInbound :=
  match abortable ctx with
  | none => { deliverAs := .steer, aborted := false, calls := [.sendMessage true .steer] }
  | some idle =>
      if idle 0 then { deliverAs := .steer, aborted := false, calls := [.sendMessage true .steer] }
      else { deliverAs := .steer, aborted := true, calls := [.abort], waiting := some .interrupted }

/-- `injectInbound`. -/
def injectInbound (ctx : Option SessionContext) (frame : Members ν) (replyChain : Bool) :
    InjectedInbound :=
  let priority := inboundPriority frame
  let type := frameType? frame
  if type = some .msg ∧ isTrue (getOf frame) "interrupt" = true ∧ priority = .force then
    deliverInterrupted ctx
  else
    let isReceipt := decide (type = some .reply) && isTrue (getOf frame) "receipt"
    let deliverAs : DeliverAs :=
      if isReceipt then .followUp
      else if type = some .reply ∧ replyChain = true then .followUp
      else if type = some .remind then .followUp
      else mapReplyDelivery frame
    if isReceipt then { deliverAs, aborted := false, calls := [.sendMessage false .followUp] }
    else
      let busy := (abortable ctx).any fun idle => !idle 0
      match ctx with
      | some c =>
          if priority = .force ∧ type ≠ some .remind ∧ busy = true then
            let (calls, waiting) := deliverWhenIdle c 1
            { deliverAs := .steer, aborted := true, calls := .abort :: calls, waiting }
          else { deliverAs, aborted := false, calls := [.sendMessage true deliverAs] }
      | none => { deliverAs, aborted := false, calls := [.sendMessage true deliverAs] }

/-- **Only a forced frame that is no reminder aborts a turn.** -/
theorem injectInbound_aborts {ctx : Option SessionContext} {frame : Members ν} {replyChain : Bool}
    (h : (injectInbound ctx frame replyChain).aborts = true) :
    inboundPriority frame = .force ∧ frameType? frame ≠ some .remind := by
  unfold injectInbound at h
  simp only at h
  split at h
  · next hint =>
      refine ⟨hint.2.2, ?_⟩
      rw [hint.1]
      simp
  · split at h
    · simp [InjectedInbound.aborts] at h
    · split at h
      · split at h
        · next hforce => exact ⟨hforce.1, hforce.2.1⟩
        · simp [InjectedInbound.aborts] at h
      · simp [InjectedInbound.aborts] at h

end PiMesh
