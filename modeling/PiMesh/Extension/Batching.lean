/-
The inbound buffers at work.

`InboundBatcher` runs on two timers, so here it has a clock: a frame is kept with the time of
its `push`, and an armed timer with the time it is due.  A timer that is due fires before
anything else that happens later, and at one time the order is open.

`DeferredInbox` has no timer.  Its owner calls it, and what is recorded here is what it gave
to `sendMessage` and what it reported.
-/
import PiMesh.Extension.Buffers
import PiMesh.Lib.Transition

namespace PiMesh

open Js Transition

variable {ν : Type} [Number ν]

/-! ### The batcher and its clock -/

structure TimedBatcher (ν : Type) where
  /-- The frames, each with the time of its `push`. -/
  frames : List (SessionFrame ν × Int) := []
  /-- When the window ends. -/
  timer : Option Int := none
  /-- When the longest hold ends. -/
  maxTimer : Option Int := none
  now : Int := 0
  /-- The batches given to `onFlush`. -/
  flushed : List (List (SessionFrame ν)) := []

inductive BatcherEvent (ν : Type) where
  | push (f : SessionFrame ν)
  /-- The window ends, and what `isBusy` answers. -/
  | window (busy : Bool)
  | maxHold
  | flushNow

/-- What an event pushes. -/
def BatcherEvent.pushed? : BatcherEvent ν → Option (SessionFrame ν)
  | .push f => some f
  | _ => none

namespace TimedBatcher

/-- The batcher without its clock. -/
def untimed (b : TimedBatcher ν) : InboundBatcher ν :=
  ⟨b.frames.map Prod.fst, b.timer.isSome, b.maxTimer.isSome⟩

/-- The clock can show `t`: it does not go back, and no timer is overdue. -/
def mayBe (b : TimedBatcher ν) (t : Int) : Bool :=
  decide (b.now ≤ t) && b.timer.all (fun due => t ≤ due) && b.maxTimer.all fun due => t ≤ due

/-- `push`. -/
def push (windowMs : Nat) (b : TimedBatcher ν) (f : SessionFrame ν) : TimedBatcher ν :=
  { b with
    frames := b.frames ++ [(f, b.now)]
    timer := if b.timer.isNone && decide (0 < windowMs) then some (b.now + windowMs) else b.timer }

/-- `flushNow`. -/
def flushNow (b : TimedBatcher ν) : TimedBatcher ν :=
  { b with
    frames := [], timer := none, maxTimer := none
    flushed := if b.frames.isEmpty then b.flushed else b.flushed ++ [b.frames.map Prod.fst] }

/-- `onWindow`. -/
def onWindow (maxHoldMs : Nat) (b : TimedBatcher ν) (busy : Bool) : TimedBatcher ν :=
  let b := { b with timer := none }
  if b.frames.isEmpty then b
  else if b.untimed.holds busy then
    { b with maxTimer := if b.maxTimer.isNone then some (b.now + maxHoldMs) else b.maxTimer }
  else b.flushNow

/-- An event at a time; nothing where it is not possible. -/
def step (windowMs maxHoldMs : Nat) (b : TimedBatcher ν) (x : Int × BatcherEvent ν) :
    Option (TimedBatcher ν) :=
  if b.mayBe x.1 then
    let c := { b with now := x.1 }
    match x.2 with
    | .push f => some (c.push windowMs f)
    | .window busy => if b.timer = some x.1 then some (c.onWindow maxHoldMs busy) else none
    | .maxHold => if b.maxTimer = some x.1 then some c.flushNow else none
    | .flushNow => some c.flushNow
  else none

end TimedBatcher

/-- A step of a batcher with its two delays. -/
def BatcherStep (windowMs maxHoldMs : Nat) (b : TimedBatcher ν) (x : Int × BatcherEvent ν)
    (b' : TimedBatcher ν) : Prop :=
  b.step windowMs maxHoldMs x = some b'

/-! ### The deferred inbox and its owner -/

/-- `count`. -/
def DeferredInbox.count (d : DeferredInbox ν) : Nat := d.pending.length + d.queued.length

structure InboxLog (ν : Type) where
  inbox : DeferredInbox ν := {}
  /-- What `sendMessage` took, call by call. -/
  sent : List (List (SessionFrame ν)) := []
  /-- What `onSent` was called with. -/
  reported : List (List (SessionFrame ν)) := []

inductive InboxEvent (ν : Type) where
  | push (f : SessionFrame ν)
  /-- `queueForPrompt`, and whether `sendMessage` returns. -/
  | queueForPrompt (returns : Bool)
  | promptStarting
  | agentStarting
  /-- `flush`, and whether `sendMessage` returns. -/
  | flush (returns : Bool)

/-- What an event pushes. -/
def InboxEvent.pushed? : InboxEvent ν → Option (SessionFrame ν)
  | .push f => some f
  | _ => none

/-- One call. -/
def InboxLog.step (s : InboxLog ν) : InboxEvent ν → InboxLog ν
  | .push f => { s with inbox := s.inbox.push f }
  | .queueForPrompt returns =>
      -- where `sendMessage` throws, so does the call
      if s.inbox.pending.isEmpty || !returns then s
      else { s with inbox := s.inbox.queueForPrompt, sent := s.sent ++ [s.inbox.pending] }
  | .promptStarting => { s with inbox := s.inbox.promptStarting }
  | .agentStarting =>
      let (delivered, inbox) := s.inbox.agentStarting
      { s with inbox, reported := if delivered.isEmpty then s.reported else s.reported ++ [delivered] }
  | .flush returns =>
      if s.inbox.pending.isEmpty || !returns then s
      else { inbox := s.inbox.flush, sent := s.sent ++ [s.inbox.pending],
             reported := s.reported ++ [s.inbox.pending] }

/-- A step of a deferred inbox. -/
def InboxStep (s : InboxLog ν) (e : InboxEvent ν) (s' : InboxLog ν) : Prop := s.step e = s'

end PiMesh
