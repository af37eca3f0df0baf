/-
`PendingReplies` with its timers.

A call of `register` makes an object that its timers share: two reminders, if any time is
left, and the deadline.  The objects are numbered by the calls, and `entries` says which one
is live for a message.  A callback knows its own object and looks the message up again, as the
source does; that it never finds another object there is for a proof to show.

An armed timer may fire at any time, late or early: the host clamps a delay that is too long
for it to a millisecond.  Timers that are cleared do not fire.
-/
import PiMesh.Client.Pending
import PiMesh.Lib.Transition
import Mathlib.Data.Rat.Defs
import Mathlib.Algebra.Order.Ring.Rat

namespace PiMesh

open Js

variable {ν : Type}

inductive TimerKind where
  | remind | deadline
deriving DecidableEq

/-- An armed timer of the `no`-th registration. -/
structure PendingTimer where
  no : Nat
  msgId : String
  kind : TimerKind
  due : ℚ
deriving DecidableEq

/-- What the callbacks of a registration share. -/
structure Registration where
  msgId : String
  expiresAt : Int
  launch : Bool
  remindCount : Nat := 0
deriving DecidableEq

structure TimedReplies (ν : Type) where
  /-- The registrations, by number. -/
  made : List Registration := []
  /-- The live registration of a message. -/
  entries : Map String Nat := .empty
  armed : List PendingTimer := []
  unmatchedReplyCount : Nat := 0
  /-- The promises that were resolved, by number. -/
  resolved : List (Nat × Resolution ν) := []
  /-- The calls of `onRemind`, by number. -/
  reminded : List Nat := []

inductive PendingEvent (ν : Type) where
  | register (msgId : String) (expiresAt : Int) (launch : Bool)
  | handleReply (frame : Inbound ν)
  | cancel (msgId : String) (reason : CancelReason)
  | cancelAll (reason : CancelReason)
  | fire (t : PendingTimer)

namespace TimedReplies

/-- An entry goes: its timers are cleared and its promise is resolved. -/
def settle (s : TimedReplies ν) (msgId : String) (no : Nat) (r : Resolution ν) : TimedReplies ν :=
  { s with
    entries := s.entries.delete msgId
    armed := s.armed.filter fun t => t.no ≠ no
    resolved := s.resolved ++ [(no, r)] }

/-- `cancel`. -/
def cancel (s : TimedReplies ν) (msgId : String) (reason : CancelReason) : TimedReplies ν :=
  match s.entries.get? msgId with
  | none => s
  | some no => s.settle msgId no (.error reason)

/-- `cancelAll`. -/
def cancelAll (s : TimedReplies ν) (reason : CancelReason) : TimedReplies ν :=
  s.entries.keys.foldl (fun s msgId => s.cancel msgId reason) s

/-- The fractions of the time left at which it reminds. -/
def fractions : List ℚ := [1 / 2, 3 / 4].take maxReminds

/-- The timers of a registration, at its time. -/
def timersOf (no : Nat) (msgId : String) (now expiresAt : Int) : List PendingTimer :=
  let total : ℚ := max 0 (expiresAt - now)
  let reminders := fractions.filterMap fun f =>
    let delay := total * f
    -- no instant reminders
    if delay ≤ 0 ∨ total ≤ delay then none else some ⟨no, msgId, .remind, now + delay⟩
  reminders ++ [⟨no, msgId, .deadline, now + total⟩]

/-- `register`. -/
def register (s : TimedReplies ν) (now : Int) (msgId : String) (expiresAt : Int) (launch : Bool) :
    TimedReplies ν :=
  let s := s.cancel msgId .superseded
  let no := s.made.length
  { s with
    made := s.made ++ [{ msgId, expiresAt, launch }]
    entries := s.entries.set msgId no
    armed := s.armed ++ timersOf no msgId now expiresAt }

/-- `handleReply`. -/
def handleReply (s : TimedReplies ν) (frame : Inbound ν) : TimedReplies ν :=
  match frame.replyTo.bind fun replyTo => (s.entries.get? replyTo).map fun no => (replyTo, no) with
  | none => { s with unmatchedReplyCount := s.unmatchedReplyCount + 1 }
  | some (replyTo, no) => s.settle replyTo no (.reply frame)

/-- The callback of a timer, which is no longer armed. -/
def callback (s : TimedReplies ν) (t : PendingTimer) : TimedReplies ν :=
  match t.kind with
  | .remind =>
      if !s.entries.has t.msgId then s
      else
        match s.made[t.no]? with
        | none => s
        | some o =>
            if o.remindCount ≥ maxReminds then s
            else { s with made := s.made.set t.no { o with remindCount := o.remindCount + 1 },
                          reminded := s.reminded ++ [t.no] }
  | .deadline => if s.entries.has t.msgId then s.settle t.msgId t.no .expired else s

/-- One event, at a time; nothing where it is not possible. -/
def step (s : TimedReplies ν) (x : Int × PendingEvent ν) : Option (TimedReplies ν) :=
  match x.2 with
  | .register msgId expiresAt launch => some (s.register x.1 msgId expiresAt launch)
  | .handleReply frame => some (s.handleReply frame)
  | .cancel msgId reason => some (s.cancel msgId reason)
  | .cancelAll reason => some (s.cancelAll reason)
  | .fire t =>
      if t ∈ s.armed then some ({ s with armed := s.armed.erase t }.callback t) else none

end TimedReplies

/-- A step of the tracker. -/
def PendingStep (s : TimedReplies ν) (x : Int × PendingEvent ν) (s' : TimedReplies ν) : Prop :=
  s.step x = some s'

end PiMesh
