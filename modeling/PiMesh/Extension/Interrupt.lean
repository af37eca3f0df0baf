/-
`deliverInterrupted`, to its end.

A forced message with an interrupt aborts the running turn, waits for the host to become idle
and is then delivered.  A poll, a cap and the timers of the further aborts run at the same
time.  The timings say when a timer is due; here it may fire whenever it is armed, so of the
timings only what the code compares is left.

The message itself is built before any of this.
-/
import PiMesh.Extension.Inbound
import PiMesh.Lib.Hosted
import PiMesh.Lib.Transition

namespace PiMesh

open Hosting

inductive InterruptOutcome where
  | aborted | alreadyIdle | stillBusy | abortUnavailable
deriving DecidableEq

structure InterruptReport where
  outcome : InterruptOutcome
  aborts : Nat
  settledMs : Int
deriving DecidableEq

/-- What is called outside. -/
inductive InterruptCall where
  | isIdle
  | abort
  | sendMessage
  | report (r : InterruptReport)
deriving DecidableEq

structure InterruptTimings where
  maxMs : Int := 10000
  reabortMax : Nat := 2

/-- The variables its callbacks share, and its timers. -/
structure Interrupting where
  aborts : Nat := 0
  start : Int := 0
  finished : Bool := false
  poll : Bool := false
  cap : Bool := false
  /-- The aborts that are still to come. -/
  reabortTimers : List Nat := []
deriving DecidableEq

inductive InterruptTimer where
  | poll
  | cap
  | reabort (i : Nat)
deriving DecidableEq

namespace Interrupt

abbrev InterruptM := HostM InterruptCall Interrupting

section Code

variable (host : Nat → Bool) (timings : InterruptTimings)

/-- `report`: reporting is best effort. -/
def report (outcome : InterruptOutcome) (aborts : Nat) (settledMs : Int) : InterruptM Unit := do
  let _ ← caught (perform host (.report ⟨outcome, aborts, settledMs⟩))

def safeAbort : InterruptM Bool := caught (perform host .abort)

/-- `if (safeAbort()) aborts += 1`. -/
def countAbort : InterruptM Unit := do
  if ← safeAbort host then change fun v => { v with aborts := v.aborts + 1 }

def safeDeliver : InterruptM Unit := do
  let _ ← caught (perform host .sendMessage)

def deliverInterrupted (canAbort : Bool) (now : Int) : InterruptM Unit := do
  if !canAbort then
    safeDeliver host
    report host .abortUnavailable 0 0
  else if ← ask host .isIdle then
    safeDeliver host
    report host .alreadyIdle 0 0
  else
    countAbort host
    change fun v => { v with
      start := now
      poll := true
      cap := true
      reabortTimers := List.range' 1 timings.reabortMax }

def finish (now : Int) : InterruptM Unit := do
  let v ← vars
  if v.finished then pure ()
  else
    change fun v => { v with finished := true, poll := false, cap := false, reabortTimers := [] }
    safeDeliver host
    let idle ← ask host .isIdle
    let v ← vars
    report host (if idle then .aborted else .stillBusy) v.aborts (now - v.start)

/-- The callback of the `poll` interval. -/
def onPoll (now : Int) : InterruptM Unit := do
  if ← ask host .isIdle then finish host now
  else
    let v ← vars
    if now - v.start ≥ timings.maxMs then finish host now

/-- The callback of a further abort. -/
def onReabort : InterruptM Unit := do
  if ← ask host .isIdle then pure () else countAbort host

/-- A timer fires.  An interval stays armed. -/
def fire (now : Int) : InterruptTimer → InterruptM Unit
  | .poll => onPoll host timings now
  | .cap => do
      change fun v => { v with cap := false }
      finish host now
  | .reabort i => do
      change fun v => { v with reabortTimers := v.reabortTimers.erase i }
      onReabort host

end Code

/-- A timer is armed. -/
def armed (v : Interrupting) : InterruptTimer → Bool
  | .poll => v.poll
  | .cap => v.cap
  | .reabort i => decide (i ∈ v.reabortTimers)

/-- How it starts: with the call. -/
def start (host : Nat → Bool) (timings : InterruptTimings) (canAbort : Bool) (now : Int) :
    Hosted InterruptCall Interrupting :=
  after (deliverInterrupted host timings canAbort now) { vars := {} }

/-- A timer fires at a time, if it is armed. -/
def step (host : Nat → Bool) (timings : InterruptTimings) (h : Hosted InterruptCall Interrupting)
    (x : Int × InterruptTimer) : Option (Hosted InterruptCall Interrupting) :=
  if armed h.vars x.2 then some (after (fire host timings x.1 x.2) h) else none

end Interrupt

def InterruptStep (host : Nat → Bool) (timings : InterruptTimings)
    (h : Hosted InterruptCall Interrupting) (x : Int × InterruptTimer)
    (h' : Hosted InterruptCall Interrupting) : Prop :=
  Interrupt.step host timings h x = some h'

end PiMesh
