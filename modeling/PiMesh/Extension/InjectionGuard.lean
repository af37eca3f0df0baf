/-
The later copies of a batch.

The host can purge a batch that was injected while a turn was running.  The guard keeps the
last such batch, and hands it over once more, through a queue that is not purged, when the
turn is aborted or the session settles.  The second copy is sent some time after the end of
the turn, by a timer that takes whatever the guard holds then.
-/
import PiMesh.Extension.Content
import PiMesh.Extension.Inbound
import PiMesh.Js.Map
import PiMesh.Lib.Transition

namespace PiMesh

open Js

variable {ν : Type} [Number ν]

/-! ### The guard -/

/-- `batchKey`. -/
def batchKey (frames : List (Members ν)) : String :=
  ",".intercalate (frames.map fun f => (textOf f "id").getD "")

structure InjectionGuardTuning where
  maxTries : Nat := 2
  confirmAfterMs : Int := 8000
  settledGraceMs : Int := 2000

/-- A batch the guard keeps, the `no`-th that was noted. -/
structure Unconfirmed (ν : Type) where
  no : Nat
  frames : List (Members ν)
  deliverAs : DeliverAs
  sentAt : Int
  tries : Nat
  key : String

inductive GuardDecision where
  | resend | confirmed | hold | none
deriving DecidableEq, Repr

structure InjectionGuard (ν : Type) where
  unconfirmed : Option (Unconfirmed ν) := none
  triesByKey : Map String Nat := Map.empty

namespace InjectionGuard

def triesCap : Nat := 32

/-- The loop that drops the oldest counts. -/
def dropOldest (m : Map String Nat) : Map String Nat :=
  m.keys.foldl (fun m key => if m.size > triesCap then m.delete key else m) m

/-- `note`. -/
def note (g : InjectionGuard ν) (no : Nat) (frames : List (Members ν)) (deliverAs : DeliverAs)
    (busyAtSend : Bool) (now : Int) : InjectionGuard ν :=
  let key := batchKey frames
  if busyAtSend then
    { g with unconfirmed := some {
        no, frames, deliverAs, sentAt := now, tries := (g.triesByKey.get? key).getD 0, key } }
  else { unconfirmed := none, triesByKey := g.triesByKey.delete key }

/-- `takeForResend`; the batch with its `tries` of before. -/
def takeForResend (t : InjectionGuardTuning) (g : InjectionGuard ν) :
    Option (Unconfirmed ν) × InjectionGuard ν :=
  match g.unconfirmed with
  | none => (none, g)
  | some u =>
      if u.tries ≥ t.maxTries then (none, g)
      else (some u, {
        unconfirmed := none, triesByKey := dropOldest (g.triesByKey.set u.key (u.tries + 1)) })

/-- The turn was cut short. -/
def wasCut (stopReason : Option String) : Bool :=
  decide (stopReason = some "aborted") || decide (stopReason = some "error")

/-- `onTurnEnd`. -/
def onTurnEnd (t : InjectionGuardTuning) (g : InjectionGuard ν) (stopReason : Option String)
    (now : Int) : GuardDecision × InjectionGuard ν :=
  match g.unconfirmed with
  | none => (.none, g)
  | some u =>
      if wasCut stopReason then (if u.tries < t.maxTries then .resend else .confirmed, g)
      else if now - u.sentAt ≥ t.confirmAfterMs then (.confirmed, { g with unconfirmed := none })
      else (.hold, g)

/-- `onSettled`. -/
def onSettled (t : InjectionGuardTuning) (g : InjectionGuard ν) (now : Int) : GuardDecision :=
  match g.unconfirmed with
  | none => .none
  | some u =>
      if now - u.sentAt < t.settledGraceMs then .hold
      else if u.tries < t.maxTries then .resend else .confirmed

end InjectionGuard

/-! ### In the extension -/

/-- What happened to the batches. -/
inductive GuardAct (ν : Type) where
  /-- `noteBatchSent`, for the `no`-th time. -/
  | noted (no : Nat) (frames : List (Members ν)) (busyAtSend : Bool) (now : Int)
  | turnEnded (stopReason : Option String) (now : Int)
  /-- `resendBatch`, and whether `pi.sendMessage` returned. -/
  | resent (no : Nat) (frames : List (Members ν)) (tries : Nat) (ok : Bool)

structure GuardedSession (ν : Type) where
  injectionGuard : InjectionGuard ν := {}
  /-- The timers of `turn_end` that have not fired. -/
  timers : Nat := 0
  /-- How many batches were noted. -/
  notes : Nat := 0
  acts : List (GuardAct ν) := []

/-- What the clock and the host answer. -/
structure GuardView where
  now : Int
  /-- `pi.sendMessage` returns. -/
  accepts : Bool := true

inductive GuardEvent (ν : Type) where
  /-- The batcher hands a batch over. -/
  | batch (frames : List (Members ν)) (deliverAs : DeliverAs) (busyAtSend : Bool)
  | turnEnd (stopReason : Option String)
  | resendTimer
  | agentSettled

namespace GuardedSession

/-- `takeForResend` and `resendBatch`. -/
def resend (t : InjectionGuardTuning) (v : GuardView) (st : GuardedSession ν) : GuardedSession ν :=
  match st.injectionGuard.takeForResend t with
  | (none, injectionGuard) => { st with injectionGuard }
  | (some u, injectionGuard) =>
      { st with injectionGuard, acts := st.acts ++ [.resent u.no u.frames (u.tries + 1) v.accepts] }

/-- One event; nothing where it is not possible. -/
def step (t : InjectionGuardTuning) (st : GuardedSession ν) (e : GuardView × GuardEvent ν) :
    Option (GuardedSession ν) :=
  match e.2 with
  | .batch frames deliverAs busyAtSend =>
      some { st with
        injectionGuard := st.injectionGuard.note st.notes frames deliverAs busyAtSend e.1.now
        notes := st.notes + 1
        acts := st.acts ++ [.noted st.notes frames busyAtSend e.1.now] }
  | .turnEnd stopReason =>
      let (decision, injectionGuard) := st.injectionGuard.onTurnEnd t stopReason e.1.now
      some { st with
        injectionGuard
        timers := if decision = .resend then st.timers + 1 else st.timers
        acts := st.acts ++ [.turnEnded stopReason e.1.now] }
  | .resendTimer =>
      if st.timers = 0 then none
      else some ({ st with timers := st.timers - 1 }.resend t e.1)
  | .agentSettled =>
      if st.injectionGuard.onSettled t e.1.now = .resend then some (st.resend t e.1) else some st

end GuardedSession

def GuardStep (t : InjectionGuardTuning) (st : GuardedSession ν) (e : GuardView × GuardEvent ν)
    (st' : GuardedSession ν) : Prop :=
  st.step t e = some st'

end PiMesh
