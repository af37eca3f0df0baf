/-
The inbound pipeline of an OpenCode session.

It is built like Pi's, with the same buffers, but a message is submitted and settles later,
and the receipt of a frame is one of its `sideEffects`, ahead of everything else.  Nothing in
the adapter ever sets `rateLimitedUntil`, so no frame is held.
-/
import PiMesh.Extension.Session

namespace PiMesh

open Js

variable {ν : Type} [Number ν]

/-- What an OpenCode session has done. -/
inductive OpenCodeAct where
  /-- The `n`-th call of `runtime.submit`. -/
  | submit (n : Nat) (content : String) (frames : List Nat)
  /-- Its promise settles: it resolves or is rejected. -/
  | settled (n : Nat) (ok : Bool)
  /-- A read frame for a frame. -/
  | read (no : Nat)
deriving DecidableEq

/-- What an OpenCode session keeps. -/
structure OpenCodeSession (ν : Type) where
  /-- The frames that were emitted, each with its `matchedReply`. -/
  arrived : List (Members ν × Bool) := []
  batcher : InboundBatcher ν := {}
  deferredInbox : DeferredInbox ν := {}
  hints : ReplyHintTracker := {}
  /-- The calls of `submit` so far. -/
  submits : Nat := 0
  /-- Those whose promise has not settled. -/
  unsettled : List Nat := []
  acts : List OpenCodeAct := []

/-- What the adapter finds while an event is handled. -/
structure OpenCodeView where
  now : Int
  /-- `isBusy()`. -/
  busy : Bool := false
  /-- `client.online`. -/
  online : Bool := true
  isReplyToReply : String → Bool := fun _ => false

inductive OpenCodeEvent (ν : Type) where
  | inbound (frame : Members ν) (matchedReply : Bool)
  /-- The batcher's window is over. -/
  | window
  /-- The batcher's longest hold is over. -/
  | maxHold
  /-- `session.idle`. -/
  | turnIdle
  /-- `/mesh inbox flush`. -/
  | inboxFlush
  /-- A promise of `submit` settles. -/
  | settled (n : Nat) (ok : Bool)
  | dispose

namespace OpenCodeSession

/-- `runtime.submit`. -/
def submit (st : OpenCodeSession ν) (content : String) (frames : List (SessionFrame ν)) :
    OpenCodeSession ν :=
  { st with
    submits := st.submits + 1
    unsettled := st.unsettled ++ [st.submits]
    acts := st.acts ++ [.submit st.submits content (frames.map (·.no))] }

/-- `batcher.flushNow()`, with `injectBatch` behind it. -/
def flushNow (env : SessionEnv) (v : OpenCodeView) (st : OpenCodeSession ν) : OpenCodeSession ν :=
  let (frames, batcher) := st.batcher.flushNow
  let st := { st with batcher }
  if frames.isEmpty then st
  else
    let (batch, hints) := buildBatchMessage env.localTime
      (formatOptsFor env.verbose env.homeRoom v.now) st.hints frames
    { st with hints }.submit batch.content frames

/-- The receipt of `sideEffects`. -/
def sendRead (v : OpenCodeView) (st : OpenCodeSession ν) (f : SessionFrame ν) : OpenCodeSession ν :=
  if isReceipted f.members && v.online then { st with acts := st.acts ++ [.read f.no] } else st

/-- `deliverFrame`. -/
def deliverFrame (env : SessionEnv) (v : OpenCodeView) (st : OpenCodeSession ν) (f : SessionFrame ν)
    (matchedReply : Bool) : OpenCodeSession ν :=
  let f := { f with replyChain := decide (frameType? f.members = some .reply) &&
    (textOf f.members "replyTo").any v.isReplyToReply }
  let st := st.sendRead v f
  if classifyInbound f.members env.name env.broadcasts matchedReply = .deferred then
    { st with deferredInbox := st.deferredInbox.push f }
  else if bypassesBatch f.members false || decide (env.batchMs = 0) then
    let st := st.flushNow env v
    let (opts, hints) := formatOptsFor env.verbose env.homeRoom v.now st.hints f
    let content := formatInboundContent env.localTime f.members { opts with replyChain := f.replyChain }
    { st with hints }.submit content [f]
  else { st with batcher := st.batcher.push env.batchMs f }

/-- `DeferredInbox.send`, whose host submits. -/
def sendDeferred (env : SessionEnv) (v : OpenCodeView) (st : OpenCodeSession ν) : OpenCodeSession ν :=
  let (batch, hints) := buildBatchWith deferredHeader env.localTime
    (formatOptsFor env.verbose env.homeRoom v.now) st.hints st.deferredInbox.pending
  { st with hints }.submit batch.content st.deferredInbox.pending

/-- One event; nothing where it is not possible. -/
def step (env : SessionEnv) (st : OpenCodeSession ν) (e : OpenCodeView × OpenCodeEvent ν) :
    Option (OpenCodeSession ν) :=
  match e.2 with
  | .inbound frame matchedReply =>
      let f : SessionFrame ν := { no := st.arrived.length, members := frame }
      some ({ st with arrived := st.arrived ++ [(frame, matchedReply)] }.deliverFrame env e.1 f
        matchedReply)
  | .window =>
      if st.batcher.timer then
        let st := { st with batcher := { st.batcher with timer := false } }
        if st.batcher.frames.isEmpty then some st
        else if st.batcher.holds e.1.busy then
          some { st with batcher := { st.batcher with maxTimer := true } }
        else some (st.flushNow env e.1)
      else none
  | .maxHold => if st.batcher.maxTimer then some (st.flushNow env e.1) else none
  | .turnIdle =>
      if st.deferredInbox.pending.isEmpty then some st
      else
        let st := st.sendDeferred env e.1
        some { st with deferredInbox := st.deferredInbox.queueForPrompt }
  | .inboxFlush =>
      if st.deferredInbox.pending.isEmpty then some st
      else
        let st := st.sendDeferred env e.1
        some { st with deferredInbox := st.deferredInbox.flush }
  | .settled n ok =>
      if n ∈ st.unsettled then
        some { st with unsettled := st.unsettled.erase n, acts := st.acts ++ [.settled n ok] }
      else none
  | .dispose => some { st with deferredInbox := DeferredInbox.clear }

end OpenCodeSession

def OpenCodeStep (env : SessionEnv) (st : OpenCodeSession ν) (e : OpenCodeView × OpenCodeEvent ν)
    (st' : OpenCodeSession ν) : Prop :=
  st.step env e = some st'

end PiMesh
