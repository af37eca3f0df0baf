/-
The inbound pipeline of a Pi session.

A frame the client emits is held while the provider rejects turns, deferred, put into a
batch, or handed to the host at once; what is not handed over at once is handed over by a
timer or by an event of the host.  Each of these is an event here.  `flushHeld` is a loop
that runs to its end; it is cut after each frame, and until the last one is delivered no
other event is possible.

The host answers for itself: whether a turn is running, whether a call of `pi.sendMessage`
returns, and what time it is.  The answers of `isIdle` and `sendMessage` are numbered over
the whole run.  What is only shown to the user, the previews and the status line, is left
out, and so are the later copies of a batch: they are `InjectionGuard`'s.
-/
import PiMesh.Extension.Buffers
import PiMesh.Lib.Transition

namespace PiMesh

open Js

variable {ν : Type} [Number ν]

/-- What a session is configured with. -/
structure SessionEnv where
  /-- `client.alias`. -/
  name : String
  /-- `inboundBroadcasts`. -/
  broadcasts : InboundBroadcastPolicy := .immediate
  /-- `inboundBatchMs`. -/
  batchMs : Nat
  /-- `contextVerbosity` is `"full"`. -/
  verbose : Bool := false
  homeRoom : String := defaultRoom
  localTime : String → String

/-- What the host and the client answer while an event is handled. -/
structure HostView where
  /-- `Date.now()`. -/
  now : Int
  /-- `rt.ctx`, with the answers of `isIdle` over the run. -/
  ctx : Option SessionContext := none
  /-- The `n`-th call of `pi.sendMessage` returns. -/
  accepts : Nat → Bool := fun _ => true
  /-- `client.online`. -/
  online : Bool := true
  isReplyToReply : String → Bool := fun _ => false

/-- What a session has done for its host and its senders. -/
inductive SessionAct where
  /-- A call of `pi.sendMessage` for these frames, and whether it returned. -/
  | message (content : String) (frames : List Nat) (ok : Bool)
  /-- A read frame for a frame. -/
  | read (no : Nat)
deriving DecidableEq

structure Session (ν : Type) where
  /-- The frames that were emitted before the shutdown, each with its `matchedReply`. -/
  arrived : List (Members ν × Bool) := []
  /-- `heldFrames`, each with its `matchedReply`. -/
  held : List (SessionFrame ν × Bool) := []
  /-- What `flushHeld` has still to deliver. -/
  releasing : List (SessionFrame ν × Bool) := []
  batcher : InboundBatcher ν := {}
  deferredInbox : DeferredInbox ν := {}
  /-- The forced frames a timer waits for the host with, and their texts. -/
  waiting : List (SessionFrame ν × Waiting × String) := []
  rateLimitedUntil : Option Int := none
  holdTimer : Bool := false
  detached : Bool := false
  /-- `runtime` is not null. -/
  running : Bool := true
  /-- What `markDetached` found in the deferred inbox. -/
  cleared : List (SessionFrame ν) := []
  hints : ReplyHintTracker := {}
  /-- The calls of `isIdle` so far. -/
  asked : Nat := 0
  /-- The calls of `pi.sendMessage` so far. -/
  called : Nat := 0
  acts : List SessionAct := []

inductive SessionEvent (ν : Type) where
  /-- `client.emit("inbound", frame, { matchedReply })`. -/
  | inbound (frame : Members ν) (matchedReply : Bool)
  /-- `startHold`. -/
  | hold (ms : Int)
  /-- `holdTimer` fires. -/
  | holdExpired
  | modelSelect
  /-- The next frame of `flushHeld`. -/
  | release
  /-- The batcher's window is over. -/
  | window
  /-- The batcher's longest hold is over. -/
  | maxHold
  | toolResult
  /-- `input`, and whether `inputCtx` is idle. -/
  | input (idle : Bool)
  | beforeAgentStart
  | agentStart
  /-- `/mesh inbox flush`. -/
  | inboxFlush
  /-- The timer of a forced frame hands it over. -/
  | waited (no : Nat)
  /-- `session_shutdown`. -/
  | shutdown

/-- A read receipt is sent for such frames. -/
def isReceipted (frame : Members ν) : Bool :=
  (decide (frameType? frame = some .msg) || decide (frameType? frame = some .mailbox)) &&
    (textOf frame "id").isSome && (textOf frame "from").isSome

/-- `injectInbound` leaves the frame to `deliverInterrupted`, which swallows errors. -/
def interrupts (frame : Members ν) : Bool :=
  decide (frameType? frame = some .msg) && isTrue (getOf frame) "interrupt" &&
    decide (inboundPriority frame = .force)

namespace Session

/-- `rt.ctx?.isIdle?.() === false`. -/
def busy (h : HostView) (st : Session ν) : Bool :=
  h.ctx.any fun c => c.isIdle.any fun idle => !idle st.asked

/-- The provider rejects turns. -/
def isHolding (h : HostView) (st : Session ν) : Bool :=
  st.rateLimitedUntil.any fun t => decide (t > h.now)

/-- `isIdle` was called. -/
def ask (st : Session ν) (n : Nat) : Session ν := { st with asked := st.asked + n }

/-- `pi.sendMessage`; the flag says that it returned. -/
def sendMessage (h : HostView) (st : Session ν) (content : String) (frames : List (SessionFrame ν)) :
    Session ν × Bool :=
  let ok := h.accepts st.called
  ({ st with called := st.called + 1,
             acts := st.acts ++ [.message content (frames.map (·.no)) ok] }, ok)

/-- `sendReadReceipt`. -/
def readFrame (h : HostView) (st : Session ν) (f : SessionFrame ν) : Session ν :=
  if isReceipted f.members && h.online then { st with acts := st.acts ++ [.read f.no] } else st

/-- `frames.forEach(readFrame)`. -/
def readFrames (h : HostView) (st : Session ν) (frames : List (SessionFrame ν)) : Session ν :=
  frames.foldl (readFrame h) st

/-- What the batcher does with a batch: `onFlush`. -/
def onFlush (env : SessionEnv) (h : HostView) (st : Session ν) (frames : List (SessionFrame ν)) :
    Session ν :=
  let (batch, hints) := buildBatchMessage env.localTime
    (formatOptsFor env.verbose env.homeRoom h.now) st.hints frames
  let st := { st.ask 1 with hints }
  if st.detached then st
  else
    let (st, ok) := st.sendMessage h batch.content frames
    if ok then st.readFrames h frames else st

/-- `batcher.flushNow()`. -/
def flushNow (env : SessionEnv) (h : HostView) (st : Session ν) : Session ν :=
  let (frames, batcher) := st.batcher.flushNow
  let st := { st with batcher }
  if frames.isEmpty then st else st.onFlush env h frames

/-- `injectInbound` and the receipt after it. -/
def inject (env : SessionEnv) (h : HostView) (st : Session ν) (f : SessionFrame ν)
    (opts : FormatOpts) : Session ν :=
  let ctx := h.ctx.map fun c => { c with isIdle := c.isIdle.map fun idle n => idle (st.asked + n) }
  let content := formatInboundContent env.localTime f.members { opts with replyChain := f.replyChain }
  let injected := injectInbound ctx f.members f.replyChain
  let st := st.ask 2
  match injected.waiting with
  | some w => { st with waiting := st.waiting ++ [(f, w, content)] }.readFrame h f
  | none =>
      let (st, ok) := st.sendMessage h content [f]
      if ok || interrupts f.members then st.readFrame h f else st

/-- The `__replyChain` tag of `handleInboundSideEffects`. -/
def tagged (h : HostView) (f : SessionFrame ν) : SessionFrame ν :=
  { f with replyChain := decide (frameType? f.members = some .reply) &&
      (textOf f.members "replyTo").any h.isReplyToReply }

/-- `deliver`. -/
def deliver (env : SessionEnv) (h : HostView) (st : Session ν) (f : SessionFrame ν)
    (matchedReply : Bool) : Session ν :=
  let f := tagged h f
  if classifyInbound f.members env.name env.broadcasts matchedReply = .deferred then
    { st with deferredInbox := st.deferredInbox.push f }
  else
    let (opts, hints) := formatOptsFor env.verbose env.homeRoom h.now st.hints f
    let busy := st.busy h
    let st := { st.ask 1 with hints }
    if bypassesBatch f.members busy || decide (env.batchMs = 0) then
      let st := st.flushNow env h
      if st.detached then st else st.inject env h f opts
    else { st.ask 1 with batcher := st.batcher.push env.batchMs f }

/-- `flushHeld`, up to its first frame. -/
def flushHeld (st : Session ν) : Session ν := { st with held := [], releasing := st.held }

/-- `DeferredInbox.send`. -/
def sendDeferred (env : SessionEnv) (h : HostView) (st : Session ν) : Session ν × Bool :=
  let (batch, hints) := buildBatchWith deferredHeader env.localTime
    (formatOptsFor env.verbose env.homeRoom h.now) st.hints st.deferredInbox.pending
  { st with hints }.sendMessage h batch.content st.deferredInbox.pending

/-- One event, while no `flushHeld` is under way. -/
def handle (env : SessionEnv) (h : HostView) (st : Session ν) : SessionEvent ν → Option (Session ν)
  | .inbound frame matchedReply =>
      if st.detached then some st
      else
        let f : SessionFrame ν := { no := st.arrived.length, members := frame }
        let st := { st with arrived := st.arrived ++ [(frame, matchedReply)] }
        if st.isHolding h then
          some { st with held := st.held ++ [(f, matchedReply)] }
        else some (st.deliver env h f matchedReply)
  | .hold ms => some { st with rateLimitedUntil := some (h.now + ms), holdTimer := true }
  | .holdExpired =>
      if st.holdTimer then some { st with holdTimer := false, rateLimitedUntil := none }.flushHeld
      else none
  | .modelSelect => some { st with holdTimer := false, rateLimitedUntil := none }.flushHeld
  | .release => none
  | .window =>
      if st.batcher.timer then
        let st := { st with batcher := { st.batcher with timer := false } }
        if st.batcher.frames.isEmpty then some st
        else if st.batcher.holds (st.busy h) then
          some { st.ask 1 with batcher := { st.batcher with maxTimer := true } }
        else some ((st.ask 1).flushNow env h)
      else none
  | .maxHold => if st.batcher.maxTimer then some (st.flushNow env h) else none
  | .toolResult => if st.running then some (st.flushNow env h) else some st
  | .input idle =>
      if !st.detached && idle && !st.deferredInbox.pending.isEmpty then
        let (st, ok) := st.sendDeferred env h
        some (if ok then { st with deferredInbox := st.deferredInbox.queueForPrompt } else st)
      else some st
  | .beforeAgentStart =>
      if st.detached then some st
      else some { st with deferredInbox := st.deferredInbox.promptStarting }
  | .agentStart =>
      if st.detached then some st
      else
        let (delivered, deferredInbox) := st.deferredInbox.agentStarting
        some ({ st with deferredInbox }.readFrames h delivered)
  | .inboxFlush =>
      if st.running && !st.deferredInbox.pending.isEmpty then
        let frames := st.deferredInbox.pending
        let (st, ok) := st.sendDeferred env h
        if ok then some ({ st with deferredInbox := st.deferredInbox.flush }.readFrames h frames)
        else some st
      else some st
  | .waited no =>
      match st.waiting.find? fun w => w.1.no = no with
      | some (f, _, content) =>
          let st := { st with waiting := st.waiting.filter fun w => w.1.no ≠ no }
          some (st.sendMessage h content [f]).1
      | none => none
  | .shutdown =>
      if st.running then
        let st := { st with
          running := false, detached := true, holdTimer := false, rateLimitedUntil := none,
          cleared := st.deferredInbox.pending, deferredInbox := DeferredInbox.clear }
        some (st.flushNow env h)
      else none

/-- One event, or the next frame of a `flushHeld` that is under way. -/
def step (env : SessionEnv) (st : Session ν) (e : HostView × SessionEvent ν) : Option (Session ν) :=
  match st.releasing, e.2 with
  | [], event => st.handle env e.1 event
  | (f, matchedReply) :: rest, .release =>
      some ({ st with releasing := rest }.deliver env e.1 f matchedReply)
  | _, _ => none

end Session

def SessionStep (env : SessionEnv) (st : Session ν) (e : HostView × SessionEvent ν)
    (st' : Session ν) : Prop :=
  st.step env e = some st'

end PiMesh
