/-
Every frame a session is handed goes somewhere.

A frame is in one place at a time: held, in the batch, in the deferred inbox, with a timer,
or passed to `pi.sendMessage`.  What one operation moves is a lemma; the count of a number
over all places is then kept by every event, and an arrival adds one to it.  Only the
shutdown can lose frames: it silences the session first and empties the batcher after that.
-/
import PiMesh.Extension.Session

namespace PiMesh

open Js Transition

variable {ν : Type} [Number ν]

/-! ### Places -/

/-- The numbers of some frames. -/
def numbers (frames : List (SessionFrame ν)) : List Nat := frames.map (·.no)

@[simp] theorem numbers_nil : numbers ([] : List (SessionFrame ν)) = [] := rfl

@[simp] theorem numbers_cons (f : SessionFrame ν) (rest : List (SessionFrame ν)) :
    numbers (f :: rest) = f.no :: numbers rest := rfl

@[simp] theorem numbers_append (l l' : List (SessionFrame ν)) :
    numbers (l ++ l') = numbers l ++ numbers l' := List.map_append

/-- The frames a call of `pi.sendMessage` was made for. -/
def SessionAct.passes : SessionAct → List Nat
  | .message _ frames _ => frames
  | .read _ => []

namespace Session

/-- The frames that were passed to `pi.sendMessage`, in order. -/
def passed (st : Session ν) : List Nat := st.acts.flatMap SessionAct.passes

/-- What is held, and what of it a `flushHeld` has still to deliver. -/
def heldBack (st : Session ν) : List Nat := numbers ((st.releasing ++ st.held).map Prod.fst)

/-- What a timer has. -/
def delayed (st : Session ν) : List Nat := numbers (st.waiting.map Prod.fst)

def batched (st : Session ν) : List Nat := numbers st.batcher.frames

def pending (st : Session ν) : List Nat := numbers st.deferredInbox.pending

end Session

/-! ### What an operation leaves alone -/

/-- The steps of a delivery change the batcher, the timers of forced frames and what was done. -/
structure SameElsewhere (st st' : Session ν) : Prop where
  arrived : st'.arrived = st.arrived
  held : st'.held = st.held
  releasing : st'.releasing = st.releasing
  rateLimitedUntil : st'.rateLimitedUntil = st.rateLimitedUntil
  holdTimer : st'.holdTimer = st.holdTimer
  detached : st'.detached = st.detached
  running : st'.running = st.running
  cleared : st'.cleared = st.cleared

namespace SameElsewhere

variable {st st' st'' : Session ν}

theorem refl (st : Session ν) : SameElsewhere st st :=
  ⟨rfl, rfl, rfl, rfl, rfl, rfl, rfl, rfl⟩

theorem trans (h : SameElsewhere st st') (h' : SameElsewhere st' st'') : SameElsewhere st st'' :=
  ⟨h'.arrived.trans h.arrived, h'.held.trans h.held, h'.releasing.trans h.releasing,
    h'.rateLimitedUntil.trans h.rateLimitedUntil, h'.holdTimer.trans h.holdTimer, h'.detached.trans h.detached, h'.running.trans h.running,
    h'.cleared.trans h.cleared⟩

end SameElsewhere

namespace Session

variable (env : SessionEnv) (h : HostView) (st : Session ν)

/-! ### Receipts -/

/-- The receipts for some frames. -/
def receipts (frames : List (SessionFrame ν)) : List SessionAct :=
  if h.online then (frames.filter fun f => isReceipted f.members).map fun f => .read f.no else []

theorem readFrame_eq (f : SessionFrame ν) :
    st.readFrame h f = { st with acts := st.acts ++ receipts h [f] } := by
  unfold readFrame receipts
  cases hr : isReceipted f.members <;> cases ho : h.online <;> simp [hr]

theorem readFrames_eq (frames : List (SessionFrame ν)) :
    st.readFrames h frames = { st with acts := st.acts ++ receipts h frames } := by
  unfold readFrames
  induction frames generalizing st with
  | nil => cases ho : h.online <;> simp [receipts]
  | cons f rest ih =>
      rw [List.foldl_cons, ih, readFrame_eq]
      have hsplit : receipts h (f :: rest) = receipts h [f] ++ receipts h rest := by
        unfold receipts
        cases h.online with
        | false => rfl
        | true =>
            rw [if_pos rfl, if_pos rfl, if_pos rfl, ← List.map_append, ← List.filter_append]
            rfl
      simp only [hsplit, List.append_assoc]

theorem passes_receipts (frames : List (SessionFrame ν)) :
    (receipts h frames).flatMap SessionAct.passes = [] := by
  unfold receipts
  split
  · simp [List.flatMap_map, SessionAct.passes]
  · rfl

/-! ### Flushing -/

/-- What a flush does: nothing for an empty batch or a detached session. -/
def flushActs : List SessionAct :=
  if st.batcher.frames.isEmpty || st.detached then []
  else
    .message (buildBatchMessage env.localTime (formatOptsFor env.verbose env.homeRoom h.now) st.hints
        st.batcher.frames).1.content (numbers st.batcher.frames) (h.accepts st.called) ::
      if h.accepts st.called then receipts h st.batcher.frames else []

/-- A flush from one state to another. -/
structure Flushed (st st' : Session ν) : Prop where
  elsewhere : SameElsewhere st st'
  deferredInbox : st'.deferredInbox = st.deferredInbox
  batcher : st'.batcher = {}
  waiting : st'.waiting = st.waiting
  acts : st'.acts = st.acts ++ flushActs env h st
  asked : st'.asked = st.asked + if st.batcher.frames.isEmpty then 0 else 1
  called : st'.called = st.called + if st.batcher.frames.isEmpty || st.detached then 0 else 1

theorem flushed_flushNow : Flushed env h st (st.flushNow env h) := by
  unfold flushNow InboundBatcher.flushNow
  cases hempty : st.batcher.frames.isEmpty with
  | true =>
      simp only [hempty, if_true]
      refine ⟨⟨rfl, rfl, rfl, rfl, rfl, rfl, rfl, rfl⟩, rfl, rfl, rfl, ?_, ?_, ?_⟩
      · simp [flushActs, hempty]
      · simp [hempty]
      · simp [hempty]
  | false =>
      simp only [hempty, Bool.false_eq_true, if_false]
      unfold onFlush sendMessage
      dsimp only [ask]
      cases hdetached : st.detached with
      | true =>
          simp only [if_true]
          refine ⟨⟨rfl, rfl, rfl, rfl, rfl, hdetached.symm, rfl, rfl⟩, rfl, rfl, rfl, ?_, ?_, ?_⟩
          · simp [flushActs, hdetached]
          · simp [hempty]
          · simp [hdetached]
      | false =>
          simp only [Bool.false_eq_true, if_false]
          cases hok : h.accepts st.called with
          | true =>
              simp only [if_true, readFrames_eq]
              refine ⟨⟨rfl, rfl, rfl, rfl, rfl, hdetached.symm, rfl, rfl⟩, rfl, rfl, rfl, ?_, ?_, ?_⟩
              · simp [flushActs, hempty, hdetached, hok, numbers]
              · simp [hempty]
              · simp [hempty, hdetached]
          | false =>
              simp only [Bool.false_eq_true, if_false]
              refine ⟨⟨rfl, rfl, rfl, rfl, rfl, hdetached.symm, rfl, rfl⟩, rfl, rfl, rfl, ?_, ?_, ?_⟩
              · simp [flushActs, hempty, hdetached, hok, numbers]
              · simp [hempty]
              · simp [hempty, hdetached]

theorem passes_flushActs :
    (flushActs env h st).flatMap SessionAct.passes = if st.detached then [] else st.batched := by
  unfold flushActs batched
  cases hempty : st.batcher.frames with
  | nil => cases st.detached <;> simp
  | cons f rest =>
      cases st.detached with
      | true => simp
      | false => cases h.accepts st.called <;> simp [SessionAct.passes, passes_receipts]

/-! ### Injecting -/

end Session

/-- `injectInbound` leaves the frame to a timer, the host's next answer being the `n`-th: it is
forced, and the host can abort a turn and has one. -/
def leftToTimer (h : HostView) (n : Nat) (frame : Members ν) : Bool :=
  decide (inboundPriority frame = .force) && decide (frameType? frame ≠ some .remind) &&
    !(decide (frameType? frame = some .reply) && isTrue (getOf frame) "receipt") &&
    (abortable h.ctx).any fun idle => !idle n && (interrupts frame || !idle (n + 1))

theorem injectInbound_waiting (h : HostView) (n : Nat) (frame : Members ν) (replyChain : Bool) :
    (injectInbound (h.ctx.map fun c => { c with isIdle := c.isIdle.map fun idle m => idle (n + m) })
      frame replyChain).waiting.isSome = leftToTimer h n frame := by
  have hab : abortable (h.ctx.map fun c => { c with isIdle := c.isIdle.map fun idle m => idle (n + m) })
      = (abortable h.ctx).map fun idle m => idle (n + m) := by
    cases h.ctx with
    | none => rfl
    | some c => cases hc : c.canAbort <;> simp [abortable, hc]
  unfold injectInbound leftToTimer interrupts
  simp only [hab]
  by_cases hint : frameType? frame = some .msg ∧ isTrue (getOf frame) "interrupt" = true ∧
      inboundPriority frame = .force
  · obtain ⟨htype, hflag, hforce⟩ := hint
    simp only [htype, hflag, hforce, and_self, if_true, deliverInterrupted, hab]
    cases habort : abortable h.ctx with
    | none => simp
    | some idle => cases hidle : idle n <;> simp [hidle]
  · have hnot : (decide (frameType? frame = some .msg) && isTrue (getOf frame) "interrupt" &&
        decide (inboundPriority frame = .force)) = false := by
      simp only [Bool.and_eq_false_iff, decide_eq_false_iff_not]
      by_contra hc
      simp only [not_or, not_not, Bool.not_eq_false] at hc
      exact hint ⟨hc.1.1, hc.1.2, hc.2⟩
    rw [if_neg hint]
    simp only [hnot, Bool.false_or]
    cases hreceipt : decide (frameType? frame = some .reply) && isTrue (getOf frame) "receipt" with
    | true => simp
    | false =>
        cases hctx : h.ctx with
        | none => simp [abortable]
        | some c =>
            cases hc : c.canAbort with
            | false => simp [abortable, hc]
            | true =>
                cases hidle : c.isIdle with
                | none => simp [abortable, hc, hidle]
                | some idle =>
                    simp only [abortable, hc, if_true, Option.map_some, Option.any_some, hidle,
                      Bool.false_eq_true, if_false, Bool.not_false, Bool.and_true, Nat.add_zero]
                    cases hbusy : idle n with
                    | true => simp
                    | false =>
                        by_cases hforce : inboundPriority frame = .force ∧ frameType? frame ≠ some .remind
                        · simp only [hforce.1, hforce.2, ne_eq, not_false_eq_true, Bool.not_false,
                            and_self, if_true, deliverWhenIdle, Option.any_some]
                          by_cases hnext : idle (n + 1) = true <;> simp [hnext]
                        · rw [if_neg fun hc => hforce ⟨hc.1, hc.2.1⟩]
                          rw [not_and_or, not_not] at hforce
                          rcases hforce with hforce | hforce <;> simp [hforce]

namespace Session

variable {env : SessionEnv} {h : HostView} {st st' : Session ν}

/-- The text of one frame. -/
def singleContent (env : SessionEnv) (f : SessionFrame ν) (opts : FormatOpts) : String :=
  formatInboundContent env.localTime f.members { opts with replyChain := f.replyChain }

/-- Taking a frame in: a timer gets it, and its receipt is sent at once, or `pi.sendMessage`
does, and its receipt is sent unless that throws and nobody swallows it. -/
inductive Injected (env : SessionEnv) (h : HostView) (st : Session ν) (f : SessionFrame ν)
    (opts : FormatOpts) : Session ν → Prop
  | delayed (w : Waiting) (hwaits : leftToTimer h st.asked f.members = true) :
      Injected env h st f opts { st with
        asked := st.asked + 2
        waiting := st.waiting ++ [(f, w, singleContent env f opts)]
        acts := st.acts ++ receipts h [f] }
  | sent (hsent : leftToTimer h st.asked f.members = false) :
      Injected env h st f opts { st with
        asked := st.asked + 2
        called := st.called + 1
        acts := st.acts ++ .message (singleContent env f opts) [f.no] (h.accepts st.called) ::
          if h.accepts st.called || interrupts f.members then receipts h [f] else [] }

theorem injected_inject (f : SessionFrame ν) (opts : FormatOpts) :
    Injected env h st f opts (st.inject env h f opts) := by
  have hwaiting := injectInbound_waiting h st.asked f.members f.replyChain
  unfold inject
  dsimp only
  split
  · next w hw =>
      rw [hw] at hwaiting
      rw [readFrame_eq]
      exact .delayed w hwaiting.symm
  · next hw =>
      rw [hw] at hwaiting
      have hsent : leftToTimer h st.asked f.members = false := hwaiting.symm
      have heq : Injected env h st f opts _ := .sent hsent
      let s : Session ν := { st with
        asked := st.asked + 2
        called := st.called + 1
        acts := st.acts ++ [.message (singleContent env f opts) [f.no] (h.accepts st.called)] }
      show Injected env h st f opts
        (if h.accepts st.called || interrupts f.members then s.readFrame h f else s)
      by_cases hread : (h.accepts st.called || interrupts f.members) = true
      · rw [if_pos hread] at heq ⊢
        rw [readFrame_eq]
        simpa [s] using heq
      · rw [if_neg hread] at heq ⊢
        exact heq

/-! ### Delivering -/

/-- The frame is for the deferred inbox. -/
def isDeferred (env : SessionEnv) (frame : Members ν) (matchedReply : Bool) : Bool :=
  decide (classifyInbound frame env.name env.broadcasts matchedReply = .deferred)

/-- The frame does not wait for the window to close. -/
def isBypassing (env : SessionEnv) (h : HostView) (st : Session ν) (frame : Members ν) : Bool :=
  bypassesBatch frame (st.busy h) || decide (env.batchMs = 0)

/-- Delivering a frame: it goes to the deferred inbox, into the batch, or to the host, behind
what was in the batch. -/
inductive Delivered (env : SessionEnv) (h : HostView) (st : Session ν) (f : SessionFrame ν)
    (matchedReply : Bool) : Session ν → Prop
  | deferred (hclass : isDeferred env f.members matchedReply = true) :
      Delivered env h st f matchedReply { st with deferredInbox := st.deferredInbox.push (tagged h f) }
  | batched (hints : ReplyHintTracker) (hclass : isDeferred env f.members matchedReply = false)
      (hbypass : isBypassing env h st f.members = false) :
      Delivered env h st f matchedReply { st with
        hints
        asked := st.asked + 2
        batcher := st.batcher.push env.batchMs (tagged h f) }
  | silenced {s : Session ν} (hints : ReplyHintTracker)
      (hclass : isDeferred env f.members matchedReply = false)
      (hflush : Flushed env h { st with asked := st.asked + 1, hints } s) (hdetached : s.detached = true) :
      Delivered env h st f matchedReply s
  | handed {s s' : Session ν} (hints : ReplyHintTracker) (opts : FormatOpts)
      (hclass : isDeferred env f.members matchedReply = false)
      (hbypass : isBypassing env h st f.members = true)
      (hflush : Flushed env h { st with asked := st.asked + 1, hints } s)
      (hdetached : s.detached = false) (hinject : Injected env h s (tagged h f) opts s') :
      Delivered env h st f matchedReply s'

theorem delivered_deliver (f : SessionFrame ν) (matchedReply : Bool) :
    Delivered env h st f matchedReply (st.deliver env h f matchedReply) := by
  unfold deliver
  dsimp only
  split
  · next hclass => exact .deferred (decide_eq_true hclass)
  · next hclass =>
      have hclass : isDeferred env f.members matchedReply = false := decide_eq_false hclass
      split
      · next hbypass =>
          have hflush := flushed_flushNow env h { st.ask 1 with
            hints := (formatOptsFor env.verbose env.homeRoom h.now st.hints (tagged h f)).2 }
          split
          · next hdetached => exact .silenced _ hclass hflush hdetached
          · next hdetached =>
              exact .handed _ _ hclass hbypass hflush (Bool.eq_false_iff.mpr hdetached)
                (injected_inject _ _)
      · next hbypass => exact .batched _ hclass (Bool.eq_false_iff.mpr hbypass)

/-! ### How often a frame is somewhere -/

/-- In how many places the frame with this number is. -/
def places (st : Session ν) (k : Nat) : Nat :=
  st.passed.count k + st.heldBack.count k + st.batched.count k + st.pending.count k +
    st.delayed.count k

theorem passed_of_acts (st : Session ν) {more : List SessionAct} (hacts : st'.acts = st.acts ++ more) :
    st'.passed = st.passed ++ more.flatMap SessionAct.passes := by
  unfold passed
  rw [hacts, List.flatMap_append]

theorem Flushed.passed (hf : Flushed env h st st') :
    st'.passed = st.passed ++ if st.detached then [] else st.batched := by
  rw [passed_of_acts st hf.acts, passes_flushActs]

theorem places_flushed (hf : Flushed env h st st')
    (hkeeps : st.detached = false ∨ st.batcher.frames = []) (k : Nat) :
    st'.places k = st.places k := by
  have hbatch : (if st.detached then [] else st.batched) = st.batched := by
    rcases hkeeps with hd | hempty
    · simp [hd]
    · simp [batched, hempty]
  have hpassed : st'.passed = st.passed ++ st.batched := by rw [hf.passed, hbatch]
  unfold places heldBack pending delayed
  rw [hpassed, hf.elsewhere.held, hf.elsewhere.releasing, hf.deferredInbox, hf.waiting]
  have hnone : st'.batched = [] := by simp [batched, hf.batcher]
  rw [hnone, List.count_append, List.count_nil]
  omega

theorem places_injected {f : SessionFrame ν} {opts : FormatOpts} (hi : Injected env h st f opts st')
    (k : Nat) : st'.places k = st.places k + if f.no = k then 1 else 0 := by
  unfold places heldBack batched pending delayed
  cases hi with
  | delayed w hwaits =>
      rw [passed_of_acts st rfl, passes_receipts, List.append_nil, List.map_append,
        numbers_append, List.count_append]
      simp [List.count_cons]
      omega
  | sent hsent =>
      have hpasses : (SessionAct.message (singleContent env f opts) [f.no] (h.accepts st.called) ::
          if h.accepts st.called || interrupts f.members then receipts h [f] else []).flatMap
            SessionAct.passes = [f.no] := by
        rw [List.flatMap_cons]
        split <;> simp [SessionAct.passes, passes_receipts]
      rw [passed_of_acts st rfl, hpasses, List.count_append]
      simp [List.count_cons]
      omega

/-- Delivering puts the frame into one place. -/
theorem places_delivered {f : SessionFrame ν} {matchedReply : Bool}
    (hd : Delivered env h st f matchedReply st') (hlive : st.detached = false) (k : Nat) :
    st'.places k = st.places k + if f.no = k then 1 else 0 := by
  cases hd with
  | deferred =>
      unfold places heldBack batched pending delayed passed DeferredInbox.push
      simp [List.count_cons, tagged]
      omega
  | batched =>
      unfold places heldBack batched pending delayed passed InboundBatcher.push
      simp [List.count_cons, tagged]
      omega
  | silenced hints _ hflush hdetached =>
      rw [hflush.elsewhere.detached] at hdetached
      exact absurd (hdetached.symm.trans hlive) (by simp)
  | handed hints opts _ _ hflush _ hinject =>
      rw [places_injected hinject, places_flushed hflush (.inl hlive)]
      rfl

theorem elsewhere_injected {f : SessionFrame ν} {opts : FormatOpts}
    (hi : Injected env h st f opts st') : SameElsewhere st st' := by
  cases hi with
  | delayed => exact ⟨rfl, rfl, rfl, rfl, rfl, rfl, rfl, rfl⟩
  | sent => exact ⟨rfl, rfl, rfl, rfl, rfl, rfl, rfl, rfl⟩

theorem elsewhere_delivered {f : SessionFrame ν} {matchedReply : Bool}
    (hd : Delivered env h st f matchedReply st') : SameElsewhere st st' := by
  cases hd with
  | deferred => exact ⟨rfl, rfl, rfl, rfl, rfl, rfl, rfl, rfl⟩
  | batched => exact ⟨rfl, rfl, rfl, rfl, rfl, rfl, rfl, rfl⟩
  | silenced hints _ hflush =>
      have hfrom : SameElsewhere st { st with asked := st.asked + 1, hints } :=
        ⟨rfl, rfl, rfl, rfl, rfl, rfl, rfl, rfl⟩
      exact hfrom.trans hflush.elsewhere
  | handed hints opts _ _ hflush _ hinject =>
      have hfrom : SameElsewhere st { st with asked := st.asked + 1, hints } :=
        ⟨rfl, rfl, rfl, rfl, rfl, rfl, rfl, rfl⟩
      exact (hfrom.trans hflush.elsewhere).trans (elsewhere_injected hinject)

/-! ### The deferred inbox -/

/-- The message of the deferred inbox. -/
def deferredBatch (env : SessionEnv) (h : HostView) (st : Session ν) : BatchedInjection × ReplyHintTracker :=
  buildBatchWith deferredHeader env.localTime (formatOptsFor env.verbose env.homeRoom h.now) st.hints
    st.deferredInbox.pending

theorem sendDeferred_eq (env : SessionEnv) (h : HostView) (st : Session ν) :
    st.sendDeferred env h = ({ st with
      hints := (deferredBatch env h st).2
      called := st.called + 1
      acts := st.acts ++ [.message (deferredBatch env h st).1.content
        (numbers st.deferredInbox.pending) (h.accepts st.called)] }, h.accepts st.called) := rfl

/-! ### What an event can do -/

/-- Every way a step can go. -/
inductive Stepped (env : SessionEnv) (h : HostView) (st : Session ν) :
    SessionEvent ν → Session ν → Prop
  | same (e : SessionEvent ν) (hreleasing : st.releasing = []) : Stepped env h st e st
  | held (frame : Members ν) (matchedReply : Bool) (hreleasing : st.releasing = [])
      (hlive : st.detached = false) (hhold : st.isHolding h = true) :
      Stepped env h st (.inbound frame matchedReply) { st with
        arrived := st.arrived ++ [(frame, matchedReply)]
        held := st.held ++ [({ no := st.arrived.length, members := frame }, matchedReply)] }
  | taken {s : Session ν} (frame : Members ν) (matchedReply : Bool) (hreleasing : st.releasing = [])
      (hlive : st.detached = false) (hopen : st.isHolding h = false)
      (hd : Delivered env h { st with arrived := st.arrived ++ [(frame, matchedReply)] }
        { no := st.arrived.length, members := frame } matchedReply s) :
      Stepped env h st (.inbound frame matchedReply) s
  | hold (ms : Int) (hreleasing : st.releasing = []) :
      Stepped env h st (.hold ms) { st with rateLimitedUntil := some (h.now + ms), holdTimer := true }
  | lifted (e : SessionEvent ν) (hreleasing : st.releasing = []) :
      Stepped env h st e { st with
        holdTimer := false, rateLimitedUntil := none, held := [], releasing := st.held }
  | released {s : Session ν} {f : SessionFrame ν} {matchedReply : Bool}
      {rest : List (SessionFrame ν × Bool)} (hreleasing : st.releasing = (f, matchedReply) :: rest)
      (hd : Delivered env h { st with releasing := rest } f matchedReply s) :
      Stepped env h st .release s
  | ticked (timer maxTimer : Bool) (asked : Nat) (hreleasing : st.releasing = []) :
      Stepped env h st .window { st with
        batcher := { st.batcher with timer, maxTimer }, asked }
  | flushed {s : Session ν} (e : SessionEvent ν) (timer : Bool) (asked : Nat)
      (hreleasing : st.releasing = []) (he : e = .window ∨ e = .maxHold ∨ e = .toolResult)
      (hopen : e = .window → st.batcher.holds (st.busy h) = false)
      (hf : Flushed env h { st with batcher := { st.batcher with timer }, asked } s) :
      Stepped env h st e s
  | prompted (hreleasing : st.releasing = []) (hlive : st.detached = false)
      (hok : h.accepts st.called = true) : Stepped env h st (.input true) { st with
        hints := (deferredBatch env h st).2
        called := st.called + 1
        acts := st.acts ++ [.message (deferredBatch env h st).1.content
          (numbers st.deferredInbox.pending) true]
        deferredInbox := st.deferredInbox.queueForPrompt }
  | refused (e : SessionEvent ν) (hreleasing : st.releasing = [])
      (hok : h.accepts st.called = false) (hlive : st.detached = false ∨ st.running = true) :
      Stepped env h st e { st with
        hints := (deferredBatch env h st).2
        called := st.called + 1
        acts := st.acts ++ [.message (deferredBatch env h st).1.content
          (numbers st.deferredInbox.pending) false] }
  | starting (hreleasing : st.releasing = []) : Stepped env h st .beforeAgentStart { st with
      deferredInbox := st.deferredInbox.promptStarting }
  | started (hreleasing : st.releasing = []) (hlive : st.detached = false) :
      Stepped env h st .agentStart { st with
        deferredInbox := st.deferredInbox.agentStarting.2
        acts := st.acts ++ receipts h st.deferredInbox.agentStarting.1 }
  | promoted (hreleasing : st.releasing = []) (hrunning : st.running = true)
      (hok : h.accepts st.called = true) : Stepped env h st .inboxFlush { st with
        hints := (deferredBatch env h st).2
        called := st.called + 1
        acts := st.acts ++ .message (deferredBatch env h st).1.content
          (numbers st.deferredInbox.pending) true :: receipts h st.deferredInbox.pending
        deferredInbox := st.deferredInbox.flush }
  | waited {f : SessionFrame ν} {w : Waiting} {content : String} {no : Nat}
      (hreleasing : st.releasing = []) (hmem : (f, w, content) ∈ st.waiting) (hno : f.no = no) :
      Stepped env h st (.waited no) { st with
        waiting := st.waiting.filter fun w => w.1.no ≠ no
        called := st.called + 1
        acts := st.acts ++ [.message content [f.no] (h.accepts st.called)] }
  | shut {s : Session ν} (hreleasing : st.releasing = []) (hrunning : st.running = true)
      (hf : Flushed env h { st with
        running := false, detached := true, holdTimer := false, rateLimitedUntil := none,
        cleared := st.deferredInbox.pending, deferredInbox := DeferredInbox.clear } s) :
      Stepped env h st .shutdown s

/-- The events, one by one. -/
theorem stepped_of_handle {e : SessionEvent ν} (hreleasing : st.releasing = [])
    (hs : st.handle env h e = some st') : Stepped env h st e st' := by
  cases e with
  | inbound frame matchedReply =>
      simp only [handle] at hs
      split at hs
      · obtain rfl := Option.some.inj hs
        exact .same _ hreleasing
      · next hlive =>
          split at hs
          · next hhold =>
              obtain rfl := Option.some.inj hs
              exact .held frame matchedReply hreleasing (Bool.eq_false_iff.mpr hlive) hhold
          · next hopen =>
              obtain rfl := Option.some.inj hs
              exact .taken frame matchedReply hreleasing (Bool.eq_false_iff.mpr hlive)
                (Bool.eq_false_iff.mpr hopen) (delivered_deliver _ _)
  | hold ms =>
      obtain rfl := Option.some.inj hs
      exact .hold ms hreleasing
  | holdExpired =>
      simp only [handle] at hs
      split at hs
      · obtain rfl := Option.some.inj hs
        exact .lifted _ hreleasing
      · cases hs
  | modelSelect =>
      obtain rfl := Option.some.inj hs
      exact .lifted _ hreleasing
  | release => cases hs
  | window =>
      simp only [handle] at hs
      split at hs
      · split at hs
        · obtain rfl := Option.some.inj hs
          exact .ticked false st.batcher.maxTimer st.asked hreleasing
        · split at hs
          · obtain rfl := Option.some.inj hs
            exact .ticked false true (st.asked + 1) hreleasing
          · next hopen =>
              obtain rfl := Option.some.inj hs
              exact .flushed .window false (st.asked + 1) hreleasing (.inl rfl)
                (fun _ => Bool.eq_false_iff.mpr hopen) (flushed_flushNow _ _ _)
      · cases hs
  | maxHold =>
      simp only [handle] at hs
      split at hs
      · obtain rfl := Option.some.inj hs
        exact .flushed .maxHold st.batcher.timer st.asked hreleasing (.inr (.inl rfl))
          (fun hc => by cases hc) (flushed_flushNow _ _ _)
      · cases hs
  | toolResult =>
      simp only [handle] at hs
      split at hs
      · obtain rfl := Option.some.inj hs
        exact .flushed .toolResult st.batcher.timer st.asked hreleasing (.inr (.inr rfl))
          (fun hc => by cases hc) (flushed_flushNow _ _ _)
      · obtain rfl := Option.some.inj hs
        exact .same _ hreleasing
  | input idle =>
      simp only [handle] at hs
      split at hs
      · next hopen =>
          simp only [Bool.and_eq_true, Bool.not_eq_true'] at hopen
          obtain ⟨⟨hlive, rfl⟩, -⟩ := hopen
          rw [sendDeferred_eq] at hs
          dsimp only at hs
          split at hs
          · next hok =>
              obtain rfl := Option.some.inj hs
              rw [hok]
              exact .prompted hreleasing hlive hok
          · next hok =>
              obtain rfl := Option.some.inj hs
              have hok : h.accepts st.called = false := Bool.eq_false_iff.mpr hok
              rw [hok]
              exact .refused _ hreleasing hok (.inl hlive)
      · obtain rfl := Option.some.inj hs
        exact .same _ hreleasing
  | beforeAgentStart =>
      simp only [handle] at hs
      split at hs
      · obtain rfl := Option.some.inj hs
        exact .same _ hreleasing
      · obtain rfl := Option.some.inj hs
        exact .starting hreleasing
  | agentStart =>
      simp only [handle] at hs
      split at hs
      · obtain rfl := Option.some.inj hs
        exact .same _ hreleasing
      · next hlive =>
          obtain rfl := Option.some.inj hs
          rw [readFrames_eq]
          exact .started hreleasing (Bool.eq_false_iff.mpr hlive)
  | inboxFlush =>
      simp only [handle] at hs
      split at hs
      · next hopen =>
          simp only [Bool.and_eq_true] at hopen
          rw [sendDeferred_eq] at hs
          dsimp only at hs
          split at hs
          · next hok =>
              obtain rfl := Option.some.inj hs
              have heq : Stepped env h st .inboxFlush _ := .promoted hreleasing hopen.1 hok
              rw [readFrames_eq]
              simpa [hok] using heq
          · next hok =>
              obtain rfl := Option.some.inj hs
              have hok : h.accepts st.called = false := Bool.eq_false_iff.mpr hok
              rw [hok]
              exact .refused _ hreleasing hok (.inr hopen.1)
      · obtain rfl := Option.some.inj hs
        exact .same _ hreleasing
  | waited no =>
      simp only [handle] at hs
      split at hs
      · next f w content hfind =>
          obtain rfl := Option.some.inj hs
          have hno : f.no = no := by simpa using List.find?_some hfind
          exact .waited hreleasing (List.mem_of_find?_eq_some hfind) hno
      · cases hs
  | shutdown =>
      simp only [handle] at hs
      split at hs
      · next hrunning =>
          obtain rfl := Option.some.inj hs
          exact .shut hreleasing hrunning (flushed_flushNow _ _ _)
      · cases hs

theorem stepped_of_step {e : HostView × SessionEvent ν} (hs : SessionStep env st e st') :
    Stepped env e.1 st e.2 st' := by
  unfold SessionStep step at hs
  split at hs
  · next hreleasing => exact stepped_of_handle hreleasing hs
  · next f matchedReply rest hreleasing he =>
      obtain rfl := Option.some.inj hs
      rw [he]
      exact .released hreleasing (delivered_deliver _ _)
  · cases hs

end Session

/-! ### What the result speaks of -/

/-- `pi.sendMessage` does not throw while the session lives. -/
def HostLives (st : Session ν) (e : HostView × SessionEvent ν) : Prop :=
  st.running = true → ∀ n, e.1.accepts n = true

/-- Each frame was passed on once or is in one buffer; after the shutdown it was passed on once
or was in the deferred inbox. -/
structure Conserved (st : Session ν) : Prop where
  alive : st.running = true → ∀ k < st.arrived.length,
    st.passed.count k + st.heldBack.count k + st.batched.count k + st.pending.count k = 1
  shut : st.running = false → ∀ k < st.arrived.length,
    st.passed.count k = 1 ∨ k ∈ numbers st.cleared

/-- The number of the first answer of `isIdle` that `injectInbound` gets. -/
def Session.nextAsk (st : Session ν) : Nat :=
  st.asked + 1 + if st.batcher.frames.isEmpty then 0 else 1

/-- No forced frame that is delivered finds the host in a turn it can abort, and the shutdown
finds the batcher empty and nothing held. -/
def unhindered (st : Session ν) : HostView × SessionEvent ν → Bool
  | (h, .inbound frame _) =>
      !st.running || st.isHolding h || !leftToTimer h st.nextAsk frame
  | (h, .release) =>
      !st.running || st.releasing.head?.all fun f => !leftToTimer h st.nextAsk f.1.members
  | (_, .shutdown) => st.batcher.frames.isEmpty && st.held.isEmpty
  | _ => true

/-! ### Steps -/

/-- Every frame that has arrived is in one place, or was cleared away; nothing waits for the
host, and a session that was shut down has nothing left. -/
structure Accounted (st : Session ν) : Prop where
  detached : st.detached = !st.running
  once : ∀ k, st.places k + (numbers st.cleared).count k = if k < st.arrived.length then 1 else 0
  prompt : st.waiting = []
  kept : st.running = true → st.cleared = []
  closed : st.running = false → st.held = [] ∧ st.releasing = [] ∧ st.batcher.frames = [] ∧
    st.deferredInbox.pending = []

namespace Accounted

variable {env : SessionEnv} {h : HostView} {st st' : Session ν}

theorem init : Accounted ({} : Session ν) := by
  refine ⟨rfl, fun k => ?_, rfl, fun _ => rfl, fun hrun => ?_⟩
  · simp [Session.places, Session.passed, Session.heldBack, Session.batched, Session.pending,
      Session.delayed]
  · cases hrun

/-- The frame is at the place it has now, and at no other. -/
theorem conserved (ha : Accounted st) : Conserved st := by
  have hdelayed : st.delayed = [] := by simp [Session.delayed, ha.prompt]
  constructor
  · intro hrun k hk
    have honce := ha.once k
    rw [if_pos hk, ha.kept hrun] at honce
    simpa [Session.places, hdelayed] using honce
  · intro hrun k hk
    obtain ⟨hheld, hreleasing, hbatch, hpending⟩ := ha.closed hrun
    have honce := ha.once k
    rw [if_pos hk] at honce
    simp only [Session.places, Session.heldBack, Session.batched, Session.pending, hdelayed, hheld,
      hreleasing, hbatch, hpending, List.append_nil, List.map_nil, numbers_nil, List.count_nil,
      Nat.add_zero] at honce
    by_cases hcleared : k ∈ numbers st.cleared
    · exact .inr hcleared
    · rw [List.count_eq_zero.mpr hcleared] at honce
      exact .inl honce

/-- A step that moves nothing. -/
theorem still (ha : Accounted st) (hplaces : ∀ k, st'.places k = st.places k)
    (harrived : st'.arrived = st.arrived) (hdetached : st'.detached = st.detached)
    (hrunning : st'.running = st.running) (hcleared : st'.cleared = st.cleared)
    (hwaiting : st'.waiting = []) (hclosed : st.running = false → st'.held = [] ∧
      st'.releasing = [] ∧ st'.batcher.frames = [] ∧ st'.deferredInbox.pending = []) :
    Accounted st' := by
  refine ⟨?_, fun k => ?_, hwaiting, fun hrun => ?_, fun hrun => hclosed (hrunning ▸ hrun)⟩
  · rw [hdetached, hrunning, ha.detached]
  · rw [hplaces, hcleared, harrived]
    exact ha.once k
  · rw [hcleared]
    exact ha.kept (hrunning ▸ hrun)

/-- A flush of a session that runs, or that has nothing left. -/
theorem flushed (ha : Accounted st) (hf : Session.Flushed env h st st') : Accounted st' := by
  have hkeeps : st.detached = false ∨ st.batcher.frames = [] := by
    cases hrun : st.running with
    | true => exact .inl (by rw [ha.detached, hrun]; rfl)
    | false => exact .inr (ha.closed hrun).2.2.1
  have he := hf.elsewhere
  refine ha.still (Session.places_flushed hf hkeeps) he.arrived he.detached he.running he.cleared
    (by rw [hf.waiting, ha.prompt]) fun hrun => ?_
  obtain ⟨hheld, hreleasing, -, hpending⟩ := ha.closed hrun
  exact ⟨he.held.trans hheld, he.releasing.trans hreleasing, by rw [hf.batcher],
    by rw [hf.deferredInbox, hpending]⟩

/-- What no timer is left with. -/
theorem waiting_delivered {f : SessionFrame ν} {matchedReply : Bool}
    (hd : Session.Delivered env h st f matchedReply st')
    (htimer : leftToTimer h st.nextAsk f.members = false) : st'.waiting = st.waiting := by
  cases hd with
  | deferred => rfl
  | batched => rfl
  | silenced hints _ hflush => exact hflush.waiting
  | @handed s s' hints opts _ _ hflush _ hinject =>
      have hasked : s.asked = st.nextAsk := hflush.asked
      cases hinject with
      | delayed w hwaits =>
          rw [hasked] at hwaits
          exact absurd (hwaits.symm.trans htimer) (by simp)
      | sent => exact hflush.waiting

/-- A frame that was nowhere else is delivered. -/
theorem delivered {f : SessionFrame ν} {matchedReply : Bool}
    (hd : Session.Delivered env h st f matchedReply st') (hrun : st.running = true)
    (hlive : st.detached = false) (hprompt : st.waiting = []) (hcleared : st.cleared = [])
    (honce : ∀ k, (st.places k + if f.no = k then 1 else 0) = if k < st.arrived.length then 1 else 0)
    (htimer : leftToTimer h st.nextAsk f.members = false) :
    Accounted st' := by
  have he := Session.elsewhere_delivered hd
  refine ⟨?_, fun k => ?_, ?_, fun _ => ?_, fun hstop => ?_⟩
  · rw [he.detached, he.running, hrun, hlive]
    rfl
  · rw [Session.places_delivered hd hlive, he.cleared, hcleared, he.arrived]
    exact honce k
  · rw [waiting_delivered hd htimer, hprompt]
  · rw [he.cleared, hcleared]
  · rw [he.running, hrun] at hstop
    cases hstop

theorem lives (ha : Accounted st) (hlive : st.detached = false) : st.running = true := by
  rw [ha.detached] at hlive
  simpa using hlive

/-- One more arrival. -/
theorem arrival (ha : Accounted st) (hrun : st.running = true) (a : Members ν × Bool) (k : Nat) :
    (st.places k + if st.arrived.length = k then 1 else 0) =
      if k < (st.arrived ++ [a]).length then 1 else 0 := by
  have honce := ha.once k
  rw [ha.kept hrun, numbers_nil, List.count_nil, Nat.add_zero] at honce
  rw [honce, List.length_append, List.length_singleton]
  by_cases hk : k < st.arrived.length
  · rw [if_pos hk, if_neg (by omega), if_pos (by omega)]
  · by_cases heq : st.arrived.length = k
    · rw [if_neg hk, if_pos heq, if_pos (by omega)]
    · rw [if_neg hk, if_neg heq, if_neg (by omega)]

/-- The frames of the deferred inbox are passed on. -/
theorem sent (ha : Accounted st) (hlive : st.running = true) {hints : ReplyHintTracker}
    {content : String} {ok : Bool} {more : List SessionAct} {deferredInbox : DeferredInbox ν}
    (hmore : more.flatMap SessionAct.passes = []) (hnone : deferredInbox.pending = []) :
    Accounted { st with
      hints
      called := st.called + 1
      acts := st.acts ++ .message content (numbers st.deferredInbox.pending) ok :: more
      deferredInbox } := by
  refine ha.still (fun k => ?_) rfl rfl rfl rfl ha.prompt fun hrun => ?_
  · have hpassed : (SessionAct.message content (numbers st.deferredInbox.pending) ok ::
        more).flatMap SessionAct.passes = st.pending := by
      rw [List.flatMap_cons, hmore, List.append_nil]
      rfl
    unfold Session.places
    rw [Session.passed_of_acts st rfl, hpassed, List.count_append]
    simp [Session.heldBack, Session.batched, Session.pending, Session.delayed, hnone]
    omega
  · rw [hlive] at hrun
    cases hrun

theorem step (ha : Accounted st) {e : HostView × SessionEvent ν} (hlives : HostLives st e)
    (hok : unhindered st e = true) (hs : SessionStep env st e st') : Accounted st' := by
  obtain ⟨h, e⟩ := e
  have hstep := Session.stepped_of_step hs
  dsimp only at hstep
  cases hstep with
  | same => exact ha
  | held frame matchedReply hreleasing hlive hhold =>
      have hrun := ha.lives hlive
      refine ⟨ha.detached, fun k => ?_, ha.prompt, fun _ => ha.kept hrun, fun hstop => ?_⟩
      · rw [← ha.arrival hrun (frame, matchedReply) k]
        simp [Session.places, Session.passed, Session.heldBack, Session.batched, Session.pending,
          Session.delayed, ha.kept hrun, List.count_cons]
        omega
      · rw [show st.running = false from hstop] at hrun
        cases hrun
  | taken frame matchedReply hreleasing hlive hopen hd =>
      have hrun := ha.lives hlive
      have htimer : leftToTimer h st.nextAsk frame = false := by
        simpa [unhindered, hrun, hopen] using hok
      exact delivered hd hrun hlive ha.prompt (ha.kept hrun) (ha.arrival hrun _) htimer
  | hold ms => exact ⟨ha.detached, ha.once, ha.prompt, ha.kept, ha.closed⟩
  | lifted e hreleasing =>
      refine ha.still (fun k => ?_) rfl rfl rfl rfl ha.prompt fun hrun => ?_
      · simp [Session.places, Session.passed, Session.heldBack, Session.batched, Session.pending,
          Session.delayed, hreleasing]
      · obtain ⟨hheld, -, hbatch, hpending⟩ := ha.closed hrun
        exact ⟨rfl, hheld, hbatch, hpending⟩
  | @released _ f matchedReply rest hreleasing hd =>
      cases hrun : st.running with
      | false =>
          have hnone := (ha.closed hrun).2.1
          rw [hreleasing] at hnone
          cases hnone
      | true =>
          refine delivered hd hrun (by rw [ha.detached, hrun]; rfl) ha.prompt (ha.kept hrun)
            (fun k => ?_) ?_
          · have honce := ha.once k
            rw [ha.kept hrun, numbers_nil, List.count_nil, Nat.add_zero] at honce
            rw [← honce]
            simp [Session.places, Session.passed, Session.heldBack, Session.batched,
              Session.pending, Session.delayed, hreleasing, List.count_cons]
            omega
          · have htimer : leftToTimer h st.nextAsk f.members = false := by
              simpa [unhindered, hrun, hreleasing] using hok
            exact htimer
  | ticked timer maxTimer asked =>
      refine ha.still (fun k => rfl) rfl rfl rfl rfl ha.prompt fun hrun => ha.closed hrun
  | flushed e timer asked hreleasing he hopen hf =>
      have hbefore : Accounted { st with batcher := { st.batcher with timer }, asked } :=
        ⟨ha.detached, ha.once, ha.prompt, ha.kept, ha.closed⟩
      exact hbefore.flushed hf
  | prompted hreleasing hlive => exact ha.sent (ha.lives hlive) rfl rfl
  | refused e hreleasing hrefused hlive =>
      have hrun : st.running = true := by
        rcases hlive with hlive | hrun
        · exact ha.lives hlive
        · exact hrun
      exact absurd ((hlives hrun st.called).symm.trans hrefused) (by simp)
  | starting =>
      exact ⟨ha.detached, ha.once, ha.prompt, ha.kept, ha.closed⟩
  | started hreleasing hlive =>
      refine ha.still (fun k => ?_) rfl rfl rfl rfl ha.prompt fun hrun => ?_
      · have hpending : st.deferredInbox.agentStarting.2.pending = st.deferredInbox.pending := by
          unfold DeferredInbox.agentStarting
          split <;> rfl
        unfold Session.places
        rw [Session.passed_of_acts st rfl, Session.passes_receipts, List.append_nil]
        simp [Session.heldBack, Session.batched, Session.pending, Session.delayed, hpending]
      · rw [ha.lives hlive] at hrun
        cases hrun
  | promoted hreleasing hrunning =>
      exact ha.sent hrunning (Session.passes_receipts h _) rfl
  | waited hreleasing hmem =>
      rw [ha.prompt] at hmem
      cases hmem
  | shut hreleasing hrunning hf =>
      have hempty : st.batcher.frames = [] ∧ st.held = [] := by
        simpa [unhindered] using hok
      have hsame := Session.places_flushed hf (.inr hempty.1)
      have he := hf.elsewhere
      refine ⟨?_, fun k => ?_, ?_, fun hrun => ?_, fun _ => ⟨?_, ?_, ?_, ?_⟩⟩
      · rw [he.detached, he.running]
        rfl
      · have honce := ha.once k
        rw [ha.kept hrunning, numbers_nil, List.count_nil, Nat.add_zero] at honce
        rw [hsame, he.cleared, he.arrived]
        show _ = if k < st.arrived.length then 1 else 0
        rw [← honce]
        simp [Session.places, Session.passed, Session.heldBack, Session.batched, Session.pending,
          Session.delayed, DeferredInbox.clear]
        omega
      · rw [hf.waiting, ha.prompt]
      · rw [he.running] at hrun
        cases hrun
      · rw [he.held, hempty.2]
      · rw [he.releasing, hreleasing]
      · rw [hf.batcher]
      · rw [hf.deferredInbox]
        rfl

end Accounted

/-! ### The claim -/

/-- **No frame is lost or doubled**, in every run in which no forced frame that is delivered
finds the host in a turn it can abort, and the shutdown finds the batcher empty and nothing
held. -/
theorem inbound_conserved {env : SessionEnv} {tr : List (Session ν × HostView × SessionEvent ν)}
    {st : Session ν} (hrun : Run (SessionStep env) {} tr st) (hlives : Meets HostLives tr)
    (hok : Meets (fun s e => unhindered s e = true) tr) : Conserved st := by
  have hboth : Meets (fun s e => HostLives s e ∧ unhindered s e = true) tr :=
    fun x hx => ⟨hlives x hx, hok x hx⟩
  have ha : Accounted st := hrun.invariant hboth Accounted.init
    fun s e s' hs he hstep => hs.step he.1 he.2 hstep
  exact ha.conserved

/-! ### Two runs -/

/-- A message of bob's. -/
def bobSays (id body : String) : Members Int :=
  [("type", .str "msg"), ("id", .str id), ("ts", .str "2024-01-01T00:00:00.000Z"),
    ("from", .str "bob"), ("room", .str "default"), ("priority", .str "normal"), ("body", .str body)]

/-- A session that batches. -/
def batchingSession : SessionEnv := { name := "alice", batchMs := 250, localTime := fun _ => "12:00:00" }

/-- A host whose turn does not end. -/
def busyHostAt (now : Int) : HostView :=
  { now, ctx := some { canAbort := true, isIdle := some fun _ => false } }

/-- The host as each event finds it. -/
def onBusyHost (events : List (SessionEvent Int)) : List (HostView × SessionEvent Int) :=
  events.map fun e => (busyHostAt 1000, e)

theorem hostLives_busy {tr : List (Session Int × HostView × SessionEvent Int)}
    {events : List (SessionEvent Int)} (htr : tr.map Prod.snd = onBusyHost events) :
    Meets HostLives tr := by
  intro x hx _ n
  have hmem : x.2 ∈ onBusyHost events := by
    rw [← htr]
    exact List.mem_map_of_mem hx
  obtain ⟨e, -, heq⟩ := List.mem_map.mp hmem
  rw [← heq]
  rfl

/-- Two messages come while the agent works; the tool returns, and the session ends. -/
theorem toolResult_conserved : ∃ (tr : List (Session Int × HostView × SessionEvent Int))
    (st : Session Int), Run (SessionStep batchingSession) {} tr st ∧
    tr.map Prod.snd = onBusyHost [.inbound (bobSays "m_1" "one") false, .window,
      .inbound (bobSays "m_2" "two") false, .toolResult, .shutdown] ∧
    st.passed = [0, 1] ∧ Conserved st := by
  have hcheck : ((follow (Session.step batchingSession) ({} : Session Int) (onBusyHost
      [.inbound (bobSays "m_1" "one") false, .window, .inbound (bobSays "m_2" "two") false,
        .toolResult, .shutdown])).any fun r =>
      (r.1.all fun x => unhindered x.1 x.2) && decide (r.2.passed = [0, 1])) = true := by
    decide +kernel
  obtain ⟨tr, st, hrun, htr, hfound⟩ := Run.of_check hcheck
  simp only [Bool.and_eq_true, List.all_eq_true, decide_eq_true_eq] at hfound
  exact ⟨tr, st, hrun, htr, hfound.2, inbound_conserved hrun (hostLives_busy htr) hfound.1⟩

/-- A message comes while the agent works, and the session ends: the message is nowhere. -/
theorem shutdown_loses_batch : ∃ (tr : List (Session Int × HostView × SessionEvent Int))
    (st : Session Int), Run (SessionStep batchingSession) {} tr st ∧
    tr.map Prod.snd = onBusyHost [.inbound (bobSays "m_1" "one") false, .shutdown] ∧
    Meets HostLives tr ∧ ¬ Conserved st := by
  have hcheck : ((follow (Session.step batchingSession) ({} : Session Int) (onBusyHost
      [.inbound (bobSays "m_1" "one") false, .shutdown])).any fun r =>
      decide (r.2.running = false) && decide (r.2.passed = []) && decide (r.2.arrived.length = 1) &&
        decide (numbers r.2.cleared = [])) = true := by
    decide +kernel
  obtain ⟨tr, st, hrun, htr, hfound⟩ := Run.of_check hcheck
  simp only [Bool.and_eq_true, decide_eq_true_eq] at hfound
  obtain ⟨⟨⟨hstopped, hpassed⟩, hlength⟩, hcleared⟩ := hfound
  refine ⟨tr, st, hrun, htr, hostLives_busy htr, fun hc => ?_⟩
  have h0 := hc.shut hstopped 0 (by omega)
  rw [hpassed, hcleared] at h0
  simp at h0

end PiMesh
