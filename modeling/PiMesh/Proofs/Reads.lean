/-
What a read receipt says.

A receipt should come after a message that shows the body of its frame.  A batch shows
its first twelve frames and answers for all of them; a forced frame is answered for when its
timer starts; and where `deliverInterrupted` swallows an error, nothing was shown at all.  In
a run without these, the frames that are answered for are the frames that were shown.
-/
import PiMesh.Proofs.Passage

namespace PiMesh

open Js Transition

variable {ν : Type} [Number ν]

/-! ### Texts -/

section Texts

variable {a b part : String}

theorem Includes.refl (text : String) : Includes text text := List.infix_rfl

theorem Includes.trans {text middle : String} (h : Includes text middle) (h' : Includes middle part) :
    Includes text part := List.IsInfix.trans h' h

theorem Includes.left (h : Includes a part) : Includes (a ++ b) part := by
  unfold Includes at h ⊢
  rw [String.toList_append]
  exact h.trans (List.prefix_append _ _).isInfix

theorem Includes.right (h : Includes b part) : Includes (a ++ b) part := by
  unfold Includes at h ⊢
  rw [String.toList_append]
  exact h.trans (List.suffix_append _ _).isInfix

/-- A line is in the lines it is put between. -/
theorem Includes.line {lines : List String} (h : part ∈ lines) :
    Includes ("\n".intercalate lines) part := by
  induction lines with
  | nil => cases h
  | cons first rest ih =>
      by_cases hrest : rest = []
      · subst hrest
        rw [List.mem_singleton.mp h]
        exact Includes.refl _
      · rw [String.intercalate_cons_of_ne_nil hrest]
        rcases List.mem_cons.mp h with rfl | h
        · exact ((Includes.refl _).left).left
        · exact (ih h).right

end Texts

/-- A new message. -/
def isMessage (frame : Members ν) : Bool :=
  decide (frameType? frame = some .msg) || decide (frameType? frame = some .mailbox)

theorem shows_formatVerbose (localTime : String → String) {frame : Members ν} (replyChain : Bool)
    (h : isMessage frame = true) : Shows (formatVerbose localTime frame replyChain) frame := by
  have hremind : frameType? frame ≠ some .remind := by
    intro hc
    simp [isMessage, hc] at h
  have hreply : frameType? frame ≠ some .reply := by
    intro hc
    simp [isMessage, hc] at h
  unfold Shows formatVerbose
  simp only [hremind, hreply, if_false]
  iterate 6 refine Includes.left ?_
  exact (Includes.refl _).right

theorem shows_formatCompact (localTime : String → String) {frame : Members ν} (opts : FormatOpts)
    (h : isMessage frame = true) : Shows (formatCompact localTime frame opts) frame := by
  have hremind : frameType? frame ≠ some .remind := by
    intro hc
    simp [isMessage, hc] at h
  have hreply : frameType? frame ≠ some .reply := by
    intro hc
    simp [isMessage, hc] at h
  unfold Shows formatCompact
  simp only [hremind, hreply, if_false]
  iterate 7 refine Includes.left ?_
  exact (Includes.refl _).right

/-- The text of a message has its body in it. -/
theorem shows_formatInbound (localTime : String → String) {frame : Members ν} (opts : FormatOpts)
    (h : isMessage frame = true) : Shows (formatInboundContent localTime frame opts) frame := by
  unfold formatInboundContent
  split
  · exact shows_formatVerbose _ _ h
  · exact shows_formatCompact _ _ h

/-- So does one of the parts of a batch. -/
theorem shows_batchParts (localTime : String → String) (formatFor : FormatFor ν) {f : SessionFrame ν}
    (h : isMessage f.members = true) {frames : List (SessionFrame ν)} (hf : f ∈ frames) (i : Nat)
    (t : ReplyHintTracker) : ∃ part ∈ (batchParts localTime formatFor i t frames).1,
      Shows part f.members := by
  induction frames generalizing i t with
  | nil => cases hf
  | cons g rest ih =>
      unfold batchParts
      rcases List.mem_cons.mp hf with rfl | hf
      · exact ⟨_, List.mem_cons_self, (shows_formatInbound _ _ h).right⟩
      · obtain ⟨part, hpart, hshows⟩ := ih hf (i + 1) (formatFor t g).2
        exact ⟨part, List.mem_cons_of_mem _ hpart, hshows⟩

/-- A batch shows the messages among its first twelve frames. -/
theorem shows_batch (header : Nat → String) (localTime : String → String) (formatFor : FormatFor ν)
    (t : ReplyHintTracker) {f : SessionFrame ν} (h : isMessage f.members = true)
    {frames : List (SessionFrame ν)} (hf : f ∈ frames.take batchMaxMessages) :
    Shows (buildBatchWith header localTime formatFor t frames).1.content f.members := by
  obtain ⟨part, hpart, hshows⟩ := shows_batchParts localTime formatFor h hf 0 t
  unfold buildBatchWith
  refine Includes.trans (Includes.line ?_) hshows
  simp [hpart]

/-! ### What the result speaks of -/

/-- A message with the frame of this number was accepted, and shows it. -/
def ShownIn (arrived : List (Members ν × Bool)) (acts : List SessionAct) (no : Nat) : Prop :=
  ∃ a content frames, arrived[no]? = some a ∧ .message content frames true ∈ acts ∧ no ∈ frames ∧
    Shows content a.1

/-- Each receipt is the first for its frame and comes after a message that shows it. -/
def ReadsHonest (st : Session ν) : Prop :=
  ∀ before no after, st.acts = before ++ .read no :: after →
    ShownIn st.arrived before no ∧ SessionAct.read no ∉ before

/-- There is no receipt for a frame the batch does not show. -/
def hidesNothing (frames : List (SessionFrame ν)) : Bool :=
  (frames.drop batchMaxMessages).all fun f => !isReceipted f.members

/-- The batch shows whatever it is answered for, or is not answered for at all. -/
def answersRight (h : HostView) (st : Session ν) (frames : List (SessionFrame ν)) : Bool :=
  hidesNothing frames || !h.online || !h.accepts st.called

/-- The number of the call of `pi.sendMessage` that follows a flush. -/
def Session.nextCall (st : Session ν) : Nat :=
  st.called + if st.batcher.frames.isEmpty then 0 else 1

/-- A frame that is delivered is deferred, joins the batch, or is shown when it is answered
for, and so is the batch before it. -/
def deliversRight (env : SessionEnv) (h : HostView) (st : Session ν) (frame : Members ν)
    (matchedReply : Bool) : Bool :=
  Session.isDeferred env frame matchedReply || !Session.isBypassing env h st frame ||
    (answersRight h st st.batcher.frames &&
      (!isReceipted frame || !h.online ||
        (!leftToTimer h st.nextAsk frame && (h.accepts st.nextCall || !interrupts frame))))

/-- No receipt is sent for what was not shown. -/
def answersHonestly (env : SessionEnv) (st : Session ν) : HostView × SessionEvent ν → Bool
  | (h, .inbound frame matchedReply) =>
      st.detached || st.isHolding h || deliversRight env h st frame matchedReply
  | (h, .release) =>
      st.detached || st.releasing.head?.all fun x => deliversRight env h st x.1.members x.2
  | (h, .window) => st.detached || st.batcher.holds (st.busy h) || answersRight h st st.batcher.frames
  | (h, .maxHold) => st.detached || answersRight h st st.batcher.frames
  | (h, .toolResult) => st.detached || answersRight h st st.batcher.frames
  | (h, .input idle) => !idle || !h.accepts st.called || hidesNothing st.deferredInbox.pending
  | (h, .inboxFlush) => answersRight h st st.deferredInbox.pending
  | _ => true

/-! ### Receipts and what they answer for -/

/-- The part of honesty that is about what was shown. -/
def Backed (arrived : List (Members ν × Bool)) (acts : List SessionAct) : Prop :=
  ∀ before no after, acts = before ++ .read no :: after → ShownIn arrived before no

section Backed

variable {arrived : List (Members ν × Bool)} {acts more : List SessionAct} {h : HostView}

theorem ShownIn.mono {no : Nat} (hs : ShownIn arrived acts no) (a : List (Members ν × Bool))
    (more : List SessionAct) : ShownIn (arrived ++ a) (acts ++ more) no := by
  obtain ⟨x, content, frames, hx, hm, hno, hshows⟩ := hs
  obtain ⟨hlt, -⟩ := List.getElem?_eq_some_iff.mp hx
  refine ⟨x, content, frames, ?_, List.mem_append_left _ hm, hno, hshows⟩
  rw [List.getElem?_append_left hlt]
  exact hx

theorem ShownIn.later {no : Nat} (hs : ShownIn arrived acts no) (more : List SessionAct) :
    ShownIn arrived (acts ++ more) no := by
  have hmono := hs.mono [] more
  rwa [List.append_nil] at hmono

theorem Backed.arrival (hb : Backed arrived acts) (a : List (Members ν × Bool)) :
    Backed (arrived ++ a) acts := by
  intro before no after heq
  have hmono := (hb before no after heq).mono a []
  rwa [List.append_nil] at hmono

/-- Receipts for frames that have been shown. -/
theorem Backed.append (hb : Backed arrived acts)
    (hmore : ∀ no, .read no ∈ more → ShownIn arrived acts no) : Backed arrived (acts ++ more) := by
  intro before no after heq
  rcases List.append_eq_append_iff.mp heq with ⟨gap, hbefore, hrest⟩ | ⟨gap, hpre, hrest⟩
  · rw [hbefore]
    exact (hmore no (by rw [hrest]; simp)).later gap
  · cases gap with
    | nil =>
        rw [List.append_nil] at hpre
        rw [← hpre]
        exact hmore no (by rw [← List.nil_append more, ← hrest]; simp)
    | cons x gap =>
        obtain ⟨rfl, -⟩ := List.cons.inj hrest
        exact hb before no gap hpre

theorem Backed.message (hb : Backed arrived acts) (content : String) (frames : List Nat) (ok : Bool) :
    Backed arrived (acts ++ [.message content frames ok]) := by
  refine hb.append fun no hno => ?_
  rw [List.mem_singleton] at hno
  cases hno

theorem mem_receipts {frames : List (SessionFrame ν)} {no : Nat}
    (hno : .read no ∈ Session.receipts h frames) :
    h.online = true ∧ ∃ f ∈ frames, f.no = no ∧ isReceipted f.members = true := by
  unfold Session.receipts at hno
  split at hno
  · next honline =>
      obtain ⟨f, hf, heq⟩ := List.mem_map.mp hno
      obtain ⟨hmem, hreceipted⟩ := List.mem_filter.mp hf
      exact ⟨honline, f, hmem, SessionAct.read.inj heq, hreceipted⟩
  · cases hno

/-- No receipt for a frame that takes none, and none from a client that is offline. -/
theorem receipts_nil {f : SessionFrame ν}
    (hf : isReceipted f.members = true → h.online = true → False) : Session.receipts h [f] = [] := by
  unfold Session.receipts
  cases honline : h.online with
  | false => rfl
  | true =>
      cases hr : isReceipted f.members with
      | true => exact absurd honline (hf hr)
      | false => simp [hr]

theorem isMessage_of_receipted {frame : Members ν} (hr : isReceipted frame = true) :
    isMessage frame = true := by
  unfold isReceipted at hr
  simp only [Bool.and_eq_true] at hr
  exact hr.1.1

theorem mem_numbers {f : SessionFrame ν} {frames : List (SessionFrame ν)} (hf : f ∈ frames) :
    f.no ∈ numbers frames := List.mem_map_of_mem hf

/-- Where a batch hides nothing, it shows whatever is answered for. -/
theorem shownIn_batch {f : SessionFrame ν} {frames : List (SessionFrame ν)} (hf : f ∈ frames)
    (hfiled : ∀ f ∈ frames, ∃ m, arrived[f.no]? = some (f.members, m))
    (hreceipted : isReceipted f.members = true) (hhides : hidesNothing frames = true)
    (header : Nat → String) (localTime : String → String) (formatFor : FormatFor ν)
    (t : ReplyHintTracker) : ShownIn arrived (acts ++
      [.message (buildBatchWith header localTime formatFor t frames).1.content (numbers frames) true])
      f.no := by
  have hshown : f ∈ frames.take batchMaxMessages := by
    rw [← List.take_append_drop batchMaxMessages frames] at hf
    rcases List.mem_append.mp hf with hf | hf
    · exact hf
    · have hnot := List.all_eq_true.mp hhides f hf
      rw [hreceipted] at hnot
      cases hnot
  obtain ⟨m, hm⟩ := hfiled f (List.mem_of_mem_take hshown)
  exact ⟨_, _, _, hm, List.mem_append_right _ (List.mem_singleton.mpr rfl), mem_numbers hf,
    shows_batch header localTime formatFor t (isMessage_of_receipted hreceipted) hshown⟩

/-- A batch that was accepted, and its receipts. -/
theorem Backed.batch (hb : Backed arrived acts) {frames : List (SessionFrame ν)}
    (hfiled : ∀ f ∈ frames, ∃ m, arrived[f.no]? = some (f.members, m)) {ok : Bool}
    (hright : (hidesNothing frames || !h.online || !ok) = true) (header : Nat → String)
    (localTime : String → String) (formatFor : FormatFor ν) (t : ReplyHintTracker) :
    Backed arrived (acts ++ .message (buildBatchWith header localTime formatFor t frames).1.content
      (numbers frames) ok :: if ok then Session.receipts h frames else []) := by
  rw [List.append_cons]
  refine (hb.message _ _ ok).append fun no hno => ?_
  cases ok with
  | false => simp at hno
  | true =>
      rw [if_pos rfl] at hno
      obtain ⟨honline, f, hf, rfl, hreceipted⟩ := mem_receipts hno
      have hhides : hidesNothing frames = true := by simpa [honline] using hright
      exact shownIn_batch hf hfiled hreceipted hhides header localTime formatFor t

/-- A frame is answered for once. -/
theorem count_receipts (h : HostView) (frames : List (SessionFrame ν)) (k : Nat) :
    (Session.receipts h frames).count (.read k) ≤ (numbers frames).count k := by
  unfold Session.receipts
  split
  · induction frames with
    | nil => simp
    | cons f rest ih =>
        rw [numbers_cons, List.count_cons]
        cases hr : isReceipted f.members with
        | false =>
            rw [List.filter_cons_of_neg (by simp [hr])]
            omega
        | true =>
            rw [List.filter_cons_of_pos (by simpa using hr), List.map_cons, List.count_cons]
            have heq : ((SessionAct.read f.no == .read k) = true) = ((f.no == k) = true) := by
              simp
            simp only [heq]
            omega
  · simp

end Backed

/-! ### Steps -/

namespace Session

/-- Every frame in some buffer, those the next prompt takes along included. -/
def buffered (st : Session ν) : List (SessionFrame ν) :=
  (st.releasing ++ st.held).map Prod.fst ++ st.batcher.frames ++ st.deferredInbox.pending ++
    st.deferredInbox.queued

/-- How often the frame was answered for, or still may be. -/
def answers (st : Session ν) (k : Nat) : Nat :=
  st.acts.count (.read k) + (numbers st.buffered).count k

end Session

/-- The receipts are honest, and what is buffered has no receipt yet. -/
structure Truthful (st : Session ν) : Prop where
  filed : ∀ f ∈ st.buffered, ∃ m, st.arrived[f.no]? = some (f.members, m)
  once : ∀ k, st.answers k ≤ if k < st.arrived.length then 1 else 0
  queued : ∀ f ∈ st.deferredInbox.queued, isReceipted f.members = true →
    ShownIn st.arrived st.acts f.no
  backed : Backed st.arrived st.acts

namespace Truthful

variable {env : SessionEnv} {h : HostView} {st st' : Session ν}

theorem init : Truthful ({} : Session ν) := by
  refine ⟨fun f hf => absurd hf List.not_mem_nil, fun k => ?_,
    fun f hf => absurd hf List.not_mem_nil, fun before no after heq => ?_⟩
  · simp [Session.answers, Session.buffered]
  · have hlength := congrArg List.length heq
    simp at hlength

/-- There is one receipt for a frame. -/
theorem honest (ht : Truthful st) : ReadsHonest st := by
  intro before no after heq
  refine ⟨ht.backed before no after heq, fun hmem => ?_⟩
  have honce := ht.once no
  have htwice : 2 ≤ st.acts.count (.read no) := by
    have hfirst : 0 < before.count (.read no) := List.count_pos_iff.mpr hmem
    rw [heq, List.count_append, List.count_cons_self]
    omega
  unfold Session.answers at honce
  split at honce
  · omega
  · omega

theorem answers_flushed (hf : Session.Flushed env h st st') (k : Nat) :
    st'.answers k ≤ st.answers k := by
  have he := hf.elsewhere
  have hacts : (Session.flushActs env h st).count (.read k) ≤ (numbers st.batcher.frames).count k := by
    unfold Session.flushActs
    split
    · simp
    · rw [List.count_cons]
      have hreceipts := count_receipts h st.batcher.frames k
      split
      · simpa using hreceipts
      · simp
  unfold Session.answers Session.buffered
  rw [he.releasing, he.held, hf.batcher, hf.deferredInbox, hf.acts, List.count_append]
  simp only [numbers_append, List.count_append, numbers_nil, List.count_nil]
  omega

/-- What a flush does to it. -/
theorem flushed (ht : Truthful st) (hf : Session.Flushed env h st st')
    (hright : st.detached = true ∨ answersRight h st st.batcher.frames = true) : Truthful st' := by
  have he := hf.elsewhere
  have hbuffered : ∀ f ∈ st'.buffered, f ∈ st.buffered := by
    intro f hmem
    unfold Session.buffered at hmem ⊢
    rw [he.releasing, he.held, hf.batcher, hf.deferredInbox] at hmem
    simp only [List.mem_append] at hmem ⊢
    tauto
  refine ⟨fun f hmem => ?_, fun k => ?_, fun f hmem hr => ?_, ?_⟩
  · rw [he.arrived]
    exact ht.filed f (hbuffered f hmem)
  · rw [he.arrived]
    exact Nat.le_trans (answers_flushed hf k) (ht.once k)
  · rw [hf.deferredInbox] at hmem
    rw [he.arrived, hf.acts]
    exact (ht.queued f hmem hr).later _
  · rw [he.arrived, hf.acts]
    unfold Session.flushActs
    split
    · rw [List.append_nil]
      exact ht.backed
    · next hsends =>
        have hright : answersRight h st st.batcher.frames = true := by
          rcases hright with hdetached | hright
          · simp [hdetached] at hsends
          · exact hright
        refine ht.backed.batch (fun f hmem => ht.filed f ?_) hright _ _ _ _
        simp [Session.buffered, hmem]

/-- The steps that leave the record alone. -/
theorem still (ht : Truthful st) (harrived : st'.arrived = st.arrived) (hacts : st'.acts = st.acts)
    (hqueued : ∀ f ∈ st'.deferredInbox.queued, f ∈ st.deferredInbox.queued)
    (hbuffered : st'.buffered.Sublist st.buffered) : Truthful st' := by
  refine ⟨fun f hf => ?_, fun k => ?_, fun f hf hr => ?_, ?_⟩
  · rw [harrived]
    exact ht.filed f (hbuffered.subset hf)
  · have honce := ht.once k
    have hle := (hbuffered.map (·.no)).count_le k
    unfold Session.answers numbers at honce ⊢
    rw [harrived, hacts]
    omega
  · rw [harrived, hacts]
    exact ht.queued f (hqueued f hf) hr
  · rw [harrived, hacts]
    exact ht.backed

/-- A frame is delivered, and what it is answered for is right. -/
theorem delivered (ht : Truthful st) {f : SessionFrame ν} {matchedReply : Bool}
    (hd : Session.Delivered env h st f matchedReply st')
    (hf : ∃ m, st.arrived[f.no]? = some (f.members, m)) (hnew : st.answers f.no = 0)
    (hright : st.detached = true ∨ deliversRight env h st f.members matchedReply = true) :
    Truthful st' := by
  have hno : f.no < st.arrived.length := (List.getElem?_eq_some_iff.mp hf.choose_spec).1
  -- the frame counts where it is put
  have hcount : ∀ k, st.answers k + (if f.no = k then 1 else 0) ≤
      if k < st.arrived.length then 1 else 0 := by
    intro k
    by_cases hk : f.no = k
    · subst hk
      rw [if_pos rfl, if_pos hno]
      omega
    · rw [if_neg hk]
      exact ht.once k
  cases hd with
  | deferred hclass =>
      refine ⟨fun g hg => ?_, fun k => ?_, ht.queued, ht.backed⟩
      · unfold Session.buffered at hg
        simp only [DeferredInbox.push, List.mem_append, List.mem_singleton] at hg
        rcases hg with ((hg | hg) | hg | rfl) | hg
        · exact ht.filed g (by simp only [Session.buffered, List.mem_append]; tauto)
        · exact ht.filed g (by simp only [Session.buffered, List.mem_append]; tauto)
        · exact ht.filed g (by simp only [Session.buffered, List.mem_append]; tauto)
        · exact hf
        · exact ht.filed g (by simp only [Session.buffered, List.mem_append]; tauto)
      · refine Nat.le_trans (Nat.le_of_eq ?_) (hcount k)
        simp [Session.answers, Session.buffered, DeferredInbox.push, Session.tagged, List.count_cons]
        omega
  | batched hints hclass =>
      refine ⟨fun g hg => ?_, fun k => ?_, ht.queued, ht.backed⟩
      · unfold Session.buffered at hg
        simp only [InboundBatcher.push, List.mem_append, List.mem_singleton] at hg
        rcases hg with ((hg | hg | rfl) | hg) | hg
        · exact ht.filed g (by simp only [Session.buffered, List.mem_append]; tauto)
        · exact ht.filed g (by simp only [Session.buffered, List.mem_append]; tauto)
        · exact hf
        · exact ht.filed g (by simp only [Session.buffered, List.mem_append]; tauto)
        · exact ht.filed g (by simp only [Session.buffered, List.mem_append]; tauto)
      · refine Nat.le_trans (Nat.le_of_eq ?_) (hcount k)
        simp [Session.answers, Session.buffered, InboundBatcher.push, Session.tagged, List.count_cons]
        omega
  | silenced hints hclass hflush hdetached =>
      have hsame : Truthful { st with asked := st.asked + 1, hints } :=
        ht.still rfl rfl (fun f hf => hf) (List.Sublist.refl _)
      refine hsame.flushed hflush (.inl ?_)
      rw [hflush.elsewhere.detached] at hdetached
      exact hdetached
  | @handed s s' hints opts hclass hbypass hflush hlive hinject =>
      have hsame : Truthful { st with asked := st.asked + 1, hints } :=
        ht.still rfl rfl (fun f hf => hf) (List.Sublist.refl _)
      have hlive' : st.detached = false := hflush.elsewhere.detached.symm.trans hlive
      have hright : answersRight h st st.batcher.frames = true ∧
          (isReceipted f.members = true → h.online = true → leftToTimer h st.nextAsk f.members = false ∧
            (h.accepts st.nextCall = true ∨ interrupts f.members = false)) := by
        simp only [hlive', Bool.false_eq_true, false_or, deliversRight, hclass, hbypass, Bool.not_true,
          Bool.false_or, Bool.and_eq_true, Bool.or_eq_true, Bool.not_eq_true'] at hright
        refine ⟨hright.1, fun hr ho => ?_⟩
        rcases hright.2 with (hc | hc) | hc
        · rw [hr] at hc
          cases hc
        · rw [ho] at hc
          cases hc
        · exact hc
      have hs : Truthful s := hsame.flushed hflush (.inr hright.1)
      have hasked : s.asked = st.nextAsk := hflush.asked
      have hcalled : s.called = st.nextCall := by
        rw [hflush.called]
        simp [Session.nextCall, hlive']
      have harrived : s.arrived = st.arrived := hflush.elsewhere.arrived
      have hcount : ∀ k, s.answers k + (if f.no = k then 1 else 0) ≤
          if k < s.arrived.length then 1 else 0 := by
        intro k
        have hle : s.answers k ≤ st.answers k := answers_flushed hflush k
        have hk := hcount k
        rw [harrived]
        omega
      have hone : ∀ k, (Session.receipts h [Session.tagged h f]).count (.read k) ≤
          if f.no = k then 1 else 0 := by
        intro k
        have hle := count_receipts h [Session.tagged h f] k
        simpa [Session.tagged, List.count_cons] using hle
      cases hinject with
      | delayed w hwaits =>
          have hnone : Session.receipts h [Session.tagged h f] = [] := by
            refine receipts_nil fun hr honline => ?_
            have hw := (hright.2 hr honline).1
            rw [hasked] at hwaits
            exact absurd (hwaits.symm.trans hw) (by simp)
          exact hs.still rfl (by simp [hnone]) (fun f hf => hf) (List.Sublist.refl _)
      | sent hsent =>
          refine ⟨hs.filed, fun k => ?_, fun g hg hr => (hs.queued g hg hr).later _, ?_⟩
          · have hk := hcount k
            have hr := hone k
            unfold Session.answers at hk ⊢
            refine Nat.le_trans ?_ hk
            rw [List.count_append, List.count_cons]
            split
            · simp only [Session.buffered]
              simp
              omega
            · simp [Session.buffered]
          · rw [List.append_cons]
            refine (hs.backed.message _ _ _).append fun no hno => ?_
            split at hno
            · next hread =>
                obtain ⟨honline, g, hg, rfl, hr⟩ := mem_receipts hno
                obtain rfl := List.mem_singleton.mp hg
                have haccepts : h.accepts s.called = true := by
                  rw [hcalled] at hread ⊢
                  rcases (hright.2 hr honline).2 with hok | hint
                  · exact hok
                  · have hint : interrupts (Session.tagged h f).members = false := hint
                    rw [hint, Bool.or_false] at hread
                    exact hread
                obtain ⟨m, hm⟩ := hf
                rw [← harrived] at hm
                refine ⟨_, Session.singleContent env (Session.tagged h f) opts, [f.no], hm,
                  List.mem_append_right _ ?_, List.mem_singleton.mpr rfl, ?_⟩
                · rw [haccepts]
                  exact List.mem_singleton.mpr rfl
                · exact shows_formatInbound _ _ (isMessage_of_receipted hr)
            · cases hno

/-- An arrival is nowhere yet. -/
theorem arrival (ht : Truthful st) (a : Members ν × Bool) :
    Truthful { st with arrived := st.arrived ++ [a] } ∧ st.answers st.arrived.length = 0 := by
  have hnew := ht.once st.arrived.length
  rw [if_neg (Nat.lt_irrefl _)] at hnew
  refine ⟨⟨fun f hf => ?_, fun k => ?_, fun f hf hr => ?_, ht.backed.arrival [a]⟩, by omega⟩
  · obtain ⟨m, hm⟩ := ht.filed f hf
    obtain ⟨hlt, -⟩ := List.getElem?_eq_some_iff.mp hm
    refine ⟨m, ?_⟩
    rw [List.getElem?_append_left hlt]
    exact hm
  · have honce := ht.once k
    show st.answers k ≤ _
    rw [List.length_append, List.length_singleton]
    split at honce
    · rw [if_pos (by omega)]
      exact honce
    · split <;> omega
  · have hshown := (ht.queued f hf hr).mono [a] []
    rwa [List.append_nil] at hshown

/-- The next frame of `flushHeld` is taken out of its buffer. -/
theorem unheld (ht : Truthful st) {f : SessionFrame ν} {matchedReply : Bool}
    {rest : List (SessionFrame ν × Bool)} (hreleasing : st.releasing = (f, matchedReply) :: rest) :
    Truthful { st with releasing := rest } ∧
      ({ st with releasing := rest } : Session ν).answers f.no = 0 := by
  have hbuffered : st.buffered = f :: ({ st with releasing := rest } : Session ν).buffered := by
    simp [Session.buffered, hreleasing]
  refine ⟨ht.still rfl rfl (fun f hf => hf) ?_, ?_⟩
  · rw [hbuffered]
    exact List.sublist_cons_self _ _
  · have honce := ht.once f.no
    unfold Session.answers at honce ⊢
    rw [hbuffered, numbers_cons, List.count_cons_self] at honce
    show st.acts.count _ + _ = 0
    split at honce <;> omega

/-- The message of the deferred inbox, and what is answered for with it. -/
theorem sent (more : List SessionAct) (ht : Truthful st) {hints : ReplyHintTracker} {content : String} {ok : Bool}
    {deferredInbox : DeferredInbox ν}
    (hanswers : ∀ k, more.count (.read k) + (numbers deferredInbox.pending).count k +
      (numbers deferredInbox.queued).count k ≤ (numbers st.deferredInbox.pending).count k +
        (numbers st.deferredInbox.queued).count k)
    (hfrom : ∀ f ∈ deferredInbox.pending ++ deferredInbox.queued,
      f ∈ st.deferredInbox.pending ++ st.deferredInbox.queued)
    (hqueued : ∀ f ∈ deferredInbox.queued, isReceipted f.members = true →
      ShownIn st.arrived (st.acts ++ .message content (numbers st.deferredInbox.pending) ok :: more) f.no)
    (hbacked : Backed st.arrived
      (st.acts ++ .message content (numbers st.deferredInbox.pending) ok :: more)) :
    Truthful { st with
      hints
      called := st.called + 1
      acts := st.acts ++ .message content (numbers st.deferredInbox.pending) ok :: more
      deferredInbox } := by
  refine ⟨fun f hf => ht.filed f ?_, fun k => ?_, hqueued, hbacked⟩
  · unfold Session.buffered at hf ⊢
    have hfrom := hfrom f
    simp only [List.mem_append] at hf hfrom ⊢
    tauto
  · have honce := ht.once k
    have hk := hanswers k
    unfold Session.answers Session.buffered at honce ⊢
    rw [List.count_append, List.count_cons]
    simp only [numbers_append, List.count_append] at honce ⊢
    simp only [beq_iff_eq, reduceCtorEq, if_false]
    omega

theorem step (ht : Truthful st) {e : HostView × SessionEvent ν}
    (hok : answersHonestly env st e = true) (hs : SessionStep env st e st') : Truthful st' := by
  obtain ⟨h, e⟩ := e
  have hstep := Session.stepped_of_step hs
  dsimp only at hstep
  cases hstep with
  | same => exact ht
  | held frame matchedReply hreleasing hlive hhold =>
      obtain ⟨hbefore, hnew⟩ := ht.arrival (frame, matchedReply)
      refine ⟨fun f hf => ?_, fun k => ?_, hbefore.queued, hbefore.backed⟩
      · unfold Session.buffered at hf
        simp only [List.map_append, List.map_cons, List.map_nil, List.mem_append,
          List.mem_singleton] at hf
        by_cases heq : f = { no := st.arrived.length, members := frame }
        · subst heq
          exact ⟨matchedReply, by simp⟩
        · refine hbefore.filed f ?_
          simp only [Session.buffered, List.map_append, List.mem_append]
          tauto
      · have hk := hbefore.once k
        by_cases heq : k = st.arrived.length
        · subst heq
          unfold Session.answers Session.buffered at hnew ⊢
          simp at hnew ⊢
          omega
        · unfold Session.answers Session.buffered at hk ⊢
          refine Nat.le_trans (Nat.le_of_eq ?_) hk
          have hne : ¬ st.arrived.length = k := fun hc => heq hc.symm
          simp [hne]
  | taken frame matchedReply hreleasing hlive hopen hd =>
      obtain ⟨hbefore, hnew⟩ := ht.arrival (frame, matchedReply)
      refine hbefore.delivered hd ⟨matchedReply, by simp⟩ hnew (.inr ?_)
      have hright : deliversRight env h st frame matchedReply = true := by
        simpa [answersHonestly, hlive, hopen] using hok
      exact hright
  | hold ms => exact ht.still rfl rfl (fun f hf => hf) (List.Sublist.refl _)
  | lifted e hreleasing =>
      refine ht.still rfl rfl (fun f hf => hf) ?_
      simp [Session.buffered, hreleasing]
  | @released _ f matchedReply rest hreleasing hd =>
      obtain ⟨hbefore, hnew⟩ := ht.unheld hreleasing
      have hf := ht.filed f (by simp [Session.buffered, hreleasing])
      refine hbefore.delivered hd hf hnew ?_
      have hright : st.detached = true ∨ deliversRight env h st f.members matchedReply = true := by
        simpa [answersHonestly, hreleasing] using hok
      exact hright
  | ticked timer maxTimer asked => exact ht.still rfl rfl (fun f hf => hf) (List.Sublist.refl _)
  | flushed e timer asked hreleasing he hopen hf =>
      have hbefore : Truthful { st with batcher := { st.batcher with timer }, asked } :=
        ht.still rfl rfl (fun f hf => hf) (List.Sublist.refl _)
      have hright : st.detached = true ∨ answersRight h st st.batcher.frames = true := by
        rcases he with rfl | rfl | rfl
        · simpa [answersHonestly, hopen rfl] using hok
        · simpa [answersHonestly] using hok
        · simpa [answersHonestly] using hok
      exact hbefore.flushed hf hright
  | prompted hreleasing hlive haccepts =>
      have hhides : hidesNothing st.deferredInbox.pending = true := by
        simpa [answersHonestly, haccepts] using hok
      refine ht.sent [] (fun k => ?_) (fun f hf => ?_) (fun f hf hr => ?_)
        (ht.backed.message _ _ _)
      · simp [DeferredInbox.queueForPrompt, List.count_append]
        omega
      · simp only [DeferredInbox.queueForPrompt, List.nil_append, List.mem_append] at hf ⊢
        tauto
      · rcases List.mem_append.mp hf with hf | hf
        · exact (ht.queued f hf hr).later _
        · exact shownIn_batch hf (fun g hg => ht.filed g (by simp [Session.buffered, hg])) hr hhides
            _ _ _ _
  | refused e hreleasing hrefused =>
      exact ht.sent [] (fun k => by simp) (fun f hf => hf)
        (fun f hf hr => (ht.queued f hf hr).later _) (ht.backed.message _ _ _)
  | starting => exact ht.still rfl rfl (fun f hf => hf) (List.Sublist.refl _)
  | started hreleasing hlive =>
      unfold DeferredInbox.agentStarting
      split
      · refine ⟨fun f hf => ht.filed f ?_, fun k => ?_, fun f hf => absurd hf List.not_mem_nil, ?_⟩
        · unfold Session.buffered at hf ⊢
          simp only [List.append_nil] at hf
          exact List.mem_append_left _ hf
        · have honce := ht.once k
          have hle := count_receipts h st.deferredInbox.queued k
          unfold Session.answers Session.buffered at honce ⊢
          rw [List.count_append]
          simp only [numbers_append, List.count_append, numbers_nil, List.count_nil] at honce ⊢
          omega
        · refine ht.backed.append fun no hno => ?_
          obtain ⟨-, f, hf, rfl, hr⟩ := mem_receipts hno
          exact ht.queued f hf hr
      · refine ht.still rfl ?_ (fun f hf => hf) (List.Sublist.refl _)
        simp [Session.receipts]
  | promoted hreleasing hrunning haccepts =>
      have hright : (hidesNothing st.deferredInbox.pending || !h.online || !true) = true := by
        simpa [answersHonestly, answersRight, haccepts] using hok
      refine ht.sent _ (fun k => ?_) (fun f hf => ?_) (fun f hf hr => (ht.queued f hf hr).later _) ?_
      · have hle := count_receipts h st.deferredInbox.pending k
        simp only [DeferredInbox.flush, numbers_nil, List.count_nil]
        omega
      · simp only [DeferredInbox.flush, List.nil_append, List.mem_append] at hf ⊢
        exact .inr hf
      · exact ht.backed.batch (fun g hg => ht.filed g (by simp [Session.buffered, hg])) hright _ _ _ _
  | @waited f w content no hreleasing hmem hno =>
      refine ⟨ht.filed, fun k => ?_, fun g hg hr => (ht.queued g hg hr).later _, ht.backed.message _ _ _⟩
      have honce := ht.once k
      unfold Session.answers at honce ⊢
      simpa [Session.buffered] using honce
  | shut hreleasing hrunning hf =>
      have hbefore : Truthful { st with
          running := false, detached := true, holdTimer := false, rateLimitedUntil := none,
          cleared := st.deferredInbox.pending, deferredInbox := DeferredInbox.clear } := by
        refine ht.still rfl rfl (fun f hmem => absurd hmem List.not_mem_nil) ?_
        simp only [Session.buffered, DeferredInbox.clear, List.append_nil]
        exact (List.sublist_append_left _ _).trans (List.sublist_append_left _ _)
      exact hbefore.flushed hf (.inl rfl)

end Truthful

end PiMesh
