/-
The receipts of both adapters.

OpenCode sends the receipt of a frame while it is still on its way to `submit`, so no receipt
it ever sends comes after the message that shows its frame: an OpenCode session is honest in the
runs in which it sends none.
-/
import PiMesh.OpenCode.Inbound
import PiMesh.Proofs.Reads
import PiMesh.Proofs.ArrivalOrder

namespace PiMesh

open Js Transition

variable {ν : Type} [Number ν]

namespace OpenCodeSession

/-- A message with the frame of this number was submitted, shows it, and has resolved. -/
def ShownIn (arrived : List (Members ν × Bool)) (acts : List OpenCodeAct) (no : Nat) : Prop :=
  ∃ a n content frames, arrived[no]? = some a ∧ .submit n content frames ∈ acts ∧
    .settled n true ∈ acts ∧ no ∈ frames ∧ Shows content a.1

/-- Each receipt is the first for its frame and comes after a message that shows it. -/
def ReadsHonest (st : OpenCodeSession ν) : Prop :=
  ∀ before no after, st.acts = before ++ .read no :: after →
    ShownIn st.arrived before no ∧ OpenCodeAct.read no ∉ before

/-- No frame comes that is answered for. -/
def unanswered : OpenCodeView × OpenCodeEvent ν → Bool
  | (v, .inbound frame _) => !isReceipted frame || !v.online
  | _ => true

/-- The frames that wait for a message. -/
def buffered (st : OpenCodeSession ν) : List (SessionFrame ν) :=
  st.batcher.frames ++ st.deferredInbox.pending

/-! ### Receipts come first -/

/-- Only frames that have come are submitted, and none before its receipt. -/
structure Early (st : OpenCodeSession ν) : Prop where
  buffered : ∀ f ∈ st.buffered, f.no < st.arrived.length
  submitted : ∀ n content frames, .submit n content frames ∈ st.acts →
    ∀ no ∈ frames, no < st.arrived.length
  first : ∀ before no after, st.acts = before ++ .read no :: after →
    ∀ n content frames, .submit n content frames ∈ before → no ∉ frames

/-- Whether some frame was answered for. -/
def answered (st : OpenCodeSession ν) : Bool :=
  st.acts.any fun
    | .read _ => true
    | _ => false

namespace Early

variable {env : SessionEnv} {v : OpenCodeView} {st st' : OpenCodeSession ν}

theorem init : Early ({} : OpenCodeSession ν) := by
  refine ⟨fun f hf => absurd hf List.not_mem_nil, fun n content frames h => absurd h List.not_mem_nil,
    fun before no after heq => ?_⟩
  have hlength := congrArg List.length heq
  simp at hlength

/-- A receipt is never honest. -/
theorem not_honest (he : Early st) (hanswered : st.answered = true) : ¬ ReadsHonest st := by
  intro hh
  obtain ⟨act, hact, hread⟩ := List.any_eq_true.mp hanswered
  cases act with
  | submit => cases hread
  | settled => cases hread
  | read no =>
      obtain ⟨before, after, heq⟩ := List.append_of_mem hact
      obtain ⟨⟨a, n, content, frames, -, hsubmit, -, hno, -⟩, -⟩ := hh before no after heq
      exact he.first before no after heq n content frames hsubmit hno

theorem honest_of_unanswered (hanswered : st.answered = false) : ReadsHonest st := by
  intro before no after heq
  have hno : st.answered = true := by
    unfold answered
    rw [heq, List.any_append, List.any_cons]
    simp
  rw [hanswered] at hno
  cases hno

/-- A step that adds no receipt. -/
theorem silent (more : List OpenCodeAct) (he : Early st) (harrived : st'.arrived = st.arrived)
    (hacts : st'.acts = st.acts ++ more) (hmore : ∀ no, .read no ∉ more)
    (hsubmitted : ∀ n content frames, .submit n content frames ∈ more →
      ∀ no ∈ frames, no < st.arrived.length)
    (hbuffered : ∀ f ∈ st'.buffered, f ∈ st.buffered) : Early st' := by
  refine ⟨fun f hf => ?_, fun n content frames hmem no hno => ?_, fun before no after heq => ?_⟩
  · rw [harrived]
    exact he.buffered f (hbuffered f hf)
  · rw [harrived]
    rw [hacts] at hmem
    rcases List.mem_append.mp hmem with hmem | hmem
    · exact he.submitted n content frames hmem no hno
    · exact hsubmitted n content frames hmem no hno
  · rw [hacts] at heq
    rcases List.append_eq_append_iff.mp heq with ⟨gap, hbefore, hrest⟩ | ⟨gap, hpre, hrest⟩
    · exact absurd (by rw [hrest]; simp) (hmore no)
    · cases gap with
      | nil => exact absurd (by rw [← List.nil_append more, ← hrest]; simp) (hmore no)
      | cons x gap =>
          obtain ⟨rfl, -⟩ := List.cons.inj hrest
          exact he.first before no gap hpre

theorem submit (he : Early st) (content : String) {frames : List (SessionFrame ν)}
    (hframes : ∀ f ∈ frames, f.no < st.arrived.length) : Early (st.submit content frames) := by
  refine he.silent [.submit st.submits content (numbers frames)] rfl rfl
    (fun no hno => by simp at hno) (fun n c fs hmem no hno => ?_) (fun f hf => hf)
  rw [List.mem_singleton] at hmem
  cases hmem
  obtain ⟨f, hf, rfl⟩ := List.mem_map.mp hno
  exact hframes f hf

/-- The steps that move frames from one buffer to another, or drop them. -/
theorem still (he : Early st) (harrived : st'.arrived = st.arrived) (hacts : st'.acts = st.acts)
    (hbuffered : ∀ f ∈ st'.buffered, f ∈ st.buffered) : Early st' :=
  he.silent [] harrived (by rw [hacts, List.append_nil]) (fun _ => List.not_mem_nil)
    (fun _ _ _ h => absurd h List.not_mem_nil) hbuffered

theorem flushNow (he : Early st) (env : SessionEnv) (v : OpenCodeView) :
    Early (st.flushNow env v) := by
  have hflushed : Early { st with batcher := {} } := he.still rfl rfl fun f hf => by
    rw [OpenCodeSession.buffered, List.nil_append] at hf
    exact List.mem_append_right _ hf
  unfold OpenCodeSession.flushNow
  dsimp only [InboundBatcher.flushNow]
  split
  · exact hflushed
  · have hhinted : Early { st with batcher := {}, hints := (buildBatchMessage env.localTime
        (formatOptsFor env.verbose env.homeRoom v.now) st.hints st.batcher.frames).2 } :=
      hflushed.still rfl rfl fun f hf => hf
    exact hhinted.submit _ fun f hf => he.buffered f (List.mem_append_left _ hf)

theorem sendDeferred (he : Early st) (env : SessionEnv) (v : OpenCodeView) :
    Early (st.sendDeferred env v) := by
  have hhinted : Early { st with hints := (buildBatchWith deferredHeader env.localTime
      (formatOptsFor env.verbose env.homeRoom v.now) st.hints st.deferredInbox.pending).2 } :=
    he.still rfl rfl fun f hf => hf
  exact hhinted.submit _ fun f hf => he.buffered f (List.mem_append_right _ hf)

/-- A frame arrives, and is answered for before anything else is done with it. -/
theorem arrival (he : Early st) (frame : Members ν) (matchedReply : Bool) (v : OpenCodeView)
    (f : SessionFrame ν) (hno : f.no = st.arrived.length) :
    Early ({ st with arrived := st.arrived ++ [(frame, matchedReply)] }.sendRead v f) := by
  have hlength : (st.arrived ++ [(frame, matchedReply)]).length = st.arrived.length + 1 := by
    rw [List.length_append, List.length_singleton]
  have harrived : Early { st with arrived := st.arrived ++ [(frame, matchedReply)] } := by
    refine ⟨fun g hg => ?_, fun n content frames hmem no hin => ?_, he.first⟩
    · have hlt := he.buffered g hg
      show g.no < (st.arrived ++ [(frame, matchedReply)]).length
      omega
    · have hlt := he.submitted n content frames hmem no hin
      show no < (st.arrived ++ [(frame, matchedReply)]).length
      omega
  unfold sendRead
  split
  · refine ⟨harrived.buffered, fun n content frames hmem no hin => ?_, fun before no after heq => ?_⟩
    · rcases List.mem_append.mp hmem with hmem | hmem
      · exact harrived.submitted n content frames hmem no hin
      · simp at hmem
    · -- the receipt is either the one just sent, of a number no message had, or an older one
      intro n content frames hmem
      rcases List.append_eq_append_iff.mp heq with ⟨gap, hbefore, hrest⟩ | ⟨gap, hpre, hrest⟩
      · cases gap with
        | nil =>
            obtain ⟨hread, -⟩ := List.cons.inj hrest
            rw [List.append_nil] at hbefore
            rw [hbefore] at hmem
            intro hin
            have hlt := he.submitted n content frames hmem no hin
            rw [← OpenCodeAct.read.inj hread, hno] at hlt
            exact Nat.lt_irrefl _ hlt
        | cons x gap =>
            obtain ⟨-, htail⟩ := List.cons.inj hrest
            simp at htail
      · cases gap with
        | nil =>
            rw [List.append_nil] at hpre
            obtain ⟨hread, -⟩ := List.cons.inj hrest
            rw [← hpre] at hmem
            intro hin
            have hlt := he.submitted n content frames hmem no hin
            rw [OpenCodeAct.read.inj hread, hno] at hlt
            exact Nat.lt_irrefl _ hlt
        | cons x gap =>
            obtain ⟨rfl, -⟩ := List.cons.inj hrest
            exact he.first before no gap hpre n content frames hmem
  · exact harrived

end Early

/-! ### What is answered for -/

section Answered

variable {env : SessionEnv} {v : OpenCodeView}

theorem answered_of_acts {st st' : OpenCodeSession ν} (more : List OpenCodeAct)
    (hacts : st'.acts = st.acts ++ more) (hmore : ∀ no, .read no ∉ more) :
    st'.answered = st.answered := by
  have hnone : (more.any fun
      | .read _ => true
      | _ => false) = false := by
    rw [List.any_eq_false]
    intro act hact
    cases act with
    | submit => simp
    | settled => simp
    | read no => exact absurd hact (hmore no)
  unfold answered
  rw [hacts, List.any_append, hnone, Bool.or_false]

@[simp] theorem answered_submit (st : OpenCodeSession ν) (content : String)
    (frames : List (SessionFrame ν)) : (st.submit content frames).answered = st.answered :=
  answered_of_acts [.submit st.submits content (numbers frames)] rfl
    fun no hno => by simp at hno

@[simp] theorem answered_flushNow (st : OpenCodeSession ν) :
    (st.flushNow env v).answered = st.answered := by
  unfold flushNow
  dsimp only [InboundBatcher.flushNow]
  split
  · rfl
  · exact answered_submit _ _ _

@[simp] theorem answered_sendDeferred (st : OpenCodeSession ν) :
    (st.sendDeferred env v).answered = st.answered :=
  answered_submit _ _ _

theorem answered_sendRead (st : OpenCodeSession ν) (f : SessionFrame ν) :
    (st.sendRead v f).answered = (st.answered || (isReceipted f.members && v.online)) := by
  unfold sendRead
  cases hreceipted : isReceipted f.members && v.online with
  | true =>
      rw [if_pos rfl]
      simp [answered]
  | false =>
      rw [if_neg (by simp), Bool.or_false]

end Answered

/-! ### Steps -/

section Steps

variable {env : SessionEnv} {st st' : OpenCodeSession ν}

/-- What happens to an arrival keeps the receipts first, and answers for it if it is one that
takes a receipt. -/
theorem early_deliverFrame (env : SessionEnv) (he : Early st) (v : OpenCodeView) (frame : Members ν)
    (matchedReply : Bool) :
    let st' := { st with arrived := st.arrived ++ [(frame, matchedReply)] }.deliverFrame env v
      { no := st.arrived.length, members := frame } matchedReply
    Early st' ∧ st'.answered = (st.answered || (isReceipted frame && v.online)) := by
  generalize hf : ({
    no := st.arrived.length
    members := frame
    replyChain := decide (frameType? frame = some .reply) &&
      (textOf frame "replyTo").any v.isReplyToReply } : SessionFrame ν) = f
  have hno : f.no = st.arrived.length := by rw [← hf]
  have hmembers : f.members = frame := by rw [← hf]
  have hread := he.arrival frame matchedReply v f hno
  have hanswered := answered_sendRead (v := v)
    { st with arrived := st.arrived ++ [(frame, matchedReply)] } f
  rw [hmembers] at hanswered
  have hlength : f.no < ({ st with arrived := st.arrived ++ [(frame, matchedReply)] }.sendRead v
      f).arrived.length := by
    rw [hno, OpenCodeSession.sendRead]
    split <;> simp
  generalize hs : { st with arrived := st.arrived ++ [(frame, matchedReply)] }.sendRead v f = s
    at hread hanswered hlength
  have hanswered : s.answered = (st.answered || (isReceipted frame && v.online)) := hanswered
  intro st'
  have hdef : st' = (if classifyInbound f.members env.name env.broadcasts matchedReply = .deferred
      then { s with deferredInbox := s.deferredInbox.push f }
      else if bypassesBatch f.members false || decide (env.batchMs = 0) then
        { s.flushNow env v with hints := (formatOptsFor env.verbose env.homeRoom v.now
            (s.flushNow env v).hints f).2 }.submit
          (formatInboundContent env.localTime f.members { (formatOptsFor env.verbose env.homeRoom
            v.now (s.flushNow env v).hints f).1 with replyChain := f.replyChain }) [f]
      else { s with batcher := s.batcher.push env.batchMs f }) := by
    rw [← hs, ← hf]
    rfl
  rw [hdef]
  split
  · refine ⟨⟨fun g hg => ?_, hread.submitted, hread.first⟩, hanswered⟩
    simp only [buffered, DeferredInbox.push, List.mem_append, List.mem_singleton] at hg
    rcases hg with hg | hg | rfl
    · exact hread.buffered g (List.mem_append_left _ hg)
    · exact hread.buffered g (List.mem_append_right _ hg)
    · exact hlength
  · split
    · have hflushed := hread.flushNow env v
      have harrived : (s.flushNow env v).arrived = s.arrived := by
        unfold OpenCodeSession.flushNow
        dsimp only [InboundBatcher.flushNow]
        split <;> rfl
      have hhinted : Early { s.flushNow env v with hints := (formatOptsFor env.verbose env.homeRoom
          v.now (s.flushNow env v).hints f).2 } := hflushed.still rfl rfl fun g hg => hg
      refine ⟨hhinted.submit _ fun g hg => ?_, ?_⟩
      · rw [List.mem_singleton.mp hg]
        show f.no < (s.flushNow env v).arrived.length
        rw [harrived]
        exact hlength
      · rw [answered_submit, ← hanswered]
        exact answered_flushNow s
    · refine ⟨⟨fun g hg => ?_, hread.submitted, hread.first⟩, hanswered⟩
      simp only [buffered, InboundBatcher.push, List.mem_append, List.mem_singleton] at hg
      rcases hg with (hg | rfl) | hg
      · exact hread.buffered g (List.mem_append_left _ hg)
      · exact hlength
      · exact hread.buffered g (List.mem_append_right _ hg)

/-- The messages of the deferred inbox are submitted, and the inbox is emptied. -/
theorem early_inbox (he : Early st) (v : OpenCodeView) {deferredInbox : DeferredInbox ν}
    (hnone : deferredInbox.pending = []) : Early { st.sendDeferred env v with deferredInbox } := by
  refine (he.sendDeferred env v).still rfl rfl fun f hf => ?_
  rw [buffered, hnone, List.append_nil] at hf
  exact List.mem_append_left _ hf

theorem early_step (he : Early st) {e : OpenCodeView × OpenCodeEvent ν}
    (hs : OpenCodeStep env st e st') :
    Early st' ∧ st'.answered = (st.answered || !unanswered e) := by
  obtain ⟨v, e⟩ := e
  unfold OpenCodeStep OpenCodeSession.step at hs
  cases e with
  | inbound frame matchedReply =>
      obtain rfl := Option.some.inj hs
      obtain ⟨hearly, hanswered⟩ := early_deliverFrame env he v frame matchedReply
      refine ⟨hearly, hanswered.trans ?_⟩
      simp [unanswered]
  | window =>
      dsimp only at hs
      have hsame : Early { st with batcher := { st.batcher with timer := false } } :=
        he.still rfl rfl fun f hf => hf
      split at hs
      · split at hs
        · obtain rfl := Option.some.inj hs
          exact ⟨hsame, by simp [unanswered, answered]⟩
        · split at hs
          · obtain rfl := Option.some.inj hs
            exact ⟨he.still rfl rfl fun f hf => hf, by simp [unanswered, answered]⟩
          · obtain rfl := Option.some.inj hs
            refine ⟨hsame.flushNow env v, ?_⟩
            rw [answered_flushNow]
            simp [unanswered, answered]
      · cases hs
  | maxHold =>
      dsimp only at hs
      split at hs
      · obtain rfl := Option.some.inj hs
        exact ⟨he.flushNow env v, by simp [unanswered]⟩
      · cases hs
  | turnIdle | inboxFlush =>
      dsimp only at hs
      split at hs
      · obtain rfl := Option.some.inj hs
        exact ⟨he, by simp [unanswered]⟩
      · obtain rfl := Option.some.inj hs
        refine ⟨early_inbox he v rfl, ?_⟩
        have hanswered : (st.sendDeferred env v).answered = st.answered := answered_sendDeferred st
        simpa [unanswered, answered] using hanswered
  | settled n ok =>
      dsimp only at hs
      split at hs
      · obtain rfl := Option.some.inj hs
        refine ⟨he.silent [.settled n ok] rfl rfl (fun no hno => by simp at hno)
          (fun n content frames h => by simp at h) fun f hf => hf, ?_⟩
        simp [unanswered, answered]
      · cases hs
  | dispose =>
      obtain rfl := Option.some.inj hs
      refine ⟨he.still rfl rfl fun f hf => ?_, by simp [unanswered, answered]⟩
      simp only [buffered, DeferredInbox.clear, List.append_nil] at hf
      exact List.mem_append_left _ hf

end Steps

/-- A session is honest in the runs in which no frame is answered for. -/
theorem honest_iff {env : SessionEnv} {tr : List (OpenCodeSession ν × OpenCodeView × OpenCodeEvent ν)}
    {st : OpenCodeSession ν} (hrun : Run (OpenCodeStep env) {} tr st) :
    ReadsHonest st ↔ Meets (fun _ e => unanswered e = true) tr := by
  have hboth : Early st ∧ (st.answered = true ↔ ∃ x ∈ tr, unanswered x.2 = false) := by
    refine hrun.along (P := fun tr st => Early st ∧
        (st.answered = true ↔ ∃ x ∈ tr, unanswered x.2 = false)) (Meets.trivial tr)
      ⟨Early.init, by simp [answered]⟩ fun tr s e s' _ _ hs _ hstep => ?_
    obtain ⟨hearly, hanswered⟩ := early_step hs.1 hstep
    refine ⟨hearly, ?_⟩
    rw [hanswered, Bool.or_eq_true, hs.2]
    constructor
    · rintro (⟨x, hx, hno⟩ | hno)
      · exact ⟨x, List.mem_append_left _ hx, hno⟩
      · exact ⟨(s, e), List.mem_append_right _ (List.mem_singleton.mpr rfl), by simpa using hno⟩
    · rintro ⟨x, hx, hno⟩
      rcases List.mem_append.mp hx with hx | hx
      · exact .inl ⟨x, hx, hno⟩
      · rw [List.mem_singleton.mp hx] at hno
        exact .inr (by simpa using hno)
  obtain ⟨hearly, hanswered⟩ := hboth
  constructor
  · intro hh x hx
    by_cases hno : unanswered x.2 = true
    · exact hno
    · exact absurd hh (hearly.not_honest (hanswered.mpr ⟨x, hx, by simpa using hno⟩))
  · intro hok
    refine Early.honest_of_unanswered ?_
    by_cases hyes : st.answered = true
    · obtain ⟨x, hx, hno⟩ := hanswered.mp hyes
      rw [hok x hx] at hno
      cases hno
    · simpa using hyes

end OpenCodeSession

/-! ### The claim -/

/-- **Receipts are honest**: in a Pi session, in every run in which nothing that takes a receipt
is past the twelfth place of a batch, or is left to a timer or an error by `deliverInterrupted`;
in an OpenCode session, in the runs in which no frame is answered for. -/
theorem reads_honest (env : SessionEnv) :
    (∀ (tr : List (Session ν × HostView × SessionEvent ν)) (st : Session ν),
      Run (SessionStep env) {} tr st → Meets (fun s e => answersHonestly env s e = true) tr →
        ReadsHonest st) ∧
    (∀ (tr : List (OpenCodeSession ν × OpenCodeView × OpenCodeEvent ν)) (st : OpenCodeSession ν),
      Run (OpenCodeStep env) {} tr st →
        (st.ReadsHonest ↔ Meets (fun _ e => OpenCodeSession.unanswered e = true) tr)) := by
  constructor
  · intro tr st hrun hok
    have ht : Truthful st := hrun.invariant hok Truthful.init
      fun s e s' hs he hstep => hs.step he hstep
    exact ht.honest
  · intro tr st hrun
    exact OpenCodeSession.honest_iff hrun

/-! ### Runs of both -/

/-- Two messages, and the end of the batch they are put into. -/
def twoAndTool : List (SessionEvent Int) :=
  [.inbound (bobSays "m_1" "one") false, .inbound (bobSays "m_2" "two") false, .toolResult]

/-- The batch is shown and answered for; OpenCode is told of a reply, which takes no receipt. -/
theorem shown_then_read :
    (∃ (tr : List (Session Int × HostView × SessionEvent Int)) (st : Session Int),
      Run (SessionStep batchingSession) {} tr st ∧ tr.map Prod.snd = onBusyHost twoAndTool ∧
        st.acts.tail = [.read 0, .read 1] ∧ ReadsHonest st) ∧
    (∃ (tr : List (OpenCodeSession Int × OpenCodeView × OpenCodeEvent Int)) (st : OpenCodeSession Int),
      Run (OpenCodeStep promptSession) {} tr st ∧
        tr.map Prod.snd = [({ now := 1000 }, .inbound [("type", .str "reply"), ("id", .str "m_3"),
          ("from", .str "bob"), ("body", .str "three")] true)] ∧ st.submits = 1 ∧ st.ReadsHonest) := by
  constructor
  · have hcheck : ((follow (Session.step batchingSession) ({} : Session Int)
        (onBusyHost twoAndTool)).any fun r =>
        (r.1.all fun x => answersHonestly batchingSession x.1 x.2) &&
          decide (r.2.acts.tail = [.read 0, .read 1])) = true := by
      decide +kernel
    obtain ⟨tr, st, hrun, htr, hfound⟩ := Run.of_check hcheck
    simp only [Bool.and_eq_true, List.all_eq_true, decide_eq_true_eq] at hfound
    exact ⟨tr, st, hrun, htr, hfound.2, (reads_honest batchingSession).1 tr st hrun hfound.1⟩
  · have hcheck : ((follow (OpenCodeSession.step promptSession) ({} : OpenCodeSession Int)
        [({ now := 1000 }, .inbound [("type", .str "reply"), ("id", .str "m_3"), ("from", .str "bob"),
          ("body", .str "three")] true)]).any fun r =>
        (r.1.all fun x => OpenCodeSession.unanswered x.2) && decide (r.2.submits = 1)) = true := by
      decide +kernel
    obtain ⟨tr, st, hrun, htr, hfound⟩ := Run.of_check hcheck
    simp only [Bool.and_eq_true, List.all_eq_true, decide_eq_true_eq] at hfound
    exact ⟨tr, st, hrun, htr, hfound.2, ((reads_honest promptSession).2 tr st hrun).mpr hfound.1⟩

/-- A message that interrupts. -/
def bobForces : Members Int :=
  [("type", .str "msg"), ("id", .str "m_1"), ("from", .str "bob"), ("priority", .str "force"),
    ("interrupt", .bool true), ("body", .str "stop")]

/-- Pi answers for a forced message while it still waits for the turn to end, and OpenCode for a
message it has only submitted. -/
theorem read_before_shown :
    (∃ (tr : List (Session Int × HostView × SessionEvent Int)) (st : Session Int),
      Run (SessionStep batchingSession) {} tr st ∧
        tr.map Prod.snd = onBusyHost [.inbound bobForces false] ∧ st.acts = [.read 0] ∧
        ¬ ReadsHonest st) ∧
    (∃ (tr : List (OpenCodeSession Int × OpenCodeView × OpenCodeEvent Int)) (st : OpenCodeSession Int),
      Run (OpenCodeStep promptSession) {} tr st ∧
        tr.map Prod.snd = [({ now := 1000 }, .inbound (bobSays "m_1" "one") false),
          ({ now := 2000 }, .settled 0 false)] ∧ st.acts.head? = some (.read 0) ∧ ¬ st.ReadsHonest) := by
  constructor
  · have hcheck : ((follow (Session.step batchingSession) ({} : Session Int)
        (onBusyHost [.inbound bobForces false])).any fun r => decide (r.2.acts = [.read 0])) = true := by
      decide +kernel
    obtain ⟨tr, st, hrun, htr, hfound⟩ := Run.of_check hcheck
    have hacts : st.acts = [.read 0] := of_decide_eq_true hfound
    refine ⟨tr, st, hrun, htr, hacts, fun hh => ?_⟩
    obtain ⟨⟨a, content, frames, -, hmem, -⟩, -⟩ := hh [] 0 [] hacts
    cases hmem
  · have hcheck : ((follow (OpenCodeSession.step promptSession) ({} : OpenCodeSession Int)
        [({ now := 1000 }, .inbound (bobSays "m_1" "one") false),
          ({ now := 2000 }, .settled 0 false)]).any fun r =>
        decide (r.2.acts.head? = some (.read 0))) = true := by
      decide +kernel
    obtain ⟨tr, st, hrun, htr, hfound⟩ := Run.of_check hcheck
    have hacts : st.acts.head? = some (.read 0) := of_decide_eq_true hfound
    refine ⟨tr, st, hrun, htr, hacts, fun hh => ?_⟩
    obtain ⟨after, heq⟩ := List.head?_eq_some_iff.mp hacts
    obtain ⟨⟨a, n, content, frames, -, hmem, -⟩, -⟩ := hh [] 0 after heq
    cases hmem

end PiMesh
