/-
Which replies are one answer.

An answer that finds nobody waiting is injected, and its message and the digest of its body
are remembered; while they are, a reply with the same two is dropped.  The sender is not
part of what is remembered.  So a drop is a repetition only where no two peers give one
message the same answer, and then it is exactly that: what is remembered was put there by an
answer of this run, and once an answer was surfaced neither an entry nor the lack of a
memory lets it through again.
-/
import PiMesh.Proofs.Missions

namespace PiMesh

open Js Transition

variable {ν : Type} [Number ν]

/-! ### Answers -/

/-- The reply an event brings to `onFrame`, machine receipts apart. -/
def answer? (st : ClientState ν) : ClientEvent ν → Option (Inbound ν)
  | .line sock frame =>
      if st.listens sock && decide (frame.type = .reply) && !frame.receipt then some frame else none
  | _ => none

/-- The promise of a mission was resolved with this answer. -/
def ClientState.handed (st : ClientState ν) (id : String) (frame : Inbound ν) : Prop :=
  (∃ w, Job.resolved w id (.reply frame) ∈ st.jobs) ∨
    st.book.settled.get? id = some (.reply frame)

/-- From one state to the next an answer was injected, or handed to the mission it answers. -/
def Surfaced (st st' : ClientState ν) (frame : Inbound ν) : Prop :=
  (∃ matched, st'.emitted = st.emitted ++ [.inbound frame matched]) ∨
    st'.emitted = st.emitted ++ [.reply frame] ∧
      ∃ id, frame.replyTo = some id ∧ st'.handed id frame

/-- The step that met this event surfaces the answer. -/
def surfacedBy (env : ClientEnv) (x : ClientState ν × Int × ClientEvent ν) (frame : Inbound ν) : Prop :=
  Surfaced x.1 (clientStep env x.2.1 x.1 x.2.2) frame

/-- One answer: the same message, the same sender, the same body. -/
def SameAnswer (f g : Inbound ν) : Prop :=
  f.replyTo = g.replyTo ∧ f.sender = g.sender ∧ f.body.getD "" = g.body.getD ""

theorem answer?_eq_some {st : ClientState ν} {e : ClientEvent ν} {frame : Inbound ν}
    (h : answer? st e = some frame) :
    ∃ sock, e = .line sock frame ∧ st.listens sock = true ∧ frame.type = .reply ∧
      frame.receipt = false := by
  unfold answer? at h
  split at h
  · next sock f =>
    split at h
    · next hcond =>
      obtain rfl := Option.some.inj h
      simp only [Bool.and_eq_true, decide_eq_true_eq, Bool.not_eq_true'] at hcond
      exact ⟨sock, rfl, hcond.1.1, hcond.1.2, hcond.2⟩
    · cases h
  · cases h

/-! ### What an answer does -/

section Answer

variable {env : ClientEnv} {now : Int} {st : ClientState ν} {frame : Inbound ν} {id : String}

/-- The memory of the client with one more answer in it. -/
def remember (env : ClientEnv) (now : Int) (handled : Map String Int) (id : String)
    (frame : Inbound ν) : Map String Int :=
  pruneHandled now (handled.set (replyKey env.rt id (frame.body.getD "")) now)

theorem settle_handed (st : ClientState ν) (id : String) (frame : Inbound ν) :
    (st.settle id (.reply frame)).handed id frame := by
  unfold ClientState.settle
  split
  · next w _ => exact .inl ⟨w, by simp [ClientState.push]⟩
  · exact .inr (Map.get?_set_self _ _ _)

/-- What an answer changes of the memory, the entries and what was emitted. -/
structure Notes (st st' : ClientState ν) (handled : Map String Int)
    (entries : Map String PendingEntry) (out : List (Emit ν)) : Prop where
  handled : st'.book.handledReplyTargets = handled
  entries : st'.book.pending.entries = entries
  emitted : st'.emitted = st.emitted ++ out
  ids : st'.ids = st.ids

theorem onMatchedReply_notes (env : ClientEnv) (now : Int) (wake : Bool) (hhanded : st.handed id frame)
    (hid : frame.replyTo = some id) :
    (∃ out, Notes st (onMatchedReply env now st frame id wake)
      (remember env now st.book.handledReplyTargets id frame) st.book.pending.entries out) ∧
    Surfaced st (onMatchedReply env now st frame id wake) frame := by
  unfold onMatchedReply
  dsimp only
  obtain ⟨missions, hmissions⟩ := setMission_parts
    { st with book := markReplyHandled env now st.book id (frame.body.getD "") } id fun m =>
      { m with status := .answered, answered := true, response := some (frame.body.getD ""),
               ts := some frame.ts }
  rw [hmissions]
  split
  · obtain ⟨inbox, hinbox⟩ := keepInbound_parts (ν := ν)
      { st with book := { markReplyHandled env now st.book id (frame.body.getD "") with
                            awaitedMissions := missions } } frame
    rw [hinbox]
    exact ⟨⟨[.inbound frame (some true)], rfl, rfl, rfl, rfl⟩, .inl ⟨some true, rfl⟩⟩
  · refine ⟨⟨[.reply frame], rfl, rfl, rfl, rfl⟩, .inr ⟨rfl, id, hid, ?_⟩⟩
    exact hhanded

theorem onOrphanReply_notes (env : ClientEnv) (now : Int) (st : ClientState ν)
    (hid : frame.replyTo = some id) :
    (isHandledReply env now st.book id (frame.body.getD "") = true ∧
      Notes st (onOrphanReply env now st frame) st.book.handledReplyTargets
        st.book.pending.entries []) ∨
    (isHandledReply env now st.book id (frame.body.getD "") = false ∧
      Notes st (onOrphanReply env now st frame)
        (remember env now st.book.handledReplyTargets id frame) st.book.pending.entries
        [.inbound frame none]) := by
  unfold onOrphanReply
  rw [hid]
  dsimp only
  split
  · next hhandled => exact .inl ⟨hhandled, rfl, rfl, by simp, rfl⟩
  · next hhandled =>
    obtain ⟨inbox, hinbox⟩ := keepInbound_parts (ν := ν)
      { st with book := markReplyHandled env now st.book id (frame.body.getD "") } frame
    rw [hinbox]
    exact .inr ⟨by simpa using hhandled, rfl, rfl, rfl, rfl⟩

/-- An answer is handed to its mission, dropped or injected. -/
theorem onReply_notes (env : ClientEnv) (now : Int) (st : ClientState ν) (hreceipt : frame.receipt = false) (hid : frame.replyTo = some id) :
    (st.book.pending.has id = true ∧ Surfaced st (onReply env now st frame) frame ∧
      ∃ out, Notes st (onReply env now st frame)
        (remember env now st.book.handledReplyTargets id frame) (st.book.pending.entries.delete id) out) ∨
    (st.book.pending.has id = false ∧ isHandledReply env now st.book id (frame.body.getD "") = true ∧
      Notes st (onReply env now st frame) st.book.handledReplyTargets st.book.pending.entries []) ∨
    (st.book.pending.has id = false ∧ isHandledReply env now st.book id (frame.body.getD "") = false ∧
      Notes st (onReply env now st frame) (remember env now st.book.handledReplyTargets id frame)
        st.book.pending.entries [.inbound frame none]) := by
  obtain ⟨last, hlast⟩ := noteInboundFrom_parts st frame
  by_cases hlive : st.book.pending.has id = true
  · left
    rw [onReply_live hreceipt hid hlive, hlast]
    have hhanded := settle_handed (ν := ν)
      { st with book := { st.book with lastInboundFrom := last, pending := st.book.pending.drop id } }
      id frame
    obtain ⟨settled, js, hsettle⟩ := resolve_parts (ν := ν)
      { st with book := { st.book with lastInboundFrom := last } } id (.reply frame)
    have hhanded : (ClientState.resolve (ν := ν)
      { st with book := { st.book with lastInboundFrom := last } } id (.reply frame)).handed id frame :=
      hhanded
    rw [hsettle] at hhanded
    rw [hsettle]
    obtain ⟨⟨out, hnotes⟩, hsurfaced⟩ :=
      onMatchedReply_notes env now (st.wakes id) hhanded hid
    exact ⟨hlive, hsurfaced, out, hnotes.handled, hnotes.entries, hnotes.emitted, hnotes.ids⟩
  · right
    have hdead : st.book.pending.has id = false := by simpa using hlive
    rw [onReply_orphan hreceipt hid hdead, hlast]
    rcases onOrphanReply_notes env now
      { st with book := { st.book with lastInboundFrom := last, pending := st.book.pending.unmatched } }
      hid with ⟨hhandled, hnotes⟩ | ⟨hhandled, hnotes⟩
    · exact .inl ⟨hdead, hhandled, hnotes.handled, hnotes.entries, hnotes.emitted, hnotes.ids⟩
    · exact .inr ⟨hdead, hhandled, hnotes.handled, hnotes.entries, hnotes.emitted, hnotes.ids⟩

end Answer

/-! ### What everything else does -/

/-- Nothing is remembered or forgotten, and an entry that was not there is that of a new
message. -/
structure Opens (rt : Runtime) (st st' : ClientState ν) : Prop where
  handled : st'.book.handledReplyTargets = st.book.handledReplyTargets
  ids : st.ids ≤ st'.ids
  entries : ∀ id, st'.book.pending.has id = true →
    st.book.pending.has id = true ∨ ∃ n, st.ids ≤ n ∧ rt.makeMsgId n = id

section Opens

variable {env : ClientEnv} {now : Int} {st st' st'' : ClientState ν} {rt : Runtime} {e : ClientEvent ν}

theorem Opens.trans (h : Opens rt st st') (h' : Opens rt st' st'') : Opens rt st st'' := by
  refine ⟨h'.handled.trans h.handled, Nat.le_trans h.ids h'.ids, ?_⟩
  intro id hid
  rcases h'.entries id hid with hid | ⟨n, hn, hmade⟩
  · exact h.entries id hid
  · exact .inr ⟨n, Nat.le_trans h.ids hn, hmade⟩

/-- No entry is new. -/
theorem Opens.of_fewer (hhandled : st'.book.handledReplyTargets = st.book.handledReplyTargets)
    (hids : st.ids ≤ st'.ids)
    (hentries : ∀ id, st'.book.pending.has id = true → st.book.pending.has id = true) :
    Opens rt st st' := ⟨hhandled, hids, fun id hid => .inl (hentries id hid)⟩

theorem Opens.of_same (hbook : st'.book = st.book) (hids : st.ids ≤ st'.ids) : Opens rt st st' :=
  .of_fewer (by rw [hbook]) hids fun id hid => by rwa [hbook] at hid

theorem Apart.opens (h : Apart st st') : Opens rt st st' := .of_same h.book h.ids

theorem setPending_opens (r : PendingReplies × Resolved ν)
    (hentries : ∀ id, r.1.has id = true → st.book.pending.has id = true) :
    Opens rt st (st.setPending r) := by
  obtain ⟨settled, js, hparts⟩ := setPending_parts st r
  rw [hparts]
  exact .of_fewer rfl (Nat.le_refl _) hentries

theorem resolve_opens (id : String) (r : Resolution ν) : Opens rt st (st.resolve id r) := by
  obtain ⟨settled, js, hparts⟩ := resolve_parts st id r
  rw [hparts]
  exact .of_fewer rfl (Nat.le_refl _) fun id' hid' => ((has_drop_iff id _ id').mp hid').2

theorem cancel_opens (id : String) (reason : CancelReason) :
    Opens rt st (st.setPending (st.book.pending.cancel id reason)) := by
  rw [setPending_cancel]
  split
  · exact resolve_opens id _
  · exact .of_same rfl (Nat.le_refl _)

theorem setMission_opens (id : String) (f : Mission → Mission) : Opens rt st (st.setMission id f) := by
  obtain ⟨missions, hparts⟩ := setMission_parts st id f
  rw [hparts]
  exact .of_fewer rfl (Nat.le_refl _) fun _ h => h

theorem watch_opens (id : String) (w : Watcher) : Opens rt st (st.watch id w) := by
  obtain ⟨js, hparts⟩ := watch_parts st id w
  rw [hparts]
  exact .of_fewer rfl (Nat.le_refl _) fun _ h => h

/-- The one place where an entry is made. -/
theorem issueSend_opens (c : CallId) (plan : SendPlan) :
    Opens env.rt st (issueSend env now st c plan) := by
  unfold issueSend
  extract_lets frame st₁ st₂ st₃
  have hst₂ : Opens env.rt st st₂ := by
    show Opens env.rt st (if plan.awaitReply then registerMission st₁ now plan frame.id else st₁)
    split
    · obtain ⟨settled, js, hparts⟩ := registerMission_parts st₁ frame.id now plan
      rw [hparts]
      refine ⟨rfl, Nat.le_succ _, ?_⟩
      intro id hid
      rcases (has_register_iff frame.id _ _ _ _ id).mp hid with rfl | hid
      · exact .inr ⟨st.ids, Nat.le_refl _, rfl⟩
      · exact .inl hid
    · exact .of_same rfl (Nat.le_succ _)
  have hst₃ : Opens env.rt st st₃ := hst₂.trans (.of_same rfl (Nat.le_refl _))
  split
  · next st₄ hw =>
    obtain ⟨outbox, sent, rfl⟩ := writeOrQueue_eq hw
    exact hst₃.trans (.of_same rfl (Nat.le_refl _))
  · exact hst₃.trans (.of_same rfl (Nat.le_refl _))

theorem sendAcked_opens (c : CallId) (plan : SendPlan) (id : String) (ack : Ack) :
    Opens rt st (sendAcked st c plan id ack) := by
  have hfinish : ∀ (st' : ClientState ν) r, Opens rt st st' → Opens rt st (st'.finish c r) :=
    fun _ _ h => h.trans (.of_same rfl (Nat.le_refl _))
  unfold sendAcked
  split
  · dsimp only
    split
    · refine hfinish _ _ ?_
      unfold failMission
      have hdrop : Opens rt (st.setPending (st.book.pending.cancel id (.refused _)))
          ((st.setPending (st.book.pending.cancel id (.refused (ack.code.bind fun code => code)))).dropTarget id) :=
        .of_fewer rfl (Nat.le_refl _) fun _ h => h
      exact ((cancel_opens id _).trans hdrop).trans (setMission_opens id _)
    · exact hfinish _ _ (.of_same rfl (Nat.le_refl _))
  · split
    · exact hfinish _ _ (.of_same rfl (Nat.le_refl _))
    · split
      · exact hfinish _ _ (watch_opens id _)
      · dsimp only
        split
        · have hstage : Opens rt (st.setPending (st.book.pending.cancel id .cancelled))
              ((st.setPending (st.book.pending.cancel id .cancelled)).setStage c (.sendReply plan id)) :=
            .of_same rfl (Nat.le_refl _)
          exact ((cancel_opens id _).trans hstage).trans (watch_opens id _)
        · have hstage : Opens rt st (st.setStage c (.sendReply plan id)) :=
            .of_same rfl (Nat.le_refl _)
          exact hstage.trans (watch_opens id _)

theorem handleResolved_opens (w : Watcher) (id : String) (r : Resolution ν) :
    Opens rt st (handleResolved st w id r) := by
  have hdrop : Opens rt st (st.dropTarget id) := .of_fewer rfl (Nat.le_refl _) fun _ h => h
  have hexpire : Opens rt st (expireMission (st.dropTarget id) id) :=
    (hdrop.trans (setMission_opens id _)).trans (.of_same rfl (Nat.le_refl _))
  have hfinish : ∀ (st' : ClientState ν) c r, Opens rt st st' → Opens rt st (st'.finish c r) :=
    fun _ _ _ h => h.trans (.of_same rfl (Nat.le_refl _))
  have hmission : Opens rt st ((st.dropTarget id).dropMission id) :=
    .of_fewer rfl (Nat.le_refl _) fun _ h => h
  unfold handleResolved
  split
  · unfold launchResolved
    dsimp only
    split
    · exact hexpire
    · exact hdrop
  · split
    · unfold sendResolved
      dsimp only
      split
      · exact hfinish _ _ _ hdrop
      · exact hfinish _ _ _ hexpire
      · exact hfinish _ _ _ hmission
      · exact hfinish _ _ _ hdrop
    · exact .of_same rfl (Nat.le_refl _)

theorem endWaitAll_opens (c : CallId) (start : Int) (targets : List String) (status : WaitAllStatus) :
    Opens rt st (endWaitAll env now st c start targets status) := by
  unfold endWaitAll
  extract_lets book₀ book₁ book₂
  have hbook : book₂.handledReplyTargets = st.book.handledReplyTargets ∧
      book₂.pending = st.book.pending := by
    show (if status = .cancelled then _ else _ : Book ν).handledReplyTargets = _ ∧ (if _ then _ else _ : Book ν).pending = _
    split
    · exact ⟨rfl, rfl⟩
    · exact ⟨rfl, rfl⟩
  refine .of_fewer hbook.1 (Nat.le_refl _) ?_
  intro id hid
  have hid : book₂.pending.has id = true := hid
  rwa [hbook.2] at hid

theorem tickWaitAll_opens (c : CallId) (start deadline : Int) (targets : List String) (signal : Bool) :
    Opens rt st (tickWaitAll env now st c start deadline targets signal) := by
  unfold tickWaitAll
  split
  · exact endWaitAll_opens c start targets _
  · split
    · exact endWaitAll_opens c start targets _
    · exact .of_same rfl (Nat.le_refl _)

theorem startWaitAll_opens (c : CallId) (timeoutMs : Int) (signal : Bool) :
    Opens rt st (startWaitAll env now st c timeoutMs signal) := by
  unfold startWaitAll
  extract_lets targets book st₁
  have hst₁ : Opens rt st st₁ := .of_fewer rfl (Nat.le_refl _) fun _ h => h
  split
  · exact hst₁.trans (endWaitAll_opens c now targets _)
  · exact hst₁.trans (tickWaitAll_opens c now _ targets signal)

theorem cancelAllAwaited_opens : Opens rt st (cancelAllAwaited st) := by
  have hfold : ∀ (ids : List String) (st : ClientState ν), Opens rt st (ids.foldl (fun st id =>
      (st.dropMission id).setPending (st.book.pending.cancel id .cancelled)) st) := by
    intro ids
    induction ids with
    | nil =>
        intro st
        exact .of_same rfl (Nat.le_refl _)
    | cons id rest ih =>
        intro st
        have hdrop : Opens rt st (st.dropMission id) := .of_fewer rfl (Nat.le_refl _) fun _ h => h
        have hcancel : Opens rt (st.dropMission id)
            ((st.dropMission id).setPending (st.book.pending.cancel id .cancelled)) := cancel_opens id _
        exact (hdrop.trans hcancel).trans (ih _)
  unfold cancelAllAwaited
  exact (hfold _ st).trans (.of_fewer rfl (Nat.le_refl _) fun _ h => h)

theorem has_remind {p : PendingReplies} {id id' : String} (h : (p.remind id).1.has id' = true) :
    p.has id' = true := by
  unfold PendingReplies.remind at h
  split at h
  · next entry hentry =>
    have hset : ∀ entry', (p.entries.set id entry').has id' = true → p.entries.has id' = true := by
      intro entry' hhas
      rw [Map.has, Map.get?_set] at hhas
      by_cases heq : id' = id
      · rw [heq]
        exact (Map.has_iff _ _).mpr ⟨entry, hentry⟩
      · rwa [if_neg heq] at hhas
    split at h
    · exact h
    · dsimp only at h
      split at h
      · exact hset _ h
      · exact hset _ h
  · exact h

/-- Only an answer changes what is remembered. -/
theorem act_opens (hact : MissionAct env now st e st') (hanswer : answer? st e = none) :
    Opens env.rt st st' := by
  cases hact with
  | other => exact .of_same rfl (Nat.le_refl _)
  | send henters hplan =>
      obtain ⟨-, haside⟩ := henters.apart
      exact haside.opens.trans (issueSend_opens _ _)
  | giveUp hwhy =>
      refine setPending_opens _ ?_
      intro id hid
      cases hid
  | cancelAll hnew => exact cancelAllAwaited_opens
  | waitAll hnew => exact startWaitAll_opens _ _ _
  | tick hs =>
      have hidle : Opens env.rt st st.idle := .of_same rfl (Nat.le_refl _)
      exact hidle.trans (tickWaitAll_opens _ _ _ _ _)
  | abortSend hs hsignal =>
      rename_i c plan id
      have habort : Opens env.rt st (st.abort c) := .of_same rfl (Nat.le_refl _)
      exact habort.trans (cancel_opens id _)
  | abortWait hs =>
      rename_i c start deadline targets
      have habort : Opens env.rt st (st.abort c) := .of_same rfl (Nat.le_refl _)
      exact habort.trans (endWaitAll_opens c start targets _)
  | acked hjobs hs =>
      have hpop : Opens env.rt st st.pop := .of_same rfl (Nat.le_refl _)
      exact hpop.trans (sendAcked_opens _ _ _ _)
  | resolved hjobs =>
      have hpop : Opens env.rt st st.pop := .of_same rfl (Nat.le_refl _)
      exact hpop.trans (handleResolved_opens _ _ _)
  | expire hlive =>
      have hidle : Opens env.rt st st.idle := .of_same rfl (Nat.le_refl _)
      exact hidle.trans (resolve_opens _ _)
  | remind => exact .of_fewer rfl (Nat.le_refl _) fun _ => has_remind
  | reply hlistens htype hreceipt => simp [answer?, hlistens, htype, hreceipt] at hanswer
  | dropped hlistens htype hwaiter hstatus =>
      rename_i sock frame
      have hread : Opens env.rt st (st.reads sock) := .of_same rfl (Nat.le_refl _)
      refine hread.trans ?_
      unfold onAck
      rw [show (st.reads sock).ackWaiters.get? frame.id = none from hwaiter]
      dsimp only
      rw [if_pos hstatus]
      exact ((cancel_opens frame.id _).trans (setMission_opens frame.id _)).trans
        (.of_same rfl (Nat.le_refl _))
  | passes matched last hlistens htype => exact .of_fewer rfl (Nat.le_refl _) fun _ h => h

theorem clientStep_opens (h : Waits env.rt st.desk) (hanswer : answer? st e = none) :
    Opens env.rt st (clientStep env now st e) := by
  obtain ⟨st₁, hact, haside⟩ := clientStep_missions h e
  exact (act_opens hact hanswer).trans haside.opens

/-- A step that brings an answer. -/
theorem clientStep_answer (env : ClientEnv) (now : Int) {frame : Inbound ν} {id : String}
    (hanswer : answer? st e = some frame) (hid : frame.replyTo = some id) :
    (st.book.pending.has id = true ∧ Surfaced st (clientStep env now st e) frame ∧
      ∃ out, Notes st (clientStep env now st e)
        (remember env now st.book.handledReplyTargets id frame) (st.book.pending.entries.delete id) out) ∨
    (st.book.pending.has id = false ∧ isHandledReply env now st.book id (frame.body.getD "") = true ∧
      Notes st (clientStep env now st e) st.book.handledReplyTargets st.book.pending.entries []) ∨
    (st.book.pending.has id = false ∧ isHandledReply env now st.book id (frame.body.getD "") = false ∧
      Notes st (clientStep env now st e) (remember env now st.book.handledReplyTargets id frame)
        st.book.pending.entries [.inbound frame none]) := by
  obtain ⟨sock, rfl, hlistens, htype, hreceipt⟩ := answer?_eq_some hanswer
  have hstep : clientStep env now st (.line sock frame) = onReply env now (st.reads sock) frame := by
    rw [clientStep_listens hlistens]
    unfold onFrame
    rw [htype]
  have hnotes : ∀ {handled entries out}, Notes (st.reads sock) (onReply env now (st.reads sock) frame)
      handled entries out → Notes st (clientStep env now st (.line sock frame)) handled entries out := by
    intro handled entries out h
    rw [hstep]
    exact ⟨h.handled, h.entries, h.emitted, h.ids⟩
  rcases onReply_notes env now (st.reads sock) hreceipt hid with
    ⟨hlive, hsurfaced, out, h⟩ | ⟨hdead, hhandled, h⟩ | ⟨hdead, hhandled, h⟩
  · refine .inl ⟨hlive, ?_, out, hnotes h⟩
    rw [hstep]
    exact hsurfaced
  · exact .inr (.inl ⟨hdead, hhandled, hnotes h⟩)
  · exact .inr (.inr ⟨hdead, hhandled, hnotes h⟩)

end Opens

/-! ### What is remembered -/

section Runs

variable {env : ClientEnv} {name : String} {rooms : List String}
  {reservations : List FileReservation} {tr : ClientTrace ν} {st st' : ClientState ν}

/-- The answer names a message, and none that the client has yet to make. -/
def NamesPast (rt : Runtime) (st : ClientState ν) (e : Int × ClientEvent ν) : Prop :=
  ∀ f, answer? st e.2 = some f → ∃ id, f.replyTo = some id ∧ ∀ n, rt.makeMsgId n = id → n < st.ids

/-- Two answers to one message that come within the window and whose bodies have one digest
are one answer. -/
def TellApart (rt : Runtime) (x y : ClientState ν × Int × ClientEvent ν) : Prop :=
  ∀ f g, answer? x.1 x.2.2 = some f → answer? y.1 y.2.2 = some g → f.replyTo = g.replyTo →
    y.2.1 - x.2.1 < handledReplyWindowMs → rt.sha256 (f.body.getD "") = rt.sha256 (g.body.getD "") →
    f.sender = g.sender ∧ f.body.getD "" = g.body.getD ""

/-- Whatever is remembered is an answer of this run, with its time. -/
def Remembered (env : ClientEnv) (tr : ClientTrace ν) (st : ClientState ν) : Prop :=
  ∀ key ts, st.book.handledReplyTargets.get? key = some ts →
    ∃ x ∈ tr, ∃ f id, answer? x.1 x.2.2 = some f ∧ f.replyTo = some id ∧ x.2.1 = ts ∧
      replyKey env.rt id (f.body.getD "") = key

theorem get?_remember {handled : Map String Int} {now ts : Int} {id key : String} {frame : Inbound ν}
    (h : (remember env now handled id frame).get? key = some ts) :
    replyKey env.rt id (frame.body.getD "") = key ∧ ts = now ∨ handled.get? key = some ts := by
  unfold remember pruneHandled at h
  rw [Map.get?_foldl_delete] at h
  split at h
  · cases h
  · rw [Map.get?_set] at h
    split at h
    · next heq => exact .inl ⟨heq.symm, (Option.some.inj h).symm⟩
    · exact .inr h

/-- A memory that is not too old stays. -/
theorem remember_keeps {handled : Map String Int} {now ts : Int} {id key : String} {frame : Inbound ν}
    (h : (handled.set (replyKey env.rt id (frame.body.getD "")) now).get? key = some ts)
    (hold : now - ts < handledReplyWindowMs) :
    (remember env now handled id frame).get? key = some ts := by
  unfold remember pruneHandled
  rw [Map.get?_foldl_delete, if_neg, h]
  intro hmem
  obtain ⟨⟨key', ts'⟩, hentry, rfl⟩ := List.mem_map.mp hmem
  rw [List.mem_filter, Map.mem_entries_iff, decide_eq_true_eq] at hentry
  rw [h] at hentry
  have hts := Option.some.inj hentry.1
  have hlate : now - ts' > handledReplyWindowMs := hentry.2
  omega

theorem remembered_run (hinj : Function.Injective env.rt.makeMsgId)
    (hrun : Run (ClientStep env) (ClientState.init name rooms reservations) tr st)
    (hnames : Meets (NamesPast env.rt) tr) : Remembered env tr st := by
  refine hrun.along hnames ?_ ?_
  · intro key ts h
    cases h
  · intro tr st e st' hrun _ hrem hnamed hstep
    have hstep : clientStep env e.1 st e.2 = st' := hstep
    have hmore : ∀ key ts, st.book.handledReplyTargets.get? key = some ts →
        ∃ x ∈ tr ++ [(st, e)], ∃ f id, answer? x.1 x.2.2 = some f ∧ f.replyTo = some id ∧
          x.2.1 = ts ∧ replyKey env.rt id (f.body.getD "") = key := by
      intro key ts h
      obtain ⟨x, hx, rest⟩ := hrem key ts h
      exact ⟨x, List.mem_append_left _ hx, rest⟩
    intro key ts h
    cases hanswer : answer? st e.2 with
    | none =>
        rw [← hstep, (clientStep_opens (waits_run hinj hrun) hanswer).handled] at h
        exact hmore key ts h
    | some f =>
        obtain ⟨id, hid, -⟩ := hnamed f hanswer
        have hnew : (remember env e.1 st.book.handledReplyTargets id f).get? key = some ts →
            ∃ x ∈ tr ++ [(st, e)], ∃ f id, answer? x.1 x.2.2 = some f ∧ f.replyTo = some id ∧
              x.2.1 = ts ∧ replyKey env.rt id (f.body.getD "") = key := by
          intro h
          rcases get?_remember h with ⟨hkey, rfl⟩ | h
          · exact ⟨(st, e), by simp, f, id, hanswer, hid, rfl, hkey⟩
          · exact hmore key ts h
        rw [← hstep] at h
        rcases clientStep_answer env e.1 hanswer hid with
          ⟨-, -, out, hnotes⟩ | ⟨-, -, hnotes⟩ | ⟨-, -, hnotes⟩
        · rw [hnotes.handled] at h
          exact hnew h
        · rw [hnotes.handled] at h
          exact hmore key ts h
        · rw [hnotes.handled] at h
          exact hnew h

/-! ### Dropping -/

theorem replyKey_inj {rt : Runtime} (hdigest : ∀ body, (rt.sha256 body).toList.length = 64)
    {id id' body body' : String} (h : replyKey rt id body = replyKey rt id' body') :
    id = id' ∧ rt.sha256 body = rt.sha256 body' := by
  unfold replyKey at h
  have hlist : id.toList ++ '|' :: (rt.sha256 body).toList =
      id'.toList ++ '|' :: (rt.sha256 body').toList := by
    have := congrArg String.toList h
    simpa using this
  obtain ⟨hid, hrest⟩ := List.append_inj' hlist (by simp [hdigest])
  exact ⟨String.toList_inj.mp hid, String.toList_inj.mp (List.cons.inj hrest).2⟩

/-- What is dropped was answered before, by the same peer and in the same words. -/
theorem dropped_repeats (hinj : Function.Injective env.rt.makeMsgId)
    (hdigest : ∀ body, (env.rt.sha256 body).toList.length = 64) {tr₁ tr₂ : ClientTrace ν}
    {x : ClientState ν × Int × ClientEvent ν} {f : Inbound ν}
    (hrun : Run (ClientStep env) (ClientState.init name rooms reservations) (tr₁ ++ x :: tr₂) st)
    (hnames : Meets (NamesPast env.rt) (tr₁ ++ x :: tr₂))
    (happart : (tr₁ ++ x :: tr₂).Pairwise (TellApart env.rt))
    (hanswer : answer? x.1 x.2.2 = some f) (hdrop : ¬ surfacedBy env x f) :
    ∃ y ∈ tr₁, ∃ g, answer? y.1 y.2.2 = some g ∧ SameAnswer g f ∧
      x.2.1 - y.2.1 < handledReplyWindowMs := by
  obtain ⟨st₁, hrun₁, hrest⟩ := hrun.split
  obtain ⟨rfl, -⟩ := hrest.head
  obtain ⟨id, hid, -⟩ := hnames x (by simp) f hanswer
  rcases clientStep_answer env x.2.1 hanswer hid with ⟨-, hsurfaced, -⟩ | ⟨-, hhandled, -⟩ | ⟨-, -, hnotes⟩
  · exact absurd hsurfaced hdrop
  · unfold isHandledReply at hhandled
    rw [Option.any_eq_true] at hhandled
    obtain ⟨ts, hget, hrecent⟩ := hhandled
    obtain ⟨y, hy, g, id', hg, hid', rfl, hkey⟩ :=
      remembered_run hinj hrun₁ hnames.left _ _ hget
    obtain ⟨rfl, hbody⟩ := replyKey_inj hdigest hkey
    have hrecent : x.2.1 - y.2.1 < handledReplyWindowMs := by simpa using hrecent
    have hto : g.replyTo = f.replyTo := hid'.trans hid.symm
    obtain ⟨hsender, hsame⟩ := List.pairwise_append.mp happart |>.2.2 y hy x (by simp) g f hg hanswer hto
      hrecent hbody
    exact ⟨y, hy, g, hg, ⟨hto, hsender, hsame⟩, hrecent⟩
  · exact absurd (.inl ⟨none, hnotes.emitted⟩) hdrop

/-! ### Surfacing once -/

/-- This answer was surfaced at this time: nobody waits for it or ever will, and it is
remembered. -/
structure Spent (env : ClientEnv) (id body : String) (ts : Int) (st : ClientState ν) : Prop where
  dead : st.book.pending.has id = false
  past : ∀ n, env.rt.makeMsgId n = id → n < st.ids
  handled : st.book.handledReplyTargets.get? (replyKey env.rt id body) = some ts

/-- The answer comes within the window after this time. -/
def Within (ts : Int) (st : ClientState ν) (e : Int × ClientEvent ν) : Prop :=
  ∀ f, answer? st e.2 = some f → e.1 - ts < handledReplyWindowMs

theorem Spent.isHandled {id body : String} {ts now : Int} (h : Spent env id body ts st)
    (hwithin : now - ts < handledReplyWindowMs) : isHandledReply env now st.book id body = true := by
  unfold isHandledReply
  rw [h.handled, Option.any_some, decide_eq_true_eq]
  exact hwithin

/-- Remembering another answer does not touch this one. -/
theorem Spent.remember {id id' body : String} {ts now : Int} {f : Inbound ν}
    (h : Spent env id body ts st)
    (hne : replyKey env.rt id body ≠ replyKey env.rt id' (f.body.getD ""))
    (hwithin : now - ts < handledReplyWindowMs) :
    (remember env now st.book.handledReplyTargets id' f).get? (replyKey env.rt id body) = some ts := by
  refine remember_keeps ?_ hwithin
  rw [Map.get?_set_ne _ _ hne]
  exact h.handled

theorem spent_step (hdigest : ∀ body, (env.rt.sha256 body).toList.length = 64) {id body : String}
    {ts : Int} {e : Int × ClientEvent ν} (h : Spent env id body ts st)
    (hwaits : Waits env.rt st.desk) (hnamed : NamesPast env.rt st e) (hwithin : Within ts st e) :
    Spent env id body ts (clientStep env e.1 st e.2) := by
  cases hanswer : answer? st e.2 with
  | none =>
      have hopens : Opens env.rt st (clientStep env e.1 st e.2) := clientStep_opens hwaits hanswer
      refine ⟨?_, fun n hn => Nat.lt_of_lt_of_le (h.past n hn) hopens.ids, by rw [hopens.handled, h.handled]⟩
      rw [Bool.eq_false_iff]
      intro hlive
      rcases hopens.entries id hlive with hlive | ⟨n, hn, hmade⟩
      · rw [h.dead] at hlive
        cases hlive
      · have := h.past n hmade
        omega
  | some f =>
      obtain ⟨id', hid', -⟩ := hnamed f hanswer
      have hrecent := hwithin f hanswer
      rcases clientStep_answer env e.1 hanswer hid' with
        ⟨hlive, -, out, hnotes⟩ | ⟨-, -, hnotes⟩ | ⟨-, hfresh, hnotes⟩
      · have hne : id ≠ id' := by
          rintro rfl
          rw [h.dead] at hlive
          cases hlive
        refine ⟨?_, fun n hn => by rw [hnotes.ids]; exact h.past n hn, ?_⟩
        · rw [PendingReplies.has, hnotes.entries, Map.has, Map.get?_delete_ne _ hne]
          exact h.dead
        · rw [hnotes.handled]
          exact h.remember (fun hkey => hne (replyKey_inj hdigest hkey).1) hrecent
      · refine ⟨?_, fun n hn => by rw [hnotes.ids]; exact h.past n hn, by rw [hnotes.handled, h.handled]⟩
        rw [PendingReplies.has, hnotes.entries]
        exact h.dead
      · refine ⟨?_, fun n hn => by rw [hnotes.ids]; exact h.past n hn, ?_⟩
        · rw [PendingReplies.has, hnotes.entries]
          exact h.dead
        · rw [hnotes.handled]
          refine h.remember ?_ hrecent
          intro hkey
          have hhandled := h.isHandled hrecent
          unfold isHandledReply at hhandled hfresh
          rw [hkey, hfresh] at hhandled
          cases hhandled

/-- Nothing was surfaced where nothing was emitted. -/
theorem not_surfaced {f : Inbound ν} (h : st'.emitted = st.emitted ++ []) : ¬ Surfaced st st' f := by
  rw [List.append_nil] at h
  rintro (⟨matched, hout⟩ | ⟨hout, -⟩)
  · rw [h] at hout
    simp at hout
  · rw [h] at hout
    simp at hout

/-- A surfaced answer is spent. -/
theorem surfaced_spends {x : ClientState ν × Int × ClientEvent ν} {f : Inbound ν} {id : String}
    (hanswer : answer? x.1 x.2.2 = some f) (hid : f.replyTo = some id)
    (hpast : ∀ n, env.rt.makeMsgId n = id → n < x.1.ids) (hsurfaced : surfacedBy env x f) :
    Spent env id (f.body.getD "") x.2.1 (clientStep env x.2.1 x.1 x.2.2) := by
  have hnow : (remember env x.2.1 x.1.book.handledReplyTargets id f).get?
      (replyKey env.rt id (f.body.getD "")) = some x.2.1 := by
    refine remember_keeps (Map.get?_set_self _ _ _) ?_
    rw [Int.sub_self]
    decide
  rcases clientStep_answer env x.2.1 hanswer hid with
    ⟨-, -, out, hnotes⟩ | ⟨-, -, hnotes⟩ | ⟨hdead, -, hnotes⟩
  · refine ⟨?_, fun n hn => by rw [hnotes.ids]; exact hpast n hn, by rw [hnotes.handled, hnow]⟩
    rw [PendingReplies.has, hnotes.entries, Map.has, Map.get?_delete_self]
    rfl
  · exact absurd hsurfaced (not_surfaced hnotes.emitted)
  · refine ⟨?_, fun n hn => by rw [hnotes.ids]; exact hpast n hn, by rw [hnotes.handled, hnow]⟩
    rw [PendingReplies.has, hnotes.entries]
    exact hdead

/-- What was surfaced is not surfaced again within the window. -/
theorem surfaced_once (hinj : Function.Injective env.rt.makeMsgId)
    (hdigest : ∀ body, (env.rt.sha256 body).toList.length = 64) {tr₁ tr₂ tr₃ : ClientTrace ν}
    {x y : ClientState ν × Int × ClientEvent ν} {f g : Inbound ν}
    (hrun : Run (ClientStep env) (ClientState.init name rooms reservations)
      (tr₁ ++ x :: (tr₂ ++ y :: tr₃)) st)
    (hnames : Meets (NamesPast env.rt) (tr₁ ++ x :: (tr₂ ++ y :: tr₃)))
    (hx : answer? x.1 x.2.2 = some f) (hy : answer? y.1 y.2.2 = some g) (hsame : SameAnswer f g)
    (hwithin : Meets (Within x.2.1) (tr₂ ++ [y])) (hsurfaced : surfacedBy env x f) :
    ¬ surfacedBy env y g := by
  obtain ⟨st₁, hrun₁, hrest⟩ := hrun.split
  obtain ⟨rfl, st₂, hstep, hrest⟩ := hrest.head
  have hstep : clientStep env x.2.1 x.1 x.2.2 = st₂ := hstep
  obtain ⟨st₃, hrun₂, hrest⟩ := hrest.split
  obtain ⟨rfl, -⟩ := hrest.head
  obtain ⟨id, hid, hpast⟩ := hnames x (by simp) f hx
  have hspent : Spent env id (f.body.getD "") x.2.1 st₂ := by
    rw [← hstep]
    exact surfaced_spends hx hid hpast hsurfaced
  have hwaits : Waits env.rt st₂.desk := by
    rw [← hstep]
    exact clientStep_waits hinj _ (waits_run hinj hrun₁)
  have hbetween : Meets (fun st e => NamesPast env.rt st e ∧ Within x.2.1 st e) tr₂ := by
    intro z hz
    exact ⟨hnames z (by simp [hz]), hwithin z (by simp [hz])⟩
  obtain ⟨hspent, -⟩ := hrun₂.invariant
    (P := fun st => Spent env id (f.body.getD "") x.2.1 st ∧ Waits env.rt st.desk) hbetween
    ⟨hspent, hwaits⟩ (by
      rintro st e st' ⟨hspent, hwaits⟩ ⟨hnamed, hwithin⟩ hstep
      have hstep : clientStep env e.1 st e.2 = st' := hstep
      rw [← hstep]
      exact ⟨spent_step hdigest hspent hwaits hnamed hwithin, clientStep_waits hinj _ hwaits⟩)
  have hidg : g.replyTo = some id := hsame.1.symm.trans hid
  have hrecent : y.2.1 - x.2.1 < handledReplyWindowMs := hwithin y (by simp) g hy
  have hhandled : isHandledReply env y.2.1 y.1.book id (g.body.getD "") = true := by
    rw [← hsame.2.2]
    exact hspent.isHandled hrecent
  rcases clientStep_answer env y.2.1 hy hidg with ⟨hlive, -⟩ | ⟨-, -, hnotes⟩ | ⟨-, hfresh, -⟩
  · rw [hspent.dead] at hlive
    cases hlive
  · exact not_surfaced hnotes.emitted
  · rw [hfresh] at hhandled
    cases hhandled

/-- Where no two peers give one message the same answer, and no answer comes before its
message, a reply is dropped only as a repetition, and an answer is surfaced at most once. -/
theorem replies_told_apart (hinj : Function.Injective env.rt.makeMsgId)
    (hdigest : ∀ body, (env.rt.sha256 body).toList.length = 64)
    (hrun : Run (ClientStep env) (ClientState.init name rooms reservations) tr st)
    (hnames : Meets (NamesPast env.rt) tr) (happart : tr.Pairwise (TellApart env.rt)) :
    (∀ tr₁ x tr₂ f, tr = tr₁ ++ x :: tr₂ → answer? x.1 x.2.2 = some f → ¬ surfacedBy env x f →
      ∃ y ∈ tr₁, ∃ g, answer? y.1 y.2.2 = some g ∧ SameAnswer g f ∧
        x.2.1 - y.2.1 < handledReplyWindowMs) ∧
    ∀ tr₁ x tr₂ y tr₃ f g, tr = tr₁ ++ x :: (tr₂ ++ y :: tr₃) → answer? x.1 x.2.2 = some f →
      answer? y.1 y.2.2 = some g → SameAnswer f g → Meets (Within x.2.1) (tr₂ ++ [y]) →
      surfacedBy env x f → ¬ surfacedBy env y g := by
  constructor
  · intro tr₁ x tr₂ f htr hanswer hdrop
    subst htr
    exact dropped_repeats hinj hdigest hrun hnames happart hanswer hdrop
  · intro tr₁ x tr₂ y tr₃ f g htr hx hy hsame hwithin hsurfaced
    subst htr
    exact surfaced_once hinj hdigest hrun hnames hx hy hsame hwithin hsurfaced

end Runs

/-- The reference client, with the digests of three texts. -/
def wordsClient : ClientEnv :=
  { referenceClient with
    rt := { referenceRuntime with
      sha256 := fun body =>
        if body = "done" then "a4c3ed04a95a3da14a9d235c83d868bed7c0f45cf7f3faa751ee8f50598d2211"
        else if body = "blocked" then "6973dddd3ef9cb6a2932702f31777faad9c9bf3124d147a84f31aadb6d139546"
        else if body = "status?" then "88d34acbad3d882693a33625e3d81041ba6f091f99a2139ca279dbcb8d1aba9f"
        else "e3b0c44298fc1c149afbf4c8996fb92427ae41e4649b934ca495991b7852b855" } }

theorem wordsClient_digest (body : String) : (wordsClient.rt.sha256 body).toList.length = 64 := by
  unfold wordsClient
  dsimp only
  split
  · rfl
  · split
    · rfl
    · split
      · rfl
      · rfl

/-- A reply of a peer to the first message of the client. -/
def replyOf (id sender body : String) : Inbound Int :=
  { inboundOf .reply id with
    sender := some sender, replyTo := some "m_lqulw000_00000001", body := some body }

/-- A question to all, and the answer of one. -/
def asksAll : List (Int × ClientEvent Int) :=
  connects 0 0 ++ [(2000, .call 1 (.send { broadcast := true, message := "status?" })),
    (2001, .line 0 { inboundOf .ack "m_lqulw000_00000001" with status := some "delivered" }),
    (2001, .microtask), (3000, .line 0 (replyOf "r_1" "bob" "done"))]

/-- The answer of another. -/
def answersMore : List (Int × ClientEvent Int) :=
  [(3500, .line 0 (replyOf "r_2" "carol" "blocked"))]

/-- What can be computed of `TellApart`. -/
def tellsApart (rt : Runtime) (x y : ClientState Int × Int × ClientEvent Int) : Bool :=
  match answer? x.1 x.2.2, answer? y.1 y.2.2 with
  | some f, some g =>
      !(decide (rt.sha256 (f.body.getD "") = rt.sha256 (g.body.getD ""))) ||
        (decide (f.sender = g.sender) && decide (f.body.getD "" = g.body.getD ""))
  | _, _ => true

theorem tellApart_of_check {rt : Runtime} {x y : ClientState Int × Int × ClientEvent Int}
    (h : tellsApart rt x y = true) : TellApart rt x y := by
  intro f g hf hg _ _ hdigest
  unfold tellsApart at h
  rw [hf, hg] at h
  simpa [hdigest] using h

/-- What can be computed of `NamesPast`, where all answers are to the first message. -/
def namesFirst (x : ClientState Int × Int × ClientEvent Int) : Bool :=
  (answer? x.1 x.2.2).all fun f =>
    decide (f.replyTo = some (referenceRuntime.makeMsgId 1)) && decide (1 < x.1.ids)

theorem namesPast_of_check {x : ClientState Int × Int × ClientEvent Int} (h : namesFirst x = true) :
    NamesPast wordsClient.rt x.1 x.2 := by
  intro f hf
  unfold namesFirst at h
  rw [hf, Option.all_some, Bool.and_eq_true, decide_eq_true_eq, decide_eq_true_eq] at h
  refine ⟨_, h.1, ?_⟩
  intro n hn
  rw [makeMsgId_injective hn]
  exact h.2

/-- A reply that reaches the client and makes it emit nothing is dropped. -/
theorem dropped_of_check (env : ClientEnv) (now : Int) {st : ClientState Int} (sock : ClientSocketId)
    (frame : Inbound Int) (htype : frame.type = .reply) (hreceipt : frame.receipt = false)
    (hlistens : st.listens sock = true)
    (hlength : (clientStep env now st (.line sock frame)).emitted.length = st.emitted.length) :
    answer? st (.line sock frame) = some frame ∧
      ¬ surfacedBy env (st, now, .line sock frame) frame := by
  refine ⟨by simp [answer?, hlistens, htype, hreceipt], ?_⟩
  rintro (⟨matched, hout⟩ | ⟨hout, -⟩)
  · have hout : (clientStep env now st (.line sock frame)).emitted = _ := hout
    rw [hout] at hlength
    simp at hlength
  · have hout : (clientStep env now st (.line sock frame)).emitted = _ := hout
    rw [hout] at hlength
    simp at hlength

/-- Bob repeats himself and is dropped; he had said so before. -/
theorem replies_told_apart_words : ∃ (tr : ClientTrace Int) (st : ClientState Int)
    (tr₁ : ClientTrace Int) (x : ClientState Int × Int × ClientEvent Int) (f : Inbound Int),
    Run (ClientStep wordsClient) aliceClient tr st ∧ tr = tr₁ ++ [x] ∧
    answer? x.1 x.2.2 = some f ∧ ¬ surfacedBy wordsClient x f ∧
    ∃ y ∈ tr₁, ∃ g, answer? y.1 y.2.2 = some g ∧ SameAnswer g f ∧
      x.2.1 - y.2.1 < handledReplyWindowMs := by
  have hcheck : (fun r : ClientTrace Int × ClientState Int =>
      decide ((r.1 ++ [(r.2, 4000, ClientEvent.line 0 (replyOf "r_3" "bob" "done"))]).Pairwise
        fun x y => tellsApart wordsClient.rt x y = true) &&
      decide (∀ x ∈ r.1 ++ [(r.2, 4000, .line 0 (replyOf "r_3" "bob" "done"))], namesFirst x = true) &&
      r.2.listens 0 &&
      decide ((clientStep wordsClient 4000 r.2 (.line 0 (replyOf "r_3" "bob" "done"))).emitted.length =
        r.2.emitted.length))
      (runClient wordsClient aliceClient (asksAll ++ answersMore)) = true := by
    decide +kernel
  have hbefore := run_runClient wordsClient aliceClient (asksAll ++ answersMore)
  generalize runClient wordsClient aliceClient (asksAll ++ answersMore) = r at hcheck hbefore
  simp only [Bool.and_eq_true, decide_eq_true_eq] at hcheck
  obtain ⟨⟨⟨happart, hnames⟩, hlistens⟩, hlength⟩ := hcheck
  obtain ⟨hanswer, hdrop⟩ :=
    dropped_of_check wordsClient 4000 0 (replyOf "r_3" "bob" "done") rfl rfl hlistens hlength
  have hrun := hbefore.snoc (e := (4000, .line 0 (replyOf "r_3" "bob" "done"))) rfl
  have hinj : Function.Injective wordsClient.rt.makeMsgId := makeMsgId_injective
  have hdropped := (replies_told_apart hinj wordsClient_digest hrun
    (fun x hx => namesPast_of_check (hnames x hx)) (happart.imp tellApart_of_check)).1
  exact ⟨_, _, r.1, _, _, hrun, rfl, hanswer, hdrop, hdropped r.1 _ [] _ rfl hanswer hdrop⟩

/-- Carol says the same as Bob, and nobody learns of it. -/
theorem second_speaker_dropped : ∃ (tr : ClientTrace Int) (st : ClientState Int)
    (tr₁ : ClientTrace Int) (x : ClientState Int × Int × ClientEvent Int) (f : Inbound Int),
    Run (ClientStep wordsClient) aliceClient tr st ∧ tr = tr₁ ++ [x] ∧
    answer? x.1 x.2.2 = some f ∧ ¬ surfacedBy wordsClient x f ∧
    ∀ y ∈ tr₁, ∀ g, answer? y.1 y.2.2 = some g → ¬ SameAnswer g f := by
  have hcheck : (fun r : ClientTrace Int × ClientState Int =>
      decide (∀ x ∈ r.1, (answer? x.1 x.2.2).all fun g => decide (g.sender ≠ some "carol")) &&
      r.2.listens 0 &&
      decide ((clientStep wordsClient 4000 r.2 (.line 0 (replyOf "r_2" "carol" "done"))).emitted.length =
        r.2.emitted.length))
      (runClient wordsClient aliceClient asksAll) = true := by
    decide +kernel
  have hbefore := run_runClient wordsClient aliceClient asksAll
  generalize runClient wordsClient aliceClient asksAll = r at hcheck hbefore
  simp only [Bool.and_eq_true, decide_eq_true_eq] at hcheck
  obtain ⟨⟨hothers, hlistens⟩, hlength⟩ := hcheck
  obtain ⟨hanswer, hdrop⟩ :=
    dropped_of_check wordsClient 4000 0 (replyOf "r_2" "carol" "done") rfl rfl hlistens hlength
  have hrun := hbefore.snoc (e := (4000, .line 0 (replyOf "r_2" "carol" "done"))) rfl
  refine ⟨_, _, _, _, _, hrun, rfl, hanswer, hdrop, ?_⟩
  intro y hy g hg hsame
  have hother := hothers y hy
  rw [hg, Option.all_some, decide_eq_true_eq] at hother
  exact hother hsame.2.1

end PiMesh
