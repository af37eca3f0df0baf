/-
A send that failed stays failed.

While the client is offline a message waits in the outbox and its call waits for the
acknowledgement.  The two are independent: the acknowledgement may be settled while the
message is still there, the caller is told that it failed, and the next welcome writes it.
Where no step settles a message that is still in the outbox, a message that was not written
when its call returned is never written: its waiter is gone, so it is not in the outbox, and
the only other way to a socket is a frame with a new id.
-/
import PiMesh.Proofs.Calls

namespace PiMesh

open Js Transition

variable {ν : Type} [Number ν]

/-! ### Messages that wait -/

/-- What `send` and `reply` write. -/
def ClientFrame.isMessage (f : ClientFrame) : Bool :=
  decide (f.type = .msg) || decide (f.type = .reply)

/-- A message with this id was written. -/
def ClientState.wrote (st : ClientState ν) (id : String) : Prop :=
  ∃ x ∈ st.sent, x.2.isMessage = true ∧ x.2.id = id

/-- What a send or a reply returned. -/
def CallResult.sendResult : CallResult ν → Option SendResult
  | .send r => some r
  | _ => none

/-- A step settles whoever waits for the acknowledgement with this id. -/
def settles (st : ClientState ν) : ClientEvent ν → String → Bool
  | .ackTimeout id', id => st.jobs.isEmpty && decide (id' = id)
  | .line _ frame, id =>
      (decide (frame.type = .ack) || decide (frame.type = .error)) && decide (frame.id = id)
  | e, _ => losesRequests st e

/-- A step gives a message up that is still in the outbox. -/
def abandons (st : ClientState ν) (e : ClientEvent ν) : Bool :=
  st.outbox.any fun f => f.isMessage && st.ackWaiters.has f.id && settles st e f.id

/-- Every message in the outbox has somebody who waits for it. -/
def Attended (st : ClientState ν) : Prop :=
  ∀ f ∈ st.outbox, f.isMessage = true → st.ackWaiters.has f.id = true

/-- A message with this id is not in the outbox, and no new one will have it. -/
structure Unqueued (rt : Runtime) (st : ClientState ν) (id : String) : Prop where
  made : Made rt st.ids id
  outbox : ∀ f ∈ st.outbox, f.isMessage = true → f.id ≠ id

/-! ### What a step does to messages -/

/-- A new message has a new id, and somebody waits for it; what is written was new or in the
outbox; a waiter stays unless it is settled. -/
structure Mails (env : ClientEnv) (e : ClientEvent ν) (st st' : ClientState ν) : Prop where
  ids : st.ids ≤ st'.ids
  outbox : ∀ f ∈ st'.outbox, f.isMessage = true → f ∈ st.outbox ∨
    f.id = env.rt.makeMsgId st.ids ∧ st.ids < st'.ids ∧ st'.ackWaiters.has f.id = true
  sent : ∀ x ∈ st'.sent, x.2.isMessage = true → x ∈ st.sent ∨ x.2 ∈ st.outbox ∨
    x.2.id = env.rt.makeMsgId st.ids ∧ st.ids < st'.ids
  waiters : ∀ id, st.ackWaiters.has id = true →
    st'.ackWaiters.has id = true ∨ settles st e id = true

section Step

variable {env : ClientEnv} {now : Int} {e : ClientEvent ν} {st st₁ st' : ClientState ν} {c : CallId}

namespace Mails

theorem of_same (hids : st.ids ≤ st'.ids) (houtbox : st'.outbox = st.outbox)
    (hsent : st'.sent = st.sent)
    (hwaiters : ∀ id, st.ackWaiters.has id = true →
      st'.ackWaiters.has id = true ∨ settles st e id = true) : Mails env e st st' := by
  refine ⟨hids, ?_, ?_, hwaiters⟩
  · intro f hf _
    rw [houtbox] at hf
    exact .inl hf
  · intro x hx _
    rw [hsent] at hx
    exact .inl hx

theorem refl (st : ClientState ν) : Mails env e st st :=
  of_same (Nat.le_refl _) rfl rfl fun _ h => .inl h

/-- What comes after touches neither messages nor waiters. -/
theorem after {st'' : ClientState ν} (h : Mails env e st st') (hids : st''.ids = st'.ids)
    (houtbox : st''.outbox = st'.outbox) (hsent : st''.sent = st'.sent)
    (hwaiters : st''.ackWaiters = st'.ackWaiters) : Mails env e st st'' := by
  refine ⟨?_, ?_, ?_, ?_⟩
  · rw [hids]
    exact h.ids
  · rw [houtbox, hids, hwaiters]
    exact h.outbox
  · rw [hsent, hids]
    exact h.sent
  · rw [hwaiters]
    exact h.waiters

/-- A frame that is no message is written. -/
theorem write {frame : ClientFrame} (hsame : st.outbox = st₁.outbox ∧ st.sent = st₁.sent)
    (hids : st.ids ≤ st₁.ids) (hw : writeOrQueue env st₁ frame = some st')
    (hwaiters : ∀ id, st.ackWaiters.has id = true → st₁.ackWaiters.has id = true)
    (hnew : frame.isMessage = true → frame.id = env.rt.makeMsgId st.ids ∧ st.ids < st₁.ids ∧
      st₁.ackWaiters.has frame.id = true) : Mails env e st st' := by
  obtain ⟨houtbox, hsent⟩ := hsame
  have hframe : ∀ f ∈ st₁.outbox ++ [frame], f.isMessage = true → f ∈ st.outbox ∨
      f.id = env.rt.makeMsgId st.ids ∧ st.ids < st₁.ids ∧ st₁.ackWaiters.has f.id = true := by
    intro f hf hmsg
    rcases List.mem_append.mp hf with hf | hf
    · rw [houtbox]
      exact .inl hf
    · rw [List.mem_singleton] at hf
      rw [hf] at hmsg ⊢
      exact .inr (hnew hmsg)
  unfold writeOrQueue at hw
  split at hw
  · split at hw
    · obtain rfl := Option.some.inj hw
      refine ⟨hids, ?_, ?_, fun id h => .inl (hwaiters id h)⟩
      · intro f hf hmsg
        exact hframe f (List.mem_append_left _ hf) hmsg
      · intro x hx hmsg
        rcases List.mem_append.mp hx with hx | hx
        · rw [hsent]
          exact .inl hx
        · rw [List.mem_singleton] at hx
          rw [hx] at hmsg ⊢
          obtain ⟨hid, hlt, -⟩ := hnew hmsg
          exact .inr (.inr ⟨hid, hlt⟩)
    · cases hw
  · split at hw
    · obtain rfl := Option.some.inj hw
      refine ⟨hids, hframe, ?_, fun id h => .inl (hwaiters id h)⟩
      intro x hx _
      rw [hsent]
      exact .inl hx
    · obtain rfl := Option.some.inj hw
      exact of_same hids houtbox.symm hsent.symm fun id h => .inl (hwaiters id h)

theorem booked {st'' : ClientState ν} (h : Mails env e st st') (hb : Booked st' st'') :
    Mails env e st st'' := h.after hb.ids hb.outbox hb.sent hb.ackWaiters

end Mails

theorem waiters_set {id : String} (h : st.ackWaiters.has id = true) (id' : String) (c : CallId) :
    (waitAck st id' c).ackWaiters.has id = true := by
  obtain ⟨c', hc'⟩ := (Map.has_iff _ _).mp h
  show (st.ackWaiters.set id' c).has id = true
  rw [Map.has_iff, Map.get?_set]
  split
  · exact ⟨c, rfl⟩
  · exact ⟨c', hc'⟩

theorem waiters_set_self (st : ClientState ν) (id : String) (c : CallId) :
    (waitAck st id c).ackWaiters.has id = true :=
  (Map.has_iff _ _).mpr ⟨c, Map.get?_set_self _ _ _⟩

/-- Another waiter stays. -/
theorem waiters_delete {id id' : String} (h : st.ackWaiters.has id = true) (hne : id' ≠ id) :
    (st.ackWaiters.delete id').has id = true := by
  obtain ⟨c, hc⟩ := (Map.has_iff _ _).mp h
  exact (Map.has_iff _ _).mpr ⟨c, by rw [Map.get?_delete_ne _ hne.symm]; exact hc⟩

/-- A request is issued: its waiter comes first, then its frame. -/
theorem issue_mails {frame : ClientFrame} {s : Stage} {r : CallResult ν}
    (hsame : st.outbox = st₁.outbox ∧ st.sent = st₁.sent) (hids : st.ids ≤ st₁.ids)
    (hwaiters : st₁.ackWaiters = st.ackWaiters)
    (hnew : frame.isMessage = true → frame.id = env.rt.makeMsgId st.ids ∧ st.ids < st₁.ids) :
    Mails env e st (match writeOrQueue env (waitAck st₁ frame.id c) frame with
      | some st => st.setStage c s
      | none => (waitAck st₁ frame.id c).finish c r) := by
  have hasked : ∀ id, st.ackWaiters.has id = true →
      (waitAck st₁ frame.id c).ackWaiters.has id = true := by
    intro id h
    rw [← hwaiters] at h
    exact waiters_set h frame.id c
  split
  · next st' hw =>
    have hwrite : Mails env e st st' := by
      refine Mails.write ?_ ?_ hw hasked ?_
      · exact hsame
      · exact hids
      · intro hmsg
        obtain ⟨hid, hlt⟩ := hnew hmsg
        exact ⟨hid, hlt, waiters_set_self st₁ frame.id c⟩
    exact hwrite.after rfl rfl rfl rfl
  · exact .of_same hids hsame.1.symm hsame.2.symm fun id h => .inl (hasked id h)

theorem issueSend_mails (hids : st₁.ids = st.ids) (houtbox : st₁.outbox = st.outbox)
    (hsent : st₁.sent = st.sent) (hwaiters : st₁.ackWaiters = st.ackWaiters) (plan : SendPlan) :
    Mails env e st (issueSend env now st₁ c plan) := by
  unfold issueSend
  extract_lets frame st₂ st₃ st₄
  have hbooked : Booked st₂ st₃ := by
    show Booked st₂ (if plan.awaitReply then registerMission st₂ now plan frame.id else st₂)
    split
    · exact registerMission_booked now st₂ plan frame.id
    · exact .refl st₂
  have hlt : st.ids < st₃.ids := by
    rw [hbooked.ids, ← hids]
    exact Nat.lt_succ_self _
  refine issue_mails ⟨?_, ?_⟩ (Nat.le_of_lt hlt) (hbooked.ackWaiters.trans hwaiters) ?_
  · exact (hbooked.outbox.trans houtbox).symm
  · exact (hbooked.sent.trans hsent).symm
  · intro _
    refine ⟨?_, hlt⟩
    show env.rt.makeMsgId st₁.ids = _
    rw [hids]

theorem issueReply_mails (hids : st₁.ids = st.ids) (houtbox : st₁.outbox = st.outbox)
    (hsent : st₁.sent = st.sent) (hwaiters : st₁.ackWaiters = st.ackWaiters) (plan : ReplyPlan) :
    Mails env e st (issueReply env now st₁ c plan) := by
  have hlt : st.ids < st₁.useId.ids := by
    rw [← hids]
    exact Nat.lt_succ_self _
  unfold issueReply
  split
  · refine .of_same (Nat.le_of_eq hids.symm) houtbox hsent ?_
    intro id h
    rw [← hwaiters] at h
    exact .inl h
  · refine issue_mails ⟨houtbox.symm, hsent.symm⟩ (Nat.le_of_lt hlt) hwaiters ?_
    intro _
    exact ⟨congrArg env.rt.makeMsgId hids, hlt⟩

/-- Flushing writes what is in the outbox. -/
theorem flushFrames_mails (env : ClientEnv) (n : Nat) (st : ClientState ν) :
    (∀ f ∈ (flushFrames env n st).1.outbox, f ∈ st.outbox) ∧
      ∀ x ∈ (flushFrames env n st).1.sent, x ∈ st.sent ∨ x.2 ∈ st.outbox := by
  induction n generalizing st with
  | zero => exact ⟨fun f h => h, fun x h => .inl h⟩
  | succ n ih =>
      unfold flushFrames
      split
      · exact ⟨fun f h => h, fun x h => .inl h⟩
      · next frame rest hout =>
        rw [hout]
        dsimp only
        split
        · split
          · next sock _ _ =>
            obtain ⟨ihout, ihsent⟩ := ih { st with outbox := rest, sent := st.sent ++ [(sock, frame)] }
            refine ⟨fun f h => List.mem_cons_of_mem _ (ihout f h), ?_⟩
            intro x hx
            rcases ihsent x hx with hx | hx
            · rcases List.mem_append.mp hx with hx | hx
              · exact .inl hx
              · rw [List.mem_singleton] at hx
                rw [hx]
                exact .inr (List.mem_cons_self ..)
            · exact .inr (List.mem_cons_of_mem _ hx)
          · exact ⟨fun f h => List.mem_cons_of_mem _ h, fun x h => .inl h⟩
        · obtain ⟨ihout, ihsent⟩ := ih { st with outbox := rest }
          refine ⟨fun f h => List.mem_cons_of_mem _ (ihout f h), ?_⟩
          intro x hx
          rcases ihsent x hx with hx | hx
          · exact .inl hx
          · exact .inr (List.mem_cons_of_mem _ hx)

theorem isMessage_of_type {f : ClientFrame} {t : MeshFrameType} (h : f.type = t) (hmsg : t ≠ .msg)
    (hreply : t ≠ .reply) : f.isMessage = false := by
  simp [ClientFrame.isMessage, h, hmsg, hreply]

theorem fits_isMessage {use : TripUse} {frame : ClientFrame} (h : use.fits frame) :
    frame.isMessage = false := by
  cases use with
  | reserve merged => exact isMessage_of_type h.1 (by simp) (by simp)
  | release merged releasing => exact isMessage_of_type h.1 (by simp) (by simp)
  | join room role => exact isMessage_of_type h (by simp) (by simp)
  | leave room => exact isMessage_of_type h (by simp) (by simp)

/-- Something that is no message is written to a socket. -/
theorem sent_mails {sock : ClientSocketId} {frame : ClientFrame} (hids : st.ids ≤ st'.ids)
    (houtbox : st'.outbox = st.outbox) (hsent : st'.sent = st.sent ++ [(sock, frame)])
    (hwaiters : st'.ackWaiters = st.ackWaiters) (hnot : frame.isMessage = false) :
    Mails env e st st' := by
  refine ⟨hids, ?_, ?_, ?_⟩
  · intro f hf _
    rw [houtbox] at hf
    exact .inl hf
  · intro x hx hmsg
    rw [hsent] at hx
    rcases List.mem_append.mp hx with hx | hx
    · exact .inl hx
    · rw [List.mem_singleton] at hx
      rw [hx, hnot] at hmsg
      cases hmsg
  · intro id h
    rw [hwaiters]
    exact .inl h

/-- A notice is written, or it cannot be. -/
theorem written_mails {frame : ClientFrame} (hsame : st.outbox = st₁.outbox ∧ st.sent = st₁.sent)
    (hids : st.ids ≤ st₁.ids) (hwaiters : st₁.ackWaiters = st.ackWaiters)
    (hnot : frame.isMessage = false) :
    Mails env e st ((writeOrQueue env st₁ frame).getD st₁) := by
  have hkeep : ∀ id, st.ackWaiters.has id = true → st₁.ackWaiters.has id = true := by
    intro id h
    rw [hwaiters]
    exact h
  cases hw : writeOrQueue env st₁ frame with
  | none => exact .of_same hids hsame.1.symm hsame.2.symm fun id h => .inl (hkeep id h)
  | some st' =>
      refine Mails.write hsame hids hw hkeep ?_
      intro hmsg
      rw [hnot] at hmsg
      cases hmsg

/-- An answer settles the waiter with its id. -/
theorem answer_mails {id : String} {ack : Ack}
    (hsame : st.outbox = st₁.outbox ∧ st.sent = st₁.sent ∧ st.ids = st₁.ids ∧
      st₁.ackWaiters = st.ackWaiters)
    (hsettles : settles st e id = true) :
    Mails env e st (ClientState.push { st₁ with ackWaiters := st₁.ackWaiters.delete id }
      [.acked c ack]) := by
  obtain ⟨houtbox, hsent, hids, hwaiters⟩ := hsame
  refine .of_same (Nat.le_of_eq hids) houtbox.symm hsent.symm ?_
  intro id' h
  by_cases heq : id = id'
  · rw [← heq]
    exact .inr hsettles
  · rw [← hwaiters] at h
    exact .inl (waiters_delete h heq)

theorem onFrame_mails {sock : ClientSocketId} (frame : Inbound ν)
    (hsame : (st₁.outbox, st₁.sent, st₁.ids, st₁.ackWaiters) =
      (st.outbox, st.sent, st.ids, st.ackWaiters)) :
    Mails env (.line sock frame) st (onFrame env now st₁ frame) := by
  simp only [Prod.mk.injEq] at hsame
  obtain ⟨houtbox, hsent, hids, hwaiters⟩ := hsame
  have hst₁ : Mails env (.line sock frame) st st₁ := by
    refine .of_same (Nat.le_of_eq hids.symm) houtbox hsent ?_
    intro id h
    rw [hwaiters]
    exact .inl h
  have hstatus : ∀ st₂ : ClientState ν, Mails env (.line sock frame) st st₂ →
      Mails env (.line sock frame) st (onStatus st₂ frame) := by
    intro st₂ h
    unfold onStatus
    split
    · exact h.after rfl rfl rfl rfl
    · exact h
  by_cases hack : frame.type = .ack
  · rw [onFrame, hack]
    show Mails env _ st (onAck st₁ frame)
    unfold onAck
    split
    · exact answer_mails ⟨houtbox.symm, hsent.symm, hids.symm, hwaiters⟩ (by simp [settles, hack])
    · split
      · have hpending := hst₁.booked (setPending_booked st₁
          (st₁.book.pending.cancel frame.id .droppedOffline))
        exact (hpending.booked (setMission_booked _ frame.id _)).after rfl rfl rfl rfl
      · exact hst₁
  · by_cases hres : frame.type = .statusRes
    · rw [onFrame, hres]
      exact hstatus _ (hst₁.after rfl rfl rfl rfl)
    · by_cases herror : frame.type = .error
      · rw [onFrame, herror]
        show Mails env _ st (onError st₁ frame)
        unfold onError
        dsimp only
        split
        · exact hstatus _ (answer_mails ⟨houtbox.symm, hsent.symm, hids.symm, hwaiters⟩
            (by simp [settles, herror]))
        · exact hstatus _ hst₁
      · exact hst₁.booked (onFrame_booked env now st₁ frame hack hres herror)

/-- Neither messages nor waiters are touched. -/
def SameMail (st st' : ClientState ν) : Prop :=
  (st'.ids, st'.outbox, st'.sent, st'.ackWaiters) = (st.ids, st.outbox, st.sent, st.ackWaiters)

theorem SameMail.mails (h : SameMail st st') : Mails env e st st' := by
  simp only [SameMail, Prod.mk.injEq] at h
  obtain ⟨hids, houtbox, hsent, hwaiters⟩ := h
  exact (Mails.refl st).after hids houtbox hsent hwaiters

theorem SameMail.trans {st'' : ClientState ν} (h : SameMail st st') (h' : SameMail st' st'') :
    SameMail st st'' := Eq.trans h' h

theorem Booked.sameMail (h : Booked st st') : SameMail st st' := by
  simp only [SameMail, Prod.mk.injEq]
  exact ⟨h.ids, h.outbox, h.sent, h.ackWaiters⟩

theorem Enters.sameMail (h : Enters st c e st₁) : SameMail st st₁ := by
  cases h with
  | calls hnew => rfl
  | resumes hjobs hj hstage hs => rfl

theorem handleAcked_sameMail (st : ClientState ν) (c : CallId) (ack : Ack) :
    SameMail st (handleAcked st c ack) := by
  have hfinish : ∀ (st' : ClientState ν) r, SameMail st st' → SameMail st (st'.finish c r) :=
    fun st' r h => h.trans rfl
  unfold handleAcked
  split
  · next plan id hs =>
    unfold sendAcked
    split
    · dsimp only
      split
      · exact hfinish _ _ (failMission_booked st id _).sameMail
      · rfl
    · split
      · rfl
      · split
        · exact hfinish _ _ (watch_booked st id _).sameMail
        · extract_lets st₁
          have hst₁ : SameMail st st₁ := by
            show SameMail st (if _ then _ else _)
            split
            · exact (setPending_booked st _).sameMail
            · rfl
          have hstage : SameMail st (st₁.setStage c (.sendReply plan id)) := hst₁.trans rfl
          exact hstage.trans (watch_booked _ id _).sameMail
  · unfold replyAcked
    split
    · rfl
    · split
      · rfl
      · rfl
  · unfold tripAcked
    split
    · split
      · rfl
      · rfl
    · split
      · rfl
      · rfl
    · split
      · rfl
      · rfl
    · split
      · dsimp only
        split
        · rfl
        · rfl
      · rfl
  · rfl

theorem handleResolved_sameMail (st : ClientState ν) (w : Watcher) (id : String) (r : Resolution ν) :
    SameMail st (handleResolved st w id r) := by
  unfold handleResolved
  split
  · exact (launchResolved_booked st id r).sameMail
  · split
    · unfold sendResolved
      dsimp only
      split
      · rfl
      · have hexpire : SameMail st (expireMission (st.dropTarget id) id) :=
          ((dropTarget_booked st id).trans (expireMission_booked _ id)).sameMail
        exact hexpire.trans rfl
      · rfl
      · rfl
    · rfl

theorem tickWaitAll_sameMail (env : ClientEnv) (now : Int) (st : ClientState ν) (c : CallId)
    (start deadline : Int) (targets : List String) (signal : Bool) :
    SameMail st (tickWaitAll env now st c start deadline targets signal) := by
  unfold tickWaitAll
  split
  · rfl
  · split
    · rfl
    · rfl

/-- What a round trip starts from; its frame is no message. -/
theorem trip_ready_mails {st₂ : ClientState ν} {use : TripUse} {frame : ClientFrame}
    (hfits : Fits st) (henters : Enters st c e st₁) (hready : TripReady env st₁ c use frame st₂) :
    st.ids ≤ st₂.ids ∧ ((st.outbox = st₂.outbox ∧ st.sent = st₂.sent) ∧
      st₂.ackWaiters = st.ackWaiters) ∧ frame.isMessage = false := by
  have hcalls := henters.mayMove.2.1
  have hmail := henters.sameMail
  simp only [SameMail, Prod.mk.injEq] at hmail
  obtain ⟨hids, houtbox, hsent, hwaiters⟩ := hmail
  rcases hready with ⟨rfl, -, hfit⟩ | ⟨rfl, hs⟩
  · exact ⟨Nat.le_trans (Nat.le_of_eq hids.symm) (Nat.le_succ _),
      ⟨⟨houtbox.symm, hsent.symm⟩, hwaiters⟩, fits_isMessage hfit⟩
  · rw [hcalls] at hs
    exact ⟨Nat.le_of_eq hids.symm, ⟨⟨houtbox.symm, hsent.symm⟩, hwaiters⟩,
      fits_isMessage (hfits c use frame hs)⟩

theorem startStatus_mails (room : Option String) :
    Mails env e st (startStatus env now st c room) := by
  unfold startStatus
  split
  · exact SameMail.mails rfl
  · extract_lets src frame src' st₁
    have hmsg : frame.isMessage = false := rfl
    have hst₁ : st.outbox = st₁.outbox ∧ st.sent = st₁.sent := ⟨rfl, rfl⟩
    split
    · next st₂ hw =>
      have hwrite : Mails env e st st₂ := by
        refine Mails.write hst₁ (Nat.le_succ _) hw (fun id h => h) ?_
        rw [hmsg]
        exact fun h => absurd h (by simp)
      exact hwrite.after rfl rfl rfl rfl
    · exact .of_same (Nat.le_succ _) rfl rfl fun id h => .inl h

/-- What an act does to messages. -/
theorem act_mails (hfits : Fits st) (hact : DeskAct env now st e st') : Mails env e st st' := by
  cases hact with
  | rest => exact .refl st
  | hello => exact sent_mails (Nat.le_succ _) rfl rfl rfl rfl
  | mute => exact .of_same (Nat.le_succ _) rfl rfl fun id h => .inl h
  | beat =>
      unfold handleHeartbeat
      split
      · split
        · exact sent_mails (Nat.le_succ _) rfl rfl rfl rfl
        · exact SameMail.mails rfl
      · exact SameMail.mails rfl
  | refuse hnew hr => exact SameMail.mails rfl
  | giveUp hjobs hj hstage hr => exact SameMail.mails rfl
  | wait hnew hs hnot => exact SameMail.mails rfl
  | waitTrip henters hid hfits =>
      have hmail := henters.sameMail
      simp only [SameMail, Prod.mk.injEq] at hmail
      obtain ⟨hids, houtbox, hsent, hwaiters⟩ := hmail
      refine .of_same ?_ houtbox hsent ?_
      · exact Nat.le_trans (Nat.le_of_eq hids.symm) (Nat.le_succ _)
      · intro id h
        rw [← hwaiters] at h
        exact .inl h
  | send henters hplan =>
      have hmail := henters.sameMail
      simp only [SameMail, Prod.mk.injEq] at hmail
      obtain ⟨hids, houtbox, hsent, hwaiters⟩ := hmail
      exact issueSend_mails hids houtbox hsent hwaiters _
  | reply henters =>
      have hmail := henters.sameMail
      simp only [SameMail, Prod.mk.injEq] at hmail
      obtain ⟨hids, houtbox, hsent, hwaiters⟩ := hmail
      exact issueReply_mails hids houtbox hsent hwaiters _
  | trip henters hready =>
      rename_i c st₁ st₂ use frame
      obtain ⟨hids, hmail, hmsg⟩ := trip_ready_mails hfits henters hready
      exact issue_mails hmail.1 hids hmail.2 (by rw [hmsg]; exact fun h => absurd h (by simp))
  | tripFailed henters hready =>
      obtain ⟨hids, ⟨⟨houtbox, hsent⟩, hwaiters⟩, -⟩ := trip_ready_mails hfits henters hready
      refine .of_same hids houtbox.symm hsent.symm ?_
      intro id h
      rw [← hwaiters] at h
      exact .inl h
  | status hnew hon => exact startStatus_mails _
  | detach henters hde =>
      rename_i c st₁
      have hstage : SameMail st (st₁.setStage c .rename) := henters.sameMail.trans rfl
      exact (hstage.trans (setPending_booked _ _).sameMail).mails
  | closing hnew | close hnew =>
      refine SameMail.mails ?_
      exact (setPending_booked st (st.book.pending.cancelAll .shuttingDown)).sameMail
  | waitAll hnew =>
      unfold startWaitAll
      dsimp only
      split
      · exact SameMail.mails rfl
      · refine SameMail.mails ?_
        exact tickWaitAll_sameMail env now _ _ _ _ _ _
  | cancelAll hnew =>
      refine SameMail.mails ?_
      exact (cancelAllAwaited_booked st).sameMail
  | notice hnew hframe =>
      rename_i c op frame
      have hmsg : frame.isMessage = false := by
        simp only [ClientFrame.isNotice, Bool.or_eq_true, decide_eq_true_eq] at hframe
        rcases hframe with hframe | hframe
        · exact isMessage_of_type hframe (by simp) (by simp)
        · exact isMessage_of_type hframe (by simp) (by simp)
      have hnotice : Mails env (.call c op) st (sendNotice env st frame) := by
        unfold sendNotice
        split
        · exact written_mails ⟨rfl, rfl⟩ (Nat.le_succ _) rfl hmsg
        · exact .refl st
      exact hnotice.after rfl rfl rfl rfl
  | abort =>
      unfold handleAbort
      dsimp only
      split
      · split
        · refine SameMail.mails ?_
          exact (setPending_booked _ _).sameMail
        · exact SameMail.mails rfl
      · exact SameMail.mails rfl
      · exact SameMail.mails rfl
  | acked hjobs =>
      refine SameMail.mails ?_
      exact handleAcked_sameMail st.pop _ _
  | resolved hjobs =>
      refine SameMail.mails ?_
      exact handleResolved_sameMail st.pop _ _ _
  | lost hloses =>
      have hpaper := loseRequests_paper st
      refine .of_same (Nat.le_of_eq hpaper.ids.symm) hpaper.outbox hpaper.sent ?_
      intro id _
      refine .inr ?_
      cases e with
      | ackTimeout id' => cases hloses
      | line sock frame => cases hloses
      | _ => exact hloses
  | flush hjobs =>
      obtain ⟨houtbox, hsent⟩ := flushFrames_mails env (min st.outbox.length outboxFlushCap) st
      obtain ⟨outbox, sent, heq⟩ := flushFrames_eq env (min st.outbox.length outboxFlushCap) st
      refine ⟨?_, fun f hf _ => .inl (houtbox f hf), ?_, ?_⟩
      · show st.ids ≤ (flushFrames env _ st).1.ids
        rw [heq]
      · intro x hx _
        rcases hsent x hx with hx | hx
        · exact .inl hx
        · exact .inr (.inl hx)
      · intro id h
        refine .inl ?_
        show (flushFrames env _ st).1.ackWaiters.has id = true
        rw [heq]
        exact h
  | line hread => exact onFrame_mails _ rfl
  | ackTimeout hjobs =>
      unfold handleAckTimeout
      split
      · exact answer_mails ⟨rfl, rfl, rfl, rfl⟩ (by simp [settles, hjobs])
      · exact SameMail.mails rfl
  | statusTimeout hjobs =>
      unfold handleStatusTimeout
      split
      · exact SameMail.mails rfl
      · exact SameMail.mails rfl
  | expire hjobs =>
      refine SameMail.mails ?_
      exact (setPending_booked st.idle _).sameMail
  | remind hjobs =>
      unfold handleRemind
      dsimp only
      split
      · unfold sendRemind
        split
        · exact SameMail.mails rfl
        · split
          · exact SameMail.mails rfl
          · exact written_mails ⟨rfl, rfl⟩ (Nat.le_refl _) rfl rfl
      · exact SameMail.mails rfl
  | tick hjobs =>
      unfold handleTick
      split
      · refine SameMail.mails ?_
        exact tickWaitAll_sameMail env now st.idle _ _ _ _ _
      · exact SameMail.mails rfl

theorem clientStep_mails (hfits : Fits st) (e : ClientEvent ν) :
    Mails env e st (clientStep env now st e) := by
  obtain ⟨st₁, hact, hdesk⟩ := clientStep_act env now st e
  exact (act_mails hfits hact).after (congrArg Desk.ids hdesk) (congrArg Desk.outbox hdesk)
    (congrArg Desk.sent hdesk) (congrArg Desk.ackWaiters hdesk)

/-! ### A message that is gone stays gone -/

/-- Who waits for which acknowledgement, and which frames wait. -/
structure Filed (rt : Runtime) (st : ClientState ν) : Prop where
  waits : Waits rt st.desk
  fits : Fits st

theorem clientStep_filed (hinj : Function.Injective env.rt.makeMsgId) (h : Filed env.rt st)
    (e : ClientEvent ν) : Filed env.rt (clientStep env now st e) :=
  ⟨clientStep_waits hinj e h.waits, (clientStep_calls h.waits e).fits h.fits⟩

theorem Mails.gone (hinj : Function.Injective env.rt.makeMsgId) {id : String}
    (h : Mails env e st st') (hgone : Unqueued env.rt st id) : Unqueued env.rt st' id := by
  refine ⟨hgone.made.mono h.ids, ?_⟩
  intro f hf hmsg heq
  rcases h.outbox f hf hmsg with hf | ⟨hid, -, -⟩
  · exact hgone.outbox f hf hmsg heq
  · rw [heq] at hid
    exact not_made hinj st.ids (hid ▸ hgone.made)

theorem Mails.unwritten (hinj : Function.Injective env.rt.makeMsgId) {id : String}
    (h : Mails env e st st') (hgone : Unqueued env.rt st id) (hnot : ¬ st.wrote id) :
    ¬ st'.wrote id := by
  rintro ⟨x, hx, hmsg, heq⟩
  rcases h.sent x hx hmsg with hx | hx | ⟨hid, -⟩
  · exact hnot ⟨x, hx, hmsg, heq⟩
  · exact hgone.outbox x.2 hx hmsg heq
  · rw [heq] at hid
    exact not_made hinj st.ids (hid ▸ hgone.made)

/-- Where nothing in the outbox is given up, everything there has its waiter. -/
theorem Mails.attended (h : Mails env e st st') (hatt : Attended st) (hkeeps : abandons st e = false) :
    Attended st' := by
  intro f hf hmsg
  rcases h.outbox f hf hmsg with hf | ⟨-, -, hwaiter⟩
  · have hwaiter := hatt f hf hmsg
    rcases h.waiters f.id hwaiter with hw | hsettles
    · exact hw
    · simp only [abandons, List.any_eq_false, Bool.and_eq_true, not_and] at hkeeps
      exact absurd hsettles (hkeeps f hf ⟨hmsg, hwaiter⟩)
  · exact hwaiter

/-- A call that has its acknowledgement has no message in the outbox. -/
theorem gone_of_acked {s : Stage} {id : String} {ack : Ack} {rest : List (Job ν)}
    (h : Waits env.rt st.desk) (hatt : Attended st) (hs : st.calls.get? c = some s)
    (hid : s.ackId = some id) (hjobs : st.jobs = .acked c ack :: rest) : Unqueued env.rt st id := by
  have hacked : c ∈ st.desk.acked := by
    rw [acked_desk, hjobs]
    exact List.mem_cons_self ..
  have howns : Owns st.desk c id := .inl ⟨s, hs, ownId_of_ackId hid⟩
  refine ⟨h.stages c s id hs (ownId_of_ackId hid), ?_⟩
  intro f hf hmsg heq
  obtain ⟨c', hc'⟩ := (Map.has_iff _ _).mp (hatt f hf hmsg)
  rw [heq] at hc'
  have hsame : c' = c := h.owner c' c id (.inr hc') howns
  rw [hsame] at hc'
  exact (h.acked c hacked).1 id hc'

end Step

/-! ### Every run -/

/-- In this run the call has sent a message with this id. -/
def Sends (tr : ClientTrace ν) (c : CallId) (id : String) : Prop :=
  ∃ x ∈ tr, (∃ plan, x.1.calls.get? c = some (.sendAck plan id)) ∨
    x.1.calls.get? c = some (.replyAck id)

section Runs

variable {env : ClientEnv} {name : String} {rooms : List String}
  {reservations : List FileReservation} {tr tr' : ClientTrace ν} {st st' : ClientState ν} {c : CallId}
  {id : String}

theorem filed_init (rt : Runtime) (name : String) (rooms : List String)
    (reservations : List FileReservation) :
    Filed rt (ClientState.init (ν := ν) name rooms reservations) := by
  refine ⟨waits_init rt name rooms reservations, ?_⟩
  intro c use frame hs
  cases hs

/-- A message that is in the hands of its call, or gone. -/
def Kept (rt : Runtime) (st : ClientState ν) (c : CallId) (id : String) : Prop :=
  (∃ s, st.calls.get? c = some s ∧ s.ackId = some id) ∨ Unqueued rt st id

theorem kept_step (hinj : Function.Injective env.rt.makeMsgId) {now : Int} {e : ClientEvent ν}
    (hfiled : Filed env.rt st) (hatt : Attended st) (h : Kept env.rt st c id) :
    Kept env.rt (clientStep env now st e) c id := by
  have hmails : Mails env e st (clientStep env now st e) := clientStep_mails hfiled.fits e
  rcases h with ⟨s, hs, hid⟩ | hgone
  · rcases (clientStep_calls hfiled.waits e).stays c s hs with hs' | hnone | ⟨-, ack, rest, hjobs⟩
    · exact .inl ⟨s, hs', hid⟩
    · rw [hid] at hnone
      cases hnone
    · exact .inr (hmails.gone hinj (gone_of_acked hfiled.waits hatt hs hid hjobs))
  · exact .inr (hmails.gone hinj hgone)

/-- In every run that gives up nothing in the outbox. -/
theorem kept_run (hinj : Function.Injective env.rt.makeMsgId)
    (hrun : Run (ClientStep env) (ClientState.init name rooms reservations) tr st)
    (hsafe : Meets (fun st e => abandons st e.2 = false) tr) :
    Filed env.rt st ∧ Attended st ∧ ∀ c id, Sends tr c id → Kept env.rt st c id := by
  refine hrun.along (P := fun tr st => Filed env.rt st ∧ Attended st ∧
    ∀ c id, Sends tr c id → Kept env.rt st c id) hsafe ⟨filed_init _ _ _ _, ?_, ?_⟩ ?_
  · intro f hf
    cases hf
  · rintro c id ⟨x, hx, _⟩
    cases hx
  · rintro tr st e st' _ _ ⟨hfiled, hatt, hkept⟩ hkeeps hstep
    have hstep : clientStep env e.1 st e.2 = st' := hstep
    subst hstep
    have hmails : Mails env e.2 st (clientStep env e.1 st e.2) := clientStep_mails hfiled.fits e.2
    refine ⟨clientStep_filed hinj hfiled e.2, hmails.attended hatt hkeeps, ?_⟩
    rintro c id ⟨x, hx, hsends⟩
    refine kept_step hinj hfiled hatt ?_
    rcases List.mem_append.mp hx with hx | hx
    · exact hkept c id ⟨x, hx, hsends⟩
    · rw [List.mem_singleton] at hx
      rw [hx] at hsends
      rcases hsends with ⟨plan, hs⟩ | hs
      · exact .inl ⟨_, hs, rfl⟩
      · exact .inl ⟨_, hs, rfl⟩

/-- A call that has returned has returned for good. -/
theorem returned_run (hinj : Function.Injective env.rt.makeMsgId) (hfiled : Filed env.rt st)
    {r : CallResult ν} (hr : st.results.get? c = some r) (hrun : Run (ClientStep env) st tr st') :
    Filed env.rt st' ∧ st'.results.get? c = some r := by
  refine hrun.invariant (P := fun st => Filed env.rt st ∧ st.results.get? c = some r)
    (Meets.trivial tr) ⟨hfiled, hr⟩ ?_
  rintro st e st' ⟨hfiled, hr⟩ _ hstep
  have hstep : clientStep env e.1 st e.2 = st' := hstep
  subst hstep
  exact ⟨clientStep_filed hinj hfiled e.2, (clientStep_calls hfiled.waits e.2).results c r hr⟩

/-- What a call has sent before it returned is all that it ever sends. -/
theorem sends_before (hinj : Function.Injective env.rt.makeMsgId) (hfiled : Filed env.rt st)
    {r : CallResult ν} (hr : st.results.get? c = some r) (hmore : Run (ClientStep env) st tr' st')
    (h : Sends (tr ++ tr') c id) : Sends tr c id := by
  obtain ⟨x, hx, hsends⟩ := h
  rcases List.mem_append.mp hx with hx | hx
  · exact ⟨x, hx, hsends⟩
  · obtain ⟨tr₁, tr₂, -, hrun⟩ := hmore.of_mem hx
    obtain ⟨hfiled', hr'⟩ := returned_run hinj hfiled hr hrun
    have hnone : ∀ s, x.1.calls.get? c ≠ some s := by
      intro s hs
      have := hfiled'.waits.apart c s hs
      rw [show x.1.desk.results.get? c = some r from hr'] at this
      cases this
    rcases hsends with ⟨plan, hs⟩ | hs
    · exact absurd hs (hnone _)
    · exact absurd hs (hnone _)

/-- A message that was not written when its call returned is never written. -/
theorem failed_stays_failed (hinj : Function.Injective env.rt.makeMsgId)
    (hrun : Run (ClientStep env) (ClientState.init name rooms reservations) tr st)
    (hsafe : Meets (fun st e => abandons st e.2 = false) tr) (hreturned : st.results.has c = true)
    (hmore : Run (ClientStep env) st tr' st') (hsends : Sends (tr ++ tr') c id)
    (hnot : ¬ st.wrote id) : ¬ st'.wrote id := by
  obtain ⟨hfiled, -, hkept⟩ := kept_run hinj hrun hsafe
  obtain ⟨r, hr⟩ := (Map.has_iff _ _).mp hreturned
  have hgone : Unqueued env.rt st id := by
    rcases hkept c id (sends_before hinj hfiled hr hmore hsends) with ⟨s, hs, -⟩ | hgone
    · have hnone := hfiled.waits.apart c s hs
      rw [show st.desk.results.get? c = some r from hr] at hnone
      cases hnone
    · exact hgone
  refine (hmore.invariant (P := fun st => Fits st ∧ Waits env.rt st.desk ∧ Unqueued env.rt st id ∧
    ¬ st.wrote id) (Meets.trivial tr') ⟨hfiled.fits, hfiled.waits, hgone, hnot⟩ ?_).2.2.2
  rintro st e st' ⟨hfits, hwaits, hgone, hnot⟩ _ hstep
  have hstep : clientStep env e.1 st e.2 = st' := hstep
  subst hstep
  have hmails : Mails env e.2 st (clientStep env e.1 st e.2) := clientStep_mails hfits e.2
  exact ⟨(clientStep_calls hwaits e.2).fits hfits, clientStep_waits hinj e.2 hwaits,
    hmails.gone hinj hgone, hmails.unwritten hinj hgone hnot⟩

end Runs

instance (st : ClientState ν) (id : String) : Decidable (st.wrote id) :=
  inferInstanceAs (Decidable (∃ x ∈ st.sent, x.2.isMessage = true ∧ x.2.id = id))

/-- A call at this stage waits for the ack of message `id`. -/
def awaitsAckOf (id : String) : Option Stage → Bool
  | some (.sendAck _ id') => decide (id' = id)
  | _ => false

theorem stage_of_awaitsAckOf {id : String} {s : Option Stage} (h : awaitsAckOf id s = true) :
    ∃ plan, s = some (.sendAck plan id) := by
  unfold awaitsAckOf at h
  split at h
  · next plan id' =>
    rw [of_decide_eq_true h]
    exact ⟨plan, rfl⟩
  · cases h

/-- The socket fails before a message can be written, a rename dials another, and the client
is closed before that one is flushed; then nobody acknowledges the message. -/
def givenUp : List (Int × ClientEvent Int) :=
  connects 0 0 ++ [(2000, .failed 0),
    (2001, .call 1 (.send { recipient := some "carol", message := "hi" })),
    (2002, .call 2 (.rename "bob")), (2003, .connected 1),
    (2004, .line 1 (inboundOf .welcome "w")), (2004, .call 3 .close), (2004, .microtask),
    (2004, .microtask), (7001, .ackTimeout "m_lqulw000_00000001"), (7001, .microtask)]

theorem failed_stays_failed_closed : ∃ (tr tr' : ClientTrace Int) (st st' : ClientState Int),
    Run (ClientStep referenceClient) aliceClient tr st ∧
    Run (ClientStep referenceClient) st tr' st' ∧ st'.conn.online = true ∧
    (st.results.get? 1).bind CallResult.sendResult =
      some (.error (some "m_lqulw000_00000001") "timeout") ∧
    Sends tr 1 "m_lqulw000_00000001" ∧ ¬ st'.wrote "m_lqulw000_00000001" := by
  have hcheck : (fun r : ClientTrace Int × ClientState Int =>
      decide (∀ x ∈ r.1, abandons x.1 x.2.2 = false) &&
      decide ((r.2.results.get? 1).bind CallResult.sendResult =
        some (.error (some "m_lqulw000_00000001") "timeout")) &&
      r.1.any (fun x => awaitsAckOf "m_lqulw000_00000001" (x.1.calls.get? 1)) &&
      decide (¬ r.2.wrote "m_lqulw000_00000001") && r.2.results.has 1 &&
      (runClient referenceClient r.2 (connects 4 2)).2.conn.online)
      (runClient referenceClient aliceClient givenUp) = true := by
    decide +kernel
  simp only [Bool.and_eq_true, decide_eq_true_eq, List.any_eq_true] at hcheck
  obtain ⟨⟨⟨⟨⟨hsafe, hresult⟩, x, hx, hstage⟩, hnot⟩, hreturned⟩, hon⟩ := hcheck
  have hrun := run_runClient referenceClient aliceClient givenUp
  have hmore := run_runClient referenceClient (runClient referenceClient aliceClient givenUp).2
    (connects 4 2)
  have hsends : Sends (runClient referenceClient aliceClient givenUp).1 1 "m_lqulw000_00000001" := by
    obtain ⟨plan, hs⟩ := stage_of_awaitsAckOf hstage
    exact ⟨x, hx, .inl ⟨plan, hs⟩⟩
  have hsends' : Sends ((runClient referenceClient aliceClient givenUp).1 ++
      (runClient referenceClient (runClient referenceClient aliceClient givenUp).2
        (connects 4 2)).1) 1 "m_lqulw000_00000001" := by
    obtain ⟨y, hy, hstage⟩ := hsends
    exact ⟨y, List.mem_append_left _ hy, hstage⟩
  exact ⟨_, _, _, _, hrun, hmore, hon, hresult, hsends,
    failed_stays_failed makeMsgId_injective hrun hsafe hreturned hmore hsends' hnot⟩

/-- The socket fails before a message can be written, and then its `close` comes. -/
def lostConnection : List (Int × ClientEvent Int) :=
  connects 0 0 ++ [(2000, .failed 0),
    (2001, .call 1 (.send { recipient := some "carol", message := "hi" })), (2002, .closed 0),
    (2002, .microtask)]

/-- The backoff timer brings the client back. -/
def comesBack : List (Int × ClientEvent Int) :=
  [(3000, .backoff 0), (3001, .connected 1), (3002, .line 1 (inboundOf .welcome "w")),
    (3002, .microtask)]

/-- The send has returned an error, and then its message is written. -/
theorem failed_send_is_written : ∃ (tr tr' : ClientTrace Int) (st st' : ClientState Int),
    Run (ClientStep referenceClient) aliceClient tr st ∧
    Run (ClientStep referenceClient) st tr' st' ∧
    (st.results.get? 1).bind CallResult.sendResult =
      some (.error (some "m_lqulw000_00000001") "internal") ∧
    ¬ st.wrote "m_lqulw000_00000001" ∧ st'.wrote "m_lqulw000_00000001" := by
  have hcheck : (fun r : ClientTrace Int × ClientState Int =>
      decide ((r.2.results.get? 1).bind CallResult.sendResult =
        some (.error (some "m_lqulw000_00000001") "internal")) &&
      decide (¬ r.2.wrote "m_lqulw000_00000001") &&
      decide ((runClient referenceClient r.2 comesBack).2.wrote "m_lqulw000_00000001"))
      (runClient referenceClient aliceClient lostConnection) = true := by
    decide +kernel
  simp only [Bool.and_eq_true, decide_eq_true_eq] at hcheck
  obtain ⟨⟨hresult, hnot⟩, hwrote⟩ := hcheck
  exact ⟨_, _, _, _, run_runClient referenceClient aliceClient lostConnection,
    run_runClient referenceClient _ comesBack, hresult, hnot, hwrote⟩

end PiMesh
