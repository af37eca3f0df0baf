/-
What changes the rooms and the reservations of a client.

Its rooms, its roles and its reservations change where the acknowledgement of a round trip is
handled, and where the host forgets a room.  Everything else leaves them alone, and so the
round trips under way are what a proof about them has to follow: a round trip is that of the
method that was called, for as long as its call has not returned.
-/
import PiMesh.Proofs.Calls

namespace PiMesh

open Js Transition

variable {ν : Type} [Number ν]

/-- The rooms, the roles and the reservations. -/
def ClientState.holdings (st : ClientState ν) := (st.joinedRooms, st.roomRoles, st.ownReservations)

/-- The methods that make a round trip. -/
inductive TripKind where
  | reserve | release | join | leave
deriving DecidableEq

def TripUse.kind : TripUse → TripKind
  | .reserve _ => .reserve
  | .release _ _ => .release
  | .join _ _ => .join
  | .leave _ => .leave

def Stage.trip : Stage → Option TripKind
  | .reserveConnect _ _ => some .reserve
  | .releaseConnect _ _ => some .release
  | .tripConnect use _ => some use.kind
  | .tripAck use _ => some use.kind
  | _ => none

def Op.trip : Op → Option TripKind
  | .reserve _ _ => some .reserve
  | .release _ => some .release
  | .join _ _ => some .join
  | .leave _ => some .leave
  | _ => none

/-- The round trip of a call. -/
def ClientState.trip (st : ClientState ν) (c : CallId) : Option TripKind :=
  (st.calls.get? c).bind Stage.trip

/-- The holdings are left alone, and a round trip is the old one of its call, or that of the
method that is called. -/
structure HeldSame (e : ClientEvent ν) (st st' : ClientState ν) : Prop where
  held : st'.holdings = st.holdings
  trips : ∀ c, st'.trip c = none ∨ st'.trip c = st.trip c ∨
    ∃ op, e = .call c op ∧ st'.trip c = op.trip

/-- The stage may be that of the call. -/
def MayTrip (e : ClientEvent ν) (st : ClientState ν) (c : CallId) (kind : Option TripKind) : Prop :=
  kind = none ∨ kind = st.trip c ∨ ∃ op, e = .call c op ∧ kind = op.trip

/-! ### Pieces -/

section Pieces

variable {e : ClientEvent ν} {st st' st'' : ClientState ν} {c : CallId}

theorem trip_finish (st : ClientState ν) (c : CallId) (r : CallResult ν) (c' : CallId) :
    (st.finish c r).trip c' = if c' = c then none else st.trip c' := by
  have hcalls : (st.finish c r).calls.get? c' = if c' = c then none else st.calls.get? c' :=
    Map.get?_delete ..
  unfold ClientState.trip
  rw [hcalls]
  split
  · rfl
  · rfl

theorem trip_setStage (st : ClientState ν) (c : CallId) (s : Stage) (c' : CallId) :
    (st.setStage c s).trip c' = if c' = c then s.trip else st.trip c' := by
  have hcalls : (st.setStage c s).calls.get? c' = if c' = c then some s else st.calls.get? c' :=
    Map.get?_set ..
  unfold ClientState.trip
  rw [hcalls]
  split
  · rfl
  · rfl

theorem trip_of_stage {s : Stage} (h : st.calls.get? c = some s) : st.trip c = s.trip := by
  unfold ClientState.trip
  rw [h]
  rfl

namespace HeldSame

theorem of_same (hheld : st'.holdings = st.holdings) (hcalls : st'.calls = st.calls) :
    HeldSame e st st' := by
  refine ⟨hheld, fun c => .inr (.inl ?_)⟩
  unfold ClientState.trip
  rw [hcalls]

theorem refl (e : ClientEvent ν) (st : ClientState ν) : HeldSame e st st := .of_same rfl rfl

theorem of_link (h : Link st st') : HeldSame e st st' :=
  .of_same (by rw [h.rest]; rfl) h.calls

theorem of_booked (h : Booked st st') (hheld : st'.holdings = st.holdings) : HeldSame e st st' :=
  .of_same hheld h.calls

theorem finish (h : HeldSame e st st') (c : CallId) (r : CallResult ν) :
    HeldSame e st (st'.finish c r) := by
  refine ⟨h.held, fun c' => ?_⟩
  rw [trip_finish]
  split
  · exact .inl rfl
  · exact h.trips c'

theorem setStage {s : Stage} (h : HeldSame e st st') (hs : MayTrip e st c s.trip) :
    HeldSame e st (st'.setStage c s) := by
  refine ⟨h.held, fun c' => ?_⟩
  rw [trip_setStage]
  by_cases heq : c' = c
  · rw [if_pos heq, heq]
    exact hs
  · rw [if_neg heq]
    exact h.trips c'

/-- A call returns, and nothing else of this changed. -/
theorem finish_of (hheld : st'.holdings = st.holdings) (hcalls : st'.calls = st.calls) (c : CallId)
    (r : CallResult ν) : HeldSame e st (st'.finish c r) :=
  (of_same hheld hcalls).finish c r

theorem after (h : HeldSame e st st') (hheld : st''.holdings = st'.holdings)
    (hcalls : st''.calls = st'.calls) : HeldSame e st st'' := by
  refine ⟨hheld.trans h.held, fun c => ?_⟩
  have htrip : st''.trip c = st'.trip c := by
    unfold ClientState.trip
    rw [hcalls]
  rw [htrip]
  exact h.trips c

theorem after_link (h : HeldSame e st st') (hlink : Link st' st'') : HeldSame e st st'' :=
  h.after (by rw [hlink.rest]; rfl) hlink.calls

/-- The same, from a state that differs in nothing of this. -/
theorem before (h : HeldSame e st' st'') (hheld : st'.holdings = st.holdings)
    (hcalls : st'.calls = st.calls) : HeldSame e st st'' := by
  refine ⟨h.held.trans hheld, fun c => ?_⟩
  have htrip : st'.trip c = st.trip c := by
    unfold ClientState.trip
    rw [hcalls]
  rw [← htrip]
  exact h.trips c

end HeldSame

end Pieces

/-! ### Bookkeeping -/

section Bookkeeping

variable (env : ClientEnv) (now : Int) (st : ClientState ν)

theorem settle_held (id : String) (r : Resolution ν) : (st.settle id r).holdings = st.holdings := by
  unfold ClientState.settle
  split
  · rfl
  · rfl

theorem foldl_held {α : Type} {f : ClientState ν → α → ClientState ν}
    (hf : ∀ st a, (f st a).holdings = st.holdings) (l : List α) :
    (l.foldl f st).holdings = st.holdings := by
  induction l generalizing st with
  | nil => rfl
  | cons a rest ih => exact (ih (f st a)).trans (hf st a)

theorem setPending_held (r : PendingReplies × Resolved ν) :
    (st.setPending r).holdings = st.holdings := by
  have hsettle : ∀ (st : ClientState ν) (e : String × Resolution ν),
      (st.settle e.1 e.2).holdings = st.holdings := fun st e => settle_held st e.1 e.2
  exact foldl_held { st with book := { st.book with pending := r.1 } } hsettle r.2

theorem watch_held (id : String) (w : Watcher) : (st.watch id w).holdings = st.holdings := by
  unfold ClientState.watch
  dsimp only
  split
  · rfl
  · rfl

theorem setMission_held (id : String) (f : Mission → Mission) :
    (st.setMission id f).holdings = st.holdings := by
  unfold ClientState.setMission
  split
  · rfl
  · rfl

theorem failMission_held (id : String) (code : Option MeshErrorCode) :
    (failMission st id code).holdings = st.holdings :=
  (setMission_held _ id _).trans (setPending_held st _)

theorem expireMission_held (id : String) : (expireMission st id).holdings = st.holdings :=
  setMission_held st id _

theorem registerMission_held (plan : SendPlan) (id : String) :
    (registerMission st now plan id).holdings = st.holdings := setPending_held _ _

theorem cancelAllAwaited_held : (cancelAllAwaited st).holdings = st.holdings :=
  foldl_held st (fun st id => setPending_held (st.dropMission id) _) st.book.awaitTargets.keys

theorem keepInbound_held (frame : Inbound ν) : (keepInbound st frame).holdings = st.holdings := by
  unfold keepInbound
  split
  · rfl
  · simp only [ClientState.holdings]

theorem noteInboundFrom_held (frame : Inbound ν) :
    (noteInboundFrom st frame).holdings = st.holdings := by
  unfold noteInboundFrom
  split
  · rfl
  · rfl

theorem onMatchedReply_held (frame : Inbound ν) (replyTo : String) (wake : Bool) :
    (onMatchedReply env now st frame replyTo wake).holdings = st.holdings := by
  unfold onMatchedReply
  dsimp only
  have hmission : ∀ f, (ClientState.setMission
      { st with book := markReplyHandled env now st.book replyTo (frame.body.getD "") } replyTo
      f).holdings = st.holdings := setMission_held _ replyTo
  split
  · exact (keepInbound_held _ frame).trans (hmission _)
  · exact hmission _

theorem onOrphanReply_held (frame : Inbound ν) :
    (onOrphanReply env now st frame).holdings = st.holdings := by
  unfold onOrphanReply
  split
  · exact keepInbound_held st frame
  · dsimp only
    split
    · rfl
    · exact keepInbound_held _ frame

theorem onReply_held (frame : Inbound ν) : (onReply env now st frame).holdings = st.holdings := by
  unfold onReply
  split
  · exact keepInbound_held st frame
  · have hnote := noteInboundFrom_held st frame
    dsimp only
    split
    · exact (onOrphanReply_held env now _ frame).trans hnote
    · split
      · exact ((onMatchedReply_held env now _ frame _ _).trans (setPending_held _ _)).trans hnote
      · exact ((onOrphanReply_held env now _ frame).trans (setPending_held _ _)).trans hnote

theorem onPresence_held (frame : Inbound ν) : (onPresence st frame).holdings = st.holdings := by
  unfold onPresence
  split
  · split
    · unfold onOffline
      extract_lets peerRooms st₁
      split
      · rfl
      · rfl
    · split
      · unfold onOnline
        split
        · rfl
        · rfl
      · rfl
  · rfl

end Bookkeeping

/-! ### Frames, requests and timers -/

section Handlers

variable (env : ClientEnv) (now : Int) (st : ClientState ν) (e : ClientEvent ν)

theorem onAck_heldSame (frame : Inbound ν) : HeldSame e st (onAck st frame) := by
  unfold onAck
  split
  · exact .of_same rfl rfl
  · split
    · extract_lets st₁ st₂
      have hpending : HeldSame e st st₁ := .of_booked (setPending_booked st _) (setPending_held st _)
      have hmission : HeldSame e st st₂ :=
        hpending.after (setMission_held st₁ frame.id _) (setMission_booked st₁ frame.id _).calls
      exact hmission.after rfl rfl
    · exact .refl e st

theorem onStatus_heldSame (frame : Inbound ν) : HeldSame e st (onStatus st frame) := by
  unfold onStatus
  split
  · have hsame : ∀ waiters, HeldSame e st { st with statusWaiters := waiters } :=
      fun _ => .of_same rfl rfl
    exact (hsame _).finish _ _
  · exact .refl e st

/-- A message is kept, and its sender is remembered. -/
theorem surface_heldSame (frame : Inbound ν) :
    HeldSame e st (noteInboundFrom (keepInbound st frame) frame) :=
  .of_booked ((keepInbound_booked st frame).trans (noteInboundFrom_booked _ frame))
    ((noteInboundFrom_held _ frame).trans (keepInbound_held st frame))

theorem onFrame_heldSame (frame : Inbound ν) : HeldSame e st (onFrame env now st frame) := by
  unfold onFrame
  split
  · exact onAck_heldSame st e frame
  · exact (onStatus_heldSame _ e frame).before rfl rfl
  · exact (surface_heldSame st e frame).after rfl rfl
  · exact (surface_heldSame st e frame).after rfl rfl
  · unfold onReserve
    split
    · exact .of_same rfl rfl
    · exact .refl e st
  · exact .of_same rfl rfl
  · exact .of_booked (onReply_booked env now st frame) (onReply_held env now st frame)
  · unfold onActivity
    split
    · exact .of_same rfl rfl
    · exact .refl e st
  · exact .of_booked (onPresence_booked st frame) (onPresence_held st frame)
  · unfold onError
    refine (onStatus_heldSame _ e frame).before ?_ ?_
    · split
      · rfl
      · rfl
    · split
      · rfl
      · rfl
  · exact .refl e st

/-- A frame is written, and its call waits or returns. -/
theorem issue_heldSame {e : ClientEvent ν} {st st₁ : ClientState ν} {c : CallId}
    {frame : ClientFrame} {s : Stage} {r : CallResult ν} (h : HeldSame e st st₁)
    (hs : MayTrip e st c s.trip) :
    HeldSame e st (match writeOrQueue env st₁ frame with
      | some st => st.setStage c s
      | none => st₁.finish c r) := by
  split
  · next st' hw =>
    obtain ⟨outbox, sent, rfl⟩ := writeOrQueue_eq hw
    have hsame : HeldSame e st { st₁ with outbox, sent } := h.after rfl rfl
    exact hsame.setStage hs
  · exact h.finish c r

theorem issueSend_heldSame (c : CallId) (plan : SendPlan) :
    HeldSame e st (issueSend env now st c plan) := by
  unfold issueSend
  dsimp only
  refine issue_heldSame env ?_ (.inl rfl)
  split
  · have hbooked := registerMission_booked now st.useId plan (sendFrame env now st plan).id
    exact .of_same (registerMission_held now st.useId plan _) hbooked.calls
  · exact .of_same rfl rfl

theorem issueReply_heldSame (c : CallId) (plan : ReplyPlan) :
    HeldSame e st (issueReply env now st c plan) := by
  unfold issueReply
  split
  · exact (HeldSame.refl e st).finish c _
  · exact issue_heldSame env (.of_same rfl rfl) (.inl rfl)

theorem sendTrip_heldSame {e : ClientEvent ν} {c : CallId} {use : TripUse} (frame : ClientFrame)
    (h : MayTrip e st c (some use.kind)) : HeldSame e st (sendTrip env st c use frame) :=
  issue_heldSame env (.of_same rfl rfl) h

theorem roundTrip_heldSame {e : ClientEvent ν} {c : CallId} {use : TripUse} (frame : ClientFrame)
    (h : MayTrip e st c (some use.kind)) : HeldSame e st (roundTrip env st.useId c use frame) := by
  have hid : HeldSame e st st.useId := .of_same rfl rfl
  unfold roundTrip
  split
  · exact (sendTrip_heldSame env st.useId frame h).before rfl rfl
  · split
    · have hstage : HeldSame e st (st.useId.setStage c (.tripAck use frame.id)) := hid.setStage h
      exact hstage.after rfl rfl
    · exact HeldSame.after_link (hid.setStage h) (connect_link env _ _)

/-- A call stores where it waits and goes to `connect()`. -/
theorem connect_stage_heldSame {e : ClientEvent ν} {c : CallId} {s : Stage} (w : Waiter)
    (h : MayTrip e st c s.trip) : HeldSame e st (connect env (st.setStage c s) w) :=
  HeldSame.after_link ((HeldSame.refl e st).setStage h) (connect_link env _ w)

theorem startStatus_heldSame (c : CallId) (room : Option String) :
    HeldSame e st (startStatus env now st c room) := by
  unfold startStatus
  split
  · exact (HeldSame.refl e st).finish c _
  · dsimp only
    split
    · next st' hw =>
      obtain ⟨outbox, sent, rfl⟩ := writeOrQueue_eq hw
      exact HeldSame.setStage (.of_same rfl rfl) (.inl rfl)
    · exact .finish_of (by rfl) (by rfl) c _

theorem written_heldSame (frame : ClientFrame) :
    HeldSame e st ((writeOrQueue env st frame).getD st) := by
  cases hw : writeOrQueue env st frame with
  | none => exact .refl e st
  | some st' =>
      obtain ⟨outbox, sent, rfl⟩ := writeOrQueue_eq hw
      exact .of_same rfl rfl

theorem sendNotice_heldSame (frame : ClientFrame) : HeldSame e st (sendNotice env st frame) := by
  unfold sendNotice
  split
  · exact (written_heldSame env st.useId e frame).before rfl rfl
  · exact .refl e st

theorem sendRemind_heldSame (msgId : String) : HeldSame e st (sendRemind env now st msgId) := by
  unfold sendRemind
  split
  · exact .refl e st
  · split
    · exact .refl e st
    · exact written_heldSame env st e _

theorem endWaitAll_heldSame (c : CallId) (start : Int) (targets : List String)
    (status : WaitAllStatus) : HeldSame e st (endWaitAll env now st c start targets status) := by
  unfold endWaitAll
  extract_lets book book'
  exact .finish_of (by rfl) (by rfl) c _

theorem tickWaitAll_heldSame (c : CallId) (start deadline : Int) (targets : List String)
    (signal : Bool) : HeldSame e st (tickWaitAll env now st c start deadline targets signal) := by
  unfold tickWaitAll
  split
  · exact endWaitAll_heldSame env now st e c start targets _
  · split
    · exact endWaitAll_heldSame env now st e c start targets _
    · exact (HeldSame.refl e st).setStage (.inl rfl)

theorem startWaitAll_heldSame (c : CallId) (timeoutMs : Int) (signal : Bool) :
    HeldSame e st (startWaitAll env now st c timeoutMs signal) := by
  unfold startWaitAll
  dsimp only
  split
  · exact (endWaitAll_heldSame env now _ e c now _ _).before rfl rfl
  · exact (tickWaitAll_heldSame env now _ e c now _ _ signal).before rfl rfl

theorem sendAcked_heldSame (c : CallId) (plan : SendPlan) (id : String) (ack : Ack) :
    HeldSame e st (sendAcked st c plan id ack) := by
  unfold sendAcked
  split
  · dsimp only
    refine HeldSame.finish ?_ c _
    split
    · exact .of_booked (failMission_booked st id _) (failMission_held st id _)
    · exact .refl e st
  · split
    · exact (HeldSame.refl e st).finish c _
    · split
      · exact HeldSame.finish (.of_booked (watch_booked st id _) (watch_held st id _)) c _
      · refine HeldSame.after (?_ : HeldSame e st (ClientState.setStage _ c (.sendReply plan id)))
          (watch_held _ id _) (watch_booked _ id _).calls
        refine HeldSame.setStage ?_ (.inl rfl)
        split
        · exact .of_booked (setPending_booked st _) (setPending_held st _)
        · exact .refl e st

theorem handleResolved_heldSame (w : Watcher) (id : String) (r : Resolution ν) :
    HeldSame e st (handleResolved st w id r) := by
  have hexpire : ∀ st : ClientState ν, HeldSame e st (expireMission st id) :=
    fun st => .of_booked (expireMission_booked st id) (expireMission_held st id)
  unfold handleResolved
  split
  · unfold launchResolved
    dsimp only
    split
    · exact (hexpire _).before rfl rfl
    · exact .of_same rfl rfl
  · split
    · unfold sendResolved
      dsimp only
      split
      · exact .finish_of (by rfl) (by rfl) _ _
      · have hsame : HeldSame e st (expireMission (st.dropTarget id) id) :=
          (hexpire _).before rfl rfl
        exact hsame.finish _ _
      · exact .finish_of (by rfl) (by rfl) _ _
      · exact .finish_of (by rfl) (by rfl) _ _
    · exact .refl e st

theorem replyAcked_heldSame (c : CallId) (id : String) (ack : Ack) :
    HeldSame e st (replyAcked st c id ack) := by
  unfold replyAcked
  split
  · exact (HeldSame.refl e st).finish c _
  · split
    · exact (HeldSame.refl e st).finish c _
    · exact (HeldSame.refl e st).finish c _

theorem loseRequests_heldSame : HeldSame e st (loseRequests st) := by
  have hfold : ∀ (cs : List CallId) (st' : ClientState ν), HeldSame e st st' →
      HeldSame e st (cs.foldl (fun st c => st.finish c (.snapshot [] [] none)) st') := by
    intro cs
    induction cs with
    | nil => exact fun st' h => h
    | cons c rest ih => exact fun st' h => ih _ (h.finish c _)
  unfold loseRequests
  extract_lets lost st₁ st₂
  have hfinished : HeldSame e st st₂ := hfold _ st₁ (.of_same rfl rfl)
  exact hfinished.after rfl rfl

theorem finishRename_heldSame {e : ClientEvent ν} {st st' : ClientState ν} (h : HeldSame e st st')
    (c : CallId) (r : CallResult ν) : HeldSame e st (finishRename st' c r) := by
  unfold finishRename
  extract_lets k st₁
  have hforgot : HeldSame e st st₁ := h.after rfl rfl
  split
  · exact hforgot.finish c r
  · exact hforgot

theorem renameDetach_heldSame {e : ClientEvent ν} {st st' : ClientState ν} (h : HeldSame e st st')
    (c : CallId) (target : String) : HeldSame e st (renameDetach env st' c target) := by
  unfold renameDetach
  extract_lets old oldSocket k k₁ st₁ k₂ st₂
  have hbooked : Booked (st'.setConn k₁) st₁ := setPending_booked ..
  have hdetached : HeldSame e st st₂ := h.after (setPending_held (st'.setConn k₁) _) hbooked.calls
  clear_value oldSocket
  cases oldSocket with
  | some sock => exact hdetached.after rfl rfl
  | none => exact hdetached.after_link (renameDial_link env _ c target old)

theorem startRename_heldSame (c : CallId) (newAlias : String) :
    HeldSame e st (startRename env st c newAlias) := by
  have hstage : HeldSame e st (st.setStage c .rename) := (HeldSame.refl e st).setStage (.inl rfl)
  unfold startRename
  extract_lets target st₁
  split
  · exact finishRename_heldSame hstage c _
  · split
    · exact finishRename_heldSame hstage c _
    · split
      · exact (hstage.after_link (setRename_link st₁ c _)).after_link (connect_link env _ _)
      · exact renameDetach_heldSame env hstage c target

theorem handleRenameConnected_heldSame (c : CallId) (r : Except ConnectError (WelcomeInfo ν)) :
    HeldSame e st (handleRenameConnected env st c r) := by
  unfold handleRenameConnected
  split
  · exact renameDetach_heldSame env (.refl e st) c _
  · exact finishRename_heldSame (.refl e st) c _
  · exact finishRename_heldSame (.refl e st) c _
  · exact .refl e st

theorem handleRenameDialed_heldSame (c : CallId) (r : Except ConnectError (WelcomeInfo ν)) :
    HeldSame e st (handleRenameDialed env st c r) := by
  unfold handleRenameDialed
  split
  · split
    · have hsame : ∀ k, HeldSame e st (st.setConn k) := fun _ => .of_same rfl rfl
      exact finishRename_heldSame (hsame _) c _
    · split
      · exact .of_link (setRename_link st c _)
      · extract_lets k st₁
        exact .of_link (((Link.setConn st _).trans (setRename_link st₁ c _)).trans (connect_link env _ _))
  · exact .refl e st

theorem startClose_heldSame (c : CallId) : HeldSame e st (startClose st c) := by
  unfold startClose
  extract_lets k k₁ st₁ alive k₂ st₂
  have hbooked : Booked (st.setConn k₁) st₁ := setPending_booked ..
  have hshut : HeldSame e st st₂ := .of_same (setPending_held (st.setConn k₁) _) hbooked.calls
  clear_value alive
  cases alive with
  | some sock =>
      have hended : ∀ k, HeldSame e st (st₂.setConn k) := fun _ => hshut.after rfl rfl
      exact (hended _).setStage (.inl rfl)
  | none => exact hshut.finish c _

theorem onSocketClosed_heldSame (closed : Option ClientSocketId) :
    HeldSame e st (onSocketClosed env st closed) := by
  unfold onSocketClosed
  split
  · exact .refl e st
  · split
    · exact .refl e st
    · have hlost : ∀ k, HeldSame e st (loseRequests (st.setConn k)) :=
        fun k => (loseRequests_heldSame (st.setConn k) e).before rfl rfl
      dsimp only
      split
      · exact hlost _
      · exact (hlost _).after rfl rfl

theorem handleAbort_heldSame (c : CallId) : HeldSame e st (handleAbort env now st c) := by
  have habort : HeldSame e st { st with aborted := st.aborted.add c } := .of_same rfl rfl
  unfold handleAbort
  dsimp only
  split
  · split
    · exact habort.after (setPending_held _ _) (setPending_booked _ _).calls
    · exact habort
  · exact (endWaitAll_heldSame env now _ e c _ _ _).before rfl rfl
  · exact habort

/-! ### One step -/

theorem handleCall_heldSame (c : CallId) (op : Op) (hforget : ∀ room, op ≠ .forgetRoom room) :
    HeldSame (.call c op) st (handleCall env now st c op) := by
  have hcalled : MayTrip (.call c op) st c op.trip := .inr (.inr ⟨op, rfl, rfl⟩)
  have hfinish : ∀ r, HeldSame (.call c op) st (st.finish c r) :=
    fun r => (HeldSame.refl _ st).finish c r
  cases op with
  | connect => exact connect_stage_heldSame env st _ (.inl rfl)
  | send opts =>
      unfold handleCall startSend
      dsimp only
      split
      · exact hfinish _
      · split
        · exact issueSend_heldSame env now st _ c _
        · exact connect_stage_heldSame env st _ (.inl rfl)
  | reply msgId body opts =>
      unfold handleCall startReply
      dsimp only
      split
      · exact hfinish _
      · split
        · exact issueReply_heldSame env now st _ c _
        · exact connect_stage_heldSame env st _ (.inl rfl)
  | reserve patterns reason =>
      unfold handleCall startReserve
      dsimp only
      split
      · exact hfinish _
      · exact hfinish _
      · split
        · exact roundTrip_heldSame env st _ hcalled
        · exact connect_stage_heldSame env st _ hcalled
  | release patterns =>
      unfold handleCall startRelease
      dsimp only
      split
      · exact hfinish _
      · split
        · exact roundTrip_heldSame env st _ hcalled
        · exact connect_stage_heldSame env st _ hcalled
  | join room role => exact roundTrip_heldSame env st _ hcalled
  | leave room => exact roundTrip_heldSame env st _ hcalled
  | status room => exact startStatus_heldSame env now st _ c room
  | rename newAlias => exact startRename_heldSame env st _ c newAlias
  | close => exact startClose_heldSame st _ c
  | waitAll timeoutMs signal => exact startWaitAll_heldSame env now st _ c timeoutMs signal
  | cancelAllAwaited =>
      have hcancel : HeldSame (.call c .cancelAllAwaited) st (cancelAllAwaited st) :=
        .of_booked (cancelAllAwaited_booked st) (cancelAllAwaited_held st)
      exact hcancel.finish c _
  | forgetRoom room => exact absurd rfl (hforget room)
  | sendActivity state => exact (sendNotice_heldSame env st _ _).finish c _
  | sendRead msgId recipient => exact (sendNotice_heldSame env st _ _).finish c _

theorem handleCallConnected_heldSame (c : CallId) (info : WelcomeInfo ν) :
    HeldSame e st (handleCallConnected env now st c info) := by
  have hgoes : ∀ s, st.calls.get? c = some s → MayTrip e st c s.trip :=
    fun s hs => .inr (.inl (trip_of_stage hs).symm)
  unfold handleCallConnected
  split
  · exact (HeldSame.refl e st).finish c _
  · exact issueSend_heldSame env now st e c _
  · exact issueReply_heldSame env now st e c _
  · next hs => exact roundTrip_heldSame env st _ (hgoes _ hs)
  · next hs => exact roundTrip_heldSame env st _ (hgoes _ hs)
  · next hs => exact sendTrip_heldSame env st _ (hgoes _ hs)
  · exact handleRenameConnected_heldSame env st e c _
  · exact .refl e st

theorem handleCallRefused_heldSame (c : CallId) (err : ConnectError) :
    HeldSame e st (handleCallRefused env st c err) := by
  have hfinish : ∀ r, HeldSame e st (st.finish c r) := fun r => (HeldSame.refl e st).finish c r
  unfold handleCallRefused
  split
  · exact hfinish _
  · exact hfinish _
  · exact hfinish _
  · exact hfinish _
  · exact hfinish _
  · next use frame hs =>
    have hstage : HeldSame e st (st.setStage c (.tripAck use frame.id)) :=
      (HeldSame.refl e st).setStage (.inr (.inl (trip_of_stage hs).symm))
    exact hstage.after rfl rfl
  · exact handleRenameConnected_heldSame env st e c _
  · exact .refl e st

theorem handleAcked_heldSame (c : CallId) (ack : Ack)
    (hnot : ∀ use id, st.calls.get? c ≠ some (.tripAck use id)) :
    HeldSame e st (handleAcked st c ack) := by
  unfold handleAcked
  split
  · exact sendAcked_heldSame st e c _ _ ack
  · exact replyAcked_heldSame st e c _ ack
  · next hs => exact absurd hs (hnot _ _)
  · exact .refl e st

theorem handleWelcomed_heldSame (owner : Owner) (info : WelcomeInfo ν) :
    HeldSame e st (handleWelcomed env st owner info) := by
  have hflush : ∀ n (st : ClientState ν), HeldSame e st (flushFrames env n st).1 := by
    intro n st
    obtain ⟨outbox, sent, heq⟩ := flushFrames_eq env n st
    rw [heq]
    exact .of_same rfl rfl
  unfold handleWelcomed
  extract_lets k st₁
  have hflushed : HeldSame e st (flushOutbox env st₁).1 := (hflush _ st₁).before rfl rfl
  split
  · next st₂ hres =>
    rw [hres] at hflushed
    exact hflushed.after rfl rfl
  · next st₂ hres =>
    rw [hres] at hflushed
    exact hflushed.after rfl rfl

theorem handleJob_heldSame (j : Job ν)
    (hnot : ∀ c ack use id, j = .acked c ack → st.calls.get? c ≠ some (.tripAck use id)) :
    HeldSame e st (handleJob env now st j) := by
  cases j with
  | acked c ack => exact handleAcked_heldSame st e c ack fun use id => hnot c ack use id rfl
  | resolved w id r => exact handleResolved_heldSame st e w id r
  | connected w info =>
      cases w with
      | call c => exact handleCallConnected_heldSame env now st e c info
      | backoff => exact .refl e st
      | watchdog => exact .refl e st
  | connectFailed w err =>
      cases w with
      | call c => exact handleCallRefused_heldSame env st e c err
      | backoff => exact onSocketClosed_heldSame env st e none
      | watchdog => exact .refl e st
  | welcomed owner info => exact handleWelcomed_heldSame env st e owner info
  | dialed owner r =>
      cases owner with
      | connect => exact .of_link (handleDialed_link env st r)
      | rename c => exact handleRenameDialed_heldSame env st e c r
  | connectDone r => exact .of_link (handleConnectDone_link st r)
  | detached c => exact .of_link (handleDetached_link env st c)
  | closed c =>
      show HeldSame e st (handleClosed st c)
      unfold handleClosed
      split
      · exact (HeldSame.refl e st).finish c _
      · exact .refl e st

theorem handleConnected_heldSame (sock : ClientSocketId) :
    HeldSame e st (handleConnected env now st sock) := by
  unfold handleConnected
  extract_lets frame ended
  split
  · exact .of_same rfl rfl
  · exact .of_same rfl rfl

theorem handleSocketClose_heldSame (sock : ClientSocketId) :
    HeldSame e st (handleSocketClose env st sock) := by
  unfold handleSocketClose
  split
  · split
    · exact .refl e st
    · extract_lets st₁ st₂ st₃
      have hfailed : HeldSame e st st₂ :=
        .of_link ((Link.setConn st _).trans (failHandshake_link st₁ sock _))
      have hlost : HeldSame e st st₃ := by
        show HeldSame e st (if _ then _ else _)
        split
        · have hclosed := onSocketClosed_heldSame env st₂ e (some sock)
          exact hclosed.before hfailed.held (Link.calls ((Link.setConn st _).trans
            (failHandshake_link st₁ sock _)))
        · exact hfailed
      exact hlost.after_link (endWaits_link st₃ _)
  · exact .refl e st

theorem handleRemind_heldSame (id : String) : HeldSame e st (handleRemind env now st id) := by
  unfold handleRemind
  dsimp only
  split
  · exact (sendRemind_heldSame env now _ e id).before rfl rfl
  · exact .of_same rfl rfl

theorem handleTurn_heldSame (e' : ClientEvent ν) : HeldSame e st (handleTurn env now st e') := by
  cases e' with
  | call | abort | microtask | line => exact .refl e st
  | ensured owner ok =>
      unfold handleTurn
      dsimp only
      split
      · exact .of_link (handleEnsured_link st owner ok)
      · exact .refl e st
  | connected sock =>
      unfold handleTurn
      dsimp only
      split
      · exact handleConnected_heldSame env now st e sock
      · exact .refl e st
  | oversized sock => exact .of_link (failHandshake_link st sock _)
  | helloTimeout sock => exact .of_link (handleHelloTimeout_link st sock)
  | failed sock => exact .of_link (handleSocketError_link st sock)
  | closed sock => exact handleSocketClose_heldSame env st e sock
  | backoff t => exact .of_link (handleBackoff_link env st t)
  | retry => exact .of_link (handleRetry_link env st)
  | renameRetry c => exact .of_link (handleRenameRetry_link env st c)
  | endTimeout c => exact .of_link (endWait_link st c)
  | watchdog => exact .of_link (handleWatchdog_link env st)
  | heartbeat =>
      show HeldSame e st (handleHeartbeat env now st)
      unfold handleHeartbeat
      split
      · split
        · exact .of_same rfl rfl
        · exact .refl e st
      · exact .refl e st
  | ackTimeout id =>
      show HeldSame e st (handleAckTimeout st id)
      unfold handleAckTimeout
      split
      · exact .of_same rfl rfl
      · exact .refl e st
  | statusTimeout id =>
      show HeldSame e st (handleStatusTimeout st id)
      unfold handleStatusTimeout
      split
      · exact .finish_of (by rfl) (by rfl) _ _
      · exact .refl e st
  | expire id => exact .of_booked (setPending_booked st _) (setPending_held st _)
  | remind id => exact handleRemind_heldSame env now st e id
  | tick c =>
      show HeldSame e st (handleTick env now st c)
      unfold handleTick
      split
      · exact tickWaitAll_heldSame env now st e c _ _ _ _
      · exact .refl e st

theorem handleClientLine_heldSame (sock : ClientSocketId) (frame : Inbound ν) :
    HeldSame e st (handleClientLine env now st sock frame) := by
  have hread : HeldSame e st { st with reading := some sock } := .of_same rfl rfl
  unfold handleClientLine
  split
  · split
    · exact .refl e st
    · dsimp only
      split
      · exact (onFrame_heldSame env now _ e frame).before rfl rfl
      · split
        · exact hread.after rfl rfl
        · split
          · exact hread.after_link (failHandshake_link _ sock _)
          · exact hread
  · exact .refl e st

end Handlers

/-- The acknowledgement of a round trip is handled. -/
def SettlesTrip (st : ClientState ν) (e : ClientEvent ν) (c : CallId) (use : TripUse) (id : String)
    (ack : Ack) : Prop :=
  e = .microtask ∧ (∃ rest, st.jobs = .acked c ack :: rest) ∧ st.calls.get? c = some (.tripAck use id)

/-- **The rooms and the reservations change with the acknowledgement of a round trip.** -/
theorem clientStep_held (env : ClientEnv) (now : Int) (st : ClientState ν) (e : ClientEvent ν)
    (hforget : ∀ c room, e ≠ .call c (.forgetRoom room)) :
    HeldSame e st (clientStep env now st e) ∨ ∃ c use id ack, SettlesTrip st e c use id ack ∧
      clientStep env now st e = tripAcked st.pop c use id ack := by
  have hidle : ∀ st' : ClientState ν, HeldSame e { st with reading := none } st' →
      HeldSame e st st' := fun st' h => h.before rfl rfl
  cases e with
  | call c op =>
      refine .inl ?_
      unfold clientStep
      dsimp only
      split
      · exact handleCall_heldSame env now st c op fun room heq => hforget c room (by rw [heq])
      · exact .refl _ st
  | abort c => exact .inl (handleAbort_heldSame env now st _ c)
  | microtask =>
      have hstep : clientStep env now st .microtask = handleMicrotask env now st := rfl
      unfold handleMicrotask at hstep
      cases hjobs : st.jobs with
      | nil =>
          rw [hjobs] at hstep
          rw [hstep]
          exact .inl (.refl _ st)
      | cons j rest =>
          have hpop : ({ st with jobs := rest, reading := none } : ClientState ν) = st.pop := by
            unfold ClientState.pop
            rw [hjobs]
            rfl
          rw [hjobs] at hstep
          dsimp only at hstep
          rw [hpop] at hstep
          by_cases hacked : ∃ c ack use id, j = .acked c ack ∧ st.calls.get? c = some (.tripAck use id)
          · obtain ⟨c, ack, use, id, rfl, hs⟩ := hacked
            refine .inr ⟨c, use, id, ack, ⟨rfl, ⟨rest, hjobs⟩, hs⟩, ?_⟩
            have hs' : st.pop.calls.get? c = some (.tripAck use id) := hs
            rw [hstep]
            show handleAcked st.pop c ack = _
            unfold handleAcked
            rw [hs']
          · refine .inl ?_
            rw [hstep]
            refine (handleJob_heldSame env now st.pop _ j ?_).before rfl rfl
            intro c ack use id heq hs
            exact hacked ⟨c, ack, use, id, heq, hs⟩
  | line sock frame => exact .inl (handleClientLine_heldSame env now st _ sock frame)
  | ensured | connected | oversized | helloTimeout | failed | closed | backoff | retry
  | renameRetry | endTimeout | watchdog | heartbeat | ackTimeout | statusTimeout | expire
  | remind | tick =>
      refine .inl ?_
      unfold clientStep
      dsimp only
      split
      · exact hidle _ (handleTurn_heldSame env now _ _ _)
      · exact .refl _ st

end PiMesh
