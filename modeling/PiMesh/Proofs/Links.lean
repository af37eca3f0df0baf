/-
What the connection does not touch.

Most of what a client does about its connection changes the connection and queues jobs
about it, and nothing else: no request, no mission, no frame.  `Link` says this of two
states.  It is proved once for every such function, so that a property of requests or
missions has to look only at the few places where the connection meets them: where it is
lost, where it comes back and writes what was queued, and where a rename or a close gives
all missions up.
-/
import PiMesh.Client.Events
import PiMesh.Lib.Transition

namespace PiMesh

open Js

variable {ν : Type} [Number ν]

/-- Jobs that continue the work on the connection, or tell a call how it went. -/
def Job.isLink : Job ν → Bool
  | .acked _ _ => false
  | .resolved _ _ _ => false
  | _ => true

section Kinds

variable (c : CallId) (w : Waiter) (owner : Owner)

@[simp] theorem acked_isLink (ack : Ack) : Job.isLink (ν := ν) (.acked c ack) = false := rfl

@[simp] theorem resolved_isLink (x : Watcher) (id : String) (r : Resolution ν) :
    Job.isLink (.resolved x id r) = false := rfl

@[simp] theorem connected_isLink (info : WelcomeInfo ν) : Job.isLink (.connected w info) = true := rfl

@[simp] theorem connectFailed_isLink (err : ConnectError) :
    Job.isLink (ν := ν) (.connectFailed w err) = true := rfl

@[simp] theorem welcomed_isLink (info : WelcomeInfo ν) : Job.isLink (.welcomed owner info) = true := rfl

@[simp] theorem dialed_isLink (r : Except ConnectError (WelcomeInfo ν)) :
    Job.isLink (.dialed owner r) = true := rfl

@[simp] theorem connectDone_isLink (r : Except ConnectError (WelcomeInfo ν)) :
    Job.isLink (.connectDone r) = true := rfl

@[simp] theorem detached_isLink : Job.isLink (ν := ν) (.detached c) = true := rfl

@[simp] theorem closed_isLink : Job.isLink (ν := ν) (.closed c) = true := rfl

end Kinds

/-- Only the connection changed, and jobs about it were queued. -/
structure Link (st st' : ClientState ν) : Prop where
  rest : st' = { st with conn := st'.conn, jobs := st'.jobs }
  jobs : ∃ js, st'.jobs = st.jobs ++ js ∧ ∀ j ∈ js, j.isLink = true

namespace Link

variable {st st' st'' : ClientState ν}

theorem refl (st : ClientState ν) : Link st st := ⟨rfl, [], by simp⟩

theorem trans (h : Link st st') (h' : Link st' st'') : Link st st'' := by
  obtain ⟨hr, js, hjs, hl⟩ := h
  obtain ⟨hr', js', hjs', hl'⟩ := h'
  refine ⟨?_, js ++ js', by rw [hjs', hjs, List.append_assoc], ?_⟩
  · rw [hr', hr]
  · intro j hj
    rcases List.mem_append.mp hj with hj | hj
    · exact hl j hj
    · exact hl' j hj

theorem setConn (st : ClientState ν) (k : Conn) : Link st (st.setConn k) := ⟨rfl, [], by simp [ClientState.setConn]⟩

theorem push (st : ClientState ν) {js : List (Job ν)} (h : ∀ j ∈ js, j.isLink = true) :
    Link st (st.push js) := ⟨rfl, js, rfl, h⟩

theorem setConn_push (st : ClientState ν) (k : Conn) {js : List (Job ν)}
    (h : ∀ j ∈ js, j.isLink = true) : Link st ((st.setConn k).push js) :=
  (setConn st k).trans (push _ h)

theorem book (h : Link st st') : st'.book = st.book := by rw [h.rest]
theorem calls (h : Link st st') : st'.calls = st.calls := by rw [h.rest]
theorem results (h : Link st st') : st'.results = st.results := by rw [h.rest]
theorem ackWaiters (h : Link st st') : st'.ackWaiters = st.ackWaiters := by rw [h.rest]
theorem outbox (h : Link st st') : st'.outbox = st.outbox := by rw [h.rest]
theorem sent (h : Link st st') : st'.sent = st.sent := by rw [h.rest]
theorem ids (h : Link st st') : st'.ids = st.ids := by rw [h.rest]

end Link

section Functions

variable (env : ClientEnv) (st : ClientState ν)

theorem openSocket_link (owner : Owner) : Link st (openSocket st owner) := by
  unfold openSocket
  dsimp only
  split
  · exact .setConn_push _ _ (by simp)
  · exact .setConn _ _

theorem doConnect_link (owner : Owner) : Link st (doConnect env st owner) := by
  unfold doConnect
  split
  · exact .setConn _ _
  · exact openSocket_link st owner
  · exact .push _ (by simp)

theorem handleEnsured_link (owner : Owner) (ok : Bool) : Link st (handleEnsured st owner ok) := by
  unfold handleEnsured
  dsimp only
  split
  · exact (Link.setConn _ _).trans (openSocket_link _ owner)
  · exact .setConn_push _ _ (by simp)

theorem failHandshake_link (sock : ClientSocketId) (err : ConnectError) :
    Link st (failHandshake st sock err) := by
  unfold failHandshake
  split
  · split
    · exact .refl st
    · exact .setConn_push _ _ (by simp)
  · exact .refl st

theorem connect_link (w : Waiter) : Link st (connect env st w) := by
  unfold connect
  dsimp only
  split
  · exact .push _ (by simp)
  · split
    · exact .setConn _ _
    · exact (Link.setConn _ _).trans (doConnect_link env _ _)

theorem handleDialed_link (r : Except ConnectError (WelcomeInfo ν)) :
    Link st (handleDialed env st r) := by
  unfold handleDialed
  split
  · exact .refl st
  · dsimp only
    split
    · split
      · exact .setConn_push _ _ (by simp)
      · exact .setConn_push _ _ (by simp)
    · exact .setConn_push _ _ (by simp)
    · split
      · exact .push _ (by simp)
      · split
        · exact .setConn _ _
        · split
          · exact .setConn_push _ _ (by simp)
          · exact (Link.setConn _ _).trans (doConnect_link env _ _)

theorem handleRetry_link : Link st (handleRetry env st) := by
  unfold handleRetry
  split
  · split
    · exact (Link.setConn _ _).trans (doConnect_link env _ _)
    · exact .refl st
  · exact .refl st

theorem handleConnectDone_link (r : Except ConnectError (WelcomeInfo ν)) :
    Link st (handleConnectDone st r) := by
  unfold handleConnectDone
  split
  · exact .refl st
  · dsimp only
    split
    · exact .setConn_push _ _ (by simp)
    · exact .setConn_push _ _ (by simp)

theorem handleBackoff_link (t : Nat) : Link st (handleBackoff env st t) := by
  unfold handleBackoff
  split
  · exact (Link.setConn _ _).trans (connect_link env _ _)
  · exact .refl st

theorem handleWatchdog_link : Link st (handleWatchdog env st) := by
  unfold handleWatchdog
  split
  · exact connect_link env st _
  · exact .refl st

theorem setRename_link (c : CallId) (stage : RenameStage) : Link st (setRename st c stage) :=
  .setConn _ _

theorem renameDial_link (c : CallId) (target old : String) :
    Link st (renameDial env st c target old) :=
  ((Link.setConn _ _).trans (setRename_link _ _ _)).trans (doConnect_link env _ _)

theorem endDetach_link (c : CallId) : Link st (endDetach st c) := by
  unfold endDetach
  split
  · exact (setRename_link st c _).trans (.push _ (by simp))
  · exact .refl st

theorem endClose_link (c : CallId) : Link st (endClose st c) := by
  unfold endClose
  split
  · exact .push _ (by simp)
  · exact .refl st

theorem endWait_link (c : CallId) : Link st (endWait st c) :=
  (endDetach_link st c).trans (endClose_link _ c)

theorem endWaits_link (cs : List CallId) : Link st (cs.foldl endWait st) := by
  induction cs generalizing st with
  | nil => exact .refl st
  | cons c rest ih => exact (endWait_link st c).trans (ih _)

theorem handleDetached_link (c : CallId) : Link st (handleDetached env st c) := by
  unfold handleDetached
  split
  · exact renameDial_link env st c _ _
  · exact .refl st

theorem handleRenameRetry_link (c : CallId) : Link st (handleRenameRetry env st c) := by
  unfold handleRenameRetry
  split
  · exact (setRename_link st c _).trans (doConnect_link env _ _)
  · exact .refl st

theorem handleSocketError_link (sock : ClientSocketId) : Link st (handleSocketError st sock) := by
  unfold handleSocketError
  split
  · split
    · exact .refl st
    · exact (failHandshake_link st sock _).trans (.setConn _ _)
  · exact .refl st

theorem handleHelloTimeout_link (sock : ClientSocketId) : Link st (handleHelloTimeout st sock) := by
  unfold handleHelloTimeout
  split
  · split
    · exact (Link.setConn _ _).trans (failHandshake_link _ sock _)
    · exact .refl st
  · exact .refl st

end Functions

/-! ### Returning -/

theorem finish_has (st : ClientState ν) (c : CallId) (r : CallResult ν) :
    (st.finish c r).results.has c = true := by
  unfold ClientState.finish
  dsimp only
  by_cases h : st.results.has c = true
  · rw [if_pos h]
    exact h
  · rw [if_neg h]
    simp [Map.has]

/-- A result stays. -/
theorem finish_keeps_results (st : ClientState ν) (c : CallId) (r : CallResult ν) {c' : CallId}
    {r' : CallResult ν} (h : st.results.get? c' = some r') :
    (st.finish c r).results.get? c' = some r' := by
  unfold ClientState.finish
  by_cases hc : st.results.has c = true
  · simpa [hc] using h
  · have hne : c' ≠ c := by
      intro heq
      exact hc (by simp [Map.has, ← heq, h])
    simpa [hc, Map.get?_set_ne _ _ hne] using h

/-! ### Bookkeeping -/

def Job.isResolved : Job ν → Bool
  | .resolved _ _ _ => true
  | _ => false

/-- The connection and the calls: where they are, what they wait for and what they wrote. -/
def ClientState.ledger (st : ClientState ν) :=
  (st.conn, st.calls, st.results, st.ackWaiters, st.statusWaiters, st.ids, st.outbox, st.sent)

/-- Only missions, news of the others and what was emitted changed; promises of missions
were resolved. -/
structure Booked (st st' : ClientState ν) : Prop where
  ledger : st'.ledger = st.ledger
  jobs : ∃ js, st'.jobs = st.jobs ++ js ∧ ∀ j ∈ js, Job.isResolved j = true

namespace Booked

variable {st st' st'' : ClientState ν}

theorem of_same (h : st'.ledger = st.ledger) (hjobs : st'.jobs = st.jobs) : Booked st st' :=
  ⟨h, [], by simp [hjobs], by simp⟩

theorem refl (st : ClientState ν) : Booked st st := of_same rfl rfl

theorem trans (h : Booked st st') (h' : Booked st' st'') : Booked st st'' := by
  obtain ⟨hl, js, hjs, hr⟩ := h
  obtain ⟨hl', js', hjs', hr'⟩ := h'
  refine ⟨hl'.trans hl, js ++ js', by rw [hjs', hjs, List.append_assoc], ?_⟩
  intro j hj
  rcases List.mem_append.mp hj with hj | hj
  · exact hr j hj
  · exact hr' j hj

/-- The same, from a state in which nothing of this was touched yet. -/
theorem after {st₁ : ClientState ν} (h : Booked st₁ st') (hl : st₁.ledger = st.ledger)
    (hjobs : st₁.jobs = st.jobs) : Booked st st' := (of_same hl hjobs).trans h

theorem push (st : ClientState ν) {js : List (Job ν)} (h : ∀ j ∈ js, Job.isResolved j = true) :
    Booked st (st.push js) := ⟨rfl, js, rfl, h⟩

theorem foldl {α : Type} {f : ClientState ν → α → ClientState ν} (hf : ∀ st a, Booked st (f st a))
    (l : List α) (st : ClientState ν) : Booked st (l.foldl f st) := by
  induction l generalizing st with
  | nil => exact refl st
  | cons a rest ih => exact (hf st a).trans (ih _)

theorem calls (h : Booked st st') : st'.calls = st.calls := congrArg (fun l => l.2.1) h.ledger

theorem results (h : Booked st st') : st'.results = st.results :=
  congrArg (fun l => l.2.2.1) h.ledger

theorem ackWaiters (h : Booked st st') : st'.ackWaiters = st.ackWaiters :=
  congrArg (fun l => l.2.2.2.1) h.ledger

theorem statusWaiters (h : Booked st st') : st'.statusWaiters = st.statusWaiters :=
  congrArg (fun l => l.2.2.2.2.1) h.ledger

theorem ids (h : Booked st st') : st'.ids = st.ids := congrArg (fun l => l.2.2.2.2.2.1) h.ledger

theorem outbox (h : Booked st st') : st'.outbox = st.outbox :=
  congrArg (fun l => l.2.2.2.2.2.2.1) h.ledger

theorem sent (h : Booked st st') : st'.sent = st.sent :=
  congrArg (fun l => l.2.2.2.2.2.2.2) h.ledger

end Booked

section Bookkeeping

variable (env : ClientEnv) (now : Int) (st : ClientState ν)

theorem settle_booked (id : String) (r : Resolution ν) : Booked st (st.settle id r) := by
  unfold ClientState.settle
  split
  · exact .push st (by simp [Job.isResolved])
  · exact .of_same rfl rfl

theorem setPending_booked (r : PendingReplies × Resolved ν) : Booked st (st.setPending r) := by
  have hbook : Booked st { st with book := { st.book with pending := r.1 } } := .of_same rfl rfl
  exact hbook.trans (.foldl (fun st e => settle_booked st e.1 e.2) r.2 _)

theorem watch_booked (id : String) (w : Watcher) : Booked st (st.watch id w) := by
  unfold ClientState.watch
  dsimp only
  split
  · exact (Booked.push _ (by simp [Job.isResolved])).after rfl rfl
  · exact .of_same rfl rfl

theorem setMission_booked (id : String) (f : Mission → Mission) : Booked st (st.setMission id f) := by
  unfold ClientState.setMission
  split
  · exact .of_same rfl rfl
  · exact .refl st

theorem failMission_booked (id : String) (code : Option MeshErrorCode) :
    Booked st (failMission st id code) := by
  have htarget : ∀ st : ClientState ν, Booked st (st.dropTarget id) := fun _ => .of_same rfl rfl
  exact ((setPending_booked st _).trans (htarget _)).trans (setMission_booked _ id _)

theorem expireMission_booked (id : String) : Booked st (expireMission st id) :=
  (setMission_booked st id _).trans (.of_same rfl rfl)

theorem registerMission_booked (plan : SendPlan) (id : String) :
    Booked st (registerMission st now plan id) :=
  (setPending_booked _ _).after rfl rfl

theorem cancelAllAwaited_booked : Booked st (cancelAllAwaited st) := by
  unfold cancelAllAwaited
  refine Booked.trans (.foldl ?_ _ st) (.of_same rfl rfl)
  intro s id
  exact (setPending_booked _ _).after rfl rfl

theorem keepInbound_booked (frame : Inbound ν) : Booked st (keepInbound st frame) := by
  unfold keepInbound
  split
  · exact .refl st
  · exact .of_same (by simp only [ClientState.ledger]) rfl

theorem noteInboundFrom_booked (frame : Inbound ν) : Booked st (noteInboundFrom st frame) := by
  unfold noteInboundFrom
  split
  · exact .of_same rfl rfl
  · exact .refl st

theorem surface_booked (frame : Inbound ν) (e : Emit ν) :
    Booked st ((keepInbound st frame).emit e) :=
  (keepInbound_booked st frame).trans (.of_same rfl rfl)

theorem onMatchedReply_booked (frame : Inbound ν) (replyTo : String) (wake : Bool) :
    Booked st (onMatchedReply env now st frame replyTo wake) := by
  unfold onMatchedReply
  dsimp only
  have hmission : Booked st (ClientState.setMission
      { st with book := markReplyHandled env now st.book replyTo (frame.body.getD "") } replyTo
      fun m => { m with
        status := .answered, answered := true, response := some (frame.body.getD "")
        ts := some frame.ts }) :=
    (setMission_booked _ _ _).after rfl rfl
  split
  · exact hmission.trans (surface_booked _ frame _)
  · exact hmission.trans (.of_same rfl rfl)

theorem onOrphanReply_booked (frame : Inbound ν) : Booked st (onOrphanReply env now st frame) := by
  unfold onOrphanReply
  split
  · exact surface_booked st frame _
  · dsimp only
    split
    · exact .of_same rfl rfl
    · exact (surface_booked _ frame _).after rfl rfl

theorem onReply_booked (frame : Inbound ν) : Booked st (onReply env now st frame) := by
  unfold onReply
  split
  · exact surface_booked st frame _
  · have hnote := noteInboundFrom_booked st frame
    dsimp only
    split
    · exact hnote.trans (onOrphanReply_booked env now _ frame)
    · have hpending := hnote.trans (setPending_booked (noteInboundFrom st frame)
        (((noteInboundFrom st frame).book.pending.handleReply frame).1,
          ((noteInboundFrom st frame).book.pending.handleReply frame).2.1))
      split
      · exact hpending.trans (onMatchedReply_booked env now _ frame _ _)
      · exact hpending.trans (onOrphanReply_booked env now _ frame)

theorem onPresence_booked (frame : Inbound ν) : Booked st (onPresence st frame) := by
  unfold onPresence
  split
  · split
    · unfold onOffline
      extract_lets peerRooms st₁
      by_cases hknown : peerRooms.has ‹String› = true
      · rw [if_pos hknown]
        exact .of_same rfl rfl
      · rw [if_neg hknown]
        exact .of_same rfl rfl
    · split
      · unfold onOnline
        split
        · exact .of_same rfl rfl
        · exact .refl st
      · exact .refl st
  · exact .refl st

/-- A frame that settles nobody's request. -/
theorem onFrame_booked (frame : Inbound ν) (hack : frame.type ≠ .ack)
    (hstatus : frame.type ≠ .statusRes) (herror : frame.type ≠ .error) :
    Booked st (onFrame env now st frame) := by
  unfold onFrame
  split
  · exact absurd ‹_› hack
  · exact absurd ‹_› hstatus
  · exact ((keepInbound_booked st frame).trans (noteInboundFrom_booked _ frame)).trans (.of_same rfl rfl)
  · exact ((keepInbound_booked st frame).trans (noteInboundFrom_booked _ frame)).trans (.of_same rfl rfl)
  · unfold onReserve
    split
    · exact .of_same rfl rfl
    · exact .refl st
  · exact .of_same rfl rfl
  · exact onReply_booked env now st frame
  · unfold onActivity
    split
    · exact .of_same rfl rfl
    · exact .refl st
  · exact onPresence_booked st frame
  · exact absurd ‹_› herror
  · exact .refl st

end Bookkeeping

/-! ### Paperwork -/

/-- The connection, what is written and what is queued to be written did not change; jobs
were queued, but none about the connection. -/
structure Paper (st st' : ClientState ν) : Prop where
  conn : st'.conn = st.conn
  outbox : st'.outbox = st.outbox
  sent : st'.sent = st.sent
  ids : st'.ids = st.ids
  jobs : ∃ js, st'.jobs = st.jobs ++ js ∧ ∀ j ∈ js, j.isLink = false

theorem Booked.paper {st st' : ClientState ν} (h : Booked st st') : Paper st st' := by
  obtain ⟨js, hjs, hr⟩ := h.jobs
  refine ⟨congrArg Prod.fst h.ledger, h.outbox, h.sent, h.ids, js, hjs, ?_⟩
  intro j hj
  have hresolved := hr j hj
  cases j with
  | resolved => rfl
  | _ => cases hresolved

namespace Paper

variable {st st' st'' : ClientState ν}

theorem refl (st : ClientState ν) : Paper st st := (Booked.refl st).paper

theorem trans (h : Paper st st') (h' : Paper st' st'') : Paper st st'' := by
  obtain ⟨js, hjs, hl⟩ := h.jobs
  obtain ⟨js', hjs', hl'⟩ := h'.jobs
  refine ⟨h'.conn.trans h.conn, h'.outbox.trans h.outbox, h'.sent.trans h.sent,
    h'.ids.trans h.ids, js ++ js', by rw [hjs', hjs, List.append_assoc], ?_⟩
  intro j hj
  rcases List.mem_append.mp hj with hj | hj
  · exact hl j hj
  · exact hl' j hj

theorem push (st : ClientState ν) {js : List (Job ν)} (h : ∀ j ∈ js, j.isLink = false) :
    Paper st (st.push js) := ⟨rfl, rfl, rfl, rfl, js, rfl, h⟩

/-- Where only calls, requests and rooms changed. -/
theorem of_same (hconn : st'.conn = st.conn) (houtbox : st'.outbox = st.outbox)
    (hsent : st'.sent = st.sent) (hids : st'.ids = st.ids) (hjobs : st'.jobs = st.jobs) :
    Paper st st' := ⟨hconn, houtbox, hsent, hids, [], by simp [hjobs], by simp⟩

theorem finish (st : ClientState ν) (c : CallId) (r : CallResult ν) : Paper st (st.finish c r) :=
  of_same rfl rfl rfl rfl rfl

theorem setStage (st : ClientState ν) (c : CallId) (s : Stage) : Paper st (st.setStage c s) :=
  of_same rfl rfl rfl rfl rfl

theorem foldl {α : Type} {f : ClientState ν → α → ClientState ν} (hf : ∀ st a, Paper st (f st a))
    (l : List α) (st : ClientState ν) : Paper st (l.foldl f st) := by
  induction l generalizing st with
  | nil => exact refl st
  | cons a rest ih => exact (hf st a).trans (ih _)

end Paper

section Paperwork

variable (env : ClientEnv) (now : Int) (st : ClientState ν)

theorem sendAcked_paper (c : CallId) (plan : SendPlan) (id : String) (ack : Ack) :
    Paper st (sendAcked st c plan id ack) := by
  unfold sendAcked
  split
  · dsimp only
    split
    · exact (failMission_booked st id _).paper.trans (.finish _ c _)
    · exact .finish st c _
  · split
    · exact .finish st c _
    · split
      · exact (watch_booked st id _).paper.trans (.finish _ c _)
      · dsimp only
        split
        · exact ((setPending_booked st _).paper.trans (.setStage _ c _)).trans (watch_booked _ id _).paper
        · exact (Paper.setStage st c _).trans (watch_booked _ id _).paper

theorem dropTarget_booked (id : String) : Booked st (st.dropTarget id) := .of_same rfl rfl

theorem sendResolved_paper (c : CallId) (id : String) (r : Resolution ν) :
    Paper st (sendResolved st c id r) := by
  have htarget := (dropTarget_booked st id).paper
  have hmission : Booked (st.dropTarget id) ((st.dropTarget id).dropMission id) := .of_same rfl rfl
  unfold sendResolved
  dsimp only
  split
  · exact htarget.trans (.finish _ c _)
  · exact (htarget.trans (expireMission_booked _ id).paper).trans (.finish _ c _)
  · exact (htarget.trans hmission.paper).trans (.finish _ c _)
  · exact htarget.trans (.finish _ c _)

theorem launchResolved_booked (id : String) (r : Resolution ν) :
    Booked st (launchResolved st id r) := by
  have htarget := dropTarget_booked st id
  unfold launchResolved
  dsimp only
  split
  · exact htarget.trans (expireMission_booked _ id)
  · exact htarget

theorem handleResolved_paper (w : Watcher) (id : String) (r : Resolution ν) :
    Paper st (handleResolved st w id r) := by
  unfold handleResolved
  split
  · exact (launchResolved_booked st id r).paper
  · split
    · exact sendResolved_paper st _ id r
    · exact .refl st

theorem replyAcked_paper (c : CallId) (id : String) (ack : Ack) :
    Paper st (replyAcked st c id ack) := by
  unfold replyAcked
  split
  · exact .finish st c _
  · split
    · exact .finish st c _
    · exact .finish st c _

theorem tripAcked_paper (c : CallId) (use : TripUse) (id : String) (ack : Ack) :
    Paper st (tripAcked st c use id ack) := by
  unfold tripAcked
  split
  · split
    · exact .finish st c _
    · exact .of_same rfl rfl rfl rfl rfl
  · split
    · exact .finish st c _
    · exact .of_same rfl rfl rfl rfl rfl
  · split
    · exact .finish st c _
    · exact .of_same rfl rfl rfl rfl rfl
  · split
    · dsimp only
      split
      · exact .of_same rfl rfl rfl rfl rfl
      · exact .finish st c _
    · exact .of_same rfl rfl rfl rfl rfl

theorem handleAcked_paper (c : CallId) (ack : Ack) : Paper st (handleAcked st c ack) := by
  unfold handleAcked
  split
  · exact sendAcked_paper st c _ _ ack
  · exact replyAcked_paper st c _ ack
  · exact tripAcked_paper st c _ _ ack
  · exact .refl st

theorem loseRequests_paper : Paper st (loseRequests st) := by
  unfold loseRequests
  have hlost : ∀ cs : List CallId, Paper st (st.push (cs.map fun c =>
      .acked c { code := some (some .internal), status := some "connection_lost" })) := by
    intro cs
    exact .push st (by simp)
  have hstatus : ∀ (cs : List CallId) (s : ClientState ν),
      Paper s (cs.foldl (fun st c => st.finish c (.snapshot [] [] none)) s) := by
    intro cs s
    exact .foldl (fun st c => .finish st c _) cs s
  exact ((hlost _).trans (hstatus _ _)).trans (.of_same rfl rfl rfl rfl rfl)

theorem endWaitAll_paper (c : CallId) (start : Int) (targets : List String)
    (status : WaitAllStatus) : Paper st (endWaitAll env now st c start targets status) :=
  .of_same rfl rfl rfl rfl rfl

theorem tickWaitAll_paper (c : CallId) (start deadline : Int) (targets : List String)
    (signal : Bool) : Paper st (tickWaitAll env now st c start deadline targets signal) := by
  unfold tickWaitAll
  split
  · exact endWaitAll_paper env now st c start targets _
  · split
    · exact endWaitAll_paper env now st c start targets _
    · exact .setStage st c _

theorem startWaitAll_paper (c : CallId) (timeoutMs : Int) (signal : Bool) :
    Paper st (startWaitAll env now st c timeoutMs signal) := by
  have hcount : Paper st { st with
      book := { st.book with waitAllInFlight := st.book.waitAllInFlight + 1 } } :=
    .of_same rfl rfl rfl rfl rfl
  unfold startWaitAll
  dsimp only
  split
  · exact hcount.trans (endWaitAll_paper env now _ c _ _ _)
  · exact hcount.trans (tickWaitAll_paper env now _ c _ _ _ _)

theorem handleTick_paper (c : CallId) : Paper st (handleTick env now st c) := by
  unfold handleTick
  split
  · exact tickWaitAll_paper env now st c _ _ _ _
  · exact .refl st

theorem handleAbort_paper (c : CallId) : Paper st (handleAbort env now st c) := by
  have haborted : Paper st { st with aborted := st.aborted.add c } :=
    .of_same rfl rfl rfl rfl rfl
  unfold handleAbort
  dsimp only
  split
  · split
    · exact haborted.trans (setPending_booked _ _).paper
    · exact haborted
  · exact haborted.trans (endWaitAll_paper env now _ c _ _ _)
  · exact haborted

/-- A waiter is settled. -/
theorem answer_paper (id : String) (c : CallId) (ack : Ack) :
    Paper st (ClientState.push { st with ackWaiters := st.ackWaiters.delete id } [.acked c ack]) :=
  (Paper.of_same rfl rfl rfl rfl rfl :
    Paper st { st with ackWaiters := st.ackWaiters.delete id }).trans (.push _ (by simp))

theorem handleAckTimeout_paper (id : String) : Paper st (handleAckTimeout st id) := by
  unfold handleAckTimeout
  split
  · exact answer_paper st id _ _
  · exact .refl st

theorem handleStatusTimeout_paper (id : String) : Paper st (handleStatusTimeout st id) := by
  unfold handleStatusTimeout
  split
  · exact .of_same rfl rfl rfl rfl rfl
  · exact .refl st

theorem handleClosed_paper (c : CallId) : Paper st (handleClosed st c) := by
  unfold handleClosed
  split
  · exact .finish st c _
  · exact .refl st

/-! ### Frames -/

theorem onStatus_paper (frame : Inbound ν) : Paper st (onStatus st frame) := by
  unfold onStatus
  split
  · exact .of_same rfl rfl rfl rfl rfl
  · exact .refl st

theorem onStatusRes_paper (frame : Inbound ν) : Paper st (onStatusRes st frame) := by
  unfold onStatusRes
  extract_lets others rooms
  have hrooms : Paper st { st with peerRooms := rooms } := .of_same rfl rfl rfl rfl rfl
  exact hrooms.trans (onStatus_paper _ frame)

theorem onAck_paper (frame : Inbound ν) : Paper st (onAck st frame) := by
  unfold onAck
  split
  · exact answer_paper st _ _ _
  · split
    · have hmission := (setPending_booked st (st.book.pending.cancel frame.id .droppedOffline)).trans
        (setMission_booked _ frame.id fun m =>
          { m with status := .failed, response := some CancelReason.droppedOffline.text })
      exact hmission.paper.trans (.of_same rfl rfl rfl rfl rfl)
    · exact .refl st

theorem onError_paper (frame : Inbound ν) : Paper st (onError st frame) := by
  unfold onError
  dsimp only
  split
  · exact (answer_paper st _ _ _).trans (onStatus_paper _ frame)
  · exact onStatus_paper st frame

/-- A frame after the handshake is paperwork. -/
theorem onFrame_paper (frame : Inbound ν) : Paper st (onFrame env now st frame) := by
  by_cases hack : frame.type = .ack
  · rw [onFrame, hack]
    exact onAck_paper st frame
  · by_cases hstatus : frame.type = .statusRes
    · rw [onFrame, hstatus]
      exact onStatusRes_paper st frame
    · by_cases herror : frame.type = .error
      · rw [onFrame, herror]
        exact onError_paper st frame
      · exact (onFrame_booked env now st frame hack hstatus herror).paper

end Paperwork

end PiMesh
