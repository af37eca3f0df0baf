/-
What a rename does to missions.

A rename gives the missions up where it detaches the old alias: at its call if the client is
online then, and otherwise once it is connected.  So there are two things to know of a step: a
rename that waits for the connection is one that was called offline, and a promise that is
resolved with `renamed` is that of a mission which was live when some rename detached.
-/
import PiMesh.Proofs.Missions

namespace PiMesh

open Js Transition

variable {ν : Type} [Number ν]

/-! ### Renames that wait for the connection -/

/-- No other rename waits for `connect()` than did before. -/
def NoNewWait (st st' : ClientState ν) : Prop :=
  ∀ c target, st'.conn.renames.get? c = some (.connecting target) →
    st.conn.renames.get? c = some (.connecting target)

namespace NoNewWait

variable {st st' st'' : ClientState ν}

theorem refl (st : ClientState ν) : NoNewWait st st := fun _ _ h => h

theorem trans (h : NoNewWait st st') (h' : NoNewWait st' st'') : NoNewWait st st'' :=
  fun c target hc => h c target (h' c target hc)

theorem of_renames (h : st'.conn.renames = st.conn.renames) : NoNewWait st st' := by
  intro c target hc
  rw [h] at hc
  exact hc

theorem of_still (h : Still st st') : NoNewWait st st' := of_renames (by rw [h.conn])

/-- A rename goes to another stage. -/
theorem setRename (st : ClientState ν) (c : CallId) {stage : RenameStage}
    (h : ∀ target, stage ≠ .connecting target) : NoNewWait st (setRename st c stage) := by
  intro c' target hc
  have hc : (st.conn.renames.set c stage).get? c' = some (.connecting target) := hc
  rw [Map.get?_set] at hc
  by_cases heq : c' = c
  · rw [if_pos heq] at hc
    exact absurd (Option.some.inj hc) (h target)
  · rwa [if_neg heq] at hc

/-- A rename returns. -/
theorem finishRename (st : ClientState ν) (c : CallId) (r : CallResult ν) :
    NoNewWait st (finishRename st c r) := by
  refine trans ?_ (of_still (finishRename_still st c r))
  intro c' target hc
  have hc : (st.conn.renames.delete c).get? c' = some (.connecting target) := hc
  rw [Map.get?_delete] at hc
  by_cases heq : c' = c
  · rw [if_pos heq] at hc
    cases hc
  · rwa [if_neg heq] at hc

end NoNewWait

section Connection

variable (env : ClientEnv) (now : Int) (st : ClientState ν)

theorem renames_modifySocket (k : Conn) (sock : ClientSocketId) (f : ClientSocket → ClientSocket) :
    (k.modifySocket sock f).renames = k.renames := by
  unfold Conn.modifySocket
  split
  · rfl
  · rfl

theorem renames_clearHelloTimer (k : Conn) : k.clearHelloTimer.renames = k.renames := by
  unfold Conn.clearHelloTimer
  split
  · exact renames_modifySocket ..
  · rfl

theorem renames_clearReconnectTimer (k : Conn) : k.clearReconnectTimer.renames = k.renames := by
  unfold Conn.clearReconnectTimer
  split
  · rfl
  · rfl

theorem renames_doConnect (owner : Owner) : (doConnect env st owner).conn.renames = st.conn.renames := by
  unfold doConnect openSocket
  split
  · rfl
  · dsimp only
    split
    · rfl
    · rfl
  · rfl

theorem renames_connect (w : Waiter) : (connect env st w).conn.renames = st.conn.renames := by
  unfold connect
  dsimp only
  split
  · rfl
  · split
    · rfl
    · exact renames_doConnect ..

theorem renames_failHandshake (sock : ClientSocketId) (err : ConnectError) :
    (failHandshake st sock err).conn.renames = st.conn.renames := by
  unfold failHandshake
  split
  · split
    · rfl
    · exact (renames_modifySocket ..).trans (renames_clearHelloTimer _)
  · rfl

theorem renames_acceptWelcome (sock : ClientSocketId) (owner : Owner) (frame : Inbound ν) :
    (acceptWelcome st sock owner frame).conn.renames = st.conn.renames :=
  (renames_modifySocket ..).trans (renames_clearHelloTimer _)

theorem renames_handleWelcomed (owner : Owner) (info : WelcomeInfo ν) :
    (handleWelcomed env st owner info).conn.renames = st.conn.renames := by
  let k := { st.conn with heartbeat := true, watchdog := true }
  have hflush : Still (st.setConn k) (flushOutbox env (st.setConn k)).1 := flushFrames_still env _ _
  have hconn : (flushOutbox env (st.setConn k)).1.conn.renames = st.conn.renames :=
    (congrArg Conn.renames hflush.conn).trans rfl
  unfold handleWelcomed
  dsimp only
  split
  · next st' hres =>
    rw [hres] at hconn
    exact hconn
  · next st' hres =>
    rw [hres] at hconn
    exact hconn

theorem renames_handleDialed (r : Except ConnectError (WelcomeInfo ν)) :
    (handleDialed env st r).conn.renames = st.conn.renames := by
  unfold handleDialed
  split
  · rfl
  · split
    · dsimp only
      split
      · rfl
      · rfl
    · rfl
    · split
      · rfl
      · split
        · rfl
        · dsimp only
          split
          · rfl
          · exact renames_doConnect ..

theorem renames_handleConnectDone (r : Except ConnectError (WelcomeInfo ν)) :
    (handleConnectDone st r).conn.renames = st.conn.renames := by
  unfold handleConnectDone
  split
  · rfl
  · dsimp only
    split
    · rfl
    · rfl

theorem renames_onSocketClosed (closed : Option ClientSocketId) :
    (onSocketClosed env st closed).conn.renames = st.conn.renames := by
  unfold onSocketClosed
  split
  · rfl
  · split
    · rfl
    · extract_lets lost st₁ k
      have hlost : k.renames = st.conn.renames :=
        (congrArg Conn.renames (loseRequests_paper (ν := ν) _).still.conn).trans rfl
      split
      · exact hlost
      · exact hlost

end Connection

section Renames

variable (env : ClientEnv) (now : Int) (st : ClientState ν) (c : CallId)

theorem renameDial_wait (target old : String) : NoNewWait st (renameDial env st c target old) := by
  refine NoNewWait.trans ?_ (.of_renames (renames_doConnect ..))
  exact NoNewWait.trans (.of_renames rfl) (.setRename _ c fun _ h => by cases h)

theorem renames_detach (k : Conn) : k.detach.renames = k.renames := renames_clearReconnectTimer k

theorem renameDetach_wait (target : String) : NoNewWait st (renameDetach env st c target) := by
  obtain ⟨st₁, hconn, -, heq⟩ := renameDetach_eq env st c target
  have hsame : st₁.conn.renames = st.conn.renames := by rw [hconn, renames_detach]
  rw [heq]
  split
  · refine NoNewWait.trans (.of_renames ?_) (.setRename _ c fun _ h => by cases h)
    exact (renames_modifySocket ..).trans hsame
  · exact NoNewWait.trans (.of_renames hsame) (renameDial_wait env st₁ c target _)

/-- A rename waits for the connection only if it is called offline. -/
theorem startRename_wait (newAlias : String) (c' : CallId) (target : String)
    (h : (startRename env st c newAlias).conn.renames.get? c' = some (.connecting target)) :
    st.conn.renames.get? c' = some (.connecting target) ∨ c' = c ∧ st.conn.online = false := by
  unfold startRename at h
  dsimp only at h
  split at h
  · exact .inl (NoNewWait.finishRename (st.setStage c .rename) c _ c' target h)
  · split at h
    · exact .inl (NoNewWait.finishRename (st.setStage c .rename) c _ c' target h)
    · split at h
      · next hoff =>
        rw [renames_connect] at h
        have h : (st.conn.renames.set c _).get? c' = _ := h
        rw [Map.get?_set] at h
        by_cases heq : c' = c
        · exact .inr ⟨heq, by simpa [ClientState.setStage] using hoff⟩
        · rw [if_neg heq] at h
          exact .inl h
      · exact .inl (renameDetach_wait env (st.setStage c .rename) c _ c' target h)

theorem endDetach_wait : NoNewWait st (endDetach st c) := by
  unfold endDetach
  split
  · exact NoNewWait.trans (.setRename st c fun _ h => by cases h) (.of_renames rfl)
  · exact .refl st

theorem handleDetached_wait : NoNewWait st (handleDetached env st c) := by
  unfold handleDetached
  split
  · exact renameDial_wait env st c _ _
  · exact .refl st

theorem handleRenameDialed_wait (r : Except ConnectError (WelcomeInfo ν)) :
    NoNewWait st (handleRenameDialed env st c r) := by
  unfold handleRenameDialed
  split
  · split
    · exact NoNewWait.trans (.of_renames rfl) (.finishRename _ c _)
    · split
      · exact .setRename st c fun _ h => by cases h
      · refine NoNewWait.trans (.of_renames rfl) (NoNewWait.trans (.setRename _ c ?_)
          (.of_renames (renames_connect ..)))
        exact fun _ h => by cases h
  · exact .refl st

theorem handleRenameRetry_wait : NoNewWait st (handleRenameRetry env st c) := by
  unfold handleRenameRetry
  split
  · exact NoNewWait.trans (.setRename st c fun _ h => by cases h) (.of_renames (renames_doConnect ..))
  · exact .refl st

theorem handleRenameConnected_wait (r : Except ConnectError (WelcomeInfo ν)) :
    NoNewWait st (handleRenameConnected env st c r) := by
  unfold handleRenameConnected
  split
  · exact renameDetach_wait env st c _
  · exact .finishRename st c _
  · exact .finishRename st c _
  · exact .refl st

theorem startClose_wait : NoNewWait st (startClose st c) := by
  obtain ⟨st₁, hconn, -, heq⟩ := startClose_eq st c
  have hsame : st₁.conn.renames = st.conn.renames := by
    rw [hconn]
    exact renames_detach st.conn
  rw [heq]
  split
  · exact .of_renames ((renames_modifySocket ..).trans hsame)
  · exact .of_renames hsame

theorem endWait_wait : NoNewWait st (endWait st c) := by
  refine NoNewWait.trans (endDetach_wait st c) (.of_renames ?_)
  unfold endWait endClose
  split
  · rfl
  · rfl

end Renames

section Handlers

variable (env : ClientEnv) (now : Int) (st : ClientState ν) (c : CallId)

theorem connect_stage_wait (stage : Stage) (w : Waiter) :
    NoNewWait st (connect env (st.setStage c stage) w) := .of_renames (renames_connect ..)

theorem roundTrip_wait (use : TripUse) (frame : ClientFrame) :
    NoNewWait st (roundTrip env st c use frame) := by
  unfold roundTrip
  split
  · exact .of_still (sendTrip_still env st c use frame)
  · split
    · exact .of_renames rfl
    · exact connect_stage_wait env st c _ _

theorem roundTrip_useId_wait (use : TripUse) (frame : ClientFrame) :
    NoNewWait st (roundTrip env st.useId c use frame) :=
  NoNewWait.trans (.of_renames rfl) (roundTrip_wait env st.useId c use frame)

/-- A call that is no rename, and the rename itself. -/
theorem handleCall_wait (op : Op) (c' : CallId) (target : String)
    (h : (handleCall env now st c op).conn.renames.get? c' = some (.connecting target)) :
    st.conn.renames.get? c' = some (.connecting target) ∨
      c' = c ∧ st.conn.online = false ∧ ∃ newAlias, op = .rename newAlias := by
  by_cases hrename : ∃ newAlias, op = .rename newAlias
  · obtain ⟨newAlias, rfl⟩ := hrename
    rcases startRename_wait env st c newAlias c' target h with h | ⟨heq, hoff⟩
    · exact .inl h
    · exact .inr ⟨heq, hoff, newAlias, rfl⟩
  · have hwait : NoNewWait st (handleCall env now st c op) := by
      cases op with
      | connect => exact connect_stage_wait env st c _ _
      | send opts =>
          unfold handleCall startSend
          dsimp only
          split
          · exact .of_still (.finish st c _)
          · split
            · exact .of_still (issueSend_still env now st c _)
            · exact connect_stage_wait env st c _ _
      | reply msgId body opts =>
          unfold handleCall startReply
          dsimp only
          split
          · exact .of_still (.finish st c _)
          · split
            · exact .of_still (issueReply_still env now st c _)
            · exact connect_stage_wait env st c _ _
      | reserve patterns reason =>
          unfold handleCall startReserve
          dsimp only
          split
          · exact .of_still (.finish st c _)
          · exact .of_still (.finish st c _)
          · split
            · exact roundTrip_useId_wait env st c _ _
            · exact connect_stage_wait env st c _ _
      | release patterns =>
          unfold handleCall startRelease
          dsimp only
          split
          · exact .of_still (.finish st c _)
          · split
            · exact roundTrip_useId_wait env st c _ _
            · exact connect_stage_wait env st c _ _
      | join room role => exact roundTrip_useId_wait env st c _ _
      | leave room => exact roundTrip_useId_wait env st c _ _
      | status room => exact .of_still (startStatus_still env now st c room)
      | rename newAlias => exact absurd ⟨newAlias, rfl⟩ hrename
      | close => exact startClose_wait st c
      | waitAll timeoutMs signal => exact .of_still (startWaitAll_paper env now st c timeoutMs signal).still
      | cancelAllAwaited =>
          exact .of_still ((cancelAllAwaited_booked st).paper.still.trans (.finish _ c _))
      | forgetRoom room => exact .of_renames rfl
      | sendActivity state => exact .of_still ((sendNotice_still env st _).trans (.finish _ c _))
      | sendRead msgId recipient => exact .of_still ((sendNotice_still env st _).trans (.finish _ c _))
    exact .inl (hwait c' target h)

theorem handleCallConnected_wait (info : WelcomeInfo ν) :
    NoNewWait st (handleCallConnected env now st c info) := by
  unfold handleCallConnected
  split
  · exact .of_still (.finish st c _)
  · exact .of_still (issueSend_still env now st c _)
  · exact .of_still (issueReply_still env now st c _)
  · exact roundTrip_useId_wait env st c _ _
  · exact roundTrip_useId_wait env st c _ _
  · exact .of_still (sendTrip_still env st c _ _)
  · exact handleRenameConnected_wait env st c _
  · exact .refl st

theorem handleCallRefused_wait (err : ConnectError) :
    NoNewWait st (handleCallRefused env st c err) := by
  unfold handleCallRefused
  split
  · exact .of_still (.finish st c _)
  · exact .of_still (.finish st c _)
  · exact .of_still (.finish st c _)
  · exact .of_still (.finish st c _)
  · exact .of_still (.finish st c _)
  · exact .of_renames rfl
  · exact handleRenameConnected_wait env st c _
  · exact .refl st

theorem handleJob_wait (j : Job ν) : NoNewWait st (handleJob env now st j) := by
  cases j with
  | acked c ack => exact .of_still (handleAcked_paper st c ack).still
  | resolved w id r => exact .of_still (handleResolved_paper st w id r).still
  | connected w info =>
      cases w with
      | call c => exact handleCallConnected_wait env now st c info
      | backoff => exact .refl st
      | watchdog => exact .refl st
  | connectFailed w err =>
      cases w with
      | call c => exact handleCallRefused_wait env st c err
      | backoff => exact .of_renames (renames_onSocketClosed env st none)
      | watchdog => exact .refl st
  | welcomed owner info => exact .of_renames (renames_handleWelcomed env st owner info)
  | dialed owner r =>
      cases owner with
      | connect => exact .of_renames (renames_handleDialed env st r)
      | rename c => exact handleRenameDialed_wait env st c r
  | connectDone r => exact .of_renames (renames_handleConnectDone st r)
  | detached c => exact handleDetached_wait env st c
  | closed c => exact .of_still (handleClosed_paper st c).still

theorem handleSocketClose_wait (sock : ClientSocketId) :
    NoNewWait st (handleSocketClose env st sock) := by
  unfold handleSocketClose
  split
  · split
    · exact .refl st
    · extract_lets st₁ st₂ st₃
      have hclosed : NoNewWait st st₁ := .of_renames (renames_modifySocket ..)
      have hfailed : NoNewWait st₁ st₂ := .of_renames (renames_failHandshake st₁ sock _)
      have hlost : NoNewWait st₂ st₃ := by
        show NoNewWait st₂ (if _ then _ else _)
        split
        · exact .of_renames (renames_onSocketClosed env st₂ _)
        · exact .refl st₂
      have hwaits : ∀ (cs : List CallId) (s : ClientState ν), NoNewWait s (cs.foldl endWait s) := by
        intro cs
        induction cs with
        | nil => exact fun s => .refl s
        | cons c cs ih => exact fun s => (endWait_wait s c).trans (ih _)
      exact ((hclosed.trans hfailed).trans hlost).trans (hwaits _ _)
  · exact .refl st

theorem handleTurn_wait (e : ClientEvent ν) : NoNewWait st (handleTurn env now st e) := by
  cases e with
  | ensured owner ok =>
      unfold handleTurn handleEnsured openSocket
      dsimp only
      refine .of_renames ?_
      split
      · split
        · split
          · rfl
          · rfl
        · rfl
      · rfl
  | connected sock =>
      unfold handleTurn handleConnected
      dsimp only
      refine .of_renames ?_
      split
      · split
        · exact renames_modifySocket ..
        · rfl
      · rfl
  | oversized sock => exact .of_renames (renames_failHandshake st sock _)
  | helloTimeout sock =>
      unfold handleTurn handleHelloTimeout
      dsimp only
      refine .of_renames ?_
      split
      · split
        · exact (renames_failHandshake _ sock _).trans (renames_modifySocket ..)
        · rfl
      · rfl
  | failed sock =>
      unfold handleTurn handleSocketError
      dsimp only
      refine .of_renames ?_
      split
      · split
        · rfl
        · exact (renames_modifySocket ..).trans (renames_failHandshake st sock _)
      · rfl
  | closed sock => exact handleSocketClose_wait env st sock
  | backoff t =>
      unfold handleTurn handleBackoff
      dsimp only
      refine .of_renames ?_
      split
      · exact renames_connect ..
      · rfl
  | retry =>
      unfold handleTurn handleRetry
      dsimp only
      refine .of_renames ?_
      split
      · split
        · exact renames_doConnect ..
        · rfl
      · rfl
  | renameRetry c => exact handleRenameRetry_wait env st c
  | endTimeout c => exact endWait_wait st c
  | watchdog =>
      unfold handleTurn handleWatchdog
      dsimp only
      refine .of_renames ?_
      split
      · exact renames_connect ..
      · rfl
  | heartbeat => exact .of_still (handleHeartbeat_still env now st)
  | ackTimeout id => exact .of_still (handleAckTimeout_paper st id).still
  | statusTimeout id => exact .of_still (handleStatusTimeout_paper st id).still
  | expire id => exact .of_still (setPending_booked st _).paper.still
  | remind id => exact .of_still (handleRemind_still env now st id)
  | tick c => exact .of_still (handleTick_paper env now st c).still
  | call c op => exact .refl st
  | abort c => exact .refl st
  | microtask => exact .refl st
  | line sock frame => exact .refl st

theorem handleClientLine_wait (sock : ClientSocketId) (frame : Inbound ν) :
    NoNewWait st (handleClientLine env now st sock frame) := by
  unfold handleClientLine
  split
  · split
    · exact .refl st
    · dsimp only
      split
      · exact .of_still ((Still.of_same rfl rfl : Still st (st.reads sock)).trans
          (onFrame_paper env now (st.reads sock) frame).still)
      · split
        · exact .of_renames (renames_acceptWelcome (st.reads sock) sock _ frame)
        · split
          · exact .of_renames (renames_failHandshake (st.reads sock) sock _)
          · exact .of_renames rfl
  · exact .refl st

/-- **A rename waits for the connection only if it is called offline.** -/
theorem clientStep_wait (e : ClientEvent ν) (c' : CallId) (target : String)
    (h : (clientStep env now st e).conn.renames.get? c' = some (.connecting target)) :
    st.conn.renames.get? c' = some (.connecting target) ∨
      st.conn.online = false ∧ ∃ newAlias, e = .call c' (.rename newAlias) := by
  cases e with
  | call c op =>
      unfold clientStep at h
      dsimp only at h
      split at h
      · rcases handleCall_wait env now st c op c' target h with h | ⟨rfl, hoff, newAlias, rfl⟩
        · exact .inl h
        · exact .inr ⟨hoff, newAlias, rfl⟩
      · exact .inl h
  | abort c => exact .inl (NoNewWait.of_still (handleAbort_paper env now st c).still c' target h)
  | microtask =>
      have h : (handleMicrotask env now st).conn.renames.get? c' = some (.connecting target) := h
      unfold handleMicrotask at h
      split at h
      · exact .inl h
      · next job rest hjobs =>
        exact .inl (handleJob_wait env now { st with jobs := rest, reading := none } job c' target h)
  | line sock frame => exact .inl (handleClientLine_wait env now st sock frame c' target h)
  | ensured | connected | oversized | helloTimeout | failed | closed | backoff | retry
  | renameRetry | endTimeout | watchdog | heartbeat | ackTimeout | statusTimeout | expire
  | remind | tick =>
      unfold clientStep at h
      dsimp only at h
      split at h
      · exact .inl (handleTurn_wait env now { st with reading := none } _ c' target h)
      · exact .inl h

end Handlers

/-! ### Missions that are given up to a rename -/

/-- The promise of the mission was resolved with `renamed`, and waits to be read. -/
def ClientState.GivenUp (st : ClientState ν) (id : String) : Prop :=
  st.book.settled.get? id = some (.error .renamed) ∨ ∃ w, (w, id, .error .renamed) ∈ st.resolutions

/-- No other mission is given up to a rename than was before. -/
def NoneGivenUp (st st' : ClientState ν) : Prop := ∀ id, st'.GivenUp id → st.GivenUp id

namespace NoneGivenUp

variable {st st' st'' : ClientState ν}

theorem refl (st : ClientState ν) : NoneGivenUp st st := fun _ h => h

theorem trans (h : NoneGivenUp st st') (h' : NoneGivenUp st' st'') : NoneGivenUp st st'' :=
  fun id hid => h id (h' id hid)

/-- The promises are as they were, or fewer wait. -/
theorem of_same (hsettled : st'.book.settled = st.book.settled)
    (hjobs : ∀ x ∈ st'.resolutions, x ∈ st.resolutions) : NoneGivenUp st st' := by
  rintro id (h | ⟨w, h⟩)
  · rw [hsettled] at h
    exact .inl h
  · exact .inr ⟨w, hjobs _ h⟩

theorem of_apart (h : Apart st st') : NoneGivenUp st st' :=
  of_same (by rw [h.book]) fun x hx => by rwa [h.resolutions] at hx

theorem setMission (st : ClientState ν) (id : String) (f : Mission → Mission) :
    NoneGivenUp st (st.setMission id f) := by
  obtain ⟨missions, heq⟩ := setMission_parts st id f
  rw [heq]
  exact of_same rfl fun _ h => h

/-- One promise is resolved. -/
theorem of_settle {st : ClientState ν} {id id' : String} {r : Resolution ν}
    (h : (st.settle id r).GivenUp id') : st.GivenUp id' ∨ id' = id ∧ r = .error .renamed := by
  unfold ClientState.settle at h
  split at h
  · next w' _ =>
    rcases h with h | ⟨w, h⟩
    · exact .inl (.inl h)
    · have h : (w, id', .error .renamed) ∈
          (st.jobs ++ [Job.resolved w' id r]).filterMap Job.resolution? := h
      rw [List.filterMap_append, List.mem_append] at h
      rcases h with h | h
      · exact .inl (.inr ⟨w, h⟩)
      · have h : (w, id', (.error .renamed : Resolution ν)) = (w', id, r) := by
          simpa [Job.resolution?] using h
        simp only [Prod.mk.injEq] at h
        exact .inr ⟨h.2.1, h.2.2.symm⟩
  · rcases h with h | h
    · have h : (st.book.settled.set id r).get? id' = some (.error .renamed) := h
      rw [Map.get?_set] at h
      by_cases heq : id' = id
      · rw [if_pos heq] at h
        exact .inr ⟨heq, Option.some.inj h⟩
      · rw [if_neg heq] at h
        exact .inl (.inl h)
    · exact .inl (.inr h)

/-- Several are. -/
theorem of_setPending {st : ClientState ν} {r : PendingReplies × Resolved ν} {id : String}
    (h : (st.setPending r).GivenUp id) : st.GivenUp id ∨ (id, .error .renamed) ∈ r.2 := by
  have hfold : ∀ (l : Resolved ν) (s : ClientState ν),
      (l.foldl (fun st e => st.settle e.1 e.2) s).GivenUp id →
        s.GivenUp id ∨ (id, .error .renamed) ∈ l := by
    intro l
    induction l with
    | nil => exact fun s h => .inl h
    | cons e rest ih =>
        intro s h
        rcases ih (s.settle e.1 e.2) h with h | h
        · rcases of_settle h with h | ⟨rfl, hr⟩
          · exact .inl h
          · refine .inr ?_
            rw [← hr]
            exact List.mem_cons_self
        · exact .inr (List.mem_cons_of_mem _ h)
  exact hfold r.2 { st with book := { st.book with pending := r.1 } } h

theorem setPending (st : ClientState ν) {r : PendingReplies × Resolved ν}
    (hr : ∀ e ∈ r.2, e.2 ≠ .error .renamed) : NoneGivenUp st (st.setPending r) := by
  intro id h
  rcases of_setPending h with h | h
  · exact h
  · exact absurd rfl (hr _ h)

theorem resolve (st : ClientState ν) (id : String) {r : Resolution ν} (hr : r ≠ .error .renamed) :
    NoneGivenUp st (st.resolve id r) := by
  intro id' h
  rcases of_settle h with h | ⟨-, heq⟩
  · exact h
  · exact absurd heq hr

theorem cancel (st : ClientState ν) (id : String) {reason : CancelReason} (hr : reason ≠ .renamed) :
    NoneGivenUp st (st.setPending (st.book.pending.cancel id reason)) := by
  refine setPending st fun e he => ?_
  unfold PendingReplies.cancel at he
  split at he
  · rw [List.mem_singleton.mp he]
    intro hc
    exact hr (Resolution.error.inj hc)
  · cases he

/-- Somebody awaits the promise: its resolution is passed on. -/
theorem watch (st : ClientState ν) (id : String) (w : Watcher) : NoneGivenUp st (st.watch id w) := by
  unfold ClientState.watch
  dsimp only
  split
  · next r hr =>
    rintro id' (h | ⟨w', h⟩)
    · exact .inl h
    · have h : (w', id', .error .renamed) ∈
          (st.jobs ++ [Job.resolved w id r]).filterMap Job.resolution? := h
      rw [List.filterMap_append, List.mem_append] at h
      rcases h with h | h
      · exact .inr ⟨w', h⟩
      · have h : (w', id', (.error .renamed : Resolution ν)) = (w, id, r) := by
          simpa [Job.resolution?] using h
        simp only [Prod.mk.injEq] at h
        obtain ⟨-, rfl, rfl⟩ := h
        exact .inl hr
  · exact of_same rfl fun _ h => h

end NoneGivenUp

section Acts

variable {env : ClientEnv} {now : Int} {st st' : ClientState ν} {e : ClientEvent ν} {c : CallId}

theorem finish_keeps (st : ClientState ν) (c : CallId) (r : CallResult ν) :
    NoneGivenUp st (st.finish c r) := .of_same rfl fun _ h => h

theorem pop_keeps (st : ClientState ν) : NoneGivenUp st st.pop := by
  refine .of_same rfl fun x hx => ?_
  obtain ⟨j, hj, heq⟩ := List.mem_filterMap.mp hx
  exact List.mem_filterMap.mpr ⟨j, List.mem_of_mem_tail hj, heq⟩

theorem issueSend_keeps (plan : SendPlan) : NoneGivenUp st (issueSend env now st c plan) := by
  obtain ⟨st₂, hst₂, hcases⟩ := issueSend_cases env now st c plan
  have hregister : NoneGivenUp st st₂ := by
    rw [hst₂]
    split
    · refine NoneGivenUp.trans (.of_same rfl fun _ h => h) (NoneGivenUp.setPending _ fun e he => ?_)
      have he : e ∈ (st.book.pending.cancel (env.rt.makeMsgId st.ids) .superseded).2 := he
      unfold PendingReplies.cancel at he
      split at he
      · rw [List.mem_singleton.mp he]
        intro hc
        cases hc
      · cases he
    · exact .of_same rfl fun _ h => h
  rcases hcases with ⟨outbox, sent, heq⟩ | ⟨-, heq⟩
  · rw [heq]
    exact hregister.trans (.of_same rfl fun _ h => h)
  · rw [heq]
    exact hregister.trans (.of_same rfl fun _ h => h)

theorem endWaitAll_keeps (start : Int) (targets : List String) (status : WaitAllStatus) :
    NoneGivenUp st (endWaitAll env now st c start targets status) := by
  refine .of_same ?_ fun _ h => h
  unfold endWaitAll
  dsimp only
  split
  · rfl
  · rfl

theorem tickWaitAll_keeps (start deadline : Int) (targets : List String) (signal : Bool) :
    NoneGivenUp st (tickWaitAll env now st c start deadline targets signal) := by
  unfold tickWaitAll
  split
  · exact endWaitAll_keeps start targets _
  · split
    · exact endWaitAll_keeps start targets _
    · exact .of_same rfl fun _ h => h

theorem startWaitAll_keeps (timeoutMs : Int) (signal : Bool) :
    NoneGivenUp st (startWaitAll env now st c timeoutMs signal) := by
  have hcount : NoneGivenUp st
      { st with book := { st.book with waitAllInFlight := st.book.waitAllInFlight + 1 } } :=
    .of_same rfl fun _ h => h
  unfold startWaitAll
  dsimp only
  split
  · exact hcount.trans (endWaitAll_keeps now _ _)
  · exact hcount.trans (tickWaitAll_keeps now _ _ signal)

theorem sendAcked_keeps (plan : SendPlan) (id : String) (ack : Ack) :
    NoneGivenUp st (sendAcked st c plan id ack) := by
  unfold sendAcked
  split
  · refine NoneGivenUp.trans ?_ (finish_keeps _ c _)
    split
    · unfold failMission
      dsimp only
      have hcancel : NoneGivenUp st (st.setPending (st.book.pending.cancel id
          (.refused (ack.code.bind fun code => code)))) := .cancel st id (by simp)
      have htarget : NoneGivenUp (st.setPending (st.book.pending.cancel id
          (.refused (ack.code.bind fun code => code)))) ((st.setPending (st.book.pending.cancel id
          (.refused (ack.code.bind fun code => code)))).dropTarget id) := .of_same rfl fun _ h => h
      exact (hcancel.trans htarget).trans (.setMission _ id _)
    · exact .refl st
  · split
    · exact finish_keeps st c _
    · split
      · exact NoneGivenUp.trans (.watch st id .launch) (finish_keeps _ c _)
      · refine NoneGivenUp.trans ?_ (.watch _ id (.call c))
        have hstage : ∀ s : ClientState ν, NoneGivenUp s (s.setStage c (.sendReply plan id)) :=
          fun s => .of_same rfl fun _ h => h
        split
        · have hcancel : NoneGivenUp st (st.setPending (st.book.pending.cancel id .cancelled)) :=
            .cancel st id (by simp)
          exact hcancel.trans (hstage _)
        · exact hstage st

theorem handleResolved_keeps (w : Watcher) (id : String) (r : Resolution ν) :
    NoneGivenUp st (handleResolved st w id r) := by
  have hexpire : ∀ s : ClientState ν, NoneGivenUp s (expireMission s id) :=
    fun s => NoneGivenUp.trans (.setMission s id _) (.of_same rfl fun _ h => h)
  have htarget : NoneGivenUp st (st.dropTarget id) := .of_same rfl fun _ h => h
  unfold handleResolved
  split
  · unfold launchResolved
    dsimp only
    split
    · exact htarget.trans (hexpire _)
    · exact htarget
  · split
    · unfold sendResolved
      dsimp only
      split
      · exact htarget.trans (finish_keeps _ _ _)
      · exact (htarget.trans (hexpire _)).trans (finish_keeps _ _ _)
      · exact htarget.trans (.of_same rfl fun _ h => h)
      · exact htarget.trans (finish_keeps _ _ _)
    · exact .refl st

theorem cancelAllAwaited_keeps : NoneGivenUp st (cancelAllAwaited st) := by
  have hfold : ∀ (ids : List String) (s : ClientState ν), NoneGivenUp s (ids.foldl (fun st id =>
      (st.dropMission id).setPending (st.book.pending.cancel id .cancelled)) s) := by
    intro ids
    induction ids with
    | nil => exact fun s => .refl s
    | cons id ids ih =>
        intro s
        have hdrop : NoneGivenUp s (s.dropMission id) := .of_same rfl fun _ h => h
        have hcancel : NoneGivenUp (s.dropMission id)
            ((s.dropMission id).setPending (s.book.pending.cancel id .cancelled)) :=
          .cancel (s.dropMission id) id (by simp)
        exact (hdrop.trans hcancel).trans (ih _)
  unfold cancelAllAwaited
  exact NoneGivenUp.trans (hfold _ st) (.of_same rfl fun _ h => h)

theorem keepInbound_keeps (st : ClientState ν) (frame : Inbound ν) :
    NoneGivenUp st (keepInbound st frame) := by
  obtain ⟨inbox, heq⟩ := keepInbound_parts st frame
  rw [heq]
  exact .of_same rfl fun _ h => h

theorem noteInboundFrom_keeps (st : ClientState ν) (frame : Inbound ν) :
    NoneGivenUp st (noteInboundFrom st frame) := by
  obtain ⟨last, heq⟩ := noteInboundFrom_parts st frame
  rw [heq]
  exact .of_same rfl fun _ h => h

theorem onMatchedReply_keeps (frame : Inbound ν) (replyTo : String) (wake : Bool) :
    NoneGivenUp st (onMatchedReply env now st frame replyTo wake) := by
  unfold onMatchedReply
  extract_lets body st₁ st₂
  have hhandled : NoneGivenUp st st₁ := by
    refine .of_same ?_ fun _ h => h
    show (markReplyHandled env now st.book replyTo body).settled = _
    unfold markReplyHandled
    rfl
  have hmission : NoneGivenUp st₁ st₂ := .setMission st₁ replyTo _
  split
  · exact (hhandled.trans hmission).trans
      ((keepInbound_keeps st₂ frame).trans (.of_same rfl fun _ h => h))
  · exact (hhandled.trans hmission).trans (.of_same rfl fun _ h => h)

theorem onOrphanReply_keeps (frame : Inbound ν) : NoneGivenUp st (onOrphanReply env now st frame) := by
  obtain ⟨pending, handled, inbox, out, heq, -⟩ := onOrphanReply_parts env now st frame
  rw [heq]
  exact .of_same rfl fun _ h => h

theorem onReply_keeps {frame : Inbound ν} (hreceipt : frame.receipt = false) :
    NoneGivenUp st (onReply env now st frame) := by
  have hnoted := noteInboundFrom_keeps st frame
  cases hid : frame.replyTo with
  | none =>
      rw [onReply_nameless hreceipt hid]
      exact hnoted.trans (onOrphanReply_keeps frame)
  | some id =>
      cases hlive : st.book.pending.has id with
      | true =>
          rw [onReply_live hreceipt hid hlive]
          refine hnoted.trans (NoneGivenUp.trans (.resolve _ id fun hc => ?_)
            (onMatchedReply_keeps frame id _))
          cases hc
      | false =>
          rw [onReply_orphan hreceipt hid hlive]
          refine hnoted.trans (NoneGivenUp.trans ?_ (onOrphanReply_keeps frame))
          exact .of_same rfl fun _ h => h

/-- **Only a rename that detaches gives missions up to it**, and only those that are live. -/
theorem clientStep_givenUp (h : Waits env.rt st.desk) (e : ClientEvent ν) {id : String}
    (hid : (clientStep env now st e).GivenUp id) :
    st.GivenUp id ∨ detaches env st e = true ∧ st.book.pending.has id = true := by
  obtain ⟨st₁, hact, hapart⟩ := (clientStep_missions h e : MissionActs env now st e _)
  have hid := NoneGivenUp.of_apart hapart id hid
  cases hact with
  | other => exact .inl hid
  | @send _ c s plan henters hplan =>
      have hkeeps : NoneGivenUp s (issueSend env now s c plan) := issueSend_keeps plan
      exact .inl (NoneGivenUp.of_apart henters.apart.2 id (hkeeps id hid))
  | @giveUp _ reason hwhy =>
      rcases NoneGivenUp.of_setPending hid with hid | hid
      · exact .inl hid
      · obtain ⟨key, hkey, heq⟩ := List.mem_map.mp hid
        simp only [Prod.mk.injEq, Resolution.error.injEq] at heq
        obtain ⟨rfl, rfl⟩ := heq
        rcases hwhy with ⟨-, hdetaches⟩ | ⟨hc, -⟩
        · refine .inr ⟨hdetaches, ?_⟩
          exact (Map.has_iff _ _).mpr ((Map.mem_keys_iff _ _).mp hkey)
        · cases hc
  | cancelAll hnew => exact .inl (cancelAllAwaited_keeps id hid)
  | @waitAll _ timeoutMs signal hnew => exact .inl (startWaitAll_keeps timeoutMs signal id hid)
  | @tick c start deadline targets signal hs =>
      have hkeeps : NoneGivenUp st.idle (tickWaitAll env now st.idle c start deadline targets signal) :=
        tickWaitAll_keeps start deadline targets signal
      exact .inl (hkeeps id hid)
  | @abortSend c plan key hs hsignal =>
      have hkeeps : NoneGivenUp (st.abort c)
          ((st.abort c).setPending (st.book.pending.cancel key .cancelled)) :=
        .cancel (st.abort c) key (by simp)
      exact .inl (hkeeps id hid)
  | @abortWait c start deadline targets hs =>
      have hkeeps : NoneGivenUp (st.abort c)
          (endWaitAll env now (st.abort c) c start targets .cancelled) := endWaitAll_keeps start targets _
      exact .inl (hkeeps id hid)
  | @acked c plan key ack rest hjobs hs =>
      have hkeeps : NoneGivenUp st.pop (sendAcked st.pop c plan key ack) := sendAcked_keeps plan key ack
      exact .inl (pop_keeps st id (hkeeps id hid))
  | @resolved w key r rest hjobs =>
      have hkeeps : NoneGivenUp st.pop (handleResolved st.pop w key r) := handleResolved_keeps w key r
      exact .inl (pop_keeps st id (hkeeps id hid))
  | @expire key hlive =>
      have hkeeps : NoneGivenUp st.idle (st.idle.resolve key .expired) := .resolve st.idle key (by simp)
      exact .inl (hkeeps id hid)
  | remind => exact .inl hid
  | @reply sock frame hlistens htype hreceipt =>
      have hkeeps : NoneGivenUp (st.reads sock) (onReply env now (st.reads sock) frame) :=
        onReply_keeps hreceipt
      exact .inl (hkeeps id hid)
  | @dropped sock frame hlistens htype hwaiter hstatus =>
      have hwaiter : (st.reads sock).ackWaiters.get? frame.id = none := hwaiter
      unfold onAck at hid
      rw [hwaiter] at hid
      dsimp only at hid
      rw [if_pos hstatus] at hid
      have hcancel : NoneGivenUp (st.reads sock) ((st.reads sock).setPending
          ((st.reads sock).book.pending.cancel frame.id .droppedOffline)) :=
        .cancel (st.reads sock) frame.id (by simp)
      exact .inl (hcancel id (NoneGivenUp.setMission _ frame.id _ id hid))
  | passes matched last hlistens htype => exact .inl hid

end Acts

end PiMesh
