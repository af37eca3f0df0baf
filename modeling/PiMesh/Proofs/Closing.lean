/-
What a closed client still does.

`close` sets two flags, lets go of its socket and ends it.  `roundTrip` and `doConnect` read
the flag `userClosed`; every other way to the broker goes through `connect()`, which clears
it.  So a closed client stays closed as long as nothing reaches `connect()` and no handshake
that was under way comes to its end; `Shut` is what holds of its connection then.  A socket
that `doConnect` still creates is destroyed at once.
-/
import PiMesh.Proofs.Calls

namespace PiMesh

open Js Transition

variable {ν : Type} [Number ν]

/-! ### A connection that stays shut -/

/-- The connection of a client that was closed with `k₀`: no socket is alive that was not
alive then. -/
structure Shut (k₀ k : Conn) : Prop where
  closed : k.userClosed = true
  offline : k.online = false
  socket : k.socket = none
  alive : ∀ sock, k.isAlive sock = true → k₀.isAlive sock = true

/-- The parts of a connection that matter for that. -/
def Conn.lines (k : Conn) := (k.userClosed, k.online, k.socket, k.sockets)

namespace Shut

variable {k₀ k k' : Conn}

theorem of_same (h : Shut k₀ k) (hk : k'.lines = k.lines) : Shut k₀ k' := by
  simp only [Conn.lines, Prod.mk.injEq] at hk
  obtain ⟨hclosed, honline, hsocket, hsockets⟩ := hk
  refine ⟨hclosed.trans h.closed, honline.trans h.offline, hsocket.trans h.socket, ?_⟩
  intro sock halive
  refine h.alive sock ?_
  unfold Conn.isAlive at halive ⊢
  rw [← hsockets]
  exact halive

/-- A socket changes, and does not come back to life. -/
theorem modifySocket (h : Shut k₀ k) (sock : ClientSocketId) {f : ClientSocket → ClientSocket}
    (hf : ∀ s, s.destroyed = true → (f s).destroyed = true) : Shut k₀ (k.modifySocket sock f) := by
  unfold Conn.modifySocket
  split
  · next s hs =>
    refine ⟨h.closed, h.offline, h.socket, ?_⟩
    intro sock' halive
    refine h.alive sock' ?_
    unfold Conn.isAlive at halive ⊢
    have halive : ((k.sockets.set sock (f s)).get? sock').any (fun s => !s.destroyed) = true := halive
    rw [Map.get?_set] at halive
    split at halive
    · next heq =>
      rw [heq, hs]
      cases hd : s.destroyed with
      | false => simp [hd]
      | true => simp [hf s hd] at halive
    · exact halive
  · exact h

theorem clearHelloTimer (h : Shut k₀ k) : Shut k₀ k.clearHelloTimer := by
  unfold Conn.clearHelloTimer
  split
  · exact h.modifySocket _ fun s hs => hs
  · exact h

end Shut

section Moves

variable {env : ClientEnv} {st : ClientState ν} {k₀ : Conn}

/-- A socket that is created now is destroyed at once. -/
theorem openSocket_shut (owner : Owner) (h : Shut k₀ st.conn) : Shut k₀ (openSocket st owner).conn := by
  unfold openSocket
  dsimp only
  rw [if_pos h.closed]
  refine ⟨h.closed, h.offline, h.socket, ?_⟩
  intro sock halive
  refine h.alive sock ?_
  unfold Conn.isAlive at halive ⊢
  have halive : ((st.conn.sockets.set st.conn.nextSocket
      { owner, settled := true, destroyed := true }).get? sock).any (fun s => !s.destroyed) = true :=
    halive
  rw [Map.get?_set] at halive
  split at halive
  · cases halive
  · exact halive

theorem doConnect_shut (owner : Owner) (h : Shut k₀ st.conn) :
    Shut k₀ (doConnect env st owner).conn := by
  unfold doConnect
  split
  · exact h.of_same rfl
  · exact openSocket_shut owner h
  · exact h

theorem failHandshake_shut (sock : ClientSocketId) (err : ConnectError) (h : Shut k₀ st.conn) :
    Shut k₀ (failHandshake st sock err).conn := by
  unfold failHandshake
  split
  · split
    · exact h
    · exact h.clearHelloTimer.modifySocket sock fun s _ => rfl
  · exact h

theorem handleDialed_shut (r : Except ConnectError (WelcomeInfo ν)) (h : Shut k₀ st.conn) :
    Shut k₀ (handleDialed env st r).conn := by
  unfold handleDialed
  split
  · exact h
  · dsimp only
    split
    · split
      · exact h.of_same rfl
      · exact h.of_same rfl
    · exact h.of_same rfl
    · split
      · exact h
      · split
        · exact h.of_same rfl
        · split
          · exact h.of_same rfl
          · exact doConnect_shut .connect (h.of_same rfl)

theorem renameDial_shut (c : CallId) (target old : String) (h : Shut k₀ st.conn) :
    Shut k₀ (renameDial env st c target old).conn := by
  unfold renameDial
  exact doConnect_shut _ (h.of_same rfl)

theorem renameDetach_shut (c : CallId) (target : String) (h : Shut k₀ st.conn) :
    Shut k₀ (renameDetach env st c target).conn := by
  obtain ⟨st₁, hconn, -, heq⟩ := renameDetach_eq env st c target
  obtain ⟨armed, hclear⟩ := clearReconnectTimer_eq st.conn
  have hdetached : Shut k₀ st₁.conn := by
    rw [hconn]
    refine h.of_same ?_
    simp [Conn.lines, Conn.detach, hclear, h.offline, h.socket]
  rw [heq, h.socket]
  exact renameDial_shut c target _ hdetached

theorem handleRenameDialed_shut (c : CallId) (r : Except ConnectError (WelcomeInfo ν))
    (hup : ∀ err, r = .error err → renameGivesUp st.conn c err = false) (h : Shut k₀ st.conn) :
    Shut k₀ (handleRenameDialed env st c r).conn := by
  unfold handleRenameDialed
  split
  · next target old attempt hstage =>
    split
    · unfold finishRename
      dsimp only
      split
      · exact h.of_same rfl
      · exact h.of_same rfl
    · next err =>
      split
      · exact h.of_same rfl
      · next hgives =>
        have hno := hup err rfl
        simp only [renameGivesUp, hstage, Bool.not_eq_false'] at hno
        exact absurd hno hgives
  · exact h

theorem onSocketClosed_shut (closed : Option ClientSocketId) (h : Shut k₀ st.conn) :
    Shut k₀ (onSocketClosed env st closed).conn := by
  unfold onSocketClosed
  split
  · exact h
  · split
    · exact h
    · dsimp only
      have hlost := (loseRequests_paper (st.setConn
        { st.conn with online := false, socket := none, heartbeat := false })).conn
      have hshut : Shut k₀ (loseRequests (st.setConn
          { st.conn with online := false, socket := none, heartbeat := false })).conn := by
        rw [hlost]
        refine h.of_same ?_
        simp [Conn.lines, ClientState.setConn, h.offline, h.socket]
      split
      · exact hshut
      · exact hshut.of_same rfl

theorem startClose_shut (c : CallId) (h : Shut k₀ st.conn) : Shut k₀ (startClose st c).conn := by
  obtain ⟨st₁, hconn, -, heq⟩ := startClose_eq st c
  obtain ⟨armed, hclear⟩ := clearReconnectTimer_eq st.conn
  rw [heq, h.socket]
  show Shut k₀ st₁.conn
  rw [hconn]
  refine h.of_same ?_
  simp [Conn.lines, Conn.shut, Conn.detach, hclear, h.closed, h.offline, h.socket]

theorem endWait_conn (st : ClientState ν) (c : CallId) : (endWait st c).conn.lines = st.conn.lines := by
  have hclose : ∀ st : ClientState ν, (endClose st c).conn = st.conn := by
    intro st
    unfold endClose
    split
    · rfl
    · rfl
  unfold endWait
  rw [hclose]
  unfold endDetach
  split
  · rfl
  · rfl

theorem handleSocketClose_shut (sock : ClientSocketId) (h : Shut k₀ st.conn) :
    Shut k₀ (handleSocketClose env st sock).conn := by
  have hwaits : ∀ (cs : List CallId) (st : ClientState ν), Shut k₀ st.conn →
      Shut k₀ (cs.foldl endWait st).conn := by
    intro cs
    induction cs with
    | nil =>
        intro st h
        exact h
    | cons c rest ih =>
        intro st h
        exact ih _ (h.of_same (endWait_conn st c))
  unfold handleSocketClose
  split
  · split
    · exact h
    · dsimp only
      refine hwaits _ _ ?_
      have hclosed : Shut k₀ (st.setConn (st.conn.modifySocket sock fun s =>
          { s with destroyed := true, closed := true })).conn := h.modifySocket sock fun s _ => rfl
      have hfailed := failHandshake_shut sock .brokerUnavailable hclosed
      split
      · exact onSocketClosed_shut (some sock) hfailed
      · exact hfailed
  · exact h

/-- What a closed connection survives, as long as nothing reaches `connect()` and no handshake
is welcomed. -/
theorem shut_keeps (env : ClientEnv) (k₀ : Conn) :
    Keeps (ν := ν) env (fun k _ => Shut k₀ k) (fun _ _ => False) (fun _ _ => False)
      (fun _ _ => True) True (fun _ => False) True where
  news _ _ _ _ h := h
  connect _ _ hgo _ := absurd hgo (fun h => h)
  waits _ _ _ _ _ h := h.of_same rfl
  waits_go _ _ _ _ _ hgo := hgo
  detach _ c target _ _ h := renameDetach_shut c target h
  forget _ _ _ _ h := h.of_same rfl
  dialed _ r h := handleDialed_shut r h
  renameDialed st c r h hup := by
    refine handleRenameDialed_shut c r ?_ h
    intro err herr
    cases hgives : renameGivesUp st.conn c err with
    | false => rfl
    | true => exact absurd (hup err herr hgives) (fun h => h)
  connectDone st r h := by
    show Shut k₀ (handleConnectDone st r).conn
    have h : Shut k₀ st.conn := h
    unfold handleConnectDone
    split
    · exact h
    · dsimp only
      split
      · exact h.of_same rfl
      · exact h.of_same rfl
  backoffFailed _ _ h := onSocketClosed_shut none h
  welcomed _ _ _ _ _ h _ := h.of_same rfl
  detached st c h := by
    show Shut k₀ (handleDetached env st c).conn
    have h : Shut k₀ st.conn := h
    unfold handleDetached
    split
    · exact renameDial_shut c _ _ h
    · exact h
  retry st h := by
    show Shut k₀ (handleRetry env st).conn
    have h : Shut k₀ st.conn := h
    unfold handleRetry
    split
    · split
      · exact doConnect_shut .connect (h.of_same rfl)
      · exact h
    · exact h
  renameRetry st c h := by
    show Shut k₀ (handleRenameRetry env st c).conn
    have h : Shut k₀ st.conn := h
    unfold handleRenameRetry
    split
    · exact doConnect_shut _ (h.of_same rfl)
    · exact h
  ensured st owner ok _ h := by
    show Shut k₀ (handleEnsured st owner ok).conn
    have h : Shut k₀ st.conn := h
    unfold handleEnsured
    dsimp only
    split
    · exact openSocket_shut owner (h.of_same rfl)
    · exact h.of_same rfl
  opened _ _ sock _ _ _ h := h.modifySocket sock fun s hs => hs
  welcome _ _ _ _ _ _ _ hgreets _ := absurd hgreets (fun h => h)
  refused _ sock err h := failHandshake_shut sock err h
  helloTimeout st sock h := by
    show Shut k₀ (handleHelloTimeout st sock).conn
    have h : Shut k₀ st.conn := h
    unfold handleHelloTimeout
    split
    · split
      · exact failHandshake_shut sock _ (h.modifySocket sock fun s hs => hs)
      · exact h
    · exact h
  socketError st sock h := by
    show Shut k₀ (handleSocketError st sock).conn
    have h : Shut k₀ st.conn := h
    unfold handleSocketError
    split
    · split
      · exact h
      · exact (failHandshake_shut sock .brokerUnavailable h).modifySocket sock fun s _ => rfl
    · exact h
  socketClose _ sock _ h := handleSocketClose_shut sock h
  backoff _ _ _ _ hgo _ := absurd hgo (fun h => h)
  close _ c _ h := startClose_shut c h
  endWait st c h := Shut.of_same h (endWait_conn st c)

end Moves

/-! ### Nothing is written -/

/-- A handshake that was under way goes on: its socket is connected, or welcomed. -/
def greets (st : ClientState ν) : ClientEvent ν → Bool
  | .connected sock => (st.conn.sockets.get? sock).any fun s => !s.settled && !s.ended
  | .line sock frame =>
      decide (frame.type = .welcome) && (st.conn.sockets.get? sock).any fun s => !s.settled
  | _ => false

section Silence

variable {env : ClientEnv} {now : Int} {e : ClientEvent ν} {st st₁ st' : ClientState ν} {c : CallId}

theorem writeOrQueue_silent {frame : ClientFrame} (hw : st.conn.writable = none)
    (h : writeOrQueue env st frame = some st') : st'.sent = st.sent := by
  unfold writeOrQueue at h
  rw [hw] at h
  dsimp only at h
  split at h
  · obtain rfl := Option.some.inj h
    rfl
  · obtain rfl := Option.some.inj h
    rfl

theorem issue_silent {frame : ClientFrame} {s : Stage} {r : CallResult ν}
    (hw : st₁.conn.writable = none) (hsent : st₁.sent = st.sent) :
    (match writeOrQueue env st₁ frame with
      | some st => st.setStage c s
      | none => st₁.finish c r).sent = st.sent := by
  split
  · next st' h => exact (writeOrQueue_silent hw h).trans hsent
  · exact hsent

theorem written_silent {frame : ClientFrame} (hw : st₁.conn.writable = none)
    (hsent : st₁.sent = st.sent) : ((writeOrQueue env st₁ frame).getD st₁).sent = st.sent := by
  cases h : writeOrQueue env st₁ frame with
  | none => exact hsent
  | some st' => exact (writeOrQueue_silent hw h).trans hsent

theorem flushFrames_silent (n : Nat) (hsocket : st.conn.socket = none) :
    (flushFrames env n st).1.sent = st.sent := by
  induction n generalizing st with
  | zero => rfl
  | succ n ih =>
      unfold flushFrames
      split
      · rfl
      · dsimp only
        rw [hsocket]
        exact ih hsocket

theorem Enters.sent (h : Enters st c e st₁) : st₁.conn = st.conn ∧ st₁.sent = st.sent := by
  cases h with
  | calls hnew => exact ⟨rfl, rfl⟩
  | resumes hjobs hj hstage hs => exact ⟨rfl, rfl⟩

theorem TripReady.sent {st₂ : ClientState ν} {use : TripUse} {frame : ClientFrame}
    (h : TripReady env st₁ c use frame st₂) : st₂.conn = st₁.conn ∧ st₂.sent = st₁.sent := by
  rcases h with ⟨rfl, -, -⟩ | ⟨rfl, -⟩
  · exact ⟨rfl, rfl⟩
  · exact ⟨rfl, rfl⟩

/-- A client without a socket writes nothing but the hello of a handshake. -/
theorem act_silent (hw : st.conn.writable = none) (hsocket : st.conn.socket = none)
    (hgreets : greets st e = false) (hact : DeskAct env now st e st') : st'.sent = st.sent := by
  cases hact with
  | rest => rfl
  | hello hs hdial hended => simp [greets, hs, hdial, hended] at hgreets
  | mute => rfl
  | beat =>
      unfold handleHeartbeat
      split
      · split
        · next sock hsome =>
          have hsome : st.conn.writable = some sock := hsome
          rw [hw] at hsome
          cases hsome
        · rfl
      · rfl
  | refuse hnew hr => rfl
  | giveUp hjobs hj hstage hr => rfl
  | wait hnew hs hnot => rfl
  | waitTrip henters hid hfits => exact henters.sent.2
  | send henters hplan =>
      obtain ⟨hconn, hsent⟩ := henters.sent
      rename_i c st₁ plan
      unfold issueSend
      extract_lets frame st₂ st₃ st₄
      have hst₃ : st₃.conn = st.conn ∧ st₃.sent = st.sent := by
        show ClientState.conn (if plan.awaitReply then registerMission st₂ now plan frame.id else st₂) = _ ∧
          ClientState.sent (if plan.awaitReply then registerMission st₂ now plan frame.id else st₂) = _
        split
        · have hpaper := (registerMission_booked now st₂ plan frame.id).paper
          exact ⟨hpaper.conn.trans hconn, hpaper.sent.trans hsent⟩
        · exact ⟨hconn, hsent⟩
      refine issue_silent ?_ hst₃.2
      show st₃.conn.writable = none
      rw [hst₃.1]
      exact hw
  | reply henters =>
      obtain ⟨hconn, hsent⟩ := henters.sent
      rename_i c st₁ plan
      unfold issueReply
      split
      · exact hsent
      · refine issue_silent ?_ hsent
        show st₁.conn.writable = none
        rw [hconn]
        exact hw
  | trip henters hready =>
      obtain ⟨hconn, hsent⟩ := henters.sent
      obtain ⟨hconn₂, hsent₂⟩ := hready.sent
      rename_i c st₁ st₂ use frame
      refine issue_silent ?_ (hsent₂.trans hsent)
      show st₂.conn.writable = none
      rw [hconn₂, hconn]
      exact hw
  | tripFailed henters hready => exact hready.sent.2.trans henters.sent.2
  | status hnew hon =>
      unfold startStatus
      split
      · rfl
      · exact issue_silent hw rfl
  | detach henters hde => exact (setPending_booked _ _).sent.trans henters.sent.2
  | closing hnew => exact (setPending_booked st _).sent
  | close hnew => exact (setPending_booked st _).sent
  | waitAll hnew => exact (startWaitAll_paper env now st _ _ _).sent
  | cancelAll hnew => exact (cancelAllAwaited_booked st).sent
  | notice hnew hframe =>
      show (sendNotice env st _).sent = st.sent
      unfold sendNotice
      split
      · exact written_silent hw rfl
      · rfl
  | abort => exact (handleAbort_paper env now st _).sent
  | acked hjobs => exact (handleAcked_paper st.pop _ _).sent
  | resolved hjobs => exact (handleResolved_paper st.pop _ _ _).sent
  | lost hloses => exact (loseRequests_paper st).sent
  | flush hjobs => exact flushFrames_silent _ hsocket
  | line hread => exact (onFrame_paper env now _ _).sent
  | ackTimeout hjobs => exact (handleAckTimeout_paper st.idle _).sent
  | statusTimeout hjobs => exact (handleStatusTimeout_paper st.idle _).sent
  | expire hjobs => exact (setPending_booked st.idle _).sent
  | remind hjobs =>
      unfold handleRemind
      dsimp only
      split
      · unfold sendRemind
        split
        · rfl
        · split
          · rfl
          · exact written_silent hw rfl
      · rfl
  | tick hjobs => exact (handleTick_paper env now st.idle _).sent

end Silence

/-! ### Calls of a closed client -/

def SendResult.isFailure : SendResult → Bool
  | .error _ _ => true
  | .blocked _ _ => true
  | _ => false

/-- An error or a refusal, in the form the method has for it; a status has an empty one. -/
def CallResult.isFailure : CallResult ν → Bool
  | .send r => r.isFailure
  | .released _ r => r.isFailure
  | .rejected _ => true
  | .notRenamed _ => true
  | .snapshot peers rooms stats => peers.isEmpty && rooms.isEmpty && stats.isNone
  | _ => false

/-- The methods that ask the broker for something. -/
def Op.isRequest : Op → Bool
  | .send _ => true
  | .reply _ _ _ => true
  | .reserve _ _ => true
  | .release _ => true
  | .join _ _ => true
  | .leave _ => true
  | .rename _ => true
  | .status _ => true
  | _ => false

/-- There is nothing to ask for: nothing to release, or no alias to change to. -/
def Op.isIdle (env : ClientEnv) (st : ClientState ν) : Op → Bool
  | .release patterns => (releasedPatterns st.ownReservations patterns).isEmpty
  | .rename newAlias => isValidAlias (normalizeAlias env.rt newAlias) &&
      decide (normalizeAlias env.rt newAlias = st.conn.name)
  | _ => false

theorem planSend_error {env : ClientEnv} {st : ClientState ν} {opts : SendOpts} {r : SendResult}
    (h : planSend env st opts = .error r) : r.isFailure = true := by
  unfold planSend at h
  simp only [bind, Except.bind, pure, Except.pure, throw, throwThe, MonadExceptOf.throw] at h
  repeat' split at h
  all_goals cases h <;> rfl

theorem planReply_error {st : ClientState ν} {msgId body : String} {opts : ReplyOpts} {r : SendResult}
    (h : planReply st msgId body opts = .error r) : r.isFailure = true := by
  unfold planReply at h
  simp only [bind, Except.bind, pure, Except.pure, throw, throwThe, MonadExceptOf.throw] at h
  repeat' split at h
  all_goals cases h <;> rfl

/-- A call that has nothing to ask for. -/
def idleCall (env : ClientEnv) (st : ClientState ν) : ClientEvent ν → Bool
  | .call _ op => op.isIdle env st
  | _ => false

/-- A step that leaves a closed client closed: nothing reaches `connect()`, no handshake that
was under way goes on, and every request has something to ask for. -/
structure StaysShut (env : ClientEnv) (st : ClientState ν) (e : ClientEvent ν) : Prop where
  dial : reachesConnect env st e = false
  back : givesUp st e = false
  quiet : greets st e = false
  asks : idleCall env st e = false

instance (env : ClientEnv) (st : ClientState ν) (e : ClientEvent ν) : Decidable (StaysShut env st e) :=
  decidable_of_iff (reachesConnect env st e = false ∧ givesUp st e = false ∧ greets st e = false ∧
    idleCall env st e = false)
    ⟨fun h => ⟨h.1, h.2.1, h.2.2.1, h.2.2.2⟩, fun h => ⟨h.dial, h.back, h.quiet, h.asks⟩⟩

/-- The call has failed, or its refusal is queued. -/
def Failing (st : ClientState ν) (c : CallId) : Prop :=
  (∃ r, st.results.get? c = some r ∧ r.isFailure = true) ∨
    ∃ use id, st.calls.get? c = some (.tripAck use id) ∧ .acked c (.failed .shuttingDown) ∈ st.jobs

section Calls

variable {env : ClientEnv} {now : Int} {st : ClientState ν} {c : CallId} {k₀ : Conn}

theorem failing_finish (hnew : isNewCall st c = true) {r : CallResult ν} (hr : r.isFailure = true) :
    Failing (st.finish c r) c := by
  refine .inl ⟨r, ?_, hr⟩
  simp only [isNewCall, Bool.and_eq_true, Bool.not_eq_true'] at hnew
  show (if st.results.has c then st.results else st.results.set c r).get? c = some r
  rw [if_neg (by simp [hnew.1.2])]
  exact Map.get?_set_self _ _ _

/-- A round trip of a closed client is refused. -/
theorem failing_roundTrip (h : Shut k₀ st.conn) (use : TripUse) (frame : ClientFrame) :
    Failing (roundTrip env st.useId c use frame) c := by
  have hoff : st.useId.conn.online = false := h.offline
  have hclosed : st.useId.conn.userClosed = true := h.closed
  unfold roundTrip
  rw [if_neg (by simp [hoff]), if_pos hclosed]
  refine .inr ⟨use, frame.id, Map.get?_set_self _ _ _, ?_⟩
  show _ ∈ st.jobs ++ [_]
  exact List.mem_append_right _ (List.mem_cons_self ..)

/-- A request of a closed client fails. -/
theorem handleCall_failing (op : Op) (h : Shut k₀ st.conn) (hnew : isNewCall st c = true)
    (hreq : op.isRequest = true) (hdial : op.reachesConnect env st = false)
    (hasks : op.isIdle env st = false) : Failing (handleCall env now st c op) c := by
  have hoff := h.offline
  cases op with
  | send opts =>
      unfold handleCall startSend
      dsimp only
      split
      · next r hr => exact failing_finish hnew (planSend_error hr)
      · next plan hplan => simp [Op.reachesConnect, hoff, hplan, Except.isOk, Except.toBool] at hdial
  | reply msgId body opts =>
      unfold handleCall startReply
      dsimp only
      split
      · next r hr => exact failing_finish hnew (planReply_error hr)
      · next plan hplan => simp [Op.reachesConnect, hoff, hplan, Except.isOk, Except.toBool] at hdial
  | reserve patterns reason =>
      unfold handleCall startReserve
      dsimp only
      split
      · exact failing_finish hnew rfl
      · exact failing_finish hnew rfl
      · next p ps hvalid => simp [Op.reachesConnect, hoff, reserveChecks, hvalid] at hdial
  | release patterns =>
      simp only [Op.reachesConnect, hoff, Bool.not_false, Bool.true_and] at hdial
      simp only [Op.isIdle] at hasks
      rw [hasks] at hdial
      cases hdial
  | join room role =>
      unfold handleCall startJoin
      exact failing_roundTrip h _ _
  | leave room =>
      unfold handleCall startLeave
      exact failing_roundTrip h _ _
  | status room =>
      unfold handleCall startStatus
      dsimp only
      rw [if_pos (by simp [hoff])]
      exact failing_finish hnew rfl
  | rename newAlias =>
      have hinvalid : isValidAlias (normalizeAlias env.rt newAlias) = false := by
        by_contra hvalid
        simp only [Bool.not_eq_false] at hvalid
        simp only [Op.reachesConnect, hoff, renameChecks, hvalid, Bool.not_false, Bool.true_and,
          decide_eq_false_iff_not, not_not] at hdial
        rw [hdial] at hvalid
        simp [Op.isIdle, hdial, hvalid] at hasks
      have hstage : (st.setStage c .rename).calls.get? c = some .rename := Map.get?_set_self _ _ _
      unfold handleCall startRename
      dsimp only
      rw [if_pos (by simp [hinvalid])]
      unfold finishRename
      dsimp only
      rw [show ((st.setStage c .rename).setConn { (st.setStage c .rename).conn with
        renames := (st.setStage c .rename).conn.renames.delete c }).calls.get? c = some .rename
        from hstage]
      refine .inl ⟨.notRenamed none, ?_, rfl⟩
      simp only [isNewCall, Bool.and_eq_true, Bool.not_eq_true'] at hnew
      show (if st.results.has c then st.results else st.results.set c (.notRenamed none)).get? c = _
      rw [if_neg (by simp [hnew.1.2])]
      exact Map.get?_set_self _ _ _
  | connect | close | waitAll | cancelAllAwaited | forgetRoom | sendActivity | sendRead => cases hreq

/-- A refused round trip returns a failure. -/
theorem tripAcked_failing (use : TripUse) (id : String) (code : MeshErrorCode)
    (hnone : st.results.get? c = none) : Failing (tripAcked st c use id (.failed code)) c := by
  have hfinish : ∀ (st' : ClientState ν) r, st'.results = st.results → r.isFailure = true →
      Failing (st'.finish c r) c := by
    intro st' r hsame hr
    refine .inl ⟨r, ?_, hr⟩
    show (if st'.results.has c then st'.results else st'.results.set c r).get? c = some r
    rw [hsame, if_neg (by simp [Map.has, hnone])]
    exact Map.get?_set_self _ _ _
  unfold tripAcked
  cases use with
  | reserve merged => exact hfinish _ _ rfl rfl
  | release merged releasing => exact hfinish _ _ rfl rfl
  | join room role => exact hfinish _ _ rfl rfl
  | leave room =>
      dsimp only
      rw [if_pos (show (Ack.failed code).isError = true from rfl)]
      split
      · exact hfinish _ _ rfl rfl
      · exact hfinish _ _ rfl rfl

theorem failing_step (hwaits : Waits env.rt st.desk) (e : ClientEvent ν) (h : Failing st c) :
    Failing (clientStep env now st e) c := by
  have hkeep : CallsKeep e st (clientStep env now st e) := clientStep_calls hwaits e
  rcases h with ⟨r, hr, hfail⟩ | ⟨use, id, hs, hj⟩
  · exact .inl ⟨r, hkeep.results c r hr, hfail⟩
  · by_cases hrun : e = .microtask ∧ ∃ ack rest, st.jobs = .acked c ack :: rest
    · obtain ⟨rfl, ack, rest, hjobs⟩ := hrun
      -- there is one acknowledgement for the call, and it is this one
      have hack : ack = .failed .shuttingDown := by
        rw [hjobs] at hj
        rcases List.mem_cons.mp hj with heq | hj
        · cases heq
          rfl
        · have honce := hwaits.once
          rw [acked_desk, hjobs] at honce
          have hmem : c ∈ rest.filterMap Job.ackOf := List.mem_filterMap.mpr ⟨_, hj, rfl⟩
          exact absurd hmem (List.nodup_cons.mp honce).1
      have hstep : clientStep env now st .microtask = handleAcked st.pop c ack := by
        show handleMicrotask env now st = _
        unfold handleMicrotask
        rw [hjobs]
        show handleAcked _ c ack = _
        unfold ClientState.pop
        rw [hjobs]
        rfl
      rw [hstep, hack]
      unfold handleAcked
      rw [show st.pop.calls.get? c = some (.tripAck use id) from hs]
      exact tripAcked_failing use id _ (hwaits.apart c _ hs)
    · refine .inr ⟨use, id, ?_, ?_⟩
      · rcases hkeep.stays c _ hs with hs' | hnone | hacked
        · exact hs'
        · cases hnone
        · exact absurd hacked hrun
      · rcases clientStep_jobs hj rfl e with hj' | ⟨he, hhead⟩
        · exact hj'
        · refine absurd ⟨he, .failed .shuttingDown, st.jobs.tail, ?_⟩ hrun
          exact List.eq_cons_of_mem_head? hhead

end Calls

/-! ### Runs -/

section Runs

variable {env : ClientEnv} {name : String} {rooms : List String}
  {reservations : List FileReservation} {tr tr' : ClientTrace ν} {st st' : ClientState ν} {c : CallId}
  {now : Int}

/-- Right after `close`. -/
theorem startClose_closes (st : ClientState ν) (c : CallId) :
    Shut st.conn (startClose st c).conn ∧ (startClose st c).sent = st.sent := by
  constructor
  · obtain ⟨st₁, hconn, -, heq⟩ := startClose_eq st c
    obtain ⟨armed, hclear⟩ := clearReconnectTimer_eq st.conn
    have hshut : Shut st.conn st₁.conn := by
      rw [hconn]
      refine ⟨rfl, rfl, rfl, ?_⟩
      intro sock halive
      unfold Conn.isAlive at halive ⊢
      simpa [Conn.shut, Conn.detach, hclear] using halive
    rw [heq]
    split
    · exact hshut.modifySocket _ fun s hs => hs
    · exact hshut
  · unfold startClose
    extract_lets k k₁ st₁ alive k₂ st₂
    have hsent : st₁.sent = st.sent := (setPending_booked (st.setConn k₁) _).sent
    clear_value alive
    split
    · exact hsent
    · exact hsent

/-- One step of a closed client. -/
theorem closed_step {k₀ : Conn} {e : ClientEvent ν} (hok : StaysShut env st e)
    (h : Shut k₀ st.conn) :
    Shut k₀ (clientStep env now st e).conn ∧ (clientStep env now st e).sent = st.sent := by
  constructor
  · refine clientStep_meets (shut_keeps env k₀) e ?_ ?_ (fun _ => True.intro) (fun _ => True.intro) ?_
      (fun _ _ => True.intro) h
    · intro hreach
      rw [hok.dial] at hreach
      cases hreach
    · intro hgives
      rw [hok.back] at hgives
      cases hgives
    · intro sock frame s he htype hs hdial
      have hquiet := hok.quiet
      rw [he] at hquiet
      simp [greets, htype, hs, hdial] at hquiet
  · obtain ⟨st₁, hact, hdesk⟩ := clientStep_act env now st e
    have hw : st.conn.writable = none := by simp [Conn.writable, h.offline]
    have hsent : (clientStep env now st e).sent = st₁.sent := congrArg Desk.sent hdesk
    rw [hsent]
    exact act_silent hw h.socket hok.quiet hact

/-- A closed client that nobody connects again stays offline, opens no socket, writes nothing
and refuses what it is asked for. -/
theorem close_is_final (hinj : Function.Injective env.rt.makeMsgId)
    (hrun : Run (ClientStep env) (ClientState.init name rooms reservations) tr st)
    (hnew : isNewCall st c = true)
    (hmore : Run (ClientStep env) (clientStep env now st (.call c .close)) tr' st')
    (hafter : Meets (fun st e => StaysShut env st e.2) tr') :
    st'.conn.online = false ∧
    (∀ sock, st'.conn.isAlive sock = true → st.conn.isAlive sock = true) ∧
    st'.sent = st.sent ∧
    ∀ x ∈ tr', ∀ c op, x.2.2 = .call c op → isNewCall x.1 c = true → op.isRequest = true →
      Failing st' c := by
  have hclose : clientStep env now st (.call c .close) = startClose st c := by
    show (if isNewCall st c then startClose st c else st) = _
    rw [if_pos hnew]
  have hall := hmore.along (P := fun tr' st' => Waits env.rt st'.desk ∧ Shut st.conn st'.conn ∧
    st'.sent = st.sent ∧ ∀ x ∈ tr', ∀ c op, x.2.2 = .call c op → isNewCall x.1 c = true →
      op.isRequest = true → Failing st' c) hafter ?_ ?_
  · obtain ⟨-, hshut, hsent, hfailing⟩ := hall
    exact ⟨hshut.offline, hshut.alive, hsent, hfailing⟩
  · obtain ⟨hshut, hsent⟩ := startClose_closes st c
    refine ⟨clientStep_waits hinj _ (waits_run hinj hrun), ?_, ?_, ?_⟩
    · rw [hclose]
      exact hshut
    · rw [hclose]
      exact hsent
    · intro x hx
      cases hx
  · rintro tr' st₁ e st₂ _ _ ⟨hwaits, hshut, hsent, hfailing⟩ hok hstep
    have hstep : clientStep env e.1 st₁ e.2 = st₂ := hstep
    subst hstep
    have hclosed : Shut st.conn (clientStep env e.1 st₁ e.2).conn ∧
        (clientStep env e.1 st₁ e.2).sent = st₁.sent := closed_step hok hshut
    obtain ⟨hshut', hsent'⟩ := hclosed
    refine ⟨clientStep_waits hinj e.2 hwaits, hshut', hsent'.trans hsent, ?_⟩
    intro x hx c' op hcall hnew' hreq
    rcases List.mem_append.mp hx with hx | hx
    · exact failing_step hwaits e.2 (hfailing x hx c' op hcall hnew' hreq)
    · rw [List.mem_singleton] at hx
      subst hx
      have hcall : e.2 = .call c' op := hcall
      have hdial := hok.dial
      have hasks := hok.asks
      rw [hcall] at hdial hasks ⊢
      have hcalled : clientStep env e.1 st₁ (.call c' op) = handleCall env e.1 st₁ c' op := by
        show (if isNewCall st₁ c' then handleCall env e.1 st₁ c' op else st₁) = _
        rw [if_pos hnew']
      have hnew₁ : isNewCall st₁ c' = true := hnew'
      simp only [reachesConnect, hnew₁, Bool.true_and] at hdial
      rw [hcalled]
      exact handleCall_failing op hshut hnew' hreq hdial hasks

end Runs

/-- Call `c` asks the broker for something. -/
def asksBroker (c : CallId) : ClientEvent ν → Bool
  | .call c' op => decide (c' = c) && op.isRequest
  | _ => false

theorem call_of_asksBroker {c : CallId} {e : ClientEvent ν} (h : asksBroker c e = true) :
    ∃ op, e = .call c op ∧ op.isRequest = true := by
  unfold asksBroker at h
  split at h
  · next c' op =>
    obtain ⟨hc, hop⟩ := Bool.and_eq_true_iff.mp h
    rw [of_decide_eq_true hc]
    exact ⟨op, rfl, hop⟩
  · cases h

/-- The host has the client connect. -/
def connectsAgain : ClientEvent ν → Bool
  | .call _ .connect => true
  | _ => false

/-- The host joins a room and asks for a status after it has closed the client. -/
def asksLate : List (Int × ClientEvent Int) :=
  [(2001, .closed 0), (2001, .microtask), (2002, .call 2 (.join "lobby" .member)),
    (2002, .microtask), (2003, .call 3 (.status none)), (2004, .watchdog), (2005, .heartbeat)]

theorem close_is_final_late : ∃ (tr tr' : ClientTrace Int) (st st' : ClientState Int),
    Run (ClientStep referenceClient) aliceClient tr st ∧ st.conn.online = true ∧
    Run (ClientStep referenceClient) (clientStep referenceClient 2000 st (.call 1 .close)) tr' st' ∧
    st'.conn.online = false ∧ st'.sent = st.sent ∧ Failing st' 2 ∧ Failing st' 3 ∧
    st'.jobs.isEmpty = true := by
  have hcheck : (fun r : ClientTrace Int × ClientState Int =>
      r.2.conn.online && isNewCall r.2 1 &&
      (fun r' : ClientTrace Int × ClientState Int =>
        decide (∀ x ∈ r'.1, StaysShut referenceClient x.1 x.2.2) &&
        r'.1.any (fun x => isNewCall x.1 2 && asksBroker 2 x.2.2) &&
        r'.1.any (fun x => isNewCall x.1 3 && asksBroker 3 x.2.2) && r'.2.jobs.isEmpty)
        (runClient referenceClient (clientStep referenceClient 2000 r.2 (.call 1 .close)) asksLate))
      (runClient referenceClient aliceClient (connects 0 0)) = true := by
    decide +kernel
  simp only [Bool.and_eq_true, decide_eq_true_eq, List.any_eq_true] at hcheck
  obtain ⟨⟨hon, hnew⟩, ⟨⟨hafter, x, hx, hnewx, hcallx⟩, y, hy, hnewy, hcally⟩, hjobs⟩ := hcheck
  have hrun := run_runClient referenceClient aliceClient (connects 0 0)
  have hmore := run_runClient referenceClient (clientStep referenceClient 2000
    (runClient referenceClient aliceClient (connects 0 0)).2 (.call 1 .close)) asksLate
  obtain ⟨hoff, -, hsent, hfailing⟩ := close_is_final makeMsgId_injective hrun hnew hmore hafter
  refine ⟨_, _, _, _, hrun, hon, hmore, hoff, hsent, ?_, ?_, hjobs⟩
  · obtain ⟨op, he, hop⟩ := call_of_asksBroker hcallx
    exact hfailing x hx 2 op he hnewx hop
  · obtain ⟨op, he, hop⟩ := call_of_asksBroker hcally
    exact hfailing y hy 3 op he hnewy hop

/-- The host sends a message after it has closed the client. -/
def sendsLate : List (Int × ClientEvent Int) :=
  [(2001, .closed 0), (2001, .microtask),
    (2002, .call 2 (.send { recipient := some "carol", message := "hi" })), (2003, .connected 1),
    (2004, .line 1 (inboundOf .welcome "w")), (2004, .microtask), (2004, .microtask),
    (2004, .microtask), (2004, .microtask)]

/-- The connection is back, on a new socket, and the message is written. -/
theorem closed_client_returns : ∃ (tr tr' : ClientTrace Int) (st st' : ClientState Int),
    Run (ClientStep referenceClient) aliceClient tr st ∧ isNewCall st 1 = true ∧
    Run (ClientStep referenceClient) (clientStep referenceClient 2000 st (.call 1 .close)) tr' st' ∧
    (∀ x ∈ tr', ∀ c, x.2.2 ≠ .call c .connect) ∧ st'.conn.online = true ∧
    st.conn.isAlive 1 = false ∧ st'.conn.isAlive 1 = true ∧ st.sent.length < st'.sent.length := by
  have hcheck : (fun r : ClientTrace Int × ClientState Int =>
      isNewCall r.2 1 && !r.2.conn.isAlive 1 &&
      (fun r' : ClientTrace Int × ClientState Int =>
        r'.1.all (fun x => !connectsAgain x.2.2) && r'.2.conn.online && r'.2.conn.isAlive 1 &&
        decide (r.2.sent.length < r'.2.sent.length))
        (runClient referenceClient (clientStep referenceClient 2000 r.2 (.call 1 .close)) sendsLate))
      (runClient referenceClient aliceClient (connects 0 0)) = true := by
    decide +kernel
  simp only [Bool.and_eq_true, Bool.not_eq_true', decide_eq_true_eq, List.all_eq_true] at hcheck
  obtain ⟨⟨hnew, hdead⟩, ⟨⟨hnone, hon⟩, halive⟩, hsent⟩ := hcheck
  refine ⟨_, _, _, _, run_runClient referenceClient aliceClient (connects 0 0), hnew,
    run_runClient referenceClient _ sendsLate, ?_, hon, hdead, halive, hsent⟩
  intro x hx c he
  have := hnone x hx
  rw [he] at this
  cases this

end PiMesh
