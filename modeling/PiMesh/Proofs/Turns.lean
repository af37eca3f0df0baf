/-
What a step does to the connection.

Whatever the event, a step comes down to a few things as far as the connection goes: it
calls `connect()`, it moves a dial or a rename one stage on, it settles a handshake, it
loses the socket, or it leaves the connection alone.  `Keeps` lists what a property of the
connection and of the jobs about it has to survive, and `clientStep_meets` says that this
is enough.  The walk through the requests and the bookkeeping is made here, once.

The guards say where a property may break.  `Go` is what holds when a request or a timer
reaches `connect()`, `Up` when a rename gives up and goes there, `De` when one detaches;
`reachesConnect`, `givesUp` and `detaches` read from the state before the step whether it
does.
-/
import PiMesh.Proofs.Links

namespace PiMesh

open Js Transition

variable {ν : Type} [Number ν]

/-! ### Who reaches `connect()` -/

/-- The checks of a `reserve` pass. -/
def reserveChecks (patterns : List String) : Bool :=
  match validPatterns patterns with
  | .ok (_ :: _) => true
  | _ => false

/-- A rename has a new alias to go to. -/
def renameChecks (env : ClientEnv) (k : Conn) (newAlias : String) : Bool :=
  isValidAlias (normalizeAlias env.rt newAlias) && decide (normalizeAlias env.rt newAlias ≠ k.name)

/-- A call gets as far as `connect()`. -/
def Op.reachesConnect (env : ClientEnv) (st : ClientState ν) : Op → Bool
  | .connect => true
  | .send opts => !st.conn.online && (planSend env st opts).isOk
  | .reply msgId body opts => !st.conn.online && (planReply st msgId body opts).isOk
  | .reserve patterns _ => !st.conn.online && reserveChecks patterns
  | .release patterns => !st.conn.online && !(releasedPatterns st.ownReservations patterns).isEmpty
  | .join _ _ => !st.conn.online && !st.conn.userClosed
  | .leave _ => !st.conn.online && !st.conn.userClosed
  | .rename newAlias => !st.conn.online && renameChecks env st.conn newAlias
  | _ => false

/-- The dial of a rename failed for good. -/
def renameGivesUp (k : Conn) (c : CallId) (err : ConnectError) : Bool :=
  match k.renames.get? c with
  | some (.dialing _ _ attempt) => !(err.isAliasTaken && decide (attempt < aliasRetryAttempts))
  | _ => false

/-- A microtask gets as far as `connect()`: a round trip that finds the client offline again. -/
def Job.reachesConnect (k : Conn) (calls : Map CallId Stage) : Job ν → Bool
  | .connected (.call c) _ =>
      match calls.get? c with
      | some (.reserveConnect _ _) => !k.online && !k.userClosed
      | some (.releaseConnect _ _) => !k.online && !k.userClosed
      | _ => false
  | _ => false

def reachesConnect (env : ClientEnv) (st : ClientState ν) : ClientEvent ν → Bool
  | .call c op => isNewCall st c && op.reachesConnect env st
  | .microtask => st.jobs.head?.any (Job.reachesConnect st.conn st.calls)
  | .backoff t => st.jobs.isEmpty && decide (t ∈ st.conn.armed)
  | .watchdog => st.jobs.isEmpty && watchdogKicks env st.conn
  | _ => false

/-- A microtask sends a rename back to the old alias. -/
def Job.givesUp (k : Conn) : Job ν → Bool
  | .dialed (.rename c) (.error err) => renameGivesUp k c err
  | _ => false

/-- A rename goes back to the old alias, through `connect()`. -/
def givesUp (st : ClientState ν) : ClientEvent ν → Bool
  | .microtask => st.jobs.head?.any (Job.givesUp st.conn)
  | _ => false

/-- A microtask lets a rename detach, now that it is connected. -/
def Job.detaches (k : Conn) (calls : Map CallId Stage) : Job ν → Bool
  | .connected (.call c) _ =>
      match calls.get? c, k.renames.get? c with
      | some .rename, some (.connecting _) => true
      | _, _ => false
  | _ => false

/-- A rename detaches the old alias. -/
def detaches (env : ClientEnv) (st : ClientState ν) : ClientEvent ν → Bool
  | .call c (.rename newAlias) =>
      isNewCall st c && st.conn.online && renameChecks env st.conn newAlias
  | .microtask => st.jobs.head?.any (Job.detaches st.conn st.calls)
  | _ => false

/-- The frames that wait cannot all be written after the welcome. -/
def flushThrows (env : ClientEnv) (st : ClientState ν) : Bool :=
  !(flushOutbox env st).2

/-- The rest of `doConnect` after a welcome throws. -/
def throws (env : ClientEnv) (st : ClientState ν) : ClientEvent ν → Bool
  | .microtask =>
      match st.jobs.head? with
      | some (.welcomed _ _) => flushThrows env st
      | _ => false
  | _ => false

/-- The catch of a backoff timer's `connect()`. -/
def Job.isCatch : Job ν → Bool
  | .connectFailed .backoff _ => true
  | _ => false

/-- The requests in flight are given up: the socket in use closes, or the `connect()` of a
backoff timer has failed, and no other is on its way. -/
def losesRequests (st : ClientState ν) : ClientEvent ν → Bool
  | .closed sock => st.jobs.isEmpty && decide (st.conn.socket = some sock) &&
      (st.conn.sockets.get? sock).any (fun s => s.welcomed && !s.closed) && st.conn.connecting.isNone
  | .microtask => st.jobs.head?.any Job.isCatch && st.conn.connecting.isNone
  | _ => false

/-- A welcome is read from a socket to which no hello was written. -/
def unasked (st : ClientState ν) : ClientEvent ν → Bool
  | .line sock frame => decide (frame.type = .welcome) &&
      (st.conn.sockets.get? sock).any fun s => s.hello.isNone
  | _ => false

/-! ### The rule -/

/-- The queued jobs that are about the connection. -/
def ClientState.links (st : ClientState ν) : List (Job ν) := st.jobs.filter Job.isLink

/-- The state a step starts from: a microtask is taken from the queue. -/
def ClientState.turn (st : ClientState ν) : ClientEvent ν → ClientState ν
  | .microtask => { st with jobs := st.jobs.tail }
  | _ => st

/-- A property of the connection and of the jobs about it. -/
def ClientState.meets (st : ClientState ν) (P : Conn → List (Job ν) → Prop) : Prop :=
  P st.conn st.links

section Parts

variable (st : ClientState ν)

@[simp] theorem conn_setConn (k : Conn) : (st.setConn k).conn = k := rfl

@[simp] theorem conn_push (js : List (Job ν)) : (st.push js).conn = st.conn := rfl

@[simp] theorem links_setConn (k : Conn) : (st.setConn k).links = st.links := rfl

@[simp] theorem links_push (js : List (Job ν)) :
    (st.push js).links = st.links ++ js.filter Job.isLink := List.filter_append ..

variable {P : Conn → List (Job ν) → Prop}

theorem meets_push (js : List (Job ν)) :
    (st.push js).meets P ↔ P st.conn (st.links ++ js.filter Job.isLink) := by
  rw [ClientState.meets, conn_push, links_push]

theorem meets_setConn (k : Conn) : (st.setConn k).meets P ↔ P k st.links := Iff.rfl

theorem meets_setConn_push (k : Conn) (js : List (Job ν)) :
    ((st.setConn k).push js).meets P ↔ P k (st.links ++ js.filter Job.isLink) := meets_push _ js

end Parts

/-- Jobs that only tell somebody how a connection went, or that a wait is over. -/
def Job.isNews : Job ν → Bool
  | .connected _ _ => true
  | .connectFailed .backoff _ => false
  | .connectFailed _ _ => true
  | .closed _ => true
  | _ => false

/-- The rename does not hold the connection: it is not there, or it waits for `connect()`. -/
def RenameStage.isIdle : Option RenameStage → Bool
  | none => true
  | some (.connecting _) => true
  | some (.restoring _ _) => true
  | _ => false

/-- What a property of the connection has to survive. -/
structure Keeps (env : ClientEnv) (P Go Up De : Conn → List (Job ν) → Prop)
    (Throws : Prop) (Greets : ClientSocket → Prop) (Close : Prop) : Prop where
  news : ∀ k j js, Job.isNews j = true → P k (j :: js) → P k js
  connect : ∀ (st : ClientState ν) w, st.meets Go → st.meets P → (connect env st w).meets P
  waits : ∀ k js c target, k.renames.get? c = none → P k js →
    P { k with renames := k.renames.set c (.connecting target) } js
  waits_go : ∀ k js c target, k.renames.get? c = none → Go k js →
    Go { k with renames := k.renames.set c (.connecting target) } js
  detach : ∀ (st : ClientState ν) c target, st.meets De →
    RenameStage.isIdle (st.conn.renames.get? c) = true → st.meets P →
    (renameDetach env st c target).meets P
  forget : ∀ k js c, RenameStage.isIdle (k.renames.get? c) = true → P k js →
    P { k with renames := k.renames.delete c } js
  dialed : ∀ (st : ClientState ν) r, P st.conn (.dialed .connect r :: st.links) →
    (handleDialed env st r).meets P
  renameDialed : ∀ (st : ClientState ν) c r, P st.conn (.dialed (.rename c) r :: st.links) →
    (∀ err, r = .error err → renameGivesUp st.conn c err = true → st.meets Up) →
    (handleRenameDialed env st c r).meets P
  connectDone : ∀ (st : ClientState ν) r, P st.conn (.connectDone r :: st.links) →
    (handleConnectDone st r).meets P
  backoffFailed : ∀ (st : ClientState ν) err,
    P st.conn (.connectFailed .backoff err :: st.links) → (onSocketClosed env st none).meets P
  welcomed : ∀ k js owner info r, P k (.welcomed owner info :: js) →
    (r = .ok info ∨ r = .error .thrown ∧ Throws) →
    P { k with heartbeat := true, watchdog := true } (js ++ [.dialed owner r])
  detached : ∀ (st : ClientState ν) c, P st.conn (.detached c :: st.links) →
    (handleDetached env st c).meets P
  retry : ∀ st : ClientState ν, st.meets P → (handleRetry env st).meets P
  renameRetry : ∀ (st : ClientState ν) c, st.meets P → (handleRenameRetry env st c).meets P
  ensured : ∀ (st : ClientState ν) owner ok, owner ∈ st.conn.ensuring → st.meets P →
    (handleEnsured st owner ok).meets P
  opened : ∀ k js sock s, k.sockets.get? sock = some s → s.settled = false → P k js →
    P (k.modifySocket sock fun s => { s with hello := some k.name }) js
  welcome : ∀ (st : ClientState ν) sock s frame, st.conn.sockets.get? sock = some s →
    s.settled = false → s.closed = false → Greets s → st.meets P →
    (acceptWelcome st sock s.owner frame).meets P
  refused : ∀ (st : ClientState ν) sock err, st.meets P → (failHandshake st sock err).meets P
  helloTimeout : ∀ (st : ClientState ν) sock, st.meets P → (handleHelloTimeout st sock).meets P
  socketError : ∀ (st : ClientState ν) sock, st.meets P → (handleSocketError st sock).meets P
  socketClose : ∀ (st : ClientState ν) sock, st.links = [] → st.meets P →
    (handleSocketClose env st sock).meets P
  backoff : ∀ (st : ClientState ν) t, st.links = [] → t ∈ st.conn.armed → st.meets Go →
    st.meets P → (handleBackoff env st t).meets P
  close : ∀ (st : ClientState ν) c, Close → st.meets P → (startClose st c).meets P
  endWait : ∀ (st : ClientState ν) c, st.meets P → (endWait st c).meets P

/-! ### What leaves the connection alone -/

/-- Neither the connection nor the jobs about it changed. -/
structure Still (st st' : ClientState ν) : Prop where
  conn : st'.conn = st.conn
  links : st'.links = st.links

namespace Still

variable {st st' st'' : ClientState ν}

theorem refl (st : ClientState ν) : Still st st := ⟨rfl, rfl⟩

theorem trans (h : Still st st') (h' : Still st' st'') : Still st st'' :=
  ⟨h'.conn.trans h.conn, h'.links.trans h.links⟩

theorem meets {P : Conn → List (Job ν) → Prop} (h : Still st st') (hP : st.meets P) :
    st'.meets P := by
  unfold ClientState.meets
  rw [h.conn, h.links]
  exact hP

theorem of_same (hconn : st'.conn = st.conn) (hjobs : st'.jobs = st.jobs) : Still st st' :=
  ⟨hconn, by rw [ClientState.links, hjobs, ClientState.links]⟩

/-- The same, from a state in which nothing of this was touched yet. -/
theorem after {st₁ : ClientState ν} (h : Still st₁ st') (hconn : st₁.conn = st.conn)
    (hjobs : st₁.jobs = st.jobs) : Still st st' :=
  (of_same hconn hjobs).trans h

theorem setStage (st : ClientState ν) (c : CallId) (stage : Stage) : Still st (st.setStage c stage) :=
  of_same rfl rfl

theorem finish (st : ClientState ν) (c : CallId) (r : CallResult ν) : Still st (st.finish c r) :=
  of_same rfl rfl

end Still

theorem Paper.still {st st' : ClientState ν} (h : Paper st st') : Still st st' := by
  obtain ⟨js, hjs, hl⟩ := h.jobs
  refine ⟨h.conn, ?_⟩
  have hnone : js.filter Job.isLink = [] := by
    rw [List.filter_eq_nil_iff]
    intro j hj
    simp [hl j hj]
  rw [ClientState.links, hjs, List.filter_append, hnone, List.append_nil, ClientState.links]

/-- The connection of a client that lets go of its socket on purpose. -/
def Conn.detach (k : Conn) : Conn :=
  { k.clearReconnectTimer with
    intentionallyClosed := true, heartbeat := false, socket := none, online := false }

/-- The connection of a closed client. -/
def Conn.shut (k : Conn) : Conn := { k.detach with userClosed := true, watchdog := false }

/-- Clearing the timer changes the handle and the armed timers. -/
theorem clearReconnectTimer_eq (k : Conn) :
    ∃ armed, k.clearReconnectTimer = { k with reconnectTimer := none, armed } := by
  unfold Conn.clearReconnectTimer
  split
  · exact ⟨_, rfl⟩
  · next hnone => exact ⟨k.armed, by rw [← hnone]⟩

/-- A rename lets go of its socket, and ends it or dials at once. -/
theorem renameDetach_eq (env : ClientEnv) (st : ClientState ν) (c : CallId) (target : String) :
    ∃ st₁ : ClientState ν, st₁.conn = st.conn.detach ∧ st₁.links = st.links ∧
      renameDetach env st c target = match st.conn.socket.filter st.conn.isAlive with
        | some sock => setRename (st₁.setConn (st₁.conn.modifySocket sock fun s =>
            { s with ended := true })) c (.detaching target st.conn.name sock)
        | none => renameDial env st₁ c target st.conn.name := by
  have hpaper := (setPending_booked (st.setConn
    { st.conn.clearReconnectTimer with intentionallyClosed := true, heartbeat := false })
    (st.book.pending.cancelAll .renamed)).paper.still
  refine ⟨_, ?_, ?_, rfl⟩
  · rw [conn_setConn, hpaper.conn]
    rfl
  · exact hpaper.links

/-- A close lets go of its socket, and ends it or returns. -/
theorem startClose_eq (st : ClientState ν) (c : CallId) :
    ∃ st₁ : ClientState ν, st₁.conn = st.conn.shut ∧ st₁.links = st.links ∧
      startClose st c = match st.conn.socket.filter st.conn.isAlive with
        | some sock => (st₁.setConn (st₁.conn.modifySocket sock fun s =>
            { s with ended := true })).setStage c (.closing sock)
        | none => st₁.finish c .void := by
  have hpaper := (setPending_booked (st.setConn
    { st.conn.clearReconnectTimer with
      intentionallyClosed := true, userClosed := true, heartbeat := false, watchdog := false })
    (st.book.pending.cancelAll .shuttingDown)).paper.still
  obtain ⟨armed, hclear⟩ := clearReconnectTimer_eq st.conn
  unfold startClose
  extract_lets k k₁ st₁ alive k₂ st₂
  have hconn : st₁.conn = k₁ := hpaper.conn
  have halive : alive = st.conn.socket.filter st.conn.isAlive := by
    have hsocket : k₁.socket = st.conn.socket := by simp [k₁, k, hclear]
    have hsockets : k₁.sockets = st.conn.sockets := by simp [k₁, k, hclear]
    have hfun : k₁.isAlive = st.conn.isAlive := by
      funext sock
      simp only [Conn.isAlive, hsockets]
    simp only [alive, hconn, hsocket, hfun]
  refine ⟨st₂, ?_, hpaper.links, ?_⟩
  · show { st₁.conn with socket := none, online := false } = st.conn.shut
    rw [hconn]
    rfl
  · rw [halive]
    try rfl

/-- A failed handshake leaves the promise and the socket in use alone. -/
theorem failHandshake_parts (st : ClientState ν) (sock : ClientSocketId) (err : ConnectError) :
    (failHandshake st sock err).conn.connecting = st.conn.connecting ∧
      (failHandshake st sock err).conn.socket = st.conn.socket := by
  have hmodify : ∀ (k : Conn) sock f, (Conn.modifySocket k sock f).connecting = k.connecting ∧
      (Conn.modifySocket k sock f).socket = k.socket := by
    intro k sock f
    unfold Conn.modifySocket
    split
    · exact ⟨rfl, rfl⟩
    · exact ⟨rfl, rfl⟩
  have hclear : st.conn.clearHelloTimer.connecting = st.conn.connecting ∧
      st.conn.clearHelloTimer.socket = st.conn.socket := by
    unfold Conn.clearHelloTimer
    split
    · exact hmodify _ _ _
    · exact ⟨rfl, rfl⟩
  unfold failHandshake
  split
  · split
    · exact ⟨rfl, rfl⟩
    · obtain ⟨hconnecting, hsocket⟩ := hmodify st.conn.clearHelloTimer sock fun s =>
        { s with settled := true, destroyed := true }
      exact ⟨hconnecting.trans hclear.1, hsocket.trans hclear.2⟩
  · exact ⟨rfl, rfl⟩

section Requests

variable (env : ClientEnv) (now : Int) (st : ClientState ν)

theorem writeOrQueue_still {st st' : ClientState ν} {frame : ClientFrame}
    (h : writeOrQueue env st frame = some st') : Still st st' := by
  unfold writeOrQueue at h
  split at h
  · split at h
    · obtain rfl := Option.some.inj h
      exact .of_same rfl rfl
    · cases h
  · split at h
    · obtain rfl := Option.some.inj h
      exact .of_same rfl rfl
    · obtain rfl := Option.some.inj h
      exact .refl st

theorem registerMission_still (plan : SendPlan) (id : String) :
    Still st (registerMission st now plan id) := by
  unfold registerMission
  exact (setPending_booked _ _).paper.still.after rfl rfl

theorem waitAck_still (id : String) (c : CallId) : Still st (waitAck st id c) := .of_same rfl rfl

theorem issueSend_still (c : CallId) (plan : SendPlan) :
    Still st (issueSend env now st c plan) := by
  have hregistered : Still st (if plan.awaitReply then
      registerMission st.useId now plan (sendFrame env now st plan).id else st.useId) := by
    split
    · exact (registerMission_still now st.useId plan _).after rfl rfl
    · exact .of_same rfl rfl
  have hwaits := hregistered.trans (waitAck_still _ (sendFrame env now st plan).id c)
  unfold issueSend
  dsimp only
  split
  · next st' hw => exact (hwaits.trans (writeOrQueue_still env hw)).trans (.setStage st' c _)
  · exact hwaits.trans (.finish _ c _)

theorem issueReply_still (c : CallId) (plan : ReplyPlan) :
    Still st (issueReply env now st c plan) := by
  unfold issueReply
  split
  · exact .finish st c _
  · dsimp only
    split
    · next st' hw => exact ((writeOrQueue_still env hw).trans (.setStage st' c _)).after rfl rfl
    · exact (Still.finish _ c _).after rfl rfl

theorem sendTrip_still (c : CallId) (use : TripUse) (frame : ClientFrame) :
    Still st (sendTrip env st c use frame) := by
  unfold sendTrip
  dsimp only
  split
  · next st' hw => exact ((writeOrQueue_still env hw).trans (.setStage st' c _)).after rfl rfl
  · exact (Still.finish _ c _).after rfl rfl

theorem startStatus_still (c : CallId) (room : Option String) :
    Still st (startStatus env now st c room) := by
  unfold startStatus
  split
  · exact .finish st c _
  · dsimp only
    split
    · next st' hw => exact ((writeOrQueue_still env hw).trans (.setStage st' c _)).after rfl rfl
    · exact (Still.finish _ c _).after rfl rfl

theorem getD_still (frame : ClientFrame) :
    Still st ((writeOrQueue env st frame).getD st) := by
  cases hw : writeOrQueue env st frame with
  | none => exact .refl st
  | some st' => exact writeOrQueue_still env hw

theorem sendNotice_still (frame : ClientFrame) : Still st (sendNotice env st frame) := by
  unfold sendNotice
  split
  · exact (getD_still env st.useId frame).after rfl rfl
  · exact .refl st

theorem sendRemind_still (msgId : String) : Still st (sendRemind env now st msgId) := by
  unfold sendRemind
  split
  · exact .refl st
  · split
    · exact .refl st
    · exact getD_still env st _

theorem handleRemind_still (id : String) : Still st (handleRemind env now st id) := by
  unfold handleRemind
  dsimp only
  split
  · exact (sendRemind_still env now _ id).after rfl rfl
  · exact .of_same rfl rfl

theorem handleHeartbeat_still : Still st (handleHeartbeat env now st) := by
  unfold handleHeartbeat
  split
  · split
    · exact .of_same rfl rfl
    · exact .refl st
  · exact .refl st

/-- Writing what waited touches no job and not the connection. -/
theorem flushFrames_still (n : Nat) : Still st (flushFrames env n st).1 := by
  induction n generalizing st with
  | zero => exact .refl st
  | succ n ih =>
      unfold flushFrames
      split
      · exact .refl st
      · dsimp only
        split
        · split
          · exact (ih _).after rfl rfl
          · exact .of_same rfl rfl
        · exact (ih _).after rfl rfl

/-- Whether the flush throws depends on what waits and on the socket. -/
theorem flushFrames_congr {st st' : ClientState ν} (n : Nat) (houtbox : st'.outbox = st.outbox)
    (hsocket : st'.conn.socket = st.conn.socket) (hsockets : st'.conn.sockets = st.conn.sockets) :
    (flushFrames env n st').2 = (flushFrames env n st).2 := by
  induction n generalizing st st' with
  | zero => rfl
  | succ n ih =>
      have halive : st'.conn.socket.filter st'.conn.isAlive =
          st.conn.socket.filter st.conn.isAlive := by
        have hfun : st'.conn.isAlive = st.conn.isAlive := by
          funext sock
          simp only [Conn.isAlive, hsockets]
        rw [hsocket, hfun]
      simp only [flushFrames, houtbox]
      split
      · rfl
      · simp only [halive]
        split
        · split
          · exact ih rfl hsocket hsockets
          · rfl
        · exact ih rfl hsocket hsockets

end Requests

/-! ### One step -/

section Step

variable {env : ClientEnv} {P Go Up De : Conn → List (Job ν) → Prop} {Throws Close : Prop}
  {Greets : ClientSocket → Prop}
  {now : Int} {st : ClientState ν}

/-- A call stores where it waits and goes to `connect()`. -/
theorem connect_stage_meets (K : Keeps env P Go Up De Throws Greets Close) (c : CallId) (stage : Stage)
    (w : Waiter) (hgo : st.meets Go) (hP : st.meets P) :
    (connect env (st.setStage c stage) w).meets P :=
  K.connect _ w ((Still.setStage st c stage).meets hgo) ((Still.setStage st c stage).meets hP)

theorem roundTrip_meets (K : Keeps env P Go Up De Throws Greets Close) (c : CallId) (use : TripUse)
    (frame : ClientFrame)
    (hgo : st.conn.online = false → st.conn.userClosed = false → st.meets Go) (hP : st.meets P) :
    (roundTrip env st c use frame).meets P := by
  unfold roundTrip
  split
  · exact (sendTrip_still env st c use frame).meets hP
  · next hoff =>
    have hoff : st.conn.online = false := by simpa using hoff
    split
    · refine Still.meets ?_ hP
      exact ⟨rfl, by simp [ClientState.links, ClientState.push, ClientState.setStage]⟩
    · next huser =>
      exact connect_stage_meets K c _ _ (hgo hoff (by simpa using huser)) hP

/-- A rename that returns is forgotten. -/
theorem finishRename_still (st : ClientState ν) (c : CallId) (r : CallResult ν) :
    Still (st.setConn { st.conn with renames := st.conn.renames.delete c }) (finishRename st c r) := by
  unfold finishRename
  dsimp only
  split
  · exact .finish _ c r
  · exact .refl _

theorem finishRename_meets (K : Keeps env P Go Up De Throws Greets Close) (c : CallId) (r : CallResult ν)
    (hidle : RenameStage.isIdle (st.conn.renames.get? c) = true) (hP : st.meets P) :
    (finishRename st c r).meets P := by
  have hforget : (st.setConn { st.conn with renames := st.conn.renames.delete c }).meets P :=
    K.forget st.conn st.links c hidle hP
  exact (finishRename_still st c r).meets hforget

theorem startRename_meets (K : Keeps env P Go Up De Throws Greets Close) (c : CallId) (newAlias : String)
    (hnew : st.conn.renames.get? c = none)
    (hgo : st.conn.online = false → renameChecks env st.conn newAlias = true → st.meets Go)
    (hde : st.conn.online = true → renameChecks env st.conn newAlias = true → st.meets De)
    (hP : st.meets P) : (startRename env st c newAlias).meets P := by
  have hidle : RenameStage.isIdle (st.conn.renames.get? c) = true := by rw [hnew]; rfl
  have hstage : (st.setStage c .rename).meets P := (Still.setStage st c .rename).meets hP
  unfold startRename
  dsimp only
  split
  · exact finishRename_meets K c _ hidle hstage
  · next hvalid =>
    split
    · exact finishRename_meets K c _ hidle hstage
    · next hname =>
      have hchecks : renameChecks env st.conn newAlias = true := by
        have hvalid : isValidAlias (normalizeAlias env.rt newAlias) = true := by simpa using hvalid
        simp only [renameChecks, hvalid, Bool.true_and, decide_eq_true_eq]
        exact hname
      split
      · next hoff =>
        have hoff : st.conn.online = false := by simpa [ClientState.setStage] using hoff
        refine K.connect _ _ ?_ ?_
        · exact K.waits_go st.conn st.links c _ hnew (hgo hoff hchecks)
        · exact K.waits st.conn st.links c _ hnew hP
      · next hon =>
        have hon : st.conn.online = true := by simpa [ClientState.setStage] using hon
        exact K.detach _ c _ ((Still.setStage st c .rename).meets (hde hon hchecks)) hidle hstage

/-- A request past its checks: it is issued, or it goes to `connect()`. -/
theorem request_meets (K : Keeps env P Go Up De Throws Greets Close) {issued : ClientState ν} (c : CallId)
    (stage : Stage) (hissued : issued.meets P) (hgo : st.conn.online = false → st.meets Go)
    (hP : st.meets P) :
    (if st.conn.online then issued else connect env (st.setStage c stage) (.call c)).meets P := by
  split
  · exact hissued
  · next hoff => exact connect_stage_meets K c stage _ (hgo (by simpa using hoff)) hP

theorem issueReserve_meets (K : Keeps env P Go Up De Throws Greets Close) (c : CallId)
    (patterns : List String) (reason : Option String)
    (hgo : st.conn.online = false → st.conn.userClosed = false → st.meets Go) (hP : st.meets P) :
    (issueReserve env now st c patterns reason).meets P := by
  unfold issueReserve
  exact roundTrip_meets K c _ _ hgo hP

theorem issueRelease_meets (K : Keeps env P Go Up De Throws Greets Close) (c : CallId)
    (merged : List FileReservation) (releasing : List String)
    (hgo : st.conn.online = false → st.conn.userClosed = false → st.meets Go) (hP : st.meets P) :
    (issueRelease env now st c merged releasing).meets P := by
  unfold issueRelease
  exact roundTrip_meets K c _ _ hgo hP

theorem handleCall_meets (K : Keeps env P Go Up De Throws Greets Close) (c : CallId) (op : Op)
    (hnew : st.conn.renames.get? c = none)
    (hgo : op.reachesConnect env st = true → st.meets Go)
    (hde : ∀ newAlias, op = .rename newAlias → st.conn.online = true →
      renameChecks env st.conn newAlias = true → st.meets De)
    (hclose : op = .close → Close) (hP : st.meets P) :
    (handleCall env now st c op).meets P := by
  cases op with
  | connect => exact connect_stage_meets K c _ _ (hgo rfl) hP
  | send opts =>
      unfold handleCall startSend
      dsimp only
      split
      · exact (Still.finish st c _).meets hP
      · next plan hplan =>
        refine request_meets K c _ ((issueSend_still env now st c plan).meets hP) ?_ hP
        intro hoff
        exact hgo (by simp [Op.reachesConnect, hoff, hplan, Except.isOk, Except.toBool])
  | reply msgId body opts =>
      unfold handleCall startReply
      dsimp only
      split
      · exact (Still.finish st c _).meets hP
      · next plan hplan =>
        refine request_meets K c _ ((issueReply_still env now st c plan).meets hP) ?_ hP
        intro hoff
        exact hgo (by simp [Op.reachesConnect, hoff, hplan, Except.isOk, Except.toBool])
  | reserve patterns reason =>
      unfold handleCall startReserve
      dsimp only
      split
      · exact (Still.finish st c _).meets hP
      · exact (Still.finish st c _).meets hP
      · next p ps hvalid =>
        have hchecks : st.conn.online = false → st.meets Go := by
          intro hoff
          exact hgo (by simp [Op.reachesConnect, hoff, reserveChecks, hvalid])
        refine request_meets K c _ ?_ hchecks hP
        exact issueReserve_meets K c _ reason (fun hoff _ => hchecks hoff) hP
  | release patterns =>
      unfold handleCall startRelease
      dsimp only
      split
      · exact (Still.finish st c _).meets hP
      · next hsome =>
        have hchecks : st.conn.online = false → st.meets Go := by
          intro hoff
          exact hgo (by simp [Op.reachesConnect, hoff, hsome])
        refine request_meets K c _ ?_ hchecks hP
        exact issueRelease_meets K c _ _ (fun hoff _ => hchecks hoff) hP
  | join room role =>
      unfold handleCall startJoin
      refine roundTrip_meets K c _ _ ?_ hP
      intro hoff huser
      exact hgo (by simpa [Op.reachesConnect] using ⟨hoff, huser⟩)
  | leave room =>
      unfold handleCall startLeave
      refine roundTrip_meets K c _ _ ?_ hP
      intro hoff huser
      exact hgo (by simpa [Op.reachesConnect] using ⟨hoff, huser⟩)
  | status room => exact (startStatus_still env now st c room).meets hP
  | rename newAlias =>
      refine startRename_meets K c newAlias hnew ?_ (hde newAlias rfl) hP
      intro hoff hchecks
      exact hgo (by simp [Op.reachesConnect, hoff, hchecks])
  | close => exact K.close st c (hclose rfl) hP
  | waitAll timeoutMs signal => exact (startWaitAll_paper env now st c timeoutMs signal).still.meets hP
  | cancelAllAwaited =>
      exact ((cancelAllAwaited_booked st).paper.still.trans (.finish _ c _)).meets hP
  | forgetRoom room =>
      exact ((Still.of_same rfl rfl : Still st (forgetRoom st room)).trans (.finish _ c _)).meets hP
  | sendActivity state => exact ((sendNotice_still env st _).trans (.finish _ c _)).meets hP
  | sendRead msgId recipient => exact ((sendNotice_still env st _).trans (.finish _ c _)).meets hP

/-- The continuation of a call that is connected. -/
theorem handleCallConnected_meets (K : Keeps env P Go Up De Throws Greets Close) (c : CallId)
    (info : WelcomeInfo ν)
    (hgo : Job.reachesConnect st.conn st.calls (.connected (.call c) info) = true → st.meets Go)
    (hde : Job.detaches st.conn st.calls (.connected (.call c) info) = true → st.meets De) (hP : st.meets P) :
    (handleCallConnected env now st c info).meets P := by
  unfold handleCallConnected
  split
  · exact (Still.finish st c _).meets hP
  · exact (issueSend_still env now st c _).meets hP
  · exact (issueReply_still env now st c _).meets hP
  · next patterns reason hcall =>
    refine issueReserve_meets K c patterns reason ?_ hP
    intro hoff huser
    exact hgo (by simp [Job.reachesConnect, hcall, hoff, huser])
  · next merged releasing hcall =>
    refine issueRelease_meets K c merged releasing ?_ hP
    intro hoff huser
    exact hgo (by simp [Job.reachesConnect, hcall, hoff, huser])
  · exact (sendTrip_still env st c _ _).meets hP
  · next hcall =>
    unfold handleRenameConnected
    split
    · next target _ hrename _ =>
      refine K.detach st c target (hde (by simp [Job.detaches, hcall, hrename])) ?_ hP
      rw [hrename]
      rfl
    · next hrename => cases ‹Except.ok info = Except.error _›
    · next hrename => exact finishRename_meets K c _ (by rw [hrename]; rfl) hP
    · exact hP
  · exact hP

theorem handleCallRefused_meets (K : Keeps env P Go Up De Throws Greets Close) (c : CallId)
    (err : ConnectError) (hP : st.meets P) : (handleCallRefused env st c err).meets P := by
  unfold handleCallRefused
  split
  · exact (Still.finish st c _).meets hP
  · exact (Still.finish st c _).meets hP
  · exact (Still.finish st c _).meets hP
  · exact (Still.finish st c _).meets hP
  · exact (Still.finish st c _).meets hP
  · refine Still.meets ?_ hP
    exact ⟨rfl, by simp [ClientState.links, ClientState.push, ClientState.setStage]⟩
  · unfold handleRenameConnected
    split
    · cases ‹Except.error err = Except.ok _›
    · next hrename _ => exact finishRename_meets K c _ (by rw [hrename]; rfl) hP
    · next hrename => exact finishRename_meets K c _ (by rw [hrename]; rfl) hP
    · exact hP
  · exact hP

theorem handleWelcomed_meets (K : Keeps env P Go Up De Throws Greets Close) (owner : Owner)
    (info : WelcomeInfo ν) (hthrows : flushThrows env st = true → Throws)
    (hP : P st.conn (.welcomed owner info :: st.links)) :
    (handleWelcomed env st owner info).meets P := by
  let k := { st.conn with heartbeat := true, watchdog := true }
  have hstill : Still (st.setConn k) (flushOutbox env (st.setConn k)).1 := flushFrames_still env _ _
  have hsame : (flushOutbox env (st.setConn k)).2 = (flushOutbox env st).2 :=
    flushFrames_congr env _ rfl rfl rfl
  have hpush : ∀ r, P k (st.links ++ [Job.dialed owner r]) →
      ((flushOutbox env (st.setConn k)).1.push [.dialed owner r]).meets P := by
    intro r hr
    show P (flushOutbox env (st.setConn k)).1.conn
      (((flushOutbox env (st.setConn k)).1.jobs ++ [Job.dialed owner r]).filter Job.isLink)
    rw [List.filter_append, ← ClientState.links, hstill.conn, hstill.links]
    exact hr
  unfold handleWelcomed
  dsimp only
  split
  · next st' hres =>
    have hst : (flushOutbox env (st.setConn k)).1 = st' := congrArg Prod.fst hres
    rw [← hst]
    exact hpush _ (K.welcomed _ _ owner info _ hP (.inl rfl))
  · next st' hres =>
    have hst : (flushOutbox env (st.setConn k)).1 = st' := congrArg Prod.fst hres
    have hthrew : (flushOutbox env (st.setConn k)).2 = false := congrArg Prod.snd hres
    have hmay : Throws := hthrows (by simp [flushThrows, ← hsame, hthrew])
    rw [← hst]
    exact hpush _ (K.welcomed _ _ owner info _ hP (.inr ⟨rfl, hmay⟩))

/-- One microtask: what was queued is gone from the front. -/
theorem handleJob_meets (K : Keeps env P Go Up De Throws Greets Close) (j : Job ν)
    (hgo : Job.reachesConnect st.conn st.calls j = true → st.meets Go)
    (hup : Job.givesUp st.conn j = true → st.meets Up)
    (hde : Job.detaches st.conn st.calls j = true → st.meets De)
    (hthrows : ∀ owner info, j = .welcomed owner info → flushThrows env st = true → Throws)
    (hP : P st.conn ([j].filter Job.isLink ++ st.links)) :
    (handleJob env now st j).meets P := by
  cases j with
  | acked c ack => exact (handleAcked_paper st c ack).still.meets hP
  | resolved w id r => exact (handleResolved_paper st w id r).still.meets hP
  | connected w info =>
      have hnews : st.meets P := K.news _ _ _ rfl hP
      cases w with
      | call c => exact handleCallConnected_meets K c info hgo hde hnews
      | backoff => exact hnews
      | watchdog => exact hnews
  | connectFailed w err =>
      cases w with
      | call c => exact handleCallRefused_meets K c err (K.news _ _ _ rfl hP)
      | backoff => exact K.backoffFailed st err hP
      | watchdog => exact K.news _ _ _ rfl hP
  | welcomed owner info => exact handleWelcomed_meets K owner info (hthrows owner info rfl) hP
  | dialed owner r =>
      cases owner with
      | connect => exact K.dialed st r hP
      | rename c =>
          refine K.renameDialed st c r hP ?_
          intro err herr hgives
          subst herr
          exact hup hgives
  | connectDone r => exact K.connectDone st r hP
  | detached c => exact K.detached st c hP
  | closed c => exact (handleClosed_paper st c).still.meets (K.news _ _ _ rfl hP)

theorem handleConnected_meets (K : Keeps env P Go Up De Throws Greets Close) (sock : ClientSocketId)
    {s : ClientSocket} (hs : st.conn.sockets.get? sock = some s) (hsettled : s.settled = false)
    (hP : st.meets P) : (handleConnected env now st sock).meets P := by
  unfold handleConnected
  dsimp only
  split
  · exact K.opened st.conn st.links sock s hs hsettled hP
  · exact (Still.of_same rfl rfl : Still st st.useId).meets hP

theorem handleTurn_meets (K : Keeps env P Go Up De Throws Greets Close) (e : ClientEvent ν)
    (hjobs : st.jobs = []) (hgo : reachesConnect env st e = true → st.meets Go) (hP : st.meets P) :
    (handleTurn env now st e).meets P := by
  have hlinks : st.links = [] := by rw [ClientState.links, hjobs]; rfl
  cases e with
  | ensured owner ok =>
      unfold handleTurn
      dsimp only
      split
      · next hmem => exact K.ensured st owner ok hmem hP
      · exact hP
  | connected sock =>
      unfold handleTurn
      dsimp only
      split
      · next hany =>
        rw [Option.any_eq_true] at hany
        obtain ⟨s, hs, hopen⟩ := hany
        simp only [Bool.and_eq_true, Bool.not_eq_true'] at hopen
        exact handleConnected_meets K sock hs hopen.2 hP
      · exact hP
  | oversized sock => exact K.refused st sock _ hP
  | helloTimeout sock => exact K.helloTimeout st sock hP
  | failed sock => exact K.socketError st sock hP
  | closed sock => exact K.socketClose st sock hlinks hP
  | backoff t =>
      by_cases ht : t ∈ st.conn.armed
      · exact K.backoff st t hlinks ht (hgo (by simp [PiMesh.reachesConnect, hjobs, ht])) hP
      · show (handleBackoff env st t).meets P
        rw [handleBackoff, if_neg ht]
        exact hP
  | retry => exact K.retry st hP
  | renameRetry c => exact K.renameRetry st c hP
  | endTimeout c => exact K.endWait st c hP
  | watchdog =>
      show (handleWatchdog env st).meets P
      unfold handleWatchdog
      split
      · next hkicks => exact K.connect st _ (hgo (by simp [PiMesh.reachesConnect, hjobs, hkicks])) hP
      · exact hP
  | heartbeat => exact (handleHeartbeat_still env now st).meets hP
  | ackTimeout id => exact (handleAckTimeout_paper st id).still.meets hP
  | statusTimeout id => exact (handleStatusTimeout_paper st id).still.meets hP
  | expire id => exact (setPending_booked st _).paper.still.meets hP
  | remind id => exact (handleRemind_still env now st id).meets hP
  | tick c => exact (handleTick_paper env now st c).still.meets hP
  | call c op => exact hP
  | abort c => exact hP
  | microtask => exact hP
  | line sock frame => exact hP

theorem handleClientLine_meets (K : Keeps env P Go Up De Throws Greets Close) (sock : ClientSocketId)
    (frame : Inbound ν) (hgreets : ∀ s, frame.type = .welcome →
      st.conn.sockets.get? sock = some s → s.settled = false → Greets s)
    (hP : st.meets P) : (handleClientLine env now st sock frame).meets P := by
  have hread : ({ st with reading := some sock } : ClientState ν).meets P := hP
  unfold handleClientLine
  split
  · next s hs =>
    split
    · exact hP
    · next hreads =>
      have hclosed : s.closed = false := by
        cases hc : s.closed with
        | false => rfl
        | true => simp [hc] at hreads
      dsimp only
      split
      · exact (onFrame_paper env now _ frame).still.meets hread
      · next hsettled =>
        split
        · next htype =>
          have hsettled : s.settled = false := by simpa using hsettled
          exact K.welcome _ sock s frame hs hsettled hclosed (hgreets s htype hs hsettled) hread
        · split
          · exact K.refused _ sock _ hread
          · exact hread
  · exact hP

/-- One step. -/
theorem clientStep_meets (K : Keeps env P Go Up De Throws Greets Close) (e : ClientEvent ν)
    (hgo : reachesConnect env st e = true → Go st.conn (st.turn e).links)
    (hup : givesUp st e = true → Up st.conn (st.turn e).links)
    (hde : detaches env st e = true → De st.conn (st.turn e).links)
    (hthrows : throws env st e = true → Throws)
    (hgreets : ∀ sock frame s, e = .line sock frame → frame.type = .welcome →
      st.conn.sockets.get? sock = some s → s.settled = false → Greets s)
    (hclose : ∀ c, e = .call c .close → Close)
    (hP : st.meets P) : (clientStep env now st e).meets P := by
  cases e with
  | call c op =>
      unfold clientStep
      dsimp only
      split
      · next hnew =>
        have hrename : st.conn.renames.get? c = none := by
          simp only [isNewCall, Map.has, Bool.and_eq_true, Bool.not_eq_true',
            Option.isSome_eq_false_iff, Option.isNone_iff_eq_none] at hnew
          exact hnew.2
        refine handleCall_meets K c op hrename ?_ ?_ ?_ hP
        · intro hreach
          exact hgo (by simp [reachesConnect, hnew, hreach])
        · intro newAlias hop hon hchecks
          subst hop
          exact hde (by simp [detaches, hnew, hon, hchecks])
        · intro hop
          exact hclose c (by rw [hop])
      · exact hP
  | abort c => exact (handleAbort_paper env now st c).still.meets hP
  | microtask =>
      show (handleMicrotask env now st).meets P
      unfold handleMicrotask
      split
      · exact hP
      · next job rest hjobs =>
        have hturn : (st.turn .microtask).links = rest.filter Job.isLink := by
          simp [ClientState.turn, ClientState.links, hjobs]
        have hhead : st.jobs.head? = some job := by rw [hjobs]; rfl
        refine handleJob_meets K job ?_ ?_ ?_ ?_ ?_
        · intro hreach
          have := hgo (by simpa [reachesConnect, hhead] using hreach)
          rwa [hturn] at this
        · intro hgives
          have := hup (by simpa [givesUp, hhead] using hgives)
          rwa [hturn] at this
        · intro hdet
          have := hde (by simpa [detaches, hhead] using hdet)
          rwa [hturn] at this
        · intro owner info hjob hthrew
          refine hthrows ?_
          unfold throws
          rw [hhead, hjob]
          dsimp only
          have hsame : (flushOutbox env { st with jobs := rest, reading := none }).2 =
              (flushOutbox env st).2 := flushFrames_congr env _ rfl rfl rfl
          rw [flushThrows, ← hsame]
          exact hthrew
        · have hlinks : st.links = [job].filter Job.isLink ++ rest.filter Job.isLink := by
            rw [ClientState.links, hjobs, ← List.filter_append]
            rfl
          show P st.conn ([job].filter Job.isLink ++ rest.filter Job.isLink)
          rw [← hlinks]
          exact hP
  | line sock frame =>
      exact handleClientLine_meets K sock frame (fun s => hgreets sock frame s rfl) hP
  | ensured | connected | oversized | helloTimeout | failed | closed | backoff | retry
  | renameRetry | endTimeout | watchdog | heartbeat | ackTimeout | statusTimeout | expire
  | remind | tick =>
      unfold clientStep
      dsimp only
      split
      · next hidle =>
        have hjobs : st.jobs = [] := by simpa using hidle
        exact handleTurn_meets K _ hjobs hgo hP
      · exact hP

end Step

end PiMesh
