/-
What a step does to requests and missions.

The desk of a client is everything but its connection: the calls that have not returned
and what they wait for, the missions, what waits to be written and what was.  A step does
at most one thing to it, and `DeskAct` lists these things: a call is refused, or waits for a
connection, or writes its frame; an acknowledgement or an answer is handled; a timer fires;
the connection is lost or comes back.  `clientStep_act` says that there is nothing else.

`DeskAct` leads to a state that agrees with the state after the step on the desk.  How the
connection got there is not its concern, so a proof about requests takes one case for each
act and never looks at a handshake.
-/
import PiMesh.Proofs.Turns

namespace PiMesh

open Js Transition

variable {ν : Type} [Number ν]

/-! ### The desk -/

/-- What requests and missions are about, with the jobs that are theirs. -/
structure Desk (ν : Type) where
  book : Book ν
  ownReservations : List FileReservation
  ackWaiters : Map String CallId
  statusWaiters : Map String CallId
  outbox : List ClientFrame
  calls : Map CallId Stage
  results : Map CallId (CallResult ν)
  aborted : Js.Set CallId
  jobs : List (Job ν)
  ids : Nat
  sent : List (ClientSocketId × ClientFrame)
  emitted : List (Emit ν)

def ClientState.desk (st : ClientState ν) : Desk ν where
  book := st.book
  ownReservations := st.ownReservations
  ackWaiters := st.ackWaiters
  statusWaiters := st.statusWaiters
  outbox := st.outbox
  calls := st.calls
  results := st.results
  aborted := st.aborted
  jobs := st.jobs.filter fun j => !j.isLink
  ids := st.ids
  sent := st.sent
  emitted := st.emitted

/-- The first job is taken from the queue. -/
def ClientState.pop (st : ClientState ν) : ClientState ν :=
  { st with jobs := st.jobs.tail, reading := none }

/-- No chunk is being read. -/
def ClientState.idle (st : ClientState ν) : ClientState ν := { st with reading := none }

/-- What the desk reads of a state beside its jobs. -/
def ClientState.papers (st : ClientState ν) :=
  (st.book, st.ownReservations, st.ackWaiters, st.statusWaiters, st.outbox, st.calls, st.results,
    st.aborted, st.ids, st.sent, st.emitted)

theorem desk_eq {st st' : ClientState ν} (hpapers : st'.papers = st.papers)
    (hjobs : (st'.jobs.filter fun j => !j.isLink) = st.jobs.filter fun j => !j.isLink) :
    st'.desk = st.desk := by
  simp only [ClientState.papers, Prod.mk.injEq] at hpapers
  obtain ⟨h₁, h₂, h₃, h₄, h₅, h₆, h₇, h₈, h₉, h₁₀, h₁₁⟩ := hpapers
  simp only [ClientState.desk, Desk.mk.injEq]
  exact ⟨h₁, h₂, h₃, h₄, h₅, h₆, h₇, h₈, hjobs, h₉, h₁₀, h₁₁⟩

theorem desk_setConn (st : ClientState ν) (k : Conn) : (st.setConn k).desk = st.desk := rfl

/-- A job about the connection is not on the desk. -/
theorem desk_pop {st : ClientState ν} {j : Job ν} {rest : List (Job ν)} (hjobs : st.jobs = j :: rest)
    (hj : j.isLink = true) : st.pop.desk = st.desk := by
  refine desk_eq rfl ?_
  simp [ClientState.pop, hjobs, hj]

theorem Link.desk {st st' : ClientState ν} (h : Link st st') : st'.desk = st.desk := by
  obtain ⟨hrest, js, hjs, hlink⟩ := h
  refine desk_eq ?_ ?_
  · rw [hrest]
    rfl
  · have hnone : (js.filter fun j => !j.isLink) = [] := by
      rw [List.filter_eq_nil_iff]
      intro j hj
      simp [hlink j hj]
    rw [hjs, List.filter_append, hnone, List.append_nil]

/-! ### Acts -/

/-- Stages in which a call waits for the connection, or for a socket to close. -/
def Stage.isWait : Stage → Bool
  | .connect => true
  | .sendConnect _ => true
  | .replyConnect _ => true
  | .reserveConnect _ _ => true
  | .releaseConnect _ _ => true
  | .tripConnect _ _ => true
  | .rename => true
  | .closing _ => true
  | _ => false

/-- What a call returns at once, without a connection. -/
def Op.refuses (env : ClientEnv) (st : ClientState ν) : Op → Option (CallResult ν)
  | .send opts =>
      match planSend env st opts with
      | .error result => some (.send result)
      | .ok _ => none
  | .reply msgId body opts =>
      match planReply st msgId body opts with
      | .error result => some (.send result)
      | .ok _ => none
  | .reserve patterns _ =>
      match validPatterns patterns with
      | .error raw => some (.send (.error none
          (String.ofList ("invalid_pattern: ".toList ++ sliceFront 80 raw.toList))))
      | .ok [] => some (.send (.error none "invalid_pattern"))
      | .ok _ => none
  | .release patterns =>
      if (releasedPatterns st.ownReservations patterns).isEmpty then
        some (.released [] (.delivered "" none none none none))
      else none
  | .status _ => if st.conn.online then none else some (.snapshot [] [] none)
  | .rename newAlias =>
      let target := normalizeAlias env.rt newAlias
      if !isValidAlias target then some (.notRenamed none)
      else if target = st.conn.name then some (.renamed target true)
      else none
  | .forgetRoom _ => some .void
  | _ => none

/-- What a call may return when it has waited for the connection. -/
def Stage.mayReturn : Stage → CallResult ν → Prop
  | .connect, r => (∃ info, r = .welcome info) ∨ ∃ err, r = .rejected (.connect err)
  | .sendConnect _, r => r = .send (.blocked none "broker_unavailable")
  | .replyConnect plan, r => r = .send (.blocked (some plan.msgId) "broker_unavailable")
  | .reserveConnect _ _, r => r = .send (.blocked none "broker_unavailable")
  | .releaseConnect _ _, r => r = .released [] (.blocked none "broker_unavailable")
  | .rename, r => (∃ name, r = .renamed name false) ∨ ∃ err, r = .notRenamed err
  | .closing _, r => r = .void
  | _, _ => False

/-- A call starts, or it goes on after a job about the connection. -/
inductive Enters (st : ClientState ν) (c : CallId) : ClientEvent ν → ClientState ν → Prop
  | calls {op : Op} (hnew : isNewCall st c = true) : Enters st c (.call c op) st
  | resumes {j : Job ν} {rest : List (Job ν)} {s : Stage} (hjobs : st.jobs = j :: rest)
      (hj : j.isLink = true) (hstage : st.calls.get? c = some s) (hs : s.isWait = true) :
      Enters st c .microtask st.pop

/-- The plan of a send is made when it is called; it waits for the connection with it. -/
def Planned (env : ClientEnv) (st : ClientState ν) (c : CallId) (plan : SendPlan)
    (e : ClientEvent ν) : Prop :=
  (∃ opts, e = .call c (.send opts) ∧ planSend env st opts = .ok plan ∧ st.conn.online = true) ∨
    e = .microtask ∧ st.calls.get? c = some (.sendConnect plan) ∧
      ∃ info rest, st.jobs = .connected (.call c) info :: rest

/-- The frame asks for what the round trip is for. -/
def TripUse.fits : TripUse → ClientFrame → Prop
  | .reserve merged, frame => frame.type = .reserve ∧ frame.reservations = some merged
  | .release merged _, frame => frame.type = .reserve ∧ frame.reservations = some merged
  | .join _ _, frame => frame.type = .join
  | .leave _, frame => frame.type = .leave

/-- The frame of a round trip: a new one, or the one the call has waited with. -/
def TripReady (env : ClientEnv) (st : ClientState ν) (c : CallId) (use : TripUse)
    (frame : ClientFrame) (st' : ClientState ν) : Prop :=
  st' = st.useId ∧ frame.id = env.rt.makeMsgId st.ids ∧ use.fits frame ∨
    st' = st ∧ st.calls.get? c = some (.tripConnect use frame)

/-- The frame of a notice is nobody's message. -/
def ClientFrame.isNotice (f : ClientFrame) : Bool :=
  decide (f.type = .activity) || decide (f.type = .read)

/-- What a step does to the desk. -/
inductive DeskAct (env : ClientEnv) (now : Int) (st : ClientState ν) :
    ClientEvent ν → ClientState ν → Prop
  | rest {e : ClientEvent ν} : DeskAct env now st e st
  /-- The hello, with the id it used. -/
  | hello {sock : ClientSocketId} {s : ClientSocket} (hs : st.conn.sockets.get? sock = some s)
      (hdial : s.settled = false) (hended : s.ended = false) :
      DeskAct env now st (.connected sock)
        { st.useId with sent := st.sent ++ [(sock, helloFrame env now st)] }
  | mute {sock : ClientSocketId} : DeskAct env now st (.connected sock) st.useId
  | beat : DeskAct env now st .heartbeat (handleHeartbeat env now st.idle)
  /-- A call returns at once. -/
  | refuse {c : CallId} {op : Op} {r : CallResult ν} (hnew : isNewCall st c = true)
      (hr : op.refuses env st = some r) : DeskAct env now st (.call c op) (st.finish c r)
  /-- A call has waited for the connection and returns. -/
  | giveUp {c : CallId} {j : Job ν} {rest : List (Job ν)} {s : Stage} {r : CallResult ν}
      (hjobs : st.jobs = j :: rest) (hj : j.isLink = true) (hstage : st.calls.get? c = some s)
      (hr : s.mayReturn r) : DeskAct env now st .microtask (st.pop.finish c r)
  /-- A call waits for the connection. -/
  | wait {c : CallId} {op : Op} {s : Stage} (hnew : isNewCall st c = true) (hs : s.isWait = true)
      (hnot : ∀ use frame, s ≠ .tripConnect use frame) :
      DeskAct env now st (.call c op) (st.setStage c s)
  | waitTrip {e : ClientEvent ν} {c : CallId} {st₁ : ClientState ν} {use : TripUse}
      {frame : ClientFrame} (h : Enters st c e st₁) (hid : frame.id = env.rt.makeMsgId st₁.ids)
      (hfits : use.fits frame) :
      DeskAct env now st e (st₁.useId.setStage c (.tripConnect use frame))
  | send {e : ClientEvent ν} {c : CallId} {st₁ : ClientState ν} {plan : SendPlan}
      (h : Enters st c e st₁) (hplan : Planned env st c plan e) :
      DeskAct env now st e (issueSend env now st₁ c plan)
  | reply {e : ClientEvent ν} {c : CallId} {st₁ : ClientState ν} {plan : ReplyPlan}
      (h : Enters st c e st₁) : DeskAct env now st e (issueReply env now st₁ c plan)
  | trip {e : ClientEvent ν} {c : CallId} {st₁ st₂ : ClientState ν} {use : TripUse}
      {frame : ClientFrame} (h : Enters st c e st₁) (hid : TripReady env st₁ c use frame st₂) :
      DeskAct env now st e (sendTrip env st₂ c use frame)
  /-- A round trip that could not connect, or that a closed client refuses. -/
  | tripFailed {e : ClientEvent ν} {c : CallId} {st₁ st₂ : ClientState ν} {use : TripUse}
      {frame : ClientFrame} {code : MeshErrorCode} (h : Enters st c e st₁)
      (hid : TripReady env st₁ c use frame st₂) :
      DeskAct env now st e ((st₂.setStage c (.tripAck use frame.id)).push [.acked c (.failed code)])
  | status {c : CallId} {room : Option String} (hnew : isNewCall st c = true)
      (hon : st.conn.online = true) :
      DeskAct env now st (.call c (.status room)) (startStatus env now st c room)
  /-- A rename gives all missions up. -/
  | detach {e : ClientEvent ν} {c : CallId} {st₁ : ClientState ν} (h : Enters st c e st₁)
      (hde : detaches env st e = true) :
      DeskAct env now st e ((st₁.setStage c .rename).setPending (st₁.book.pending.cancelAll .renamed))
  | closing {c : CallId} {sock : ClientSocketId} (hnew : isNewCall st c = true) :
      DeskAct env now st (.call c .close)
        ((st.setPending (st.book.pending.cancelAll .shuttingDown)).setStage c (.closing sock))
  | close {c : CallId} (hnew : isNewCall st c = true) :
      DeskAct env now st (.call c .close)
        ((st.setPending (st.book.pending.cancelAll .shuttingDown)).finish c .void)
  | waitAll {c : CallId} {timeoutMs : Int} {signal : Bool} (hnew : isNewCall st c = true) :
      DeskAct env now st (.call c (.waitAll timeoutMs signal)) (startWaitAll env now st c timeoutMs signal)
  | cancelAll {c : CallId} (hnew : isNewCall st c = true) :
      DeskAct env now st (.call c .cancelAllAwaited) ((cancelAllAwaited st).finish c .void)
  | notice {c : CallId} {op : Op} {frame : ClientFrame} (hnew : isNewCall st c = true)
      (hframe : frame.isNotice = true) :
      DeskAct env now st (.call c op) ((sendNotice env st frame).finish c .void)
  | abort {c : CallId} : DeskAct env now st (.abort c) (handleAbort env now st c)
  | acked {c : CallId} {ack : Ack} {rest : List (Job ν)} (hjobs : st.jobs = .acked c ack :: rest) :
      DeskAct env now st .microtask (handleAcked st.pop c ack)
  | resolved {w : Watcher} {id : String} {r : Resolution ν} {rest : List (Job ν)}
      (hjobs : st.jobs = .resolved w id r :: rest) :
      DeskAct env now st .microtask (handleResolved st.pop w id r)
  /-- The connection is lost: its socket closes, or the connect of a backoff timer fails. -/
  | lost {e : ClientEvent ν} (hloses : losesRequests st e = true) : DeskAct env now st e (loseRequests st)
  /-- The connection is back. -/
  | flush {owner : Owner} {info : WelcomeInfo ν} {rest : List (Job ν)}
      (hjobs : st.jobs = .welcomed owner info :: rest) :
      DeskAct env now st .microtask (flushOutbox env st).1
  | line {sock : ClientSocketId} {frame : Inbound ν}
      (hread : st.jobs = [] ∨ st.reading = some sock) :
      DeskAct env now st (.line sock frame) (onFrame env now { st with reading := some sock } frame)
  | ackTimeout {id : String} (hjobs : st.jobs = []) :
      DeskAct env now st (.ackTimeout id) (handleAckTimeout st.idle id)
  | statusTimeout {id : String} (hjobs : st.jobs = []) :
      DeskAct env now st (.statusTimeout id) (handleStatusTimeout st.idle id)
  | expire {id : String} (hjobs : st.jobs = []) :
      DeskAct env now st (.expire id) (st.idle.setPending (st.book.pending.expire id))
  | remind {id : String} (hjobs : st.jobs = []) :
      DeskAct env now st (.remind id) (handleRemind env now st.idle id)
  | tick {c : CallId} (hjobs : st.jobs = []) :
      DeskAct env now st (.tick c) (handleTick env now st.idle c)

/-! ### Where the connection meets the desk -/

theorem settle_setConn (st : ClientState ν) (k : Conn) (id : String) (r : Resolution ν) :
    (st.setConn k).settle id r = (st.settle id r).setConn k := by
  cases hw : st.book.watchers.get? id with
  | some w => simp [ClientState.settle, ClientState.setConn, ClientState.push, hw]
  | none => simp [ClientState.settle, ClientState.setConn, hw]

theorem setPending_setConn (st : ClientState ν) (k : Conn) (r : PendingReplies × Resolved ν) :
    (st.setConn k).setPending r = (st.setPending r).setConn k := by
  have hfold : ∀ (l : Resolved ν) (st : ClientState ν),
      l.foldl (fun st e => st.settle e.1 e.2) (st.setConn k) =
        (l.foldl (fun st e => st.settle e.1 e.2) st).setConn k := by
    intro l
    induction l with
    | nil =>
        intro st
        rfl
    | cons e rest ih =>
        intro st
        rw [List.foldl_cons, settle_setConn, ih, List.foldl_cons]
  exact hfold r.2 { st with book := { st.book with pending := r.1 } }

def Desk.finish (d : Desk ν) (c : CallId) (r : CallResult ν) : Desk ν :=
  { d with calls := d.calls.delete c
           results := if d.results.has c then d.results else d.results.set c r }

theorem desk_finish (st : ClientState ν) (c : CallId) (r : CallResult ν) :
    (st.finish c r).desk = st.desk.finish c r := rfl

/-- Losing the connection reads nothing but the desk. -/
theorem loseRequests_desk {st st' : ClientState ν} (h : st'.desk = st.desk) :
    (loseRequests st').desk = (loseRequests st).desk := by
  have hfold : ∀ (cs : List CallId) (st : ClientState ν),
      (cs.foldl (fun st c => st.finish c (.snapshot [] [] none)) st).desk =
        cs.foldl (fun d c => d.finish c (.snapshot [] [] none)) st.desk := by
    intro cs
    induction cs with
    | nil =>
        intro st
        rfl
    | cons c rest ih =>
        intro st
        rw [List.foldl_cons, ih, desk_finish, List.foldl_cons]
  have hjobs : ∀ (st : ClientState ν) (js : List (Job ν)),
      (st.push js).desk = { st.desk with jobs := st.desk.jobs ++ js.filter fun j => !j.isLink } := by
    intro st js
    simp [ClientState.desk, ClientState.push, List.filter_append]
  have hack : st'.ackWaiters = st.ackWaiters := congrArg Desk.ackWaiters h
  have hstatus : st'.statusWaiters = st.statusWaiters := congrArg Desk.statusWaiters h
  have hempty : ∀ st : ClientState ν,
      ({ st with ackWaiters := .empty, statusWaiters := .empty } : ClientState ν).desk =
        { st.desk with ackWaiters := .empty, statusWaiters := .empty } := fun _ => rfl
  have hpush : ∀ (st : ClientState ν) (js : List (Job ν)),
      (st.push js).statusWaiters = st.statusWaiters := fun _ _ => rfl
  unfold loseRequests
  dsimp only
  rw [hempty, hempty, hfold, hfold, hjobs, hjobs, hpush, hpush, h, hack, hstatus]

/-- Flushing reads what waits and the socket. -/
theorem flushFrames_desk (env : ClientEnv) (n : Nat) {st st' : ClientState ν}
    (hpapers : st'.papers = st.papers)
    (hjobs : (st'.jobs.filter fun j => !j.isLink) = st.jobs.filter fun j => !j.isLink)
    (hsocket : st'.conn.socket = st.conn.socket) (hsockets : st'.conn.sockets = st.conn.sockets) :
    (flushFrames env n st').1.desk = (flushFrames env n st).1.desk := by
  induction n generalizing st st' with
  | zero => exact desk_eq hpapers hjobs
  | succ n ih =>
      have hdesk := desk_eq hpapers hjobs
      have houtbox : st'.outbox = st.outbox := congrArg Desk.outbox hdesk
      have hsent : st'.sent = st.sent := congrArg Desk.sent hdesk
      have halive : st'.conn.socket.filter st'.conn.isAlive =
          st.conn.socket.filter st.conn.isAlive := by
        have hfun : st'.conn.isAlive = st.conn.isAlive := by
          funext sock
          simp only [Conn.isAlive, hsockets]
        rw [hsocket, hfun]
      simp only [ClientState.papers, Prod.mk.injEq] at hpapers
      simp only [flushFrames, houtbox]
      split
      · exact hdesk
      · simp only [halive]
        split
        · split
          · refine ih ?_ hjobs hsocket hsockets
            simp only [ClientState.papers, Prod.mk.injEq]
            simp [hpapers]
          · refine desk_eq ?_ hjobs
            simp only [ClientState.papers, Prod.mk.injEq]
            simp [hpapers]
        · refine ih ?_ hjobs hsocket hsockets
          simp only [ClientState.papers, Prod.mk.injEq]
          simp [hpapers]

/-! ### There is nothing else -/

section Step

variable {env : ClientEnv} {now : Int} {st st₁ : ClientState ν} {e : ClientEvent ν} {c : CallId}

/-- An act leads to a state with the desk of this one. -/
def DeskActs (env : ClientEnv) (now : Int) (st : ClientState ν) (e : ClientEvent ν)
    (st' : ClientState ν) : Prop :=
  ∃ st₁, DeskAct env now st e st₁ ∧ st'.desk = st₁.desk

theorem DeskAct.acts {st' : ClientState ν} (h : DeskAct env now st e st') : DeskActs env now st e st' :=
  ⟨st', h, rfl⟩

theorem DeskActs.of_link {st' st'' : ClientState ν} (h : DeskActs env now st e st') (hlink : Link st' st'') :
    DeskActs env now st e st'' := by
  obtain ⟨st₁, hact, hdesk⟩ := h
  exact ⟨st₁, hact, hlink.desk.trans hdesk⟩

theorem DeskActs.of_desk {st' : ClientState ν} (h : st'.desk = st.desk) : DeskActs env now st e st' :=
  ⟨st, .rest, h⟩

/-- A round trip with a frame of its own. -/
theorem roundTrip_acts (h : Enters st c e st₁) (use : TripUse) (frame : ClientFrame)
    (hid : frame.id = env.rt.makeMsgId st₁.ids) (hfits : use.fits frame) :
    DeskActs env now st e (roundTrip env st₁.useId c use frame) := by
  unfold roundTrip
  split
  · exact (DeskAct.trip h (.inl ⟨rfl, hid, hfits⟩)).acts
  · split
    · exact (DeskAct.tripFailed h (.inl ⟨rfl, hid, hfits⟩)).acts
    · exact (DeskAct.waitTrip h hid hfits).acts.of_link (connect_link env _ _)

theorem renameDetach_acts (h : Enters st c e st₁) (hde : detaches env st e = true)
    (target : String) {st₂ : ClientState ν} (hst : st₂ = st₁.setStage c .rename) :
    DeskActs env now st e (renameDetach env st₂ c target) := by
  subst hst
  refine ⟨_, .detach h hde, ?_⟩
  unfold renameDetach
  extract_lets old oldSocket k k₁ st₃ k₂ st₄
  clear_value oldSocket
  have hdesk : st₄.desk =
      ((st₁.setStage c .rename).setPending (st₁.book.pending.cancelAll .renamed)).desk := by
    show st₃.desk = _
    have hst₃ : st₃ = ((st₁.setStage c .rename).setPending
        (st₁.book.pending.cancelAll .renamed)).setConn k₁ := setPending_setConn _ k₁ _
    rw [hst₃]
    rfl
  split
  · exact hdesk
  · exact (renameDial_link env st₄ c target old).desk.trans hdesk

theorem startRename_acts (newAlias : String) (hnew : isNewCall st c = true) :
    DeskActs env now st (.call c (.rename newAlias)) (startRename env st c newAlias) := by
  have hfinish : ∀ r : CallResult ν, (finishRename (st.setStage c .rename) c r).desk =
      (st.finish c r).desk := by
    intro r
    have hstage : (st.setStage c .rename).calls.get? c = some .rename := Map.get?_set_self _ _ _
    have heq : finishRename (st.setStage c .rename) c r = ((st.setStage c .rename).setConn
        { st.conn with renames := st.conn.renames.delete c }).finish c r := by
      have hstage' : ((st.setStage c .rename).setConn { (st.setStage c .rename).conn with
          renames := (st.setStage c .rename).conn.renames.delete c }).calls.get? c = some .rename := hstage
      unfold finishRename
      dsimp only
      rw [hstage']
      rfl
    rw [heq]
    refine desk_eq ?_ rfl
    unfold ClientState.papers ClientState.finish
    dsimp only [ClientState.setConn, ClientState.setStage]
    rw [Map.delete_set_self]
    rfl
  unfold startRename
  dsimp only
  split
  · next hvalid =>
    exact ⟨_, .refuse hnew (by simp only [Op.refuses]; rw [if_pos hvalid]), hfinish _⟩
  · next hvalid =>
    split
    · next hname =>
      have hname : normalizeAlias env.rt newAlias = st.conn.name := hname
      refine ⟨_, .refuse (r := .renamed (normalizeAlias env.rt newAlias) true) hnew ?_, hfinish _⟩
      simp only [Op.refuses]
      rw [if_neg hvalid, if_pos hname]
    · next hname =>
      have hname : normalizeAlias env.rt newAlias ≠ st.conn.name := hname
      split
      · have hwait : DeskActs env now st (.call c (.rename newAlias)) (st.setStage c .rename) :=
          (DeskAct.wait hnew rfl (by simp)).acts
        exact hwait.of_link ((setRename_link _ c _).trans (connect_link env _ _))
      · next hon =>
        have hon : st.conn.online = true := by simpa [ClientState.setStage] using hon
        have hvalid : isValidAlias (normalizeAlias env.rt newAlias) = true := by simpa using hvalid
        exact renameDetach_acts (.calls hnew)
          (by simp [detaches, hnew, hon, renameChecks, hvalid, hname]) _ rfl

theorem startClose_acts (hnew : isNewCall st c = true) :
    DeskActs env now st (.call c .close) (startClose st c) := by
  unfold startClose
  extract_lets k k₁ st₂ alive k₂ st₃
  clear_value alive
  have hst₂ : st₂ = (st.setPending (st.book.pending.cancelAll .shuttingDown)).setConn k₁ :=
    setPending_setConn _ k₁ _
  have hdesk : st₃.desk = (st.setPending (st.book.pending.cancelAll .shuttingDown)).desk := by
    show st₂.desk = _
    rw [hst₂]
    rfl
  have hstage : ∀ (st st' : ClientState ν) s, st'.desk = st.desk →
      (st'.setStage c s).desk = (st.setStage c s).desk := by
    intro st st' s h
    have hset : ∀ st : ClientState ν,
        (st.setStage c s).desk = { st.desk with calls := st.desk.calls.set c s } := fun _ => rfl
    rw [hset, hset, h]
  split
  · next sock _ =>
    exact ⟨_, .closing hnew, hstage (st.setPending (st.book.pending.cancelAll .shuttingDown)) _ _ hdesk⟩
  · exact ⟨_, .close hnew, by rw [desk_finish, hdesk, desk_finish]⟩

theorem handleCall_acts (op : Op) (hnew : isNewCall st c = true) :
    DeskActs env now st (.call c op) (handleCall env now st c op) := by
  have hwait : ∀ s : Stage, s.isWait = true → (∀ use frame, s ≠ .tripConnect use frame) →
      DeskActs env now st (.call c op) (connect env (st.setStage c s) (.call c)) := by
    intro s hs hnot
    exact (DeskAct.wait hnew hs hnot).acts.of_link (connect_link env _ _)
  cases op with
  | connect => exact hwait .connect rfl (by simp)
  | send opts =>
      unfold handleCall startSend
      dsimp only
      split
      · next r hr => exact (DeskAct.refuse hnew (by simp only [Op.refuses, hr])).acts
      · next plan hplan =>
        split
        · next hon => exact (DeskAct.send (.calls hnew) (.inl ⟨opts, rfl, hplan, hon⟩)).acts
        · exact hwait (.sendConnect plan) rfl (by simp)
  | reply msgId body opts =>
      unfold handleCall startReply
      dsimp only
      split
      · next r hr => exact (DeskAct.refuse hnew (by simp only [Op.refuses, hr])).acts
      · next plan hplan =>
        split
        · exact (DeskAct.reply (.calls hnew)).acts
        · exact hwait (.replyConnect plan) rfl (by simp)
  | reserve patterns reason =>
      unfold handleCall startReserve
      dsimp only
      split
      · next raw hr => exact (DeskAct.refuse hnew (by simp only [Op.refuses, hr])).acts
      · next hr => exact (DeskAct.refuse hnew (by simp only [Op.refuses, hr])).acts
      · next p ps hr =>
        split
        · exact roundTrip_acts (.calls hnew) _ _ rfl ⟨rfl, rfl⟩
        · exact hwait (.reserveConnect (p :: ps) reason) rfl (by simp)
  | release patterns =>
      unfold handleCall startRelease
      dsimp only
      split
      · next hempty => exact (DeskAct.refuse hnew (by simp only [Op.refuses]; rw [if_pos hempty])).acts
      · split
        · exact roundTrip_acts (.calls hnew) _ _ rfl ⟨rfl, rfl⟩
        · exact hwait _ rfl (by simp)
  | join room role => exact roundTrip_acts (.calls hnew) _ _ rfl rfl
  | leave room => exact roundTrip_acts (.calls hnew) _ _ rfl rfl
  | status room =>
      by_cases hon : st.conn.online = true
      · exact (DeskAct.status hnew hon).acts
      · unfold handleCall startStatus
        dsimp only
        rw [if_pos (by simp [hon])]
        exact (DeskAct.refuse hnew (by simp only [Op.refuses]; rw [if_neg hon])).acts
  | rename newAlias => exact startRename_acts newAlias hnew
  | close => exact startClose_acts hnew
  | waitAll timeoutMs signal => exact (DeskAct.waitAll hnew).acts
  | cancelAllAwaited => exact (DeskAct.cancelAll hnew).acts
  | forgetRoom room => exact ⟨_, .refuse hnew rfl, rfl⟩
  | sendActivity state => exact (DeskAct.notice hnew rfl).acts
  | sendRead msgId recipient => exact (DeskAct.notice hnew rfl).acts

theorem finishRename_acts {j : Job ν} {rest : List (Job ν)} (hjobs : st.jobs = j :: rest)
    (hlink : j.isLink = true) (hs : st.calls.get? c = some .rename) {r : CallResult ν}
    (hr : Stage.mayReturn .rename r) : DeskActs env now st .microtask (finishRename st.pop c r) := by
  have hs' : st.pop.calls.get? c = some .rename := hs
  refine ⟨_, .giveUp hjobs hlink hs hr, ?_⟩
  simp only [finishRename, ClientState.setConn, hs']
  rfl

/-- A call goes on once it is connected. -/
theorem handleCallConnected_acts {j : Job ν} {rest : List (Job ν)} (hjobs : st.jobs = j :: rest)
    (info : WelcomeInfo ν) (hj : j = .connected (.call c) info) :
    DeskActs env now st .microtask (handleCallConnected env now st.pop c info) := by
  have hlink : j.isLink = true := by rw [hj]; rfl
  have hresumes : ∀ s, st.calls.get? c = some s → s.isWait = true →
      Enters st c .microtask st.pop := fun s hs hw => .resumes hjobs hlink hs hw
  have hrest : DeskActs env now st .microtask st.pop := .of_desk (desk_pop hjobs hlink)
  unfold handleCallConnected
  split
  · next hs => exact (DeskAct.giveUp hjobs hlink hs (.inl ⟨info, rfl⟩)).acts
  · next plan hs =>
    have hplan : Planned env st c plan .microtask := .inr ⟨rfl, hs, info, rest, by rw [hjobs, hj]⟩
    exact (DeskAct.send (hresumes _ hs rfl) hplan).acts
  · next plan hs => exact (DeskAct.reply (hresumes _ hs rfl)).acts
  · next patterns reason hs => exact roundTrip_acts (hresumes _ hs rfl) _ _ rfl ⟨rfl, rfl⟩
  · next merged releasing hs => exact roundTrip_acts (hresumes _ hs rfl) _ _ rfl ⟨rfl, rfl⟩
  · next use frame hs => exact (DeskAct.trip (hresumes _ hs rfl) (.inr ⟨rfl, hs⟩)).acts
  · next hs =>
    have hs : st.calls.get? c = some .rename := hs
    unfold handleRenameConnected
    split
    · next target _ hrename _ =>
      have hstage : st.pop = st.pop.setStage c .rename := by
        show st.pop = { st.pop with calls := st.calls.set c .rename }
        rw [Map.set_of_get? hs]
        rfl
      refine renameDetach_acts (hresumes _ hs rfl) ?_ target hstage
      have hrename : st.conn.renames.get? c = some (.connecting target) := hrename
      simp [detaches, hjobs, hj, Job.detaches, hs, hrename]
    · cases ‹Except.ok info = Except.error _›
    · exact finishRename_acts hjobs hlink hs (.inr ⟨_, rfl⟩)
    · exact hrest
  · exact hrest

/-- A call could not be connected. -/
theorem handleCallRefused_acts {j : Job ν} {rest : List (Job ν)} (hjobs : st.jobs = j :: rest)
    (err : ConnectError) (hj : j = .connectFailed (.call c) err) :
    DeskActs env now st .microtask (handleCallRefused env st.pop c err) := by
  have hlink : j.isLink = true := by rw [hj]; rfl
  have hrest : DeskActs env now st .microtask st.pop := .of_desk (desk_pop hjobs hlink)
  unfold handleCallRefused
  split
  · next hs => exact (DeskAct.giveUp hjobs hlink hs (.inr ⟨err, rfl⟩)).acts
  · next hs => exact (DeskAct.giveUp hjobs hlink hs rfl).acts
  · next hs => exact (DeskAct.giveUp hjobs hlink hs rfl).acts
  · next hs => exact (DeskAct.giveUp hjobs hlink hs rfl).acts
  · next hs => exact (DeskAct.giveUp hjobs hlink hs rfl).acts
  · next use frame hs =>
    exact (DeskAct.tripFailed (.resumes hjobs hlink hs rfl) (.inr ⟨rfl, hs⟩)).acts
  · next hs =>
    unfold handleRenameConnected
    split
    · cases ‹Except.error err = Except.ok _›
    · exact finishRename_acts hjobs hlink hs (.inr ⟨_, rfl⟩)
    · exact finishRename_acts hjobs hlink hs (.inr ⟨_, rfl⟩)
    · exact hrest
  · exact hrest

theorem handleRenameDialed_acts {j : Job ν} {rest : List (Job ν)} (hjobs : st.jobs = j :: rest)
    (hlink : j.isLink = true) (r : Except ConnectError (WelcomeInfo ν)) :
    DeskActs env now st .microtask (handleRenameDialed env st.pop c r) := by
  have hrest : DeskActs env now st .microtask st.pop := .of_desk (desk_pop hjobs hlink)
  unfold handleRenameDialed
  split
  · next target old attempt _ =>
    split
    · unfold finishRename
      dsimp only
      split
      · next hs =>
        exact ⟨_, .giveUp (r := .renamed target false) hjobs hlink hs (.inl ⟨_, rfl⟩), rfl⟩
      · exact hrest.of_link ((Link.setConn _ _).trans (.setConn _ _))
    · split
      · exact hrest.of_link (setRename_link _ c _)
      · exact hrest.of_link (((Link.setConn _ _).trans (setRename_link _ c _)).trans (connect_link env _ _))
  · exact hrest

/-- `onSocketClosed` gives the requests in flight up, or is ignored. -/
theorem onSocketClosed_acts {st' : ClientState ν} (hdesk : st'.desk = st.desk)
    (closed : Option ClientSocketId)
    (hloses : st'.conn.connecting = none → (∀ sock ∈ closed, st'.conn.socket = some sock) →
      losesRequests st e = true) : DeskActs env now st e (onSocketClosed env st' closed) := by
  unfold onSocketClosed
  split
  · exact .of_desk hdesk
  · next hnone =>
    have hnone : st'.conn.connecting = none := by simpa using hnone
    split
    · exact .of_desk hdesk
    · next hcurrent =>
      have hcurrent : ∀ sock ∈ closed, st'.conn.socket = some sock := by
        intro sock hsock
        simp only [Option.mem_def] at hsock
        simpa [hsock] using hcurrent
      have hlost : DeskActs env now st e (loseRequests (st'.setConn
          { st'.conn with online := false, socket := none, heartbeat := false })) :=
        ⟨_, .lost (hloses hnone hcurrent), loseRequests_desk ((desk_setConn _ _).trans hdesk)⟩
      dsimp only
      split
      · exact hlost
      · exact hlost.of_link (.setConn _ _)

theorem handleWelcomed_acts {owner : Owner} {info : WelcomeInfo ν} {rest : List (Job ν)}
    (hjobs : st.jobs = .welcomed owner info :: rest) :
    DeskActs env now st .microtask (handleWelcomed env st.pop owner info) := by
  have hdesk : (flushOutbox env (st.pop.setConn
      { st.conn with heartbeat := true, watchdog := true })).1.desk = (flushOutbox env st).1.desk := by
    refine flushFrames_desk env _ rfl ?_ rfl rfl
    simp [ClientState.pop, ClientState.setConn, hjobs]
  have hflush : DeskActs env now st .microtask (flushOutbox env (st.pop.setConn
      { st.conn with heartbeat := true, watchdog := true })).1 := ⟨_, .flush hjobs, hdesk⟩
  unfold handleWelcomed
  dsimp only
  split
  · next st' hres =>
    have hst : (flushOutbox env (st.pop.setConn
        { st.conn with heartbeat := true, watchdog := true })).1 = st' := congrArg Prod.fst hres
    rw [← hst]
    exact hflush.of_link (.push _ (by simp))
  · next st' hres =>
    have hst : (flushOutbox env (st.pop.setConn
        { st.conn with heartbeat := true, watchdog := true })).1 = st' := congrArg Prod.fst hres
    rw [← hst]
    exact hflush.of_link (.push _ (by simp))

theorem handleMicrotask_acts : DeskActs env now st .microtask (handleMicrotask env now st) := by
  unfold handleMicrotask
  split
  · exact .of_desk rfl
  · next j rest hjobs =>
    have hpop : ({ st with jobs := rest, reading := none } : ClientState ν) = st.pop := by
      unfold ClientState.pop
      rw [hjobs]
      rfl
    rw [hpop]
    cases j with
    | acked c ack => exact (DeskAct.acked hjobs).acts
    | resolved w id r => exact (DeskAct.resolved hjobs).acts
    | connected w info =>
        cases w with
        | call c => exact handleCallConnected_acts hjobs info rfl
        | backoff => exact .of_desk (desk_pop hjobs rfl)
        | watchdog => exact .of_desk (desk_pop hjobs rfl)
    | connectFailed w err =>
        cases w with
        | call c => exact handleCallRefused_acts hjobs err rfl
        | backoff =>
            refine onSocketClosed_acts (desk_pop hjobs rfl) none ?_
            intro hnone _
            have hnone : st.conn.connecting = none := hnone
            simp [losesRequests, hjobs, hnone, Job.isCatch]
        | watchdog => exact .of_desk (desk_pop hjobs rfl)
    | welcomed owner info => exact handleWelcomed_acts hjobs
    | dialed owner r =>
        cases owner with
        | connect =>
            exact (DeskActs.of_desk (desk_pop hjobs rfl)).of_link (handleDialed_link env st.pop r)
        | rename c => exact handleRenameDialed_acts hjobs rfl r
    | connectDone r =>
        exact (DeskActs.of_desk (desk_pop hjobs rfl)).of_link (handleConnectDone_link st.pop r)
    | detached c =>
        exact (DeskActs.of_desk (desk_pop hjobs rfl)).of_link (handleDetached_link env st.pop c)
    | closed c =>
        show DeskActs env now st .microtask (handleClosed st.pop c)
        unfold handleClosed
        split
        · next sock hs => exact (DeskAct.giveUp hjobs rfl hs rfl).acts
        · exact .of_desk (desk_pop hjobs rfl)

theorem handleClientLine_acts (sock : ClientSocketId) (frame : Inbound ν) :
    DeskActs env now st (.line sock frame) (handleClientLine env now st sock frame) := by
  have hrest : DeskActs env now st (.line sock frame) { st with reading := some sock } := .of_desk rfl
  unfold handleClientLine
  split
  · next s hs =>
    split
    · exact .of_desk rfl
    · next hreads =>
      have hread : st.jobs = [] ∨ st.reading = some sock := by
        by_cases hjobs : st.jobs = []
        · exact .inl hjobs
        · refine .inr ?_
          by_contra hother
          exact hreads (by simp [hjobs, hother])
      dsimp only
      split
      · exact (DeskAct.line hread).acts
      · split
        · exact .of_desk (desk_eq rfl (by simp [acceptWelcome, seedPeers, ClientState.push, ClientState.setConn]))
        · split
          · exact hrest.of_link (failHandshake_link _ sock _)
          · exact hrest
  · exact .of_desk rfl

theorem handleConnected_acts (sock : ClientSocketId) :
    DeskActs env now st (.connected sock) (handleTurn env now st.idle (.connected sock)) := by
  unfold handleTurn
  dsimp only
  split
  · next hany =>
    rw [Option.any_eq_true] at hany
    obtain ⟨s, hs, hopen⟩ := hany
    simp only [Bool.and_eq_true, Bool.not_eq_true'] at hopen
    have hs : st.conn.sockets.get? sock = some s := hs
    unfold handleConnected
    dsimp only
    split
    · next hwrites =>
      have hended : s.ended = false := by
        simp only [ClientState.idle, hs, Option.any_some, Bool.and_eq_true, Bool.not_eq_true'] at hwrites
        exact hwrites.1
      exact ⟨_, .hello hs hopen.2 hended, rfl⟩
    · exact ⟨_, .mute, rfl⟩
  · exact .of_desk rfl

theorem handleSocketClose_acts (sock : ClientSocketId) (hjobs : st.jobs = []) :
    DeskActs env now st (.closed sock) (handleSocketClose env st.idle sock) := by
  unfold handleSocketClose
  split
  · next s hs =>
    have hs : st.conn.sockets.get? sock = some s := hs
    split
    · exact .of_desk rfl
    · next hclosed =>
      extract_lets st₁ st₂ st₃
      have hdesk : st₂.desk = st.desk := (failHandshake_link st₁ sock _).desk
      have hparts : st₂.conn.connecting = st.conn.connecting ∧ st₂.conn.socket = st.conn.socket := by
        have hmodify : st₁.conn.connecting = st.conn.connecting ∧ st₁.conn.socket = st.conn.socket := by
          show (Conn.modifySocket st.conn ..).connecting = _ ∧ (Conn.modifySocket st.conn ..).socket = _
          unfold Conn.modifySocket
          rw [hs]
          exact ⟨rfl, rfl⟩
        obtain ⟨hconnecting, hsocket⟩ := failHandshake_parts st₁ sock .brokerUnavailable
        exact ⟨hconnecting.trans hmodify.1, hsocket.trans hmodify.2⟩
      have hst₃ : DeskActs env now st (.closed sock) st₃ := by
        show DeskActs env now st (.closed sock) (if s.welcomed then onSocketClosed env st₂ (some sock) else st₂)
        split
        · next hwelcomed =>
          refine onSocketClosed_acts hdesk (some sock) ?_
          intro hnone hcurrent
          rw [hparts.1] at hnone
          have hsocket : st.conn.socket = some sock := hparts.2.symm.trans (hcurrent sock rfl)
          simp [losesRequests, hjobs, hsocket, hs, hwelcomed, hclosed, hnone]
        · exact .of_desk hdesk
      exact hst₃.of_link (endWaits_link _ _)
  · exact .of_desk rfl

theorem handleTurn_acts (hjobs : st.jobs = []) (hevent : ∀ c op, e ≠ .call c op) :
    DeskActs env now st e (handleTurn env now st.idle e) := by
  have hidle : DeskActs env now st e st.idle := .of_desk rfl
  cases e with
  | ensured owner ok =>
      unfold handleTurn
      dsimp only
      split
      · exact hidle.of_link (handleEnsured_link st.idle owner ok)
      · exact .of_desk rfl
  | connected sock => exact handleConnected_acts sock
  | oversized sock => exact hidle.of_link (failHandshake_link st.idle sock _)
  | helloTimeout sock => exact hidle.of_link (handleHelloTimeout_link st.idle sock)
  | failed sock => exact hidle.of_link (handleSocketError_link st.idle sock)
  | closed sock => exact handleSocketClose_acts sock hjobs
  | backoff t => exact hidle.of_link (handleBackoff_link env st.idle t)
  | retry => exact hidle.of_link (handleRetry_link env st.idle)
  | renameRetry c => exact hidle.of_link (handleRenameRetry_link env st.idle c)
  | endTimeout c => exact hidle.of_link (endWait_link st.idle c)
  | watchdog => exact hidle.of_link (handleWatchdog_link env st.idle)
  | heartbeat => exact DeskAct.beat.acts
  | ackTimeout id => exact (DeskAct.ackTimeout hjobs).acts
  | statusTimeout id => exact (DeskAct.statusTimeout hjobs).acts
  | expire id => exact (DeskAct.expire hjobs).acts
  | remind id => exact (DeskAct.remind hjobs).acts
  | tick c => exact (DeskAct.tick hjobs).acts
  | call c op => exact absurd rfl (hevent c op)
  | abort c => exact .of_desk rfl
  | microtask => exact .of_desk rfl
  | line sock frame => exact .of_desk rfl

/-- A step does one of these things to the desk. -/
theorem clientStep_act (env : ClientEnv) (now : Int) (st : ClientState ν) (e : ClientEvent ν) :
    DeskActs env now st e (clientStep env now st e) := by
  cases e with
  | call c op =>
      unfold clientStep
      dsimp only
      split
      · next hnew => exact handleCall_acts op hnew
      · exact .of_desk rfl
  | abort c => exact DeskAct.abort.acts
  | microtask => exact handleMicrotask_acts
  | line sock frame => exact handleClientLine_acts sock frame
  | ensured | connected | oversized | helloTimeout | failed | closed | backoff | retry
  | renameRetry | endTimeout | watchdog | heartbeat | ackTimeout | statusTimeout | expire
  | remind | tick =>
      unfold clientStep
      dsimp only
      split
      · next hidle => exact handleTurn_acts (by simpa using hidle) (by simp)
      · exact .of_desk rfl

end Step

end PiMesh
