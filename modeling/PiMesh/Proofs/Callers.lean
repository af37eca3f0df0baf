/-
An error and the caller of its request.

`Outstanding` lists the requests a client may wait for, and `Reaches` says what it means that
an error finds its way: nobody waits for the id any more, nobody else is told anything, and
in every later run the call returns with the code and with nothing else.

It holds of every request but those for a lease.  The broker answers a `claim` or a `release`
from outside the room with an error, and that branch of the client never looks at
`leaseWaiters`: the request stays where it is until it times out.
-/
import PiMesh.Proofs.Missions
import PiMesh.Proofs.Requests

namespace PiMesh

open Js Transition

variable {ν : Type} [Number ν]

/-! ### Requests -/

/-- Who asked: a call of the client of the other modules, or one for a control or a lease. -/
inductive Caller where
  | base (c : CallId)
  | plane (c : CallId)
deriving DecidableEq

/-- What a call that waits for an acknowledgement has asked for. -/
def Stage.asks : Stage → Option MeshFrameType
  | .sendAck _ _ => some .msg
  | .replyAck _ => some .reply
  | .tripAck (.reserve _) _ => some .reserve
  | .tripAck (.release _ _) _ => some .reserve
  | .tripAck (.join _ _) _ => some .join
  | .tripAck (.leave _) _ => some .leave
  | _ => none

/-- A request with this id waits for its answer. -/
inductive Outstanding (m : MeshClient ν) (id : String) : MeshFrameType → Caller → Prop
  | acked {c : CallId} {s : Stage} {kind : MeshFrameType}
      (hw : m.base.ackWaiters.get? id = some c) (hs : m.base.calls.get? c = some s)
      (hkind : s.asks = some kind) : Outstanding m id kind (.base c)
  | status {c : CallId} (hw : m.base.statusWaiters.get? id = some c) :
      Outstanding m id .statusReq (.base c)
  | ctl {w : CtlWaiter} (hw : m.ctlWaiters.get? id = some w) : Outstanding m id .ctl (.plane w.call)
  | lease {c : CallId} {kind : MeshFrameType} (hw : m.leaseWaiters.get? id = some (c, kind)) :
      Outstanding m id kind (.plane c)

/-- What a call has returned. -/
def MeshClient.returned (m : MeshClient ν) : Caller → Option (CallResult ν ⊕ PlaneResult)
  | .base c => (m.base.results.get? c).map .inl
  | .plane c => (m.answers.get? c).map .inr

/-! ### Results that name a code -/

def SendResult.names (code : MeshErrorCode) : SendResult → Prop
  | .blocked _ reason => reason = code.text
  | .error _ reason => reason = code.text
  | _ => False

def CallResult.names (code : MeshErrorCode) : CallResult ν → Prop
  | .send r => r.names code
  | .released _ r => r.names code
  | .rejected (.code c) => c = code
  | _ => False

/-- A control request has a status of its own for a peer that is offline. -/
def PlaneResult.names (code : MeshErrorCode) : PlaneResult → Prop
  | .ctl r => r.reason = some code.text ∨ code = .unreachable ∧ r.status = "unreachable"
  | .lease (.error reason) => reason = code.text
  | _ => False

/-- The result says that the request was refused with this code. -/
def saysCode (code : MeshErrorCode) : CallResult ν ⊕ PlaneResult → Prop
  | .inl r => r.names code
  | .inr r => r.names code

/-- No request waits under this id. -/
def NoWaiter (m : MeshClient ν) (id : String) : Prop :=
  m.base.ackWaiters.get? id = none ∧ m.base.statusWaiters.get? id = none ∧
    m.ctlWaiters.get? id = none ∧ m.leaseWaiters.get? id = none

/-- The same requests wait under this id. -/
def SameWaiter (m m' : MeshClient ν) (id : String) : Prop :=
  m'.base.ackWaiters.get? id = m.base.ackWaiters.get? id ∧
    m'.base.statusWaiters.get? id = m.base.statusWaiters.get? id ∧
      m'.ctlWaiters.get? id = m.ctlWaiters.get? id ∧ m'.leaseWaiters.get? id = m.leaseWaiters.get? id

/-- The step from `m` to `m'` settles the request of this caller with this code and no other;
whatever happens then, the call returns with the code. -/
structure Reaches (env : ClientEnv) (m m' : MeshClient ν) (id : String) (caller : Caller)
    (code : MeshErrorCode) : Prop where
  settled : NoWaiter m' id
  others : ∀ id', id' ≠ id → SameWaiter m m' id'
  returned : ∀ other, other ≠ caller → m'.returned other = m.returned other
  queued : ∀ j ∈ m'.base.jobs, j ∈ m.base.jobs ∨ ∃ c ack, j = .acked c ack ∧ caller = .base c
  told : ∀ tr m'', Run (MeshStep env) m' tr m'' →
    (∀ r, m''.returned caller = some r → saysCode code r) ∧
      (m''.base.jobs = [] → (m''.returned caller).isSome = true)

/-! ### A call that was refused -/

/-- The call has returned with the code, or its error is queued. -/
def Learns (st : ClientState ν) (c : CallId) (code : MeshErrorCode) : Prop :=
  (∃ r, st.results.get? c = some r ∧ r.names code) ∨
    ∃ s ack, st.calls.get? c = some s ∧ s.asks.isSome = true ∧ .acked c ack ∈ st.jobs ∧
      ack.code = some (some code)

section Learns

variable {env : ClientEnv} {now : Int} {st st' : ClientState ν} {c : CallId} {code : MeshErrorCode}

theorem learns_finish {r : CallResult ν} (hsame : st'.results = st.results)
    (hnone : st.results.get? c = none) (hr : r.names code) : Learns (st'.finish c r) c code := by
  refine .inl ⟨r, ?_, hr⟩
  show (if st'.results.has c then st'.results else st'.results.set c r).get? c = some r
  rw [hsame, if_neg (by simp [Map.has, hnone])]
  exact Map.get?_set_self _ _ _

/-- The continuation of a refused request. -/
theorem handleAcked_learns {s : Stage} {ack : Ack} (hs : st.calls.get? c = some s)
    (hasks : s.asks.isSome = true) (hnone : st.results.get? c = none)
    (hcode : ack.code = some (some code)) : Learns (handleAcked st c ack) c code := by
  have herror : ack.isError = true := by simp [Ack.isError, hcode]
  have hor : ack.codeOr = code := by simp [Ack.codeOr, hcode]
  unfold handleAcked
  rw [hs]
  cases s with
  | sendAck plan id =>
      dsimp only
      unfold sendAcked
      rw [if_pos herror, hor]
      dsimp only
      have hnames : CallResult.names code (.send (if code ∈ blockedCodes then
          .blocked (some id) code.text else .error (some id) code.text) : CallResult ν) := by
        show SendResult.names code _
        split
        · exact rfl
        · exact rfl
      split
      · exact learns_finish (failMission_booked st id _).results hnone hnames
      · exact learns_finish rfl hnone hnames
  | replyAck id =>
      dsimp only
      unfold replyAcked
      rw [if_pos herror, hor]
      exact learns_finish rfl hnone rfl
  | tripAck use id =>
      dsimp only
      unfold tripAcked
      cases use with
      | reserve merged | release merged releasing | join room role =>
          dsimp only
          rw [if_pos herror, hor]
          exact learns_finish rfl hnone rfl
      | leave room =>
          dsimp only
          rw [if_pos herror, hor]
          split
          · exact learns_finish rfl hnone rfl
          · exact learns_finish rfl hnone rfl
  | _ => cases hasks

theorem learns_clientStep (hwaits : Waits env.rt st.desk) (e : ClientEvent ν) (h : Learns st c code) :
    Learns (clientStep env now st e) c code := by
  have hkeep : CallsKeep e st (clientStep env now st e) := clientStep_calls hwaits e
  rcases h with ⟨r, hr, hnames⟩ | ⟨s, ack, hs, hasks, hj, hcode⟩
  · exact .inl ⟨r, hkeep.results c r hr, hnames⟩
  · have hackId : s.ackId ≠ none := by
      intro hnone
      cases s with
      | sendAck | replyAck | tripAck => cases hnone
      | _ => cases hasks
    by_cases hrun : e = .microtask ∧ ∃ ack rest, st.jobs = .acked c ack :: rest
    · obtain ⟨rfl, ack', rest, hjobs⟩ := hrun
      -- there is one acknowledgement for the call, and it is this one
      have hack : ack' = ack := by
        rw [hjobs] at hj
        rcases List.mem_cons.mp hj with heq | hj
        · cases heq
          rfl
        · have honce := hwaits.once
          rw [acked_desk, hjobs] at honce
          have hmem : c ∈ rest.filterMap Job.ackOf := List.mem_filterMap.mpr ⟨_, hj, rfl⟩
          exact absurd hmem (List.nodup_cons.mp honce).1
      have hstep : clientStep env now st .microtask = handleAcked st.pop c ack' := by
        show handleMicrotask env now st = _
        unfold handleMicrotask
        rw [hjobs]
        show handleAcked _ c ack' = _
        unfold ClientState.pop
        rw [hjobs]
        rfl
      rw [hstep, hack]
      have hpop : st.pop.calls.get? c = some s := hs
      exact handleAcked_learns hpop hasks (hwaits.apart c s hs) hcode
    · refine .inr ⟨s, ack, ?_, hasks, ?_, hcode⟩
      · rcases hkeep.stays c s hs with hs' | hnone | hacked
        · exact hs'
        · exact absurd hnone hackId
        · exact absurd hacked hrun
      · rcases clientStep_jobs hj rfl e with hj' | ⟨he, hhead⟩
        · exact hj'
        · exact absurd ⟨he, ack, st.jobs.tail, List.eq_cons_of_mem_head? hhead⟩ hrun

end Learns

/-! ### The other requests -/

section Plane

variable {env : ClientEnv} {now : Int} {m m' : MeshClient ν} {c : CallId} {code : MeshErrorCode}

/-- What the calls of the other modules read of a client. -/
def MeshClient.desk (m : MeshClient ν) := (m.base.calls, m.base.results, m.base.jobs)

/-- Answers stay, and the calls of the other modules are left alone. -/
structure PlaneKeeps (m m' : MeshClient ν) : Prop where
  desk : m'.desk = m.desk
  answers : ∀ c r, m.answers.get? c = some r → m'.answers.get? c = some r

namespace PlaneKeeps

theorem of_same (hdesk : m'.desk = m.desk) (hanswers : m'.answers = m.answers) : PlaneKeeps m m' := by
  refine ⟨hdesk, ?_⟩
  intro c r hr
  rw [hanswers]
  exact hr

theorem answer {m₁ : MeshClient ν} (h : PlaneKeeps m m₁) (c : CallId) (r : PlaneResult) :
    PlaneKeeps m (m₁.answer c r) := by
  refine ⟨h.desk, ?_⟩
  intro c' r' hr'
  have hold := h.answers c' r' hr'
  rw [get?_answer]
  split
  · next heq =>
    obtain ⟨rfl, hnone⟩ := heq
    rw [hold] at hnone
    cases hnone
  · exact hold

/-- A waiter goes and its call returns. -/
theorem settles {m₁ : MeshClient ν} {r : PlaneResult} (hdesk : m₁.desk = m.desk)
    (hanswers : m₁.answers = m.answers) : PlaneKeeps m (m₁.answer c r) :=
  (of_same hdesk hanswers).answer c r

theorem trans {m'' : MeshClient ν} (h : PlaneKeeps m m') (h' : PlaneKeeps m' m'') :
    PlaneKeeps m m'' :=
  ⟨h'.desk.trans h.desk, fun c r hr => h'.answers c r (h.answers c r hr)⟩

end PlaneKeeps

theorem settleCtl_keeps (m : MeshClient ν) (key : String) (frame : Inbound ν) :
    PlaneKeeps m (settleCtl m key frame) := by
  unfold settleCtl
  split
  · exact .settles rfl rfl
  · exact .of_same rfl rfl

theorem onPlaneFrame_keeps (m : MeshClient ν) (frame : Inbound ν) :
    PlaneKeeps m (onPlaneFrame m frame) := by
  unfold onPlaneFrame
  split
  · unfold onLease
    dsimp only
    split
    · exact .settles rfl rfl
    · exact .of_same rfl rfl
  · unfold onCtlAck
    split
    · exact settleCtl_keeps m _ frame
    · exact .of_same rfl rfl
  · exact settleCtl_keeps m _ frame
  · exact .of_same rfl rfl

theorem whenIdle_keeps {f : MeshClient ν → MeshClient ν} (hf : ∀ m, PlaneKeeps m (f m))
    (m : MeshClient ν) : PlaneKeeps m (whenIdle m f) := by
  unfold whenIdle
  split
  · have hidle : PlaneKeeps m { m with base := { m.base with reading := none } } := .of_same rfl rfl
    exact hidle.trans (hf _)
  · exact .of_same rfl rfl

/-- What a step that is not one of the other modules does to them. -/
theorem meshStep_keeps (e : MeshEvent ν) (he : ∀ e', e ≠ .base e') :
    PlaneKeeps m (meshStep env now m e) := by
  cases e with
  | base e' => exact absurd rfl (he e')
  | control c opts =>
      show PlaneKeeps m (if m.isNew c then control env now m c opts else m)
      split
      · unfold control
        split
        · exact .settles rfl rfl
        · extract_lets frame waiter m₁
          split
          · exact .of_same rfl rfl
          · split
            · exact .of_same rfl rfl
            · exact .settles rfl rfl
      · exact .of_same rfl rfl
  | sendCtlAck ack =>
      show PlaneKeeps m (sendCtlAck env now m ack)
      unfold sendCtlAck
      split
      · exact .of_same rfl rfl
      · dsimp only
        split
        · exact .of_same rfl rfl
        · exact .of_same rfl rfl
  | askLease c ask =>
      show PlaneKeeps m (if m.isNew c then askLease env now m c ask else m)
      split
      · unfold askLease requestLease
        split
        · exact .settles rfl rfl
        · split
          · exact .settles rfl rfl
          · dsimp only
            split
            · exact .of_same rfl rfl
            · exact .settles rfl rfl
      · exact .of_same rfl rfl
  | ctlTimeout id =>
      show PlaneKeeps m (whenIdle m fun m => handleCtlTimeout m id)
      refine whenIdle_keeps (fun m => ?_) m
      unfold handleCtlTimeout
      split
      · exact .settles rfl rfl
      · exact .of_same rfl rfl
  | ctlWriteFailed id message =>
      show PlaneKeeps m (whenIdle m fun m => handleCtlWriteFailed m id message)
      refine whenIdle_keeps (fun m => ?_) m
      unfold handleCtlWriteFailed
      split
      · exact .settles rfl rfl
      · exact .of_same rfl rfl
  | leaseTimeout id =>
      show PlaneKeeps m (whenIdle m fun m => handleLeaseTimeout m id)
      refine whenIdle_keeps (fun m => ?_) m
      unfold handleLeaseTimeout
      split
      · exact .settles rfl rfl
      · exact .of_same rfl rfl

/-- A step of the other modules, and what it is read for here. -/
theorem handleBase_keeps (m : MeshClient ν) (e : ClientEvent ν) :
    PlaneKeeps { m with base := clientStep env now m.base e } (handleBase env now m e) := by
  unfold handleBase
  dsimp only
  split
  · split
    · exact onPlaneFrame_keeps _ _
    · exact .of_same rfl rfl
  · exact .of_same rfl rfl

theorem Learns.congr {st st' : ClientState ν} (h : Learns st c code)
    (hdesk : (st'.calls, st'.results, st'.jobs) = (st.calls, st.results, st.jobs)) :
    Learns st' c code := by
  simp only [Prod.mk.injEq] at hdesk
  obtain ⟨hcalls, hresults, hjobs⟩ := hdesk
  unfold Learns at h ⊢
  rw [hcalls, hresults, hjobs]
  exact h

/-- The caller was told, or will be by a job that is queued. -/
def Informed (m : MeshClient ν) (code : MeshErrorCode) : Caller → Prop
  | .base c => Learns m.base c code
  | .plane c => ∃ r, m.answers.get? c = some r ∧ r.names code

theorem Informed.keeps {caller : Caller} (h : Informed m code caller) (hkeeps : PlaneKeeps m m') :
    Informed m' code caller := by
  cases caller with
  | base c => exact Learns.congr h hkeeps.desk
  | plane c =>
      obtain ⟨r, hr, hnames⟩ := h
      exact ⟨r, hkeeps.answers c r hr, hnames⟩

theorem informed_step {caller : Caller} (huse : OneUse env.rt m) (e : MeshEvent ν)
    (h : Informed m code caller) : Informed (meshStep env now m e) code caller := by
  by_cases hbase : ∃ e', e = .base e'
  · obtain ⟨e, rfl⟩ := hbase
    have hstep : Informed { m with base := clientStep env now m.base e } code caller := by
      cases caller with
      | base c => exact learns_clientStep huse.waits e h
      | plane c => exact h
    exact hstep.keeps (handleBase_keeps m e)
  · exact h.keeps (meshStep_keeps e fun e' he => hbase ⟨e', he⟩)

/-- In every later state the caller has the code, or a job is queued. -/
theorem informed_returned {caller : Caller} (huse : OneUse env.rt m) (h : Informed m code caller) :
    (∀ r, m.returned caller = some r → saysCode code r) ∧
      (m.base.jobs = [] → (m.returned caller).isSome = true) := by
  cases caller with
  | plane c =>
      obtain ⟨r, hr, hnames⟩ := h
      have hreturned : m.returned (.plane c) = some (.inr r) := by simp [MeshClient.returned, hr]
      rw [hreturned]
      refine ⟨?_, fun _ => rfl⟩
      intro r' hr'
      obtain rfl := Option.some.inj hr'
      exact hnames
  | base c =>
      rcases h with ⟨r, hr, hnames⟩ | ⟨s, ack, hs, -, hj, -⟩
      · have hreturned : m.returned (.base c) = some (.inl r) := by simp [MeshClient.returned, hr]
        rw [hreturned]
        refine ⟨?_, fun _ => rfl⟩
        intro r' hr'
        obtain rfl := Option.some.inj hr'
        exact hnames
      · have hnone : m.base.results.get? c = none := huse.waits.apart c s hs
        have hreturned : m.returned (.base c) = none := by simp [MeshClient.returned, hnone]
        rw [hreturned]
        refine ⟨?_, ?_⟩
        · intro r hr
          cases hr
        · intro hjobs
          rw [hjobs] at hj
          cases hj

/-- In every run that follows. -/
theorem informed_run {caller : Caller} (hinj : Function.Injective env.rt.makeMsgId)
    (huse : OneUse env.rt m) (h : Informed m code caller)
    {tr : List (MeshClient ν × Int × MeshEvent ν)} (hrun : Run (MeshStep env) m tr m') :
    (∀ r, m'.returned caller = some r → saysCode code r) ∧
      (m'.base.jobs = [] → (m'.returned caller).isSome = true) := by
  have hboth : OneUse env.rt m' ∧ Informed m' code caller := by
    refine hrun.invariant (P := fun m => OneUse env.rt m ∧ Informed m code caller)
      (Meets.trivial tr) ⟨huse, h⟩ ?_
    intro m e m' h _ hstep
    have hstep : meshStep env e.1 m e.2 = m' := hstep
    rw [← hstep]
    exact ⟨meshStep_oneUse hinj e.2 h.1, informed_step h.1 e.2 h.2⟩
  exact informed_returned hboth.1 hboth.2

end Plane

/-! ### The line with the error -/

section Line

variable {env : ClientEnv} {now : Int} {m : MeshClient ν} {c : CallId} {id : String}
  {code : MeshErrorCode} {sock : ClientSocketId} {frame : Inbound ν}

/-- The branch for errors, and the map it reads last. -/
theorem meshStep_error (hlistens : m.base.listens sock = true) (htype : frame.type = .error) :
    meshStep env now m (.base (.line sock frame)) =
      settleCtl { m with base := onError (m.base.reads sock) frame } frame.id frame := by
  show handleBase env now m (.line sock frame) = _
  unfold handleBase
  dsimp only
  rw [if_pos hlistens, clientStep_listens hlistens]
  unfold onPlaneFrame onFrame
  rw [htype]

theorem get?_of_not_has {α : Type} {t : Map String α} (h : t.has id = false) : t.get? id = none := by
  simpa [Map.has] using h

theorem onStatus_none {st : ClientState ν} (h : st.statusWaiters.get? frame.id = none) :
    onStatus st frame = st := by
  unfold onStatus
  rw [h]

theorem onError_acked {st : ClientState ν} (hw : st.ackWaiters.get? frame.id = some c)
    (hstatus : st.statusWaiters.get? frame.id = none) :
    onError st frame = ClientState.push { st with ackWaiters := st.ackWaiters.delete frame.id }
      [.acked c frame.toAck] := by
  unfold onError
  rw [hw]
  exact onStatus_none hstatus

/-- A request that waits for an acknowledgement. -/
theorem error_acked (huse : OneUse env.rt m) (hlistens : m.base.listens sock = true)
    (htype : frame.type = .error) (hw : m.base.ackWaiters.get? frame.id = some c) :
    meshStep env now m (.base (.line sock frame)) = { m with
      base := ClientState.push { m.base.reads sock with
        ackWaiters := m.base.ackWaiters.delete frame.id } [.acked c frame.toAck] } := by
  have howns : Owns m.base.desk c frame.id := .inr hw
  have hstatus : m.base.statusWaiters.get? frame.id = none := by
    cases hhas : m.base.statusWaiters.has frame.id with
    | false => exact get?_of_not_has hhas
    | true => exact absurd howns ((huse.status _ hhas).2 c)
  have hctl : m.ctlWaiters.get? frame.id = none := by
    cases hhas : m.ctlWaiters.has frame.id with
    | false => exact get?_of_not_has hhas
    | true => exact absurd howns ((huse.ctl _ hhas).2.1 c)
  have hread : (m.base.reads sock).ackWaiters.get? frame.id = some c := hw
  rw [meshStep_error hlistens htype, onError_acked hread hstatus]
  unfold settleCtl
  dsimp only
  rw [hctl]
  rfl

/-- A control request. -/
theorem error_ctl {w : CtlWaiter} (huse : OneUse env.rt m) (hlistens : m.base.listens sock = true)
    (htype : frame.type = .error) (hw : m.ctlWaiters.get? frame.id = some w) :
    meshStep env now m (.base (.line sock frame)) =
      (MeshClient.dropCtl { m with base := m.base.reads sock } frame.id).answer w.call
        (.ctl (mapCtlReply frame w.target)) := by
  obtain ⟨-, howns, hstatus⟩ := huse.ctl frame.id ((Map.has_iff _ _).mpr ⟨w, hw⟩)
  have hack : (m.base.reads sock).ackWaiters.get? frame.id = none := by
    cases hc : m.base.ackWaiters.get? frame.id with
    | none => exact hc
    | some c => exact absurd (.inr hc) (howns c)
  have hnone : (m.base.reads sock).statusWaiters.get? frame.id = none := get?_of_not_has hstatus
  have herror : onError (m.base.reads sock) frame = m.base.reads sock := by
    unfold onError
    rw [hack]
    exact onStatus_none hnone
  rw [meshStep_error hlistens htype, herror]
  unfold settleCtl
  dsimp only
  rw [hw]

/-- The leases are not asked. -/
theorem error_lease (hlistens : m.base.listens sock = true) (htype : frame.type = .error) :
    (meshStep env now m (.base (.line sock frame))).leaseWaiters = m.leaseWaiters := by
  rw [meshStep_error hlistens htype]
  unfold settleCtl
  split
  · rfl
  · rfl

theorem mapCtlReply_names (htype : frame.type = .error) (hcode : frame.code = some code)
    (target : Option String) : PlaneResult.names code (.ctl (mapCtlReply frame target)) := by
  unfold mapCtlReply
  dsimp only
  rw [if_pos htype, hcode]
  cases code with
  | unreachable => exact .inr ⟨rfl, rfl⟩
  | _ => exact .inl rfl

end Line

/-! ### What the broker refuses requests with -/

section Broker

variable [DecidableEq ν]

/-- The broker's handler for frames of this type can answer one with this error. -/
def CanRefuse (ν : Type) [Number ν] [DecidableEq ν] (kind : MeshFrameType) (code : MeshErrorCode) :
    Prop :=
  ∃ (env : Env) (now : Int) (st st' : BrokerState ν) (sock : SocketId) (peer : PeerRecord ν)
    (f : MeshFrame ν) (more : List (Write ν)) (w : Write ν),
    f.type = kind ∧ dispatchPeer env now st sock peer f = .ok st' ∧
      st'.writes = st.writes ++ more ∧ w ∈ more ∧ Refuses w.frame code

theorem sendLease_tacit (env : Env) (now : Int) (st : BrokerState ν) (peer : PeerRef) (id : String)
    (opts : BuildFrameOpts ν) : Tacit st (sendLease env now st peer id opts) :=
  sendTo_tacit _ _ _ _ (notError_buildFrame _ _ (by simp))

/-- A query for a lease is answered on every path. -/
theorem handleLeaseStatus_tacit (env : Env) (now : Int) (st : BrokerState ν) (peer : PeerRecord ν)
    (f : MeshFrame ν) : Tacit st (handleLeaseStatus env now st peer f) := by
  have hleases : ∀ leases, Tacit st { st with leases } := fun _ => .of_writes rfl
  unfold handleLeaseStatus
  dsimp only
  split
  · exact (hleases _).trans (sendLease_tacit _ _ _ _ _ _)
  · exact (hleases _).trans (sendLease_tacit _ _ _ _ _ _)

theorem handleStatusReq_tacit (env : Env) (now : Int) (st : BrokerState ν) (peer : PeerRecord ν)
    (f : MeshFrame ν) : Tacit st (handleStatusReq env now st peer f) :=
  sendTo_tacit _ _ _ _ (notError_buildFrame _ _ (by simp))

theorem not_refused {st st' : BrokerState ν} {more : List (Write ν)} {w : Write ν}
    {code : MeshErrorCode} (h : Tacit st st') (hwrites : st'.writes = st.writes ++ more)
    (hw : w ∈ more) : ¬ Refuses w.frame code := by
  obtain ⟨more', heq, htacit⟩ := h
  rw [heq] at hwrites
  have hsame : more' = more := List.append_cancel_left hwrites
  rw [← hsame] at hw
  exact fun hrefuses => htacit w hw hrefuses.1

/-- A request for a lease's status or the broker's is not refused. -/
theorem not_canRefuse {kind : MeshFrameType} {code : MeshErrorCode}
    (hkind : kind = .leaseStatus ∨ kind = .statusReq) : ¬ CanRefuse ν kind code := by
  rintro ⟨env, now, st, st', sock, peer, f, more, w, htype, hstep, hwrites, hw, hrefuses⟩
  unfold dispatchPeer at hstep
  rcases hkind with rfl | rfl
  · rw [htype] at hstep
    obtain rfl := Except.ok.inj hstep
    exact not_refused (handleLeaseStatus_tacit env now st peer f) hwrites hw hrefuses
  · rw [htype] at hstep
    obtain rfl := Except.ok.inj hstep
    exact not_refused (handleStatusReq_tacit env now st peer f) hwrites hw hrefuses

end Broker

/-! ### Every kind of request -/

section Callers

variable [DecidableEq ν] {env : ClientEnv} {now : Int} {m : MeshClient ν} {c : CallId} {id : String}
  {code : MeshErrorCode} {sock : ClientSocketId} {frame : Inbound ν}

theorem acked_reaches {s : Stage} {kind : MeshFrameType} (hinj : Function.Injective env.rt.makeMsgId)
    (huse : OneUse env.rt m) (hlistens : m.base.listens sock = true) (htype : frame.type = .error)
    (hcode : frame.code = some code) (hw : m.base.ackWaiters.get? frame.id = some c)
    (hs : m.base.calls.get? c = some s) (hasks : s.asks = some kind) :
    Reaches env m (meshStep env now m (.base (.line sock frame))) frame.id (.base c) code := by
  have huse' : OneUse env.rt (meshStep env now m (.base (.line sock frame))) :=
    meshStep_oneUse hinj _ huse
  have howns : Owns m.base.desk c frame.id := .inr hw
  rw [error_acked huse hlistens htype hw] at huse' ⊢
  have hinformed : Informed ({ m with
      base := ClientState.push { m.base.reads sock with
        ackWaiters := m.base.ackWaiters.delete frame.id } [.acked c frame.toAck] }) code (.base c) := by
    refine .inr ⟨s, frame.toAck, hs, by rw [hasks]; rfl, ?_, ?_⟩
    · exact List.mem_append_right _ (List.mem_cons_self ..)
    · simp [Inbound.toAck, htype, hcode]
  refine ⟨⟨Map.get?_delete_self _ _, ?_, ?_, ?_⟩, ?_, ?_, ?_, ?_⟩
  · cases hstatus : m.base.statusWaiters.get? frame.id with
    | none => exact hstatus
    | some c' => exact absurd howns ((huse.status _ ((Map.has_iff _ _).mpr ⟨c', hstatus⟩)).2 c)
  · cases hctl : m.ctlWaiters.get? frame.id with
    | none => rfl
    | some w => exact absurd howns ((huse.ctl _ ((Map.has_iff _ _).mpr ⟨w, hctl⟩)).2.1 c)
  · cases hlease : m.leaseWaiters.get? frame.id with
    | none => rfl
    | some w => exact absurd howns ((huse.lease _ ((Map.has_iff _ _).mpr ⟨w, hlease⟩)).2.1.1 c)
  · exact fun id' hne => ⟨Map.get?_delete_ne _ hne, rfl, rfl, rfl⟩
  · intro other _
    cases other with
    | base c' => rfl
    | plane c' => rfl
  · intro j hj
    rcases List.mem_append.mp hj with hj | hj
    · exact .inl hj
    · exact .inr ⟨c, frame.toAck, List.mem_singleton.mp hj, rfl⟩
  · exact fun tr m'' hrun => informed_run hinj huse' hinformed hrun

theorem ctl_reaches {w : CtlWaiter} (hinj : Function.Injective env.rt.makeMsgId)
    (huse : OneUse env.rt m) (hlistens : m.base.listens sock = true) (htype : frame.type = .error)
    (hcode : frame.code = some code) (hw : m.ctlWaiters.get? frame.id = some w) :
    Reaches env m (meshStep env now m (.base (.line sock frame))) frame.id (.plane w.call) code := by
  have huse' : OneUse env.rt (meshStep env now m (.base (.line sock frame))) :=
    meshStep_oneUse hinj _ huse
  have hhas : m.ctlWaiters.has frame.id = true := (Map.has_iff _ _).mpr ⟨w, hw⟩
  obtain ⟨-, howns, hstatus⟩ := huse.ctl frame.id hhas
  have hnone : m.answers.get? w.call = none := huse.waiting frame.id w hw
  rw [error_ctl huse hlistens htype hw] at huse' ⊢
  have hinformed : Informed ((MeshClient.dropCtl { m with base := m.base.reads sock } frame.id).answer
      w.call (.ctl (mapCtlReply frame w.target))) code (.plane w.call) := by
    refine ⟨_, ?_, mapCtlReply_names htype hcode w.target⟩
    rw [get?_answer, if_pos ⟨rfl, hnone⟩]
  refine ⟨⟨?_, get?_of_not_has hstatus, Map.get?_delete_self _ _, ?_⟩, ?_, ?_, ?_, ?_⟩
  · cases hack : m.base.ackWaiters.get? frame.id with
    | none => exact hack
    | some c => exact absurd (.inr hack) (howns c)
  · cases hlease : m.leaseWaiters.get? frame.id with
    | none => exact hlease
    | some w' =>
        have hno := (huse.lease _ ((Map.has_iff _ _).mpr ⟨w', hlease⟩)).2.2
        rw [hhas] at hno
        cases hno
  · exact fun id' hne => ⟨rfl, rfl, Map.get?_delete_ne _ hne, rfl⟩
  · intro other hne
    cases other with
    | base c' => rfl
    | plane c' =>
        have hcall : c' ≠ w.call := fun heq => hne (by rw [heq])
        show ((MeshClient.answer _ w.call _).answers.get? c').map _ = (m.answers.get? c').map _
        rw [get?_answer, if_neg (fun heq => hcall heq.1)]
        rfl
  · exact fun j hj => .inl hj
  · exact fun tr m'' hrun => informed_run hinj huse' hinformed hrun

/-- **A refusal reaches its caller exactly when it is not a lease that was asked for.** -/
theorem refusal_reaches_caller (hinj : Function.Injective env.rt.makeMsgId) {name : String}
    {rooms : List String} {reservations : List FileReservation}
    {tr : List (MeshClient ν × Int × MeshEvent ν)} {kind : MeshFrameType} {caller : Caller}
    (hrun : Run (MeshStep env) (MeshClient.init name rooms reservations) tr m)
    (hout : Outstanding m id kind caller) (hrefuses : CanRefuse ν kind code)
    (hlistens : m.base.listens sock = true) (htype : frame.type = .error) (hid : frame.id = id)
    (hcode : frame.code = some code) :
    Reaches env m (meshStep env now m (.base (.line sock frame))) id caller code ↔
      kind ≠ .claim ∧ kind ≠ .release := by
  have huse := oneUse_run hinj hrun
  subst hid
  cases hout with
  | acked hw hs hkind =>
      rename_i c s
      refine iff_of_true (acked_reaches hinj huse hlistens htype hcode hw hs hkind) ?_
      cases s with
      | sendAck | replyAck =>
          obtain rfl := Option.some.inj hkind
          simp
      | tripAck use id =>
          cases use <;> obtain rfl := Option.some.inj hkind <;> simp
      | _ => cases hkind
  | status hw => exact absurd hrefuses (not_canRefuse (.inr rfl))
  | ctl hw => exact iff_of_true (ctl_reaches hinj huse hlistens htype hcode hw) (by simp)
  | lease hw =>
      -- the waiter is where it was
      have hstays : ∀ caller, ¬ Reaches env m (meshStep env now m (.base (.line sock frame)))
          frame.id caller code := by
        intro caller hreaches
        have hnone := hreaches.settled.2.2.2
        rw [error_lease hlistens htype, hw] at hnone
        cases hnone
      rcases huse.kinds _ _ hw with hkind | hkind | hkind
      · exact iff_of_false (hstays _) fun hc => hc.1 hkind
      · exact iff_of_false (hstays _) fun hc => hc.2 hkind
      · exact absurd hrefuses (not_canRefuse (.inl hkind))

end Callers

/-! ### A request that is refused, and a claim that is -/

/-- A frame that a handler answers with an error. -/
theorem canRefuse_of_error {env : Env} {now : Int} {st : BrokerState Int} {sock : SocketId}
    {peer : PeerRecord Int} {f : MeshFrame Int} {code : MeshErrorCode}
    (h : dispatchPeer env now st sock peer f = .ok (sendError env now st sock code (some f.id))) :
    CanRefuse Int f.type code := by
  obtain ⟨status, -, heq⟩ := sendError_some_eq env now st sock code f.id
  refine ⟨env, now, st, _, sock, peer, f, _, _, rfl, h, congrArg BrokerState.writes heq,
    List.mem_singleton_self _, frameType?_buildFrame _ _ _, ?_⟩
  simp [buildFrame, getOf, lookupEntry]

/-- A frame with nothing in it but its type and its id. -/
def emptyFrame (type : MeshFrameType) : MeshFrame Int where
  raw := []
  type := type
  id := "1"
  sender := none
  recipient := none
  room := none
  replyTo := none
  replyTargets := none
  priority := none
  task := none
  paths := none
  ttlMs := none
  leaseId := none
  action := none
  status := none
  rooms := none
  role := none
  roles := none
  reservations := none
  broadcast := none
  replyAll := none
  token := none
  clientVersion := none
  caps := none
  proto := none

/-- A peer that is in no room. -/
def roomless : PeerRecord Int := ⟨0, "alice", 0, .empty, none, 0, 0, true, [], none, none, [], 2⟩

theorem canRefuse_join : CanRefuse Int .join .invalidRoom := by
  have h : dispatchPeer (referenceEnv {}) 0 (BrokerState.init 1) 0 roomless (emptyFrame .join) =
      .ok (sendError (referenceEnv {}) 0 (BrokerState.init 1) 0 .invalidRoom (some "1")) := rfl
  exact canRefuse_of_error h

theorem canRefuse_claim : CanRefuse Int .claim .notMember := by
  have h : dispatchPeer (referenceEnv {}) 0 (BrokerState.init 1) 0 roomless (emptyFrame .claim) =
      .ok (sendError (referenceEnv {}) 0 (BrokerState.init 1) 0 .notMember (some "1")) := rfl
  exact canRefuse_of_error h

/-- The run of a client over a list of events. -/
def runMesh (env : ClientEnv) : MeshClient Int → List (Int × MeshEvent Int) →
    List (MeshClient Int × Int × MeshEvent Int) × MeshClient Int
  | m, [] => ([], m)
  | m, e :: es =>
      let (tr, m') := runMesh env (meshStep env e.1 m e.2) es
      ((m, e) :: tr, m')

theorem run_runMesh (env : ClientEnv) (m : MeshClient Int) (events : List (Int × MeshEvent Int)) :
    Run (MeshStep env) m (runMesh env m events).1 (runMesh env m events).2 := by
  induction events generalizing m with
  | nil => exact .nil
  | cons e es ih => exact .cons rfl (ih _)

/-- `alice` connects to a broker that knows leases. -/
def entersMesh : List (Int × MeshEvent Int) :=
  [(1000, .base (.call 0 .connect)), (1001, .base (.connected 0)),
    (1002, .base (.line 0 { inboundOf .welcome "w" with proto := some 2 })),
    (1002, .base .microtask), (1002, .base .microtask), (1002, .base .microtask),
    (1002, .base .microtask)]

/-- `alice`, with nothing asked for yet. -/
def aliceMesh : MeshClient Int := .init "alice" ["default"] []

/-- The id of the `n`-th frame of a client. -/
def frameId (n : Nat) : String := referenceClient.rt.makeMsgId n

/-- The broker refuses a request. -/
def refusal (n : Nat) (code : MeshErrorCode) : Inbound Int :=
  { inboundOf .error (frameId n) with code := some code }

/-- She asks for a room whose name the broker does not like. -/
def joinsBadly : List (Int × MeshEvent Int) :=
  entersMesh ++ [(2000, .base (.call 1 (.join "" .member)))]

theorem refusal_reaches_join : ∃ (tr : List (MeshClient Int × Int × MeshEvent Int))
    (m : MeshClient Int), Run (MeshStep referenceClient) aliceMesh tr m ∧
      Outstanding m (frameId 1) .join (.base 1) ∧
      Reaches referenceClient m (meshStep referenceClient 2001 m
        (.base (.line 0 (refusal 1 .invalidRoom)))) (frameId 1) (.base 1) .invalidRoom := by
  have hrun := run_runMesh referenceClient aliceMesh joinsBadly
  have hcheck : ((runMesh referenceClient aliceMesh joinsBadly).2.base.listens 0 &&
      decide ((runMesh referenceClient aliceMesh joinsBadly).2.base.ackWaiters.get? (frameId 1) =
        some 1) &&
      decide ((runMesh referenceClient aliceMesh joinsBadly).2.base.calls.get? 1 =
        some (.tripAck (.join "" .member) (frameId 1)))) = true := by decide +kernel
  generalize runMesh referenceClient aliceMesh joinsBadly = r at hrun hcheck
  simp only [Bool.and_eq_true, decide_eq_true_eq] at hcheck
  obtain ⟨⟨hlistens, hw⟩, hs⟩ := hcheck
  have hout : Outstanding r.2 (frameId 1) .join (.base 1) := .acked hw hs rfl
  refine ⟨r.1, r.2, hrun, hout, ?_⟩
  exact (refusal_reaches_caller makeMsgId_injective hrun hout canRefuse_join hlistens rfl rfl rfl).mpr
    (by simp)

/-- She leaves her only room and asks for a lease in it. -/
def claimsOutside : List (Int × MeshEvent Int) :=
  entersMesh ++ [(2000, .base (.call 1 (.leave "default"))),
    (2001, .base (.line 0 (inboundOf .ack (frameId 1)))), (2001, .base .microtask),
    (3000, .askLease 2 (.claim "build" ["src"] none))]

/-- The refusal of her claim is lost on her: she is told that it took too long. -/
theorem refused_claim_times_out : ∃ (tr : List (MeshClient Int × Int × MeshEvent Int))
    (m : MeshClient Int), Run (MeshStep referenceClient) aliceMesh tr m ∧
      Outstanding m (frameId 2) .claim (.plane 2) ∧ CanRefuse Int .claim .notMember ∧
      m.base.listens 0 = true ∧
      (meshStep referenceClient 8000 (meshStep referenceClient 3001 m
        (.base (.line 0 (refusal 2 .notMember)))) (.leaseTimeout (frameId 2))).returned (.plane 2) =
          some (.inr (.lease (.error "timeout"))) := by
  have hrun := run_runMesh referenceClient aliceMesh claimsOutside
  have hcheck : ((runMesh referenceClient aliceMesh claimsOutside).2.base.listens 0 &&
      decide ((runMesh referenceClient aliceMesh claimsOutside).2.leaseWaiters.get? (frameId 2) =
        some (2, .claim)) &&
      decide ((meshStep referenceClient 8000 (meshStep referenceClient 3001
        (runMesh referenceClient aliceMesh claimsOutside).2
          (.base (.line 0 (refusal 2 .notMember)))) (.leaseTimeout (frameId 2))).answers.get? 2 =
            some (.lease (.error "timeout")))) = true := by decide +kernel
  generalize runMesh referenceClient aliceMesh claimsOutside = r at hrun hcheck
  simp only [Bool.and_eq_true, decide_eq_true_eq] at hcheck
  obtain ⟨⟨hlistens, hw⟩, hanswer⟩ := hcheck
  refine ⟨r.1, r.2, hrun, .lease hw, canRefuse_claim, hlistens, ?_⟩
  simp [MeshClient.returned, hanswer]

end PiMesh
