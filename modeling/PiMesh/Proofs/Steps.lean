/-
What one event does.

`Shape` lists the ways a step of the broker can go: the tables its handler writes first,
and the chain of effects that follows.  `step_shape` is the only place that looks inside
`step`, `dispatch` and the handlers; an invariant is proved by going through the shapes.
-/
import PiMesh.Proofs.Cast
import PiMesh.Proofs.Handlers

namespace PiMesh

open Js Transition Relation BrokerState

variable {ν : Type} [Number ν] [DecidableEq ν]

section Quiet

variable {env : Env} {now : Int} {P : Permits ν} {st : BrokerState ν}

/-! ### Handlers that pass nothing on -/

theorem sendLease_chain (peer : PeerRef) (id : String) {opts : BuildFrameOpts ν}
    (h : NotQueued opts) : Chain env now P st (sendLease env now st peer id opts) :=
  sendTo_chain peer _ ⟨rfl, h.2⟩

theorem notQueued_leaseOpts (env : Env) {status : String} (body : String) (l : LeaseRecord)
    (h : status ≠ "queued_offline") : NotQueued (leaseOpts env status body l : BuildFrameOpts ν) :=
  ⟨rfl, fun hq => h (Option.some.inj hq)⟩

/-- Change the leases, then answer. -/
theorem leaseAnswer_chain (leases : LeaseTable) (ids : Nat) (peer : PeerRef) (id : String)
    {opts : BuildFrameOpts ν} (h : NotQueued opts) :
    Chain env now P st (sendLease env now { st with leases, ids } peer id opts) :=
  (aside_leases st leases ids).chain.trans (sendLease_chain peer id h)

theorem handleClaim_chain (peer : PeerRecord ν) (f : MeshFrame ν) :
    Chain env now P st (handleClaim env now st peer f) := by
  unfold handleClaim
  simp only
  split
  · exact sendError_chain _ _ _
  · split
    · exact leaseAnswer_chain _ _ _ _ (notQueued_leaseOpts env _ _ (by decide))
    · exact leaseAnswer_chain _ _ _ _ (by simp [NotQueued, AckStatus.text])
    · next reason hr =>
        refine leaseAnswer_chain _ _ _ _ ?_
        simp [NotQueued, AckStatus.text]

theorem handleLeaseStatus_chain (peer : PeerRecord ν) (f : MeshFrame ν) :
    Chain env now P st (handleLeaseStatus env now st peer f) := by
  unfold handleLeaseStatus
  simp only
  split
  · exact leaseAnswer_chain _ _ _ _ (by simp [NotQueued, AckStatus.text])
  · exact leaseAnswer_chain _ _ _ _ (notQueued_leaseOpts env _ _ (by decide))

theorem handleRelease_chain (peer : PeerRecord ν) (f : MeshFrame ν) :
    Chain env now P st (handleRelease env now st peer f) := by
  unfold handleRelease
  simp only
  split
  · exact sendError_chain _ _ _
  · split
    · exact leaseAnswer_chain _ _ _ _ (notQueued_leaseOpts env _ _ (by decide))
    · exact leaseAnswer_chain _ _ _ _ (by simp [NotQueued, AckStatus.text])

theorem handleStatusReq_chain (peer : PeerRecord ν) (f : MeshFrame ν) :
    Chain env now P st (handleStatusReq env now st peer f) :=
  sendTo_chain _ _ (by simp [NotQueued])

/-- Presence or activity of a peer, for the other members of a room. -/
theorem announce_chain (room : RoomKey ν) (name : String) (stamp : Stamp)
    {opts : BuildFrameOpts ν} (h : NotQueued opts) :
    Chain env now P st (broadcastToRoom st.useId room name fun st p =>
      sendTo env now st p.toRef (buildFrame env.rt stamp opts)) :=
  (aside_useId st).chain.trans
    (broadcastToRoom_chain room name fun _ _ => sendTo_chain _ _ h)

theorem handleActivity_chain (hP : P.touch) {peer : PeerRecord ν} (f : MeshFrame ν)
    (hpeer : st.peers.get? peer.name = some peer) :
    Chain env now P st (handleActivity env now st peer f) := by
  have htouch : Chain env now P st (st.updatePeer
      { peer with activity := some ⟨activityState f.status, env.rt.toISOString now⟩ }) :=
    .single (.touch peer _ hP hpeer ⟨rfl, rfl, rfl, rfl, rfl, rfl, rfl⟩)
  refine htouch.trans (chain_foldl (fun st room _ => announce_chain room _ _ ?_) _)
  cases activityState f.status <;> simp [NotQueued, AckStatus.text, ActivityState.text]

theorem handleReserve_chain (hP : P.touch) {peer : PeerRecord ν} (f : MeshFrame ν)
    (hpeer : st.peers.get? peer.name = some peer) (reservations : List (Json ν)) :
    Chain env now P st (sendAck env now (broadcastReservations env now
      (st.updatePeer { peer with reservations }) peer.name reservations) peer.toRef f.id .ok) := by
  have htouch : Chain env now P st (st.updatePeer { peer with reservations }) :=
    .single (.touch peer _ hP hpeer ⟨rfl, rfl, rfl, rfl, rfl, rfl, rfl⟩)
  exact htouch.trans ((broadcastReservations_chain _ _).trans
    (sendAck_chain _ _ _ _ _ _ (by simp)))

theorem handleClose_chain (sock : SocketId) : Chain env now P st (handleClose env now st sock) := by
  refine (aside_modifySocket st sock (f := fun s =>
    { s with destroyed := true, closed := true, helloTimer := false }) fun _ _ => rfl).chain.trans ?_
  exact chain_foldl (fun _ p _ => closePeer_chain p.name) _

/-- The first loop of the sweep: the sockets of silent peers. -/
def BrokerState.silence (env : Env) (now : Int) (st : BrokerState ν) : BrokerState ν :=
  (st.peers.values.filter fun p =>
    p.helloDone && decide (now - p.lastSeenAt > env.cfg.brokerSilenceMs)).foldl
      (fun st p => st.destroy p.socket) st

theorem aside_silence (env : Env) (now : Int) (st : BrokerState ν) :
    Aside st (st.silence env now) := by
  have hfold : ∀ (peers : List (PeerRecord ν)) (s : BrokerState ν), Aside st s →
      Aside st (peers.foldl (fun st p => st.destroy p.socket) s) := by
    intro peers
    induction peers with
    | nil => exact fun s hs => hs
    | cons p rest ih => exact fun s hs => ih _ (hs.trans (aside_destroy s p.socket))
  exact hfold _ st (.refl st)

theorem expireReservations_chain {s : BrokerState ν} (hP : P.touch) {peer : PeerRecord ν}
    (hpeer : st.peers.get? peer.name = some peer) (hs : Chain env now P st s) :
    Chain env now P s (expireReservations env now s peer) := by
  unfold expireReservations
  simp only
  have htouch : Chain env now P s (if s.isCurrent peer.toRef then s.updatePeer
      { peer with reservations := peer.reservations.filter (isCurrentReservation env now) }
      else s) := by
    split
    · next hcur =>
        unfold BrokerState.isCurrent at hcur
        split at hcur
        · next p hp =>
            -- the record under this alias is still the one the sweep looked at
            obtain ⟨p₀, hp₀, hsame⟩ := samePeer_of_chain hs hp
            obtain rfl : peer = p₀ := Option.some.inj (hpeer.symm.trans hp₀)
            have hname : p.name = peer.name := hsame.name
            refine .single (.touch p _ hP (by rw [hname]; exact hp) ?_)
            exact hsame.symm.trans ⟨rfl, rfl, rfl, rfl, rfl, rfl, rfl⟩
        · cases hcur
    · exact .refl
  refine htouch.trans ?_
  by_cases hlt : (peer.reservations.filter (isCurrentReservation env now)).length
      < peer.reservations.length
  · rw [if_pos hlt]
    exact broadcastReservations_chain _ _
  · rw [if_neg hlt]

/-- The sweep after the silent sockets and the stale aliases: old reservations. -/
theorem handleSweep_chain (htouch : P.touch) (hkeyed : Keyed st) :
    Chain env now P (pruneStaleKnownAliases now (st.silence env now)) (handleSweep env now st) := by
  unfold handleSweep
  simp only
  split
  · refine chain_foldl_from .refl fun s hs p hp => ?_
    obtain ⟨k, hk⟩ := (Map.mem_values_iff _ _).mp hp
    have hp₀ : st.peers.get? k = some p := by
      rw [← (aside_silence env now st).peers]
      exact hk
    obtain rfl : p.name = k := hkeyed k p hp₀
    exact expireReservations_chain htouch hk hs
  · exact .refl

end Quiet

/-! ### The shapes of a step -/

/-- The line is a frame the broker accepts. -/
def Accepted (env : Env) (text : List Char) (f : MeshFrame ν) : Prop :=
  ∃ ms, parseFrameLine env.rt text = .ok ms ∧ castFrame ms = .ok f

/-- `peer.lastSeenAt = Date.now()`. -/
def PeerRecord.seen (p : PeerRecord ν) (now : Int) : PeerRecord ν := { p with lastSeenAt := now }

/-- A frame type whose handler passes frames on. -/
def MeshFrameType.isRouted : MeshFrameType → Bool
  | .msg => true
  | .reply => true
  | .remind => true
  | .read => true
  | .ctl => true
  | .ctlAck => true
  | _ => false

/-- The permits of a handler that passes nothing on. -/
def ownOnly : Permits ν := { touch := True }

/-- A hello of `name` that neither the token nor a live namesake stops. -/
structure HelloOpens (env : Env) (st : BrokerState ν) (sock : SocketId) (f : MeshFrame ν)
    (name : String) : Prop where
  type : f.type = .hello
  auth : authed st sock f = none
  sender : f.sender = some name
  token : tokenAccepted env (st.sockets.get? sock) f.token = true
  free : ((st.peers.get? name).any fun e => e.socket != sock && !st.isDestroyed e.socket) = false

/-- The state in which a hello joins its rooms. -/
def helloState (env : Env) (now : Int) (st : BrokerState ν) (sock : SocketId) (name : String)
    (f : MeshFrame ν) (taken : Nat) : BrokerState ν :=
  { st.enroll now (newPeer env now st sock name f) with
    refs := (st.enroll now (newPeer env now st sock name f)).refs + taken + 1 }

inductive Shape (env : Env) (now : Int) (st : BrokerState ν) : Event → BrokerState ν → Prop
  /-- Nothing of another peer is passed on, and no membership changes by hand. -/
  | quiet {e : Event} {st' : BrokerState ν} (h : Chain env now ownOnly st st') : Shape env now st e st'
  | connected {sock : SocketId} {tokenRequired : Bool} {remoteAddress : Option String}
      (h : st.sockets.has sock = false) :
      Shape env now st (.connect sock tokenRequired remoteAddress)
        { st with sockets := st.sockets.set sock { tokenRequired, remoteAddress } }
  /-- A frame for other peers. -/
  | routed {sock : SocketId} {text : List Char} {st' : BrokerState ν} (f : MeshFrame ν)
      (a : PeerRecord ν) (hacc : Accepted env text f) (hauth : authed st sock f = some a)
      (htype : f.type.isRouted = true)
      (h : ∀ P : Permits ν, RoutePermits P env (st.updatePeer (a.seen now)) (a.seen now) f →
        (f.type = .reply ∨ f.type = .msg ∧ f.broadcast = some true → P.groups) →
        Chain env now P (st.updatePeer (a.seen now)) st') :
      Shape env now st (.line sock text) st'
  | joined {sock : SocketId} {text : List Char} {st' : BrokerState ν} (f : MeshFrame ν)
      (a : PeerRecord ν) (hacc : Accepted env text f) (hauth : authed st sock f = some a)
      (room : String) (rooms : RoomTable ν) (peer : PeerRecord ν)
      (hjoin : joinRoom env.cfg st.rooms (a.seen now) (.ofString room) (f.role.getD .member)
        = .ok (none, rooms, peer))
      (h : Chain env now ownOnly ({ st.updatePeer (a.seen now) with rooms }.updatePeer peer) st') :
      Shape env now st (.line sock text) st'
  | joinRefused {sock : SocketId} {text : List Char} {st' : BrokerState ν} (f : MeshFrame ν)
      (a : PeerRecord ν) (hacc : Accepted env text f) (hauth : authed st sock f = some a)
      (room : String) (code : MeshErrorCode) (rooms : RoomTable ν) (peer : PeerRecord ν)
      (hjoin : joinRoom env.cfg st.rooms (a.seen now) (.ofString room) (f.role.getD .member)
        = .ok (some code, rooms, peer))
      (h : Chain env now ownOnly { st.updatePeer (a.seen now) with rooms } st') :
      Shape env now st (.line sock text) st'
  | left {sock : SocketId} {text : List Char} {st' : BrokerState ν} (f : MeshFrame ν)
      (a : PeerRecord ν) (hacc : Accepted env text f) (hauth : authed st sock f = some a)
      (room : String) (rooms : RoomTable ν) (peer : PeerRecord ν)
      (hleave : leaveRoom st.rooms (a.seen now) (.ofString room) = (none, rooms, peer))
      (h : Chain env now ownOnly ({ st.updatePeer (a.seen now) with rooms }.updatePeer peer) st') :
      Shape env now st (.line sock text) st'
  | welcomed {sock : SocketId} {text : List Char} (f : MeshFrame ν) (name : String)
      (hacc : Accepted env text f) (hopen : HelloOpens env st sock f name)
      (requested : List (RoomKey ν)) (taken : Nat) (rooms : RoomTable ν) (peer : PeerRecord ν)
      (hrooms : requestedRooms (st.refs + 1) f = .ok (requested, taken))
      (hjoin : joinAll env.cfg f requested st.rooms (newPeer env now st sock name f)
        = .ok (none, rooms, peer)) :
      Shape env now st (.line sock text) ((welcome env now
        { helloState env now st sock name f taken with
          rooms, peers := (helloState env now st sock name f taken).peers.set name peer }
        peer f.id).clearTimer sock)
  | roomRefused {sock : SocketId} {text : List Char} (f : MeshFrame ν) (name : String)
      (hacc : Accepted env text f) (hopen : HelloOpens env st sock f name)
      (requested : List (RoomKey ν)) (taken : Nat) (code : MeshErrorCode) (rooms : RoomTable ν)
      (peer : PeerRecord ν)
      (hrooms : requestedRooms (st.refs + 1) f = .ok (requested, taken))
      (hjoin : joinAll env.cfg f requested st.rooms (newPeer env now st sock name f)
        = .ok (some code, rooms, peer)) :
      Shape env now st (.line sock text)
        ((refuseRooms env now { helloState env now st sock name f taken with rooms } sock peer code
          f.id).clearTimer sock)
  /-- A write settled; when its time ran out, the socket was destroyed first. -/
  | written {e : Event} {i : Nat} {ok : Bool} (w : Write ν) (st₁ : BrokerState ν)
      (hevent : (e = .written i ok ∧ st₁ = st) ∨
        (e = .writeTimeout i ∧ ok = false ∧ st₁ = st.destroy w.socket))
      (hw : st.writes[i]? = some w) (hpending : w.status = .pending) :
      Shape env now st e (runCallback env now (st₁.settleWrite i (if ok then .ok else .failed))
        w.frame ok w.callback)
  | settled {g : Nat} (gr : Group) (hg : st.groups[g]? = some gr) (hwaiting : gr.waiting = 0)
      (hacked : gr.acked = false) : Shape env now st (.settled g) (handleSettled env now st g)
  | swept {st' : BrokerState ν}
      (h : Chain env now ownOnly (pruneStaleKnownAliases now (st.silence env now)) st') :
      Shape env now st .sweep st'
  | purged : Shape env now st .purge (handlePurge env now st)

section Shapes

variable {env : Env} {now : Int} {st : BrokerState ν} {sock : SocketId} {text : List Char}
  {f : MeshFrame ν} {a : PeerRecord ν}

theorem authed_eq_some (h : authed st sock f = some a) :
    ∃ name, f.sender = some name ∧ st.peers.get? name = some a ∧ a.socket = sock ∧
      a.helloDone = true := by
  unfold authed at h
  split at h
  · next p hp =>
      obtain ⟨name, hname, hget⟩ := Option.bind_eq_some_iff.mp hp
      split at h
      · next hcond =>
          obtain rfl := Option.some.inj h
          exact ⟨name, hname, hget, hcond⟩
      · cases h
  · cases h

/-- An authenticated frame is from the record it was matched with. -/
theorem authed_sender (hkeyed : Keyed st) (h : authed st sock f = some a) :
    f.sender = some a.name ∧ st.peers.get? a.name = some a := by
  obtain ⟨name, hname, hget, -⟩ := authed_eq_some h
  obtain rfl := hkeyed name a hget
  exact ⟨hname, hget⟩

theorem accepted_carries (hacc : Accepted env text f) {name : String} (h : f.sender = some name) :
    Carries f.raw name f.id := by
  obtain ⟨ms, -, hcast⟩ := hacc
  have hv := castFrame_views hcast
  rw [hv.raw]
  exact ⟨by rw [← h]; exact hv.sender.bind, hv.id⟩

theorem keyed_updatePeer (hkeyed : Keyed st) (p : PeerRecord ν) : Keyed (st.updatePeer p) := by
  intro name q hq
  simp only [BrokerState.updatePeer, Map.get?_set] at hq
  split at hq
  · next hname =>
      obtain rfl := Option.some.inj hq
      exact hname.symm
  · exact hkeyed name q hq

theorem seen_chain (hkeyed : Keyed st) (h : authed st sock f = some a) :
    Chain env now ownOnly st (st.updatePeer (a.seen now)) :=
  .single (.touch a _ trivial (authed_sender hkeyed h).2 ⟨rfl, rfl, rfl, rfl, rfl, rfl, rfl⟩)

/-- The shapes of a frame from an authenticated peer; `hend` is what follows the handler. -/
theorem dispatchPeer_shape {s st' : BrokerState ν} (hkeyed : Keyed st) (hacc : Accepted env text f)
    (hauth : authed st sock f = some a)
    (h : dispatchPeer env now (st.updatePeer (a.seen now)) sock (a.seen now) f = .ok s)
    (hend : ∀ P, Chain env now P s st') : Shape env now st (.line sock text) st' := by
  have hseen : Chain env now ownOnly st (st.updatePeer (a.seen now)) := seen_chain hkeyed hauth
  have hraw : Carries f.raw (a.seen now).name f.id :=
    accepted_carries hacc (authed_sender hkeyed hauth).1
  have hkeyed' : Keyed (st.updatePeer (a.seen now)) := keyed_updatePeer hkeyed _
  have hself : (st.updatePeer (a.seen now)).peers.get? (a.seen now).name = some (a.seen now) :=
    Map.get?_set_self _ _ _
  have hquiet : Chain env now ownOnly (st.updatePeer (a.seen now)) s →
      Shape env now st (.line sock text) st' :=
    fun hc => .quiet ((hseen.trans hc).trans (hend _))
  have hrouted : f.type.isRouted = true →
      (∀ P : Permits ν, RoutePermits P env (st.updatePeer (a.seen now)) (a.seen now) f →
        (f.type = .reply ∨ f.type = .msg ∧ f.broadcast = some true → P.groups) →
        Chain env now P (st.updatePeer (a.seen now)) s) → Shape env now st (.line sock text) st' :=
    fun ht hc => .routed f a hacc hauth ht fun P hP hg => (hc P hP hg).trans (hend P)
  unfold dispatchPeer at h
  split at h
  · obtain rfl := Except.ok.inj h; exact hquiet (handleClaim_chain _ _)
  · obtain rfl := Except.ok.inj h; exact hquiet (handleRelease_chain _ _)
  · obtain rfl := Except.ok.inj h; exact hquiet (handleLeaseStatus_chain _ _)
  · next htype =>
      obtain rfl := Except.ok.inj h
      exact hrouted (by rw [htype]; rfl) fun P hP hg =>
        routeMsg_chain hP hraw (fun hb => hg (.inr ⟨htype, hb⟩)) hkeyed' htype
  · obtain rfl := Except.ok.inj h; exact hquiet (handleReserve_chain trivial f hself _)
  · next htype =>
      obtain rfl := Except.ok.inj h
      exact hrouted (by rw [htype]; rfl) fun P hP hg =>
        routeReply_chain hP (hg (.inl htype)) hkeyed' htype
  · next htype =>
      obtain rfl := Except.ok.inj h
      exact hrouted (by rw [htype]; rfl) fun P hP _ => routeSilent_chain hP hkeyed' (.inl htype)
  · next htype =>
      obtain rfl := Except.ok.inj h
      exact hrouted (by rw [htype]; rfl) fun P hP _ => routeSilent_chain hP hkeyed' (.inr htype)
  · next htype =>
      obtain rfl := Except.ok.inj h
      exact hrouted (by rw [htype]; rfl) fun P hP _ => handleCtl_chain hP hkeyed' htype
  · next htype =>
      obtain rfl := Except.ok.inj h
      exact hrouted (by rw [htype]; rfl) fun P hP _ => handleCtlAck_chain hP hkeyed' htype
  · obtain rfl := Except.ok.inj h; exact hquiet (handleActivity_chain trivial f hself)
  · obtain rfl := Except.ok.inj h; exact hquiet (sendTo_chain _ _ (by simp [NotQueued]))
  · obtain rfl := Except.ok.inj h; exact hquiet (handleStatusReq_chain _ _)
  · unfold handleJoin at h
    split at h
    · obtain rfl := Except.ok.inj h; exact hquiet (sendError_chain _ _ _)
    · next room _ =>
        obtain ⟨⟨o, rooms, peer⟩, hjoin, h⟩ := bind_eq_ok.mp h
        cases o with
        | some code =>
            obtain rfl := Except.ok.inj h
            exact .joinRefused f a hacc hauth room code rooms peer hjoin
              ((sendError_chain _ _ _).trans (hend _))
        | none =>
            obtain rfl := Except.ok.inj h
            refine .joined f a hacc hauth room rooms peer hjoin
              (ReflTransGen.trans ?_ (hend _))
            exact (sendAck_chain _ _ _ _ _ _ (by simp)).trans
              (announce_chain _ _ _ (by simp [NotQueued, AckStatus.text]))
  · unfold handleLeave at h
    split at h
    · obtain rfl := Except.ok.inj h; exact hquiet (sendError_chain _ _ _)
    · next room _ =>
        split at h
        · obtain rfl := Except.ok.inj h; exact hquiet (sendError_chain _ _ _)
        · next rooms peer hleave =>
            obtain rfl := Except.ok.inj h
            refine .left f a hacc hauth room rooms peer hleave (ReflTransGen.trans ?_ (hend _))
            exact (sendAck_chain _ _ _ _ _ _ (by simp)).trans
              (announce_chain _ _ _ (by simp [NotQueued, AckStatus.text]))
  · obtain rfl := Except.ok.inj h; exact hquiet (sendError_chain _ _ _)

/-- A hello that is answered with an error before its record is made. -/
theorem turnedAway_shape (code : MeshErrorCode) :
    Shape env now st (.line sock text)
      (((sendError env now st sock code (some f.id)).destroy sock).clearTimer sock) :=
  .quiet (((sendError_chain _ _ _).trans (aside_destroy _ _).chain).trans (aside_clearTimer _ _).chain)

theorem handleHello_shape {s : BrokerState ν} (hacc : Accepted env text f) (htype : f.type = .hello)
    (hauth : authed st sock f = none) (h : handleHello env now st sock f = .ok s) :
    Shape env now st (.line sock text) (s.clearTimer sock) := by
  unfold handleHello at h
  split at h
  · obtain rfl := Except.ok.inj h
    exact turnedAway_shape _
  · next name hname =>
      split at h
      · obtain rfl := Except.ok.inj h
        exact turnedAway_shape _
      · next htoken =>
          split at h
          · obtain rfl := Except.ok.inj h
            exact turnedAway_shape _
          · next hfree =>
              have hopen : HelloOpens env st sock f name :=
                ⟨htype, hauth, hname, by simpa using htoken, by simpa using hfree⟩
              obtain ⟨⟨requested, taken⟩, hrooms, h⟩ := bind_eq_ok.mp h
              obtain ⟨⟨o, rooms, peer⟩, hjoin, h⟩ := bind_eq_ok.mp h
              cases o with
              | some code =>
                  obtain rfl := Except.ok.inj h
                  exact .roomRefused f name hacc hopen requested taken code rooms peer hrooms hjoin
              | none =>
                  obtain rfl := Except.ok.inj h
                  exact .welcomed f name hacc hopen requested taken rooms peer hrooms hjoin

theorem handleLine_shape {st' : BrokerState ν} (hkeyed : Keyed st)
    (h : handleLine env now st sock text = .ok st') : Shape env now st (.line sock text) st' := by
  unfold handleLine at h
  split at h
  · obtain rfl := Except.ok.inj h
    exact .quiet (sendError_chain _ _ _)
  · next ms hms =>
      obtain ⟨f, hcast, h⟩ := bind_eq_ok.mp h
      have hacc : Accepted env text f := ⟨ms, hms, hcast⟩
      unfold handleFrame at h
      obtain ⟨s, hdispatch, h⟩ := bind_eq_ok.mp h
      have hend : ∀ P, Chain env now P s st' := by
        intro P
        split at h
        · obtain rfl := Except.ok.inj h
          exact (aside_clearTimer _ _).chain
        · obtain rfl := Except.ok.inj h
          exact .refl
      unfold dispatch at hdispatch
      split at hdispatch
      · next a hauth =>
          split at hdispatch
          · obtain rfl := Except.ok.inj hdispatch
            exact .quiet ((sendError_chain _ _ _).trans (hend _))
          · exact dispatchPeer_shape hkeyed hacc hauth hdispatch hend
      · next hauth =>
          split at hdispatch
          · next htype =>
              rw [if_pos (by simp [htype])] at h
              obtain rfl := Except.ok.inj h
              exact handleHello_shape hacc htype hauth hdispatch
          · obtain rfl := Except.ok.inj hdispatch
            exact .quiet ((sendError_chain _ _ _).trans (hend _))

/-- A line is one frame. -/
theorem Accepted.unique {f' : MeshFrame ν} (h : Accepted env text f) (h' : Accepted env text f') :
    f' = f := by
  obtain ⟨ms, hms, hcast⟩ := h
  obtain ⟨ms', hms', hcast'⟩ := h'
  obtain rfl : ms = ms' := Except.ok.inj (hms.symm.trans hms')
  exact (Except.ok.inj (hcast.symm.trans hcast')).symm

theorem handleLine_accepted (hacc : Accepted env text f) :
    handleLine env now st sock text = handleFrame env now st sock f := by
  obtain ⟨ms, hms, hcast⟩ := hacc
  unfold handleLine
  rw [hms]
  simp only [hcast]
  rfl

/-- Undoing the rooms of a refused hello: the error, then the two tables. -/
theorem refuseRooms_eq (env : Env) (now : Int) (st : BrokerState ν) (sock : SocketId)
    (peer : PeerRecord ν) (code : MeshErrorCode) (id : String) :
    ∃ w : Write ν, w.socket = sock ∧ w.callback = .ignore ∧ w.status ≠ .ok ∧
      refuseRooms env now st sock peer code id
        = { st with
            writes := st.writes ++ [w], rooms := detachFromRooms st.rooms peer,
            peers := st.peers.delete peer.name }.destroy sock := by
  obtain ⟨status, hstatus, hwrite⟩ := sendError_some_eq env now st sock code id
  refine ⟨⟨sock, buildFrame env.rt (st.stamp env now)
    { type := .error, code := some code, id := some id }, .ignore, status⟩, rfl, rfl, hstatus, ?_⟩
  unfold refuseRooms
  rw [hwrite]

/-- How a hello ends once its rooms have been tried. -/
def helloEnd (env : Env) (now : Int) (st : BrokerState ν) (sock : SocketId) (name : String)
    (f : MeshFrame ν) (taken : Nat) :
    Option MeshErrorCode × RoomTable ν × PeerRecord ν → BrokerState ν
  | (some code, rooms, peer) =>
      refuseRooms env now { helloState env now st sock name f taken with rooms } sock peer code f.id
  | (none, rooms, peer) =>
      welcome env now { helloState env now st sock name f taken with
        rooms, peers := (helloState env now st sock name f taken).peers.set name peer } peer f.id

/-- A hello that nothing stops: its rooms, one by one, and then an answer. -/
theorem dispatch_hello {name : String} (hopen : HelloOpens env st sock f name) :
    dispatch env now st sock f = (do
      let (requested, taken) ← requestedRooms (st.refs + 1) f
      let r ← joinAll env.cfg f requested st.rooms (newPeer env now st sock name f)
      .ok (helloEnd env now st sock name f taken r)) := by
  unfold dispatch handleHello
  have hstate : (st.enroll now (newPeer env now st sock name f)).refs = st.refs + 1 := rfl
  have hrooms : (st.enroll now (newPeer env now st sock name f)).rooms = st.rooms := rfl
  simp only [hopen.auth, hopen.type, hopen.sender, hopen.token, hopen.free, hstate, hrooms,
    if_true, Bool.not_true, if_false, Bool.false_eq_true]
  cases requestedRooms (st.refs + 1) f with
  | error e => rfl
  | ok r =>
      obtain ⟨requested, taken⟩ := r
      simp only [bind, Except.bind]
      cases joinAll env.cfg f requested st.rooms (newPeer env now st sock name f) with
      | error e => rfl
      | ok r =>
          obtain ⟨o, rooms, peer⟩ := r
          cases o with
          | some code => rfl
          | none => rfl

/-- The line of such a hello, where its rooms can be read. -/
theorem handleLine_hello {name : String} {requested : List (RoomKey ν)} {taken : Nat}
    {st' : BrokerState ν} (hacc : Accepted env text f) (hopen : HelloOpens env st sock f name)
    (hrooms : requestedRooms (st.refs + 1) f = .ok (requested, taken))
    (h : handleLine env now st sock text = .ok st') :
    ∃ r, joinAll env.cfg f requested st.rooms (newPeer env now st sock name f) = .ok r ∧
      st' = (helloEnd env now st sock name f taken r).clearTimer sock := by
  rw [handleLine_accepted hacc, handleFrame, dispatch_hello hopen, hrooms] at h
  obtain ⟨s, hs, h⟩ := bind_eq_ok.mp h
  obtain ⟨_, hr, hs⟩ := bind_eq_ok.mp hs
  obtain rfl := Except.ok.inj hr
  obtain ⟨r, hjoin, hend⟩ := bind_eq_ok.mp hs
  obtain rfl := Except.ok.inj hend
  rw [if_pos (by simp [hopen.type])] at h
  exact ⟨r, hjoin, (Except.ok.inj h).symm⟩

/-- **Every step has a shape.** -/
theorem step_shape {e : Event} {st' : BrokerState ν} (hkeyed : Keyed st)
    (h : step env now st e = .ok st') : Shape env now st e st' := by
  have hidle : ∀ {s : BrokerState ν}, Except.ok st = (Except.ok s : Except JsError _) →
      Shape env now st e s := by
    intro s hs
    obtain rfl := Except.ok.inj hs
    exact .quiet .refl
  cases e with
  | connect sock tokenRequired remoteAddress =>
      simp only [step] at h
      split at h
      · exact hidle h
      · next hhas =>
          obtain rfl := Except.ok.inj h
          exact .connected (by simpa using hhas)
  | line sock text =>
      simp only [step] at h
      split at h
      · exact handleLine_shape hkeyed h
      · exact hidle h
  | oversized sock =>
      simp only [step] at h
      split at h
      · obtain rfl := Except.ok.inj h
        exact .quiet ((sendError_chain _ _ _).trans (aside_destroy _ _).chain)
      · exact hidle h
  | helloTimeout sock =>
      simp only [step] at h
      split at h
      · obtain rfl := Except.ok.inj h
        exact .quiet ((aside_clearTimer _ _).chain.trans
          ((sendError_chain _ _ _).trans (aside_destroy _ _).chain))
      · exact hidle h
  | halfClosed sock =>
      obtain rfl := Except.ok.inj h
      exact .quiet (aside_modifySocket st sock (f := fun s => { s with writable := false })
        fun _ hs => hs).chain
  | lost sock =>
      obtain rfl := Except.ok.inj h
      exact .quiet (aside_destroy _ _).chain
  | close sock =>
      simp only [step] at h
      split at h
      · obtain rfl := Except.ok.inj h
        exact .quiet (handleClose_chain sock)
      · exact hidle h
  | written i ok =>
      simp only [step, handleWritten] at h
      split at h
      · next w hw =>
          split at h
          · next hp =>
              obtain rfl := Except.ok.inj h
              exact .written w st (.inl ⟨rfl, rfl⟩) hw hp
          · exact hidle h
      · exact hidle h
  | writeTimeout i =>
      simp only [step, handleWriteTimeout] at h
      split at h
      · next w hw =>
          split at h
          · next hp =>
              obtain rfl := Except.ok.inj h
              have hwrites : (st.destroy w.socket).writes = st.writes := (aside_destroy _ _).writes
              unfold handleWritten
              rw [hwrites, hw]
              simp only [hp, if_true]
              exact .written w _ (.inr ⟨rfl, rfl, rfl⟩) hw hp
          · exact hidle h
      · exact hidle h
  | settled g =>
      simp only [step] at h
      by_cases hg : ∃ gr, st.groups[g]? = some gr ∧ gr.waiting = 0 ∧ gr.acked = false
      · obtain ⟨gr, hgr, hw, ha⟩ := hg
        obtain rfl := Except.ok.inj h
        exact .settled gr hgr hw ha
      · refine hidle ?_
        rw [← h]
        unfold handleSettled
        split
        · next gr hgr =>
            rw [if_neg]
            exact fun hc => hg ⟨gr, hgr, hc.1, hc.2⟩
        · rfl
  | sweep =>
      obtain rfl := Except.ok.inj h
      exact .swept (handleSweep_chain trivial hkeyed)
  | purge =>
      simp only [step] at h
      split at h
      · obtain rfl := Except.ok.inj h
        exact .purged
      · cases h

end Shapes

end PiMesh
