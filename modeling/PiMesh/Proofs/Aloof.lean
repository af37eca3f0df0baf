/-
What the token buckets and the leases stand apart from.

Most of what the broker does touches neither: it writes frames, closes records, stores
messages, changes rooms.  `Bystander` says that a function leaves both tables as they were, and
`Aloof` that it passes on nothing an alias is charged for either: no message, no reply and
no control is written to a peer or stored.  The frames of the broker's own, the notices and
the closing of a record are all `Aloof`; passing a frame on is `Bystander`.
-/
import PiMesh.Broker.Reference
import PiMesh.Proofs.Cast

namespace PiMesh

open Js Transition BrokerState

variable {ν : Type} [Number ν] [DecidableEq ν]

/-- A frame of a peer that went through `checkRate`. -/
def WriteCallback.isMetered : WriteCallback ν → Bool
  | .replyCopy _ _ => true
  | .broadcastCopy _ _ => true
  | .direct _ _ _ _ _ => true
  | .onlineOnly _ _ _ silentDrop => !silentDrop
  | .ctl _ _ _ => true
  | _ => false

/-- The writes an alias was charged for. -/
def metered (writes : List (Write ν)) : List (Write ν) :=
  writes.filter fun w => w.callback.isMetered

/-- Buckets and leases are as they were. -/
structure Bystander (st st' : BrokerState ν) : Prop where
  rates : st'.rates = st.rates
  leases : st'.leases = st.leases

/-- Nothing was passed on that an alias is charged for. -/
structure Unheard (st st' : BrokerState ν) : Prop where
  queued : st'.queued = st.queued
  metered : metered st'.writes = metered st.writes

structure Aloof (st st' : BrokerState ν) : Prop extends Bystander st st', Unheard st st'

theorem Bystander.refl (st : BrokerState ν) : Bystander st st := ⟨rfl, rfl⟩

theorem Bystander.trans {st st' st'' : BrokerState ν} (h : Bystander st st') (h' : Bystander st' st'') :
    Bystander st st'' := ⟨h'.rates.trans h.rates, h'.leases.trans h.leases⟩

theorem Aloof.refl (st : BrokerState ν) : Aloof st st := ⟨.refl st, ⟨rfl, rfl⟩⟩

theorem Aloof.trans {st st' st'' : BrokerState ν} (h : Aloof st st') (h' : Aloof st' st'') :
    Aloof st st'' :=
  ⟨h.toBystander.trans h'.toBystander, ⟨h'.queued.trans h.queued, h'.metered.trans h.metered⟩⟩

theorem Bystander.foldl {α : Type} {f : BrokerState ν → α → BrokerState ν}
    (hf : ∀ s a, Bystander s (f s a)) (l : List α) (st : BrokerState ν) : Bystander st (l.foldl f st) := by
  induction l generalizing st with
  | nil => exact .refl st
  | cons a rest ih => exact (hf st a).trans (ih (f st a))

theorem Aloof.foldl {α : Type} {f : BrokerState ν → α → BrokerState ν} (hf : ∀ s a, Aloof s (f s a))
    (l : List α) (st : BrokerState ν) : Aloof st (l.foldl f st) := by
  induction l generalizing st with
  | nil => exact .refl st
  | cons a rest ih => exact (hf st a).trans (ih (f st a))

section Aloof

variable {env : Env} {now : Int} {st : BrokerState ν}

/-! ### Frames of the broker's own -/

theorem attempt_bystander (sock : SocketId) (frame : Members ν) (maxBytes : Nat)
    (cb : WriteCallback ν) : Bystander st (attempt st sock frame maxBytes cb).1 := by
  unfold attempt
  split
  · exact ⟨rfl, rfl⟩
  · exact ⟨rfl, rfl⟩

theorem attempt_aloof (sock : SocketId) (frame : Members ν) (maxBytes : Nat) {cb : WriteCallback ν}
    (hcb : cb.isMetered = false) : Aloof st (attempt st sock frame maxBytes cb).1 := by
  refine ⟨attempt_bystander sock frame maxBytes cb, ⟨?_, ?_⟩⟩
  · unfold attempt
    split
    · rfl
    · rfl
  · unfold attempt metered
    split
    · simp [hcb]
    · simp [hcb]

theorem modifySocket_aloof (sock : SocketId) (f : Socket → Socket) :
    Aloof st (st.modifySocket sock f) := by
  unfold BrokerState.modifySocket
  split
  · exact ⟨⟨rfl, rfl⟩, rfl, rfl⟩
  · exact .refl st

theorem destroy_aloof (sock : SocketId) : Aloof st (st.destroy sock) :=
  modifySocket_aloof sock fun s => { s with destroyed := true }

/-- The deadline of the handshake. -/
theorem deadline_aloof (sock : SocketId) : Aloof st (st.clearTimer sock) :=
  modifySocket_aloof sock fun s => { s with helloTimer := false }

theorem writeIgnored_aloof (sock : SocketId) (frame : Members ν) (maxBytes : Nat) :
    Aloof st (writeIgnored st sock frame maxBytes) :=
  attempt_aloof sock frame maxBytes rfl

theorem useId_aloof : Aloof st st.useId := ⟨⟨rfl, rfl⟩, rfl, rfl⟩

theorem broadcastToRoom_aloof (room : RoomKey ν) (exclude : String)
    {write : BrokerState ν → PeerRecord ν → BrokerState ν} (hw : ∀ s p, Aloof s (write s p)) :
    Aloof st (broadcastToRoom st room exclude write) := by
  unfold broadcastToRoom
  split
  · exact .refl st
  · refine Aloof.foldl (fun s name => ?_) _ st
    split
    · exact .refl s
    · split
      · exact hw s _
      · exact .refl s

theorem closePeer_aloof (name : String) : Aloof st (closePeer env now st name) := by
  unfold closePeer
  split
  · exact .refl st
  · next peer _ =>
      have htables : Aloof st
          { st with rooms := detachFromRooms st.rooms peer, peers := st.peers.delete name } :=
        ⟨⟨rfl, rfl⟩, rfl, rfl⟩
      refine htables.trans ((destroy_aloof peer.socket).trans ?_)
      have hnotices : ∀ s : BrokerState ν, Aloof s (peer.rooms.keys.foldl (fun st room =>
          let frame := presenceFrame env now st name "offline" room none none
          broadcastToRoom st.useId room name fun st p =>
            writeIgnored st p.socket frame defaultMaxFrameBytes) s) := by
        refine Aloof.foldl (fun s room => ?_) _
        exact useId_aloof.trans (broadcastToRoom_aloof room name fun s p =>
          writeIgnored_aloof p.socket _ _)
      refine (hnotices _).trans ?_
      split
      · exact .refl _
      · refine Aloof.foldl (fun s p => ?_) _ _
        exact useId_aloof.trans (writeIgnored_aloof p.socket _ _)

theorem closeIfCurrent_aloof (peer : PeerRef) : Aloof st (closeIfCurrent env now st peer) := by
  unfold closeIfCurrent
  split
  · exact closePeer_aloof peer.name
  · exact .refl st

theorem sendWith_aloof (peer : PeerRef) (frame : Members ν) {cb : WriteCallback ν}
    (hcb : cb.isMetered = false) : Aloof st (sendWith env now st peer frame cb) := by
  have hwrite : Aloof st (attempt st peer.socket frame env.cfg.maxFrameBytes cb).1 :=
    attempt_aloof peer.socket frame _ hcb
  unfold sendWith
  cases ha : attempt st peer.socket frame env.cfg.maxFrameBytes cb with
  | mk s ok =>
      rw [ha] at hwrite
      cases ok with
      | true => exact hwrite
      | false => exact hwrite.trans (closeIfCurrent_aloof peer)

theorem sendTo_aloof (peer : PeerRef) (frame : Members ν) :
    Aloof st (sendTo env now st peer frame) := sendWith_aloof peer frame rfl

theorem sendError_aloof (sock : SocketId) (code : MeshErrorCode) (id : Option String) :
    Aloof st (sendError env now st sock code id) := by
  unfold sendError
  have hid : Aloof st (if id.isSome then st else st.useId) := by
    split
    · exact .refl st
    · exact useId_aloof
  exact hid.trans (writeIgnored_aloof sock _ _)

theorem refuse_aloof (sock : SocketId) (code : MeshErrorCode) (id : String) :
    Aloof st (refuse env now st sock code id) := by
  have hcount : Aloof st st.addRefused := ⟨⟨rfl, rfl⟩, rfl, rfl⟩
  exact hcount.trans (sendError_aloof sock code (some id))

theorem sendAck_aloof (peer : PeerRef) (id : String) (status : AckStatus)
    (interruptStatus : Option String) (deliveredCount totalCount : Option Nat)
    (routedTo : Option String) :
    Aloof st (sendAck env now st peer id status interruptStatus deliveredCount totalCount routedTo) :=
  sendTo_aloof peer _

theorem notifyDropped_aloof (dropped : List (StoredMsg ν)) :
    Aloof st (notifyDropped env now st dropped) := by
  refine Aloof.foldl (fun s m => ?_) dropped st
  have hdrop : ∀ told, Aloof s { s with drops := s.drops ++ [⟨m, told⟩] } :=
    fun told => ⟨⟨rfl, rfl⟩, rfl, rfl⟩
  split
  · exact hdrop false
  · exact (hdrop true).trans (sendTo_aloof _ _)

theorem broadcastReservations_aloof (name : String) (reservations : List (Json ν)) :
    Aloof st (broadcastReservations env now st name reservations) := by
  unfold broadcastReservations
  refine useId_aloof.trans (Aloof.foldl (fun s p => ?_) _ _)
  split
  · exact .refl s
  · exact sendTo_aloof p.toRef _

/-! ### Frames passed on -/

theorem enqueue_bystander (name : String) (frame : Members ν) (group : Option Nat) :
    Bystander st (enqueue env now st name frame group) := by
  have hstore : Bystander st
      { st.setMail (enqueueMailbox st.mail env.cfg name ⟨st.refs, frame, now⟩ now).2 with
        refs := st.refs + 1
        queued := st.queued ++ [⟨name, ⟨st.refs, frame, now⟩, group⟩] } := ⟨rfl, rfl⟩
  exact hstore.trans (notifyDropped_aloof _).toBystander

theorem runCallback_bystander (frame : Members ν) (ok : Bool) (cb : WriteCallback ν) :
    Bystander st (runCallback env now st frame ok cb) := by
  have hclose : ∀ (s : BrokerState ν) t, Bystander s (closeIfCurrent env now s t) :=
    fun s t => (closeIfCurrent_aloof t).toBystander
  have hack : ∀ (s : BrokerState ν) peer id status i d t r,
      Bystander s (sendAck env now s peer id status i d t r) :=
    fun s peer id status i d t r => (sendAck_aloof peer id status i d t r).toBystander
  have hrelayed : ∀ (s : BrokerState ν) n, Bystander s (s.addRelayed n) := fun _ _ => ⟨rfl, rfl⟩
  have hgroup : ∀ (s : BrokerState ν) g f, Bystander s (s.modifyGroup g f) := fun _ _ _ => ⟨rfl, rfl⟩
  cases cb with
  | ignore => exact .refl st
  | sendTo peer | flushed peer m =>
      simp only [runCallback]
      split
      · exact .refl st
      · exact hclose st peer
  | replyCopy g t =>
      simp only [runCallback]
      split
      · exact (hrelayed st 1).trans (hgroup _ g _)
      · exact (hclose st t).trans (hgroup _ g _)
  | broadcastCopy g t =>
      simp only [runCallback]
      split
      · exact hgroup st g _
      · exact ((hclose st t).trans (enqueue_bystander t.name frame (some g))).trans (hgroup _ g _)
  | direct s t id i r =>
      simp only [runCallback]
      split
      · exact (hrelayed st 1).trans (hack _ s id _ _ _ _ _)
      · exact ((hclose st t).trans (enqueue_bystander t.name frame none)).trans (hack _ s id _ _ _ _ _)
  | onlineOnly s t id silentDrop =>
      simp only [runCallback]
      split
      · refine (hrelayed st 1).trans ?_
        split
        · exact .refl _
        · exact hack _ s id _ _ _ _ _
      · refine (hclose st t).trans ?_
        split
        · exact .refl _
        · exact hack _ s id _ _ _ _ _
  | ctl s t id =>
      simp only [runCallback]
      split
      · exact hrelayed st 1
      · have hforget : Bystander st { st with pendingCtl := st.pendingCtl.delete id } := ⟨rfl, rfl⟩
        exact (hforget.trans (hclose _ t)).trans (sendError_aloof s.socket _ _).toBystander
  | ctlAck t =>
      simp only [runCallback]
      split
      · exact hrelayed st 1
      · exact .refl st

theorem relay_bystander (target : PeerRef) (frame : Members ν) (cb : WriteCallback ν) :
    Bystander st (relay env now st target frame cb) := by
  have hwrite : Bystander st (attempt st target.socket frame env.cfg.maxFrameBytes cb).1 :=
    attempt_bystander target.socket frame _ cb
  unfold relay
  cases ha : attempt st target.socket frame env.cfg.maxFrameBytes cb with
  | mk s ok =>
      rw [ha] at hwrite
      cases ok with
      | true => exact hwrite
      | false => exact hwrite.trans (runCallback_bystander frame false cb)

/-- A frame nobody is charged for. -/
theorem relay_aloof {target : PeerRef} {frame : Members ν} {cb : WriteCallback ν}
    (hcb : cb.isMetered = false)
    (hfails : ∀ s : BrokerState ν, Aloof s (runCallback env now s frame false cb)) :
    Aloof st (relay env now st target frame cb) := by
  have hwrite : Aloof st (attempt st target.socket frame env.cfg.maxFrameBytes cb).1 :=
    attempt_aloof target.socket frame _ hcb
  unfold relay
  cases ha : attempt st target.socket frame env.cfg.maxFrameBytes cb with
  | mk s ok =>
      rw [ha] at hwrite
      cases ok with
      | true => exact hwrite
      | false => exact hwrite.trans (hfails s)

/-! ### Handlers that pass nothing on -/

theorem sendMailbox_aloof (peer : PeerRef) (fresh : List (StoredMsg ν)) :
    Aloof st (sendMailbox env now st peer fresh) :=
  Aloof.foldl (fun _ m => sendWith_aloof peer (mailboxFrame env.rt m) rfl) fresh st

theorem announceOnline_aloof (peer : PeerRecord ν) : Aloof st (announceOnline env now st peer) := by
  unfold announceOnline
  refine Aloof.foldl (fun s room => ?_) _ st
  exact useId_aloof.trans (broadcastToRoom_aloof room peer.name fun s p =>
    sendTo_aloof p.toRef _)

theorem welcome_aloof (peer : PeerRecord ν) (id : String) : Aloof st (welcome env now st peer id) := by
  unfold welcome
  generalize flushMailbox st.mail env.cfg peer.name now = flush
  obtain ⟨fresh, dropped, mail⟩ := flush
  dsimp only
  have hmail : Aloof st (st.setMail mail) := ⟨⟨rfl, rfl⟩, rfl, rfl⟩
  have hnotified : Aloof st (notifyDropped env now (st.setMail mail) dropped) :=
    hmail.trans (notifyDropped_aloof dropped)
  generalize notifyDropped env now (st.setMail mail) dropped = s at hnotified ⊢
  have hsent : Aloof st (sendMailbox env now (sendTo env now s peer.toRef
      (welcomeFrame env now s peer id fresh.length)) peer.toRef fresh) :=
    (hnotified.trans (sendTo_aloof peer.toRef _)).trans (sendMailbox_aloof peer.toRef fresh)
  have hannounced : Aloof st (announceOnline env now _ peer) := hsent.trans (announceOnline_aloof peer)
  split
  · exact hannounced
  · exact hannounced.trans (broadcastReservations_aloof peer.name peer.reservations)

theorem refuseRooms_aloof (sock : SocketId) (peer : PeerRecord ν) (code : MeshErrorCode)
    (id : String) : Aloof st (refuseRooms env now st sock peer code id) := by
  have herror : Aloof st (sendError env now st sock code (some id)) := sendError_aloof sock code _
  unfold refuseRooms
  generalize sendError env now st sock code (some id) = s at herror ⊢
  have htables : Aloof s
      { s with rooms := detachFromRooms s.rooms peer, peers := s.peers.delete peer.name } :=
    ⟨⟨rfl, rfl⟩, rfl, rfl⟩
  exact herror.trans (htables.trans (destroy_aloof sock))

theorem handleHello_aloof {sock : SocketId} {frame : MeshFrame ν} {st' : BrokerState ν}
    (h : handleHello env now st sock frame = .ok st') : Aloof st st' := by
  have haway : ∀ code, Aloof st ((sendError env now st sock code (some frame.id)).destroy sock) :=
    fun code => (sendError_aloof sock code _).trans (destroy_aloof sock)
  unfold handleHello at h
  split at h
  · obtain rfl := Except.ok.inj h
    exact haway _
  · next name _ =>
      split at h
      · obtain rfl := Except.ok.inj h
        exact haway _
      · split at h
        · obtain rfl := Except.ok.inj h
          exact haway _
        · dsimp only at h
          obtain ⟨⟨requested, taken⟩, -, h⟩ := bind_eq_ok.mp h
          obtain ⟨⟨code, rooms, peer⟩, -, h⟩ := bind_eq_ok.mp h
          cases code with
          | some code =>
              obtain rfl := Except.ok.inj h
              refine Aloof.trans ?_ (refuseRooms_aloof sock peer code frame.id)
              exact ⟨⟨rfl, rfl⟩, rfl, rfl⟩
          | none =>
              obtain rfl := Except.ok.inj h
              refine Aloof.trans ?_ (welcome_aloof peer frame.id)
              exact ⟨⟨rfl, rfl⟩, rfl, rfl⟩

theorem sendLease_aloof (peer : PeerRef) (id : String) (opts : BuildFrameOpts ν) :
    Aloof st (sendLease env now st peer id opts) := sendTo_aloof peer _

theorem updatePeer_aloof (peer : PeerRecord ν) : Aloof st (st.updatePeer peer) :=
  ⟨⟨rfl, rfl⟩, rfl, rfl⟩

theorem handleActivity_aloof (peer : PeerRecord ν) (frame : MeshFrame ν) :
    Aloof st (handleActivity env now st peer frame) := by
  unfold handleActivity
  refine (updatePeer_aloof _).trans (Aloof.foldl (fun s room => ?_) _ _)
  exact useId_aloof.trans (broadcastToRoom_aloof room _ fun s p => sendTo_aloof p.toRef _)

theorem handleReserve_aloof (peer : PeerRecord ν) (frame : MeshFrame ν) :
    Aloof st (sendAck env now (broadcastReservations env now (st.updatePeer peer) peer.name
      peer.reservations) peer.toRef frame.id .ok) := by
  have htold : Aloof st (broadcastReservations env now (st.updatePeer peer) peer.name
      peer.reservations) := (updatePeer_aloof peer).trans (broadcastReservations_aloof _ _)
  exact htold.trans (sendAck_aloof _ _ _ _ _ _ _)

theorem handleJoin_aloof {sock : SocketId} {peer : PeerRecord ν} {frame : MeshFrame ν}
    {st' : BrokerState ν} (h : handleJoin env now st sock peer frame = .ok st') : Aloof st st' := by
  unfold handleJoin at h
  split at h
  · obtain rfl := Except.ok.inj h
    exact sendError_aloof _ _ _
  · next room _ =>
      obtain ⟨⟨code, rooms, joined⟩, -, h⟩ := bind_eq_ok.mp h
      have hrooms : Aloof st { st with rooms } := ⟨⟨rfl, rfl⟩, rfl, rfl⟩
      cases code with
      | some code =>
          obtain rfl := Except.ok.inj h
          exact hrooms.trans (sendError_aloof _ _ _)
      | none =>
          obtain rfl := Except.ok.inj h
          have hacked : Aloof st (sendAck env now ({ st with rooms }.updatePeer joined) joined.toRef
              frame.id .ok) :=
            (hrooms.trans (updatePeer_aloof joined)).trans (sendAck_aloof _ _ _ _ _ _ _)
          refine (hacked.trans useId_aloof).trans (broadcastToRoom_aloof _ _ fun s p => ?_)
          exact sendTo_aloof p.toRef _

theorem handleLeave_aloof (sock : SocketId) (peer : PeerRecord ν) (frame : MeshFrame ν) :
    Aloof st (handleLeave env now st sock peer frame) := by
  unfold handleLeave
  split
  · exact sendError_aloof _ _ _
  · next room _ =>
      split
      · exact sendError_aloof _ _ _
      · next rooms left _ =>
          have hrooms : Aloof st { st with rooms } := ⟨⟨rfl, rfl⟩, rfl, rfl⟩
          have hacked : Aloof st (sendAck env now ({ st with rooms }.updatePeer left) left.toRef
              frame.id .ok) :=
            (hrooms.trans (updatePeer_aloof left)).trans (sendAck_aloof _ _ _ _ _ _ _)
          refine (hacked.trans useId_aloof).trans (broadcastToRoom_aloof _ _ fun s p => ?_)
          exact sendTo_aloof p.toRef _

/-! ### Leases -/

/-- The claim a frame makes. -/
def claimOf (env : Env) (now : Int) (st : BrokerState ν) (peer : PeerRecord ν) (frame : MeshFrame ν) :
    ClaimOutcome × LeaseTable :=
  st.leases.claim (fun _ => now) (env.rt.makeMsgId st.ids) (env.rt.toISOString now)
    (frame.task.getD "") peer.name (frame.paths.getD []) (frame.ttlMs.getD defaultLeaseTtlMs)

def releaseOf (now : Int) (st : BrokerState ν) (peer : PeerRecord ν) (frame : MeshFrame ν) :
    ReleaseOutcome × LeaseTable :=
  st.leases.release (fun _ => now) (frame.task.getD "") peer.name (frame.leaseId.getD "")

/-- The peer is in the room the frame is tagged with. -/
def inItsRoom (peer : PeerRecord ν) (frame : MeshFrame ν) : Bool :=
  peer.rooms.has (.ofString (frame.room.getD defaultRoom))

theorem handleClaim_outside {peer : PeerRecord ν} {frame : MeshFrame ν}
    (h : inItsRoom peer frame = false) : Aloof st (handleClaim env now st peer frame) := by
  unfold handleClaim
  dsimp only
  rw [if_pos (by simpa [inItsRoom] using h)]
  exact sendError_aloof _ _ _

theorem handleClaim_aloof {peer : PeerRecord ν} {frame : MeshFrame ν}
    (h : inItsRoom peer frame = true) :
    Aloof { st with leases := (claimOf env now st peer frame).2, ids := st.ids + 1 }
      (handleClaim env now st peer frame) := by
  unfold handleClaim
  dsimp only
  rw [if_neg (by simpa [inItsRoom] using h)]
  split
  · exact sendLease_aloof _ _ _
  · exact sendLease_aloof _ _ _
  · exact sendLease_aloof _ _ _

theorem handleLeaseStatus_aloof (peer : PeerRecord ν) (frame : MeshFrame ν) :
    Aloof { st with leases := (st.leases.get (fun _ => now) (frame.task.getD "")).2 }
      (handleLeaseStatus env now st peer frame) := by
  unfold handleLeaseStatus
  dsimp only
  split
  · exact sendLease_aloof _ _ _
  · exact sendLease_aloof _ _ _

theorem handleRelease_outside {peer : PeerRecord ν} {frame : MeshFrame ν}
    (h : inItsRoom peer frame = false) : Aloof st (handleRelease env now st peer frame) := by
  unfold handleRelease
  dsimp only
  rw [if_pos (by simpa [inItsRoom] using h)]
  exact sendError_aloof _ _ _

theorem handleRelease_aloof {peer : PeerRecord ν} {frame : MeshFrame ν}
    (h : inItsRoom peer frame = true) :
    Aloof { st with leases := (releaseOf now st peer frame).2 }
      (handleRelease env now st peer frame) := by
  unfold handleRelease
  dsimp only
  rw [if_neg (by simpa [inItsRoom] using h)]
  split
  · exact sendLease_aloof _ _ _
  · exact sendLease_aloof _ _ _

end Aloof

end PiMesh
