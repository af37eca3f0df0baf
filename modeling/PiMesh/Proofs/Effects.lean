/-
What a handler can do, said once.

A handler of the broker is a sequence of small effects: it hands a frame of its own to
a socket, closes a record, passes a peer's frame on, puts one into a mailbox, changes
a counter.  `Act` lists these effects with the conditions under which the code performs
them; a `Chain` is any sequence.  Every function of `Broker/Delivery.lean` is a chain,
every handler is one after the tables it writes itself, and an invariant is then a
matter of the few effects instead of the many handlers.

Some effects are not open to every handler.  `Permits` says which: what may be passed
on to whom, what may be stored for whom, whose broadcast may be acknowledged as queued,
and whether records, fan-outs or pending controls may change.
-/
import PiMesh.Broker.Events
import PiMesh.Lib.Transition
import PiMesh.Proofs.RoomTables

namespace PiMesh

open Js Transition Relation BrokerState

variable {ν : Type} [Number ν] [DecidableEq ν]

/-- What the effects of a handler are restricted to. -/
structure Permits (ν : Type) where
  relay : PeerRef → Members ν → WriteCallback ν → Prop := fun _ _ _ => False
  store : String → Members ν → Option Nat → Prop := fun _ _ _ => False
  /-- Which message may be delivered to which record. -/
  flush : PeerRef → StoredMsg ν → Prop := fun _ _ => False
  /-- Whose request may be acknowledged as queued although the log shows nothing for it. -/
  ack : PeerRef → String → Prop := fun _ _ => False
  /-- Fan-outs may change. -/
  groups : Prop := False
  /-- Records may change, though not their rooms. -/
  touch : Prop := False
  /-- A message may be noted as dropped. -/
  drop : Prop := False
  /-- Pending controls may change. -/
  control : Prop := False
  /-- Whose mailbox a message may be put into although the alias is online. -/
  behind : String → Prop := fun _ => False

/-- A callback of a frame the broker made itself. -/
def WriteCallback.IsOwn : WriteCallback ν → Prop
  | .ignore => True
  | .sendTo _ => True
  | _ => False

/-- The record a passed-on frame is for. -/
def WriteCallback.target? : WriteCallback ν → Option PeerRef
  | .replyCopy _ t => some t
  | .broadcastCopy _ t => some t
  | .direct _ t _ _ _ => some t
  | .onlineOnly _ t _ _ => some t
  | .ctl _ t _ => some t
  | .ctlAck t => some t
  | _ => none

/-- The types of the frames the broker makes itself. -/
@[simp] def MeshFrameType.isOwn : MeshFrameType → Bool
  | .welcome => true
  | .ack => true
  | .presence => true
  | .statusRes => true
  | .reserve => true
  | .pong => true
  | .activity => true
  | .lease => true
  | .error => true
  | _ => false

/-- The frame says it is from `name` and has this id. -/
def Carries (frame : Members ν) (name id : String) : Prop :=
  (getOf frame "from").bind asStr = some name ∧ (getOf frame "id").bind asStr = some id

/-- A message of `name` with this id has been put into some mailbox. -/
def Logged (st : BrokerState ν) (name id : String) : Prop :=
  ∃ q ∈ st.queued, Carries q.msg.frame name id

/-- The tables of `closePeer`. -/
def BrokerState.dropPeer (st : BrokerState ν) (name : String) (peer : PeerRecord ν) :
    BrokerState ν :=
  { st with rooms := detachFromRooms st.rooms peer, peers := st.peers.delete name }.destroy
    peer.socket

/-- Only counters, rates, leases, ids and socket flags differ, and no socket comes back. -/
structure Aside (st st' : BrokerState ν) : Prop where
  peers : st'.peers = st.peers
  rooms : st'.rooms = st.rooms
  mailbox : st'.mailbox = st.mailbox
  knownAliases : st'.knownAliases = st.knownAliases
  pendingCtl : st'.pendingCtl = st.pendingCtl
  delivered : st'.stats.mailboxDelivered = st.stats.mailboxDelivered
  dropped : st'.stats.mailboxDropped = st.stats.mailboxDropped
  writes : st'.writes = st.writes
  groups : st'.groups = st.groups
  queued : st'.queued = st.queued
  drops : st'.drops = st.drops
  refs : st'.refs = st.refs
  opened : ∀ sock, st'.sockets.has sock = st.sockets.has sock
  destroyed : ∀ sock, st.isDestroyed sock = true → st'.isDestroyed sock = true

/-- The record is the same object, in the same rooms and with the same capabilities. -/
structure SamePeer (p p' : PeerRecord ν) : Prop where
  ref : p'.ref = p.ref
  name : p'.name = p.name
  socket : p'.socket = p.socket
  rooms : p'.rooms = p.rooms
  helloDone : p'.helloDone = p.helloDone
  caps : p'.caps = p.caps
  proto : p'.proto = p.proto

inductive Act (env : Env) (now : Int) (P : Permits ν) : BrokerState ν → BrokerState ν → Prop
  /-- A frame the broker made. -/
  | own {st : BrokerState ν} (sock : SocketId) (stamp : Stamp) (opts : BuildFrameOpts ν)
      (maxBytes : Nat) (cb : WriteCallback ν) (hcb : cb.IsOwn) (htype : opts.type.isOwn = true)
      (hq : opts.status = some AckStatus.queuedOffline.text →
        ∃ peer id, cb = .sendTo peer ∧ opts.id = some id ∧
          (Logged st peer.name id ∨ P.ack peer id)) :
      Act env now P st (attempt st sock (buildFrame env.rt stamp opts) maxBytes cb).1
  | close {st : BrokerState ν} (name : String) (peer : PeerRecord ν)
      (h : st.peers.get? name = some peer) : Act env now P st (st.dropPeer name peer)
  | aside {st st' : BrokerState ν} (h : Aside st st') : Act env now P st st'
  | touch {st : BrokerState ν} (p p' : PeerRecord ν) (hP : P.touch)
      (h : st.peers.get? p.name = some p) (hsame : SamePeer p p') :
      Act env now P st (st.updatePeer p')
  | groups {st : BrokerState ν} (hP : P.groups) (gs : List Group) :
      Act env now P st { st with groups := gs }
  | drop {st : BrokerState ν} (hP : P.drop) (d : Drop ν) :
      Act env now P st { st with drops := st.drops ++ [d] }
  | control {st : BrokerState ν} (hP : P.control) (pendingCtl : Map String PendingCtl) :
      Act env now P st { st with pendingCtl }
  /-- A peer's frame, for the record `target`. -/
  | relay {st : BrokerState ν} (target : PeerRef) (frame : Members ν) (cb : WriteCallback ν)
      (hP : P.relay target frame cb) :
      Act env now P st (attempt st target.socket frame env.cfg.maxFrameBytes cb).1
  /-- A stored message, for the record it waited for. -/
  | flush {st : BrokerState ν} (peer : PeerRef) (m : StoredMsg ν) (hP : P.flush peer m) :
      Act env now P st (attempt st peer.socket (mailboxFrame env.rt m) env.cfg.maxFrameBytes
        (.flushed peer m)).1
  /-- A peer's frame, for the mailbox of `name`. -/
  | enqueue {st : BrokerState ν} (name : String) (frame : Members ν) (group : Option Nat)
      (hP : P.store name frame group) (hoff : st.online name = none ∨ P.behind name) :
      Act env now P st (enqueue env now st name frame group)

/-- A sequence of effects. -/
abbrev Chain (env : Env) (now : Int) (P : Permits ν) : BrokerState ν → BrokerState ν → Prop :=
  ReflTransGen (Act env now P)

theorem Aside.refl (st : BrokerState ν) : Aside st st :=
  ⟨rfl, rfl, rfl, rfl, rfl, rfl, rfl, rfl, rfl, rfl, rfl, rfl, fun _ => rfl, fun _ h => h⟩

theorem Aside.trans {st st' st'' : BrokerState ν} (h : Aside st st') (h' : Aside st' st'') :
    Aside st st'' where
  peers := h'.peers.trans h.peers
  rooms := h'.rooms.trans h.rooms
  mailbox := h'.mailbox.trans h.mailbox
  knownAliases := h'.knownAliases.trans h.knownAliases
  pendingCtl := h'.pendingCtl.trans h.pendingCtl
  delivered := h'.delivered.trans h.delivered
  dropped := h'.dropped.trans h.dropped
  writes := h'.writes.trans h.writes
  groups := h'.groups.trans h.groups
  queued := h'.queued.trans h.queued
  drops := h'.drops.trans h.drops
  refs := h'.refs.trans h.refs
  opened sock := (h'.opened sock).trans (h.opened sock)
  destroyed sock hs := h'.destroyed sock (h.destroyed sock hs)

section Chains

variable {env : Env} {now : Int} {P : Permits ν} {st : BrokerState ν}

/-! ### Effects aside -/

theorem aside_modifySocket (st : BrokerState ν) (sock : SocketId) {f : Socket → Socket}
    (hf : ∀ s, s.destroyed = true → (f s).destroyed = true) :
    Aside st (st.modifySocket sock f) := by
  unfold BrokerState.modifySocket
  cases hs : st.sockets.get? sock with
  | some s =>
      refine ⟨rfl, rfl, rfl, rfl, rfl, rfl, rfl, rfl, rfl, rfl, rfl, rfl, fun sock' => ?_,
        fun sock' h => ?_⟩
      · have hhas : st.sockets.has sock = true := (Map.has_iff _ _).mpr ⟨s, hs⟩
        rw [Bool.eq_iff_iff, has_set]
        refine ⟨fun h => ?_, .inl⟩
        rcases h with h | rfl
        · exact h
        · exact hhas
      unfold BrokerState.isDestroyed at h ⊢
      simp only [Map.get?_set]
      by_cases heq : sock' = sock
      · rw [if_pos heq]
        rw [heq, hs] at h
        exact hf s h
      · rw [if_neg heq]
        exact h
  | none => exact ⟨rfl, rfl, rfl, rfl, rfl, rfl, rfl, rfl, rfl, rfl, rfl, rfl, fun _ => rfl, fun _ h => h⟩

theorem aside_destroy (st : BrokerState ν) (sock : SocketId) : Aside st (st.destroy sock) :=
  aside_modifySocket st sock (f := fun s => { s with destroyed := true }) fun _ _ => rfl

theorem isDestroyed_destroy (st : BrokerState ν) (sock : SocketId) :
    (st.destroy sock).isDestroyed sock = true := by
  unfold BrokerState.destroy
  cases hs : st.sockets.get? sock with
  | some s => simp [BrokerState.isDestroyed]
  | none => simp [BrokerState.isDestroyed, hs]

theorem aside_clearTimer (st : BrokerState ν) (sock : SocketId) : Aside st (st.clearTimer sock) :=
  aside_modifySocket st sock fun _ h => h

theorem aside_useId (st : BrokerState ν) : Aside st st.useId :=
  ⟨rfl, rfl, rfl, rfl, rfl, rfl, rfl, rfl, rfl, rfl, rfl, rfl, fun _ => rfl, fun _ h => h⟩

theorem aside_addRelayed (st : BrokerState ν) (n : Nat) : Aside st (st.addRelayed n) :=
  ⟨rfl, rfl, rfl, rfl, rfl, rfl, rfl, rfl, rfl, rfl, rfl, rfl, fun _ => rfl, fun _ h => h⟩

theorem aside_addRefused (st : BrokerState ν) : Aside st st.addRefused :=
  ⟨rfl, rfl, rfl, rfl, rfl, rfl, rfl, rfl, rfl, rfl, rfl, rfl, fun _ => rfl, fun _ h => h⟩

theorem aside_takeRate (env : Env) (now : Int) (st : BrokerState ν) (name : String)
    (kind : RateKind) : Aside st (takeRate env now st name kind).2 :=
  ⟨rfl, rfl, rfl, rfl, rfl, rfl, rfl, rfl, rfl, rfl, rfl, rfl, fun _ => rfl, fun _ h => h⟩

theorem aside_leases (st : BrokerState ν) (leases : LeaseTable) (ids : Nat) :
    Aside st { st with leases, ids } :=
  ⟨rfl, rfl, rfl, rfl, rfl, rfl, rfl, rfl, rfl, rfl, rfl, rfl, fun _ => rfl, fun _ h => h⟩

theorem Aside.chain {st st' : BrokerState ν} (h : Aside st st') : Chain env now P st st' :=
  .single (.aside h)

theorem modifyGroup_chain (hP : P.groups) (g : Nat) (f : Group → Group) :
    Chain env now P st (st.modifyGroup g f) := .single (.groups hP _)

theorem openGroup_chain (hP : P.groups) (kind : GroupKind) (sender : PeerRef) (id : String) :
    Chain env now P st (st.openGroup kind sender id) := .single (.groups hP _)

/-! ### Frames the broker makes itself -/

/-- Options of a frame of the broker's own that does not acknowledge anything as queued. -/
def NotQueued (opts : BuildFrameOpts ν) : Prop :=
  opts.type.isOwn = true ∧ opts.status ≠ some AckStatus.queuedOffline.text

theorem own_chain (sock : SocketId) (stamp : Stamp) {opts : BuildFrameOpts ν} (maxBytes : Nat)
    {cb : WriteCallback ν} (hcb : cb.IsOwn) (h : NotQueued opts) :
    Chain env now P st (attempt st sock (buildFrame env.rt stamp opts) maxBytes cb).1 :=
  .single (.own sock stamp opts maxBytes cb hcb h.1 fun hq => absurd hq h.2)

theorem writeIgnored_chain (sock : SocketId) (stamp : Stamp) {opts : BuildFrameOpts ν}
    (maxBytes : Nat) (h : NotQueued opts) :
    Chain env now P st (writeIgnored st sock (buildFrame env.rt stamp opts) maxBytes) :=
  own_chain sock stamp maxBytes trivial h

theorem broadcastToRoom_chain (room : RoomKey ν) (exclude : String)
    {write : BrokerState ν → PeerRecord ν → BrokerState ν}
    (hw : ∀ st p, Chain env now P st (write st p)) :
    Chain env now P st (broadcastToRoom st room exclude write) := by
  unfold broadcastToRoom
  split
  · exact .refl
  · refine chain_foldl (fun st name _ => ?_) st
    split
    · exact .refl
    · split
      · exact hw _ _
      · exact .refl

/-- Closing a record: its tables first, then notices. -/
theorem closePeer_notices {name : String} {peer : PeerRecord ν}
    (hpeer : st.peers.get? name = some peer) :
    Chain env now P (st.dropPeer name peer) (closePeer env now st name) := by
  unfold closePeer
  split
  · next hnone =>
      rw [hnone] at hpeer
      cases hpeer
  · next peer' hpeer' =>
      obtain rfl : peer = peer' := Option.some.inj (hpeer.symm.trans hpeer')
      have hpresence : ∀ s : BrokerState ν, Chain env now P s (peer.rooms.keys.foldl
          (fun st room =>
            let frame := presenceFrame env now st name "offline" room none none
            broadcastToRoom st.useId room name fun st p =>
              writeIgnored st p.socket frame defaultMaxFrameBytes) s) := by
        refine fun s => chain_foldl (fun st room _ => ?_) s
        refine (aside_useId st).chain.trans (broadcastToRoom_chain room name fun st' p => ?_)
        exact writeIgnored_chain _ _ _ (by simp [NotQueued, AckStatus.text])
      refine (hpresence _).trans ?_
      split
      · exact .refl
      · refine chain_foldl (fun st p _ => ?_) _
        exact (aside_useId st).chain.trans (writeIgnored_chain _ _ _ (by simp [NotQueued]))

theorem closePeer_chain (name : String) : Chain env now P st (closePeer env now st name) := by
  cases hpeer : st.peers.get? name with
  | none =>
      unfold closePeer
      rw [hpeer]
  | some peer => exact .trans (.single (.close name peer hpeer)) (closePeer_notices hpeer)

theorem closeIfCurrent_chain (peer : PeerRef) :
    Chain env now P st (closeIfCurrent env now st peer) := by
  unfold closeIfCurrent
  split
  · exact closePeer_chain _
  · exact .refl

/-- `sendWith` is one write, and perhaps a record closed. -/
theorem sendWith_chain {peer : PeerRef} {frame : Members ν} {cb : WriteCallback ν}
    (h : Chain env now P st (attempt st peer.socket frame env.cfg.maxFrameBytes cb).1) :
    Chain env now P st (sendWith env now st peer frame cb) := by
  unfold sendWith
  cases ha : attempt st peer.socket frame env.cfg.maxFrameBytes cb with
  | mk st' ok =>
      rw [ha] at h
      cases ok with
      | true => exact h
      | false => exact h.trans (closeIfCurrent_chain peer)

theorem sendTo_chain (peer : PeerRef) (stamp : Stamp) {opts : BuildFrameOpts ν}
    (h : NotQueued opts) :
    Chain env now P st (sendTo env now st peer (buildFrame env.rt stamp opts)) :=
  sendWith_chain (own_chain _ _ _ trivial h)

theorem sendError_chain (sock : SocketId) (code : MeshErrorCode) (id : Option String) :
    Chain env now P st (sendError env now st sock code id) := by
  unfold sendError
  have hid : Chain env now P st (if id.isSome then st else st.useId) := by
    split
    · exact .refl
    · exact (aside_useId st).chain
  exact hid.trans (writeIgnored_chain _ _ _ (by simp [NotQueued]))

theorem refuse_chain (sock : SocketId) (code : MeshErrorCode) (id : String) :
    Chain env now P st (refuse env now st sock code id) :=
  (aside_addRefused st).chain.trans (sendError_chain _ _ _)

theorem sendAck_chain (peer : PeerRef) (id : String) {status : AckStatus}
    (interruptStatus : Option String) (deliveredCount totalCount : Option Nat)
    (routedTo : Option String) (h : status ≠ .queuedOffline) :
    Chain env now P st (sendAck env now st peer id status interruptStatus deliveredCount totalCount
      routedTo) := by
  refine sendTo_chain peer _ ⟨rfl, ?_⟩
  intro hq
  cases status <;> simp [AckStatus.text] at hq h

/-- An acknowledgement as queued, for a message the log knows or the handler vouches for. -/
theorem sendQueuedAck_chain (peer : PeerRef) (id : String) (interruptStatus : Option String)
    (deliveredCount totalCount : Option Nat) (routedTo : Option String)
    (h : Logged st peer.name id ∨ P.ack peer id) :
    Chain env now P st (sendAck env now st peer id .queuedOffline interruptStatus deliveredCount
      totalCount routedTo) :=
  sendWith_chain (.single (.own _ _ _ _ _ trivial rfl fun _ => ⟨peer, id, rfl, rfl, h⟩))

theorem broadcastReservations_chain (name : String) (reservations : List (Json ν)) :
    Chain env now P st (broadcastReservations env now st name reservations) := by
  unfold broadcastReservations
  refine (aside_useId st).chain.trans (chain_foldl (fun st p _ => ?_) _)
  split
  · exact .refl
  · exact sendTo_chain _ _ (by simp [NotQueued])

/-- The notices for dropped messages. -/
theorem notifyDropped_chain (hP : P.drop) (dropped : List (StoredMsg ν)) :
    Chain env now P st (notifyDropped env now st dropped) := by
  refine chain_foldl (fun st m _ => ?_) st
  split
  · exact .single (.drop hP _)
  · refine ReflTransGen.trans (.single (.drop hP _)) (sendTo_chain _ _ ?_)
    simp [NotQueued, AckStatus.text]

/-! ### What effects leave alone -/

/-- A write is noted at the end of the list, as pending or as failed. -/
theorem attempt_eq (st : BrokerState ν) (sock : SocketId) (frame : Members ν) (maxBytes : Nat)
    (cb : WriteCallback ν) :
    ∃ status, status ≠ .ok ∧ (attempt st sock frame maxBytes cb).1
      = { st with writes := st.writes ++ [⟨sock, frame, cb, status⟩] } := by
  unfold attempt
  split
  · exact ⟨.pending, by simp, rfl⟩
  · exact ⟨.failed, by simp, rfl⟩

/-- Settling a write changes how one write ended and nothing else. -/
theorem mem_settleWrite {st : BrokerState ν} {i : Nat} {status : WriteStatus} {w : Write ν}
    (h : w ∈ (st.settleWrite i status).writes) :
    w ∈ st.writes ∨ ∃ w₀ ∈ st.writes, w = { w₀ with status } := by
  obtain ⟨j, hj⟩ := List.mem_iff_getElem?.mp h
  simp only [BrokerState.settleWrite, List.getElem?_modify] at hj
  cases hold : st.writes[j]? with
  | none =>
      rw [hold] at hj
      cases hj
  | some w₀ =>
      have hmem : w₀ ∈ st.writes := List.mem_of_getElem? hold
      rw [hold] at hj
      have hj := Option.some.inj hj
      split at hj
      · exact .inr ⟨w₀, hmem, hj.symm⟩
      · exact .inl (hj ▸ hmem)

/-- An error answer with an id is one write and nothing else. -/
theorem sendError_some_eq (env : Env) (now : Int) (st : BrokerState ν) (sock : SocketId)
    (code : MeshErrorCode) (id : String) :
    ∃ status, status ≠ .ok ∧ sendError env now st sock code (some id)
      = { st with writes := st.writes ++ [⟨sock, buildFrame env.rt (st.stamp env now)
            { type := .error, code := some code, id := some id }, .ignore, status⟩] } :=
  attempt_eq st sock _ env.cfg.maxFrameBytes .ignore

/-- Records and members only go, and no socket comes back. -/
structure Dwindles (st st' : BrokerState ν) : Prop where
  peers : ∀ name p, st'.peers.get? name = some p → st.peers.get? name = some p
  rooms : ∀ key members, st'.rooms.get? key = some members →
    ∃ before, st.rooms.get? key = some before ∧ members.elems ⊆ before.elems
  destroyed : ∀ sock, st.isDestroyed sock = true → st'.isDestroyed sock = true

theorem Dwindles.of_same {st st' : BrokerState ν} (hp : st'.peers = st.peers)
    (hr : st'.rooms = st.rooms) (hs : st'.sockets = st.sockets) : Dwindles st st' where
  peers _ _ h := by rwa [hp] at h
  rooms _ _ h := ⟨_, by rwa [hr] at h, fun _ hx => hx⟩
  destroyed sock h := by
    unfold BrokerState.isDestroyed at h ⊢
    rwa [hs]

theorem Dwindles.trans {st st' st'' : BrokerState ν} (h : Dwindles st st') (h' : Dwindles st' st'') :
    Dwindles st st'' where
  peers name p hp := h.peers name p (h'.peers name p hp)
  rooms key members hm := by
    obtain ⟨m', hm', hsub'⟩ := h'.rooms key members hm
    obtain ⟨m, hm, hsub⟩ := h.rooms key m' hm'
    exact ⟨m, hm, fun x hx => hsub (hsub' hx)⟩
  destroyed sock hs := h'.destroyed sock (h.destroyed sock hs)

theorem Aside.dwindles {st st' : BrokerState ν} (h : Aside st st') : Dwindles st st' where
  peers _ _ hp := by rwa [h.peers] at hp
  rooms _ _ hm := ⟨_, by rwa [h.rooms] at hm, fun _ hx => hx⟩
  destroyed := h.destroyed

theorem attempt_dwindles (st : BrokerState ν) (sock : SocketId) (frame : Members ν) (maxBytes : Nat)
    (cb : WriteCallback ν) : Dwindles st (attempt st sock frame maxBytes cb).1 := by
  obtain ⟨status, -, heq⟩ := attempt_eq st sock frame maxBytes cb
  rw [heq]
  exact .of_same rfl rfl rfl

theorem dropPeer_dwindles (st : BrokerState ν) (name : String) (peer : PeerRecord ν) :
    Dwindles st (st.dropPeer name peer) := by
  refine Dwindles.trans ?_ (aside_destroy _ _).dwindles
  refine ⟨fun n p hp => ?_, fun key members hm => detachFromRooms_sub hm, fun _ h => h⟩
  simp only [Map.get?_delete] at hp
  split at hp
  · cases hp
  · exact hp

theorem online_eq_some {st : BrokerState ν} {name : String} {p : PeerRecord ν}
    (h : st.online name = some p) :
    st.peers.get? name = some p ∧ p.helloDone = true ∧ st.isDestroyed p.socket = false := by
  unfold BrokerState.online at h
  split at h
  · next p' hp =>
      split at h
      · next hcond =>
          obtain rfl := Option.some.inj h
          simp only [Bool.and_eq_true, Bool.not_eq_true'] at hcond
          exact ⟨hp, hcond.1, hcond.2⟩
      · cases h
  · cases h

theorem online_of {st : BrokerState ν} {name : String} {p : PeerRecord ν}
    (h : st.peers.get? name = some p) (hd : p.helloDone = true)
    (hs : st.isDestroyed p.socket = false) : st.online name = some p := by
  simp [BrokerState.online, h, hd, hs]

/-- Who is online after some have gone was online before. -/
theorem Dwindles.online {st st' : BrokerState ν} (h : Dwindles st st') {name : String}
    {p : PeerRecord ν} (hp : st'.online name = some p) : st.online name = some p := by
  obtain ⟨hget, hd, hs⟩ := online_eq_some hp
  refine online_of (h.peers name p hget) hd ?_
  by_contra hc
  rw [h.destroyed _ (by simpa using hc)] at hs
  cases hs

/-- Where nothing may be passed on, stored or changed, the queues, fan-outs, known aliases,
pending controls and the log stay as they are. -/
structure Quiet (st st' : BrokerState ν) : Prop where
  mailbox : st'.mailbox = st.mailbox
  knownAliases : st'.knownAliases = st.knownAliases
  pendingCtl : st'.pendingCtl = st.pendingCtl
  delivered : st'.stats.mailboxDelivered = st.stats.mailboxDelivered
  dropped : st'.stats.mailboxDropped = st.stats.mailboxDropped
  groups : st'.groups = st.groups
  queued : st'.queued = st.queued
  refs : st'.refs = st.refs
  drops : ∃ more, st'.drops = st.drops ++ more
  writes : ∃ more, st'.writes = st.writes ++ more ∧ ∀ w ∈ more, w.callback.IsOwn

theorem Quiet.refl (st : BrokerState ν) : Quiet st st :=
  ⟨rfl, rfl, rfl, rfl, rfl, rfl, rfl, rfl, ⟨[], by simp⟩, ⟨[], by simp⟩⟩

theorem Quiet.trans {st st' st'' : BrokerState ν} (h : Quiet st st') (h' : Quiet st' st'') :
    Quiet st st'' := by
  obtain ⟨d, hd⟩ := h.drops
  obtain ⟨d', hd'⟩ := h'.drops
  obtain ⟨w, hw, hown⟩ := h.writes
  obtain ⟨w', hw', hown'⟩ := h'.writes
  refine ⟨h'.mailbox.trans h.mailbox, h'.knownAliases.trans h.knownAliases,
    h'.pendingCtl.trans h.pendingCtl, h'.delivered.trans h.delivered, h'.dropped.trans h.dropped, h'.groups.trans h.groups,
    h'.queued.trans h.queued, h'.refs.trans h.refs, ⟨d ++ d', by rw [hd', hd, List.append_assoc]⟩,
    ⟨w ++ w', by rw [hw', hw, List.append_assoc], ?_⟩⟩
  intro x hx
  rcases List.mem_append.mp hx with hx | hx
  · exact hown x hx
  · exact hown' x hx

theorem Quiet.aside {st st' : BrokerState ν} (h : Aside st st') : Quiet st st' :=
  ⟨h.mailbox, h.knownAliases, h.pendingCtl, h.delivered, h.dropped, h.groups, h.queued, h.refs,
    ⟨[], by rw [h.drops, List.append_nil]⟩, ⟨[], by rw [h.writes, List.append_nil], by simp⟩⟩

/-- The permits of a handler that only sends notices. -/
def noticesOnly : Permits ν := { drop := True }

theorem quiet_of_chain {st st' : BrokerState ν} (h : Chain env now noticesOnly st st') :
    Quiet st st' ∧ Dwindles st st' := by
  induction h with
  | refl => exact ⟨.refl _, .of_same rfl rfl rfl⟩
  | @tail b c _ hact ih =>
      have hone : Quiet b c ∧ Dwindles b c := by
        cases hact with
        | own sock stamp opts maxBytes cb hcb _ _ =>
            refine ⟨?_, attempt_dwindles _ _ _ _ _⟩
            obtain ⟨status, -, heq⟩ := attempt_eq b sock (buildFrame env.rt stamp opts) maxBytes cb
            rw [heq]
            exact ⟨rfl, rfl, rfl, rfl, rfl, rfl, rfl, rfl, ⟨[], by simp⟩, ⟨_, rfl, by simpa using hcb⟩⟩
        | close name peer h =>
            refine ⟨Quiet.trans ?_ (.aside (aside_destroy _ _)), dropPeer_dwindles _ _ _⟩
            exact ⟨rfl, rfl, rfl, rfl, rfl, rfl, rfl, rfl, ⟨[], by simp⟩, ⟨[], by simp⟩⟩
        | aside h => exact ⟨.aside h, h.dwindles⟩
        | touch p p' hP => exact hP.elim
        | groups hP => exact hP.elim
        | drop hP d =>
            exact ⟨⟨rfl, rfl, rfl, rfl, rfl, rfl, rfl, rfl, ⟨[d], rfl⟩, ⟨[], by simp⟩⟩,
              .of_same rfl rfl rfl⟩
        | control hP => exact hP.elim
        | relay target frame cb hP => exact hP.elim
        | flush peer m hP => exact hP.elim
        | enqueue name frame group hP => exact hP.elim
      exact ⟨ih.1.trans hone.1, ih.2.trans hone.2⟩

/-- The tables of `enqueue`, before its notices. -/
def BrokerState.storeMsg (env : Env) (now : Int) (st : BrokerState ν) (name : String)
    (frame : Members ν) (group : Option Nat) : BrokerState ν :=
  { st.setMail (enqueueMailbox st.mail env.cfg name ⟨st.refs, frame, now⟩ now).2 with
    refs := st.refs + 1, queued := st.queued ++ [⟨name, ⟨st.refs, frame, now⟩, group⟩] }

theorem enqueue_eq (env : Env) (now : Int) (st : BrokerState ν) (name : String)
    (frame : Members ν) (group : Option Nat) :
    enqueue env now st name frame group = notifyDropped env now
      (st.storeMsg env now name frame group)
      (enqueueMailbox st.mail env.cfg name ⟨st.refs, frame, now⟩ now).1 := rfl

/-- Storing a message is its tables and then notices. -/
theorem enqueue_quiet (env : Env) (now : Int) (st : BrokerState ν) (name : String)
    (frame : Members ν) (group : Option Nat) :
    Quiet (st.storeMsg env now name frame group) (enqueue env now st name frame group) ∧
      Dwindles st (enqueue env now st name frame group) := by
  have hchain : Chain env now noticesOnly (st.storeMsg env now name frame group)
      (enqueue env now st name frame group) := notifyDropped_chain trivial _
  obtain ⟨hquiet, hdw⟩ := quiet_of_chain hchain
  have hstore : Dwindles st (st.storeMsg env now name frame group) := .of_same rfl rfl rfl
  exact ⟨hquiet, hstore.trans hdw⟩

/-- Where records may not change, a chain only takes records, members and sockets away. -/
theorem dwindles_of_chain {st st' : BrokerState ν} (hP : ¬ P.touch)
    (h : Chain env now P st st') : Dwindles st st' := by
  induction h with
  | refl => exact .of_same rfl rfl rfl
  | tail _ hact ih =>
      refine ih.trans ?_
      cases hact with
      | own => exact attempt_dwindles _ _ _ _ _
      | close => exact dropPeer_dwindles _ _ _
      | aside h => exact h.dwindles
      | touch p p' ht => exact absurd ht hP
      | groups => exact .of_same rfl rfl rfl
      | drop => exact .of_same rfl rfl rfl
      | control => exact .of_same rfl rfl rfl
      | relay => exact attempt_dwindles _ _ _ _ _
      | flush => exact attempt_dwindles _ _ _ _ _
      | enqueue => exact (enqueue_quiet _ _ _ _ _ _).2

/-- No chain forgets an alias. -/
theorem knownAliases_of_chain {st st' : BrokerState ν} (h : Chain env now P st st') :
    st'.knownAliases = st.knownAliases := by
  induction h with
  | refl => rfl
  | @tail b c _ hact ih =>
      refine Eq.trans ?_ ih
      have hwrite : ∀ (sock : SocketId) (frame : Members ν) (maxBytes : Nat) (cb : WriteCallback ν),
          (attempt b sock frame maxBytes cb).1.knownAliases = b.knownAliases := by
        intro sock frame maxBytes cb
        obtain ⟨status, -, heq⟩ := attempt_eq b sock frame maxBytes cb
        rw [heq]
      cases hact with
      | own => exact hwrite _ _ _ _
      | close => exact (aside_destroy _ _).knownAliases
      | aside h => exact h.knownAliases
      | touch => rfl
      | groups => rfl
      | drop => rfl
      | control => rfl
      | relay => exact hwrite _ _ _ _
      | flush => exact hwrite _ _ _ _
      | enqueue => exact (enqueue_quiet _ _ _ _ _ _).1.knownAliases

theorem SamePeer.refl (p : PeerRecord ν) : SamePeer p p :=
  ⟨rfl, rfl, rfl, rfl, rfl, rfl, rfl⟩

theorem SamePeer.symm {p p' : PeerRecord ν} (h : SamePeer p p') : SamePeer p' p :=
  ⟨h.ref.symm, h.name.symm, h.socket.symm, h.rooms.symm, h.helloDone.symm, h.caps.symm,
    h.proto.symm⟩

theorem SamePeer.trans {p p' p'' : PeerRecord ν} (h : SamePeer p p') (h' : SamePeer p' p'') :
    SamePeer p p'' :=
  ⟨h'.ref.trans h.ref, h'.name.trans h.name, h'.socket.trans h.socket, h'.rooms.trans h.rooms,
    h'.helloDone.trans h.helloDone, h'.caps.trans h.caps, h'.proto.trans h.proto⟩

/-- A chain never makes a record: each one left was there, up to what `touch` may change. -/
theorem samePeer_of_chain {st st' : BrokerState ν} (h : Chain env now P st st') {name : String}
    {p' : PeerRecord ν} (hp : st'.peers.get? name = some p') :
    ∃ p, st.peers.get? name = some p ∧ SamePeer p p' := by
  induction h generalizing p' with
  | refl => exact ⟨p', hp, .refl p'⟩
  | @tail b c _ hact ih =>
      have hback : Dwindles b c → ∃ p, st.peers.get? name = some p ∧ SamePeer p p' :=
        fun hdw => ih (hdw.peers name p' hp)
      cases hact with
      | own => exact hback (attempt_dwindles _ _ _ _ _)
      | close => exact hback (dropPeer_dwindles _ _ _)
      | aside h => exact hback h.dwindles
      | touch q q' _ hq hsame =>
          simp only [BrokerState.updatePeer, Map.get?_set] at hp
          split at hp
          · next hname =>
              obtain rfl := Option.some.inj hp
              rw [hname, hsame.name] at ih
              obtain ⟨p, hp, hpq⟩ := ih hq
              rw [hname, hsame.name]
              exact ⟨p, hp, hpq.trans hsame⟩
          · exact ih hp
      | groups => exact hback (.of_same rfl rfl rfl)
      | drop => exact hback (.of_same rfl rfl rfl)
      | control => exact hback (.of_same rfl rfl rfl)
      | relay => exact hback (attempt_dwindles _ _ _ _ _)
      | flush => exact hback (attempt_dwindles _ _ _ _ _)
      | enqueue => exact hback (enqueue_quiet _ _ _ _ _ _).2

/-- An invariant of the records and the rooms alone has to survive a record closed and a
record touched; nothing else in a chain changes them. -/
theorem chain_tables {I : BrokerState ν → Prop}
    (hsame : ∀ {s s' : BrokerState ν}, I s → s'.peers = s.peers → s'.rooms = s.rooms → I s')
    (hclose : ∀ {s : BrokerState ν} {name : String} {peer : PeerRecord ν},
      s.peers.get? name = some peer → I s → I (s.dropPeer name peer))
    (htouch : ∀ {s : BrokerState ν} {p p' : PeerRecord ν},
      s.peers.get? p.name = some p → SamePeer p p' → I s → I (s.updatePeer p'))
    {st st' : BrokerState ν} (h : Chain env now P st st') (hst : I st) : I st' := by
  have hwrite : ∀ {s : BrokerState ν} (sock : SocketId) (frame : Members ν) (maxBytes : Nat)
      (cb : WriteCallback ν), I s → I (attempt s sock frame maxBytes cb).1 := by
    intro s sock frame maxBytes cb hs
    obtain ⟨status, -, heq⟩ := attempt_eq s sock frame maxBytes cb
    rw [heq]
    exact hsame hs rfl rfl
  have hnotices : ∀ {s s' : BrokerState ν}, Chain env now noticesOnly s s' → I s → I s' := by
    intro s s' hc hs
    refine chain_keeps (fun {a b} hact ha => ?_) hc hs
    cases hact with
    | own => exact hwrite _ _ _ _ ha
    | close name peer hpeer => exact hclose hpeer ha
    | aside hx => exact hsame ha hx.peers hx.rooms
    | touch p p' hP => exact hP.elim
    | groups hP => exact hP.elim
    | drop => exact hsame ha rfl rfl
    | control hP => exact hP.elim
    | relay target frame cb hP => exact hP.elim
    | flush peer m hP => exact hP.elim
    | enqueue name frame group hP => exact hP.elim
  refine chain_keeps (fun {a b} hact ha => ?_) h hst
  cases hact with
  | own => exact hwrite _ _ _ _ ha
  | close name peer hpeer => exact hclose hpeer ha
  | aside hx => exact hsame ha hx.peers hx.rooms
  | touch p p' _ hp hs => exact htouch hp hs ha
  | groups => exact hsame ha rfl rfl
  | drop => exact hsame ha rfl rfl
  | control => exact hsame ha rfl rfl
  | relay => exact hwrite _ _ _ _ ha
  | flush => exact hwrite _ _ _ _ ha
  | enqueue name frame group =>
      exact hnotices (notifyDropped_chain trivial _)
        (hsame ha rfl rfl)

/-! ### Callbacks -/

theorem logged_enqueue (env : Env) (now : Int) (st : BrokerState ν) (name : String)
    (group : Option Nat) {frame : Members ν} {sender id : String}
    (h : Carries frame sender id) : Logged (enqueue env now st name frame group) sender id := by
  refine ⟨⟨name, ⟨st.refs, frame, now⟩, group⟩, ?_, h⟩
  rw [(enqueue_quiet env now st name frame group).1.queued]
  exact List.mem_append_right _ (by simp)

/-- A callback that stores the frame when its write fails. -/
def WriteCallback.Stores : WriteCallback ν → Prop
  | .broadcastCopy _ _ => True
  | .direct _ _ _ _ _ => True
  | _ => False

/-- A callback of control traffic. -/
def WriteCallback.IsControl : WriteCallback ν → Prop
  | .ctl _ _ _ => True
  | .ctlAck _ => True
  | _ => False

/-- What a callback needs leave for: to store the frame again where it does, to tell the
sender so, to change the fan-out it belongs to, to forget the control it was for. -/
structure CallbackPermitted (P : Permits ν) (frame : Members ν) (cb : WriteCallback ν) : Prop where
  copy : ∀ g t, cb = .broadcastCopy g t → P.store t.name frame (some g)
  direct : ∀ s t id i r, cb = .direct s t id i r →
    P.store t.name frame none ∧ (Carries frame s.name id ∨ P.ack s id)
  groups : (∃ g t, cb = .broadcastCopy g t ∨ cb = .replyCopy g t) → P.groups
  control : cb.IsControl → P.control

/-- The record a write failed for is the one its alias has, or the alias is offline. -/
def Settles (st : BrokerState ν) (t : PeerRef) : Prop :=
  st.isCurrent t = true ∨ st.online t.name = none

theorem closePeer_gone (env : Env) (now : Int) (st : BrokerState ν) (name : String) :
    (closePeer env now st name).peers.get? name = none := by
  cases hpeer : st.peers.get? name with
  | none =>
      unfold closePeer
      rw [hpeer]
      exact hpeer
  | some peer =>
      by_contra hc
      obtain ⟨p, hp⟩ := Option.ne_none_iff_exists'.mp hc
      have hnotices : Chain env now noticesOnly (st.dropPeer name peer) (closePeer env now st name) :=
        closePeer_notices hpeer
      have hleft := (quiet_of_chain hnotices).2.peers name p hp
      have hpeers : (st.dropPeer name peer).peers = st.peers.delete name := (aside_destroy _ _).peers
      rw [hpeers, Map.get?_delete, if_pos rfl] at hleft
      cases hleft

/-- The record a write failed for is closed before anything is stored for its alias. -/
theorem closeIfCurrent_offline (env : Env) (now : Int) {t : PeerRef} (h : Settles st t) :
    (closeIfCurrent env now st t).online t.name = none := by
  unfold closeIfCurrent
  split
  · unfold BrokerState.online
    rw [closePeer_gone]
  · next hcur => exact h.resolve_left hcur

theorem runCallback_chain {frame : Members ν} {cb : WriteCallback ν} (ok : Bool)
    (h : CallbackPermitted P frame cb)
    (hbehind : ok = false → cb.Stores → ∀ t, cb.target? = some t →
      Settles st t ∨ P.behind t.name) :
    Chain env now P st (runCallback env now st frame ok cb) := by
  cases cb with
  | ignore => exact .refl
  | sendTo peer | flushed peer m =>
      simp only [runCallback]
      split
      · exact .refl
      · exact closeIfCurrent_chain peer
  | replyCopy g t =>
      have hg := h.groups ⟨g, t, .inr rfl⟩
      simp only [runCallback]
      split
      · exact (aside_addRelayed st 1).chain.tail (.groups hg _)
      · exact (closeIfCurrent_chain t).tail (.groups hg _)
  | broadcastCopy g t =>
      have hg := h.groups ⟨g, t, .inl rfl⟩
      simp only [runCallback]
      split
      · exact .single (.groups hg _)
      · next hok =>
          have hoff := (hbehind (by simpa using hok) trivial t rfl).imp_left
            (closeIfCurrent_offline env now)
          exact ((closeIfCurrent_chain t).tail (.enqueue _ _ _ (h.copy g t rfl) hoff)).tail
            (.groups hg _)
  | direct s t id i r =>
      obtain ⟨hstore, hack⟩ := h.direct s t id i r rfl
      simp only [runCallback]
      split
      · exact (aside_addRelayed st 1).chain.trans (sendAck_chain s id i none none r (by simp))
      · next hok =>
          have hoff := (hbehind (by simpa using hok) trivial t rfl).imp_left
            (closeIfCurrent_offline env now)
          have hstored : Chain env now P st
              (enqueue env now (closeIfCurrent env now st t) t.name frame) :=
            (closeIfCurrent_chain t).tail (.enqueue _ _ _ hstore hoff)
          have hlog := hack.imp_left
            (logged_enqueue env now (closeIfCurrent env now st t) t.name none)
          exact hstored.trans (sendQueuedAck_chain s id i none none r hlog)
  | onlineOnly s t id silentDrop =>
      simp only [runCallback]
      split
      · refine (aside_addRelayed st 1).chain.trans ?_
        split
        · exact .refl
        · exact sendAck_chain s id none none none none (by simp)
      · refine (closeIfCurrent_chain t).trans ?_
        split
        · exact .refl
        · exact sendAck_chain s id none none none none (by simp)
  | ctl s t id =>
      simp only [runCallback]
      split
      · exact (aside_addRelayed st 1).chain
      · refine ReflTransGen.trans (.single (.control (h.control trivial) (st.pendingCtl.delete id))) ?_
        exact (closeIfCurrent_chain t).trans (sendError_chain s.socket .unreachable (some id))
  | ctlAck t =>
      simp only [runCallback]
      split
      · exact (aside_addRelayed st 1).chain
      · exact .refl

/-- `relay` is one write, and its callback if the write fails on the spot. -/
theorem relay_chain {target : PeerRef} {frame : Members ν} {cb : WriteCallback ν}
    (hrelay : P.relay target frame cb) (h : CallbackPermitted P frame cb)
    (hcur : cb.Stores → ∀ t, cb.target? = some t → st.isCurrent t = true) :
    Chain env now P st (relay env now st target frame cb) := by
  have hwrite : Chain env now P st (attempt st target.socket frame env.cfg.maxFrameBytes cb).1 :=
    .single (.relay target frame cb hrelay)
  unfold relay
  cases ha : attempt st target.socket frame env.cfg.maxFrameBytes cb with
  | mk st' ok =>
      rw [ha] at hwrite
      have hpeers : st'.peers = st.peers := by
        obtain ⟨status, -, heq⟩ := attempt_eq st target.socket frame env.cfg.maxFrameBytes cb
        rw [ha] at heq
        rw [show st' = _ from heq]
      cases ok with
      | true => exact hwrite
      | false =>
          refine hwrite.trans (runCallback_chain false h fun _ hs t ht => .inl (.inl ?_))
          unfold BrokerState.isCurrent
          rw [hpeers]
          exact hcur hs t ht

end Chains

end PiMesh
