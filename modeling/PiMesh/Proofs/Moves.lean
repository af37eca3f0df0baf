/-
What a handler does, move by move.

Between the event that starts a handler and the tables it leaves behind a connection sees
only writes and closed records.  A `Move` is one of these with all that belongs to it: a
write, a record closed because a write for it failed, a record touched, or something no
connection sees.  Which frames are written is a parameter, so that one list of handlers
serves every property of the tables.
-/
import PiMesh.Proofs.Budgets
import PiMesh.Proofs.Deliveries

namespace PiMesh

open Js Transition BrokerState Relation

variable {ν : Type} [Number ν] [DecidableEq ν]

/-- Nothing a connection sees has changed. -/
structure Hushed (st st' : BrokerState ν) : Prop where
  peers : st'.peers = st.peers
  rooms : st'.rooms = st.rooms
  sockets : st'.sockets = st.sockets
  writes : st'.writes = st.writes

theorem Hushed.refl (st : BrokerState ν) : Hushed st st := ⟨rfl, rfl, rfl, rfl⟩

theorem Hushed.trans {st st' st'' : BrokerState ν} (h : Hushed st st') (h' : Hushed st' st'') :
    Hushed st st'' :=
  ⟨h'.peers.trans h.peers, h'.rooms.trans h.rooms, h'.sockets.trans h.sockets,
    h'.writes.trans h.writes⟩

/-- The record that goes when the write fails. -/
def WriteCallback.closes? : WriteCallback ν → Option PeerRef
  | .sendTo peer => some peer
  | .flushed peer _ => some peer
  | .replyCopy _ target => some target
  | .broadcastCopy _ target => some target
  | .direct _ target _ _ _ => some target
  | .onlineOnly _ target _ _ => some target
  | .ctl _ target _ => some target
  | _ => none

/-- One thing a handler does. -/
inductive Move (env : Env) (now : Int) (F : Members ν → Prop) :
    BrokerState ν → BrokerState ν → Prop
  | aside {st st' : BrokerState ν} (h : Hushed st st') : Move env now F st st'
  | touch {st : BrokerState ν} (p p' : PeerRecord ν) (h : st.peers.get? p.name = some p)
      (hsame : SamePeer p p') (hseen : p'.lastSeenAt = p.lastSeenAt) :
      Move env now F st (st.updatePeer p')
  | timer {st : BrokerState ν} (sock : SocketId) : Move env now F st (st.clearTimer sock)
  | write {st : BrokerState ν} (sock : SocketId) (frame : Members ν) (maxBytes : Nat)
      (cb : WriteCallback ν) (hF : F frame) :
      Move env now F st (attempt st sock frame maxBytes cb).1
  /-- A write failed at once, and its record goes. -/
  | fail {st s : BrokerState ν} (sock : SocketId) (frame : Members ν) (maxBytes : Nat)
      (cb : WriteCallback ν) (peer : PeerRef) (hF : F frame) (hcb : cb.closes? = some peer)
      (hfailed : (attempt st sock frame maxBytes cb).2 = false)
      (h : Hushed (attempt st sock frame maxBytes cb).1 s) :
      Move env now F st (closeIfCurrent env now s peer)

abbrev Moves (env : Env) (now : Int) (F : Members ν → Prop) :
    BrokerState ν → BrokerState ν → Prop := ReflTransGen (Move env now F)

/-- A frame that is no notice of who comes and goes. -/
def NotPresence (frame : Members ν) : Prop := frameType? frame ≠ some .presence

theorem notPresence_build (rt : Runtime) (stamp : Stamp) {opts : BuildFrameOpts ν}
    (h : opts.type ≠ .presence) : NotPresence (buildFrame rt stamp opts) := by
  unfold NotPresence
  rw [frameType?_buildFrame]
  exact fun heq => h (Option.some.inj heq)

theorem notPresence_mailbox (rt : Runtime) (m : StoredMsg ν) : NotPresence (mailboxFrame rt m) := by
  unfold NotPresence
  rw [frameType?_mailboxFrame]
  simp

theorem notPresence_with {raw : Members ν} (h : NotPresence raw) {k : String} (v : Json ν)
    (hk : k ≠ "type") : NotPresence (withMember raw k v) := by
  unfold NotPresence frameType? at h ⊢
  rw [getOf_withMember, if_neg hk.symm]
  exact h

theorem notPresence_routed {raw : Members ν} (decision : PolicyDecision) (priority : MeshPriority)
    (h : NotPresence raw) : NotPresence (routed decision priority raw).1 := by
  unfold NotPresence frameType? at h ⊢
  rw [getOf_routed _ _ _ (by simp)]
  exact h

section Moves

variable {env : Env} {now : Int} {F : Members ν → Prop} {st st' : BrokerState ν}

theorem Hushed.moves (h : Hushed st st') : Moves env now F st st' := .single (.aside h)

/-- What nobody sees may come first. -/
theorem Moves.after {s : BrokerState ν} (h : Moves env now F s st') (hs : Hushed st s) :
    Moves env now F st st' := hs.moves.trans h

theorem moves_foldl {α : Type} {f : BrokerState ν → α → BrokerState ν} (l : List α)
    (hf : ∀ s, ∀ a ∈ l, Moves env now F s (f s a)) (st : BrokerState ν) :
    Moves env now F st (l.foldl f st) := by
  induction l generalizing st with
  | nil => exact .refl
  | cons a rest ih =>
      have hhead : Moves env now F st (f st a) := hf st a (by simp)
      exact hhead.trans (ih (fun s b hb => hf s b (by simp [hb])) (f st a))

/-! ### Closing a record -/

/-- Only notices are written, whose callbacks do nothing. -/
structure Notified (st st' : BrokerState ν) : Prop where
  peers : st'.peers = st.peers
  rooms : st'.rooms = st.rooms
  sockets : st'.sockets = st.sockets
  writes : ∃ more, st'.writes = st.writes ++ more ∧ ∀ w ∈ more, w.callback = .ignore

theorem Notified.refl (st : BrokerState ν) : Notified st st := ⟨rfl, rfl, rfl, [], by simp⟩

theorem Notified.trans {st st' st'' : BrokerState ν} (h : Notified st st')
    (h' : Notified st' st'') : Notified st st'' := by
  obtain ⟨more, hmore, hcb⟩ := h.writes
  obtain ⟨more', hmore', hcb'⟩ := h'.writes
  refine ⟨h'.peers.trans h.peers, h'.rooms.trans h.rooms, h'.sockets.trans h.sockets,
    more ++ more', by rw [hmore', hmore, List.append_assoc], ?_⟩
  intro w hw
  rcases List.mem_append.mp hw with hw | hw
  · exact hcb w hw
  · exact hcb' w hw

theorem Notified.foldl {α : Type} {f : BrokerState ν → α → BrokerState ν}
    (hf : ∀ s a, Notified s (f s a)) (l : List α) (st : BrokerState ν) : Notified st (l.foldl f st) := by
  induction l generalizing st with
  | nil => exact .refl st
  | cons a rest ih => exact (hf st a).trans (ih (f st a))

theorem writeIgnored_noted (sock : SocketId) (frame : Members ν) (maxBytes : Nat) :
    Notified st (writeIgnored st sock frame maxBytes) := by
  obtain ⟨status, -, heq⟩ := attempt_eq st sock frame maxBytes .ignore
  unfold writeIgnored
  rw [heq]
  exact ⟨rfl, rfl, rfl, [_], rfl, by simp⟩

theorem useId_noted : Notified st st.useId := ⟨rfl, rfl, rfl, [], by simp [BrokerState.useId]⟩

/-- A closed record: gone from its rooms, its socket destroyed, and notices. -/
theorem closePeer_noted (env : Env) (now : Int) {name : String} {peer : PeerRecord ν}
    (h : st.peers.get? name = some peer) :
    Notified (({ st with rooms := detachFromRooms st.rooms peer, peers := st.peers.delete name }
      : BrokerState ν).destroy peer.socket) (closePeer env now st name) := by
  unfold closePeer
  rw [h]
  dsimp only
  have hrooms : ∀ s : BrokerState ν, Notified s (peer.rooms.keys.foldl (fun st room =>
      let frame := presenceFrame env now st name "offline" room none none
      broadcastToRoom st.useId room name fun st p =>
        writeIgnored st p.socket frame defaultMaxFrameBytes) s) := by
    refine Notified.foldl (fun s room => useId_noted.trans ?_) _
    unfold broadcastToRoom
    split
    · exact .refl _
    · refine Notified.foldl (fun s member => ?_) _ _
      split
      · exact .refl s
      · split
        · exact writeIgnored_noted _ _ _
        · exact .refl s
  refine (hrooms _).trans ?_
  split
  · exact .refl _
  · exact Notified.foldl (fun s p => useId_noted.trans (writeIgnored_noted _ _ _)) _ _

/-- What a closed record was, if it was there. -/
theorem closeIfCurrent_cases (env : Env) (now : Int) (st : BrokerState ν) (peer : PeerRef) :
    closeIfCurrent env now st peer = st ∨ ∃ p, st.peers.get? peer.name = some p ∧ p.ref = peer.ref ∧
      closeIfCurrent env now st peer = closePeer env now st peer.name := by
  unfold closeIfCurrent
  split
  · next hcur =>
      unfold BrokerState.isCurrent at hcur
      split at hcur
      · next p hp => exact .inr ⟨p, hp, eq_of_beq hcur, rfl⟩
      · cases hcur
  · exact .inl rfl

theorem destroy_peers (sock : SocketId) : (st.destroy sock).peers = st.peers :=
  (aside_destroy st sock).peers

/-- Over moves a record is only touched. -/
theorem samePeer_of_moves (h : Moves env now F st st') {name : String} {p : PeerRecord ν}
    (hp : st'.peers.get? name = some p) :
    ∃ p₀, st.peers.get? name = some p₀ ∧ SamePeer p₀ p ∧ p.lastSeenAt = p₀.lastSeenAt := by
  induction h generalizing p with
  | refl => exact ⟨p, hp, .refl p, rfl⟩
  | @tail s s' _ hmove ih =>
      have hback : ∃ p₀, s.peers.get? name = some p₀ ∧ SamePeer p₀ p ∧
          p.lastSeenAt = p₀.lastSeenAt := by
        have hself : s'.peers = s.peers → ∃ p₀, s.peers.get? name = some p₀ ∧ SamePeer p₀ p ∧
            p.lastSeenAt = p₀.lastSeenAt := by
          intro hsame
          rw [hsame] at hp
          exact ⟨p, hp, .refl p, rfl⟩
        cases hmove with
        | aside h => exact hself h.peers
        | timer sock => exact hself (aside_clearTimer s sock).peers
        | write sock frame maxBytes cb _ =>
            obtain ⟨status, -, heq⟩ := attempt_eq s sock frame maxBytes cb
            exact hself (by rw [heq])
        | touch q q' hq hsame hseen =>
            simp only [BrokerState.updatePeer, Map.get?_set] at hp
            split at hp
            · next hname =>
                obtain rfl := Option.some.inj hp
                rw [hname, hsame.name]
                exact ⟨q, hq, hsame, hseen⟩
            · exact ⟨p, hp, .refl p, rfl⟩
        | @fail t sock frame maxBytes cb peer _ _ _ hhush =>
            obtain ⟨status, -, heq⟩ := attempt_eq s sock frame maxBytes cb
            have hpeers : t.peers = s.peers := by rw [hhush.peers, heq]
            rcases closeIfCurrent_cases env now t peer with
              hno | ⟨q, hq, -, hclose⟩
            · rw [hno] at hp hself
              exact hself hpeers
            · rw [hclose, (closePeer_noted env now hq).peers, destroy_peers] at hp
              have hget : t.peers.get? name = some p := by
                rw [show ({ t with rooms := _, peers := t.peers.delete peer.name } : BrokerState ν).peers
                  = t.peers.delete peer.name from rfl, Map.get?_delete] at hp
                split at hp
                · cases hp
                · exact hp
              rw [hpeers] at hget
              exact ⟨p, hget, .refl p, rfl⟩
      obtain ⟨p₁, hp₁, hsame, hseen⟩ := hback
      obtain ⟨p₀, hp₀, hsame₀, hseen₀⟩ := ih hp₁
      exact ⟨p₀, hp₀, hsame₀.trans hsame, hseen.trans hseen₀⟩

/-! ### Writes -/

theorem useId_moves : Moves env now F st st.useId := Hushed.moves ⟨rfl, rfl, rfl, rfl⟩

theorem sendWith_moves (peer : PeerRef) {frame : Members ν} {cb : WriteCallback ν} (hF : F frame)
    (hcb : cb.closes? = some peer) : Moves env now F st (sendWith env now st peer frame cb) := by
  unfold sendWith
  cases ha : attempt st peer.socket frame env.cfg.maxFrameBytes cb with
  | mk s ok =>
      have hs : (attempt st peer.socket frame env.cfg.maxFrameBytes cb).1 = s := by rw [ha]
      cases ok with
      | true =>
          rw [← hs]
          exact .single (.write peer.socket frame _ cb hF)
      | false =>
          refine .single (.fail peer.socket frame env.cfg.maxFrameBytes cb peer hF hcb ?_ ?_)
          · rw [ha]
          · rw [hs]
            exact .refl s

theorem sendTo_moves (peer : PeerRef) {frame : Members ν} (hF : F frame) :
    Moves env now F st (sendTo env now st peer frame) := sendWith_moves peer hF rfl

theorem broadcastToRoom_moves (room : RoomKey ν) (exclude : String)
    {write : BrokerState ν → PeerRecord ν → BrokerState ν}
    (hw : ∀ s p, Moves env now F s (write s p)) :
    Moves env now F st (broadcastToRoom st room exclude write) := by
  unfold broadcastToRoom
  split
  · exact .refl
  · refine moves_foldl _ (fun s name _ => ?_) st
    split
    · exact .refl
    · split
      · exact hw s _
      · exact .refl

variable (hF : ∀ frame, NotPresence frame → F frame)

include hF

theorem sendError_moves (sock : SocketId) (code : MeshErrorCode) (id : Option String) :
    Moves env now F st (sendError env now st sock code id) := by
  unfold sendError
  have hid : Moves env now F st (if id.isSome then st else st.useId) := by
    split
    · exact .refl
    · exact useId_moves
  exact hid.tail (.write sock _ _ .ignore (hF _ (notPresence_build _ _ (by simp))))

theorem refuse_moves (sock : SocketId) (code : MeshErrorCode) (id : String) :
    Moves env now F st (refuse env now st sock code id) := by
  have hcount : Moves env now F st st.addRefused := Hushed.moves ⟨rfl, rfl, rfl, rfl⟩
  exact hcount.trans (sendError_moves hF sock code (some id))

theorem sendAck_moves (peer : PeerRef) (id : String) (status : AckStatus)
    (interruptStatus : Option String) (deliveredCount totalCount : Option Nat)
    (routedTo : Option String) :
    Moves env now F st
      (sendAck env now st peer id status interruptStatus deliveredCount totalCount routedTo) :=
  sendTo_moves peer (hF _ (notPresence_build _ _ (by simp)))

theorem sendLease_moves (peer : PeerRef) (id : String) (opts : BuildFrameOpts ν) :
    Moves env now F st (sendLease env now st peer id opts) :=
  sendTo_moves peer (hF _ (notPresence_build _ _ (by simp)))

theorem notifyDropped_moves (dropped : List (StoredMsg ν)) :
    Moves env now F st (notifyDropped env now st dropped) := by
  refine moves_foldl dropped (fun s m _ => ?_) st
  have hdrop : ∀ told, Moves env now F s { s with drops := s.drops ++ [⟨m, told⟩] } :=
    fun _ => Hushed.moves ⟨rfl, rfl, rfl, rfl⟩
  split
  · exact hdrop false
  · exact (hdrop true).trans (sendTo_moves _ (hF _ (notPresence_build _ _ (by simp))))

theorem broadcastReservations_moves (name : String) (reservations : List (Json ν)) :
    Moves env now F st (broadcastReservations env now st name reservations) := by
  unfold broadcastReservations
  refine useId_moves.trans (moves_foldl _ (fun s p _ => ?_) _)
  split
  · exact .refl
  · exact sendTo_moves p.toRef (hF _ (notPresence_build _ _ (by simp)))

theorem enqueue_moves (name : String) (frame : Members ν) (group : Option Nat) :
    Moves env now F st (enqueue env now st name frame group) := by
  unfold enqueue
  have hstore : Moves env now F st
      { st.setMail (enqueueMailbox st.mail env.cfg name ⟨st.refs, frame, now⟩ now).2 with
        refs := st.refs + 1
        queued := st.queued ++ [⟨name, ⟨st.refs, frame, now⟩, group⟩] } :=
    Hushed.moves ⟨rfl, rfl, rfl, rfl⟩
  exact hstore.trans (notifyDropped_moves hF _)

/-! ### Callbacks -/

theorem runCallback_arrived (frame : Members ν) (cb : WriteCallback ν) :
    Moves env now F st (runCallback env now st frame true cb) := by
  have hrelayed : Moves env now F st (st.addRelayed 1) := Hushed.moves ⟨rfl, rfl, rfl, rfl⟩
  have hgroup : ∀ (s : BrokerState ν) g f, Moves env now F s (s.modifyGroup g f) :=
    fun _ _ _ => Hushed.moves ⟨rfl, rfl, rfl, rfl⟩
  cases cb with
  | ignore => exact .refl
  | sendTo peer => exact .refl
  | flushed peer m => exact .refl
  | replyCopy g t => exact hrelayed.trans (hgroup _ g _)
  | broadcastCopy g t => exact hgroup st g _
  | direct s t id i r =>
      simp only [runCallback, if_true]
      exact hrelayed.trans (sendAck_moves hF s id _ _ _ _ _)
  | onlineOnly s t id silentDrop =>
      simp only [runCallback, if_true]
      split
      · exact hrelayed
      · exact hrelayed.trans (sendAck_moves hF s id _ _ _ _ _)
  | ctl s t id => exact hrelayed
  | ctlAck t => exact hrelayed

/-- The record a failed write leaves behind. -/
def closedFor (env : Env) (now : Int) (st : BrokerState ν) (cb : WriteCallback ν) : BrokerState ν :=
  match cb.closes? with
  | some peer => closeIfCurrent env now st peer
  | none => st

/-- When a write fails its record goes first, and what follows are moves. -/
theorem runCallback_failed (env : Env) (now : Int) (st : BrokerState ν) (frame : Members ν)
    (cb : WriteCallback ν) : ∃ s, Hushed st s ∧
      Moves env now F (closedFor env now s cb) (runCallback env now st frame false cb) := by
  have hgroup : ∀ (s : BrokerState ν) g f, Moves env now F s (s.modifyGroup g f) :=
    fun _ _ _ => Hushed.moves ⟨rfl, rfl, rfl, rfl⟩
  cases cb with
  | ignore => exact ⟨st, .refl st, .refl⟩
  | sendTo peer => exact ⟨st, .refl st, .refl⟩
  | flushed peer m => exact ⟨st, .refl st, .refl⟩
  | replyCopy g t => exact ⟨st, .refl st, hgroup _ g _⟩
  | broadcastCopy g t =>
      refine ⟨st, .refl st, ?_⟩
      simp only [runCallback, closedFor, WriteCallback.closes?, Bool.false_eq_true, if_false]
      exact (enqueue_moves hF t.name frame (some g)).trans (hgroup _ g _)
  | direct s t id i r =>
      refine ⟨st, .refl st, ?_⟩
      simp only [runCallback, closedFor, WriteCallback.closes?, Bool.false_eq_true, if_false]
      exact (enqueue_moves hF t.name frame none).trans (sendAck_moves hF s id _ _ _ _ _)
  | onlineOnly s t id silentDrop =>
      refine ⟨st, .refl st, ?_⟩
      simp only [runCallback, closedFor, WriteCallback.closes?, Bool.false_eq_true, if_false]
      split
      · exact .refl
      · exact sendAck_moves hF s id _ _ _ _ _
  | ctl s t id =>
      exact ⟨{ st with pendingCtl := st.pendingCtl.delete id }, ⟨rfl, rfl, rfl, rfl⟩,
        sendError_moves hF s.socket _ _⟩
  | ctlAck t => exact ⟨st, .refl st, .refl⟩

theorem relay_moves (target : PeerRef) {frame : Members ν} (cb : WriteCallback ν)
    (hframe : F frame) : Moves env now F st (relay env now st target frame cb) := by
  unfold relay
  cases ha : attempt st target.socket frame env.cfg.maxFrameBytes cb with
  | mk s ok =>
      have hs : (attempt st target.socket frame env.cfg.maxFrameBytes cb).1 = s := by rw [ha]
      have hwrite : Moves env now F st s := by
        rw [← hs]
        exact .single (.write target.socket frame _ cb hframe)
      cases ok with
      | true => exact hwrite
      | false =>
          obtain ⟨s', hhush, hafter⟩ := runCallback_failed hF env now s frame cb
          unfold closedFor at hafter
          cases hcb : cb.closes? with
          | none =>
              rw [hcb] at hafter
              exact (hwrite.trans hhush.moves).trans hafter
          | some peer =>
              rw [hcb] at hafter
              refine ReflTransGen.trans (.single (.fail target.socket frame
                env.cfg.maxFrameBytes cb peer hframe hcb ?_ ?_)) hafter
              · rw [ha]
              · rw [hs]
                exact hhush

end Moves

/-! ### Frames passed on -/

section Routes

variable {env : Env} {now : Int} {F : Members ν → Prop} {st st' : BrokerState ν}
  {sender : PeerRecord ν} {frame : MeshFrame ν}

theorem takeRate_moves (name : String) (kind : RateKind) :
    Moves env now F st (takeRate env now st name kind).2 := Hushed.moves ⟨rfl, rfl, rfl, rfl⟩

variable (hF : ∀ frame, NotPresence frame → F frame) (hraw : NotPresence frame.raw)

include hF hraw

theorem broadcastOne_moves (g : Nat) (key : RoomKey ν) (member : String) :
    Moves env now F st (broadcastOne env now g key frame.raw st member) := by
  have hgroup : ∀ (s : BrokerState ν) f, Moves env now F s (s.modifyGroup g f) :=
    fun _ _ => Hushed.moves ⟨rfl, rfl, rfl, rfl⟩
  unfold broadcastOne
  split
  · exact .refl
  · dsimp only
    split
    · exact ((hgroup st _).trans (hgroup _ _)).trans (relay_moves hF _ _ (hF _ hraw))
    · refine (hgroup st Group.count).trans ?_
      split
      · exact enqueue_moves hF member frame.raw (some g)
      · exact .refl

theorem routeBroadcast_moves (room : String) :
    Moves env now F st (routeBroadcast env now st sender frame room) := by
  unfold routeBroadcast
  dsimp only
  split
  · exact refuse_moves hF _ _ _
  · exact refuse_moves hF _ _ _
  · split
    · exact refuse_moves hF _ _ _
    · refine (takeRate_moves sender.name (rateKind (frame.priority.getD .normal))).trans ?_
      split
      · exact refuse_moves hF _ _ _
      · split
        · exact refuse_moves hF _ _ _
        · refine Moves.after (moves_foldl _ (fun s member _ => ?_) _) ⟨rfl, rfl, rfl, rfl⟩
          exact broadcastOne_moves hF hraw _ _ member

theorem routeDirect_moves (room target : String) :
    Moves env now F st (routeDirect env now st sender frame room target) := by
  unfold routeDirect
  dsimp only
  split
  · exact refuse_moves hF _ _ _
  · split
    · exact refuse_moves hF _ _ _
    · refine (takeRate_moves sender.name (rateKind (frame.priority.getD .normal))).trans ?_
      split
      · exact refuse_moves hF _ _ _
      · split
        · exact refuse_moves hF _ _ _
        · split
          · exact relay_moves hF _ _ (hF _ (notPresence_routed _ _ hraw))
          · have hrelayed : ∀ s : BrokerState ν, Moves env now F s (s.addRelayed 1) :=
              fun _ => Hushed.moves ⟨rfl, rfl, rfl, rfl⟩
            exact ((enqueue_moves hF target _ none).trans (hrelayed _)).trans
              (sendAck_moves hF _ _ _ _ _ _ _)

theorem routeCapMsg_moves (cap room : String) :
    Moves env now F st (routeCapMsg env now st sender frame cap room) := by
  unfold routeCapMsg
  dsimp only
  refine (takeRate_moves sender.name (rateKind (frame.priority.getD .normal))).trans ?_
  split
  · exact refuse_moves hF _ _ _
  · split
    · exact refuse_moves hF _ _ _
    · split
      · exact refuse_moves hF _ _ _
      · split
        · exact refuse_moves hF _ _ _
        · refine relay_moves hF _ _ (hF _ (notPresence_routed _ _ ?_))
          refine notPresence_with (notPresence_with (notPresence_with hraw _ ?_) _ ?_) _ ?_
          · simp
          · simp
          · simp

theorem routeMsg_moves : Moves env now F st (routeMsg env now st sender frame) := by
  unfold routeMsg
  dsimp only
  split
  · exact routeBroadcast_moves hF hraw _
  · split
    · exact refuse_moves hF _ _ _
    · split
      · exact refuse_moves hF _ _ _
      · exact refuse_moves hF _ _ _
      · split
        · exact routeCapMsg_moves hF hraw _ _
        · exact routeDirect_moves hF hraw _ _

theorem replyFan_moves (names : List String) :
    Moves env now F st (replyFan env now st sender frame names) := by
  unfold replyFan
  refine Moves.after (moves_foldl _ (fun s member _ => ?_) _) ⟨rfl, rfl, rfl, rfl⟩
  unfold replyOne
  split
  · exact .refl
  · have hgroup : ∀ (s : BrokerState ν) g f, Moves env now F s (s.modifyGroup g f) :=
      fun _ _ _ => Hushed.moves ⟨rfl, rfl, rfl, rfl⟩
    exact ((hgroup s _ _).trans (hgroup _ _ _)).trans (relay_moves hF _ _ (hF _ hraw))

theorem routeOnlineOnly_moves (silentDrop : Bool) :
    Moves env now F st (routeOnlineOnly env now st sender frame silentDrop) := by
  unfold routeOnlineOnly
  split
  · exact relay_moves hF _ _ (hF _ hraw)
  · split
    · exact .refl
    · exact sendAck_moves hF _ _ _ _ _ _ _

theorem routeReply_moves : Moves env now F st (routeReply env now st sender frame) := by
  unfold routeReply
  dsimp only
  refine (takeRate_moves sender.name .msg).trans ?_
  split
  · exact sendError_moves hF _ _ _
  · split
    · unfold routeReplyAll
      dsimp only
      split
      · exact sendAck_moves hF _ _ _ _ _ _ _
      · exact replyFan_moves hF hraw _
    · split
      · exact replyFan_moves hF hraw _
      · exact routeOnlineOnly_moves hF hraw false

theorem handleCtl_moves : Moves env now F st (handleCtl env now st sender frame) := by
  unfold handleCtl
  split
  · exact sendError_moves hF _ _ _
  · dsimp only
    split
    · exact refuse_moves hF _ _ _
    · exact refuse_moves hF _ _ _
    · split
      · exact sendError_moves hF _ _ _
      · split
        · exact refuse_moves hF _ _ _
        · split
          · exact refuse_moves hF _ _ _
          · refine (takeRate_moves sender.name (rateKind (ctlPriority frame.action))).trans ?_
            split
            · exact refuse_moves hF _ _ _
            · exact Moves.after (relay_moves hF _ _ (hF _ hraw)) ⟨rfl, rfl, rfl, rfl⟩

theorem handleCtlAck_moves : Moves env now F st (handleCtlAck env now st sender frame) := by
  unfold handleCtlAck
  split
  · exact .refl
  · next replyTo _ =>
      split
      · exact .refl
      · split
        · exact .refl
        · split
          · exact .refl
          · have hforget : Moves env now F st
                { st with pendingCtl := st.pendingCtl.delete replyTo } :=
              Hushed.moves ⟨rfl, rfl, rfl, rfl⟩
            dsimp only
            split
            · exact hforget
            · exact hforget.trans (relay_moves hF _ _ (hF _ hraw))

end Routes

/-! ### Handlers of a peer -/

section Handlers

variable {env : Env} {now : Int} {F : Members ν → Prop} {st st' : BrokerState ν}
  {peer : PeerRecord ν} {frame : MeshFrame ν} (hF : ∀ frame, NotPresence frame → F frame)

include hF

theorem handleClaim_moves : Moves env now F st (handleClaim env now st peer frame) := by
  unfold handleClaim
  dsimp only
  split
  · exact sendError_moves hF _ _ _
  · split
    · exact Moves.after (sendLease_moves hF _ _ _) ⟨rfl, rfl, rfl, rfl⟩
    · exact Moves.after (sendLease_moves hF _ _ _) ⟨rfl, rfl, rfl, rfl⟩
    · exact Moves.after (sendLease_moves hF _ _ _) ⟨rfl, rfl, rfl, rfl⟩

theorem handleRelease_moves : Moves env now F st (handleRelease env now st peer frame) := by
  unfold handleRelease
  dsimp only
  split
  · exact sendError_moves hF _ _ _
  · split
    · exact Moves.after (sendLease_moves hF _ _ _) ⟨rfl, rfl, rfl, rfl⟩
    · exact Moves.after (sendLease_moves hF _ _ _) ⟨rfl, rfl, rfl, rfl⟩

theorem handleLeaseStatus_moves : Moves env now F st (handleLeaseStatus env now st peer frame) := by
  unfold handleLeaseStatus
  dsimp only
  split
  · exact Moves.after (sendLease_moves hF _ _ _) ⟨rfl, rfl, rfl, rfl⟩
  · exact Moves.after (sendLease_moves hF _ _ _) ⟨rfl, rfl, rfl, rfl⟩

theorem handleReserve_moves {reservations : List (Json ν)}
    (hcur : st.peers.get? peer.name = some peer) :
    Moves env now F st (sendAck env now (broadcastReservations env now
      (st.updatePeer { peer with reservations }) peer.name reservations) peer.toRef frame.id .ok) := by
  have htouch : Moves env now F st (st.updatePeer { peer with reservations }) :=
    .single (.touch peer _ hcur ⟨rfl, rfl, rfl, rfl, rfl, rfl, rfl⟩ rfl)
  exact (htouch.trans (broadcastReservations_moves hF _ _)).trans (sendAck_moves hF _ _ _ _ _ _ _)

theorem handleActivity_moves (hcur : st.peers.get? peer.name = some peer) :
    Moves env now F st (handleActivity env now st peer frame) := by
  unfold handleActivity
  have htouch : Moves env now F st (st.updatePeer { peer with
      activity := some ⟨activityState frame.status, env.rt.toISOString now⟩ }) :=
    .single (.touch peer _ hcur ⟨rfl, rfl, rfl, rfl, rfl, rfl, rfl⟩ rfl)
  refine htouch.trans (moves_foldl _ (fun s room _ => ?_) _)
  refine useId_moves.trans (broadcastToRoom_moves room _ fun s p => ?_)
  exact sendTo_moves p.toRef (hF _ (notPresence_build _ _ (by simp)))

/-- A welcome, but for the notices between what comes before them and after. -/
theorem welcome_parts (id : String) : ∃ s, Moves env now F st s ∧
    Moves env now F (announceOnline env now s peer) (welcome env now st peer id) := by
  unfold welcome
  generalize flushMailbox st.mail env.cfg peer.name now = flush
  obtain ⟨fresh, dropped, mail⟩ := flush
  have hmail : Moves env now F st (st.setMail mail) := Hushed.moves ⟨rfl, rfl, rfl, rfl⟩
  have hwelcome : ∀ s : BrokerState ν, Moves env now F s
      (sendTo env now s peer.toRef (welcomeFrame env now s peer id fresh.length)) :=
    fun s => sendTo_moves peer.toRef (hF _ (notPresence_build _ _ (by simp)))
  have hflush : ∀ s : BrokerState ν, Moves env now F s (sendMailbox env now s peer.toRef fresh) :=
    fun s => moves_foldl fresh (fun s m _ =>
      sendWith_moves peer.toRef (hF _ (notPresence_mailbox env.rt m)) rfl) s
  refine ⟨_, hmail.trans ((notifyDropped_moves hF dropped).trans
    ((hwelcome _).trans (hflush _))), ?_⟩
  dsimp only
  split
  · exact .refl
  · exact broadcastReservations_moves hF _ _

/-- A frame of a peer, if it does not change the rooms. -/
theorem dispatchPeer_moves {sock : SocketId} (hcur : st.peers.get? peer.name = some peer)
    (hraw : NotPresence frame.raw) (hjoin : frame.type ≠ .join) (hleave : frame.type ≠ .leave)
    (h : dispatchPeer env now st sock peer frame = .ok st') : Moves env now F st st' := by
  unfold dispatchPeer at h
  split at h
  · obtain rfl := Except.ok.inj h
    exact handleClaim_moves hF
  · obtain rfl := Except.ok.inj h
    exact handleRelease_moves hF
  · obtain rfl := Except.ok.inj h
    exact handleLeaseStatus_moves hF
  · obtain rfl := Except.ok.inj h
    exact routeMsg_moves hF hraw
  · obtain rfl := Except.ok.inj h
    exact handleReserve_moves hF hcur
  · obtain rfl := Except.ok.inj h
    exact routeReply_moves hF hraw
  · obtain rfl := Except.ok.inj h
    exact routeOnlineOnly_moves hF hraw true
  · obtain rfl := Except.ok.inj h
    exact routeOnlineOnly_moves hF hraw true
  · obtain rfl := Except.ok.inj h
    exact handleCtl_moves hF hraw
  · obtain rfl := Except.ok.inj h
    exact handleCtlAck_moves hF hraw
  · obtain rfl := Except.ok.inj h
    exact handleActivity_moves hF hcur
  · obtain rfl := Except.ok.inj h
    exact sendTo_moves _ (hF _ (notPresence_build _ _ (by simp)))
  · obtain rfl := Except.ok.inj h
    exact sendTo_moves _ (hF _ (notPresence_build _ _ (by simp)))
  · next htype => exact absurd htype hjoin
  · next htype => exact absurd htype hleave
  · obtain rfl := Except.ok.inj h
    exact sendError_moves hF _ _ _

/-! ### Handlers of the broker's own -/

theorem handleSettled_moves (g : Nat) : Moves env now F st (handleSettled env now st g) := by
  unfold handleSettled
  split
  · next gr _ =>
      by_cases hready : gr.waiting = 0 ∧ gr.acked = false
      · rw [if_pos hready]
        have hanswer : Moves env now F st (st.modifyGroup g Group.answer) :=
          Hushed.moves ⟨rfl, rfl, rfl, rfl⟩
        refine hanswer.trans ?_
        dsimp only
        split
        · split
          · exact sendAck_moves hF _ _ _ _ _ _ _
          · exact sendAck_moves hF _ _ _ _ _ _ _
        · have hrelayed : ∀ (s : BrokerState ν) n, Moves env now F s (s.addRelayed n) :=
            fun _ _ => Hushed.moves ⟨rfl, rfl, rfl, rfl⟩
          exact (hrelayed _ _).trans (sendAck_moves hF _ _ _ _ _ _ _)
      · rw [if_neg hready]
  · exact .refl

theorem handlePurge_moves : Moves env now F st (handlePurge env now st) := by
  unfold handlePurge
  have hmail : Moves env now F st (st.setMail (purgeAllExpired st.mail env.cfg now).2) :=
    Hushed.moves ⟨rfl, rfl, rfl, rfl⟩
  exact hmail.trans (notifyDropped_moves hF _)

/-- A record the sweep looked at, if it is still the one under its alias. -/
theorem expireReservations_moves {s : BrokerState ν} (hcur : st.peers.get? peer.name = some peer)
    (hs : Moves env now F st s) : Moves env now F s (expireReservations env now s peer) := by
  unfold expireReservations
  dsimp only
  have htouch : Moves env now F s (if s.isCurrent peer.toRef then s.updatePeer { peer with
      reservations := peer.reservations.filter (isCurrentReservation env now) } else s) := by
    split
    · next hcurrent =>
        unfold BrokerState.isCurrent at hcurrent
        split at hcurrent
        · next p hp =>
            obtain ⟨p₀, hp₀, hsame, hseen⟩ := samePeer_of_moves hs hp
            obtain rfl : peer = p₀ := Option.some.inj (hcur.symm.trans hp₀)
            refine .single (.touch p _ ?_ (hsame.symm.trans ⟨rfl, rfl, rfl, rfl, rfl, rfl, rfl⟩)
              hseen.symm)
            rw [hsame.name]
            exact hp
        · cases hcurrent
    · exact .refl
  refine htouch.trans ?_
  by_cases hfewer : (peer.reservations.filter (isCurrentReservation env now)).length
      < peer.reservations.length
  · rw [if_pos hfewer]
    exact broadcastReservations_moves hF _ _
  · rw [if_neg hfewer]

/-- The sweep, but for the silent sockets. -/
theorem handleSweep_moves (hkeyed : Keyed st) :
    Moves env now F (pruneStaleKnownAliases now (st.silence env now)) (handleSweep env now st) := by
  unfold handleSweep
  dsimp only
  split
  · have hloop : ∀ (peers : List (PeerRecord ν)) (s : BrokerState ν),
        (∀ p ∈ peers, st.peers.get? p.name = some p) →
        Moves env now F (pruneStaleKnownAliases now (st.silence env now)) s →
        Moves env now F (pruneStaleKnownAliases now (st.silence env now))
          (peers.foldl (expireReservations env now) s) := by
      intro peers
      induction peers with
      | nil => exact fun s _ hs => hs
      | cons p rest ih =>
          intro s hmem hs
          have hp : (pruneStaleKnownAliases now (st.silence env now)).peers.get? p.name = some p := by
            rw [show (pruneStaleKnownAliases now (st.silence env now)).peers = st.peers from
              (aside_silence env now st).peers]
            exact hmem p (by simp)
          exact ih _ (fun q hq => hmem q (by simp [hq]))
            (hs.trans (expireReservations_moves hF hp hs))
    refine hloop _ _ (fun p hp => ?_) .refl
    obtain ⟨k, hk⟩ := (Map.mem_values_iff _ _).mp hp
    have hk : st.peers.get? k = some p := by
      rw [← (aside_silence env now st).peers]
      exact hk
    rw [hkeyed k p hk]
    exact hk
  · exact .refl

omit hF in
theorem announceOnline_moves (hF : ∀ (s : BrokerState ν), ∀ room ∈ peer.rooms.keys,
    F (presenceFrame env now s peer.name "online" room (some peer.caps) (some peer.proto))) :
    Moves env now F st (announceOnline env now st peer) := by
  unfold announceOnline
  refine moves_foldl _ (fun s room hroom => ?_) st
  have hroom : room ∈ peer.rooms.keys := by
    split at hroom
    · exact hroom
    · cases hroom
  exact useId_moves.trans (broadcastToRoom_moves room _ fun s' p =>
    sendTo_moves p.toRef (hF s room hroom))

end Handlers

/-! ### A step -/

/-- How a step goes: moves, after what its event does to a socket, a record or a write. -/
inductive Play (env : Env) (now : Int) (st : BrokerState ν) : Event → BrokerState ν → Prop
  /-- Nobody is heard; a second hello of a peer is refused before it counts. -/
  | quiet {e : Event} {st' : BrokerState ν}
      (hunheard : ∀ a f, speaker env st e = some (a, f) → f.type = .hello)
      (h : Moves env now NotPresence st st') : Play env now st e st'
  | connected {sock : SocketId} {tokenRequired : Bool} {remoteAddress : Option String}
      (h : st.sockets.has sock = false) :
      Play env now st (.connect sock tokenRequired remoteAddress)
        { st with sockets := st.sockets.set sock { tokenRequired, remoteAddress } }
  | halfClosed {sock : SocketId} :
      Play env now st (.halfClosed sock)
        (st.modifySocket sock fun s => { s with writable := false })
  /-- The socket goes: it was lost, sent too much, or said no hello in time. -/
  | cut {e : Event} {sock : SocketId} {s : BrokerState ν}
      (he : e = .lost sock ∨ e = .oversized sock ∨
        e = .helloTimeout sock ∧ (st.sockets.get? sock).any (fun s => s.helloTimer) = true)
      (h : Moves env now NotPresence st s) : Play env now st e (s.destroy sock)
  | closed {sock : SocketId} : Play env now st (.close sock) (handleClose env now st sock)
  | spoken {sock : SocketId} {text : List Char} {st' : BrokerState ν} (a : PeerRecord ν)
      (f : MeshFrame ν) (hspeaks : speaker env st (.line sock text) = some (a, f))
      (hauth : authed st sock f = some a) (htype : f.type ≠ .hello)
      (h : Moves env now NotPresence (st.updatePeer (a.seen now)) st') :
      Play env now st (.line sock text) st'
  | joins {sock : SocketId} {text : List Char} {s st' : BrokerState ν} (a : PeerRecord ν)
      (f : MeshFrame ν) (hspeaks : speaker env st (.line sock text) = some (a, f))
      (hauth : authed st sock f = some a) (htype : f.type = .join)
      (h : handleJoin env now (st.updatePeer (a.seen now)) sock (a.seen now) f = .ok s)
      (hend : Moves env now NotPresence s st') : Play env now st (.line sock text) st'
  | leaves {sock : SocketId} {text : List Char} {st' : BrokerState ν} (a : PeerRecord ν)
      (f : MeshFrame ν) (hspeaks : speaker env st (.line sock text) = some (a, f))
      (hauth : authed st sock f = some a) (htype : f.type = .leave)
      (hend : Moves env now NotPresence
        (handleLeave env now (st.updatePeer (a.seen now)) sock (a.seen now) f) st') :
      Play env now st (.line sock text) st'
  | greets {sock : SocketId} {text : List Char} {s : BrokerState ν} (f : MeshFrame ν)
      (hunheard : speaker env st (.line sock text) = none) (hacc : Accepted env text f)
      (hauth : authed st sock f = none) (htype : f.type = .hello)
      (h : handleHello env now st sock f = .ok s) :
      Play env now st (.line sock text) (s.clearTimer sock)
  | arrived {i : Nat} (w : Write ν) (hw : st.writes[i]? = some w) {st' : BrokerState ν}
      (h : Moves env now NotPresence (st.settleWrite i .ok) st') :
      Play env now st (.written i true) st'
  /-- A write failed, after its socket was destroyed if its time ran out. -/
  | failed {e : Event} {i : Nat} {st₁ s st' : BrokerState ν} (w : Write ν)
      (hw : st.writes[i]? = some w) (hpending : w.status = .pending)
      (he : e = .written i false ∧ st₁ = st ∨ e = .writeTimeout i ∧ st₁ = st.destroy w.socket)
      (hs : Hushed (st₁.settleWrite i .failed) s)
      (h : Moves env now NotPresence (closedFor env now s w.callback) st') : Play env now st e st'
  | swept {st' : BrokerState ν}
      (h : Moves env now NotPresence (pruneStaleKnownAliases now (st.silence env now)) st') :
      Play env now st .sweep st'

section Plays

variable {env : Env} {now : Int} {st st' : BrokerState ν}

/-- An accepted frame keeps its type in what is passed on. -/
theorem notPresence_raw {text : List Char} {f : MeshFrame ν} (hacc : Accepted env text f)
    (h : f.type ≠ .presence) : NotPresence f.raw := by
  unfold NotPresence
  rw [frameType?_raw hacc]
  exact fun heq => h (Option.some.inj heq)

theorem handleWritten_plays {i : Nat} {ok : Bool} {e : Event} {st₁ : BrokerState ν} {w : Write ν}
    (hw : st.writes[i]? = some w) (hw₁ : st₁.writes[i]? = some w) (hpending : w.status = .pending)
    (he : e = .written i ok ∧ st₁ = st ∨
      e = .writeTimeout i ∧ ok = false ∧ st₁ = st.destroy w.socket) :
    Play env now st e (handleWritten env now st₁ i ok) := by
  unfold handleWritten
  rw [hw₁]
  dsimp only
  rw [if_pos hpending]
  cases ok with
  | true =>
      rcases he with ⟨rfl, rfl⟩ | ⟨-, hok, -⟩
      · exact .arrived w hw (runCallback_arrived (fun _ h => h) w.frame w.callback)
      · cases hok
  | false =>
      obtain ⟨s, hs, hafter⟩ :=
        runCallback_failed (fun _ h => h) env now (st₁.settleWrite i .failed) w.frame w.callback
      refine .failed w hw hpending ?_ hs hafter
      rcases he with ⟨rfl, rfl⟩ | ⟨rfl, -, rfl⟩
      · exact .inl ⟨rfl, rfl⟩
      · exact .inr ⟨rfl, rfl⟩

theorem handleFrame_plays {sock : SocketId} {text : List Char} {f : MeshFrame ν}
    (hkeyed : Keyed st) (hacc : Accepted env text f)
    (hspeaks : speaker env st (.line sock text) = (authed st sock f).map (·, f))
    (h : handleFrame env now st sock f = .ok st') : Play env now st (.line sock text) st' := by
  unfold handleFrame at h
  obtain ⟨s, hs, hend⟩ := bind_eq_ok.mp h
  have hmoved : Moves env now NotPresence s st' := by
    split at hend
    · rw [← Except.ok.inj hend]
      exact .single (.timer sock)
    · rw [← Except.ok.inj hend]
  unfold dispatch at hs
  cases hauth : authed st sock f with
  | none =>
      rw [hauth] at hs
      dsimp only at hs
      by_cases htype : f.type = .hello
      · rw [if_pos htype] at hs
        rw [if_pos (by simp [htype])] at hend
        rw [← Except.ok.inj hend]
        exact .greets f (by rw [hspeaks, hauth]; rfl) hacc hauth htype hs
      · rw [if_neg htype] at hs
        rw [← Except.ok.inj hs] at hmoved
        refine .quiet ?_ ((sendError_moves (fun _ h => h) _ _ _).trans hmoved)
        intro a f' hsome
        rw [hspeaks, hauth] at hsome
        cases hsome
  | some a =>
      rw [hauth] at hs hspeaks
      dsimp only at hs
      have hget : st.peers.get? a.name = some a := (authed_sender hkeyed hauth).2
      by_cases htype : f.type = .hello
      · rw [if_pos htype] at hs
        rw [← Except.ok.inj hs] at hmoved
        refine .quiet ?_ ((sendError_moves (fun _ h => h) _ _ _).trans hmoved)
        intro a' f' hsome
        obtain ⟨-, rfl⟩ := Prod.mk.inj (Option.some.inj (hspeaks.symm.trans hsome))
        exact htype
      · rw [if_neg htype] at hs
        have hself : (st.updatePeer (a.seen now)).peers.get? (a.seen now).name = some (a.seen now) :=
          Map.get?_set_self _ _ _
        by_cases hjoin : f.type = .join
        · unfold dispatchPeer at hs
          rw [hjoin] at hs
          exact .joins a f hspeaks hauth hjoin hs hmoved
        · by_cases hleave : f.type = .leave
          · unfold dispatchPeer at hs
            rw [hleave] at hs
            rw [← Except.ok.inj hs] at hmoved
            exact .leaves a f hspeaks hauth hleave hmoved
          · by_cases hpresence : f.type = .presence
            · -- no handler takes such a frame
              unfold dispatchPeer at hs
              rw [hpresence] at hs
              rw [← Except.ok.inj hs] at hmoved
              exact .spoken a f hspeaks hauth htype
                ((sendError_moves (fun _ h => h) _ _ _).trans hmoved)
            · refine .spoken a f hspeaks hauth htype (ReflTransGen.trans ?_ hmoved)
              exact dispatchPeer_moves (fun _ h => h) hself (notPresence_raw hacc hpresence) hjoin
                hleave hs

/-- **One step** is a play. -/
theorem step_plays {e : Event} (hkeyed : Keyed st) (h : step env now st e = .ok st') :
    Play env now st e st' := by
  have hidle : speaker env st e = none → Except.ok st = (Except.ok st' : Except JsError _) →
      Play env now st e st' := by
    intro hnone hs
    rw [← Except.ok.inj hs]
    refine .quiet ?_ .refl
    intro a f hsome
    rw [hnone] at hsome
    cases hsome
  cases e with
  | connect sock tokenRequired remoteAddress =>
      simp only [step] at h
      split at h
      · exact hidle rfl h
      · next hhas =>
          rw [← Except.ok.inj h]
          exact .connected (by simpa using hhas)
  | line sock text =>
      by_cases hconn : st.isConnected sock = true
      · simp only [step, if_pos hconn, handleLine] at h
        cases hparse : (parseFrameLine env.rt text : Except Reject (Members ν)) with
        | error r =>
            rw [hparse] at h
            rw [← Except.ok.inj h]
            refine .quiet ?_ (sendError_moves (fun _ h => h) _ _ _)
            intro a f hsome
            simp [speaker, hconn, hparse, Except.toOption] at hsome
        | ok ms =>
            rw [hparse] at h
            obtain ⟨f, hcast, h⟩ := bind_eq_ok.mp h
            refine handleFrame_plays hkeyed ⟨ms, hparse, hcast⟩ ?_ h
            simp [speaker, hconn, hparse, hcast, Except.toOption]
      · simp only [step, if_neg hconn] at h
        exact hidle (by simp [speaker, hconn]) h
  | oversized sock =>
      simp only [step] at h
      split at h
      · rw [← Except.ok.inj h]
        exact .cut (.inr (.inl rfl)) (sendError_moves (fun _ h => h) _ _ _)
      · exact hidle rfl h
  | helloTimeout sock =>
      simp only [step] at h
      split at h
      · next htimer =>
          rw [← Except.ok.inj h]
          refine .cut (.inr (.inr ⟨rfl, htimer⟩)) ?_
          exact ReflTransGen.trans (.single (.timer sock)) (sendError_moves (fun _ h => h) _ _ _)
      · exact hidle rfl h
  | halfClosed sock =>
      rw [← Except.ok.inj h]
      exact .halfClosed
  | lost sock =>
      rw [← Except.ok.inj h]
      exact .cut (.inl rfl) .refl
  | close sock =>
      simp only [step] at h
      split at h
      · rw [← Except.ok.inj h]
        exact .closed
      · exact hidle rfl h
  | written i ok =>
      simp only [step] at h
      rw [← Except.ok.inj h]
      cases hw : st.writes[i]? with
      | none =>
          have hsame : handleWritten env now st i ok = st := by
            unfold handleWritten
            rw [hw]
          rw [hsame]
          exact .quiet (fun _ _ hsome => by cases hsome) .refl
      | some w =>
          by_cases hpending : w.status = .pending
          · exact handleWritten_plays hw hw hpending (.inl ⟨rfl, rfl⟩)
          · have hsame : handleWritten env now st i ok = st := by
              unfold handleWritten
              rw [hw]
              exact if_neg hpending
            rw [hsame]
            exact .quiet (fun _ _ hsome => by cases hsome) .refl
  | writeTimeout i =>
      simp only [step] at h
      unfold handleWriteTimeout at h
      split at h
      · next w hw =>
          split at h
          · next hpending =>
              have hw' : (st.destroy w.socket).writes[i]? = some w := by
                rw [(aside_destroy st w.socket).writes]
                exact hw
              rw [← Except.ok.inj h]
              exact handleWritten_plays hw hw' hpending (.inr ⟨rfl, rfl, rfl⟩)
          · exact hidle rfl h
      · exact hidle rfl h
  | settled g =>
      rw [← Except.ok.inj h]
      exact .quiet (fun _ _ hsome => by cases hsome) (handleSettled_moves (fun _ h => h) g)
  | sweep =>
      rw [← Except.ok.inj h]
      exact .swept (handleSweep_moves (fun _ h => h) hkeyed)
  | purge =>
      simp only [step] at h
      split at h
      · rw [← Except.ok.inj h]
        exact .quiet (fun _ _ hsome => by cases hsome) (handlePurge_moves fun _ h => h)
      · cases h

end Plays

end PiMesh
