/-
A peer stays.

The broker ends a connection for a few reasons: the socket went, it sent too much, it said
hello again as somebody else, a write for its record failed, or it was silent for too long
when the sweep came.  Between two hellos nothing else does, whatever the other connections
do: no write that fails for another peer, no hello of the same alias on another socket, no
sweep as long as the peer is heard from.
-/
import PiMesh.Proofs.Moves
import PiMesh.Proofs.Membership

namespace PiMesh

open Js Transition BrokerState Relation

variable {ν : Type} [Number ν] [DecidableEq ν]

/-- The callback closes this record when its write fails. -/
def WriteCallback.isFor (cb : WriteCallback ν) (p : PeerRecord ν) : Bool :=
  cb.closes?.any fun r => r.ref == p.ref && r.name == p.name

/-- The record is under its alias, alone on a live socket, and was heard at `seen`. -/
structure Here (p : PeerRecord ν) (seen : Int) (st : BrokerState ν) : Prop where
  record : ∃ q, st.peers.get? p.name = some q ∧ q.ref = p.ref ∧ q.socket = p.socket ∧
    q.helloDone = true ∧ q.lastSeenAt = seen
  live : st.isDestroyed p.socket = false
  alone : ∀ k q, st.peers.get? k = some q → q.socket = p.socket → k = p.name

/-- The record stays, or a write for it failed. -/
def Stays (p : PeerRecord ν) (seen : Int) (st st' : BrokerState ν) : Prop :=
  ∃ more, st'.writes = st.writes ++ more ∧ (Here p seen st → Here p seen st' ∨
    ∃ w ∈ more, w.status = .failed ∧ w.callback.isFor p = true)

section Effects

variable {env : Env} {now : Int} {F : Members ν → Prop} {p : PeerRecord ν} {seen : Int}
  {st st' st'' : BrokerState ν}

theorem Here.of_same (h : Here p seen st) (hpeers : st'.peers = st.peers)
    (hsockets : st'.sockets = st.sockets) : Here p seen st' where
  record := by
    rw [hpeers]
    exact h.record
  live := by
    unfold BrokerState.isDestroyed
    rw [hsockets]
    exact h.live
  alone := by
    rw [hpeers]
    exact h.alone

/-- What is under the alias is the record. -/
theorem Here.fields (h : Here p seen st) {q : PeerRecord ν} (hq : st.peers.get? p.name = some q) :
    q.ref = p.ref ∧ q.socket = p.socket ∧ q.lastSeenAt = seen := by
  obtain ⟨r, hr, href, hsock, -, hseen⟩ := h.record
  rw [hr] at hq
  obtain rfl := Option.some.inj hq
  exact ⟨href, hsock, hseen⟩

theorem Stays.refl (st : BrokerState ν) : Stays p seen st st := ⟨[], by simp, .inl⟩

theorem Stays.trans (h : Stays p seen st st') (h' : Stays p seen st' st'') :
    Stays p seen st st'' := by
  obtain ⟨more, hmore, hkeep⟩ := h
  obtain ⟨more', hmore', hkeep'⟩ := h'
  refine ⟨more ++ more', by rw [hmore', hmore, List.append_assoc], ?_⟩
  intro hhere
  rcases hkeep hhere with hhere' | ⟨w, hw, hfails⟩
  · rcases hkeep' hhere' with hlast | ⟨w, hw, hfails⟩
    · exact .inl hlast
    · exact .inr ⟨w, List.mem_append_right _ hw, hfails⟩
  · exact .inr ⟨w, List.mem_append_left _ hw, hfails⟩

theorem Stays.of_same (hpeers : st'.peers = st.peers) (hsockets : st'.sockets = st.sockets)
    (hwrites : ∃ more, st'.writes = st.writes ++ more) : Stays p seen st st' := by
  obtain ⟨more, hmore⟩ := hwrites
  exact ⟨more, hmore, fun h => .inl (h.of_same hpeers hsockets)⟩

/-- A change of another socket. -/
theorem Here.modifySocket (h : Here p seen st) {sock : SocketId} {f : Socket → Socket}
    (hf : sock = p.socket → ∀ s, (f s).destroyed = s.destroyed) :
    Here p seen (st.modifySocket sock f) := by
  cases hs : st.sockets.get? sock with
  | none =>
      have hsame : st.modifySocket sock f = st := by
        unfold BrokerState.modifySocket
        rw [hs]
      rw [hsame]
      exact h
  | some s =>
      have hset : st.modifySocket sock f = { st with sockets := st.sockets.set sock (f s) } := by
        unfold BrokerState.modifySocket
        rw [hs]
      rw [hset]
      refine ⟨h.record, ?_, h.alone⟩
      have hlive := h.live
      unfold BrokerState.isDestroyed at hlive ⊢
      simp only [Map.get?_set]
      by_cases hsock : p.socket = sock
      · rw [if_pos hsock]
        rw [hsock, hs] at hlive
        dsimp only at hlive ⊢
        rw [hf hsock.symm s]
        exact hlive
      · rw [if_neg hsock]
        exact hlive

theorem Here.destroy (h : Here p seen st) {sock : SocketId} (hsock : sock ≠ p.socket) :
    Here p seen (st.destroy sock) := by
  have hset : Here p seen (st.modifySocket sock fun s => { s with destroyed := true }) :=
    h.modifySocket fun hsame => absurd hsame hsock
  exact hset

/-- A record of another alias. -/
theorem Here.set (h : Here p seen st) {q : PeerRecord ν} (hname : q.name ≠ p.name)
    (hsock : q.socket ≠ p.socket) : Here p seen (st.updatePeer q) := by
  obtain ⟨r, hr, hkeeps⟩ := h.record
  refine ⟨⟨r, ?_, hkeeps⟩, h.live, ?_⟩
  · simp only [BrokerState.updatePeer, Map.get?_set]
    rw [if_neg hname.symm]
    exact hr
  · intro k q' hq' hsame
    simp only [BrokerState.updatePeer, Map.get?_set] at hq'
    split at hq'
    · obtain rfl := Option.some.inj hq'
      exact absurd hsame hsock
    · exact h.alone k q' hq' hsame

theorem Here.delete (h : Here p seen st) {name : String} (hname : name ≠ p.name)
    (rooms : RoomTable ν) :
    Here p seen ({ st with rooms, peers := st.peers.delete name } : BrokerState ν) := by
  obtain ⟨r, hr, hkeeps⟩ := h.record
  refine ⟨⟨r, ?_, hkeeps⟩, h.live, ?_⟩
  · show (st.peers.delete name).get? p.name = some r
    rw [Map.get?_delete, if_neg hname.symm]
    exact hr
  · intro k q' hq' hsame
    have hq' : (st.peers.delete name).get? k = some q' := hq'
    rw [Map.get?_delete] at hq'
    split at hq'
    · cases hq'
    · exact h.alone k q' hq' hsame

/-- The record itself, changed but for what it is. -/
theorem Here.update (h : Here p seen st) {q q' : PeerRecord ν} {seen' : Int}
    (hq : st.peers.get? q.name = some q) (hname : q'.name = q.name) (href : q'.ref = q.ref)
    (hsock : q'.socket = q.socket) (hdone : q'.helloDone = q.helloDone)
    (hself : q.name = p.name → q'.lastSeenAt = seen')
    (hother : q.name ≠ p.name → seen' = seen) :
    Here p seen' (st.updatePeer q') := by
  obtain ⟨r, hr, hrref, hrsock, hrdone, hrseen⟩ := h.record
  refine ⟨?_, h.live, ?_⟩
  · simp only [BrokerState.updatePeer, Map.get?_set]
    by_cases hown : p.name = q'.name
    · rw [if_pos hown]
      rw [hname] at hown
      obtain rfl : r = q := by
        rw [← hown, hr] at hq
        exact Option.some.inj hq
      exact ⟨q', rfl, href.trans hrref, hsock.trans hrsock, hdone.trans hrdone, hself hown.symm⟩
    · rw [if_neg hown]
      rw [hname] at hown
      exact ⟨r, hr, hrref, hrsock, hrdone, hrseen.trans (hother (Ne.symm hown)).symm⟩
  · intro k q₁ hq₁ hsame
    simp only [BrokerState.updatePeer, Map.get?_set] at hq₁
    split at hq₁
    · next hk =>
        obtain rfl := Option.some.inj hq₁
        rw [hk, hname]
        exact h.alone q.name q hq (hsock.symm.trans hsame)
    · exact h.alone k q₁ hq₁ hsame

/-- A record of another alias is closed. -/
theorem closePeer_stays {name : String} (hname : name ≠ p.name) :
    Stays p seen st (closePeer env now st name) := by
  cases hq : st.peers.get? name with
  | none =>
      have hsame : closePeer env now st name = st := by
        unfold closePeer
        rw [hq]
      rw [hsame]
      exact .refl st
  | some q =>
      obtain ⟨hpeers, -, hsockets, more, hmore, -⟩ := closePeer_noted env now hq
      rw [(aside_destroy _ q.socket).writes] at hmore
      rw [destroy_peers] at hpeers
      refine ⟨more, hmore, fun h => .inl ?_⟩
      have hsock : q.socket ≠ p.socket := fun hsame => hname (h.alone name q hq hsame)
      refine ((h.delete hname (detachFromRooms st.rooms q)).destroy hsock).of_same ?_ hsockets
      rw [hpeers]
      exact (destroy_peers q.socket).symm

theorem attempt_failed {sock : SocketId} {frame : Members ν} {maxBytes : Nat}
    {cb : WriteCallback ν} (h : (attempt st sock frame maxBytes cb).2 = false) :
    (attempt st sock frame maxBytes cb).1
      = { st with writes := st.writes ++ [⟨sock, frame, cb, .failed⟩] } := by
  unfold attempt at h ⊢
  split
  · next hopen =>
      rw [if_pos hopen] at h
      cases h
  · rfl

/-- One move keeps the record, or a write for it failed. -/
theorem move_stays (h : Move env now F st st') : Stays p seen st st' := by
  cases h with
  | aside h => exact .of_same h.peers h.sockets ⟨[], by rw [h.writes, List.append_nil]⟩
  | timer sock =>
      refine ⟨[], by rw [(aside_clearTimer st sock).writes, List.append_nil], fun h => .inl ?_⟩
      exact h.modifySocket fun _ _ => rfl
  | touch q q' hq hsame hseen =>
      refine ⟨[], by simp [BrokerState.updatePeer], fun h => .inl ?_⟩
      refine h.update hq hsame.name hsame.ref hsame.socket hsame.helloDone ?_ fun _ => rfl
      intro hname
      rw [hname] at hq
      exact hseen.trans (h.fields hq).2.2
  | write sock frame maxBytes cb _ =>
      obtain ⟨status, -, heq⟩ := attempt_eq st sock frame maxBytes cb
      rw [heq]
      exact .of_same rfl rfl ⟨_, rfl⟩
  | @fail t sock frame maxBytes cb peer _ hcb hfailed hhush =>
      have heq := attempt_failed hfailed
      have hwrote : Stays p seen st t := by
        refine .of_same ?_ ?_ ⟨[⟨sock, frame, cb, .failed⟩], ?_⟩
        · rw [hhush.peers, heq]
        · rw [hhush.sockets, heq]
        · rw [hhush.writes, heq]
      rcases closeIfCurrent_cases env now t peer with hno | ⟨q, hq, href, hclose⟩
      · rw [hno]
        exact hwrote
      · rw [hclose]
        by_cases hname : peer.name = p.name
        · -- the record itself is closed: the write that failed was for it
          obtain ⟨hpeers, -, hsockets, more, hmore, -⟩ := closePeer_noted env now hq
          rw [(aside_destroy _ q.socket).writes] at hmore
          refine ⟨⟨sock, frame, cb, .failed⟩ :: more, ?_, fun h => .inr ?_⟩
          · rw [hmore]
            show t.writes ++ more = _
            rw [hhush.writes, heq, List.append_assoc]
            rfl
          · refine ⟨_, List.mem_cons_self, rfl, ?_⟩
            have hq₀ : st.peers.get? p.name = some q := by
              rw [hname, hhush.peers, heq] at hq
              exact hq
            simp [WriteCallback.isFor, hcb, ← href, (h.fields hq₀).1, hname]
        · exact hwrote.trans (closePeer_stays hname)

theorem moves_stay (h : Moves env now F st st') : Stays p seen st st' := by
  induction h with
  | refl => exact .refl st
  | tail _ hmove ih => exact ih.trans (move_stays hmove)

theorem stays_foldl {α : Type} {f : BrokerState ν → α → BrokerState ν} (l : List α)
    (hf : ∀ s, ∀ a ∈ l, Stays p seen s (f s a)) (st : BrokerState ν) :
    Stays p seen st (l.foldl f st) := by
  induction l generalizing st with
  | nil => exact .refl st
  | cons a rest ih =>
      have hhead : Stays p seen st (f st a) := hf st a List.mem_cons_self
      exact hhead.trans (ih (fun s b hb => hf s b (List.mem_cons_of_mem _ hb)) (f st a))

theorem Stays.after {s : BrokerState ν} (h : Stays p seen s st') (hpeers : s.peers = st.peers)
    (hsockets : s.sockets = st.sockets) (hwrites : s.writes = st.writes) : Stays p seen st st' := by
  have hsame : Stays p seen st s := .of_same hpeers hsockets ⟨[], by rw [hwrites, List.append_nil]⟩
  exact hsame.trans h

end Effects

/-! ### Handlers that change more than a move does -/

section Handlers

variable {env : Env} {now : Int} {p : PeerRecord ν} {seen : Int} {st st' : BrokerState ν}
  {sock : SocketId} {peer : PeerRecord ν} {frame : MeshFrame ν}

theorem sendError_stays (code : MeshErrorCode) (id : Option String) :
    Stays p seen st (sendError env now st sock code id) := by
  have h : Moves env now (fun _ => True) st (sendError env now st sock code id) :=
    sendError_moves (fun _ _ => trivial) sock code id
  exact moves_stay h

theorem destroy_stays (hsock : sock ≠ p.socket) : Stays p seen st (st.destroy sock) :=
  ⟨[], by rw [(aside_destroy _ sock).writes, List.append_nil], fun h => .inl (h.destroy hsock)⟩

/-- A record gets other rooms. -/
theorem rerooms_stays {rooms : RoomTable ν} {peer' : PeerRecord ν}
    (hcur : st.peers.get? peer.name = some peer)
    (hsame : peer' = { peer with rooms := peer'.rooms }) :
    Stays p seen st ({ st with rooms }.updatePeer peer') := by
  refine ⟨[], by simp [BrokerState.updatePeer], fun h => .inl ?_⟩
  have hrooms : Here p seen ({ st with rooms } : BrokerState ν) := h.of_same rfl rfl
  refine hrooms.update hcur ?_ ?_ ?_ ?_ ?_ fun _ => rfl
  · rw [hsame]
  · rw [hsame]
  · rw [hsame]
  · rw [hsame]
  · intro hname
    rw [hname] at hcur
    rw [hsame]
    exact (h.fields hcur).2.2

/-- What follows a change of rooms: an ack and a notice. -/
theorem announced_stays (room : RoomKey ν) (id : String) (name : String) (out : Members ν)
    (target : PeerRef) : Stays p seen st (broadcastToRoom
      (sendAck env now st target id .ok).useId room name fun st p => sendTo env now st p.toRef out) := by
  have hnotice : ∀ s : BrokerState ν, Moves env now (fun _ => True) s
      (broadcastToRoom s.useId room name fun st p => sendTo env now st p.toRef out) := by
    intro s
    exact useId_moves.trans (broadcastToRoom_moves room name fun s p => sendTo_moves p.toRef trivial)
  have hack : Moves env now (fun _ => True) st (sendAck env now st target id .ok) :=
    sendAck_moves (fun _ _ => trivial) target id .ok none none none none
  exact moves_stay (hack.trans (hnotice _))

theorem handleJoin_stays (hb : Bounded st.rooms) (hl : Linked st.rooms peer)
    (hcur : st.peers.get? peer.name = some peer)
    (h : handleJoin env now st sock peer frame = .ok st') : Stays p seen st st' := by
  unfold handleJoin at h
  split at h
  · rw [← Except.ok.inj h]
    exact sendError_stays _ _
  · next room =>
      obtain ⟨⟨o, rooms, peer'⟩, hjoin, h⟩ := bind_eq_ok.mp h
      have hsame := (joinRoom_effect hb hl hjoin).same
      cases o with
      | some code =>
          rw [← Except.ok.inj h]
          exact Stays.after (sendError_stays _ _) rfl rfl rfl
      | none =>
          rw [← Except.ok.inj h]
          exact (rerooms_stays hcur hsame).trans (announced_stays _ _ _ _ _)

theorem handleLeave_stays (hcur : st.peers.get? peer.name = some peer) :
    Stays p seen st (handleLeave env now st sock peer frame) := by
  unfold handleLeave
  split
  · exact sendError_stays _ _
  · next room _ =>
      unfold leaveRoom
      by_cases hin : (!peer.rooms.has (.ofString room)) = true
      · rw [if_pos hin]
        exact sendError_stays _ _
      · rw [if_neg hin]
        exact (rerooms_stays hcur rfl).trans (announced_stays _ _ _ _ _)

theorem welcome_stays (id : String) : Stays p seen st (welcome env now st peer id) := by
  have hparts : ∃ s, Moves env now (fun _ => True) st s ∧
      Moves env now (fun _ => True) (announceOnline env now s peer) (welcome env now st peer id) :=
    welcome_parts (fun _ _ => trivial) id
  obtain ⟨s, hbefore, hafter⟩ := hparts
  have honline : Moves env now (fun _ => True) s (announceOnline env now s peer) :=
    announceOnline_moves fun _ _ _ => trivial
  exact moves_stay (hbefore.trans (honline.trans hafter))

/-- Another alias gets a record. -/
theorem Here.helloState (h : Here p seen st) (hsock : sock ≠ p.socket) {name : String}
    (hname : name ≠ p.name) (taken : Nat) :
    Here p seen (helloState env now st sock name frame taken) := by
  obtain ⟨r, hr, hkeeps⟩ := h.record
  refine ⟨⟨r, ?_, hkeeps⟩, h.live, fun k q hq hsame => ?_⟩
  · rw [helloState_get?, if_neg hname.symm]
    exact hr
  · rw [helloState_get?] at hq
    split at hq
    · obtain rfl := Option.some.inj hq
      exact absurd hsame hsock
    · exact h.alone k q hq hsame

theorem refuseRooms_stays {rooms : RoomTable ν} {code : MeshErrorCode} {id : String}
    (hsock : sock ≠ p.socket) (hname : peer.name ≠ p.name) :
    Stays p seen st (refuseRooms env now { st with rooms } sock peer code id) := by
  unfold refuseRooms
  have hsent : Stays p seen st (sendError env now { st with rooms } sock code (some id)) :=
    Stays.after (sendError_stays _ _) rfl rfl rfl
  have hdelete : ∀ (s : BrokerState ν) rooms, Stays p seen s
      { s with rooms, peers := s.peers.delete peer.name } :=
    fun s rooms => ⟨[], by simp, fun h => .inl (h.delete hname rooms)⟩
  exact (hsent.trans (hdelete _ _)).trans (destroy_stays hsock)

/-- A hello on another connection; the alias of a live record is taken. -/
theorem handleHello_stays (hb : Bounded st.rooms) (hsock : sock ≠ p.socket) (hhere : Here p seen st)
    (h : handleHello env now st sock frame = .ok st') : Stays p seen st st' := by
  have hturned : ∀ (s : BrokerState ν) (code : MeshErrorCode),
      Stays p seen s ((sendError env now s sock code (some frame.id)).destroy sock) :=
    fun _ _ => (sendError_stays _ _).trans (destroy_stays hsock)
  unfold handleHello at h
  split at h
  · rw [← Except.ok.inj h]
    exact hturned st _
  · next name hname =>
      split at h
      · rw [← Except.ok.inj h]
        exact hturned st _
      · split at h
        · rw [← Except.ok.inj h]
          exact hturned st _
        · next hfree =>
            have hother : name ≠ p.name := by
              rintro rfl
              obtain ⟨r, hr, -, hrsock, -⟩ := hhere.record
              rw [hr] at hfree
              simp [hrsock, hhere.live, hsock.symm] at hfree
            obtain ⟨⟨requested, taken⟩, hrooms, h⟩ := bind_eq_ok.mp h
            obtain ⟨⟨o, rooms, peer⟩, hjoin, h⟩ := bind_eq_ok.mp h
            have hsame := (joinAll_effect hb (newPeer_linked name) hjoin).same
            have hpname : peer.name = name := by rw [hsame]; rfl
            have hpsock : peer.socket = sock := by rw [hsame]; rfl
            have henroll : Stays p seen st (helloState env now st sock name frame taken) :=
              ⟨[], by simp [helloState, BrokerState.enroll],
                fun h => .inl (h.helloState hsock hother taken)⟩
            cases o with
            | some code =>
                rw [← Except.ok.inj h]
                refine henroll.trans (refuseRooms_stays hsock ?_)
                rw [hpname]
                exact hother
            | none =>
                rw [← Except.ok.inj h]
                refine Stays.trans ?_ (welcome_stays _)
                refine henroll.trans ⟨[], (List.append_nil _).symm, fun h => .inl ?_⟩
                have hrooms : Here p seen ({ helloState env now st sock name frame taken with rooms }
                  : BrokerState ν) := h.of_same rfl rfl
                have hset := hrooms.set (q := peer) (by rw [hpname]; exact hother)
                  (by rw [hpsock]; exact hsock)
                unfold BrokerState.updatePeer at hset
                rw [hpname] at hset
                exact hset

end Handlers

/-! ### Steps -/

/-- The writes a step begins. -/
def newWrites (env : Env) (x : BrokerState ν × Int × Event) : List (Write ν) :=
  match step env x.2.1 x.1 x.2.2 with
  | .ok st' => st'.writes.drop x.1.writes.length
  | .error _ => []

/-- When the record was last heard, after a step. -/
def heardAt (env : Env) (p : PeerRecord ν) (seen : Int) (x : BrokerState ν × Int × Event) : Int :=
  match speaker env x.1 x.2.2 with
  | some (a, f) => if a.name = p.name ∧ f.type ≠ .hello then x.2.1 else seen
  | none => seen

/-- A hello that is not the record's own. -/
def greetsAnew (env : Env) (st : BrokerState ν) (sock : SocketId) (text : List Char) : Bool :=
  ((parseFrameLine env.rt text).toOption.bind fun ms => (castFrame ms).toOption).any fun f =>
    decide (f.type = .hello) && (authed st sock f).isNone

/-- A write for the record fails at once. -/
def failsFor (env : Env) (p : PeerRecord ν) (x : BrokerState ν × Int × Event) : Bool :=
  (newWrites env x).any fun w => decide (w.status = .failed) && w.callback.isFor p

/-- Its socket goes or says another hello, a write for it fails, or the sweep finds it silent. -/
def endedBy (env : Env) (p : PeerRecord ν) (seen : Int) (st : BrokerState ν) (now : Int) :
    Event → Bool
  | .lost sock => sock == p.socket
  | .close sock => sock == p.socket
  | .oversized sock => sock == p.socket
  | .helloTimeout sock => sock == p.socket && (st.sockets.get? sock).any fun s => s.helloTimer
  | .line sock text => sock == p.socket && greetsAnew env st sock text
  | .written i ok =>
      !ok && (st.writes[i]?).any fun w => decide (w.status = .pending) && w.callback.isFor p
  | .writeTimeout i => (st.writes[i]?).any fun w =>
      decide (w.status = .pending) && (w.socket == p.socket || w.callback.isFor p)
  | .sweep => decide (now - seen > env.cfg.brokerSilenceMs)
  | _ => false

/-- What may end a connection that was last heard at `seen`. -/
def mayEnd (env : Env) (p : PeerRecord ν) (seen : Int) (x : BrokerState ν × Int × Event) : Bool :=
  failsFor env p x || endedBy env p seen x.1 x.2.1 x.2.2

section Steps

variable {env : Env} {now : Int} {p : PeerRecord ν} {seen : Int} {e : Event}
  {st st' : BrokerState ν}

/-- A step in which no write for the record fails. -/
theorem here_of_stays (hstep : step env now st e = .ok st')
    (hfails : failsFor env p (st, now, e) = false) {s : BrokerState ν} (h : Stays p seen s st')
    (hlen : s.writes.length = st.writes.length) (hhere : Here p seen s) : Here p seen st' := by
  obtain ⟨more, hmore, hkeep⟩ := h
  rcases hkeep hhere with hhere' | ⟨w, hw, hfailed, hfor⟩
  · exact hhere'
  · have hnew : newWrites env (st, now, e) = more := by
      simp only [newWrites, hstep, hmore, ← hlen, List.drop_left]
    have hno : failsFor env p (st, now, e) = true := by
      unfold failsFor
      rw [hnew]
      exact List.any_eq_true.mpr ⟨w, hw, by simp [hfailed, hfor]⟩
    rw [hno] at hfails
    cases hfails

/-- A failed write of another record. -/
theorem closedFor_stays {cb : WriteCallback ν} (hcb : cb.isFor p = false) (hhere : Here p seen st) :
    Stays p seen st (closedFor env now st cb) := by
  unfold closedFor
  cases hpeer : cb.closes? with
  | none => exact .refl st
  | some peer =>
      rcases closeIfCurrent_cases env now st peer with hno | ⟨q, hq, href, hclose⟩
      · dsimp only
        rw [hno]
        exact .refl st
      · dsimp only
        rw [hclose]
        refine closePeer_stays fun hname => ?_
        rw [hname] at hq
        simp [WriteCallback.isFor, hpeer, ← href, (hhere.fields hq).1, hname] at hcb

theorem handleClose_stays {sock : SocketId} (hkeyed : Keyed st) (hsock : sock ≠ p.socket)
    (hhere : Here p seen st) : Stays p seen st (handleClose env now st sock) := by
  have hclosed : ∀ f : Socket → Socket, Stays p seen st (st.modifySocket sock f) := by
    intro f
    refine ⟨[], ?_, fun h => .inl (h.modifySocket fun hsame => absurd hsame hsock)⟩
    unfold BrokerState.modifySocket
    split <;> simp
  unfold handleClose
  refine (hclosed _).trans (stays_foldl _ (fun s q hq => closePeer_stays fun hname => ?_) _)
  obtain ⟨hq, hqsock⟩ := List.mem_filter.mp hq
  obtain ⟨k, hk⟩ := (Map.mem_values_iff _ _).mp hq
  rw [← hkeyed k q hk, hname] at hk
  exact hsock ((of_decide_eq_true hqsock).symm.trans (hhere.fields hk).2.1)

/-- The sweep destroys the sockets of the silent. -/
theorem Here.silence (h : Here p seen st) (hseen : now - seen ≤ env.cfg.brokerSilenceMs) :
    Here p seen (pruneStaleKnownAliases now (st.silence env now)) := by
  have hloop : ∀ (silent : List (PeerRecord ν)) (s : BrokerState ν), Here p seen s →
      (∀ q ∈ silent, q.socket ≠ p.socket) →
      Here p seen (silent.foldl (fun st q => st.destroy q.socket) s) := by
    intro silent
    induction silent with
    | nil => exact fun s hs _ => hs
    | cons q rest ih =>
        intro s hs hsocks
        exact ih _ (hs.destroy (hsocks q List.mem_cons_self))
          fun r hr => hsocks r (List.mem_cons_of_mem _ hr)
  have hsilent : Here p seen (st.silence env now) := by
    refine hloop _ st h fun q hq hsame => ?_
    obtain ⟨hq, hlong⟩ := List.mem_filter.mp hq
    obtain ⟨k, hk⟩ := (Map.mem_values_iff _ _).mp hq
    rw [h.alone k q hk hsame] at hk
    simp only [Bool.and_eq_true, decide_eq_true_eq, (h.fields hk).2.2] at hlong
    omega
  exact hsilent.of_same rfl rfl

/-- A socket that is opened is another one. -/
theorem Here.connect {sock : SocketId} {s : Socket} (h : Here p seen st)
    (hnew : st.sockets.has sock = false) :
    Here p seen { st with sockets := st.sockets.set sock s } := by
  refine ⟨h.record, ?_, h.alone⟩
  have hlive := h.live
  unfold BrokerState.isDestroyed at hlive ⊢
  have hother : p.socket ≠ sock := by
    rintro rfl
    cases hget : st.sockets.get? p.socket with
    | none => simp [hget] at hlive
    | some _ => simp [Map.has, hget] at hnew
  simp only [Map.get?_set, if_neg hother]
  exact hlive

theorem heardAt_quiet (hunheard : ∀ a f, speaker env st e = some (a, f) → f.type = .hello) :
    heardAt env p seen (st, now, e) = seen := by
  unfold heardAt
  split
  · next a f hspeaks => exact if_neg fun hc => hc.2 (hunheard a f hspeaks)
  · rfl

/-- A frame of a peer counts for its record, and for no other. -/
theorem heard_stays {a : PeerRecord ν} {f : MeshFrame ν} (ha : st.peers.get? a.name = some a)
    (hspeaks : speaker env st e = some (a, f)) (htype : f.type ≠ .hello) (h : Here p seen st) :
    Here p (heardAt env p seen (st, now, e)) (st.updatePeer (a.seen now)) := by
  have hheard : heardAt env p seen (st, now, e) = if a.name = p.name then now else seen := by
    simp only [heardAt, hspeaks, ne_eq, htype, not_false_eq_true, and_true]
  rw [hheard]
  refine h.update ha rfl rfl rfl rfl (fun hname => ?_) fun hname => if_neg hname
  rw [if_pos hname]
  rfl

/-- A step that does not end it leaves the record where it is. -/
theorem here_step (hc : Consistent False env.cfg st) (hstep : step env now st e = .ok st')
    (hend : mayEnd env p seen (st, now, e) = false) (h : Here p seen st) :
    Here p (heardAt env p seen (st, now, e)) st' := by
  obtain ⟨hfails, hevent⟩ := Bool.or_eq_false_iff.mp hend
  dsimp only at hevent
  have hunspoken : (∀ sock text, e ≠ .line sock text) → heardAt env p seen (st, now, e) = seen := by
    intro hline
    refine heardAt_quiet fun a f hspeaks => ?_
    unfold speaker at hspeaks
    split at hspeaks
    · exact absurd rfl (hline _ _)
    · cases hspeaks
  cases step_plays hc.keyed hstep with
  | quiet hunheard hmoves =>
      rw [heardAt_quiet hunheard]
      exact here_of_stays hstep hfails (moves_stay hmoves) rfl h
  | connected hnew =>
      rw [hunspoken (by simp)]
      exact h.connect hnew
  | halfClosed =>
      rw [hunspoken (by simp)]
      exact h.modifySocket fun _ _ => rfl
  | @cut _ sock s he hmoves =>
      have hsock : sock ≠ p.socket := by
        rcases he with rfl | rfl | ⟨rfl, htimer⟩
        · simpa [endedBy] using hevent
        · simpa [endedBy] using hevent
        · simpa [endedBy, htimer] using hevent
      have hspoken : heardAt env p seen (st, now, e) = seen := by
        refine hunspoken fun _ _ => ?_
        rcases he with rfl | rfl | ⟨rfl, -⟩ <;> simp
      rw [hspoken]
      have hmoved : Stays p seen st s := moves_stay hmoves
      exact here_of_stays hstep hfails (hmoved.trans (destroy_stays hsock)) rfl h
  | @closed sock =>
      have hsock : sock ≠ p.socket := by simpa [endedBy] using hevent
      rw [hunspoken (by simp)]
      exact here_of_stays hstep hfails (handleClose_stays hc.keyed hsock h) rfl h
  | spoken a f hspeaks hauth htype hmoves =>
      have ha := (authed_sender hc.keyed hauth).2
      exact here_of_stays hstep hfails (moves_stay hmoves) rfl (heard_stays ha hspeaks htype h)
  | @joins sock text s _ a f hspeaks hauth htype hjoin hmoves =>
      have ha := (authed_sender hc.keyed hauth).2
      have hself : (st.updatePeer (a.seen now)).peers.get? (a.seen now).name = some (a.seen now) :=
        Map.get?_set_self _ _ _
      have hlinked : Linked (st.updatePeer (a.seen now)).rooms (a.seen now) := hc.linked a.name a ha
      have hjoined : Stays p (heardAt env p seen (st, now, .line sock text))
          (st.updatePeer (a.seen now)) s := handleJoin_stays hc.bounded hlinked hself hjoin
      refine here_of_stays hstep hfails (hjoined.trans (moves_stay hmoves)) rfl ?_
      exact heard_stays ha hspeaks (by simp [htype]) h
  | leaves a f hspeaks hauth htype hmoves =>
      have ha := (authed_sender hc.keyed hauth).2
      have hself : (st.updatePeer (a.seen now)).peers.get? (a.seen now).name = some (a.seen now) :=
        Map.get?_set_self _ _ _
      refine here_of_stays hstep hfails ((handleLeave_stays hself).trans (moves_stay hmoves)) rfl ?_
      exact heard_stays ha hspeaks (by simp [htype]) h
  | @greets sock text s f hunheard hacc hauth htype hhello =>
      have hsock : sock ≠ p.socket := by
        obtain ⟨ms, hparse, hcast⟩ := hacc
        simpa [endedBy, greetsAnew, hparse, hcast, Except.toOption, htype, hauth] using hevent
      have hquiet : heardAt env p seen (st, now, .line sock text) = seen := by
        refine heardAt_quiet fun a f hspeaks => ?_
        rw [hunheard] at hspeaks
        cases hspeaks
      have htimer : Moves env now (fun _ => True) s (s.clearTimer sock) := .single (.timer sock)
      rw [hquiet]
      exact here_of_stays hstep hfails
        ((handleHello_stays hc.bounded hsock h hhello).trans (moves_stay htimer)) rfl h
  | @arrived i w hw _ hmoves =>
      rw [hunspoken (by simp)]
      have hsettled : Here p seen (st.settleWrite i .ok) := h.of_same rfl rfl
      exact here_of_stays hstep hfails (moves_stay hmoves) (List.length_modify _ _ _) hsettled
  | @failed _ i st₁ s _ w hw hpending he hs hmoves =>
      -- the socket a write timed out on is another's, and so is the record it was for
      have hother : Here p seen st₁ ∧ st₁.writes = st.writes ∧ w.callback.isFor p = false ∧
          heardAt env p seen (st, now, e) = seen := by
        rcases he with ⟨rfl, rfl⟩ | ⟨rfl, rfl⟩
        · have hno : w.callback.isFor p = false := by
            simpa [endedBy, hw, hpending] using hevent
          exact ⟨h, rfl, hno, hunspoken (by simp)⟩
        · have hno : w.socket ≠ p.socket ∧ w.callback.isFor p = false := by
            simpa [endedBy, hw, hpending] using hevent
          exact ⟨h.destroy hno.1, (aside_destroy st w.socket).writes, hno.2, hunspoken (by simp)⟩
      obtain ⟨hhere, hwrites, hno, hquiet⟩ := hother
      have hsettled : Here p seen s := hhere.of_same hs.peers hs.sockets
      rw [hquiet]
      refine here_of_stays hstep hfails ((closedFor_stays hno hsettled).trans (moves_stay hmoves))
        ?_ hsettled
      rw [hs.writes]
      show ((st₁.writes).modify i _).length = _
      rw [List.length_modify, hwrites]
  | swept hmoves =>
      rw [hunspoken (by simp)]
      have hseen : now - seen ≤ env.cfg.brokerSilenceMs := by
        have hlong := of_decide_eq_false hevent
        omega
      refine here_of_stays hstep hfails (moves_stay hmoves) ?_ (h.silence hseen)
      rw [show (pruneStaleKnownAliases now (st.silence env now)).writes = st.writes from
        (aside_silence env now st).writes]

end Steps

/-! ### Runs -/

/-- When the record was last heard. -/
def lastHeard (env : Env) (p : PeerRecord ν) (seen : Int) (tr : BrokerTrace ν) : Int :=
  tr.foldl (heardAt env p) seen

/-- Nothing in the trace ends the connection. -/
def spared (env : Env) (p : PeerRecord ν) : Int → BrokerTrace ν → Bool
  | _, [] => true
  | seen, x :: rest => !mayEnd env p seen x && spared env p (heardAt env p seen x) rest

section Runs

variable {env : Env} {epoch : Int} {before mid : BrokerTrace ν} {p : PeerRecord ν} {seen : Int}
  {st₀ st : BrokerState ν}

theorem here_run (hc : Consistent False env.cfg st₀) (hrun : Run (BrokerStep env) st₀ mid st)
    (hspared : spared env p seen mid = true) (h : Here p seen st₀) :
    Here p (lastHeard env p seen mid) st := by
  induction mid generalizing st₀ seen with
  | nil =>
      rw [hrun.eq_of_nil]
      exact h
  | cons x rest ih =>
      obtain ⟨hx, s₁, hstep, hrest⟩ := hrun.head
      obtain ⟨hend, hspared⟩ := Bool.and_eq_true_iff.mp hspared
      obtain ⟨s, now, e⟩ := x
      dsimp only at hx
      subst hx
      have hhere : Here p (heardAt env p seen (s, now, e)) s₁ :=
        here_step hc hstep (by simpa using hend) h
      exact ih (consistent_step hc False.elim hstep) hrest hspared hhere

/-- **A connection stays** as long as nothing of its own ends it: its socket lives and says no
other hello, no write for it fails, and it is heard often enough.  What happens on the other
connections, hellos of its alias included, does not touch it, and every frame it sends counts. -/
theorem peer_stays (hbefore : Run (BrokerStep env) (BrokerState.init epoch) before st₀)
    (hrun : Run (BrokerStep env) st₀ mid st) (hp : st₀.online p.name = some p)
    (halone : ∀ name q, st₀.peers.get? name = some q → q.socket = p.socket → name = p.name)
    (hspared : spared env p p.lastSeenAt mid = true) :
    ∃ q, st.online p.name = some q ∧ q.ref = p.ref ∧ q.socket = p.socket ∧
      q.lastSeenAt = lastHeard env p p.lastSeenAt mid := by
  have hhere : Here p p.lastSeenAt st₀ := by
    unfold BrokerState.online at hp
    split at hp
    · next r hr =>
        split at hp
        · next hlive =>
            obtain rfl := Option.some.inj hp
            obtain ⟨hdone, hlive⟩ := Bool.and_eq_true_iff.mp hlive
            exact ⟨⟨r, hr, rfl, rfl, hdone, rfl⟩, by simpa using hlive, halone⟩
        · cases hp
    · cases hp
  obtain ⟨⟨q, hq, href, hsock, hdone, hseen⟩, hlive, -⟩ :=
    here_run (linked_run hbefore) hrun hspared hhere
  refine ⟨q, ?_, href, hsock, hseen⟩
  unfold BrokerState.online
  rw [hq]
  exact if_pos (by rw [hdone, hsock, hlive]; rfl)

end Runs

/-- Bob comes and falls silent; a stranger asks for alice's alias; alice pings. -/
def aliceGreets : List (Int × Event) :=
  [(1000, .connect 0 false none), (1001, .line 0 (frameLine .hello "m_1" "alice" []))]

def alicePings : List (Int × Event) :=
  [(1002, .connect 1 false none), (1003, .line 1 (frameLine .hello "m_2" "bob" [])),
    (30000, .line 0 (frameLine .ping "m_3" "alice" [])), (60000, .sweep), (60001, .close 1),
    (60002, .connect 2 false none), (60003, .line 2 (frameLine .hello "m_4" "alice" [])),
    (60004, .close 2), (70000, .line 0 (frameLine .ping "m_5" "alice" [])), (90000, .sweep)]

/-- A run from a state that was reached. -/
def runOn (env : Env) (st : BrokerState Int) (events : List (Int × Event)) :
    Option (BrokerTrace Int × BrokerState Int) :=
  (execute (fun st (e : Int × Event) => step env e.1 st e.2) st events).toOption

theorem peer_stays_alice : ∃ (before mid : BrokerTrace Int) (st₀ st : BrokerState Int)
    (p : PeerRecord Int), Run (BrokerStep (referenceEnv {})) (BrokerState.init 1) before st₀ ∧
    Run (BrokerStep (referenceEnv {})) st₀ mid st ∧ mid.map Prod.snd = alicePings ∧
    p.name = "alice" ∧ ∃ q, st.online p.name = some q ∧ q.ref = p.ref ∧ q.socket = p.socket ∧
      q.lastSeenAt = lastHeard (referenceEnv {}) p p.lastSeenAt mid := by
  have h : ((runBroker (referenceEnv {}) aliceGreets).any fun r => (r.2.online "alice").any fun p =>
      decide (p.name = "alice") &&
      (r.2.peers.entries.all fun e => decide (e.2.socket = p.socket → e.1 = p.name)) &&
      (runOn (referenceEnv {}) r.2 alicePings).any fun r' =>
        spared (referenceEnv {}) p p.lastSeenAt r'.1) = true := by decide +kernel
  obtain ⟨before, st₀, hbefore, -, hcheck⟩ := exists_run h
  obtain ⟨p, hp, hcheck⟩ := (Option.any_eq_true _ _).mp hcheck
  obtain ⟨hcheck, hon⟩ := Bool.and_eq_true_iff.mp hcheck
  obtain ⟨hname, halone⟩ := Bool.and_eq_true_iff.mp hcheck
  obtain ⟨⟨mid, st⟩, hmid, hspared⟩ := (Option.any_eq_true _ _).mp hon
  obtain ⟨hrun, hevents⟩ := Run.of_execute (toOption_eq_some hmid)
  have hname : p.name = "alice" := of_decide_eq_true hname
  rw [← hname] at hp
  refine ⟨before, mid, st₀, st, p, hbefore, hrun, hevents, hname,
    peer_stays hbefore hrun hp (fun name q hq hsock => ?_) hspared⟩
  have hall := List.all_eq_true.mp halone (name, q) ((Map.mem_entries_iff _ _ _).mpr hq)
  exact of_decide_eq_true hall hsock

end PiMesh
