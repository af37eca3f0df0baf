/-
Where every frame in the broker comes from.

A frame on its way to a peer, or waiting for one, was once a line of an authenticated
peer: it was accepted, and one of the handlers found a route for it in the state it met.
`Sent` says this about a frame and an alias, and `Contents` says that everything the
broker has written or stored is either a frame of its own or was sent in this sense.  The
invariant needs no condition on the run, so a question about what reaches whom becomes a
question about routes: what did the handler check, in the state in which the frame arrived?
-/
import PiMesh.Proofs.Mail
import PiMesh.Proofs.Membership

namespace PiMesh

open Js Transition Relation BrokerState

variable {ν : Type} [Number ν] [DecidableEq ν]

section Names

variable {env : Env} {epoch : Int} {tr : BrokerTrace ν} {st st' : BrokerState ν}

/-! ### Names -/

/-- What a record keeps from its hello to its end. -/
structure SameHello (p₀ p : PeerRecord ν) : Prop where
  socket : p.socket = p₀.socket
  caps : p.caps = p₀.caps
  proto : p.proto = p₀.proto

theorem SameHello.of_samePeer {p₀ p : PeerRecord ν} (h : SamePeer p₀ p) : SameHello p₀ p :=
  ⟨h.socket, h.caps, h.proto⟩

theorem SameHello.trans {p₀ p₁ p₂ : PeerRecord ν} (h : SameHello p₀ p₁) (h' : SameHello p₁ p₂) :
    SameHello p₀ p₂ :=
  ⟨h'.socket.trans h.socket, h'.caps.trans h.caps, h'.proto.trans h.proto⟩

/-- A record is bound to the socket it was bound to before, or by the hello that was read
from its socket in this step. -/
theorem record_step {e : Int × Event} (h : Consistent False env.cfg st)
    (hstep : BrokerStep env st e st') {name : String} {p : PeerRecord ν}
    (hp : st'.peers.get? name = some p) :
    (∃ p₀, st.peers.get? name = some p₀ ∧ SameHello p₀ p) ∨
      ∃ (text : List Char) (f : MeshFrame ν),
        e.2 = .line p.socket text ∧ Accepted env text f ∧ HelloOpens env st p.socket f name ∧
        p.caps = effectiveCaps f.proto f.caps ∧ p.proto = f.proto.getD 1 := by
  obtain ⟨now, e⟩ := e
  have hkept : ∀ {s : BrokerState ν} {P : Permits ν}, s.peers = st.peers →
      Chain env now P s st' → ∃ p₀, st.peers.get? name = some p₀ ∧ SameHello p₀ p := by
    intro s P hs hc
    obtain ⟨p₀, hp₀, hsame⟩ := samePeer_of_chain hc hp
    exact ⟨p₀, by rw [← hs]; exact hp₀, .of_samePeer hsame⟩
  -- a record that is written back is one that was there
  have hback : ∀ {a peer : PeerRecord ν} {rooms : RoomTable ν} {sock : SocketId}
      {f : MeshFrame ν} {q : PeerRecord ν}, authed st sock f = some a → peer.name = a.name →
      SameHello a peer →
      ({ st.updatePeer (a.seen now) with rooms }.updatePeer peer).peers.get? name = some q →
      ∃ p₀, st.peers.get? name = some p₀ ∧ SameHello p₀ q := by
    intro a peer rooms sock f q hauth hname hsocket hq
    simp only [BrokerState.updatePeer, Map.get?_set] at hq
    by_cases hn : name = a.name
    · rw [if_pos (by rw [hname]; exact hn)] at hq
      obtain rfl := Option.some.inj hq
      exact ⟨a, by rw [hn]; exact (authed_sender h.keyed hauth).2, hsocket⟩
    · rw [if_neg (by rw [hname]; exact hn), if_neg (show name ≠ (a.seen now).name from hn)] at hq
      exact ⟨q, hq, ⟨rfl, rfl, rfl⟩⟩
  have hseen : ∀ {a q : PeerRecord ν} {sock : SocketId} {f : MeshFrame ν},
      authed st sock f = some a → (st.updatePeer (a.seen now)).peers.get? name = some q →
      ∃ p₀, st.peers.get? name = some p₀ ∧ SameHello p₀ q := by
    intro a q sock f hauth hq
    simp only [BrokerState.updatePeer, Map.get?_set] at hq
    split at hq
    · next hn =>
        obtain rfl := Option.some.inj hq
        exact ⟨a, by rw [hn]; exact (authed_sender h.keyed hauth).2, ⟨rfl, rfl, rfl⟩⟩
    · exact ⟨q, hq, ⟨rfl, rfl, rfl⟩⟩
  -- and what the chain of the handler makes of it
  have hafter : ∀ {q : PeerRecord ν}, SamePeer q p → (∃ p₀, st.peers.get? name = some p₀ ∧
      SameHello p₀ q) → ∃ p₀, st.peers.get? name = some p₀ ∧ SameHello p₀ p := by
    rintro q hsame ⟨p₀, hp₀, hq⟩
    exact ⟨p₀, hp₀, hq.trans (.of_samePeer hsame)⟩
  cases step_shape h.keyed hstep with
  | quiet hc => exact .inl (hkept rfl hc)
  | connected => exact .inl ⟨p, hp, ⟨rfl, rfl, rfl⟩⟩
  | routed f a _ hauth _ hc =>
      obtain ⟨p₀, hp₀, hsame⟩ :=
        samePeer_of_chain (hc anyRoute (anyRoute_permits _ _) fun _ => trivial) hp
      exact .inl (hafter hsame (hseen hauth hp₀))
  | joined f a _ hauth room rooms peer hjoin hc =>
      obtain ⟨p₀, hp₀, hsame⟩ := samePeer_of_chain hc hp
      have hlinked : Linked st.rooms (a.seen now) :=
        h.linked a.name a (authed_sender h.keyed hauth).2
      have he := joinRoom_effect h.bounded hlinked hjoin
      exact .inl (hafter hsame (hback hauth (by rw [he.same]; rfl)
        (by rw [he.same]; exact ⟨rfl, rfl, rfl⟩) hp₀))
  | joinRefused f a _ hauth room code rooms peer _ hc =>
      obtain ⟨p₀, hp₀, hsame⟩ := samePeer_of_chain hc hp
      exact .inl (hafter hsame (hseen hauth hp₀))
  | left f a _ hauth room rooms peer hleave hc =>
      obtain ⟨p₀, hp₀, hsame⟩ := samePeer_of_chain hc hp
      obtain ⟨-, -, hpeer⟩ := leaveRoom_effect h.bounded hleave
      exact .inl (hafter hsame (hback hauth (by rw [hpeer]; rfl)
        (by rw [hpeer]; exact ⟨rfl, rfl, rfl⟩) hp₀))
  | @welcomed sock text f n hacc hopen requested taken rooms peer _ hjoin =>
      rw [(aside_clearTimer _ _).peers] at hp
      obtain ⟨p₀, hp₀, hsame⟩ := welcome_samePeer hp
      have he := joinAll_effect h.bounded (newPeer_linked n) hjoin
      rw [Map.get?_set] at hp₀
      split at hp₀
      · next hn =>
          obtain rfl := Option.some.inj hp₀
          have hsock : p.socket = sock := by
            rw [hsame.socket, he.same]
            rfl
          subst hn
          rw [hsock]
          refine .inr ⟨text, f, rfl, hacc, hopen, ?_, ?_⟩
          · rw [hsame.caps, he.same]
            rfl
          · rw [hsame.proto, he.same]
            rfl
      · next hn =>
          rw [helloState_get?, if_neg hn] at hp₀
          exact .inl ⟨p₀, hp₀, .of_samePeer hsame⟩
  | @roomRefused sock text f n hacc hopen requested taken code rooms peer _ hjoin =>
      obtain ⟨w, -, -, -, heq⟩ := refuseRooms_eq env now
        { helloState env now st sock n f taken with rooms } sock peer code f.id
      rw [(aside_clearTimer _ _).peers, heq, (aside_destroy _ _).peers] at hp
      have he := joinAll_effect h.bounded (newPeer_linked n) hjoin
      have hpeer : peer.name = n := by
        rw [he.same]
        rfl
      simp only [Map.get?_delete] at hp
      split at hp
      · cases hp
      · next hn =>
          rw [helloState_get?, if_neg (by rw [← hpeer]; exact hn)] at hp
          exact .inl ⟨p, hp, ⟨rfl, rfl, rfl⟩⟩
  | @written _ i ok w st₁ hevent hw _ =>
      have hpeers : st₁.peers = st.peers := by
        rcases hevent with ⟨-, rfl⟩ | ⟨-, -, rfl⟩
        · rfl
        · exact (aside_destroy st w.socket).peers
      refine .inl (hkept ?_ (runCallback_chain ok (anything_callback _ _)
        fun _ _ _ _ => .inr trivial))
      exact hpeers
  | @settled g =>
      have hc : Chain env now anything st (handleSettled env now st g) :=
        handleSettled_chain trivial (fun _ _ => trivial) g
      exact .inl (hkept rfl hc)
  | swept hc =>
      refine .inl (hkept ?_ hc)
      exact (aside_silence env now st).peers
  | purged =>
      refine .inl (hkept ?_ handlePurge_chain)
      rfl

/-- Every record is under a valid alias. -/
theorem names_valid (hrun : Run (BrokerStep env) (BrokerState.init epoch) tr st) {name : String}
    {p : PeerRecord ν} (hp : st.peers.get? name = some p) : isValidAlias name = true := by
  refine hrun.along (P := fun _ st => ∀ name p, st.peers.get? name = some p →
    isValidAlias name = true) (Meets.trivial tr) ?_ ?_ name p hp
  · intro _ _ h
    cases h
  · intro tr s e s' hr _ hs _ hstep name p hp
    rcases record_step (linked_run hr) hstep hp with ⟨p₀, hp₀, -⟩ | ⟨text, f, -, hacc, hopen, -⟩
    · exact hs name p₀ hp₀
    · obtain ⟨ms, hms, hcast⟩ := hacc
      have hread := (castFrame_views hcast).sender
      rw [hopen.sender] at hread
      rcases hread with ⟨-, hc⟩ | ⟨v, a, hv, hstr, ha⟩
      · cases hc
      · have hok := of_optional ((parseFrameLine_eq_ok.mp hms).2.rule 4 rfl) hv
        cases v with
        | str t =>
            obtain rfl := Option.some.inj ha
            obtain rfl := Option.some.inj hstr
            exact hok
        | _ => cases hstr

end Names

/-! ### Origins -/

/-- An accepted line of an authenticated peer, with the state it met. -/
structure Origin (ν : Type) where
  pre : BrokerState ν
  now : Int
  sock : SocketId
  text : List Char
  frame : MeshFrame ν
  peer : PeerRecord ν

namespace Origin

/-- The sender's record as the handlers see it. -/
def sender (o : Origin ν) : PeerRecord ν := o.peer.seen o.now

/-- The state in which the handlers see the frame. -/
def met (o : Origin ν) : BrokerState ν := o.pre.updatePeer o.sender

/-- The line is an event of the run. -/
structure Met (env : Env) (tr : BrokerTrace ν) (o : Origin ν) : Prop where
  mem : (o.pre, o.now, .line o.sock o.text) ∈ tr
  accepted : Accepted env o.text o.frame
  authed : authed o.pre o.sock o.frame = some o.peer
  keyed : Keyed o.pre
  named : ∀ name p, o.pre.peers.get? name = some p → isValidAlias name = true

/-- The handlers pass the frame on to an alias, in this form. -/
def Reaches (env : Env) (o : Origin ν) (out : Members ν) (name : String) : Prop :=
  Route env o.met o.sender o.frame out name

end Origin

/-- The frame was passed on to the alias, or stored for it, when some line arrived. -/
def Sent (env : Env) (tr : BrokerTrace ν) (out : Members ν) (name : String) : Prop :=
  ∃ o : Origin ν, o.Met env tr ∧ o.Reaches env out name

theorem Sent.mono {env : Env} {tr tr' : BrokerTrace ν} {out : Members ν} {name : String}
    (h : Sent env tr out name) : Sent env (tr ++ tr') out name := by
  obtain ⟨o, hmet, hreach⟩ := h
  exact ⟨o, { hmet with mem := List.mem_append_left _ hmet.mem }, hreach⟩

/-- A write is of the broker's own, or carries what `S` allows for its recipient; only
messages are stored. -/
inductive Sourced (S : Members ν → String → Prop) (rt : Runtime) : Write ν → Prop
  | own (sock : SocketId) (stamp : Stamp) (opts : BuildFrameOpts ν) (cb : WriteCallback ν)
      (status : WriteStatus) (hcb : cb.IsOwn) (htype : opts.type.isOwn = true) :
      Sourced S rt ⟨sock, buildFrame rt stamp opts, cb, status⟩
  | relayed (target : PeerRef) (frame : Members ν) (cb : WriteCallback ν) (status : WriteStatus)
      (hcb : cb.target? = some target) (h : S frame target.name)
      (hmsg : cb.Stores → frameType? frame = some .msg) :
      Sourced S rt ⟨target.socket, frame, cb, status⟩
  | flushed (peer : PeerRef) (m : StoredMsg ν) (status : WriteStatus) (h : S m.frame peer.name)
      (hmsg : frameType? m.frame = some .msg) :
      Sourced S rt ⟨peer.socket, mailboxFrame rt m, .flushed peer m, status⟩

/-- Everything written or stored has a source. -/
structure Contents (S : Members ν → String → Prop) (rt : Runtime) (st : BrokerState ν) : Prop where
  writes : ∀ w ∈ st.writes, Sourced S rt w
  stored : ∀ e ∈ storedIn st.mailbox, S e.2.frame e.1 ∧ frameType? e.2.frame = some .msg

/-- Whatever may be passed on, stored or flushed has a source. -/
structure Permits.Within (P : Permits ν) (S : Members ν → String → Prop) : Prop where
  relay : ∀ t out cb, P.relay t out cb →
    cb.target? = some t ∧ S out t.name ∧ (cb.Stores → frameType? out = some .msg)
  store : ∀ name out group, P.store name out group → S out name ∧ frameType? out = some .msg
  flush : ∀ peer m, P.flush peer m → S m.frame peer.name ∧ frameType? m.frame = some .msg

/-- The widest permits within `S` of a handler that flushes nothing. -/
def sourcedOnly (S : Members ν → String → Prop) : Permits ν where
  relay t out cb :=
    cb.target? = some t ∧ S out t.name ∧ (cb.Stores → frameType? out = some .msg)
  store name out _ := S out name ∧ frameType? out = some .msg
  ack _ _ := True
  groups := True
  control := True
  behind _ := True

theorem sourcedOnly_within (S : Members ν → String → Prop) : (sourcedOnly S).Within S :=
  ⟨fun _ _ _ h => h, fun _ _ _ h => h, fun _ _ h => h.elim⟩

theorem ownOnly_within (S : Members ν → String → Prop) : (ownOnly : Permits ν).Within S :=
  ⟨fun _ _ _ h => h.elim, fun _ _ _ h => h.elim, fun _ _ h => h.elim⟩

/-- Every form a frame is passed on in has its type. -/
theorem Route.frameType {env : Env} {st : BrokerState ν} {a : PeerRecord ν} {f : MeshFrame ν}
    {out : Members ν} {name : String} {text : List Char} (h : Route env st a f out name)
    (hacc : Accepted env text f) : frameType? out = some f.type := by
  obtain ⟨ms, -, hcast⟩ := hacc
  have hv := castFrame_views hcast
  unfold frameType?
  rw [h.keeps (by decide), hv.raw]
  exact hv.type

section Effects

variable {S S' : Members ν → String → Prop} {rt : Runtime} {env : Env} {now : Int} {P : Permits ν}
  {st st' : BrokerState ν}

theorem Sourced.mono (hS : ∀ frame name, S frame name → S' frame name) {w : Write ν}
    (h : Sourced S rt w) : Sourced S' rt w := by
  cases h with
  | own sock stamp opts cb status hcb htype => exact .own sock stamp opts cb status hcb htype
  | relayed target frame cb status hcb h hmsg =>
      exact .relayed target frame cb status hcb (hS _ _ h) hmsg
  | flushed peer m status h hmsg => exact .flushed peer m status (hS _ _ h) hmsg

/-- How a write ends says nothing about its source. -/
theorem Sourced.settle {w : Write ν} (status : WriteStatus) (h : Sourced S rt w) :
    Sourced S rt { w with status } := by
  cases h with
  | own sock stamp opts cb _ hcb htype => exact .own sock stamp opts cb status hcb htype
  | relayed target frame cb _ hcb h hmsg => exact .relayed target frame cb status hcb h hmsg
  | flushed peer m _ h hmsg => exact .flushed peer m status h hmsg

theorem target?_eq_none_of_isOwn {cb : WriteCallback ν} (h : cb.IsOwn) : cb.target? = none := by
  cases cb with
  | ignore => rfl
  | sendTo peer => rfl
  | _ => exact h.elim

/-- A frame that was passed on has a source. -/
theorem Sourced.of_target {w : Write ν} (h : Sourced S rt w) {t : PeerRef}
    (ht : w.callback.target? = some t) :
    S w.frame t.name ∧ (w.callback.Stores → frameType? w.frame = some .msg) := by
  cases h with
  | own sock stamp opts cb status hcb =>
      rw [target?_eq_none_of_isOwn hcb] at ht
      cases ht
  | relayed target frame cb status hcb h hmsg =>
      obtain rfl := Option.some.inj (hcb.symm.trans ht)
      exact ⟨h, hmsg⟩
  | flushed => cases ht

namespace Contents

theorem mono (hS : ∀ frame name, S frame name → S' frame name) (h : Contents S rt st) :
    Contents S' rt st :=
  ⟨fun w hw => (h.writes w hw).mono hS, fun e he =>
    (h.stored e he).imp_left (hS _ _)⟩

theorem of_same (h : Contents S rt st) (hw : st'.writes = st.writes)
    (hm : st'.mailbox = st.mailbox) : Contents S rt st' :=
  ⟨by rw [hw]; exact h.writes, by rw [hm]; exact h.stored⟩

theorem aside (h : Contents S rt st) (ha : Aside st st') : Contents S rt st' :=
  h.of_same ha.writes ha.mailbox

/-- One write more. -/
theorem attempt (h : Contents S rt st) {sock : SocketId} {frame : Members ν} {maxBytes : Nat}
    {cb : WriteCallback ν} (hs : ∀ status, Sourced S rt ⟨sock, frame, cb, status⟩) :
    Contents S rt (attempt st sock frame maxBytes cb).1 := by
  obtain ⟨status, -, heq⟩ := attempt_eq st sock frame maxBytes cb
  rw [heq]
  refine ⟨?_, h.stored⟩
  intro w hw
  rcases List.mem_append.mp hw with hw | hw
  · exact h.writes w hw
  · rw [List.mem_singleton] at hw
    subst hw
    exact hs status

theorem dropPeer (h : Contents S rt st) (name : String) (peer : PeerRecord ν) :
    Contents S rt (st.dropPeer name peer) := by
  have htables : Contents S rt
      { st with rooms := detachFromRooms st.rooms peer, peers := st.peers.delete name } :=
    h.of_same rfl rfl
  exact htables.aside (aside_destroy _ _)

/-- The queues may lose entries. -/
theorem setMail (h : Contents S rt st) {mail : Mail ν}
    (hsub : ∀ e ∈ storedIn mail.mailbox, e ∈ storedIn st.mailbox) : Contents S rt (st.setMail mail) :=
  ⟨h.writes, fun e he => h.stored e (hsub e he)⟩

theorem notices (hc : Chain env now noticesOnly st st') (h : Contents S env.rt st) :
    Contents S env.rt st' := by
  refine chain_keeps (fun {a b} hact ha => ?_) hc h
  cases hact with
  | own sock stamp opts maxBytes cb hcb htype _ =>
      exact ha.attempt fun status => .own sock stamp opts cb status hcb htype
  | close name peer _ => exact ha.dropPeer name peer
  | aside hx => exact ha.aside hx
  | touch p p' hP => exact hP.elim
  | groups hP => exact hP.elim
  | drop => exact ha.of_same rfl rfl
  | control hP => exact hP.elim
  | relay target frame cb hP => exact hP.elim
  | flush peer m hP => exact hP.elim
  | enqueue name frame group hP => exact hP.elim

/-- Storing a message that has a source. -/
theorem enqueue (h : Contents S env.rt st) {name : String} {frame : Members ν}
    (hs : S frame name ∧ frameType? frame = some .msg) (group : Option Nat) :
    Contents S env.rt (enqueue env now st name frame group) := by
  have hstore : Contents S env.rt (st.storeMsg env now name frame group) := by
    refine ⟨h.writes, ?_⟩
    intro e he
    -- what is in the queues afterwards was there before, or is the new message
    have hperm := enqueueMailbox_perm st.mail env.cfg name ⟨st.refs, frame, now⟩ now
    have hmem := hperm.mem_iff.mpr (List.mem_append_right _ he)
    rcases List.mem_append.mp hmem with hmem | hmem
    · exact h.stored e hmem
    · rw [List.mem_singleton] at hmem
      subst hmem
      exact hs
  exact hstore.notices (notifyDropped_chain trivial _)

/-- What a chain may pass on, store and flush has a source, so everything still has. -/
theorem chain (hP : P.Within S) (hc : Chain env now P st st') (h : Contents S env.rt st) :
    Contents S env.rt st' := by
  refine chain_keeps (fun {a b} hact ha => ?_) hc h
  cases hact with
  | own sock stamp opts maxBytes cb hcb htype _ =>
      exact ha.attempt fun status => .own sock stamp opts cb status hcb htype
  | close name peer _ => exact ha.dropPeer name peer
  | aside hx => exact ha.aside hx
  | touch => exact ha.of_same rfl rfl
  | groups => exact ha.of_same rfl rfl
  | drop => exact ha.of_same rfl rfl
  | control => exact ha.of_same rfl rfl
  | relay target frame cb h =>
      obtain ⟨hcb, hs, hmsg⟩ := hP.relay target frame cb h
      exact ha.attempt fun status => .relayed target frame cb status hcb hs hmsg
  | flush peer m h =>
      obtain ⟨hs, hmsg⟩ := hP.flush peer m h
      exact ha.attempt fun status => .flushed peer m status hs hmsg
  | enqueue name frame group h => exact ha.enqueue (hP.store name frame group h) group

theorem ownChain (hc : Chain env now ownOnly st st') (h : Contents S env.rt st) :
    Contents S env.rt st' := h.chain (ownOnly_within S) hc

/-- A write settled. -/
theorem settleWrite (h : Contents S rt st) (i : Nat) (status : WriteStatus) :
    Contents S rt (st.settleWrite i status) := by
  refine ⟨?_, h.stored⟩
  intro w hw
  rcases mem_settleWrite hw with hw | ⟨w₀, hw₀, rfl⟩
  · exact h.writes w hw
  · exact (h.writes w₀ hw₀).settle status

/-- The callback of a write may store the frame again, which has a source. -/
theorem runCallback (h : Contents S env.rt st) {w : Write ν} (hw : Sourced S env.rt w) (ok : Bool) :
    Contents S env.rt (runCallback env now st w.frame ok w.callback) := by
  have hperm : CallbackPermitted (sourcedOnly S) w.frame w.callback := by
    refine ⟨fun g t hcb => ?_, fun s t id i r hcb => ⟨?_, .inr trivial⟩, fun _ => trivial,
      fun _ => trivial⟩
    · obtain ⟨hs, hmsg⟩ := hw.of_target (t := t) (by rw [hcb]; rfl)
      exact ⟨hs, hmsg (by rw [hcb]; trivial)⟩
    · obtain ⟨hs, hmsg⟩ := hw.of_target (t := t) (by rw [hcb]; rfl)
      exact ⟨hs, hmsg (by rw [hcb]; trivial)⟩
  exact h.chain (sourcedOnly_within S) (runCallback_chain ok hperm fun _ _ _ _ => .inr trivial)

end Contents

end Effects

/-! ### Steps and runs -/

section Runs

variable {env : Env} {epoch : Int} {tr : BrokerTrace ν} {st st' : BrokerState ν}

/-- The flush of an accepted hello. -/
theorem contents_welcome {S : Members ν → String → Prop} {now : Int} (peer : PeerRecord ν)
    (id : String) (h : Contents S env.rt st) :
    Contents S env.rt (welcome env now st peer id) := by
  have hperm := flushMailbox_perm st.mail env.cfg peer.name now
  have hmail : Contents S env.rt (st.setMail (flushMailbox st.mail env.cfg peer.name now).2.2) := by
    refine h.setMail fun e he => ?_
    exact hperm.mem_iff.mpr (List.mem_append_right _ (List.mem_append_right _ he))
  have hfresh : ∀ m ∈ (flushMailbox st.mail env.cfg peer.name now).1,
      S m.frame peer.name ∧ frameType? m.frame = some .msg := by
    intro m hm
    have hin : (peer.name, m) ∈ storedIn st.mailbox := hperm.mem_iff.mpr
      (List.mem_append_right _ (List.mem_append_left _ (List.mem_map.mpr ⟨m, hm, rfl⟩)))
    exact h.stored _ hin
  have hP : (flushOnly peer.toRef (flushMailbox st.mail env.cfg peer.name now).1).Within S := by
    refine ⟨fun _ _ _ h => h.elim, fun _ _ _ h => h.elim, fun p m h => ?_⟩
    obtain ⟨rfl, hm⟩ := h
    exact hfresh m hm
  exact hmail.chain hP (welcome_chain peer id)

theorem contents_refuseRooms {S : Members ν → String → Prop} {now : Int} (sock : SocketId)
    (peer : PeerRecord ν) (code : MeshErrorCode) (id : String) (h : Contents S env.rt st) :
    Contents S env.rt (refuseRooms env now st sock peer code id) := by
  have herror : Contents S env.rt (sendError env now st sock code (some id)) :=
    h.ownChain (sendError_chain _ _ _)
  unfold refuseRooms
  generalize sendError env now st sock code (some id) = s at herror ⊢
  have htables : Contents S env.rt
      { s with rooms := detachFromRooms s.rooms peer, peers := s.peers.delete peer.name } :=
    herror.of_same rfl rfl
  exact htables.aside (aside_destroy _ _)

/-- **One step**: what it writes or stores is the broker's own, or has a route now, or was
already there. -/
theorem contents_step {e : Int × Event} (hkeyed : Keyed st)
    (hnamed : ∀ name p, st.peers.get? name = some p → isValidAlias name = true)
    (h : Contents (Sent env tr) env.rt st) (hstep : BrokerStep env st e st') : Contents (Sent env (tr ++ [(st, e)])) env.rt st' := by
  have hlater : Contents (Sent env (tr ++ [(st, e)])) env.rt st := h.mono fun _ _ hs => hs.mono
  replace h := hlater
  obtain ⟨now, e⟩ := e
  cases step_shape hkeyed hstep with
  | quiet hc => exact h.ownChain hc
  | connected => exact h.of_same rfl rfl
  | @routed sock text _ f a hacc hauth _ hc =>
      have hsent : ∀ out name, Route env (st.updatePeer (a.seen now)) (a.seen now) f out name →
          Sent env (tr ++ [(st, now, Event.line sock text)]) out name := by
        intro out name hroute
        have hmem : (st, now, Event.line sock text) ∈ tr ++ [(st, now, Event.line sock text)] :=
          List.mem_append_right _ (List.mem_singleton.mpr rfl)
        exact ⟨⟨st, now, sock, text, f, a⟩, ⟨hmem, hacc, hauth, hkeyed, hnamed⟩, hroute⟩
      have htyped : ∀ {out name}, Route env (st.updatePeer (a.seen now)) (a.seen now) f out name →
          f.type = .msg → frameType? out = some .msg := by
        intro out name hroute htype
        rw [hroute.frameType hacc, htype]
      have hP : RoutePermits (sourcedOnly (Sent env (tr ++ [(st, now, Event.line sock text)]))) env
          (st.updatePeer (a.seen now)) (a.seen now) f :=
        ⟨fun t out cb hr ht hsuits _ => ⟨ht, hsent _ _ hr, fun hs => htyped hr (hsuits.stores hs)⟩,
          fun name out _ hr hmsg _ _ => ⟨hsent _ _ hr, htyped hr hmsg⟩, id, fun _ => trivial⟩
      exact Contents.chain (sourcedOnly_within _) (hc _ hP fun _ => trivial) (h.of_same rfl rfl)
  | joined f a _ _ room rooms peer _ hc => exact Contents.ownChain hc (h.of_same rfl rfl)
  | joinRefused f a _ _ room code rooms peer _ hc => exact Contents.ownChain hc (h.of_same rfl rfl)
  | left f a _ _ room rooms peer _ hc => exact Contents.ownChain hc (h.of_same rfl rfl)
  | @welcomed sock _ f name _ _ requested taken rooms peer =>
      have hjoined : Contents (Sent env (tr ++ [(st, now, Event.line sock _)])) env.rt
          { helloState env now st sock name f taken with
            rooms, peers := (helloState env now st sock name f taken).peers.set name peer } :=
        h.of_same rfl rfl
      exact (contents_welcome peer f.id hjoined).aside (aside_clearTimer _ _)
  | @roomRefused sock _ f name _ _ requested taken code rooms peer =>
      have hrooms : Contents (Sent env (tr ++ [(st, now, Event.line sock _)])) env.rt
          { helloState env now st sock name f taken with rooms } := h.of_same rfl rfl
      exact (contents_refuseRooms sock peer code f.id hrooms).aside (aside_clearTimer _ _)
  | @written _ i ok w st₁ hevent hw _ =>
      have h₁ : Contents (Sent env (tr ++ [(st, (now, e))])) env.rt st₁ := by
        rcases hevent with ⟨-, rfl⟩ | ⟨-, -, rfl⟩
        · exact h
        · exact h.aside (aside_destroy _ _)
      exact (h₁.settleWrite i _).runCallback (h.writes w (List.mem_of_getElem? hw)) ok
  | @settled g =>
      exact h.chain (sourcedOnly_within _) (handleSettled_chain trivial (fun _ _ => trivial) g)
  | swept hc =>
      have hsilent := h.aside (aside_silence env now st)
      have hpruned : Contents (Sent env (tr ++ [(st, now, Event.sweep)])) env.rt
          (pruneStaleKnownAliases now (st.silence env now)) := hsilent.of_same rfl rfl
      exact hpruned.ownChain hc
  | purged =>
      obtain ⟨gone, -, hperm⟩ := purgeAllExpired_perm st.mail env.cfg now
      have hmail : Contents (Sent env (tr ++ [(st, now, Event.purge)])) env.rt
          (st.setMail (purgeAllExpired st.mail env.cfg now).2) :=
        h.setMail fun e he => hperm.mem_iff.mpr (List.mem_append_right _ he)
      exact hmail.notices handlePurge_chain

/-- **Everything the broker has written or stored was sent**, in every run. -/
theorem contents_run (hrun : Run (BrokerStep env) (BrokerState.init epoch) tr st) :
    Contents (Sent env tr) env.rt st := by
  refine hrun.along (P := fun tr st => Contents (Sent env tr) env.rt st) (Meets.trivial tr) ?_ ?_
  · exact ⟨fun w hw => absurd hw List.not_mem_nil, fun e he => absurd he List.not_mem_nil⟩
  · intro tr s e s' hr _ hs _ hstep
    exact contents_step (linked_run hr).keyed (fun _ _ => names_valid hr) hs hstep

end Runs

end PiMesh
