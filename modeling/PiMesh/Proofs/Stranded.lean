/-
Mail behind a live connection.

A mailbox is emptied at its owner's hello and at no other time, so a message that is
stored while the owner is online waits for a reconnect that may never come.  The broker
looks whether the alias is online before it stores a message, and when a write fails it
closes the record the write was for before it stores the message again.  Only there it
can go wrong: the record is closed if it is still the alias's own, and the message is
stored in any case, also when the alias has said hello on another socket since.

So the invariant survives every step but the late failure of a write to a record that
has been replaced.
-/
import PiMesh.Proofs.Known

namespace PiMesh

open Js Transition Relation BrokerState

variable {ν : Type} [Number ν] [DecidableEq ν]

/-- Records are on sockets that were opened, and who is online has no mailbox. -/
structure Unstranded (st : BrokerState ν) : Prop where
  opened : ∀ name p, st.peers.get? name = some p → st.sockets.has p.socket = true
  empty : ∀ name, (st.online name).isSome = true → st.mailbox.has name = false

/-- What was stored was stored for aliases that are offline. -/
def StoredAway (st st' : BrokerState ν) : Prop :=
  ∃ more, st'.queued = st.queued ++ more ∧ ∀ q ∈ more, st'.online q.recipient = none

section Effects

variable {env : Env} {now : Int} {P : Permits ν} {st st' st'' : BrokerState ν}

/-- Nobody comes online. -/
def Calm (st st' : BrokerState ν) : Prop :=
  ∀ name, (st'.online name).isSome = true → (st.online name).isSome = true

theorem Dwindles.calm (h : Dwindles st st') : Calm st st' := by
  intro name hon
  obtain ⟨p, hp⟩ := Option.isSome_iff_exists.mp hon
  exact Option.isSome_iff_exists.mpr ⟨p, h.online hp⟩

theorem Calm.offline (h : Calm st st') {name : String} (hoff : st.online name = none) :
    st'.online name = none := by
  rw [← Option.not_isSome_iff_eq_none] at hoff ⊢
  exact fun hon => hoff (h name hon)

/-- A record written back over its own is online as before. -/
theorem calm_updatePeer {p p' : PeerRecord ν} (hp : st.peers.get? p.name = some p)
    (hname : p'.name = p.name) (hsocket : p'.socket = p.socket)
    (hdone : p'.helloDone = p.helloDone) : Calm st (st.updatePeer p') := by
  intro name hon
  obtain ⟨q, hq⟩ := Option.isSome_iff_exists.mp hon
  obtain ⟨hget, hd, hs⟩ := online_eq_some hq
  simp only [BrokerState.updatePeer, Map.get?_set] at hget
  split at hget
  · next hn =>
      obtain rfl := Option.some.inj hget
      rw [hdone] at hd
      rw [hsocket] at hs
      refine Option.isSome_iff_exists.mpr ⟨p, online_of ?_ hd hs⟩
      rw [hn, hname]
      exact hp
  · exact Option.isSome_iff_exists.mpr ⟨q, online_of hget hd hs⟩

theorem Act.calm (h : Act env now P st st') : Calm st st' := by
  cases h with
  | own => exact (attempt_dwindles _ _ _ _ _).calm
  | close => exact (dropPeer_dwindles _ _ _).calm
  | aside h => exact h.dwindles.calm
  | touch p p' _ hp hsame => exact calm_updatePeer hp hsame.name hsame.socket hsame.helloDone
  | groups => exact fun _ h => h
  | drop => exact fun _ h => h
  | control => exact fun _ h => h
  | relay => exact (attempt_dwindles _ _ _ _ _).calm
  | flush => exact (attempt_dwindles _ _ _ _ _).calm
  | enqueue => exact (enqueue_quiet _ _ _ _ _ _).2.calm

namespace Unstranded

theorem of_same (h : Unstranded st) (hp : st'.peers = st.peers) (hm : st'.mailbox = st.mailbox)
    (hs : ∀ sock, st'.sockets.has sock = st.sockets.has sock) (hc : Calm st st') :
    Unstranded st' := by
  refine ⟨fun name p hget => ?_, fun name hon => ?_⟩
  · rw [hs]
    exact h.opened name p (by rw [← hp]; exact hget)
  · rw [hm]
    exact h.empty name (hc name hon)

theorem aside (h : Unstranded st) (ha : Aside st st') : Unstranded st' :=
  h.of_same ha.peers ha.mailbox ha.opened ha.dwindles.calm

theorem attempt (h : Unstranded st) (sock : SocketId) (frame : Members ν) (maxBytes : Nat)
    (cb : WriteCallback ν) : Unstranded (attempt st sock frame maxBytes cb).1 := by
  obtain ⟨status, -, heq⟩ := attempt_eq st sock frame maxBytes cb
  rw [heq]
  exact h.of_same rfl rfl (fun _ => rfl) fun _ hon => hon

theorem dropPeer (h : Unstranded st) (name : String) (peer : PeerRecord ν) :
    Unstranded (st.dropPeer name peer) := by
  have htables : Unstranded
      { st with rooms := detachFromRooms st.rooms peer, peers := st.peers.delete name } := by
    have hsub : ∀ n p, (st.peers.delete name).get? n = some p → st.peers.get? n = some p := by
      intro n p hp
      rw [Map.get?_delete] at hp
      split at hp
      · cases hp
      · exact hp
    refine ⟨fun n p hp => h.opened n p (hsub n p hp), fun n hon => h.empty n ?_⟩
    obtain ⟨p, hp⟩ := Option.isSome_iff_exists.mp hon
    obtain ⟨hget, hd, hs⟩ := online_eq_some hp
    exact Option.isSome_iff_exists.mpr ⟨p, online_of (hsub n p hget) hd hs⟩
  exact htables.aside (aside_destroy _ _)

theorem updatePeer (h : Unstranded st) {p p' : PeerRecord ν} (hp : st.peers.get? p.name = some p)
    (hname : p'.name = p.name) (hsocket : p'.socket = p.socket)
    (hdone : p'.helloDone = p.helloDone) : Unstranded (st.updatePeer p') := by
  have hcalm : Calm st (st.updatePeer p') := calm_updatePeer hp hname hsocket hdone
  refine ⟨fun name q hq => ?_, fun name hon => h.empty name (hcalm name hon)⟩
  simp only [BrokerState.updatePeer, Map.get?_set] at hq
  split at hq
  · obtain rfl := Option.some.inj hq
    rw [hsocket]
    exact h.opened _ _ hp
  · exact h.opened name q hq

theorem notices (hc : Chain env now noticesOnly st st') (h : Unstranded st) : Unstranded st' := by
  refine chain_keeps (fun {a b} hact ha => ?_) hc h
  cases hact with
  | own => exact ha.attempt _ _ _ _
  | close name peer => exact ha.dropPeer name peer
  | aside hx => exact ha.aside hx
  | touch p p' hP => exact hP.elim
  | groups hP => exact hP.elim
  | drop => exact ha.of_same rfl rfl (fun _ => rfl) fun _ hon => hon
  | control hP => exact hP.elim
  | relay target frame cb hP => exact hP.elim
  | flush peer m hP => exact hP.elim
  | enqueue name frame group hP => exact hP.elim

/-- Storing a message for who is offline. -/
theorem enqueue (h : Unstranded st) {name : String} (hoff : st.online name = none)
    (frame : Members ν) (group : Option Nat) :
    Unstranded (enqueue env now st name frame group) := by
  have hstore : Unstranded (st.storeMsg env now name frame group) := by
    refine ⟨h.opened, fun n hon => ?_⟩
    have hon' : (st.online n).isSome = true := hon
    by_contra hc
    rw [Bool.not_eq_false] at hc
    rcases (has_set _ _ _ _).mp hc with hc | rfl
    · exact Bool.false_ne_true ((h.empty n hon').symm.trans (partitionExpired_has _ _ _ _ hc))
    · rw [hoff] at hon'
      cases hon'
  exact hstore.notices (notifyDropped_chain trivial _)

/-- A chain that stores nothing behind a live connection. -/
theorem chain (hP : ∀ name, ¬ P.behind name) (hc : Chain env now P st st') (h : Unstranded st) :
    Unstranded st' := by
  refine chain_keeps (fun {a b} hact ha => ?_) hc h
  cases hact with
  | own => exact ha.attempt _ _ _ _
  | close name peer => exact ha.dropPeer name peer
  | aside hx => exact ha.aside hx
  | touch p p' _ hp hsame => exact ha.updatePeer hp hsame.name hsame.socket hsame.helloDone
  | groups => exact ha.of_same rfl rfl (fun _ => rfl) fun _ hon => hon
  | drop => exact ha.of_same rfl rfl (fun _ => rfl) fun _ hon => hon
  | control => exact ha.of_same rfl rfl (fun _ => rfl) fun _ hon => hon
  | relay => exact ha.attempt _ _ _ _
  | flush => exact ha.attempt _ _ _ _
  | enqueue name frame group _ hoff =>
      exact ha.enqueue (hoff.resolve_right (hP name)) frame group

end Unstranded

/-! ### What is stored -/

theorem StoredAway.of_queued (h : st'.queued = st.queued) : StoredAway st st' :=
  ⟨[], by rw [h, List.append_nil], fun q hq => absurd hq List.not_mem_nil⟩

theorem StoredAway.trans (h : StoredAway st st') (hcalm : Calm st' st'')
    (h' : StoredAway st' st'') : StoredAway st st'' := by
  obtain ⟨more, heq, hmore⟩ := h
  obtain ⟨more', heq', hmore'⟩ := h'
  refine ⟨more ++ more', by rw [heq', heq, List.append_assoc], ?_⟩
  intro q hq
  rcases List.mem_append.mp hq with hq | hq
  · exact hcalm.offline (hmore q hq)
  · exact hmore' q hq

theorem storedAway_of_chain (hP : ∀ name, ¬ P.behind name) (hc : Chain env now P st st') :
    StoredAway st st' := by
  induction hc with
  | refl => exact .of_queued rfl
  | @tail b c _ hact ih =>
      refine ih.trans hact.calm ?_
      have hwrite : ∀ (sock : SocketId) (frame : Members ν) (maxBytes : Nat) (cb : WriteCallback ν),
          (attempt b sock frame maxBytes cb).1.queued = b.queued := by
        intro sock frame maxBytes cb
        obtain ⟨status, -, heq⟩ := attempt_eq b sock frame maxBytes cb
        rw [heq]
      have hcalm := hact.calm
      cases hact with
      | own => exact .of_queued (hwrite _ _ _ _)
      | close => exact .of_queued (aside_destroy _ _).queued
      | aside h => exact .of_queued h.queued
      | touch => exact .of_queued rfl
      | groups => exact .of_queued rfl
      | drop => exact .of_queued rfl
      | control => exact .of_queued rfl
      | relay => exact .of_queued (hwrite _ _ _ _)
      | flush => exact .of_queued (hwrite _ _ _ _)
      | enqueue name frame group _ hoff =>
          refine ⟨_, (enqueue_quiet env now b name frame group).1.queued, ?_⟩
          intro q hq
          rw [List.mem_singleton.mp hq]
          exact hcalm.offline (hoff.resolve_right (hP name))

theorem StoredAway.before (h : st'.queued = st.queued) (h' : StoredAway st' st'') :
    StoredAway st st'' := by
  unfold StoredAway at h' ⊢
  rw [← h]
  exact h'

end Effects

/-! ### Steps -/

/-- A write of a message that fails was for the record its alias still has, or the alias is
offline. -/
def FailsCurrent (st : BrokerState ν) (e : Int × Event) : Prop :=
  ∀ i w t, e.2 = .written i false ∨ e.2 = .writeTimeout i → st.writes[i]? = some w →
    w.status = .pending → w.callback.Stores → w.callback.target? = some t → Settles st t

/-- Everything a handler may need leave for, but to store behind a live connection. -/
def nothingBehind : Permits ν := { anything with touch := False, behind := fun _ => False }

section Steps

variable {env : Env} {now : Int} {st st' : BrokerState ν}

theorem nothingBehind_permits (a : PeerRecord ν) (f : MeshFrame ν) :
    RoutePermits nothingBehind env st a f :=
  ⟨fun _ _ _ _ _ _ _ => trivial, fun _ _ _ _ _ _ _ => trivial, fun h => h, fun _ => trivial⟩

theorem nothingBehind_callback (frame : Members ν) (cb : WriteCallback ν) :
    CallbackPermitted nothingBehind frame cb :=
  ⟨fun _ _ _ => trivial, fun _ _ _ _ _ _ => ⟨trivial, .inr trivial⟩, fun _ => trivial,
    fun _ => trivial⟩

theorem Settles.dwindles {s : BrokerState ν} {t : PeerRef} (h : Settles st t)
    (hpeers : s.peers = st.peers) (hdw : Dwindles st s) : Settles s t := by
  refine h.imp (fun hcur => ?_) fun hoff => hdw.calm.offline hoff
  unfold BrokerState.isCurrent at hcur ⊢
  rw [hpeers]
  exact hcur

/-- The state in which an accepted hello is welcomed: nobody else comes online by it. -/
theorem unstranded_welcome (h : Unstranded st) {sock : SocketId} {f : MeshFrame ν} {name : String}
    (taken : Nat) {rooms : RoomTable ν} {peer : PeerRecord ν} (hname : peer.name = name)
    (hsocket : peer.socket = sock) (hsock : st.sockets.has sock = true) (id : String) :
    Unstranded (welcome env now
      { helloState env now st sock name f taken with
        rooms, peers := (helloState env now st sock name f taken).peers.set name peer } peer id) := by
  refine Unstranded.chain (fun _ hb => hb) (welcome_chain peer id) ⟨fun n p hp => ?_, fun n hon => ?_⟩
  · simp only [BrokerState.setMail, Map.get?_set, helloState_get?] at hp
    split at hp
    · obtain rfl := Option.some.inj hp
      rw [hsocket]
      exact hsock
    · exact h.opened n p hp
  · by_contra hc
    rw [Bool.not_eq_false] at hc
    have hbefore : st.mailbox.has n = true := flushMailbox_has _ _ _ _ hc
    by_cases hn : n = name
    · -- the flush has taken the mailbox of the alias itself away
      rw [hn, ← hname] at hc
      simp only [BrokerState.setMail, flushMailbox, Map.has, Map.get?_delete, if_pos] at hc
      cases hc
    · obtain ⟨p, hp⟩ := Option.isSome_iff_exists.mp hon
      obtain ⟨hget, hd, hs⟩ := online_eq_some hp
      simp only [BrokerState.setMail, Map.get?_set, helloState_get?, if_neg hn] at hget
      have hon' : (st.online n).isSome = true :=
        Option.isSome_iff_exists.mpr ⟨p, online_of hget hd hs⟩
      exact Bool.false_ne_true ((h.empty n hon').symm.trans hbefore)

theorem storedAway_welcome (env : Env) (now : Int) (st : BrokerState ν) (peer : PeerRecord ν)
    (id : String) (sock : SocketId) :
    StoredAway st ((welcome env now st peer id).clearTimer sock) := by
  have hc : Chain env now (flushOnly peer.toRef (flushMailbox st.mail env.cfg peer.name now).1)
      (st.setMail (flushMailbox st.mail env.cfg peer.name now).2.2)
      ((welcome env now st peer id).clearTimer sock) :=
    (welcome_chain peer id).tail (.aside (aside_clearTimer _ sock))
  refine (storedAway_of_chain (fun _ hb => hb) hc).before ?_
  rfl

/-- **One step** that meets the condition keeps mail from being stranded. -/
theorem unstranded_step {e : Int × Event} (hcons : Consistent False env.cfg st)
    (h : Unstranded st) (hfail : FailsCurrent st e) (hstep : BrokerStep env st e st') :
    Unstranded st' ∧ StoredAway st st' := by
  obtain ⟨now, e⟩ := e
  have hkept : ∀ {s : BrokerState ν}, s.queued = st.queued → Unstranded s →
      Chain env now ownOnly s st' → Unstranded st' ∧ StoredAway st st' := by
    intro s hq hs hc
    exact ⟨hs.chain (fun _ hb => hb) hc, (storedAway_of_chain (fun _ hb => hb) hc).before hq⟩
  have hseen : ∀ {sock : SocketId} {f : MeshFrame ν} {a : PeerRecord ν},
      authed st sock f = some a → Unstranded (st.updatePeer (a.seen now)) := by
    intro sock f a hauth
    refine h.updatePeer (authed_sender hcons.keyed hauth).2 ?_ ?_ ?_ <;> rfl
  have hmoved : ∀ {sock : SocketId} {f : MeshFrame ν} {a peer : PeerRecord ν} (rooms : RoomTable ν),
      authed st sock f = some a → peer.name = a.name → peer.socket = a.socket →
      peer.helloDone = a.helloDone →
      Unstranded ({ st.updatePeer (a.seen now) with rooms }.updatePeer peer) := by
    intro sock f a peer rooms hauth hname hsocket hdone
    have hrooms : Unstranded { st.updatePeer (a.seen now) with rooms } :=
      (hseen hauth).of_same rfl rfl (fun _ => rfl) fun _ hon => hon
    have hself : { st.updatePeer (a.seen now) with rooms }.peers.get? (a.seen now).name
        = some (a.seen now) := Map.get?_set_self _ _ _
    exact hrooms.updatePeer hself hname hsocket hdone
  -- a line is read from a socket that was opened, or it does nothing
  have hline : ∀ sock text, e = .line sock text → st.sockets.has sock = true ∨ st' = st := by
    intro sock text he
    subst he
    unfold BrokerStep at hstep
    simp only [step] at hstep
    split at hstep
    · next hconn =>
        left
        unfold BrokerState.isConnected at hconn
        split at hconn
        · next s hs => exact (Map.has_iff _ _).mpr ⟨s, hs⟩
        · cases hconn
    · exact .inr (Except.ok.inj hstep).symm
  cases step_shape hcons.keyed hstep with
  | quiet hc => exact hkept rfl h hc
  | @connected sock _ _ hnew =>
      refine ⟨⟨fun n p hp => (has_set _ _ _ _).mpr (.inl (h.opened n p hp)), fun n hon => ?_⟩,
        .of_queued rfl⟩
      obtain ⟨p, hp⟩ := Option.isSome_iff_exists.mp hon
      obtain ⟨hget, hd, hs⟩ := online_eq_some hp
      have hne : p.socket ≠ sock := by
        intro heq
        have hopened := h.opened n p hget
        rw [heq, hnew] at hopened
        cases hopened
      refine h.empty n (Option.isSome_iff_exists.mpr ⟨p, online_of hget hd ?_⟩)
      simpa [BrokerState.isDestroyed, Map.get?_set, hne] using hs
  | routed f a _ hauth _ hc =>
      have hc := hc nothingBehind (nothingBehind_permits _ _) fun _ => trivial
      refine ⟨(hseen hauth).chain (fun _ hb => hb) hc,
        (storedAway_of_chain (fun _ hb => hb) hc).before ?_⟩
      rfl
  | joined f a _ hauth room rooms peer hjoin hc =>
      have hlinked : Linked st.rooms (a.seen now) :=
        hcons.linked a.name a (authed_sender hcons.keyed hauth).2
      have hsame := (joinRoom_effect hcons.bounded hlinked hjoin).same
      refine hkept ?_ (hmoved rooms hauth ?_ ?_ ?_) hc
      · rfl
      · rw [hsame]; rfl
      · rw [hsame]; rfl
      · rw [hsame]; rfl
  | joinRefused f a _ hauth room code rooms peer _ hc =>
      have hrooms : Unstranded { st.updatePeer (a.seen now) with rooms } :=
        (hseen hauth).of_same rfl rfl (fun _ => rfl) fun _ hon => hon
      refine hkept ?_ hrooms hc
      rfl
  | left f a _ hauth room rooms peer hleave hc =>
      obtain ⟨-, -, hsame⟩ := leaveRoom_effect hcons.bounded hleave
      refine hkept ?_ (hmoved rooms hauth ?_ ?_ ?_) hc
      · rfl
      · rw [hsame]; rfl
      · rw [hsame]; rfl
      · rw [hsame]; rfl
  | @welcomed sock text f name _ _ requested taken rooms peer _ hjoin =>
      rcases hline sock text rfl with hsock | hsame
      · have he := joinAll_effect hcons.bounded (newPeer_linked name) hjoin
        have hname : peer.name = name := by rw [he.same]; rfl
        have hsocket : peer.socket = sock := by rw [he.same]; rfl
        refine ⟨(unstranded_welcome h taken hname hsocket hsock f.id).aside (aside_clearTimer _ _), ?_⟩
        refine (storedAway_welcome env now _ peer f.id sock).before ?_
        rfl
      · rw [hsame]
        exact ⟨h, .of_queued rfl⟩
  | @roomRefused sock text f name _ _ requested taken code rooms peer _ hjoin =>
      have hname : peer.name = name := by
        rw [(joinAll_effect hcons.bounded (newPeer_linked name) hjoin).same]
        rfl
      obtain ⟨w, -, -, -, heq⟩ := refuseRooms_eq env now
        { helloState env now st sock name f taken with rooms } sock peer code f.id
      have hsub : ∀ n p, ((helloState env now st sock name f taken).peers.delete peer.name).get? n
          = some p → st.peers.get? n = some p := by
        intro n p hp
        rw [Map.get?_delete] at hp
        split at hp
        · cases hp
        · next hn =>
            rw [helloState_get?, if_neg (by rw [← hname]; exact hn)] at hp
            exact hp
      have hcleared := aside_clearTimer (refuseRooms env now
        { helloState env now st sock name f taken with rooms } sock peer code f.id) sock
      refine ⟨Unstranded.aside ?_ hcleared, .of_queued (hcleared.queued.trans ?_)⟩
      · rw [heq]
        refine Unstranded.aside ?_ (aside_destroy _ _)
        refine ⟨fun n p hp => h.opened n p (hsub n p hp), fun n hon => ?_⟩
        obtain ⟨p, hp⟩ := Option.isSome_iff_exists.mp hon
        obtain ⟨hget, hd, hs⟩ := online_eq_some hp
        exact h.empty n (Option.isSome_iff_exists.mpr ⟨p, online_of (hsub n p hget) hd hs⟩)
      · rw [heq]
        exact (aside_destroy _ _).queued
  | @written _ i ok w st₁ hevent hw hpending =>
      have haside : Aside st st₁ := by
        rcases hevent with ⟨-, rfl⟩ | ⟨-, -, rfl⟩
        · exact .refl _
        · exact aside_destroy _ _
      have hsettled : Unstranded (st₁.settleWrite i (if ok then .ok else .failed)) :=
        (h.aside haside).of_same rfl rfl (fun _ => rfl) fun _ hon => hon
      have hc : Chain env now nothingBehind (st₁.settleWrite i (if ok then .ok else .failed))
          (runCallback env now (st₁.settleWrite i (if ok then .ok else .failed)) w.frame ok
            w.callback) := by
        refine runCallback_chain ok (nothingBehind_callback _ _) fun hok hstores t ht => .inl ?_
        have hsettles : Settles st t := by
          refine hfail i w t ?_ hw hpending hstores ht
          rcases hevent with ⟨he, -⟩ | ⟨he, -, -⟩
          · exact .inl (by rw [← hok]; exact he)
          · exact .inr he
        exact hsettles.dwindles haside.peers (haside.dwindles.trans (.of_same rfl rfl rfl))
      refine ⟨hsettled.chain (fun _ hb => hb) hc,
        (storedAway_of_chain (fun _ hb => hb) hc).before ?_⟩
      exact haside.queued
  | @settled g =>
      have hc : Chain env now nothingBehind st (handleSettled env now st g) :=
        handleSettled_chain trivial (fun _ _ => trivial) g
      exact ⟨h.chain (fun _ hb => hb) hc, storedAway_of_chain (fun _ hb => hb) hc⟩
  | swept hc =>
      have hsilent := aside_silence env now st
      have hpruned : Unstranded (pruneStaleKnownAliases now (st.silence env now)) :=
        (h.aside hsilent).of_same rfl rfl (fun _ => rfl) fun _ hon => hon
      refine hkept ?_ hpruned hc
      exact hsilent.queued
  | purged =>
      have hmail : Unstranded (st.setMail (purgeAllExpired st.mail env.cfg now).2) := by
        refine ⟨h.opened, fun n hon => ?_⟩
        by_contra hc
        rw [Bool.not_eq_false] at hc
        exact Bool.false_ne_true ((h.empty n hon).symm.trans (purgeAllExpired_has _ _ _ hc))
      have hc : Chain env now noticesOnly _ (handlePurge env now st) := handlePurge_chain
      refine ⟨hmail.notices hc, (storedAway_of_chain (fun _ hb => hb) hc).before ?_⟩
      rfl

end Steps

/-! ### Runs -/

section Runs

variable {env : Env} {epoch : Int} {tr : BrokerTrace ν} {st : BrokerState ν}

theorem unstranded_run (hrun : Run (BrokerStep env) (BrokerState.init epoch) tr st)
    (hfail : Meets FailsCurrent tr) : Unstranded st := by
  refine hrun.along (P := fun _ st => Unstranded st) hfail ⟨fun n p hp => ?_, fun n hon => ?_⟩ ?_
  · cases hp
  · cases hon
  · intro tr s e s' hr _ hs he hstep
    exact (unstranded_step (linked_run hr) hs he hstep).1

/-- **No stranded mail**, in every run in which a message's write never fails behind a newer
record of its alias: who is online has an empty mailbox, and what the next event stores it
stores for aliases that are offline. -/
theorem no_stranded_mail (hrun : Run (BrokerStep env) (BrokerState.init epoch) tr st)
    (hfail : Meets FailsCurrent tr) :
    (∀ name p, st.online name = some p → (st.mailbox.get? name).getD [] = []) ∧
    ∀ (e : Int × Event) (st' : BrokerState ν), FailsCurrent st e → BrokerStep env st e st' →
      StoredAway st st' := by
  have h := unstranded_run hrun hfail
  refine ⟨fun name p hp => ?_, fun e st' he hstep => ?_⟩
  · have hempty := h.empty name (Option.isSome_iff_exists.mpr ⟨p, hp⟩)
    unfold Map.has at hempty
    rw [Option.isSome_eq_false_iff, Option.isNone_iff_eq_none] at hempty
    rw [hempty]
    rfl
  · exact (unstranded_step (linked_run hrun) h he hstep).2

end Runs

/-! ### Two runs -/

/-- The test for `FailsCurrent`. -/
def failsCurrent (st : BrokerState ν) (e : Int × Event) : Bool :=
  match e.2 with
  | .written i false | .writeTimeout i =>
      (st.writes[i]?).all fun w => w.callback.target?.all fun t =>
        st.isCurrent t || (st.online t.name).isNone
  | _ => true

theorem failsCurrent_of_test {st : BrokerState ν} {e : Int × Event}
    (h : failsCurrent st e = true) : FailsCurrent st e := by
  intro i w t he hw _ _ ht
  unfold failsCurrent at h
  rcases he with he | he
  · simpa [he, hw, ht, Settles] using h
  · simpa [he, hw, ht, Settles] using h

/-- Alice writes to bob; what follows happens before the write has settled. -/
def aliceToBobThen (rest : List (Int × Event)) : List (Int × Event) :=
  aliceWrites (frameLine .msg "m_3" "alice"
    [("to", .str "bob"), ("room", .str "default"), ("body", .str "hi")]) ++ rest

theorem no_stranded_mail_failed : ∃ (tr : BrokerTrace Int) (st : BrokerState Int),
    tr.map Prod.snd = aliceToBobThen [(1005, .written 3 false)] ∧
    st.mailbox.has "bob" = true ∧ st.online "bob" = none ∧
    ∃ p, st.online "alice" = some p ∧ (st.mailbox.get? "alice").getD [] = [] := by
  have h : ((runBroker (referenceEnv {}) (aliceToBobThen [(1005, .written 3 false)])).any fun r =>
      (r.1.all fun x => failsCurrent x.1 x.2) && (r.2.mailbox.has "bob" &&
        ((r.2.online "bob").isNone && (r.2.online "alice").isSome))) = true := by decide +kernel
  obtain ⟨tr, st, hrun, htr, hcheck⟩ := exists_run h
  simp only [Bool.and_eq_true, List.all_eq_true, Option.isNone_iff_eq_none,
    Option.isSome_iff_exists] at hcheck
  obtain ⟨hok, hbob, hoff, p, hp⟩ := hcheck
  refine ⟨tr, st, htr, hbob, hoff, p, hp, ?_⟩
  exact (no_stranded_mail hrun fun x hx => failsCurrent_of_test (hok x hx)).1 "alice" p hp

/-- Bob has said hello on a new socket when the write to his old one fails: the message is
put into his mailbox, and nothing will take it out while he stays. -/
theorem mail_behind_connection : ∃ (tr : BrokerTrace Int) (st : BrokerState Int),
    Run (BrokerStep (referenceEnv {})) (BrokerState.init 1) tr st ∧
    tr.map Prod.snd = aliceToBobThen [(1005, .lost 1), (1006, .connect 2 false none),
      (1007, .line 2 (frameLine .hello "m_4" "bob" [])), (1008, .written 3 false)] ∧
    ∃ p, st.online "bob" = some p ∧ (st.mailbox.get? "bob").getD [] ≠ [] := by
  have h : ((runBroker (referenceEnv {}) (aliceToBobThen [(1005, .lost 1),
      (1006, .connect 2 false none), (1007, .line 2 (frameLine .hello "m_4" "bob" [])),
      (1008, .written 3 false)])).any fun r =>
      (r.2.online "bob").isSome && !((r.2.mailbox.get? "bob").getD []).isEmpty) = true := by
    decide +kernel
  obtain ⟨tr, st, hrun, htr, hcheck⟩ := exists_run h
  simp only [Bool.and_eq_true, Option.isSome_iff_exists, Bool.not_eq_true'] at hcheck
  obtain ⟨⟨p, hp⟩, hmail⟩ := hcheck
  refine ⟨tr, st, hrun, htr, p, hp, ?_⟩
  intro hnil
  rw [hnil] at hmail
  cases hmail

end PiMesh
