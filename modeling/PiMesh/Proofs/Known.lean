/-
Whom the broker knows.

A message for an alias that is offline is kept only if the alias is in `knownAliases`.
An alias enters the table at its hello and leaves it in a sweep, when it has no record,
no mailbox and a stamp of more than 24 hours.  The stamp is the time of the last hello
and not of the last connection, so the sweep forgets an alias whose long connection
ended a moment ago; and a write that fails after that puts a message into the mailbox
of an alias nobody knows.

Everything else keeps the table ahead of its uses: a record belongs to a known alias, and
so do a mailbox and a message on its way where no sweep came between.
-/
import PiMesh.Proofs.Deliveries

namespace PiMesh

open Js Transition Relation BrokerState

variable {ν : Type} [Number ν] [DecidableEq ν]

/-! ### Everyone mail may be stored for -/

/-- Who has a record is in the table, and under `C` so is who has a mailbox or a message on its
way. -/
structure Acquainted (C : Prop) (known : Map String Int) (st : BrokerState ν) : Prop where
  peers : ∀ name, st.peers.has name = true → known.has name = true
  mailbox : C → ∀ name, st.mailbox.has name = true → known.has name = true
  pending : C → ∀ w ∈ st.writes, w.status = .pending → w.callback.Stores →
    ∀ t, w.callback.target? = some t → known.has t.name = true

/-- Messages are passed on to and stored for known aliases only. -/
structure Permits.Knows (C : Prop) (P : Permits ν) (known : Map String Int) : Prop where
  relay : ∀ t out cb, P.relay t out cb →
    cb.target? = some t ∧ (cb.Stores → C → known.has t.name = true)
  store : ∀ name out group, P.store name out group → C → known.has name = true

/-- The widest such permits of a handler that flushes nothing. -/
def knownOnly (C : Prop) (known : Map String Int) : Permits ν where
  relay t _ cb := cb.target? = some t ∧ (cb.Stores → C → known.has t.name = true)
  store name _ _ := C → known.has name = true
  ack _ _ := True
  groups := True
  control := True
  behind _ := True

theorem knownOnly_knows (C : Prop) (known : Map String Int) :
    (knownOnly C known : Permits ν).Knows C known :=
  ⟨fun _ _ _ h => h, fun _ _ _ h => h⟩

section Effects

variable {C : Prop} {known : Map String Int} {env : Env} {now : Int} {P : Permits ν}
  {st st' : BrokerState ν}

theorem has_delete {α : Type} (m : Map String α) {k name : String}
    (h : (m.delete k).has name = true) : m.has name = true := by
  rw [Map.has_iff] at h ⊢
  simp only [Map.get?_delete] at h
  split at h
  · simp at h
  · exact h

theorem partitionExpired_has (mail : Mail ν) (owner : String) (ttlMs now : Int) {name : String}
    (h : (partitionExpired mail owner ttlMs now).2.2.mailbox.has name = true) :
    mail.mailbox.has name = true := by
  simp only [partitionExpired] at h
  split at h
  · exact has_delete _ h
  · next hfresh =>
      rcases (has_set _ _ _ _).mp h with h | rfl
      · exact h
      · -- a fresh entry can only come out of a queue that is there
        cases hq : mail.mailbox.get? name with
        | none =>
            rw [hq] at hfresh
            simp at hfresh
        | some q => exact (Map.has_iff _ _).mpr ⟨q, hq⟩

namespace Acquainted

theorem of_same (h : Acquainted C known st) (hp : st'.peers = st.peers)
    (hm : st'.mailbox = st.mailbox) (hw : st'.writes = st.writes) : Acquainted C known st' :=
  ⟨by rw [hp]; exact h.peers, by rw [hm]; exact h.mailbox, by rw [hw]; exact h.pending⟩

theorem aside (h : Acquainted C known st) (ha : Aside st st') : Acquainted C known st' :=
  h.of_same ha.peers ha.mailbox ha.writes

/-- One write more. -/
theorem attempt (h : Acquainted C known st) {sock : SocketId} {frame : Members ν} {maxBytes : Nat}
    {cb : WriteCallback ν}
    (hcb : C → cb.Stores → ∀ t, cb.target? = some t → known.has t.name = true) :
    Acquainted C known (attempt st sock frame maxBytes cb).1 := by
  obtain ⟨status, -, heq⟩ := attempt_eq st sock frame maxBytes cb
  rw [heq]
  refine ⟨h.peers, h.mailbox, ?_⟩
  intro hC w hw hpending
  rcases List.mem_append.mp hw with hw | hw
  · exact h.pending hC w hw hpending
  · rw [List.mem_singleton] at hw
    subst hw
    exact hcb hC

theorem own (h : Acquainted C known st) {sock : SocketId} {frame : Members ν} {maxBytes : Nat}
    {cb : WriteCallback ν} (hcb : cb.IsOwn) :
    Acquainted C known (PiMesh.attempt st sock frame maxBytes cb).1 := by
  refine h.attempt fun _ _ t ht => ?_
  rw [target?_eq_none_of_isOwn hcb] at ht
  cases ht

/-- Records may go. -/
theorem dropPeer (h : Acquainted C known st) (name : String) (peer : PeerRecord ν) :
    Acquainted C known (st.dropPeer name peer) := by
  have htables : Acquainted C known
      { st with rooms := detachFromRooms st.rooms peer, peers := st.peers.delete name } :=
    ⟨fun n hn => h.peers n (has_delete _ hn), h.mailbox, h.pending⟩
  exact htables.aside (aside_destroy _ _)

/-- Mailboxes may go. -/
theorem setMail (h : Acquainted C known st) {mail : Mail ν}
    (hsub : C → ∀ name, mail.mailbox.has name = true → known.has name = true) :
    Acquainted C known (st.setMail mail) := ⟨h.peers, hsub, h.pending⟩

theorem updatePeer (h : Acquainted C known st) {p : PeerRecord ν}
    (hp : st.peers.has p.name = true) : Acquainted C known (st.updatePeer p) := by
  refine ⟨?_, h.mailbox, h.pending⟩
  intro name hname
  rcases (has_set _ _ _ _).mp hname with hname | rfl
  · exact h.peers _ hname
  · exact h.peers _ hp

theorem notices (hc : Chain env now noticesOnly st st') (h : Acquainted C known st) :
    Acquainted C known st' := by
  refine chain_keeps (fun {a b} hact ha => ?_) hc h
  cases hact with
  | own sock stamp opts maxBytes cb hcb => exact ha.own hcb
  | close name peer _ => exact ha.dropPeer name peer
  | aside hx => exact ha.aside hx
  | touch p p' hP => exact hP.elim
  | groups hP => exact hP.elim
  | drop => exact ha.of_same rfl rfl rfl
  | control hP => exact hP.elim
  | relay target frame cb hP => exact hP.elim
  | flush peer m hP => exact hP.elim
  | enqueue name frame group hP => exact hP.elim

/-- Storing a message for a known alias. -/
theorem enqueue (h : Acquainted C known st) {name : String} (hname : C → known.has name = true)
    (frame : Members ν) (group : Option Nat) :
    Acquainted C known (enqueue env now st name frame group) := by
  have hstore : Acquainted C known (st.storeMsg env now name frame group) := by
    refine ⟨h.peers, ?_, h.pending⟩
    intro hC n hn
    rcases (has_set _ _ _ _).mp hn with hn | rfl
    · exact h.mailbox hC n (partitionExpired_has _ _ _ _ hn)
    · exact hname hC
  exact hstore.notices (notifyDropped_chain trivial _)

/-- A chain passes on to and stores for known aliases, so nobody new has to be known. -/
theorem chain (hP : P.Knows C known) (hc : Chain env now P st st') (h : Acquainted C known st) :
    Acquainted C known st' := by
  refine chain_keeps (fun {a b} hact ha => ?_) hc h
  cases hact with
  | own sock stamp opts maxBytes cb hcb => exact ha.own hcb
  | close name peer _ => exact ha.dropPeer name peer
  | aside hx => exact ha.aside hx
  | touch p p' _ hp hsame =>
      refine ha.updatePeer ?_
      rw [hsame.name]
      exact (Map.has_iff _ _).mpr ⟨p, hp⟩
  | groups => exact ha.of_same rfl rfl rfl
  | drop => exact ha.of_same rfl rfl rfl
  | control => exact ha.of_same rfl rfl rfl
  | relay target frame cb hr =>
      obtain ⟨ht, hs⟩ := hP.relay target frame cb hr
      refine ha.attempt fun hC hst t ht' => ?_
      obtain rfl := Option.some.inj (ht.symm.trans ht')
      exact hs hst hC
  | flush peer m => exact ha.attempt fun _ hs => hs.elim
  | enqueue name frame group hs => exact ha.enqueue (hP.store name frame group hs) frame group

theorem ownChain (hc : Chain env now ownOnly st st') (h : Acquainted C known st) :
    Acquainted C known st' := by
  have hP : (ownOnly : Permits ν).Knows C known :=
    ⟨fun _ _ _ hr => hr.elim, fun _ _ _ hs => hs.elim⟩
  exact h.chain hP hc

/-- A write settled, so one message less is on its way. -/
theorem settleWrite (h : Acquainted C known st) (i : Nat) {status : WriteStatus}
    (hstatus : status ≠ .pending) : Acquainted C known (st.settleWrite i status) := by
  refine ⟨h.peers, h.mailbox, ?_⟩
  intro hC w hw hpending
  rcases mem_settleWrite hw with hw | ⟨w₀, -, rfl⟩
  · exact h.pending hC w hw hpending
  · exact absurd hpending hstatus

end Acquainted

end Effects

/-! ### Steps -/

/-- The sweep forgets the alias: no record, no mailbox, no hello in the last 24 hours. -/
structure Stale (now : Int) (st : BrokerState ν) (name : String) : Prop where
  record : st.peers.has name = false
  mailbox : st.mailbox.has name = false
  stamp : ∃ stamp, st.knownAliases.get? name = some stamp ∧ now - stamp > maxAliasAgeMs

/-- A message for the alias is on its way. -/
def Awaits (st : BrokerState ν) (name : String) : Prop :=
  ∃ w ∈ st.writes, w.status = .pending ∧ w.callback.Stores ∧
    ∃ t, w.callback.target? = some t ∧ t.name = name

section Steps

variable {C : Prop} {env : Env} {now : Int} {st st' : BrokerState ν}

theorem Stale.aside (h : Aside st st') {name : String} (hs : Stale now st' name) :
    Stale now st name :=
  ⟨by rw [← h.peers]; exact hs.record, by rw [← h.mailbox]; exact hs.mailbox,
    by rw [← h.knownAliases]; exact hs.stamp⟩

/-- The sweep forgets the stale aliases and nobody else. -/
theorem stamp_pruned {name : String} {stamp : Int} (h : st.knownAliases.get? name = some stamp)
    (hfresh : ¬ Stale now st name) :
    (pruneStaleKnownAliases now st).knownAliases.get? name = some stamp := by
  show (List.foldl Map.delete st.knownAliases _).get? name = some stamp
  rw [Map.get?_foldl_delete, if_neg, h]
  intro hin
  obtain ⟨⟨k, v⟩, hmem, rfl⟩ := List.mem_map.mp hin
  obtain ⟨hentry, hcond⟩ := List.mem_filter.mp hmem
  simp only [Bool.and_eq_true, Bool.not_eq_true', decide_eq_true_eq] at hcond
  exact hfresh ⟨hcond.1.1, hcond.1.2, v, (Map.mem_entries_iff _ _ _).mp hentry, hcond.2⟩

theorem known_pruned {name : String} (h : st.knownAliases.has name = true)
    (hfresh : ¬ Stale now st name) :
    (pruneStaleKnownAliases now st).knownAliases.has name = true := by
  obtain ⟨stamp, hstamp⟩ := (Map.has_iff _ _).mp h
  exact (Map.has_iff _ _).mpr ⟨stamp, stamp_pruned hstamp hfresh⟩

theorem acquainted_pruned (h : Acquainted C st.knownAliases st)
    (hidle : C → ∀ name, Stale now st name → ¬ Awaits st name) :
    Acquainted C (pruneStaleKnownAliases now st).knownAliases (pruneStaleKnownAliases now st) := by
  refine ⟨fun name hn => ?_, fun hC name hn => ?_, fun hC w hw hpending hstores t ht => ?_⟩
  · refine known_pruned (h.peers name hn) fun hs => ?_
    exact Bool.false_ne_true (hs.record.symm.trans hn)
  · refine known_pruned (h.mailbox hC name hn) fun hs => ?_
    exact Bool.false_ne_true (hs.mailbox.symm.trans hn)
  · refine known_pruned (h.pending hC w hw hpending hstores t ht) fun hs => ?_
    exact hidle hC t.name hs ⟨w, hw, hpending, hstores, t, ht, rfl⟩

theorem flushMailbox_has (mail : Mail ν) (cfg : MeshConfig) (owner : String) (now : Int)
    {name : String} (h : (flushMailbox mail cfg owner now).2.2.mailbox.has name = true) :
    mail.mailbox.has name = true :=
  partitionExpired_has _ _ _ _ (has_delete _ h)

theorem purgeAllExpired_has (mail : Mail ν) (cfg : MeshConfig) (now : Int) {name : String}
    (h : (purgeAllExpired mail cfg now).2.mailbox.has name = true) :
    mail.mailbox.has name = true := by
  unfold purgeAllExpired at h
  revert h
  -- the loop changes one queue after the other
  have hloop : ∀ (f : List (StoredMsg ν) × Mail ν → String → List (StoredMsg ν) × Mail ν),
      (∀ acc n, (f acc n).2 = (partitionExpired acc.2 n cfg.mailboxTtlMs now).2.2) →
      ∀ (names : List String) (acc : List (StoredMsg ν) × Mail ν),
        ((names.foldl f acc).2.mailbox.has name = true) → acc.2.mailbox.has name = true := by
    intro f hf names
    induction names with
    | nil => exact fun _ h => h
    | cons n rest ih =>
        intro acc h
        rw [List.foldl_cons] at h
        have hrest := ih _ h
        rw [hf] at hrest
        exact partitionExpired_has _ _ _ _ hrest
  refine hloop _ ?_ _ _
  intro acc n
  rfl

/-- The table an accepted hello leaves. -/
theorem acquainted_hello (env : Env) (now : Int) (h : Acquainted C st.knownAliases st) (sock : SocketId)
    (f : MeshFrame ν) (name : String) (taken : Nat) :
    Acquainted C (helloState env now st sock name f taken).knownAliases
      (helloState env now st sock name f taken) := by
  have hset : ∀ n, st.knownAliases.has n = true → (st.knownAliases.set name now).has n = true :=
    fun n hn => (has_set _ _ _ _).mpr (.inl hn)
  refine ⟨fun n hn => ?_, fun hC n hn => hset n (h.mailbox hC n hn),
    fun hC w hw hpending hstores t ht => hset _ (h.pending hC w hw hpending hstores t ht)⟩
  rcases (has_set _ _ _ _).mp hn with hn | rfl
  · refine hset n (h.peers n ?_)
    split at hn
    · exact has_delete _ hn
    · exact hn
  · exact (has_set _ _ _ _).mpr (.inr rfl)

/-- An accepted hello with its rooms. -/
theorem acquainted_joined (env : Env) (now : Int) (h : Acquainted C st.knownAliases st) (sock : SocketId) (f : MeshFrame ν)
    {name : String} {peer : PeerRecord ν} (taken : Nat) (hname : peer.name = name)
    (rooms : RoomTable ν) :
    Acquainted C (helloState env now st sock name f taken).knownAliases
      { helloState env now st sock name f taken with
        rooms, peers := (helloState env now st sock name f taken).peers.set name peer } := by
  have hhello := acquainted_hello env now h sock f name taken
  refine ⟨fun n hn => ?_, hhello.mailbox, hhello.pending⟩
  rcases (has_set _ _ _ _).mp hn with hn | rfl
  · exact hhello.peers n hn
  · exact hhello.peers n ((has_set _ _ _ _).mpr (.inr rfl))

/-- The flush of an accepted hello. -/
theorem acquainted_welcome {known : Map String Int} (env : Env) (now : Int)
    (h : Acquainted C known st) (peer : PeerRecord ν) (id : String) :
    Acquainted C known (welcome env now st peer id) := by
  have hP : (flushOnly peer.toRef (flushMailbox st.mail env.cfg peer.name now).1).Knows C known :=
    ⟨fun _ _ _ hr => hr.elim, fun _ _ _ hs => hs.elim⟩
  have hmail : Acquainted C known (st.setMail (flushMailbox st.mail env.cfg peer.name now).2.2) := by
    refine h.setMail fun hC n hn => h.mailbox hC n ?_
    exact flushMailbox_has _ _ _ _ hn
  exact hmail.chain hP (welcome_chain peer id)

/-- A record written back over its own. -/
theorem acquainted_moved (h : Acquainted C st.knownAliases st) (hkeyed : Keyed st)
    {sock : SocketId} {f : MeshFrame ν} {a peer : PeerRecord ν} (hauth : authed st sock f = some a)
    (hname : peer.name = a.name) (rooms : RoomTable ν) :
    Acquainted C st.knownAliases ({ st.updatePeer (a.seen now) with rooms }.updatePeer peer) := by
  have ha : st.peers.has a.name = true :=
    (Map.has_iff _ _).mpr ⟨a, (authed_sender hkeyed hauth).2⟩
  have hseen : Acquainted C st.knownAliases (st.updatePeer (a.seen now)) := h.updatePeer ha
  have hrooms : Acquainted C st.knownAliases { st.updatePeer (a.seen now) with rooms } :=
    hseen.of_same rfl rfl rfl
  refine hrooms.updatePeer ((has_set _ _ _ _).mpr (.inl ?_))
  rw [hname]
  exact ha

/-- **One step**: who has a record stays known, and so does who the broker may have to store mail
for, if the sweep finds nobody stale who awaits a message. -/
theorem acquainted_step {e : Int × Event} (hcons : Consistent False env.cfg st)
    (h : Acquainted C st.knownAliases st)
    (hsweep : C → e.2 = .sweep → ∀ name, Stale e.1 st name → ¬ Awaits st name)
    (hstep : BrokerStep env st e st') : Acquainted C st'.knownAliases st' := by
  obtain ⟨now, e⟩ := e
  cases step_shape hcons.keyed hstep with
  | quiet hc =>
      rw [knownAliases_of_chain hc]
      exact h.ownChain hc
  | connected => exact h.of_same rfl rfl rfl
  | routed f a _ hauth _ hc =>
      have hseen : Acquainted C st.knownAliases (st.updatePeer (a.seen now)) :=
        h.updatePeer ((Map.has_iff _ _).mpr ⟨a, (authed_sender hcons.keyed hauth).2⟩)
      have hP : RoutePermits (knownOnly C st.knownAliases) env (st.updatePeer (a.seen now))
          (a.seen now) f := by
        refine ⟨fun t out cb _ ht _ hhas => ⟨ht, fun _ _ => hseen.peers _ hhas⟩,
          fun name out _ _ _ _ hhas _ => ?_, id, fun _ => trivial⟩
        rcases hhas with hhas | hhas
        · exact hseen.peers _ hhas
        · exact hhas
      have hc := hc _ hP fun _ => trivial
      rw [knownAliases_of_chain hc]
      exact hseen.chain (knownOnly_knows _ _) hc
  | joined f a _ hauth room rooms peer hjoin hc =>
      have hlinked : Linked st.rooms (a.seen now) :=
        hcons.linked a.name a (authed_sender hcons.keyed hauth).2
      have hname : peer.name = a.name := by
        rw [(joinRoom_effect hcons.bounded hlinked hjoin).same]
        rfl
      rw [knownAliases_of_chain hc]
      exact (acquainted_moved h hcons.keyed hauth hname rooms).ownChain hc
  | joinRefused f a _ hauth room code rooms peer _ hc =>
      have hseen : Acquainted C st.knownAliases (st.updatePeer (a.seen now)) :=
        h.updatePeer ((Map.has_iff _ _).mpr ⟨a, (authed_sender hcons.keyed hauth).2⟩)
      have hrooms : Acquainted C st.knownAliases { st.updatePeer (a.seen now) with rooms } :=
        hseen.of_same rfl rfl rfl
      rw [knownAliases_of_chain hc]
      exact hrooms.ownChain hc
  | left f a _ hauth room rooms peer hleave hc =>
      have hname : peer.name = a.name := by
        rw [(leaveRoom_effect hcons.bounded hleave).2.2]
        rfl
      rw [knownAliases_of_chain hc]
      exact (acquainted_moved h hcons.keyed hauth hname rooms).ownChain hc
  | @welcomed sock _ f name _ _ requested taken rooms peer _ hjoin =>
      have hname : peer.name = name := by
        rw [(joinAll_effect hcons.bounded (newPeer_linked name) hjoin).same]
        rfl
      have hjoined := acquainted_joined env now h sock f taken hname rooms
      rw [(aside_clearTimer _ _).knownAliases, knownAliases_of_chain (welcome_chain peer f.id)]
      exact (acquainted_welcome env now hjoined peer f.id).aside (aside_clearTimer _ _)
  | @roomRefused sock _ f name _ _ requested taken code rooms peer =>
      have hhello := acquainted_hello env now h sock f name taken
      obtain ⟨w, -, hcb, -, heq⟩ := refuseRooms_eq env now
        { helloState env now st sock name f taken with rooms } sock peer code f.id
      rw [(aside_clearTimer _ _).knownAliases]
      refine Acquainted.aside ?_ (aside_clearTimer _ _)
      rw [heq, (aside_destroy _ _).knownAliases]
      refine Acquainted.aside ?_ (aside_destroy _ _)
      refine ⟨fun n hn => hhello.peers n (has_delete _ hn), hhello.mailbox, ?_⟩
      intro hC x hx hpending hstores
      rcases List.mem_append.mp hx with hx | hx
      · exact hhello.pending hC x hx hpending hstores
      · obtain rfl := List.mem_singleton.mp hx
        rw [hcb] at hstores
        exact hstores.elim
  | @written _ i ok w st₁ hevent hw hpending =>
      have h₁ : Acquainted C st.knownAliases st₁ := by
        rcases hevent with ⟨-, rfl⟩ | ⟨-, -, rfl⟩
        · exact h
        · exact h.aside (aside_destroy _ _)
      have hknown : st₁.knownAliases = st.knownAliases := by
        rcases hevent with ⟨-, rfl⟩ | ⟨-, -, rfl⟩
        · rfl
        · exact (aside_destroy _ _).knownAliases
      have hmem := List.mem_of_getElem? hw
      have hperm : CallbackPermitted (knownOnly C st.knownAliases) w.frame w.callback := by
        refine ⟨fun g t hcb hC => ?_, fun s t id i r hcb => ⟨fun hC => ?_, .inr trivial⟩,
          fun _ => trivial, fun _ => trivial⟩
        · exact h.pending hC w hmem hpending (by rw [hcb]; trivial) t (by rw [hcb]; rfl)
        · exact h.pending hC w hmem hpending (by rw [hcb]; trivial) t (by rw [hcb]; rfl)
      have hsettled : Acquainted C st.knownAliases
          (st₁.settleWrite i (if ok then .ok else .failed)) := by
        refine h₁.settleWrite i ?_
        cases ok <;> simp
      have hc : Chain env now (knownOnly C st.knownAliases) _ (runCallback env now
          (st₁.settleWrite i (if ok then .ok else .failed)) w.frame ok w.callback) :=
        runCallback_chain ok hperm fun _ _ _ _ => .inr trivial
      have hsame : (runCallback env now (st₁.settleWrite i (if ok then .ok else .failed)) w.frame ok
          w.callback).knownAliases = st.knownAliases := (knownAliases_of_chain hc).trans hknown
      show Acquainted C (runCallback env now _ w.frame ok w.callback).knownAliases _
      rw [hsame]
      exact hsettled.chain (knownOnly_knows _ _) hc
  | @settled g =>
      have hc : Chain env now (knownOnly C st.knownAliases) st (handleSettled env now st g) :=
        handleSettled_chain trivial (fun _ _ => trivial) g
      rw [knownAliases_of_chain hc]
      exact h.chain (knownOnly_knows _ _) hc
  | swept hc =>
      have hsilent := aside_silence env now st
      have h₁ : Acquainted C (st.silence env now).knownAliases (st.silence env now) := by
        rw [hsilent.knownAliases]
        exact h.aside hsilent
      rw [knownAliases_of_chain hc]
      refine (acquainted_pruned h₁ fun hC name hs => ?_).ownChain hc
      unfold Awaits
      rw [hsilent.writes]
      exact hsweep hC rfl name (hs.aside hsilent)
  | purged =>
      have hmail : Acquainted C st.knownAliases (st.setMail (purgeAllExpired st.mail env.cfg now).2) :=
        h.setMail fun hC name hn => h.mailbox hC name (purgeAllExpired_has _ _ _ hn)
      have hc : Chain env now noticesOnly _ (handlePurge env now st) := handlePurge_chain
      rw [knownAliases_of_chain hc]
      exact hmail.notices hc

/-- The event is a hello of the alias that gets as far as its rooms. -/
def Greets (env : Env) (x : BrokerState ν × Int × Event) (name : String) : Prop :=
  ∃ sock text f, x.2.2 = .line sock text ∧ x.1.isConnected sock = true ∧ Accepted env text f ∧
    HelloOpens env x.1 sock f name

/-- The alias whose hello the event is. -/
def greeter (env : Env) (x : BrokerState ν × Int × Event) : Option String :=
  match x.2.2 with
  | .line sock text =>
      ((parseFrameLine env.rt text).toOption.bind fun ms => (castFrame ms).toOption).bind fun f =>
        f.sender.filter fun name => x.1.isConnected sock && decide (f.type = .hello) &&
          (authed x.1 sock f).isNone && tokenAccepted env (x.1.sockets.get? sock) f.token &&
          !((x.1.peers.get? name).any fun e => e.socket != sock && !x.1.isDestroyed e.socket)
  | _ => none

theorem greets_iff {x : BrokerState ν × Int × Event} {name : String} :
    Greets env x name ↔ greeter env x = some name := by
  unfold greeter Greets
  constructor
  · rintro ⟨sock, text, f, he, hconn, ⟨ms, hparse, hcast⟩, hopen⟩
    rw [he]
    simp [hparse, hcast, Except.toOption, Option.filter_eq_some_iff, hopen.sender, hconn,
      hopen.type, hopen.auth, hopen.token, hopen.free]
  · intro h
    split at h
    · next sock text he =>
        obtain ⟨f, hf, hname⟩ := Option.bind_eq_some_iff.mp h
        obtain ⟨ms, hparse, hcast⟩ := Option.bind_eq_some_iff.mp hf
        obtain ⟨hsender, hall⟩ := Option.filter_eq_some_iff.mp hname
        simp only [Bool.and_eq_true, decide_eq_true_eq, Option.isNone_iff_eq_none,
          Bool.not_eq_true'] at hall
        obtain ⟨⟨⟨⟨hconn, htype⟩, hauth⟩, htoken⟩, hfree⟩ := hall
        exact ⟨sock, text, f, he, hconn, ⟨ms, toOption_eq_some hparse, toOption_eq_some hcast⟩,
          htype, hauth, hsender, htoken, hfree⟩
    · cases h

/-- Such a hello stamps its alias. -/
theorem greets_stamp {e : Int × Event} {name : String} (hgreets : Greets env (st, e) name)
    (hstep : BrokerStep env st e st') : st'.knownAliases.get? name = some e.1 := by
  obtain ⟨now, e⟩ := e
  obtain ⟨sock, text, f, he, hconn, hacc, hopen⟩ := hgreets
  dsimp only at he hconn
  subst he
  unfold BrokerStep at hstep
  simp only [step, hconn, if_true] at hstep
  cases hrooms : requestedRooms (st.refs + 1) f with
  | error err =>
      rw [handleLine_accepted hacc, handleFrame, dispatch_hello hopen, hrooms] at hstep
      cases hstep
  | ok r =>
      obtain ⟨requested, taken⟩ := r
      obtain ⟨⟨code, rooms, peer⟩, -, rfl⟩ := handleLine_hello hacc hopen hrooms hstep
      have hstamped : (helloState env now st sock name f taken).knownAliases.get? name = some now :=
        Map.get?_set_self _ _ _
      rw [(aside_clearTimer _ _).knownAliases]
      cases code with
      | none =>
          show (welcome env now _ peer f.id).knownAliases.get? name = some now
          rw [knownAliases_of_chain (welcome_chain peer f.id)]
          exact hstamped
      | some code =>
          obtain ⟨w, -, -, -, heq⟩ := refuseRooms_eq env now
            { helloState env now st sock name f taken with rooms } sock peer code f.id
          show (refuseRooms env now { helloState env now st sock name f taken with rooms } sock peer
            code f.id).knownAliases.get? name = some now
          rw [heq, (aside_destroy _ _).knownAliases]
          exact hstamped

/-- The stamp of an alias stays until its next hello, or until a sweep finds it old. -/
theorem stamp_step {e : Int × Event} {name : String} {stamp : Int} (hkeyed : Keyed st)
    (hstep : BrokerStep env st e st') (hnot : ¬ Greets env (st, e) name)
    (h : st.knownAliases.get? name = some stamp) :
    st'.knownAliases.get? name = some stamp ∨ (e.2 = .sweep ∧ e.1 - stamp > maxAliasAgeMs) := by
  obtain ⟨now, e⟩ := e
  have hsame : ∀ {s : BrokerState ν} {P : Permits ν}, s.knownAliases = st.knownAliases →
      Chain env now P s st' → st'.knownAliases.get? name = some stamp := by
    intro s P hs hc
    rw [knownAliases_of_chain hc, hs]
    exact h
  -- a line on a socket that is gone changes nothing
  have hconnected : ∀ sock text, e = .line sock text → st.isConnected sock = false → st' = st := by
    rintro sock text rfl hconn
    unfold BrokerStep at hstep
    simp only [step, hconn, Bool.false_eq_true, if_false] at hstep
    exact (Except.ok.inj hstep).symm
  -- and a hello stamps its own alias and leaves the others
  have hstamped : ∀ sock text f n, e = .line sock text → Accepted env text f →
      HelloOpens env st sock f n → st' ≠ st →
      (st.knownAliases.set n now).get? name = some stamp := by
    intro sock text f n he hacc hopen hne
    rw [Map.get?_set_ne, h]
    rintro rfl
    refine hnot ⟨sock, text, f, he, ?_, hacc, hopen⟩
    by_contra hconn
    exact hne (hconnected sock text he (by simpa using hconn))
  by_cases hst : st' = st
  · exact .inl (by rw [hst]; exact h)
  cases step_shape hkeyed hstep with
  | quiet hc => exact .inl (hsame rfl hc)
  | connected => exact .inl h
  | routed f a _ _ _ hc =>
      refine .inl (hsame ?_ (hc anyRoute (anyRoute_permits _ _) fun _ => trivial))
      rfl
  | joined f a _ _ room rooms peer _ hc =>
      refine .inl (hsame ?_ hc)
      rfl
  | joinRefused f a _ _ room code rooms peer _ hc =>
      refine .inl (hsame ?_ hc)
      rfl
  | left f a _ _ room rooms peer _ hc =>
      refine .inl (hsame ?_ hc)
      rfl
  | @welcomed sock text f n hacc hopen requested taken rooms peer =>
      left
      rw [(aside_clearTimer _ _).knownAliases, knownAliases_of_chain (welcome_chain peer f.id)]
      exact hstamped sock text f n rfl hacc hopen hst
  | @roomRefused sock text f n hacc hopen requested taken code rooms peer =>
      left
      obtain ⟨w, -, -, -, heq⟩ := refuseRooms_eq env now
        { helloState env now st sock n f taken with rooms } sock peer code f.id
      rw [(aside_clearTimer _ _).knownAliases, heq, (aside_destroy _ _).knownAliases]
      exact hstamped sock text f n rfl hacc hopen hst
  | @written _ i ok w st₁ hevent _ _ =>
      have hknown : st₁.knownAliases = st.knownAliases := by
        rcases hevent with ⟨-, rfl⟩ | ⟨-, -, rfl⟩
        · rfl
        · exact (aside_destroy _ _).knownAliases
      refine .inl (hsame ?_ (runCallback_chain ok (anything_callback _ _)
        fun _ _ _ _ => .inr trivial))
      exact hknown
  | @settled g =>
      have hc : Chain env now anything st (handleSettled env now st g) :=
        handleSettled_chain trivial (fun _ _ => trivial) g
      exact .inl (hsame rfl hc)
  | swept hc =>
      have hsilent := aside_silence env now st
      by_cases hold : now - stamp > maxAliasAgeMs
      · exact .inr ⟨rfl, hold⟩
      · left
        rw [knownAliases_of_chain hc]
        refine stamp_pruned (by rw [hsilent.knownAliases]; exact h) fun hs => ?_
        obtain ⟨stamp', hstamp, hage⟩ := hs.stamp
        rw [hsilent.knownAliases, h] at hstamp
        obtain rfl := Option.some.inj hstamp
        exact hold hage
  | purged =>
      refine .inl (hsame ?_ handlePurge_chain)
      rfl

end Steps

/-! ### What a direct message is told -/

/-- Only frames other than errors are written. -/
def Tacit (st st' : BrokerState ν) : Prop :=
  ∃ more, st'.writes = st.writes ++ more ∧ ∀ w ∈ more, frameType? w.frame ≠ some .error

/-- The frame refuses a request with this code. -/
def Refuses (frame : Members ν) (code : MeshErrorCode) : Prop :=
  frameType? frame = some .error ∧ getOf frame "code" = some (.str code.text)

/-- Nothing that is written refuses a request with this code. -/
def Withholds (code : MeshErrorCode) (st st' : BrokerState ν) : Prop :=
  ∃ more, st'.writes = st.writes ++ more ∧ ∀ w ∈ more, ¬ Refuses w.frame code

section Tacit

variable {env : Env} {now : Int} {st st' st'' : BrokerState ν}

namespace Tacit

theorem of_writes (h : st'.writes = st.writes) : Tacit st st' := ⟨[], by simp [h]⟩

theorem trans (h : Tacit st st') (h' : Tacit st' st'') : Tacit st st'' := by
  obtain ⟨more, heq, hmore⟩ := h
  obtain ⟨more', heq', hmore'⟩ := h'
  refine ⟨more ++ more', by rw [heq', heq, List.append_assoc], ?_⟩
  intro w hw
  rcases List.mem_append.mp hw with hw | hw
  · exact hmore w hw
  · exact hmore' w hw

theorem foldl {α : Type} {f : BrokerState ν → α → BrokerState ν} (hf : ∀ s a, Tacit s (f s a))
    (l : List α) (s : BrokerState ν) : Tacit s (l.foldl f s) := by
  induction l generalizing s with
  | nil => exact of_writes rfl
  | cons a rest ih =>
      rw [List.foldl_cons]
      exact (hf s a).trans (ih _)

theorem attempt (sock : SocketId) {frame : Members ν} (maxBytes : Nat) (cb : WriteCallback ν)
    (h : frameType? frame ≠ some .error) : Tacit st (attempt st sock frame maxBytes cb).1 := by
  obtain ⟨status, -, heq⟩ := attempt_eq st sock frame maxBytes cb
  rw [heq]
  refine ⟨_, rfl, ?_⟩
  intro w hw
  rw [List.mem_singleton.mp hw]
  exact h

end Tacit

theorem notError_buildFrame (rt : Runtime) (stamp : Stamp) {opts : BuildFrameOpts ν}
    (h : opts.type ≠ .error) : frameType? (buildFrame rt stamp opts) ≠ some .error := by
  rw [frameType?_buildFrame]
  exact fun hc => h (Option.some.inj hc)

/-- A notice to the members of a room. -/
theorem broadcastToRoom_tacit (st : BrokerState ν) (room : RoomKey ν) (exclude : String)
    {write : BrokerState ν → PeerRecord ν → BrokerState ν} (hw : ∀ s p, Tacit s (write s p)) :
    Tacit st (broadcastToRoom st room exclude write) := by
  unfold broadcastToRoom
  split
  · exact .of_writes rfl
  · refine Tacit.foldl (fun s name => ?_) _ st
    split
    · exact .of_writes rfl
    · split
      · exact hw _ _
      · exact .of_writes rfl

theorem closePeer_tacit (env : Env) (now : Int) (st : BrokerState ν) (name : String) :
    Tacit st (closePeer env now st name) := by
  unfold closePeer
  split
  · exact .of_writes rfl
  · next peer _ =>
      have hdrop : Tacit st (st.dropPeer name peer) := .of_writes (aside_destroy _ _).writes
      have hpresence : ∀ s : BrokerState ν, Tacit s (peer.rooms.keys.foldl
          (fun st room =>
            let frame := presenceFrame env now st name "offline" room none none
            broadcastToRoom st.useId room name fun st p =>
              writeIgnored st p.socket frame defaultMaxFrameBytes) s) := by
        refine fun s => Tacit.foldl (fun s room => ?_) _ s
        have hid : Tacit s s.useId := .of_writes rfl
        refine hid.trans (broadcastToRoom_tacit _ _ _ fun s' p => ?_)
        exact .attempt _ _ _ (notError_buildFrame _ _ (by simp))
      refine hdrop.trans ((hpresence _).trans ?_)
      split
      · exact .of_writes rfl
      · refine Tacit.foldl (fun s p => ?_) _ _
        have hid : Tacit s s.useId := .of_writes rfl
        exact hid.trans (.attempt _ _ _ (notError_buildFrame _ _ (by simp)))

theorem closeIfCurrent_tacit (env : Env) (now : Int) (st : BrokerState ν) (peer : PeerRef) :
    Tacit st (closeIfCurrent env now st peer) := by
  unfold closeIfCurrent
  split
  · exact closePeer_tacit _ _ _ _
  · exact .of_writes rfl

theorem sendTo_tacit (env : Env) (now : Int) (st : BrokerState ν) (peer : PeerRef)
    {frame : Members ν} (h : frameType? frame ≠ some .error) :
    Tacit st (sendTo env now st peer frame) := by
  unfold sendTo sendWith
  have hwrite : Tacit st (attempt st peer.socket frame env.cfg.maxFrameBytes (.sendTo peer)).1 :=
    .attempt _ _ _ h
  cases ha : attempt st peer.socket frame env.cfg.maxFrameBytes (.sendTo peer) with
  | mk s ok =>
      rw [ha] at hwrite
      cases ok with
      | true => exact hwrite
      | false => exact hwrite.trans (closeIfCurrent_tacit _ _ _ _)

theorem sendAck_tacit (env : Env) (now : Int) (st : BrokerState ν) (peer : PeerRef) (id : String)
    (status : AckStatus) (i r : Option String) :
    Tacit st (sendAck env now st peer id status i none none r) :=
  sendTo_tacit _ _ _ _ (notError_buildFrame _ _ (by simp))

theorem enqueue_tacit (env : Env) (now : Int) (st : BrokerState ν) (name : String)
    (frame : Members ν) (group : Option Nat) : Tacit st (enqueue env now st name frame group) := by
  rw [enqueue_eq]
  have hstore : Tacit st (st.storeMsg env now name frame group) := .of_writes rfl
  refine hstore.trans (Tacit.foldl (fun s m => ?_) _ _)
  split
  · exact .of_writes rfl
  · have hdrop : Tacit s { s with drops := s.drops ++ [⟨m, true⟩] } := .of_writes rfl
    exact hdrop.trans (sendTo_tacit _ _ _ _ (notError_buildFrame _ _ (by simp)))

/-- A message that is stored is acknowledged as queued. -/
theorem storedAck_tacit (env : Env) (now : Int) (st : BrokerState ν) (sender : PeerRef)
    (id name : String) (i : Option String) (frame : Members ν) :
    Tacit st (sendAck env now ((enqueue env now st name frame).addRelayed 1) sender id
      .queuedOffline i) := by
  have hstore := enqueue_tacit env now st name frame none
  have hcount : Tacit (enqueue env now st name frame)
      ((enqueue env now st name frame).addRelayed 1) := .of_writes rfl
  exact (hstore.trans hcount).trans (sendAck_tacit _ _ _ _ _ _ _ _)

/-- A message that is passed on is answered with acknowledgements only. -/
theorem relayDirect_tacit (env : Env) (now : Int) (st : BrokerState ν) (sender target : PeerRef)
    (id : String) (i r : Option String) {frame : Members ν} (h : frameType? frame ≠ some .error) :
    Tacit st (relay env now st target frame (.direct sender target id i r)) := by
  have hwrite : Tacit st (attempt st target.socket frame env.cfg.maxFrameBytes
      (.direct sender target id i r)).1 := .attempt _ _ _ h
  unfold relay
  cases ha : attempt st target.socket frame env.cfg.maxFrameBytes (.direct sender target id i r) with
  | mk s ok =>
      rw [ha] at hwrite
      cases ok with
      | true => exact hwrite
      | false =>
          have hclose := closeIfCurrent_tacit env now s target
          have hstore := enqueue_tacit env now (closeIfCurrent env now s target) target.name frame none
          simp only [runCallback, Bool.false_eq_true, if_false]
          exact hwrite.trans ((hclose.trans hstore).trans (sendAck_tacit _ _ _ _ _ _ _ _))

namespace Withholds

variable {code : MeshErrorCode}

theorem of_tacit (h : Tacit st st') : Withholds code st st' := by
  obtain ⟨more, heq, hmore⟩ := h
  exact ⟨more, heq, fun w hw hr => hmore w hw hr.1⟩

theorem before (h : st'.writes = st.writes) (h' : Withholds code st' st'') :
    Withholds code st st'' := by
  unfold Withholds at h' ⊢
  rw [← h]
  exact h'

theorem after (h : Withholds code st st') (h' : st''.writes = st'.writes) :
    Withholds code st st'' := by
  unfold Withholds at h ⊢
  rw [h']
  exact h

end Withholds

theorem text_injective {code code' : MeshErrorCode} (h : code.text = code'.text) : code = code' := by
  revert h
  cases code <;> cases code' <;> simp [MeshErrorCode.text]

theorem sendError_withholds (env : Env) (now : Int) (st : BrokerState ν) (sock : SocketId)
    {code code' : MeshErrorCode} (id : String) (hne : code ≠ code') :
    Withholds code' st (sendError env now st sock code (some id)) := by
  obtain ⟨status, -, heq⟩ := sendError_some_eq env now st sock code id
  rw [heq]
  refine ⟨_, rfl, ?_⟩
  intro w hw
  rw [List.mem_singleton.mp hw]
  rintro ⟨-, hcode⟩
  have hget : getOf (buildFrame env.rt (st.stamp env now)
      ({ type := .error, code := some code, id := some id } : BuildFrameOpts ν)) "code"
      = some (.str code.text) := by simp [buildFrame, getOf, lookupEntry]
  rw [hget] at hcode
  exact hne (text_injective (Json.str.inj (Option.some.inj hcode)))

theorem refuse_withholds (env : Env) (now : Int) (st : BrokerState ν) (sock : SocketId)
    {code code' : MeshErrorCode} (id : String) (hne : code ≠ code') :
    Withholds code' st (refuse env now st sock code id) :=
  .before (aside_addRefused st).writes (sendError_withholds env now st.addRefused sock id hne)

theorem evaluatePolicy_code {policy : MeshPolicy} {ctx : PolicyContext} {code : MeshErrorCode}
    (h : evaluatePolicy policy ctx = .deny code) : code = .policyDenied := by
  unfold evaluatePolicy at h
  split at h
  · exact (PolicyDecision.deny.inj h).symm
  · split at h
    · exact (PolicyDecision.deny.inj h).symm
    · split at h
      · split at h
        · cases h
        · exact (PolicyDecision.deny.inj h).symm
      · cases h

/-- The direct branch, for an alias that is known. -/
theorem routeDirect_withholds (env : Env) (now : Int) (st : BrokerState ν) (a : PeerRecord ν)
    {f : MeshFrame ν} (room : String) {target : String} (hraw : frameType? f.raw = some .msg)
    (hknown : st.knownAliases.has target = true) :
    Withholds .peerNotFound st (routeDirect env now st a f room target) := by
  unfold routeDirect
  simp only [hknown, Bool.not_true, Bool.and_false, Bool.false_eq_true, if_false]
  split
  · exact refuse_withholds _ _ _ _ _ (by simp)
  · refine Withholds.before (aside_takeRate env now st a.name
      (rateKind (f.priority.getD .normal))).writes ?_
    split
    · exact refuse_withholds _ _ _ _ _ (by simp)
    · split
      · next code hdeny =>
          rw [evaluatePolicy_code hdeny]
          exact refuse_withholds _ _ _ _ _ (by simp)
      · have htype : ∀ decision priority,
            frameType? (routed decision priority f.raw).1 ≠ some .error := by
          intro decision priority
          unfold frameType? at hraw ⊢
          rw [getOf_routed _ _ _ (by simp), hraw]
          simp
        split
        · exact .of_tacit (relayDirect_tacit _ _ _ _ _ _ _ _ (htype _ _))
        · exact .of_tacit (storedAck_tacit _ _ _ _ _ _ _ _)

/-- **A direct message for a known alias is never told that there is no such peer.** -/
theorem direct_answered {sock : SocketId} {text : List Char} {f : MeshFrame ν} {target : String}
    (hacc : Accepted env text f) (htype : f.type = .msg) (hb : f.broadcast ≠ some true)
    (hto : f.recipient = some target) (hcap : capTargetName env.rt target = none)
    (hknown : st.knownAliases.has target = true)
    (hstep : BrokerStep env st (now, .line sock text) st') :
    Withholds .peerNotFound st st' := by
  have hraw : frameType? f.raw = some .msg := by
    obtain ⟨ms, -, hcast⟩ := hacc
    have hv := castFrame_views hcast
    rw [← htype, ← hv.type, hv.raw]
    rfl
  unfold BrokerStep at hstep
  simp only [step] at hstep
  split at hstep
  · rw [handleLine_accepted hacc] at hstep
    unfold handleFrame at hstep
    obtain ⟨s, hs, hend⟩ := bind_eq_ok.mp hstep
    have hwrites : st'.writes = s.writes := by
      split at hend
      · obtain rfl := Except.ok.inj hend
        exact (aside_clearTimer _ _).writes
      · obtain rfl := Except.ok.inj hend
        rfl
    refine Withholds.after ?_ hwrites
    unfold dispatch at hs
    rw [htype] at hs
    split at hs
    · next a hauth =>
        simp only [reduceCtorEq, if_false, dispatchPeer, htype] at hs
        obtain rfl := Except.ok.inj hs
        have hseen : (st.updatePeer (a.seen now)).writes = st.writes := rfl
        refine Withholds.before hseen ?_
        unfold routeMsg
        rw [if_neg hb, hto]
        simp only [hcap]
        split
        · exact refuse_withholds _ _ _ _ _ (by simp)
        · exact refuse_withholds _ _ _ _ _ (by simp)
        · exact routeDirect_withholds _ _ _ _ _ hraw hknown
    · simp only [reduceCtorEq, if_false] at hs
      obtain rfl := Except.ok.inj hs
      exact sendError_withholds _ _ _ _ _ (by simp)
  · obtain rfl := Except.ok.inj hstep
    exact .of_tacit (.of_writes rfl)

end Tacit

/-! ### Runs -/

/-- The last hello of the alias came at `since` or later. -/
def GreetedSince (env : Env) (tr : BrokerTrace ν) (since : Int) (name : String) : Prop :=
  ∃ pre x post, tr = pre ++ x :: post ∧ Greets env x name ∧ since ≤ x.2.1 ∧
    ∀ y ∈ post, ¬ Greets env y name

/-- Nobody a sweep finds stale awaits a message. -/
def SweepsIdle (tr : BrokerTrace ν) : Prop :=
  ∀ x ∈ tr, x.2.2 = .sweep → ∀ name, Stale x.2.1 x.1 name → ¬ Awaits x.1 name

/-- The stamp of an alias is the time of its last hello, unless a sweep came more than 24 hours
later. -/
def StampsLast (env : Env) (tr : BrokerTrace ν) (st : BrokerState ν) : Prop :=
  ∀ pre x post name, tr = pre ++ x :: post → Greets env x name → (∀ y ∈ post, ¬ Greets env y name) →
    st.knownAliases.get? name = some x.2.1 ∨ ∃ y ∈ post, y.2.1 - x.2.1 > maxAliasAgeMs

section Runs

variable {env : Env} {epoch : Int} {tr : BrokerTrace ν} {st st' : BrokerState ν}

theorem stampsLast_run (hrun : Run (BrokerStep env) (BrokerState.init epoch) tr st) :
    StampsLast env tr st := by
  refine hrun.along (P := StampsLast env) (Meets.trivial tr) ?_ ?_
  · intro pre x post name htr
    simp at htr
  · intro tr s e s' hr _ ih _ hstep pre x post name htr hgreets hlast
    rcases entry_of_snoc htr with ⟨-, rfl, rfl⟩ | ⟨rest, hbefore, rfl⟩
    · exact .inl (greets_stamp hgreets hstep)
    · have hrest : ∀ y ∈ rest, ¬ Greets env y name := fun y hy =>
        hlast y (List.mem_append_left _ hy)
      have hnow : ¬ Greets env (s, e) name := hlast _ (by simp)
      rcases ih pre x rest name hbefore hgreets hrest with hstamp | ⟨y, hy, hage⟩
      · rcases stamp_step (linked_run hr).keyed hstep hnow hstamp with hstamp | ⟨-, hage⟩
        · exact .inl hstamp
        · exact .inr ⟨(s, e), by simp, hage⟩
      · exact .inr ⟨y, List.mem_append_left _ hy, hage⟩

theorem acquainted_run (hrun : Run (BrokerStep env) (BrokerState.init epoch) tr st) :
    Acquainted (SweepsIdle tr) st.knownAliases st := by
  have hall : ∀ C : Prop, (C → SweepsIdle tr) → Acquainted C st.knownAliases st := by
    refine hrun.along (P := fun tr st => ∀ C : Prop, (C → SweepsIdle tr) →
      Acquainted C st.knownAliases st) (Meets.trivial tr) ?_ ?_
    · intro C _
      refine ⟨?_, fun _ => ?_, fun _ w hw => absurd hw List.not_mem_nil⟩
      · exact fun name h =>
          absurd h (by simp [BrokerState.init, Map.has, Map.get?, Map.empty, lookupEntry])
      · exact fun name h =>
          absurd h (by simp [BrokerState.init, Map.has, Map.get?, Map.empty, lookupEntry])
    · intro tr s e s' hr _ ih _ hstep C hC
      have hbefore : C → SweepsIdle tr := fun c x hx => hC c x (List.mem_append_left _ hx)
      refine acquainted_step (linked_run hr) (ih C hbefore) ?_ hstep
      exact fun c => hC c (s, e) (by simp)
  exact hall _ id

/-- **Recently greeted peers stay reachable**: in every run, who has a record or said the last
hello in the last 24 hours is known, and no direct message for them is told otherwise; and where
no sweep forgets an alias that awaits a message, so is everyone with a mailbox. -/
theorem recent_peers_known (hrun : Run (BrokerStep env) (BrokerState.init epoch) tr st)
    {t : Int} (hclock : ∀ x ∈ tr, x.2.1 ≤ t) :
    ∀ name, (st.peers.has name = true ∨ GreetedSince env tr (t - maxAliasAgeMs) name ∨
        SweepsIdle tr ∧ st.mailbox.has name = true) →
      st.knownAliases.has name = true ∧
      ∀ (sock : SocketId) (text : List Char) (f : MeshFrame ν) (st' : BrokerState ν),
        Accepted env text f → f.type = .msg → f.broadcast ≠ some true →
        f.recipient = some name → capTargetName env.rt name = none →
        BrokerStep env st (t, .line sock text) st' → Withholds .peerNotFound st st' := by
  have hacq := acquainted_run hrun
  intro name hname
  have hknown : st.knownAliases.has name = true := by
    rcases hname with hpeer | ⟨pre, x, post, htr, hgreets, hsince, hlast⟩ | ⟨hidle, hmail⟩
    · exact hacq.peers name hpeer
    · rcases stampsLast_run hrun pre x post name htr hgreets hlast with hstamp | ⟨y, hy, hage⟩
      · exact (Map.has_iff _ _).mpr ⟨x.2.1, hstamp⟩
      · have hnow := hclock y (by rw [htr]; simp [hy])
        omega
    · exact hacq.mailbox hidle name hmail
  refine ⟨hknown, fun sock text f st' hacc htype hb hto hcap hstep => ?_⟩
  exact direct_answered hacc htype hb hto hcap hknown hstep

end Runs

/-! ### Two runs -/

/-- The entry of a run that is checked is the last hello. -/
theorem greetedSince_of_test {env : Env} {tr : BrokerTrace ν} {since : Int} {name : String} (k : Nat)
    (h : ((tr.drop k).head?.any fun x => greeter env x == some name && decide (since ≤ x.2.1)) = true)
    (hlast : ((tr.drop (k + 1)).all fun y => greeter env y != some name) = true) :
    GreetedSince env tr since name := by
  obtain ⟨x, hx, hcheck⟩ := (Option.any_eq_true _ _).mp h
  simp only [Bool.and_eq_true, beq_iff_eq, decide_eq_true_eq] at hcheck
  have hdrop : tr.drop k = x :: tr.drop (k + 1) := by
    rw [← List.cons_head?_tail hx, List.tail_drop]
  refine ⟨tr.take k, x, tr.drop (k + 1), ?_, greets_iff.mpr hcheck.1, hcheck.2, ?_⟩
  · rw [← hdrop, List.take_append_drop]
  · intro y hy hgreets
    rw [List.all_eq_true] at hlast
    simpa [greets_iff.mp hgreets] using hlast y hy

/-- Alice says hello, and after a while her connection ends, bob having come shortly before;
then the sweep runs. -/
def aliceStays (ms : Int) : List (Int × Event) :=
  [(1000, .connect 0 false none), (1001, .line 0 (frameLine .hello "m_1" "alice" [])),
    (1000 + ms, .connect 1 false none), (1001 + ms, .line 1 (frameLine .hello "m_2" "bob" [])),
    (1002 + ms, .close 0), (1003 + ms, .sweep)]

/-- A message of bob for alice. -/
def bobToAlice : List Char :=
  frameLine .msg "m_3" "bob" [("to", .str "alice"), ("room", .str "default"), ("body", .str "hi")]

theorem recent_peers_known_hour : ∃ (tr : BrokerTrace Int) (st : BrokerState Int),
    tr.map Prod.snd = aliceStays 3600000 ∧
    GreetedSince (referenceEnv {}) tr (3605000 - maxAliasAgeMs) "alice" ∧ st.online "alice" = none ∧
    st.knownAliases.has "alice" = true := by
  have h : ((runBroker (referenceEnv {}) (aliceStays 3600000)).any fun r =>
      ((r.1.drop 1).head?.any fun x => greeter (referenceEnv {}) x == some "alice" &&
        decide (3605000 - maxAliasAgeMs ≤ x.2.1)) &&
      (((r.1.drop 2).all fun y => greeter (referenceEnv {}) y != some "alice") &&
      ((r.1.all fun x => decide (x.2.1 ≤ 3605000)) && (r.2.online "alice").isNone))) = true := by
    decide +kernel
  obtain ⟨tr, st, hrun, htr, hcheck⟩ := exists_run h
  simp only [Bool.and_eq_true, Option.isNone_iff_eq_none] at hcheck
  obtain ⟨hgreets, hlast, hclock, hoff⟩ := hcheck
  rw [List.all_eq_true] at hclock
  have hsince : GreetedSince (referenceEnv {}) tr (3605000 - maxAliasAgeMs) "alice" :=
    greetedSince_of_test 1 (by simpa using hgreets) (by simpa using hlast)
  refine ⟨tr, st, htr, hsince, hoff, ?_⟩
  exact (recent_peers_known hrun (t := 3605000) (fun x hx => of_decide_eq_true (hclock x hx)) "alice"
    (.inr (.inl hsince))).1

/-- The alias was online in a state of the run that lasted at least until `since`. -/
def ConnectedSince (tr : BrokerTrace ν) (since : Int) (name : String) : Prop :=
  ∃ x ∈ tr, (x.1.online name).isSome = true ∧ since ≤ x.2.1

/-- Alice was connected a moment ago, after more than 24 hours; the sweep forgets her, and
bob's message for her is refused. -/
theorem long_connection_forgotten : ∃ (tr : BrokerTrace Int) (st st' : BrokerState Int),
    Run (BrokerStep (referenceEnv {})) (BrokerState.init 1) tr st ∧
    tr.map Prod.snd = aliceStays 86400000 ∧ (∀ x ∈ tr, x.2.1 ≤ 86402000) ∧
    ConnectedSince tr (86402000 - maxAliasAgeMs) "alice" ∧
    st.knownAliases.has "alice" = false ∧
    BrokerStep (referenceEnv {}) st (86402000, .line 1 bobToAlice) st' ∧
    ¬ Withholds .peerNotFound st st' := by
  have h : ((runBroker (referenceEnv {}) (aliceStays 86400000)).any fun r =>
      (r.1.all fun x => decide (x.2.1 ≤ 86402000)) &&
      ((r.1.any fun x => (x.1.online "alice").isSome &&
        decide (86402000 - maxAliasAgeMs ≤ x.2.1)) && (!r.2.knownAliases.has "alice" &&
      (step (referenceEnv {}) 86402000 r.2 (.line 1 bobToAlice)).toOption.any fun st' =>
        (st'.writes.drop r.2.writes.length).any fun w =>
          decide (frameType? w.frame = some .error ∧
            getOf w.frame "code" = some (.str MeshErrorCode.peerNotFound.text))))) = true := by
    decide +kernel
  obtain ⟨tr, st, hrun, htr, hcheck⟩ := exists_run h
  simp only [Bool.and_eq_true, List.any_eq_true, List.all_eq_true, decide_eq_true_eq,
    Bool.not_eq_true', Option.any_eq_true] at hcheck
  obtain ⟨hclock, hon, hknown, st', hstep, w, hw, hrefuses⟩ := hcheck
  refine ⟨tr, st, st', hrun, htr, hclock, hon, hknown, toOption_eq_some hstep, ?_⟩
  rintro ⟨more, heq, hmore⟩
  rw [heq, List.drop_left] at hw
  exact hmore w hw hrefuses

end PiMesh
