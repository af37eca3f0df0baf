/-
Room membership is stored twice and agrees.

A peer's rooms are in its record, and the room's set has its alias.  Five paths change
them: hello, join, leave, closing a record, and a hello that is refused halfway.  The
invariant says the two tables agree, no room is empty, and both bounds hold.

One path breaks it.  A hello that finds a record whose socket is destroyed but not yet
closed drops that record from `peers` and leaves its alias in the sets of its rooms;
nothing takes it out later, since the `close` handler looks for records.  Where the new
hello asks for the same rooms again, before any room it is refused for, the stale
entries become its own.  `RejoinsRooms` is that condition on a step, and under it every
run keeps the invariant.
-/
import PiMesh.Broker.Reference
import PiMesh.Proofs.Steps

namespace PiMesh

open Js Transition Relation BrokerState

variable {ν : Type} [Number ν] [DecidableEq ν]

/-- Every record is in the sets of its rooms, no set is empty and the bounds hold.  Where
`exact` holds the sets list nobody else, so the two tables agree. -/
structure Consistent (exact : Prop) (cfg : MeshConfig) (st : BrokerState ν) : Prop where
  keyed : Keyed st
  linked : ∀ name p, st.peers.get? name = some p → Linked st.rooms p
  covered : exact → ∀ name key, InRoom st.rooms name key →
    ∃ p, st.peers.get? name = some p ∧ p.rooms.has key = true
  bounded : Bounded st.rooms
  size : ∀ name p, st.peers.get? name = some p → p.rooms.size ≤ cfg.maxRoomsPerPeer

namespace Consistent

variable {exact : Prop} {env : Env} {now : Int} {P : Permits ν} {cfg : MeshConfig}
  {st st' : BrokerState ν}

theorem inRoom (h : Consistent exact cfg st) (hexact : exact) (name : String) (key : RoomKey ν) :
    InRoom st.rooms name key ↔ ∃ p, st.peers.get? name = some p ∧ p.rooms.has key = true := by
  refine ⟨h.covered hexact name key, ?_⟩
  rintro ⟨p, hp, hkey⟩
  have hin := h.linked name p hp key hkey
  rwa [h.keyed name p hp] at hin

theorem of_same (h : Consistent exact cfg st) (hp : st'.peers = st.peers)
    (hr : st'.rooms = st.rooms) : Consistent exact cfg st' where
  keyed name p hget := h.keyed name p (by rwa [hp] at hget)
  linked name p hget := by
    rw [hp] at hget
    rw [hr]
    exact h.linked name p hget
  covered hexact name key hin := by
    rw [hr] at hin
    rw [hp]
    exact h.covered hexact name key hin
  bounded := by rw [hr]; exact h.bounded
  size name p hget := h.size name p (by rwa [hp] at hget)

theorem aside (h : Consistent exact cfg st) (ha : Aside st st') : Consistent exact cfg st' :=
  h.of_same ha.peers ha.rooms

/-- One alias gets another record or none, and the sets change for that alias only. -/
theorem replace (h : Consistent exact cfg st) (name : String) (o : Option (PeerRecord ν))
    (hpeers : ∀ n, st'.peers.get? n = if n = name then o else st.peers.get? n)
    (hbounded : Bounded st'.rooms)
    (hother : ∀ n key, n ≠ name → (InRoom st'.rooms n key ↔ InRoom st.rooms n key))
    (hlinked : ∀ p, o = some p → Linked st'.rooms p)
    (hcovered : exact → ∀ key, InRoom st'.rooms name key → ∃ p, o = some p ∧ p.rooms.has key = true)
    (hname : ∀ p, o = some p → p.name = name ∧ p.rooms.size ≤ cfg.maxRoomsPerPeer) :
    Consistent exact cfg st' := by
  have hget : ∀ n p, st'.peers.get? n = some p →
      (n = name ∧ o = some p) ∨ (n ≠ name ∧ st.peers.get? n = some p) := by
    intro n p hp
    rw [hpeers] at hp
    split at hp
    · next hn => exact .inl ⟨hn, hp⟩
    · next hn => exact .inr ⟨hn, hp⟩
  refine ⟨?_, ?_, ?_, hbounded, ?_⟩
  · intro n p hp
    rcases hget n p hp with ⟨rfl, ho⟩ | ⟨-, hp⟩
    · exact (hname p ho).1
    · exact h.keyed n p hp
  · intro n p hp
    rcases hget n p hp with ⟨rfl, ho⟩ | ⟨hn, hp⟩
    · exact hlinked p ho
    · intro key hkey
      have hpn : p.name ≠ name := by rw [h.keyed n p hp]; exact hn
      exact (hother p.name key hpn).mpr (h.linked n p hp key hkey)
  · intro hexact n key hin
    rw [hpeers]
    by_cases hn : n = name
    · subst hn
      rw [if_pos rfl]
      exact hcovered hexact key hin
    · rw [if_neg hn]
      exact h.covered hexact n key ((hother n key hn).mp hin)
  · intro n p hp
    rcases hget n p hp with ⟨rfl, ho⟩ | ⟨-, hp⟩
    · exact (hname p ho).2
    · exact h.size n p hp

/-- A record goes together with its entries in the sets. -/
theorem dropPeer (h : Consistent exact cfg st) {name : String} {peer : PeerRecord ν}
    (hpeer : st.peers.get? name = some peer) : Consistent exact cfg (st.dropPeer name peer) := by
  have hname : peer.name = name := h.keyed name peer hpeer
  obtain ⟨hb, hin⟩ := detachFromRooms_effect peer h.bounded
  refine Consistent.aside ?_ (aside_destroy _ peer.socket)
  refine h.replace name none ?_ hb ?_ (by simp) ?_ (by simp)
  · intro n
    exact Map.get?_delete _ _ _
  · intro n key hn
    show InRoom (detachFromRooms st.rooms peer) n key ↔ _
    rw [hin, hname]
    simp [hn]
  · intro hexact key hkey
    obtain ⟨hkey, hnot⟩ := (hin name key).mp hkey
    obtain ⟨p, hp, hhas⟩ := h.covered hexact name key hkey
    obtain rfl := Option.some.inj (hp.symm.trans hpeer)
    exact absurd ⟨hname.symm, hhas⟩ hnot

theorem updatePeer (h : Consistent exact cfg st) {p p' : PeerRecord ν}
    (hp : st.peers.get? p.name = some p) (hsame : SamePeer p p') :
    Consistent exact cfg (st.updatePeer p') := by
  have hlinked : Linked st.rooms p' := by
    intro key hkey
    rw [hsame.rooms] at hkey
    rw [hsame.name]
    exact h.linked p.name p hp key hkey
  refine h.replace p.name (some p') ?_ h.bounded ?_ ?_ ?_ ?_
  · intro n
    show (st.peers.set p'.name p').get? n = _
    rw [hsame.name]
    exact Map.get?_set _ _ _ _
  · intro n key _
    exact Iff.rfl
  · intro q hq
    obtain rfl := Option.some.inj hq
    exact hlinked
  · intro hexact key hkey
    obtain ⟨q, hq, hhas⟩ := h.covered hexact p.name key hkey
    obtain rfl := Option.some.inj (hq.symm.trans hp)
    exact ⟨p', rfl, by rw [hsame.rooms]; exact hhas⟩
  · intro q hq
    obtain rfl := Option.some.inj hq
    exact ⟨hsame.name, by rw [hsame.rooms]; exact h.size p.name p hp⟩

/-- No effect of a handler disturbs the agreement. -/
theorem chain (hc : Chain env now P st st') (h : Consistent exact cfg st) :
    Consistent exact cfg st' :=
  chain_tables (fun hs hp hr => hs.of_same hp hr) (fun hpeer hs => hs.dropPeer hpeer)
    (fun hp hsame hs => hs.updatePeer hp hsame) hc h

end Consistent

/-! ### Joining the rooms of a hello -/

/-- What the loop over the requested rooms changes, whether it ends in a refusal (`o`) or
not. -/
structure JoinAllEffect (cfg : MeshConfig) (rooms : RoomTable ν) (peer : PeerRecord ν)
    (keys : List (RoomKey ν)) (o : Option MeshErrorCode) (rooms' : RoomTable ν)
    (peer' : PeerRecord ν) : Prop where
  bounded : Bounded rooms'
  inRoom : ∀ name k, InRoom rooms' name k ↔
    InRoom rooms name k ∨ (name = peer.name ∧ peer'.rooms.has k = true)
  keeps : ∀ k, peer.rooms.has k = true → peer'.rooms.has k = true
  only : ∀ k, peer'.rooms.has k = true → peer.rooms.has k = true ∨ k ∈ keys
  all : o = none → ∀ k ∈ keys, peer'.rooms.has k = true
  size : peer.rooms.size ≤ cfg.maxRoomsPerPeer → peer'.rooms.size ≤ cfg.maxRoomsPerPeer
  same : peer' = { peer with rooms := peer'.rooms }

theorem linked_of_joinEffect {cfg : MeshConfig} {rooms rooms' : RoomTable ν}
    {peer peer' : PeerRecord ν} {key : RoomKey ν} {o : Option MeshErrorCode}
    (hl : Linked rooms peer) (he : JoinEffect cfg rooms peer key o rooms' peer') :
    Linked rooms' peer' := by
  intro k hk
  have hname : peer'.name = peer.name := by rw [he.same]
  rw [hname, he.inRoom]
  rcases (he.has k).mp hk with hk | ⟨rfl, ho⟩
  · exact .inl (hl k hk)
  · exact .inr ⟨rfl, rfl, ho⟩

theorem joinAll_effect {cfg : MeshConfig} {f : MeshFrame ν} {keys : List (RoomKey ν)}
    {rooms rooms' : RoomTable ν} {peer peer' : PeerRecord ν} {o : Option MeshErrorCode}
    (hb : Bounded rooms) (hl : Linked rooms peer)
    (h : joinAll cfg f keys rooms peer = .ok (o, rooms', peer')) :
    JoinAllEffect cfg rooms peer keys o rooms' peer' := by
  induction keys generalizing rooms peer with
  | nil =>
      simp only [joinAll, Except.ok.injEq, Prod.mk.injEq] at h
      obtain ⟨rfl, rfl, rfl⟩ := h
      refine ⟨hb, fun name k => ⟨.inl, ?_⟩, fun _ hk => hk, fun _ hk => .inl hk, by simp,
        fun hs => hs, rfl⟩
      rintro (hin | ⟨rfl, hk⟩)
      · exact hin
      · exact hl k hk
  | cons key rest ih =>
      rw [joinAll] at h
      obtain ⟨role, -, h⟩ := bind_eq_ok.mp h
      obtain ⟨⟨o₁, rooms₁, peer₁⟩, hjoin, h⟩ := bind_eq_ok.mp h
      have he := joinRoom_effect hb hl hjoin
      have hname : peer₁.name = peer.name := by rw [he.same]
      cases o₁ with
      | some code =>
          simp only [Except.ok.injEq, Prod.mk.injEq] at h
          obtain ⟨rfl, rfl, rfl⟩ := h
          refine ⟨he.bounded, fun name k => ?_, fun k hk => (he.has k).mpr (.inl hk),
            fun k hk => ?_, by simp, he.size, he.same⟩
          · rw [he.inRoom, he.has]
            constructor
            · rintro (hin | ⟨-, -, ho⟩)
              · exact .inl hin
              · cases ho
            · rintro (hin | ⟨rfl, hk | ⟨-, ho⟩⟩)
              · exact .inl hin
              · exact .inl (hl k hk)
              · cases ho
          · rcases (he.has k).mp hk with hk | ⟨-, ho⟩
            · exact .inl hk
            · cases ho
      | none =>
          have hr := ih he.bounded (linked_of_joinEffect hl he) h
          refine ⟨hr.bounded, fun name k => ?_, fun k hk => hr.keeps k ((he.has k).mpr (.inl hk)),
            fun k hk => ?_, fun ho k hk => ?_, fun hs => hr.size (he.size hs), ?_⟩
          · rw [hr.inRoom, he.inRoom, hname]
            constructor
            · rintro ((hin | ⟨rfl, rfl, -⟩) | hn)
              · exact .inl hin
              · exact .inr ⟨rfl, hr.keeps _ ((he.has _).mpr (.inr ⟨rfl, rfl⟩))⟩
              · exact .inr hn
            · rintro (hin | hn)
              · exact .inl (.inl hin)
              · exact .inr hn
          · rcases hr.only k hk with hk | hk
            · rcases (he.has k).mp hk with hk | ⟨rfl, -⟩
              · exact .inl hk
              · exact .inr (by simp)
            · exact .inr (List.mem_cons_of_mem _ hk)
          · rcases List.mem_cons.mp hk with rfl | hk
            · exact hr.keeps _ ((he.has _).mpr (.inr ⟨rfl, rfl⟩))
            · exact hr.all ho k hk
          · rw [hr.same, he.same]

/-- Rooms that a peer can join one after the other. -/
def Joinable (cfg : MeshConfig) (rooms : RoomTable ν) (name : String) (taken : Nat)
    (keys : List (RoomKey ν)) : Prop :=
  taken + keys.length ≤ cfg.maxRoomsPerPeer ∧
    ∀ key ∈ keys, isValidRoomKey key = .ok true ∧ HasPlace rooms name key

/-- The loop gets past rooms that can be joined, whatever follows them. -/
theorem joinAll_joins {cfg : MeshConfig} {f : MeshFrame ν} {pre post : List (RoomKey ν)}
    {rooms rooms' : RoomTable ν} {peer peer' : PeerRecord ν} {o : Option MeshErrorCode}
    (hb : Bounded rooms) (hl : Linked rooms peer)
    (hpre : Joinable cfg rooms peer.name peer.rooms.size pre)
    (h : joinAll cfg f (pre ++ post) rooms peer = .ok (o, rooms', peer')) :
    ∀ key ∈ pre, peer'.rooms.has key = true := by
  induction pre generalizing rooms peer with
  | nil => simp
  | cons key rest ih =>
      rw [List.cons_append, joinAll] at h
      obtain ⟨role, -, h₁⟩ := bind_eq_ok.mp h
      obtain ⟨⟨o₁, rooms₁, peer₁⟩, hjoin, h₂⟩ := bind_eq_ok.mp h₁
      have he := joinRoom_effect hb hl hjoin
      have hname : peer₁.name = peer.name := by rw [he.same]
      obtain ⟨hlen, hkeys⟩ := hpre
      rw [List.length_cons] at hlen
      obtain ⟨hvalid, hplace⟩ := hkeys key (by simp)
      have hlt : peer.rooms.size < cfg.maxRoomsPerPeer := by omega
      obtain ⟨rooms₂, peer₂, hacc⟩ := joinRoom_accepts role hvalid hlt hplace
      rw [hacc] at hjoin
      simp only [Except.ok.injEq, Prod.mk.injEq] at hjoin
      obtain ⟨rfl, rfl, rfl⟩ := hjoin
      have hl' := linked_of_joinEffect hl he
      -- the places of the remaining rooms are still there
      have hrest : Joinable cfg rooms₂ peer₂.name peer₂.rooms.size rest := by
        refine ⟨by have := he.grows; omega, fun k hk => ⟨(hkeys k (List.mem_cons_of_mem _ hk)).1, ?_⟩⟩
        intro members hm
        by_cases hkk : k = key
        · subst hkk
          have hin : InRoom rooms₂ peer₂.name k :=
            hl' k ((he.has k).mpr (.inr ⟨rfl, rfl⟩))
          obtain ⟨m, hm', hx⟩ := hin
          rw [hm] at hm'
          exact .inl (by rw [Option.some.inj hm']; exact hx)
        · rw [he.other k hkk] at hm
          rw [hname]
          exact (hkeys k (List.mem_cons_of_mem _ hk)).2 members hm
      intro k hk
      rcases List.mem_cons.mp hk with rfl | hk
      · exact (joinAll_effect he.bounded hl' h₂).keeps k ((he.has k).mpr (.inr ⟨rfl, rfl⟩))
      · exact ih he.bounded hl' hrest h₂ k hk

/-! ### Steps -/

/-- A hello that replaces a record asks for every room of it, ahead of any room it may be
refused for. -/
def RejoinsRooms (env : Env) (st : BrokerState ν) (e : Int × Event) : Prop :=
  ∀ (sock : SocketId) (text : List Char) (f : MeshFrame ν) (name : String) (old : PeerRecord ν)
    (requested : List (RoomKey ν)) (taken : Nat),
    e.2 = .line sock text → Accepted env text f → HelloOpens env st sock f name →
    st.peers.get? name = some old → requestedRooms (st.refs + 1) f = .ok (requested, taken) →
    ∃ pre post, requested = pre ++ post ∧ Joinable env.cfg st.rooms name 0 pre ∧
      ∀ key, old.rooms.has key = true → key ∈ pre

section Steps

variable {exact : Prop} {env : Env} {now : Int} {st st' : BrokerState ν} {sock : SocketId} {text : List Char}
  {f : MeshFrame ν}

theorem newPeer_linked (name : String) : Linked st.rooms (newPeer env now st sock name f) := by
  intro key hkey
  cases hkey

/-- The rooms the replaced record was in are among those the hello joined. -/
theorem stale_rejoined (h : Consistent exact env.cfg st) (hexact : exact)
    (hre : RejoinsRooms env st (now, .line sock text))
    {name : String} (hacc : Accepted env text f) (hopen : HelloOpens env st sock f name)
    {requested : List (RoomKey ν)} {taken : Nat} {rooms : RoomTable ν} {peer : PeerRecord ν}
    {o : Option MeshErrorCode} (hrooms : requestedRooms (st.refs + 1) f = .ok (requested, taken))
    (hjoin : joinAll env.cfg f requested st.rooms (newPeer env now st sock name f)
      = .ok (o, rooms, peer)) {key : RoomKey ν} (hin : InRoom st.rooms name key) :
    peer.rooms.has key = true := by
  obtain ⟨old, hold, hkey⟩ := h.covered hexact name key hin
  obtain ⟨pre, post, rfl, hpre, hsub⟩ := hre sock text f name old requested taken rfl hacc hopen hold
    hrooms
  exact joinAll_joins h.bounded (newPeer_linked name) hpre hjoin key (hsub key hkey)

theorem helloState_get? (name n : String) (taken : Nat) :
    (helloState env now st sock name f taken).peers.get? n
      = if n = name then some (newPeer env now st sock name f) else st.peers.get? n := by
  have hname : (newPeer env now st sock name f).name = name := rfl
  simp only [helloState, BrokerState.enroll, hname, Map.get?_set]
  by_cases hn : n = name
  · simp [hn]
  · rw [if_neg hn, if_neg hn]
    split
    · exact Map.get?_delete_ne _ hn
    · rfl

theorem consistent_welcomed (h : Consistent exact env.cfg st)
    (hre : exact → RejoinsRooms env st (now, .line sock text)) {name : String}
    (hacc : Accepted env text f) (hopen : HelloOpens env st sock f name)
    {requested : List (RoomKey ν)} {taken : Nat} {rooms : RoomTable ν} {peer : PeerRecord ν}
    (hrooms : requestedRooms (st.refs + 1) f = .ok (requested, taken))
    (hjoin : joinAll env.cfg f requested st.rooms (newPeer env now st sock name f)
      = .ok (none, rooms, peer)) :
    Consistent exact env.cfg { helloState env now st sock name f taken with
      rooms, peers := (helloState env now st sock name f taken).peers.set name peer } := by
  have he := joinAll_effect h.bounded (newPeer_linked name) hjoin
  have hname : peer.name = name := by rw [he.same]; rfl
  refine h.replace name (some peer) ?_ he.bounded ?_ ?_ ?_ ?_
  · intro n
    show (Map.set _ name peer).get? n = _
    rw [Map.get?_set, helloState_get?]
    by_cases hn : n = name <;> simp [hn]
  · intro n key hn
    show InRoom rooms n key ↔ _
    rw [he.inRoom]
    have hne : n ≠ (newPeer env now st sock name f).name := hn
    simp [hne]
  · intro p hp key hkey
    obtain rfl := Option.some.inj hp
    exact (he.inRoom peer.name key).mpr (.inr ⟨hname, hkey⟩)
  · intro hexact key hin
    refine ⟨peer, rfl, ?_⟩
    rcases (he.inRoom name key).mp hin with hin | ⟨-, hkey⟩
    · exact stale_rejoined h hexact (hre hexact) hacc hopen hrooms hjoin hin
    · exact hkey
  · intro p hp
    obtain rfl := Option.some.inj hp
    exact ⟨hname, he.size (Nat.zero_le _)⟩

theorem consistent_roomRefused (h : Consistent exact env.cfg st)
    (hre : exact → RejoinsRooms env st (now, .line sock text)) {name : String}
    (hacc : Accepted env text f) (hopen : HelloOpens env st sock f name)
    {requested : List (RoomKey ν)} {taken : Nat} {code : MeshErrorCode} {rooms : RoomTable ν}
    {peer : PeerRecord ν} (hrooms : requestedRooms (st.refs + 1) f = .ok (requested, taken))
    (hjoin : joinAll env.cfg f requested st.rooms (newPeer env now st sock name f)
      = .ok (some code, rooms, peer)) :
    Consistent exact env.cfg (refuseRooms env now
      { helloState env now st sock name f taken with rooms } sock peer code f.id) := by
  have he := joinAll_effect h.bounded (newPeer_linked name) hjoin
  obtain ⟨hb, hdetach⟩ := detachFromRooms_effect peer he.bounded
  have hname : peer.name = name := by rw [he.same]; rfl
  obtain ⟨w, -, -, -, hrefuse⟩ := refuseRooms_eq env now
    { helloState env now st sock name f taken with rooms } sock peer code f.id
  rw [hrefuse]
  refine Consistent.aside ?_ (aside_destroy _ sock)
  refine h.replace name none ?_ hb ?_ (by simp) ?_ (by simp)
  · intro n
    show (Map.delete (helloState env now st sock name f taken).peers peer.name).get? n = _
    rw [hname, Map.get?_delete, helloState_get?]
    by_cases hn : n = name <;> simp [hn]
  · intro n key hn
    show InRoom (detachFromRooms rooms peer) n key ↔ _
    rw [hdetach, he.inRoom, hname]
    have hne : n ≠ (newPeer env now st sock name f).name := hn
    simp [hn, hne]
  · intro hexact key hin
    obtain ⟨hin, hnot⟩ := (hdetach name key).mp hin
    have hkey : peer.rooms.has key = true := by
      rcases (he.inRoom name key).mp hin with hin | ⟨-, hkey⟩
      · exact stale_rejoined h hexact (hre hexact) hacc hopen hrooms hjoin hin
      · exact hkey
    exact absurd ⟨hname.symm, hkey⟩ hnot

/-- The record after a join or a leave, and the sets with it. -/
theorem consistent_moved (h : Consistent exact env.cfg st) {a peer : PeerRecord ν}
    {rooms : RoomTable ν} (hname : peer.name = a.name) (hb : Bounded rooms)
    (hother : ∀ n key, n ≠ a.name → (InRoom rooms n key ↔ InRoom st.rooms n key))
    (hlinked : Linked rooms peer)
    (hcovered : exact → ∀ key, InRoom rooms a.name key → peer.rooms.has key = true)
    (hsize : peer.rooms.size ≤ env.cfg.maxRoomsPerPeer) :
    Consistent exact env.cfg ({ st.updatePeer (a.seen now) with rooms }.updatePeer peer) := by
  refine h.replace a.name (some peer) ?_ hb hother ?_ ?_ ?_
  · intro n
    show (Map.set (Map.set st.peers a.name (a.seen now)) peer.name peer).get? n = _
    rw [hname, Map.get?_set, Map.get?_set]
    by_cases hn : n = a.name <;> simp [hn]
  · intro p hp
    obtain rfl := Option.some.inj hp
    exact hlinked
  · intro hexact key hin
    exact ⟨peer, rfl, hcovered hexact key hin⟩
  · intro p hp
    obtain rfl := Option.some.inj hp
    exact ⟨hname, hsize⟩

/-- What an authenticated record's own rooms are in the sets. -/
theorem covered_self (h : Consistent exact env.cfg st) (hexact : exact) {a : PeerRecord ν}
    (ha : st.peers.get? a.name = some a) {key : RoomKey ν} (hin : InRoom st.rooms a.name key) :
    a.rooms.has key = true := by
  obtain ⟨p, hp, hkey⟩ := h.covered hexact a.name key hin
  obtain rfl := Option.some.inj (hp.symm.trans ha)
  exact hkey

theorem consistent_joined (h : Consistent exact env.cfg st) {a peer : PeerRecord ν}
    (ha : st.peers.get? a.name = some a) {rooms : RoomTable ν} {key : RoomKey ν} {role : MeshRole}
    (hjoin : joinRoom env.cfg st.rooms (a.seen now) key role = .ok (none, rooms, peer)) :
    Consistent exact env.cfg ({ st.updatePeer (a.seen now) with rooms }.updatePeer peer) := by
  have hlinked : Linked st.rooms (a.seen now) := h.linked a.name a ha
  have he := joinRoom_effect h.bounded hlinked hjoin
  have hname : peer.name = a.name := by rw [he.same]; rfl
  refine consistent_moved h hname he.bounded ?_ ?_ ?_ (he.size (h.size a.name a ha))
  · intro n k hn
    rw [he.inRoom]
    have hne : n ≠ (a.seen now).name := hn
    simp [hne]
  · exact linked_of_joinEffect hlinked he
  · intro hexact k hin
    rcases (he.inRoom a.name k).mp hin with hin | ⟨-, rfl, -⟩
    · exact (he.has k).mpr (.inl (covered_self h hexact ha hin))
    · exact (he.has k).mpr (.inr ⟨rfl, rfl⟩)

theorem consistent_left (h : Consistent exact env.cfg st) {a peer : PeerRecord ν}
    (ha : st.peers.get? a.name = some a) {rooms : RoomTable ν} {key : RoomKey ν}
    (hleave : leaveRoom st.rooms (a.seen now) key = (none, rooms, peer)) :
    Consistent exact env.cfg ({ st.updatePeer (a.seen now) with rooms }.updatePeer peer) := by
  obtain ⟨hb, hin, hpeer⟩ := leaveRoom_effect h.bounded hleave
  have hhas : ∀ k, peer.rooms.has k = true ↔ a.rooms.has k = true ∧ k ≠ key := by
    intro k
    rw [hpeer]
    show (a.rooms.delete key).has k = true ↔ _
    unfold Map.has
    rw [Map.get?_delete]
    by_cases hk : k = key <;> simp [hk]
  have hsize : peer.rooms.size ≤ env.cfg.maxRoomsPerPeer := by
    rw [hpeer]
    exact (Map.size_delete_le _ _).trans (h.size a.name a ha)
  have hname : peer.name = a.name := by rw [hpeer]; rfl
  refine consistent_moved h hname hb ?_ ?_ ?_ hsize
  · intro n k hn
    rw [hin]
    have hne : n ≠ (a.seen now).name := hn
    simp [hne]
  · intro k hk
    obtain ⟨hk, hne⟩ := (hhas k).mp hk
    rw [hname]
    exact (hin a.name k).mpr ⟨h.linked a.name a ha k hk, fun hc => hne hc.2⟩
  · intro hexact k hk
    obtain ⟨hk, hnot⟩ := (hin a.name k).mp hk
    exact (hhas k).mpr ⟨covered_self h hexact ha hk, fun hc => hnot ⟨rfl, hc⟩⟩

/-- A refused join writes at most a set back that was there. -/
theorem consistent_joinRefused (h : Consistent exact env.cfg st) {a peer : PeerRecord ν}
    (ha : st.peers.get? a.name = some a) {rooms : RoomTable ν} {key : RoomKey ν} {role : MeshRole}
    {code : MeshErrorCode}
    (hjoin : joinRoom env.cfg st.rooms (a.seen now) key role = .ok (some code, rooms, peer)) :
    Consistent exact env.cfg { st.updatePeer (a.seen now) with rooms } := by
  have hlinked : Linked st.rooms (a.seen now) := h.linked a.name a ha
  have he := joinRoom_effect h.bounded hlinked hjoin
  have hsame : SamePeer a (a.seen now) := ⟨rfl, rfl, rfl, rfl, rfl, rfl, rfl⟩
  have hseen := h.updatePeer ha hsame
  have hin : ∀ n k, InRoom rooms n k ↔ InRoom st.rooms n k := by
    intro n k
    rw [he.inRoom]
    simp
  refine ⟨hseen.keyed, ?_, ?_, he.bounded, hseen.size⟩
  · intro n p hp k hk
    exact (hin p.name k).mpr (hseen.linked n p hp k hk)
  · intro hexact n k hk
    exact hseen.covered hexact n k ((hin n k).mp hk)

/-- The permits of an accepted hello: its own mail. -/
def flushOnly (peer : PeerRef) (fresh : List (StoredMsg ν)) : Permits ν :=
  { flush := fun p m => p = peer ∧ m ∈ fresh, drop := True }

theorem announceOnline_chain {P : Permits ν} (peer : PeerRecord ν) :
    Chain env now P st (announceOnline env now st peer) :=
  chain_foldl (fun st room _ => announce_chain room _ _ (by simp [NotQueued, AckStatus.text])) st

/-- What an accepted hello does once its mail has been taken out of the box. -/
theorem welcome_chain (peer : PeerRecord ν) (id : String) :
    Chain env now (flushOnly peer.toRef (flushMailbox st.mail env.cfg peer.name now).1)
      (st.setMail (flushMailbox st.mail env.cfg peer.name now).2.2) (welcome env now st peer id) := by
  unfold welcome
  generalize flushMailbox st.mail env.cfg peer.name now = flush
  obtain ⟨fresh, dropped, mail⟩ := flush
  have hwelcome : ∀ s : BrokerState ν, Chain env now (flushOnly peer.toRef fresh) s
      (sendTo env now s peer.toRef (welcomeFrame env now s peer id fresh.length)) :=
    fun s => sendTo_chain _ _ (by simp [NotQueued])
  have hmail : ∀ s : BrokerState ν, Chain env now (flushOnly peer.toRef fresh) s
      (sendMailbox env now s peer.toRef fresh) :=
    fun s => chain_foldl (fun s m hm => by
      have hP : (flushOnly peer.toRef fresh).flush peer.toRef m := ⟨rfl, hm⟩
      exact sendWith_chain (.single (.flush peer.toRef m hP))) s
  refine (notifyDropped_chain trivial dropped).trans
    ((hwelcome _).trans ((hmail _).trans ((announceOnline_chain peer).trans ?_)))
  simp only
  split
  · exact .refl
  · exact broadcastReservations_chain _ _

theorem handlePurge_chain : Chain env now noticesOnly
    (st.setMail (purgeAllExpired st.mail env.cfg now).2) (handlePurge env now st) :=
  notifyDropped_chain trivial _

/-- Everything a callback may need leave for. -/
def anything : Permits ν :=
  { relay := fun _ _ _ => True, store := fun _ _ _ => True, ack := fun _ _ => True, groups := True,
    touch := True, drop := True, flush := fun _ _ => True, control := True, behind := fun _ => True }

theorem anything_callback (frame : Members ν) (cb : WriteCallback ν) :
    CallbackPermitted anything frame cb :=
  ⟨fun _ _ _ => trivial, fun _ _ _ _ _ _ => ⟨trivial, .inr trivial⟩, fun _ => trivial,
    fun _ => trivial⟩

/-- Everything a route may need leave for. -/
def anyRoute : Permits ν := { anything with touch := False }

theorem anyRoute_permits (a : PeerRecord ν) (f : MeshFrame ν) :
    RoutePermits anyRoute env st a f :=
  ⟨fun _ _ _ _ _ _ _ => trivial, fun _ _ _ _ _ _ _ => trivial, fun h => h, fun _ => trivial⟩

theorem handleSettled_chain {P : Permits ν} (hgroups : P.groups) (hack : ∀ peer id, P.ack peer id)
    (g : Nat) : Chain env now P st (handleSettled env now st g) := by
  unfold handleSettled
  split
  · next gr _ =>
      split
      · refine (modifyGroup_chain hgroups g Group.answer).trans ?_
        simp only
        split
        · split
          · exact sendAck_chain _ _ _ _ _ _ (by simp)
          · exact sendAck_chain _ _ _ _ _ _ (by simp)
        · refine (aside_addRelayed _ gr.delivered).chain.trans ?_
          split
          · exact sendAck_chain _ _ _ _ _ _ (by simp)
          · exact sendQueuedAck_chain _ _ _ _ _ _ (.inr (hack _ _))
      · exact .refl
  · exact .refl

theorem consistent_step {e : Int × Event} (h : Consistent exact env.cfg st)
    (hre : exact → RejoinsRooms env st e) (hstep : BrokerStep env st e st') :
    Consistent exact env.cfg st' := by
  obtain ⟨now, e⟩ := e
  cases step_shape h.keyed hstep with
  | quiet hc => exact h.chain hc
  | connected => exact h.of_same rfl rfl
  | routed f a _ hauth _ hc =>
      have hsame : SamePeer a (a.seen now) := ⟨rfl, rfl, rfl, rfl, rfl, rfl, rfl⟩
      have hseen := h.updatePeer (authed_sender h.keyed hauth).2 hsame
      exact hseen.chain (hc anyRoute (anyRoute_permits _ _) fun _ => trivial)
  | joined f a _ hauth room rooms peer hjoin hc =>
      exact (consistent_joined h (authed_sender h.keyed hauth).2 hjoin).chain hc
  | joinRefused f a _ hauth room code rooms peer hjoin hc =>
      exact (consistent_joinRefused h (authed_sender h.keyed hauth).2 hjoin).chain hc
  | left f a _ hauth room rooms peer hleave hc =>
      exact (consistent_left h (authed_sender h.keyed hauth).2 hleave).chain hc
  | welcomed f name hacc hopen requested taken rooms peer hrooms hjoin =>
      have hw := consistent_welcomed h hre hacc hopen hrooms hjoin
      refine Consistent.aside ?_ (aside_clearTimer _ _)
      refine Consistent.chain (welcome_chain peer f.id) ?_
      exact hw.of_same rfl rfl
  | roomRefused f name hacc hopen requested taken code rooms peer hrooms hjoin =>
      exact (consistent_roomRefused h hre hacc hopen hrooms hjoin).aside (aside_clearTimer _ _)
  | @written _ i ok w st₁ hevent hw hpending =>
      have h₁ : Consistent exact env.cfg st₁ := by
        rcases hevent with ⟨-, rfl⟩ | ⟨-, -, rfl⟩
        · exact h
        · exact h.aside (aside_destroy _ _)
      have h₂ : Consistent exact env.cfg (st₁.settleWrite i (if ok then .ok else .failed)) :=
        h₁.of_same rfl rfl
      exact h₂.chain (runCallback_chain _ (anything_callback _ _) fun _ _ _ _ => .inr trivial)
  | @settled g =>
      have hc : Chain env now anything st (handleSettled env now st g) :=
        handleSettled_chain trivial (fun _ _ => trivial) g
      exact h.chain hc
  | swept hc =>
      have hsilent := h.aside (aside_silence env now st)
      have hpruned : Consistent exact env.cfg (pruneStaleKnownAliases now (st.silence env now)) :=
        hsilent.of_same rfl rfl
      exact hpruned.chain hc
  | purged =>
      refine Consistent.chain handlePurge_chain ?_
      exact h.of_same rfl rfl

theorem consistent_init (exact : Prop) (cfg : MeshConfig) (epoch : Int) :
    Consistent exact cfg (BrokerState.init epoch : BrokerState ν) where
  keyed _ _ h := by cases h
  linked _ _ h := by cases h
  covered _ _ _ h := by
    obtain ⟨members, h, -⟩ := h
    cases h
  bounded _ _ h := by cases h
  size _ _ h := by cases h

theorem welcome_samePeer {peer p' : PeerRecord ν} {id name : String}
    (h : (welcome env now st peer id).peers.get? name = some p') :
    ∃ p, st.peers.get? name = some p ∧ SamePeer p p' :=
  samePeer_of_chain (welcome_chain peer id) h

/-- After a hello its alias is in the rooms it asked for, or has no record. -/
theorem hello_rooms {name : String} (h : Consistent True env.cfg st)
    (hre : RejoinsRooms env st (now, .line sock text)) (hconn : st.isConnected sock = true)
    (hacc : Accepted env text f) (hopen : HelloOpens env st sock f name)
    {requested : List (RoomKey ν)} {taken : Nat}
    (hrooms : requestedRooms (st.refs + 1) f = .ok (requested, taken))
    (hstep : BrokerStep env st (now, .line sock text) st') (key : RoomKey ν) :
    InRoom st'.rooms name key ↔ st'.peers.has name = true ∧ key ∈ requested := by
  have hafter := consistent_step h (fun _ => hre) hstep
  have hline : handleLine env now st sock text = .ok st' := by
    unfold BrokerStep at hstep
    simpa only [step, hconn, if_true] using hstep
  obtain ⟨⟨o, rooms, peer⟩, hjoin, rfl⟩ := handleLine_hello hacc hopen hrooms hline
  have he := joinAll_effect h.bounded (newPeer_linked name) hjoin
  rw [hafter.inRoom trivial]
  rw [(aside_clearTimer _ _).peers]
  cases o with
  | some code =>
      have hgone : (helloEnd env now st sock name f taken (some code, rooms, peer)).peers.get? name
          = none := by
        obtain ⟨w, -, -, -, hrefuse⟩ := refuseRooms_eq env now
          { helloState env now st sock name f taken with rooms } sock peer code f.id
        have hname : peer.name = name := by rw [he.same]; rfl
        simp only [helloEnd]
        rw [hrefuse, (aside_destroy _ _).peers, hname]
        exact Map.get?_delete_self _ _
      simp [hgone, Map.has]
  | none =>
      -- the record that is left, if any, is the one the rooms were joined for
      have hpeer : ∀ p', (helloEnd env now st sock name f taken (none, rooms, peer)).peers.get? name
          = some p' → p'.rooms = peer.rooms := by
        intro p' hp'
        obtain ⟨p, hp, hsame⟩ := welcome_samePeer hp'
        rw [Map.get?_set_self] at hp
        rw [hsame.rooms, ← Option.some.inj hp]
      have hkeys : peer.rooms.has key = true ↔ key ∈ requested := by
        refine ⟨fun hk => ?_, he.all rfl key⟩
        rcases he.only key hk with hk | hk
        · cases hk
        · exact hk
      rw [← hkeys]
      constructor
      · rintro ⟨p', hp', hk⟩
        exact ⟨by simp [Map.has, hp'], by rw [← hpeer p' hp']; exact hk⟩
      · rintro ⟨hhas, hk⟩
        obtain ⟨p', hp'⟩ := Option.isSome_iff_exists.mp hhas
        exact ⟨p', hp', by rw [hpeer p' hp']; exact hk⟩

end Steps

/-! ### Runs -/

section Runs

variable {env : Env} {epoch : Int} {tr : BrokerTrace ν} {st : BrokerState ν}

/-- In every reachable state each record is in the sets of its rooms and the bounds hold. -/
theorem linked_run (hrun : Run (BrokerStep env) (BrokerState.init epoch) tr st) :
    Consistent False env.cfg st :=
  hrun.invariant (Meets.trivial tr) (consistent_init False env.cfg epoch) fun _ _ _ h _ hs =>
    consistent_step h False.elim hs

theorem consistent_run (hrun : Run (BrokerStep env) (BrokerState.init epoch) tr st)
    (hok : Meets (RejoinsRooms env) tr) : Consistent True env.cfg st :=
  hrun.invariant hok (consistent_init True env.cfg epoch) fun _ _ _ h hre hs =>
    consistent_step h (fun _ => hre) hs

/-- **Where no hello leaves a stale membership behind, the two tables agree in every
reachable state**: an alias is in a room exactly when its record is, no room is empty,
and both bounds hold.  After a hello the alias is in the rooms that hello asked for and
in no other, unless a failed write has closed it already. -/
theorem membership_agrees (hrun : Run (BrokerStep env) (BrokerState.init epoch) tr st)
    (hok : Meets (RejoinsRooms env) tr) :
    (∀ name key, InRoom st.rooms name key ↔
      ∃ p, st.peers.get? name = some p ∧ p.rooms.has key = true) ∧
    (∀ key members, st.rooms.get? key = some members →
      members.size ≠ 0 ∧ members.size ≤ maxPeersPerRoom) ∧
    (∀ name p, st.peers.get? name = some p → p.rooms.size ≤ env.cfg.maxRoomsPerPeer) ∧
    (∀ before pre now sock text f name requested taken,
      tr = before ++ [(pre, now, .line sock text)] → pre.isConnected sock = true →
      Accepted env text f → HelloOpens env pre sock f name →
      requestedRooms (pre.refs + 1) f = .ok (requested, taken) →
      ∀ key, InRoom st.rooms name key ↔ st.peers.has name = true ∧ key ∈ requested) := by
  have hst := consistent_run hrun hok
  refine ⟨hst.inRoom trivial, hst.bounded, hst.size, ?_⟩
  intro before pre now sock text f name requested taken htr hconn hacc hopen hrooms
  cases hrun with
  | nil => simp at htr
  | snoc hprefix hstep =>
      obtain ⟨rfl, hlast⟩ := List.append_inj' htr rfl
      obtain ⟨rfl, rfl⟩ := Prod.mk.inj (List.head_eq_of_cons_eq hlast)
      exact hello_rooms (consistent_run hprefix hok.left) hok.last hconn hacc hopen hrooms hstep

end Runs

/-- A test for `RejoinsRooms`: the hello asks for rooms it can all have, those of the record
it replaces among them. -/
def rejoins (env : Env) (st : BrokerState ν) : Event → Bool
  | .line _ text =>
      match parseFrameLine env.rt text with
      | .error _ => true
      | .ok ms =>
          match castFrame ms with
          | .error _ => true
          | .ok f =>
              match f.sender.bind st.peers.get?, requestedRooms (st.refs + 1) f with
              | some old, .ok (requested, _) =>
                  decide (requested.length ≤ env.cfg.maxRoomsPerPeer) &&
                  requested.all (fun key => (isValidRoomKey key).toOption == some true &&
                    (st.rooms.get? key).all fun members => decide (members.size < maxPeersPerRoom)) &&
                  old.rooms.keys.all fun key => decide (key ∈ requested)
              | _, _ => true
  | _ => true

theorem rejoinsRooms_of_test {env : Env} {st : BrokerState ν} {e : Int × Event}
    (h : rejoins env st e.2 = true) : RejoinsRooms env st e := by
  intro sock text f name old requested taken he hacc hopen hold hrooms
  obtain ⟨ms, hms, hcast⟩ := hacc
  simp only [he, rejoins, hms, hcast, hopen.sender, Option.bind_some, hold, hrooms,
    Bool.and_eq_true, decide_eq_true_eq, List.all_eq_true, beq_iff_eq] at h
  obtain ⟨⟨hlen, hkeys⟩, hsub⟩ := h
  refine ⟨requested, [], by simp, ⟨by omega, fun key hkey => ⟨?_, fun members hm => ?_⟩⟩,
    fun key hkey => hsub key ((Map.mem_keys_iff _ _).mpr (Option.isSome_iff_exists.mp hkey))⟩
  · have := (hkeys key hkey).1
    cases hv : isValidRoomKey key with
    | error err => simp [hv, Except.toOption] at this
    | ok b => simpa [hv, Except.toOption] using this
  · have := (hkeys key hkey).2
    exact .inr (by simpa [hm] using this)

/-- Alice is back on a new socket after the old one broke, and asks for the same room or
another one; the old socket's `close` comes last. -/
def aliceReturns (room : String) : List (Int × Event) :=
  let hello (room : String) : List Char :=
    frameLine .hello "m_1" "alice" [("rooms", .arr [.str room])]
  [(1000, .connect 0 false none), (1001, .line 0 (hello "dev")), (1002, .lost 0),
    (1003, .connect 1 false none), (1004, .line 1 (hello room)), (1005, .close 0)]

theorem membership_agrees_returning :
    ∃ (tr : BrokerTrace Int) (st : BrokerState Int),
      tr.map Prod.snd = aliceReturns "dev" ∧
      (InRoom st.rooms "alice" (.ofString "dev") ↔
        ∃ p, st.peers.get? "alice" = some p ∧ p.rooms.has (.ofString "dev") = true) := by
  have h : ((runBroker (referenceEnv {}) (aliceReturns "dev")).any fun r =>
      r.1.all fun x => rejoins (referenceEnv {}) x.1 x.2.2) = true := by decide +kernel
  obtain ⟨tr, st, hrun, htr, hcheck⟩ := exists_run h
  rw [List.all_eq_true] at hcheck
  exact ⟨tr, st, htr, (membership_agrees hrun fun x hx =>
    rejoinsRooms_of_test (hcheck x hx)).1 "alice" (.ofString "dev")⟩

/-- The second hello asks for another room: the set of the first still lists alice, whose
record is not in it, and no later event takes her out. -/
theorem stale_membership : ∃ (tr : BrokerTrace Int) (st : BrokerState Int),
    Run (BrokerStep (referenceEnv {})) (BrokerState.init 1) tr st ∧
    tr.map Prod.snd = aliceReturns "ops" ∧ InRoom st.rooms "alice" (.ofString "dev") ∧
    ¬ ∃ p, st.peers.get? "alice" = some p ∧ p.rooms.has (.ofString "dev") = true := by
  have h : ((runBroker (referenceEnv {}) (aliceReturns "ops")).any fun r =>
      (r.2.rooms.get? (.ofString "dev")).any (fun members => decide ("alice" ∈ members.elems)) &&
      !(r.2.peers.get? "alice").any fun p => p.rooms.has (.ofString "dev")) = true := by
    decide +kernel
  obtain ⟨tr, st, hrun, htr, hcheck⟩ := exists_run h
  simp only [Bool.and_eq_true, decide_eq_true_eq, Option.any_eq_true, Bool.not_eq_true',
    Option.any_eq_false] at hcheck
  obtain ⟨⟨members, hm, hin⟩, hnot⟩ := hcheck
  refine ⟨tr, st, hrun, htr, ⟨members, hm, hin⟩, ?_⟩
  rintro ⟨p, hp, hhas⟩
  exact Bool.false_ne_true ((hnot p hp).symm.trans hhas)

end PiMesh
