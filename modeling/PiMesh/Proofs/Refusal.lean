/-
What a refused hello leaves behind.

A hello that fails the token or finds its alias taken is answered before any table is
touched.  One that fails on a room has made its record, stamped its alias and joined the
rooms ahead; the handler then takes the record out and detaches it from those rooms.
Three things it does not put back: the record it replaced, the stamp, and an entry of the
alias in one of those rooms from before.  Where none of the three is at stake the tables
are again what they were, entry for entry.
-/
import PiMesh.Proofs.Hello

namespace PiMesh

open Js Transition BrokerState

variable {ν : Type} [Number ν] [DecidableEq ν]

/-! ### Undoing joins -/

section Undo

variable {rooms : RoomTable ν} {name : String}

/-- A member put into a room it was not in, and taken out again. -/
theorem removeMember_addMember_self {key : RoomKey ν} (hb : Bounded rooms)
    (hnot : ¬ InRoom rooms name key) :
    removeMember (addMember rooms key name) key name = rooms := by
  have hget : (addMember rooms key name).get? key
      = some (((rooms.get? key).getD Js.Set.empty).add name) := Map.get?_set_self _ _ _
  unfold removeMember
  rw [hget]
  simp only
  cases hm : rooms.get? key with
  | none =>
      have hnew : name ∉ (Js.Set.empty : Js.Set String).elems := by simp [Js.Set.empty]
      have hsize : (Js.Set.empty : Js.Set String).size = 0 := rfl
      rw [Option.getD_none, Js.Set.delete_add_of_not_mem _ hnew, if_pos hsize]
      exact Map.delete_set_of_get?_eq_none _ hm
  | some members =>
      have hnew : name ∉ members.elems := fun hc => hnot ⟨members, hm, hc⟩
      rw [Option.getD_some, Js.Set.delete_add_of_not_mem _ hnew, if_neg (hb key members hm).1]
      unfold addMember
      rw [Map.set_set]
      exact Map.set_of_get? hm

/-- Rooms do not disturb each other. -/
theorem removeMember_addMember_ne {key k : RoomKey ν} (hne : k ≠ key) :
    removeMember (addMember rooms k name) key name
      = addMember (removeMember rooms key name) k name := by
  unfold removeMember
  rw [get?_addMember_ne rooms name (Ne.symm hne)]
  cases hm : rooms.get? key with
  | none => rfl
  | some members =>
      simp only
      by_cases hsize : (members.delete name).size = 0
      · rw [if_pos hsize, if_pos hsize]
        unfold addMember
        rw [Map.delete_set_ne _ hne, Map.get?_delete_ne _ hne]
      · rw [if_neg hsize, if_neg hsize]
        unfold addMember
        rw [Map.set_comm hne _ _ (by rw [hm]; simp), Map.get?_set_ne _ _ hne]

theorem removeMember_foldl_addMember {key : RoomKey ν} {keys : List (RoomKey ν)}
    (hnot : key ∉ keys) :
    removeMember (keys.foldl (fun r k => addMember r k name) rooms) key name
      = keys.foldl (fun r k => addMember r k name) (removeMember rooms key name) := by
  induction keys generalizing rooms with
  | nil => rfl
  | cons k rest ih =>
      rw [List.mem_cons, not_or] at hnot
      rw [List.foldl_cons, List.foldl_cons, ih hnot.2,
        removeMember_addMember_ne (Ne.symm hnot.1)]

/-- **Rooms joined and left again are what they were**, where the alias was in none of
them. -/
theorem foldl_removeMember_addMember {keys : List (RoomKey ν)} (hnd : keys.Nodup)
    (hb : Bounded rooms) (hnot : ∀ key ∈ keys, ¬ InRoom rooms name key) :
    keys.foldl (fun r k => removeMember r k name) (keys.foldl (fun r k => addMember r k name) rooms)
      = rooms := by
  induction keys with
  | nil => rfl
  | cons key rest ih =>
      obtain ⟨hkey, hnd⟩ := List.nodup_cons.mp hnd
      rw [List.foldl_cons, List.foldl_cons, removeMember_foldl_addMember hkey,
        removeMember_addMember_self hb (hnot key (by simp))]
      exact ih hnd fun k hk => hnot k (List.mem_cons_of_mem _ hk)

end Undo

/-! ### How far the loop gets -/

section Loop

variable {cfg : MeshConfig} {f : MeshFrame ν}

theorem Joinable.of_append {rooms : RoomTable ν} {name : String} {taken : Nat}
    {pre post : List (RoomKey ν)} (h : Joinable cfg rooms name taken (pre ++ post)) :
    Joinable cfg rooms name taken pre := by
  obtain ⟨hlen, hkeys⟩ := h
  rw [List.length_append] at hlen
  exact ⟨by omega, fun key hkey => hkeys key (List.mem_append_left _ hkey)⟩

theorem keys_set_new {peer : PeerRecord ν} {key : RoomKey ν} (role : MeshRole)
    (hnew : peer.rooms.has key = false) : (peer.rooms.set key role).keys = peer.rooms.keys ++ [key] := by
  have hkeys : (peer.rooms.set key role).keys
      = if key ∈ peer.rooms.keys then peer.rooms.keys else peer.rooms.keys ++ [key] :=
    keys_setEntry key role peer.rooms.entries
  have hnot : key ∉ peer.rooms.keys := by
    rw [Map.mem_keys_iff, ← Map.has_iff, hnew]
    simp
  rw [hkeys, if_neg hnot]

/-- The rooms that were joined: a prefix of the list that can be joined, and no longer one
can where the loop ended in a refusal. -/
theorem joinAll_prefix {keys : List (RoomKey ν)} {rooms rooms' : RoomTable ν}
    {peer peer' : PeerRecord ν} {code : MeshErrorCode} (hfresh : FreshKeys peer keys)
    (hle : peer.rooms.size ≤ cfg.maxRoomsPerPeer)
    (h : joinAll cfg f keys rooms peer = .ok (some code, rooms', peer')) :
    ∃ pre key post, keys = pre ++ key :: post ∧
      Joinable cfg rooms peer.name peer.rooms.size pre ∧
      ¬ Joinable cfg rooms peer.name peer.rooms.size (pre ++ [key]) ∧
      rooms' = pre.foldl (fun r k => addMember r k peer.name) rooms ∧
      peer'.rooms.keys = peer.rooms.keys ++ pre ∧ peer'.name = peer.name := by
  induction keys generalizing rooms peer with
  | nil => simp [joinAll] at h
  | cons key rest ih =>
      have hnew : peer.rooms.has key = false := hfresh.2 key (by simp)
      have hsome : (coerceString key.value).isSome = true := by
        by_contra hc
        obtain ⟨err, herr⟩ := joinAll_throws cfg f rooms peer rest (by simpa using hc)
        rw [herr] at h
        cases h
      obtain ⟨role, hrole⟩ := helloRole_isSome f hsome
      rcases joinRoom_new cfg rooms role hnew hsome with ⟨hc, hjoin⟩ | ⟨hc, hjoin⟩
      · rw [joinAll_cons_joined hrole hjoin] at h
        have hsize : (peer.rooms.set key role).size = peer.rooms.size + 1 := by
          rw [Map.size_set, hnew]
          rfl
        have hle' : (peer.rooms.set key role).size ≤ cfg.maxRoomsPerPeer := by
          have := hc.below
          omega
        obtain ⟨pre, last, post, rfl, hpre, hnot, hrooms, hkeys, hname⟩ :=
          ih (hfresh.tail role) hle' h
        simp only [hsize] at hpre hnot
        have hnd : key ∉ pre ++ last :: post := (List.nodup_cons.mp hfresh.1).1
        have hnd₁ : key ∉ pre := fun hx => hnd (List.mem_append_left _ hx)
        have hnd₂ : key ∉ pre ++ [last] := by
          intro hx
          rcases List.mem_append.mp hx with hx | hx
          · exact hnd₁ hx
          · rw [List.mem_singleton] at hx
            exact hnd (by rw [hx]; simp)
        refine ⟨key :: pre, last, post, rfl, (joinable_cons hnd₁).mpr ⟨hc, hpre⟩, ?_, hrooms, ?_,
          hname⟩
        · intro hj
          exact hnot ((joinable_cons hnd₂).mp hj).2
        · rw [hkeys, keys_set_new role hnew, List.append_assoc]
          rfl
      · rw [joinAll_cons_refused hrole hjoin] at h
        simp only [Except.ok.injEq, Prod.mk.injEq, Option.some.injEq] at h
        obtain ⟨rfl, rfl, rfl⟩ := h
        refine ⟨[], key, rest, rfl, joinable_nil _ hle, ?_, rfl, by simp, rfl⟩
        intro hj
        exact hc ((joinable_cons (by simp)).mp hj).1

/-- A list of rooms that can be joined ends where the loop did. -/
theorem prefix_of_joinable {rooms : RoomTable ν} {name : String} {taken : Nat}
    {pre pre' post post' : List (RoomKey ν)} {key : RoomKey ν}
    (hkeys : pre ++ key :: post = pre' ++ post')
    (hnot : ¬ Joinable cfg rooms name taken (pre ++ [key]))
    (hpre' : Joinable cfg rooms name taken pre') : pre' <+: pre := by
  have h₁ : pre ++ [key] <+: pre ++ key :: post := ⟨post, by simp⟩
  have h₂ : pre' <+: pre ++ key :: post := ⟨post', hkeys.symm⟩
  rcases List.prefix_or_prefix_of_prefix h₁ h₂ with ⟨t, ht⟩ | hle
  · rw [← ht] at hpre'
    exact absurd hpre'.of_append hnot
  · rcases List.prefix_concat_iff.mp hle with heq | hle
    · rw [heq] at hpre'
      exact absurd hpre' hnot
    · exact hle

end Loop

/-! ### Refused hellos -/

/-- A hello the broker answers with an error. -/
inductive HelloRefused (env : Env) (now : Int) (st : BrokerState ν) (sock : SocketId)
    (f : MeshFrame ν) : Prop
  | token (name : String) (htype : f.type = .hello) (hauth : authed st sock f = none)
      (hsender : f.sender = some name)
      (htoken : tokenAccepted env (st.sockets.get? sock) f.token = false)
  | taken (name : String) (htype : f.type = .hello) (hauth : authed st sock f = none)
      (hsender : f.sender = some name)
      (htoken : tokenAccepted env (st.sockets.get? sock) f.token = true)
      (htaken : ((st.peers.get? name).any fun e =>
        e.socket != sock && !st.isDestroyed e.socket) = true)
  | room (name : String) (hopen : HelloOpens env st sock f name) (requested : List (RoomKey ν))
      (taken : Nat) (code : MeshErrorCode) (rooms : RoomTable ν) (peer : PeerRecord ν)
      (hrooms : requestedRooms (st.refs + 1) f = .ok (requested, taken))
      (hjoin : joinAll env.cfg f requested st.rooms (newPeer env now st sock name f)
        = .ok (some code, rooms, peer))

/-- The tables are the same, and of the sockets only one has changed: it is destroyed. -/
structure OnlyDestroyed (sock : SocketId) (st st' : BrokerState ν) : Prop where
  peers : st'.peers = st.peers
  rooms : st'.rooms = st.rooms
  mailbox : st'.mailbox = st.mailbox
  knownAliases : st'.knownAliases = st.knownAliases
  rates : st'.rates = st.rates
  stats : st'.stats = st.stats
  destroyed : st'.isDestroyed sock = true
  others : ∀ s, s ≠ sock → st'.sockets.get? s = st.sockets.get? s

/-- Nothing is at stake in a refusal after the record was made: the alias has no record,
its stamp is the present one, and it is in none of the rooms that are joined ahead. -/
structure NothingAtStake (env : Env) (now : Int) (st : BrokerState ν) (name : String)
    (f : MeshFrame ν) : Prop where
  noRecord : st.peers.get? name = none
  stamped : st.knownAliases.get? name = some now
  notIn : ∀ requested taken pre post, requestedRooms (st.refs + 1) f = .ok (requested, taken) →
    requested = pre ++ post → Joinable env.cfg st.rooms name 0 pre →
    ∀ key ∈ pre, ¬ InRoom st.rooms name key

section Refused

variable {env : Env} {now : Int} {st st' : BrokerState ν} {sock : SocketId} {text : List Char}
  {f : MeshFrame ν}

theorem get?_modifySocket_ne (st : BrokerState ν) {sock s : SocketId} (g : Socket → Socket)
    (h : s ≠ sock) : (st.modifySocket sock g).sockets.get? s = st.sockets.get? s := by
  unfold BrokerState.modifySocket
  split
  · exact Map.get?_set_ne _ _ h
  · rfl

theorem modifySocket_eq (st : BrokerState ν) (sock : SocketId) (g : Socket → Socket) :
    ∃ sockets, st.modifySocket sock g = { st with sockets } := by
  unfold BrokerState.modifySocket
  split
  · exact ⟨_, rfl⟩
  · exact ⟨st.sockets, rfl⟩

theorem destroy_eq_modifySocket (st : BrokerState ν) (sock : SocketId) :
    st.destroy sock = st.modifySocket sock fun s => { s with destroyed := true } := rfl

/-- Destroying the socket and disarming its deadline, after the tables were left as they
are told. -/
theorem onlyDestroyed_iff {s : BrokerState ν} (hsockets : s.sockets = st.sockets)
    (hmailbox : s.mailbox = st.mailbox) (hrates : s.rates = st.rates) (hstats : s.stats = st.stats) :
    OnlyDestroyed sock st ((s.destroy sock).clearTimer sock) ↔
      s.peers = st.peers ∧ s.rooms = st.rooms ∧ s.knownAliases = st.knownAliases := by
  have hothers : ∀ x, x ≠ sock →
      ((s.destroy sock).clearTimer sock).sockets.get? x = st.sockets.get? x := by
    intro x hx
    unfold BrokerState.clearTimer
    rw [get?_modifySocket_ne _ _ hx, destroy_eq_modifySocket, get?_modifySocket_ne _ _ hx, hsockets]
  have hdestroyed : ((s.destroy sock).clearTimer sock).isDestroyed sock = true :=
    (aside_clearTimer _ sock).destroyed sock (isDestroyed_destroy s sock)
  obtain ⟨sockets, heq⟩ : ∃ sockets, (s.destroy sock).clearTimer sock = { s with sockets } := by
    obtain ⟨s₁, h₁⟩ := modifySocket_eq s sock fun s => { s with destroyed := true }
    obtain ⟨s₂, h₂⟩ := modifySocket_eq { s with sockets := s₁ } sock
      fun s => { s with helloTimer := false }
    refine ⟨s₂, ?_⟩
    unfold BrokerState.clearTimer
    rw [destroy_eq_modifySocket, h₁, h₂]
  constructor
  · intro h
    have hp := h.peers
    have hr := h.rooms
    have hk := h.knownAliases
    rw [heq] at hp hr hk
    exact ⟨hp, hr, hk⟩
  · rintro ⟨hp, hr, hk⟩
    refine ⟨?_, ?_, ?_, ?_, ?_, ?_, hdestroyed, hothers⟩
    · rw [heq]; exact hp
    · rw [heq]; exact hr
    · rw [heq]; exact hmailbox
    · rw [heq]; exact hk
    · rw [heq]; exact hrates
    · rw [heq]; exact hstats

/-- An error and the end of the connection leave the tables alone. -/
theorem onlyDestroyed_sendError (code : MeshErrorCode) :
    OnlyDestroyed sock st
      (((sendError env now st sock code (some f.id)).destroy sock).clearTimer sock) := by
  obtain ⟨status, -, hwrite⟩ := sendError_some_eq env now st sock code f.id
  rw [hwrite]
  refine (onlyDestroyed_iff ?_ ?_ ?_ ?_).mpr ⟨?_, ?_, ?_⟩ <;> rfl

theorem handleLine_stopped (hacc : Accepted env text f) (htype : f.type = .hello)
    (hauth : authed st sock f = none) {s : BrokerState ν}
    (hhello : handleHello env now st sock f = .ok s) :
    handleLine env now st sock text = .ok (s.clearTimer sock) := by
  rw [handleLine_accepted hacc]
  unfold handleFrame dispatch
  simp only [hauth, htype, if_true, hhello, bind, Except.bind, decide_true, Bool.or_true]

/-- The alias has no record afterwards, so it is the same table only where it had none. -/
theorem refused_peers_iff (name : String) (taken : Nat) :
    (helloState env now st sock name f taken).peers.delete name = st.peers ↔
      st.peers.get? name = none := by
  constructor
  · intro h
    rw [← h]
    exact Map.get?_delete_self _ _
  · intro h
    have hpeers : (helloState env now st sock name f taken).peers
        = st.peers.set name (newPeer env now st sock name f) := by
      have hname : (newPeer env now st sock name f).name = name := rfl
      simp only [helloState, BrokerState.enroll, hname, h, Option.isSome_none, Bool.false_eq_true,
        if_false]
    rw [hpeers]
    exact Map.delete_set_of_get?_eq_none _ h

theorem refused_stamp_iff (name : String) :
    st.knownAliases.set name now = st.knownAliases ↔ st.knownAliases.get? name = some now := by
  constructor
  · intro h
    rw [← h]
    exact Map.get?_set_self _ _ _
  · exact Map.set_of_get?

/-- The rooms come back exactly where the alias was in none of those that were joined. -/
theorem refused_rooms_iff {name : String} (hb : Bounded st.rooms) {requested : List (RoomKey ν)}
    {taken : Nat} {code : MeshErrorCode} {rooms : RoomTable ν} {peer : PeerRecord ν}
    (hrooms : requestedRooms (st.refs + 1) f = .ok (requested, taken))
    (hnd : requested.Nodup)
    (hjoin : joinAll env.cfg f requested st.rooms (newPeer env now st sock name f)
      = .ok (some code, rooms, peer)) :
    detachFromRooms rooms peer = st.rooms ↔
      ∀ requested taken pre post, requestedRooms (st.refs + 1) f = .ok (requested, taken) →
        requested = pre ++ post → Joinable env.cfg st.rooms name 0 pre →
        ∀ key ∈ pre, ¬ InRoom st.rooms name key := by
  have hfresh : FreshKeys (newPeer env now st sock name f) requested := ⟨hnd, fun _ _ => rfl⟩
  obtain ⟨pre, last, post, hsplit, hpre, hnot, hadd, hkeys, hname⟩ :=
    joinAll_prefix hfresh (Nat.zero_le _) hjoin
  have hkeys' : peer.rooms.keys = pre := hkeys
  have hname' : peer.name = name := hname
  have hdetach : detachFromRooms rooms peer
      = pre.foldl (fun r k => removeMember r k name) rooms := by
    unfold detachFromRooms
    rw [hkeys', hname']
  constructor
  · intro h requested' taken' pre' post' hrooms' hsplit' hpre' key hkey hin
    -- the room is one of those joined, and the alias is no longer in it
    obtain ⟨rfl, -⟩ := Prod.mk.inj (Except.ok.inj (hrooms.symm.trans hrooms'))
    have hsub : pre' <+: pre := prefix_of_joinable (hsplit.symm.trans hsplit') hnot hpre'
    have he := joinAll_effect hb (newPeer_linked name) hjoin
    obtain ⟨-, hout⟩ := detachFromRooms_effect peer he.bounded
    rw [← h, hout] at hin
    refine hin.2 ⟨hname'.symm, ?_⟩
    rw [Map.has_iff, ← Map.mem_keys_iff, hkeys']
    exact hsub.subset hkey
  · intro h
    have hclean := h requested taken pre (last :: post) hrooms hsplit hpre
    have hpnd : pre.Nodup := by
      rw [hsplit] at hnd
      exact (List.nodup_append.mp hnd).1
    rw [hdetach, hadd]
    exact foldl_removeMember_addMember hpnd hb hclean

theorem requestedRooms_nodup {refs : Nat} {requested : List (RoomKey ν)} {taken : Nat}
    (h : requestedRooms refs f = .ok (requested, taken)) : requested.Nodup := by
  unfold requestedRooms at h
  split at h
  · obtain ⟨rfl, -⟩ := Prod.mk.inj (Except.ok.inj h)
    exact List.nodup_singleton _
  · split at h
    · cases h
    · obtain ⟨rfl, -⟩ := Prod.mk.inj (Except.ok.inj h)
      exact (Js.Set.ofList _).nodup

/-- **A refused hello leaves every table as it was, except for its socket, exactly when
nothing is at stake**: it is refused for its token or for the alias, or the record it had
to make replaced none, was stamped with the present time already, and joined no room the
alias was listed in. -/
theorem refused_hello_iff {epoch : Int} {tr : BrokerTrace ν}
    (hrun : Run (BrokerStep env) (BrokerState.init epoch) tr st) (hacc : Accepted env text f)
    (hrefused : HelloRefused env now st sock f)
    (hline : handleLine env now st sock text = .ok st') :
    OnlyDestroyed sock st st' ↔
      ∀ name, HelloOpens env st sock f name → NothingAtStake env now st name f := by
  have hb : Bounded st.rooms := (linked_run hrun).bounded
  cases hrefused with
  | token name htype hauth hsender htoken =>
      have hhello : handleHello env now st sock f
          = .ok ((sendError env now st sock .invalidToken (some f.id)).destroy sock) := by
        unfold handleHello
        simp [hsender, htoken]
      obtain rfl := Except.ok.inj ((handleLine_stopped hacc htype hauth hhello).symm.trans hline)
      refine ⟨fun _ name' hopen => ?_, fun _ => onlyDestroyed_sendError _⟩
      rw [hopen.token] at htoken
      cases htoken
  | taken name htype hauth hsender htoken htaken =>
      have hhello : handleHello env now st sock f
          = .ok ((sendError env now st sock .aliasTaken (some f.id)).destroy sock) := by
        unfold handleHello
        simp [hsender, htoken, htaken]
      obtain rfl := Except.ok.inj ((handleLine_stopped hacc htype hauth hhello).symm.trans hline)
      refine ⟨fun _ name' hopen => ?_, fun _ => onlyDestroyed_sendError _⟩
      obtain rfl : name = name' := Option.some.inj (hsender.symm.trans hopen.sender)
      rw [hopen.free] at htaken
      cases htaken
  | room name hopen requested taken code rooms peer hrooms hjoin =>
      obtain ⟨r, hr, rfl⟩ := handleLine_hello hacc hopen hrooms hline
      obtain rfl := Except.ok.inj (hjoin.symm.trans hr)
      have hname : peer.name = name := by
        rw [(joinAll_effect hb (newPeer_linked name) hjoin).same]
        rfl
      obtain ⟨w, -, -, -, hrefuse⟩ := refuseRooms_eq env now
        { helloState env now st sock name f taken with rooms } sock peer code f.id
      simp only [helloEnd]
      rw [hrefuse]
      refine (onlyDestroyed_iff ?_ ?_ ?_ ?_).trans ?_
      · rfl
      · rfl
      · rfl
      · rfl
      · show ((helloState env now st sock name f taken).peers.delete peer.name = st.peers ∧
          detachFromRooms rooms peer = st.rooms ∧
          st.knownAliases.set name now = st.knownAliases) ↔ _
        rw [hname, refused_peers_iff, refused_stamp_iff,
          refused_rooms_iff hb hrooms (requestedRooms_nodup hrooms) hjoin]
        constructor
        · rintro ⟨hpeers, hin, hstamp⟩ name' hopen'
          obtain rfl : name = name' := Option.some.inj (hopen.sender.symm.trans hopen'.sender)
          exact ⟨hpeers, hstamp, hin⟩
        · intro h
          have hn := h name hopen
          exact ⟨hn.noRecord, hn.notIn, hn.stamped⟩

end Refused

/-- A test for a hello that is refused for a room. -/
def refusesRoom (env : Env) (now : Int) (st : BrokerState ν) (sock : SocketId) (text : List Char) :
    Bool :=
  match parseFrameLine env.rt text with
  | .error _ => false
  | .ok ms =>
      match castFrame ms with
      | .error _ => false
      | .ok f =>
          match f.sender, requestedRooms (st.refs + 1) f with
          | some name, .ok (requested, _) =>
              decide (f.type = .hello) && (authed st sock f).isNone &&
              tokenAccepted env (st.sockets.get? sock) f.token &&
              !((st.peers.get? name).any fun e => e.socket != sock && !st.isDestroyed e.socket) &&
              match joinAll env.cfg f requested st.rooms (newPeer env now st sock name f) with
              | .ok (some _, _, _) => true
              | _ => false
          | _, _ => false

theorem exists_refused {env : Env} {now : Int} {st : BrokerState ν} {sock : SocketId}
    {text : List Char} (h : refusesRoom env now st sock text = true) :
    ∃ f, Accepted env text f ∧ HelloRefused env now st sock f := by
  unfold refusesRoom at h
  split at h
  · cases h
  · next ms hms =>
      split at h
      · cases h
      · next f hf =>
          split at h
          · next name requested taken hsender hrooms =>
              simp only [Bool.and_eq_true, decide_eq_true_eq, Option.isNone_iff_eq_none,
                Bool.not_eq_true'] at h
              obtain ⟨⟨⟨⟨htype, hauth⟩, htoken⟩, hfree⟩, hjoin⟩ := h
              split at hjoin
              · next code rooms peer hj =>
                  exact ⟨f, ⟨ms, hms, hf⟩, .room name ⟨htype, hauth, hsender, htoken, hfree⟩ requested
                    taken code rooms peer hrooms hj⟩
              · cases hjoin
          · cases h

/-- Alice was here, left, and asks for a room whose name is none. -/
def badRoom : List (Int × Event) :=
  [(1000, .connect 0 false none), (1000, .line 0 (roomsLine (.arr [.str "dev"]))), (1000, .close 0),
    (1000, .connect 1 false none)]

theorem refused_hello_iff_stamped : ∃ (tr : BrokerTrace Int) (st st' : BrokerState Int)
    (f : MeshFrame Int), tr.map Prod.snd = badRoom ∧
    handleLine (referenceEnv {}) 1000 st 1 (roomsLine (.arr [.str "no room"])) = .ok st' ∧
    (OnlyDestroyed 1 st st' ↔ ∀ name, HelloOpens (referenceEnv {}) st 1 f name →
      NothingAtStake (referenceEnv {}) 1000 st name f) := by
  have h : ((runBroker (referenceEnv {}) badRoom).any fun r =>
      refusesRoom (referenceEnv {}) 1000 r.2 1 (roomsLine (.arr [.str "no room"])) &&
      (handleLine (referenceEnv {}) 1000 r.2 1 (roomsLine (.arr [.str "no room"]))).toOption.isSome)
      = true := by decide +kernel
  obtain ⟨tr, st, hrun, htr, hcheck⟩ := exists_run h
  obtain ⟨href, hok⟩ := Bool.and_eq_true_iff.mp hcheck
  obtain ⟨f, hacc, href⟩ := exists_refused href
  cases hline : handleLine (referenceEnv {}) 1000 st 1 (roomsLine (.arr [.str "no room"])) with
  | error err =>
      rw [hline] at hok
      cases hok
  | ok st' => exact ⟨tr, st, st', f, htr, hline, refused_hello_iff hrun hacc href hline⟩

/-- The first hello of an alias, refused for its room: the alias is known from then on. -/
theorem refused_hello_stamps : ∃ (tr : BrokerTrace Int) (st st' : BrokerState Int)
    (f : MeshFrame Int), Run (BrokerStep (referenceEnv {})) (BrokerState.init 1) tr st ∧
    tr.map Prod.snd = [(1000, .connect 0 false none)] ∧
    Accepted (referenceEnv {}) (roomsLine (.arr [.str "no room"])) f ∧
    HelloRefused (referenceEnv {}) 1001 st 0 f ∧
    handleLine (referenceEnv {}) 1001 st 0 (roomsLine (.arr [.str "no room"])) = .ok st' ∧
    st.knownAliases.has "alice" = false ∧ st'.knownAliases.has "alice" = true := by
  have h : ((runBroker (referenceEnv {}) [(1000, .connect 0 false none)]).any fun r =>
      refusesRoom (referenceEnv {}) 1001 r.2 0 (roomsLine (.arr [.str "no room"])) &&
      (!r.2.knownAliases.has "alice" &&
        (handleLine (referenceEnv {}) 1001 r.2 0 (roomsLine (.arr [.str "no room"]))).toOption.any
          fun st' => st'.knownAliases.has "alice")) = true := by decide +kernel
  obtain ⟨tr, st, hrun, htr, hcheck⟩ := exists_run h
  simp only [Bool.and_eq_true, Bool.not_eq_true', Option.any_eq_true] at hcheck
  obtain ⟨href, hbefore, st', hline, hafter⟩ := hcheck
  obtain ⟨f, hacc, href⟩ := exists_refused href
  cases hl : handleLine (referenceEnv {}) 1001 st 0 (roomsLine (.arr [.str "no room"])) with
  | error err =>
      rw [hl] at hline
      cases hline
  | ok s =>
      rw [hl] at hline
      obtain rfl := Option.some.inj hline
      exact ⟨tr, st, s, f, hrun, htr, hacc, href, hl, hbefore, hafter⟩

end PiMesh
