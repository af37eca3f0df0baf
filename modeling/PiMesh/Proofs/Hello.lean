/-
The room loop of a hello, exactly.

A hello joins the rooms it asks for one after the other and stops at the first that it
cannot have.  The rooms ahead of that one are a prefix of the list that can be joined;
the tables after the loop are those rooms added one by one.  From that follow the two
ways in which the loop goes wrong.

It throws where a room that is reached has no string form, and `new Set` throws where
the member is no iterable; `validateFrame` checks neither.  Every other field is checked
before a handler sees it, so nothing else in `dispatch` throws.

And it is undone by taking out the alias wherever it was joined, which gives the rooms
back as they were except where the alias was in one of them already.
-/
import PiMesh.Proofs.Membership

namespace PiMesh

open Js Transition BrokerState

variable {ν : Type} [Number ν] [DecidableEq ν]

/-! ### One room -/

/-- The alias put into the set of a room. -/
def addMember (rooms : RoomTable ν) (key : RoomKey ν) (name : String) : RoomTable ν :=
  rooms.set key (((rooms.get? key).getD Js.Set.empty).add name)

/-- What the next room of the loop has to satisfy to be joined. -/
structure CanJoin (cfg : MeshConfig) (rooms : RoomTable ν) (name : String) (taken : Nat)
    (key : RoomKey ν) : Prop where
  valid : isValidRoomKey key = .ok true
  below : taken < cfg.maxRoomsPerPeer
  place : HasPlace rooms name key

section OneRoom

variable {peer : PeerRecord ν} {key : RoomKey ν}

theorem isValidRoomKey_isSome (h : (coerceString key.value).isSome = true) :
    ∃ b, isValidRoomKey key = .ok b := by
  obtain ⟨s, hs⟩ := Option.isSome_iff_exists.mp h
  exact ⟨isValidRoom s, by simp [isValidRoomKey, hs]⟩

theorem isValidRoomKey_eq_error (h : coerceString key.value = none) :
    isValidRoomKey key = .error .noPrimitive := by
  simp [isValidRoomKey, h]

/-- A room the record is not in: joined if it can be, and otherwise nothing changes. -/
theorem joinRoom_new (cfg : MeshConfig) (rooms : RoomTable ν) (role : MeshRole)
    (hnew : peer.rooms.has key = false) (hsome : (coerceString key.value).isSome = true) :
    (CanJoin cfg rooms peer.name peer.rooms.size key ∧
      joinRoom cfg rooms peer key role = .ok (none, addMember rooms key peer.name,
        { peer with rooms := peer.rooms.set key role })) ∨
    (¬ CanJoin cfg rooms peer.name peer.rooms.size key ∧
      joinRoom cfg rooms peer key role = .ok (some .invalidRoom, rooms, peer)) := by
  obtain ⟨b, hb⟩ := isValidRoomKey_isSome hsome
  unfold joinRoom
  rw [hb]
  cases b with
  | false =>
      refine .inr ⟨?_, rfl⟩
      intro hc
      rw [hc.valid] at hb
      cases hb
  | true =>
      simp only [hnew, Bool.false_eq_true, if_false]
      by_cases hsize : peer.rooms.size ≥ cfg.maxRoomsPerPeer
      · rw [if_pos hsize]
        refine .inr ⟨?_, rfl⟩
        intro hc
        have := hc.below
        omega
      · rw [if_neg hsize]
        cases hm : rooms.get? key with
        | none =>
            -- a room that does not exist yet has a place
            refine .inl ⟨⟨hb, by omega, ?_⟩, ?_⟩
            · intro members hmembers
              rw [hm] at hmembers
              cases hmembers
            · have hroom : decide ((Js.Set.empty : Js.Set String).size ≥ maxPeersPerRoom) = false := by
                decide
              simp [hroom, addMember, hm]
        | some members =>
            simp only [Option.getD_some]
            by_cases hfull : (!members.has peer.name && decide (members.size ≥ maxPeersPerRoom)) = true
            · rw [if_pos hfull, Map.set_of_get? hm]
              refine .inr ⟨?_, rfl⟩
              intro hc
              simp only [Bool.and_eq_true, Bool.not_eq_true', decide_eq_true_eq, Js.Set.has,
                decide_eq_false_iff_not] at hfull
              rcases hc.place members hm with hin | hlt
              · exact hfull.1 hin
              · omega
            · rw [if_neg hfull]
              refine .inl ⟨⟨hb, by omega, ?_⟩, by simp [addMember, hm]⟩
              intro members' hm'
              obtain rfl := Option.some.inj (hm.symm.trans hm')
              by_cases hin : peer.name ∈ members.elems
              · exact .inl hin
              · refine .inr ?_
                simp only [Bool.and_eq_true, Bool.not_eq_true', decide_eq_true_eq, Js.Set.has,
                  decide_eq_false_iff_not, not_and] at hfull
                have := hfull hin
                omega

theorem get?_addMember_ne (rooms : RoomTable ν) {key k : RoomKey ν} (name : String) (h : k ≠ key) :
    (addMember rooms key name).get? k = rooms.get? k :=
  Map.get?_set_ne _ _ h

/-- Whether a room can be joined does not depend on the others. -/
theorem hasPlace_addMember (rooms : RoomTable ν) {key k : RoomKey ν} (name : String) (h : k ≠ key) :
    HasPlace (addMember rooms key name) name k ↔ HasPlace rooms name k := by
  unfold HasPlace
  rw [get?_addMember_ne rooms name h]

end OneRoom

/-! ### The loop -/

section Loop

variable {cfg : MeshConfig} {f : MeshFrame ν} {rooms : RoomTable ν} {peer : PeerRecord ν}

theorem joinable_cons {rooms : RoomTable ν} {name : String} {taken : Nat} {key : RoomKey ν}
    {rest : List (RoomKey ν)} (hnot : key ∉ rest) :
    Joinable cfg rooms name taken (key :: rest) ↔
      CanJoin cfg rooms name taken key ∧
        Joinable cfg (addMember rooms key name) name (taken + 1) rest := by
  have hplace : ∀ k ∈ rest, (HasPlace (addMember rooms key name) name k ↔ HasPlace rooms name k) := by
    intro k hk
    refine hasPlace_addMember rooms name ?_
    rintro rfl
    exact hnot hk
  unfold Joinable
  rw [List.length_cons]
  constructor
  · rintro ⟨hlen, hkeys⟩
    obtain ⟨hvalid, hp⟩ := hkeys key (by simp)
    refine ⟨⟨hvalid, by omega, hp⟩, by omega, ?_⟩
    intro k hk
    obtain ⟨hv, hp⟩ := hkeys k (List.mem_cons_of_mem _ hk)
    exact ⟨hv, (hplace k hk).mpr hp⟩
  · rintro ⟨hc, hlen, hkeys⟩
    refine ⟨by omega, ?_⟩
    intro k hk
    rcases List.mem_cons.mp hk with rfl | hk
    · exact ⟨hc.valid, hc.place⟩
    · exact ⟨(hkeys k hk).1, (hplace k hk).mp (hkeys k hk).2⟩

theorem helloRole_isSome (f : MeshFrame ν) {key : RoomKey ν}
    (h : (coerceString key.value).isSome = true) : ∃ role, helloRole f key = .ok role := by
  obtain ⟨s, hs⟩ := Option.isSome_iff_exists.mp h
  unfold helloRole
  cases f.roles with
  | none => exact ⟨_, rfl⟩
  | some roles =>
      rw [hs]
      exact ⟨_, rfl⟩

/-- A room without a string form ends the loop in an exception. -/
theorem joinAll_throws (cfg : MeshConfig) (f : MeshFrame ν) (rooms : RoomTable ν)
    (peer : PeerRecord ν) {key : RoomKey ν} (rest : List (RoomKey ν)) (h : coerceString key.value = none) :
    ∃ err, joinAll cfg f (key :: rest) rooms peer = .error err := by
  rw [joinAll]
  cases hrole : helloRole f key with
  | error err => exact ⟨err, rfl⟩
  | ok role =>
      have hjoin : joinRoom cfg rooms peer key role = .error .noPrimitive := by
        simp [joinRoom, isValidRoomKey_eq_error h]
      exact ⟨.noPrimitive, by simp [bind, Except.bind, hjoin]⟩

/-- The keys are new to the record. -/
def FreshKeys (peer : PeerRecord ν) (keys : List (RoomKey ν)) : Prop :=
  keys.Nodup ∧ ∀ key ∈ keys, peer.rooms.has key = false

theorem FreshKeys.tail {peer : PeerRecord ν} {key : RoomKey ν} {rest : List (RoomKey ν)}
    (h : FreshKeys peer (key :: rest)) (role : MeshRole) :
    FreshKeys { peer with rooms := peer.rooms.set key role } rest := by
  obtain ⟨hnot, hnd⟩ := List.nodup_cons.mp h.1
  refine ⟨hnd, ?_⟩
  intro k hk
  have hne : k ≠ key := by
    rintro rfl
    exact hnot hk
  show (peer.rooms.set key role).has k = false
  unfold Map.has
  rw [Map.get?_set_ne _ _ hne]
  exact h.2 k (List.mem_cons_of_mem _ hk)

/-- Taking a room off the front of the loop. -/
theorem joinAll_cons_joined {key : RoomKey ν} {rest : List (RoomKey ν)} {role : MeshRole}
    (hrole : helloRole f key = .ok role)
    (hjoin : joinRoom cfg rooms peer key role = .ok (none, addMember rooms key peer.name,
      { peer with rooms := peer.rooms.set key role })) :
    joinAll cfg f (key :: rest) rooms peer = joinAll cfg f rest (addMember rooms key peer.name)
      { peer with rooms := peer.rooms.set key role } := by
  rw [joinAll, hrole]
  simp only [bind, Except.bind, hjoin]

theorem joinAll_cons_refused {key : RoomKey ν} {rest : List (RoomKey ν)} {role : MeshRole}
    (hrole : helloRole f key = .ok role)
    (hjoin : joinRoom cfg rooms peer key role = .ok (some .invalidRoom, rooms, peer)) :
    joinAll cfg f (key :: rest) rooms peer = .ok (some .invalidRoom, rooms, peer) := by
  rw [joinAll, hrole]
  simp only [bind, Except.bind, hjoin]

/-- Every room that is reached has a string form. -/
def Readable (cfg : MeshConfig) (rooms : RoomTable ν) (name : String) (taken : Nat)
    (keys : List (RoomKey ν)) : Prop :=
  ∀ pre key post, keys = pre ++ key :: post → Joinable cfg rooms name taken pre →
    (coerceString key.value).isSome = true

theorem joinable_nil (name : String) {taken : Nat} (h : taken ≤ cfg.maxRoomsPerPeer) :
    Joinable cfg rooms name taken [] :=
  ⟨by simpa using h, by simp⟩

theorem readable_cons {name : String} {taken : Nat} {key : RoomKey ν} {rest : List (RoomKey ν)}
    (hnd : (key :: rest).Nodup) (hle : taken ≤ cfg.maxRoomsPerPeer) :
    Readable cfg rooms name taken (key :: rest) ↔
      (coerceString key.value).isSome = true ∧
        (CanJoin cfg rooms name taken key →
          Readable cfg (addMember rooms key name) name (taken + 1) rest) := by
  obtain ⟨hnot, -⟩ := List.nodup_cons.mp hnd
  have hsub : ∀ pre k post, rest = pre ++ k :: post → key ∉ pre := by
    rintro pre k post rfl hc
    exact hnot (List.mem_append_left _ hc)
  constructor
  · intro h
    refine ⟨h [] key rest rfl (joinable_nil name hle), ?_⟩
    intro hc pre k post hrest hpre
    refine h (key :: pre) k post (by rw [hrest]; rfl) ?_
    exact (joinable_cons (hsub pre k post hrest)).mpr ⟨hc, hpre⟩
  · rintro ⟨hkey, hrest⟩ pre k post heq hpre
    cases pre with
    | nil =>
        obtain ⟨rfl, -⟩ := List.cons.inj heq
        exact hkey
    | cons k' pre =>
        obtain ⟨rfl, htail⟩ := List.cons.inj heq
        obtain ⟨hc, hpre⟩ := (joinable_cons (hsub pre k post htail)).mp hpre
        exact hrest hc pre k post htail hpre

/-- **The loop ends without an exception exactly when every room it reaches has a string
form.** -/
theorem joinAll_total_iff {keys : List (RoomKey ν)} (hfresh : FreshKeys peer keys)
    (hle : peer.rooms.size ≤ cfg.maxRoomsPerPeer) :
    (∃ r, joinAll cfg f keys rooms peer = .ok r) ↔
      Readable cfg rooms peer.name peer.rooms.size keys := by
  induction keys generalizing rooms peer with
  | nil =>
      refine ⟨fun _ => ?_, fun _ => ⟨_, rfl⟩⟩
      intro pre key post h
      simp at h
  | cons key rest ih =>
      have hnew : peer.rooms.has key = false := hfresh.2 key (by simp)
      rw [readable_cons hfresh.1 hle]
      by_cases hsome : (coerceString key.value).isSome = true
      · obtain ⟨role, hrole⟩ := helloRole_isSome f hsome
        rcases joinRoom_new cfg rooms role hnew hsome with ⟨hc, hjoin⟩ | ⟨hc, hjoin⟩
        · have hsize : (peer.rooms.set key role).size = peer.rooms.size + 1 := by
            rw [Map.size_set, hnew]
            rfl
          have hle' : (peer.rooms.set key role).size ≤ cfg.maxRoomsPerPeer := by
            have := hc.below
            omega
          rw [joinAll_cons_joined hrole hjoin, ih (hfresh.tail role) hle']
          simp only [hsize, hsome, hc, true_and, forall_const]
        · rw [joinAll_cons_refused hrole hjoin]
          exact ⟨fun _ => ⟨hsome, fun h => absurd h hc⟩, fun _ => ⟨_, rfl⟩⟩
      · obtain ⟨err, herr⟩ := joinAll_throws cfg f rooms peer rest (by simpa using hsome)
        rw [herr]
        constructor
        · rintro ⟨r, hr⟩
          cases hr
        · rintro ⟨hkey, -⟩
          exact absurd hkey hsome

end Loop

/-! ### Which frames throw -/

/-- The rooms of a hello can be read: the member is absent or an iterable, and every room
that is reached has a string form. -/
def RoomsReadable (env : Env) (st : BrokerState ν) (name : String) (f : MeshFrame ν) : Prop :=
  ∀ v, f.rooms = some v → ∃ items, iterate v = some items ∧
    Readable env.cfg st.rooms name 0 (Js.Set.ofList (roomKeys (st.refs + 1) items)).elems

section Throws

variable {env : Env} {now : Int} {st : BrokerState ν} {sock : SocketId} {f : MeshFrame ν}
  {name : String}

theorem newPeer_fresh (keys : Js.Set (RoomKey ν)) :
    FreshKeys (newPeer env now st sock name f) keys.elems :=
  ⟨keys.nodup, fun _ _ => rfl⟩

theorem readable_default (cfg : MeshConfig) (rooms : RoomTable ν) (taken : Nat) :
    Readable cfg rooms name taken [.ofString defaultRoom] := by
  intro pre key post h _
  have hkey : key ∈ ([.ofString defaultRoom] : List (RoomKey ν)) := by
    rw [h]
    simp
  rw [List.mem_singleton] at hkey
  rw [hkey]
  rfl

/-- A hello that nothing stops is answered exactly when its rooms can be read. -/
theorem dispatch_hello_total_iff (hopen : HelloOpens env st sock f name) :
    (∃ st', dispatch env now st sock f = .ok st') ↔ RoomsReadable env st name f := by
  have hloop : ∀ (keys : Js.Set (RoomKey ν)) (taken : Nat),
      requestedRooms (st.refs + 1) f = .ok (keys.elems, taken) →
      ((∃ st', dispatch env now st sock f = .ok st') ↔
        Readable env.cfg st.rooms name 0 keys.elems) := by
    intro keys taken hrooms
    have hfresh : FreshKeys (newPeer env now st sock name f) keys.elems := newPeer_fresh keys
    have hiff : (∃ r, joinAll env.cfg f keys.elems st.rooms (newPeer env now st sock name f) = .ok r)
        ↔ Readable env.cfg st.rooms name 0 keys.elems := joinAll_total_iff hfresh (Nat.zero_le _)
    rw [← hiff, dispatch_hello hopen, hrooms]
    constructor
    · rintro ⟨st', h⟩
      obtain ⟨_, hr, h⟩ := bind_eq_ok.mp h
      obtain rfl := Except.ok.inj hr
      obtain ⟨r, hjoin, -⟩ := bind_eq_ok.mp h
      exact ⟨r, hjoin⟩
    · rintro ⟨r, hjoin⟩
      simp only [bind, Except.bind, hjoin]
      exact ⟨_, rfl⟩
  unfold RoomsReadable
  cases hv : f.rooms with
  | none =>
      have hrooms : requestedRooms (st.refs + 1) f
          = .ok ((Js.Set.ofList [.ofString defaultRoom]).elems, 0) := by
        simp only [requestedRooms, hv]
        rfl
      rw [hloop _ _ hrooms]
      simp only [reduceCtorEq, false_implies, implies_true, iff_true]
      exact readable_default env.cfg st.rooms 0
  | some v =>
      cases hitems : iterate v with
      | none =>
          have hrooms : requestedRooms (st.refs + 1) f = .error .notIterable := by
            simp only [requestedRooms, hv, hitems]
          rw [dispatch_hello hopen, hrooms]
          constructor
          · rintro ⟨st', h⟩
            cases h
          · intro h
            obtain ⟨items, hi, -⟩ := h v rfl
            rw [hitems] at hi
            cases hi
      | some items =>
          have hrooms : requestedRooms (st.refs + 1) f
              = .ok ((Js.Set.ofList (roomKeys (st.refs + 1) items)).elems, items.length) := by
            simp only [requestedRooms, hv, hitems]
          rw [hloop _ _ hrooms]
          simp [hitems]

theorem isValidRoomKey_ofString (room : String) :
    isValidRoomKey (.ofString room : RoomKey ν) = .ok (isValidRoom room) := rfl

theorem handleJoin_total (peer : PeerRecord ν) :
    ∃ st', handleJoin env now st sock peer f = .ok st' := by
  unfold handleJoin
  cases f.room with
  | none => exact ⟨_, rfl⟩
  | some room =>
      have hjoin : ∃ r, joinRoom env.cfg st.rooms peer (.ofString room) (f.role.getD .member)
          = .ok r := by
        unfold joinRoom
        rw [isValidRoomKey_ofString]
        cases isValidRoom room with
        | false => exact ⟨_, rfl⟩
        | true =>
            simp only
            split
            · exact ⟨_, rfl⟩
            · split
              · exact ⟨_, rfl⟩
              · split
                · exact ⟨_, rfl⟩
                · exact ⟨_, rfl⟩
      obtain ⟨⟨o, rooms, peer'⟩, hjoin⟩ := hjoin
      simp only [hjoin, bind, Except.bind]
      cases o with
      | some code => exact ⟨_, rfl⟩
      | none => exact ⟨_, rfl⟩

/-- No handler of an authenticated peer throws. -/
theorem dispatchPeer_total (peer : PeerRecord ν) :
    ∃ st', dispatchPeer env now st sock peer f = .ok st' := by
  unfold dispatchPeer
  split
  case h_14 => exact handleJoin_total peer
  all_goals exact ⟨_, rfl⟩

/-- A hello that is stopped before its record is made is answered. -/
theorem handleHello_total_of_stopped (hauth : authed st sock f = none) (htype : f.type = .hello)
    (hstop : ∀ name, ¬ HelloOpens env st sock f name) :
    ∃ st', handleHello env now st sock f = .ok st' := by
  unfold handleHello
  cases hsender : f.sender with
  | none => exact ⟨_, rfl⟩
  | some name =>
      simp only
      by_cases htoken : tokenAccepted env (st.sockets.get? sock) f.token = true
      · rw [if_neg (by simp [htoken])]
        by_cases hfree : ((st.peers.get? name).any fun e =>
            e.socket != sock && !st.isDestroyed e.socket) = true
        · rw [if_pos hfree]
          exact ⟨_, rfl⟩
        · exact absurd ⟨htype, hauth, hsender, htoken, by simpa using hfree⟩ (hstop name)
      · rw [if_pos (by simpa using htoken)]
        exact ⟨_, rfl⟩

/-- **An accepted frame is handled without an exception, except a hello whose rooms cannot
be read.**  The cast shows that no handler meets a member of a type it does not expect;
the rest holds in every state, on every socket. -/
theorem dispatch_total_iff (env : Env) (text : List Char) (ms : Members ν)
    (hparse : parseFrameLine env.rt text = .ok ms) (now : Int) (st : BrokerState ν)
    (sock : SocketId) :
    ∃ f, castFrame ms = .ok f ∧
      ((∃ st', dispatch env now st sock f = .ok st') ↔
        ∀ name, HelloOpens env st sock f name → RoomsReadable env st name f) := by
  obtain ⟨f, hcast⟩ := castFrame_of_passes (parseFrameLine_eq_ok.mp hparse).2
  refine ⟨f, hcast, ?_⟩
  by_cases hopen : ∃ name, HelloOpens env st sock f name
  · obtain ⟨name, hopen⟩ := hopen
    rw [dispatch_hello_total_iff hopen]
    constructor
    · intro h name' hopen'
      obtain rfl : name = name' := Option.some.inj (hopen.sender.symm.trans hopen'.sender)
      exact h
    · exact fun h => h name hopen
  · have hstop : ∀ name, ¬ HelloOpens env st sock f name := fun name h => hopen ⟨name, h⟩
    refine ⟨fun _ name h => absurd h (hstop name), fun _ => ?_⟩
    unfold dispatch
    cases hauth : authed st sock f with
    | some peer =>
        by_cases htype : f.type = .hello
        · simp only [htype, if_true]
          exact ⟨_, rfl⟩
        · simp only [htype, if_false]
          exact dispatchPeer_total _
    | none =>
        by_cases htype : f.type = .hello
        · simp only [htype, if_true]
          exact handleHello_total_of_stopped hauth htype hstop
        · simp only [htype, if_false]
          exact ⟨_, rfl⟩

end Throws

/-- A hello of alice with a given `rooms` member. -/
def roomsLine (rooms : Json Int) : List Char := frameLine .hello "m_1" "alice" [("rooms", rooms)]

theorem dispatch_total_iff_hello : ∃ ms : Members Int,
    parseFrameLine referenceRuntime (roomsLine (.arr [.str "dev"])) = .ok ms ∧
    ∃ f, castFrame ms = .ok f ∧
      ((∃ st', dispatch (referenceEnv {}) 1000 (BrokerState.init 1) 0 f = .ok st') ↔
        ∀ name, HelloOpens (referenceEnv {}) (BrokerState.init 1) 0 f name →
          RoomsReadable (referenceEnv {}) (BrokerState.init 1) name f) := by
  have h : (parseFrameLine referenceRuntime (roomsLine (.arr [.str "dev"])) :
      Except Reject (Members Int)).toOption.isSome = true := by decide +kernel
  cases hms : (parseFrameLine referenceRuntime (roomsLine (.arr [.str "dev"])) :
      Except Reject (Members Int)) with
  | error r =>
      rw [hms] at h
      cases h
  | ok ms => exact ⟨ms, rfl, dispatch_total_iff (referenceEnv {}) _ ms hms 1000 _ 0⟩

/-- A hello whose `rooms` is a number is accepted, and `new Set` throws on it. -/
theorem hello_throws : ∃ (tr : BrokerTrace Int) (st : BrokerState Int) (ms : Members Int)
    (f : MeshFrame Int),
    Run (BrokerStep (referenceEnv {})) (BrokerState.init 1) tr st ∧
    tr.map Prod.snd = [(1000, .connect 0 false none)] ∧
    parseFrameLine referenceRuntime (roomsLine (.num 5)) = .ok ms ∧ castFrame ms = .ok f ∧
    dispatch (referenceEnv {}) 1001 st 0 f = .error .notIterable := by
  have h : ((runBroker (referenceEnv {}) [(1000, .connect 0 false none)]).any fun r =>
      match (parseFrameLine referenceRuntime (roomsLine (.num 5)) : Except Reject (Members Int)) with
      | .error _ => false
      | .ok ms =>
          match castFrame ms with
          | .error _ => false
          | .ok f =>
              match dispatch (referenceEnv {}) 1001 r.2 0 f with
              | .error err => decide (err = .notIterable)
              | .ok _ => false) = true := by decide +kernel
  obtain ⟨tr, st, hrun, htr, hcheck⟩ := exists_run h
  simp only at hcheck
  split at hcheck
  · cases hcheck
  · next ms hms =>
      split at hcheck
      · cases hcheck
      · next f hf =>
          split at hcheck
          · next err herr =>
              obtain rfl := of_decide_eq_true hcheck
              exact ⟨tr, st, ms, f, hrun, htr, hms, hf, herr⟩
          · cases hcheck

end PiMesh
