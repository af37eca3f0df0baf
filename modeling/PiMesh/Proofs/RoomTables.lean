/-
What the functions of `broker/rooms.ts` do to the table of rooms.

Everything is stated through `get?`: which room a key finds afterwards, and who is in
it.  The one delicate point is the room that becomes empty, which has to leave the
table.
-/
import PiMesh.Broker.Rooms

namespace PiMesh

open Js

variable {ν : Type} [Number ν] [DecidableEq ν]

/-- What is left of a room when an alias is taken out of it. -/
def roomWithout (name : String) (members : Js.Set String) : Option (Js.Set String) :=
  if (members.delete name).size = 0 then none else some (members.delete name)

theorem mem_roomWithout {name : String} {members members' : Js.Set String}
    (h : roomWithout name members = some members') (x : String) :
    x ∈ members'.elems ↔ x ∈ members.elems ∧ x ≠ name := by
  unfold roomWithout at h
  split at h
  · cases h
  · rw [← Option.some.inj h]
    exact members.mem_delete name x

theorem roomWithout_eq_none {name : String} {members : Js.Set String}
    (h : roomWithout name members = none) {x : String} (hx : x ∈ members.elems) : x = name := by
  unfold roomWithout at h
  split at h
  · next hsize =>
      by_contra hne
      have : x ∈ (members.delete name).elems := (members.mem_delete name x).mpr ⟨hx, hne⟩
      rw [List.length_eq_zero_iff.mp hsize] at this
      cases this
  · cases h

theorem roomWithout_size_le {name : String} {members members' : Js.Set String}
    (h : roomWithout name members = some members') :
    members'.size ≤ members.size ∧ members'.size ≠ 0 := by
  unfold roomWithout at h
  split at h
  · cases h
  · next hsize =>
      rw [← Option.some.inj h]
      exact ⟨members.size_delete_le name, hsize⟩

theorem roomWithout_idem {name : String} {members : Js.Set String} :
    (roomWithout name members).bind (roomWithout name) = roomWithout name members := by
  have hdel : (members.delete name).delete name = members.delete name := by
    apply Js.Set.ext
    simp [Js.Set.delete, List.filter_filter]
  unfold roomWithout
  split
  · rfl
  · next h => rw [Option.bind_some, hdel, if_neg h]

theorem removeMember_get? (rooms : RoomTable ν) (roomId key : RoomKey ν) (name : String) :
    (removeMember rooms roomId name).get? key
      = if key = roomId then (rooms.get? key).bind (roomWithout name) else rooms.get? key := by
  unfold removeMember
  cases h : rooms.get? roomId with
  | none =>
      by_cases hk : key = roomId
      · simp [hk, h]
      · simp [hk]
  | some members =>
      by_cases hk : key = roomId
      · subst hk
        rw [if_pos rfl, h, Option.bind_some, roomWithout]
        by_cases hs : (members.delete name).size = 0 <;> simp [hs]
      · by_cases hs : (members.delete name).size = 0
        · simp [hs, hk, Map.get?_delete]
        · simp [hs, hk, Map.get?_set]

theorem foldl_removeMember_get? (keys : List (RoomKey ν)) (rooms : RoomTable ν) (name : String)
    (key : RoomKey ν) :
    (keys.foldl (fun rooms roomId => removeMember rooms roomId name) rooms).get? key
      = if key ∈ keys then (rooms.get? key).bind (roomWithout name) else rooms.get? key := by
  induction keys generalizing rooms with
  | nil => simp
  | cons k rest ih =>
      rw [List.foldl_cons, ih, removeMember_get?]
      by_cases hr : key ∈ rest
      · by_cases hk : key = k
        · rw [if_pos hr, if_pos hk, if_pos (by simp [hk])]
          cases rooms.get? key with
          | none => rfl
          | some members => exact roomWithout_idem
        · rw [if_pos hr, if_neg hk, if_pos (by simp [hr])]
      · by_cases hk : key = k
        · rw [if_neg hr, if_pos hk, if_pos (by simp [hk])]
        · rw [if_neg hr, if_neg hk, if_neg (by simp [hr, hk])]

/-- `detachFromRooms` takes the alias out of the rooms of the record, and nothing else. -/
theorem detachFromRooms_get? (rooms : RoomTable ν) (peer : PeerRecord ν) (key : RoomKey ν) :
    (detachFromRooms rooms peer).get? key
      = if peer.rooms.has key then (rooms.get? key).bind (roomWithout peer.name)
        else rooms.get? key := by
  unfold detachFromRooms
  rw [foldl_removeMember_get?]
  have hkey : key ∈ peer.rooms.keys ↔ peer.rooms.has key = true := by
    rw [Map.mem_keys_iff, Map.has_iff]
  by_cases h : peer.rooms.has key = true
  · rw [if_pos (hkey.mpr h), if_pos h]
  · rw [if_neg (fun hc => h (hkey.mp hc)), if_neg h]

/-- Every room of the table afterwards is a part of the room it was. -/
theorem detachFromRooms_sub {rooms : RoomTable ν} {peer : PeerRecord ν} {key : RoomKey ν}
    {members : Js.Set String} (h : (detachFromRooms rooms peer).get? key = some members) :
    ∃ before, rooms.get? key = some before ∧ members.elems ⊆ before.elems := by
  rw [detachFromRooms_get?] at h
  split at h
  · obtain ⟨before, hb, hw⟩ := Option.bind_eq_some_iff.mp h
    exact ⟨before, hb, fun x hx => ((mem_roomWithout hw x).mp hx).1⟩
  · exact ⟨members, h, fun _ hx => hx⟩

/-! ### Joining and leaving -/

/-- The alias is in the set of the room. -/
def InRoom (rooms : RoomTable ν) (name : String) (key : RoomKey ν) : Prop :=
  ∃ members, rooms.get? key = some members ∧ name ∈ members.elems

/-- No room is empty, none is over its bound. -/
def Bounded (rooms : RoomTable ν) : Prop :=
  ∀ key members, rooms.get? key = some members →
    members.size ≠ 0 ∧ members.size ≤ maxPeersPerRoom

/-- The record's rooms all list it. -/
def Linked (rooms : RoomTable ν) (peer : PeerRecord ν) : Prop :=
  ∀ key, peer.rooms.has key = true → InRoom rooms peer.name key

theorem inRoom_set {rooms : RoomTable ν} {key key' : RoomKey ν} {members : Js.Set String}
    {name : String} :
    InRoom (rooms.set key members) name key' ↔
      if key' = key then name ∈ members.elems else InRoom rooms name key' := by
  unfold InRoom
  simp only [Map.get?_set]
  by_cases h : key' = key
  · simp [h]
  · simp [h]

theorem bounded_removeMember {rooms : RoomTable ν} {key : RoomKey ν} {name : String}
    (hb : Bounded rooms) : Bounded (removeMember rooms key name) := by
  intro k members hk
  rw [removeMember_get?] at hk
  split at hk
  · obtain ⟨before, hbefore, hw⟩ := Option.bind_eq_some_iff.mp hk
    have hsize := roomWithout_size_le hw
    exact ⟨hsize.2, hsize.1.trans (hb k before hbefore).2⟩
  · exact hb k members hk

theorem inRoom_removeMember {rooms : RoomTable ν} {key k : RoomKey ν} {name x : String} :
    InRoom (removeMember rooms key name) x k ↔ InRoom rooms x k ∧ ¬ (x = name ∧ k = key) := by
  unfold InRoom
  rw [removeMember_get?]
  by_cases hk : k = key
  · subst hk
    simp only [if_true, and_true]
    constructor
    · rintro ⟨members, hm, hx⟩
      obtain ⟨before, hbefore, hw⟩ := Option.bind_eq_some_iff.mp hm
      obtain ⟨hin, hne⟩ := (mem_roomWithout hw x).mp hx
      exact ⟨⟨before, hbefore, hin⟩, hne⟩
    · rintro ⟨⟨before, hbefore, hin⟩, hne⟩
      rw [hbefore, Option.bind_some]
      cases hw : roomWithout name before with
      | none => exact absurd (roomWithout_eq_none hw hin) hne
      | some members => exact ⟨members, rfl, (mem_roomWithout hw x).mpr ⟨hin, hne⟩⟩
  · simp [hk]

theorem detachFromRooms_effect {rooms : RoomTable ν} (peer : PeerRecord ν) (hb : Bounded rooms) :
    Bounded (detachFromRooms rooms peer) ∧ ∀ name k,
      (InRoom (detachFromRooms rooms peer) name k ↔
        InRoom rooms name k ∧ ¬ (name = peer.name ∧ peer.rooms.has k = true)) := by
  have key : ∀ (keys : List (RoomKey ν)) (rooms : RoomTable ν), Bounded rooms →
      Bounded (keys.foldl (fun rooms roomId => removeMember rooms roomId peer.name) rooms) ∧
      ∀ name k, (InRoom (keys.foldl (fun rooms roomId => removeMember rooms roomId peer.name) rooms)
        name k ↔ InRoom rooms name k ∧ ¬ (name = peer.name ∧ k ∈ keys)) := by
    intro keys
    induction keys with
    | nil => intro rooms hb; exact ⟨hb, by simp⟩
    | cons roomId rest ih =>
        intro rooms hb
        obtain ⟨hb', hin⟩ := ih _ (bounded_removeMember hb)
        refine ⟨hb', fun name k => ?_⟩
        rw [List.foldl_cons, hin, inRoom_removeMember, List.mem_cons]
        tauto
  obtain ⟨hb', hin⟩ := key peer.rooms.keys rooms hb
  refine ⟨hb', fun name k => ?_⟩
  have hkey : k ∈ peer.rooms.keys ↔ peer.rooms.has k = true := by
    rw [Map.mem_keys_iff, Map.has_iff]
  rw [← hkey]
  exact hin name k

/-- What a call of `joinRoom` changes, whether it is refused (`o`) or not. -/
structure JoinEffect (cfg : MeshConfig) (rooms : RoomTable ν) (peer : PeerRecord ν)
    (key : RoomKey ν) (o : Option MeshErrorCode) (rooms' : RoomTable ν) (peer' : PeerRecord ν) :
    Prop where
  bounded : Bounded rooms'
  inRoom : ∀ name k, InRoom rooms' name k ↔
    InRoom rooms name k ∨ (name = peer.name ∧ k = key ∧ o = none)
  has : ∀ k, peer'.rooms.has k = true ↔ peer.rooms.has k = true ∨ (k = key ∧ o = none)
  size : peer.rooms.size ≤ cfg.maxRoomsPerPeer → peer'.rooms.size ≤ cfg.maxRoomsPerPeer
  grows : peer'.rooms.size ≤ peer.rooms.size + 1
  other : ∀ k, k ≠ key → rooms'.get? k = rooms.get? k
  same : peer' = { peer with rooms := peer'.rooms }

theorem has_set {κ α : Type} [DecidableEq κ] (m : Map κ α) (k k' : κ) (v : α) :
    (m.set k v).has k' = true ↔ m.has k' = true ∨ k' = k := by
  unfold Map.has
  rw [Map.get?_set]
  by_cases h : k' = k <;> simp [h]

theorem joinRoom_effect {cfg : MeshConfig} {rooms rooms' : RoomTable ν} {peer peer' : PeerRecord ν}
    {key : RoomKey ν} {role : MeshRole} {o : Option MeshErrorCode} (hb : Bounded rooms)
    (hl : Linked rooms peer) (h : joinRoom cfg rooms peer key role = .ok (o, rooms', peer')) :
    JoinEffect cfg rooms peer key o rooms' peer' := by
  have hrefused : ∀ code : MeshErrorCode, o = some code → rooms' = rooms → peer' = peer →
      JoinEffect cfg rooms peer key o rooms' peer' := by
    rintro code rfl rfl rfl
    exact ⟨hb, by simp, by simp, fun hs => hs, Nat.le_succ _, fun _ _ => rfl, rfl⟩
  unfold joinRoom at h
  split at h
  · cases h
  · simp only [Except.ok.injEq, Prod.mk.injEq] at h
    exact hrefused _ h.1.symm h.2.1.symm h.2.2.symm
  · split at h
    · next hhas =>
        -- a role update on re-join leaves the sets alone
        simp only [Except.ok.injEq, Prod.mk.injEq] at h
        obtain ⟨rfl, rfl, rfl⟩ := h
        refine ⟨hb, fun name k => ?_, fun k => by simp [has_set], fun hs => ?_, ?_, fun _ _ => rfl,
          rfl⟩
        · constructor
          · exact .inl
          · rintro (h | ⟨rfl, rfl, -⟩)
            · exact h
            · exact hl k hhas
        · rw [Map.size_set, if_pos hhas]
          exact hs
        · rw [Map.size_set, if_pos hhas]
          exact Nat.le_succ _
    · next hhas =>
        split at h
        · simp only [Except.ok.injEq, Prod.mk.injEq] at h
          exact hrefused _ h.1.symm h.2.1.symm h.2.2.symm
        · next hroom =>
            simp only at h
            split at h
            · next hfull =>
                -- a full room is there already, so writing its set back changes nothing
                simp only [Except.ok.injEq, Prod.mk.injEq] at h
                obtain ⟨rfl, rfl, rfl⟩ := h
                simp only [Bool.and_eq_true, Bool.not_eq_true', decide_eq_true_eq] at hfull
                obtain ⟨members, hm⟩ : ∃ members, rooms.get? key = some members := by
                  cases hm : rooms.get? key with
                  | some members => exact ⟨members, rfl⟩
                  | none =>
                      rw [hm] at hfull
                      exact absurd hfull.2 (by decide)
                rw [hm, Option.getD_some]
                refine ⟨fun k m hk => ?_, fun name k => ?_, by simp, fun hs => hs, Nat.le_succ _,
                  fun k hk => Map.get?_set_ne _ _ hk, rfl⟩
                · rw [Map.get?_set] at hk
                  split at hk
                  · obtain rfl := Option.some.inj hk
                    exact hb key members hm
                  · exact hb k m hk
                · rw [inRoom_set]
                  by_cases hk : k = key
                  · subst hk
                    simp [InRoom, hm]
                  · simp [hk]
            · next hfull =>
                simp only [Except.ok.injEq, Prod.mk.injEq] at h
                obtain ⟨rfl, rfl, rfl⟩ := h
                refine ⟨fun k m hk => ?_, fun name k => ?_, fun k => by simp [has_set], fun hs => ?_,
                  ?_, fun k hk => Map.get?_set_ne _ _ hk, rfl⟩
                · rw [Map.get?_set] at hk
                  split at hk
                  · obtain rfl := Option.some.inj hk
                    refine Js.Set.size_add_bounds (fun hn => ?_) fun hn => ?_
                    · cases hm : rooms.get? key with
                      | none => simp [hm, Js.Set.empty] at hn
                      | some members => exact (hb key members hm).2
                    · simp only [Bool.and_eq_true, Bool.not_eq_true', decide_eq_true_eq,
                        Js.Set.has, decide_eq_false_iff_not, not_and] at hfull
                      have := hfull hn
                      omega
                  · exact hb k m hk
                · rw [inRoom_set]
                  by_cases hk : k = key
                  · subst hk
                    rw [if_pos rfl, Js.Set.mem_add]
                    cases hm : rooms.get? k with
                    | none => simp [InRoom, hm, Js.Set.empty]
                    | some members => simp [InRoom, hm]
                  · simp [hk]
                · rw [Map.size_set, if_neg hhas]
                  omega
                · rw [Map.size_set, if_neg hhas]

/-- The alias can be in the room: it is there already, or there is a place left. -/
def HasPlace (rooms : RoomTable ν) (name : String) (key : RoomKey ν) : Prop :=
  ∀ members, rooms.get? key = some members →
    name ∈ members.elems ∨ members.size < maxPeersPerRoom

/-- A valid room with a place is joined. -/
theorem joinRoom_accepts {cfg : MeshConfig} {rooms : RoomTable ν} {peer : PeerRecord ν}
    {key : RoomKey ν} (role : MeshRole) (hvalid : isValidRoomKey key = .ok true)
    (hsize : peer.rooms.size < cfg.maxRoomsPerPeer) (hplace : HasPlace rooms peer.name key) :
    ∃ rooms' peer', joinRoom cfg rooms peer key role = .ok (none, rooms', peer') := by
  unfold joinRoom
  rw [hvalid]
  simp only
  split
  · exact ⟨_, _, rfl⟩
  · rw [if_neg (by omega)]
    split
    · next hfull =>
        simp only [Bool.and_eq_true, Bool.not_eq_true', decide_eq_true_eq, Js.Set.has,
          decide_eq_false_iff_not] at hfull
        cases hm : rooms.get? key with
        | none =>
            rw [hm] at hfull
            exact absurd hfull.2 (by decide)
        | some members =>
            rw [hm, Option.getD_some] at hfull
            rcases hplace members hm with hin | hlt
            · exact absurd hin hfull.1
            · omega
    · exact ⟨_, _, rfl⟩

theorem leaveRoom_effect {rooms rooms' : RoomTable ν} {peer peer' : PeerRecord ν} {key : RoomKey ν}
    (hb : Bounded rooms) (h : leaveRoom rooms peer key = (none, rooms', peer')) :
    Bounded rooms' ∧
      (∀ name k, InRoom rooms' name k ↔ InRoom rooms name k ∧ ¬ (name = peer.name ∧ k = key)) ∧
      peer' = { peer with rooms := peer.rooms.delete key } := by
  unfold leaveRoom at h
  split at h
  · simp at h
  · simp only [Prod.mk.injEq, true_and] at h
    obtain ⟨rfl, rfl⟩ := h
    exact ⟨bounded_removeMember hb, fun name k => inRoom_removeMember, rfl⟩

end PiMesh
