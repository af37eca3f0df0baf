/-
An identity is written and read back.

What the reader makes of the text is the same for the three files: every field comes back but
`projectRoom`, for which it has no case.  So an identity survives where there is none, and the
room a start derived is never dropped by the next one.
-/
import PiMesh.Shared.Identity
import PiMesh.Broker.Reference

namespace PiMesh

open Js

/-! ### What the result speaks of -/

/-- How long ago a reservation was made, where that is known. -/
def FileReservation.age (rt : Runtime) (now : Int) (r : FileReservation) : Option Int :=
  (r.since.bind rt.dateParse).map fun t => now - t

/-- It is older than `RESERVATION_TTL_MS`. -/
def FileReservation.isOld (rt : Runtime) (now : Int) (r : FileReservation) : Bool :=
  (r.age rt now).any fun age => reservationTtlMs < age

/-- What is read is what was saved, without old reservations. -/
structure Restored (rt : Runtime) (now : Int) (saved p : PersistedIdentity) : Prop where
  name : p.name = saved.name
  preferredAlias : p.preferredAlias = saved.preferredAlias
  rooms : p.rooms = saved.rooms
  projectRoom : p.projectRoom = saved.projectRoom
  reservations : p.reservations = saved.reservations.filter fun r => !r.isOld rt now

/-- The next start drops the room that was derived, and no other. -/
def DropsDerived (client : ClientIdentity) (p : PersistedIdentity) (rooms : List String) : Prop :=
  dropRecordedProjectRoom rooms p.projectRoom = dropRecordedProjectRoom rooms client.projectRoomName

/-- The reservations are read, and none is exactly as old as it may be; or all are too old. -/
def ReservationsSurvive (ν : Type) [Number ν] (rt : Runtime) (now : Int)
    (list : List FileReservation) : Prop :=
  if isValidReservations rt (.arr (list.map FileReservation.json) : Json ν) = true then
    ∀ r ∈ list, r.age rt now ≠ some reservationTtlMs
  else ∀ r ∈ list, r.isOld rt now = true

structure PersistedIdentity.Survives (ν : Type) [Number ν] (rt : Runtime) (now : Int)
    (id : PersistedIdentity) : Prop where
  named : id.name ≠ ""
  underived : id.projectRoom = none
  reservations : ReservationsSurvive ν rt now id.reservations

/-- The handoff is taken in time. -/
def InTime (rt : Runtime) (now : Int) (id : PersistedIdentity) : Prop :=
  ∃ t, rt.dateParse id.updatedAt = some t ∧ 0 ≤ now - t ∧ now - t ≤ pendingTtlMs

/-- It is bound to nobody, or to this child. -/
def IntendedFor (forParent parentFile : Option String) : Prop :=
  ∀ file, given forParent = some file → parentFile = some file

/-- `load` returns this for the file that `save` has written. -/
def LoadedAs (ν : Type) [Number ν] (rt : Runtime) (now : Int) (id : PersistedIdentity)
    (key : Option String) (loader : String) (r : Option PersistedIdentity) : Prop :=
  ∃ calls dir dir₁ calls₂ dir₂, MeshIdentity.save ν calls dir id key = (dir₁, true) ∧
    (∀ name, MeshIdentity.pathFor id.sessionId key = some name → dir₂.get? name = dir₁.get? name) ∧
    (given key = none → loader = id.sessionId) ∧ (∀ name, calls₂ (.read name) = true) ∧
    (MeshIdentity.load ν rt calls₂ now dir₂ loader key).2 = r

/-- `consumePending` returns this for the file that `savePending` has written. -/
def ConsumedAs (ν : Type) [Number ν] (rt : Runtime) (clock : Int) (id : PersistedIdentity)
    (forParent parentFile : Option String) (at? : Option Int) (r : Option PersistedIdentity) : Prop :=
  ∃ history calls dir dir₁ calls₂ dir₂,
    MeshIdentity.savePending ν calls dir id history forParent = (dir₁, true) ∧
    dir₂.get? identityPendingName = dir₁.get? identityPendingName ∧
    (∀ name, calls₂ (.read name) = true) ∧ (∀ name, calls₂ (.unlink name) = true) ∧
    (MeshIdentity.consumePending ν rt calls₂ clock dir₂ parentFile at?).2.map Prod.fst = r

variable {ν : Type} [Number ν] {rt : Runtime} {now : Int}

/-! ### Reservations -/

section Reservations

theorem ofJson_json (r : FileReservation) :
    FileReservation.ofJson (ν := ν) r.json = some r := by
  obtain ⟨pattern, reason, since⟩ := r
  cases reason with
  | none =>
      cases since with
      | none => rfl
      | some s => rfl
  | some s =>
      cases since with
      | none => rfl
      | some t => rfl

theorem wire_json (r : FileReservation) : Json.wire (ν := ν) r.json = r.json := by
  obtain ⟨pattern, reason, since⟩ := r
  cases reason with
  | none =>
      cases since with
      | none => rfl
      | some s => rfl
  | some s =>
      cases since with
      | none => rfl
      | some t => rfl

theorem wellFormed_json (r : FileReservation) : Json.WellFormed (ν := ν) r.json := by
  obtain ⟨pattern, reason, since⟩ := r
  cases reason with
  | none =>
      cases since with
      | none | some s => simp [FileReservation.json, Json.WellFormed, Json.WellFormedMembers]
  | some s =>
      cases since with
      | none | some t => simp [FileReservation.json, Json.WellFormed, Json.WellFormedMembers]

theorem filterMap_ofJson (list : List FileReservation) :
    (list.map (FileReservation.json (ν := ν))).filterMap FileReservation.ofJson = list := by
  induction list with
  | nil => rfl
  | cons r rest ih => rw [List.map_cons, List.filterMap_cons_some (ofJson_json r), ih]

/-- Two filters that keep the same keep the same of every item. -/
theorem filter_eq_iff {α : Type} {p q : α → Bool} {l : List α} :
    l.filter p = l.filter q ↔ ∀ x ∈ l, p x = q x := by
  constructor
  · intro h x hx
    have hiff : x ∈ l.filter p ↔ x ∈ l.filter q := by rw [h]
    rw [List.mem_filter, List.mem_filter] at hiff
    rw [Bool.eq_iff_iff]
    exact ⟨fun hp => (hiff.mp ⟨hx, hp⟩).2, fun hq => (hiff.mpr ⟨hx, hq⟩).2⟩
  · exact fun h => List.filter_congr h

/-- What is fresh is what is not old, but for the last millisecond. -/
theorem fresh_iff (list : List FileReservation) :
    freshReservations rt now list = (list.filter fun r => !r.isOld rt now) ↔
      ∀ r ∈ list, r.age rt now ≠ some reservationTtlMs := by
  unfold freshReservations
  rw [filter_eq_iff]
  refine forall₂_congr fun r _ => ?_
  unfold FileReservation.isOld FileReservation.age
  cases r.since.bind rt.dateParse with
  | none => simp
  | some t =>
      simp only [Option.map_some, Option.any_some, ne_eq, Option.some.injEq]
      rw [Bool.eq_iff_iff]
      simp only [decide_eq_true_eq, Bool.not_eq_true', decide_eq_false_iff_not]
      omega

theorem survive_iff (list : List FileReservation) :
    freshReservations rt now (storedReservations (ν := ν) rt
        (some (.arr (list.map FileReservation.json)))) = (list.filter fun r => !r.isOld rt now) ↔
      ReservationsSurvive ν rt now list := by
  unfold storedReservations ReservationsSurvive
  dsimp only
  by_cases hvalid : isValidReservations rt (.arr (list.map FileReservation.json) : Json ν) = true
  · rw [if_pos hvalid, if_pos hvalid, filterMap_ofJson]
    exact fresh_iff list
  · rw [if_neg hvalid, if_neg hvalid]
    show [] = _ ↔ _
    rw [eq_comm, List.filter_eq_nil_iff]
    simp

end Reservations

/-! ### The object and its text -/

section Text

variable (id : PersistedIdentity) (history : Option (List String)) (forParent : Option String)

theorem pendingMembers_none : pendingMembers (ν := ν) id none none = id.members := by
  simp [pendingMembers, given]

theorem wire_jsonStrs (l : List String) : Json.wire (ν := ν) (jsonStrs l) = jsonStrs l := by
  unfold jsonStrs
  rw [Json.wire, Json.wireItems_eq_map, List.map_map]
  rfl

theorem wellFormed_jsonStrs (l : List String) : Json.WellFormed (ν := ν) (jsonStrs l) := by
  unfold jsonStrs
  rw [Json.WellFormed, Json.wellFormedItems_iff]
  intro v hv
  obtain ⟨s, -, rfl⟩ := List.mem_map.mp hv
  trivial

theorem stringsOf_jsonStrs (l : List String) : stringsOf (ν := ν) (some (jsonStrs l)) = l := by
  unfold jsonStrs stringsOf
  dsimp only
  rw [List.filterMap_map]
  exact List.filterMap_some

theorem wire_reservations (list : List FileReservation) :
    Json.wire (ν := ν) (.arr (list.map FileReservation.json)) = .arr (list.map FileReservation.json) := by
  rw [Json.wire, Json.wireItems_eq_map, List.map_map]
  exact congrArg Json.arr (List.map_congr_left fun r _ => wire_json r)

theorem wellFormed_pendingMembers :
    Json.WellFormed (ν := ν) (.obj (pendingMembers id history forParent)) := by
  have hlist : ∀ (list : List FileReservation),
      Json.WellFormed (ν := ν) (.arr (list.map FileReservation.json)) := by
    intro list
    rw [Json.WellFormed, Json.wellFormedItems_iff]
    intro v hv
    obtain ⟨r, -, rfl⟩ := List.mem_map.mp hv
    exact wellFormed_json r
  have hstr : ∀ s : String, Json.WellFormed (ν := ν) (.str s) := fun _ => trivial
  have hnum : ∀ x : ν, Json.WellFormed (.num x) := fun _ => trivial
  rw [Json.WellFormed]
  unfold pendingMembers PersistedIdentity.members
  cases id.preferredAlias <;> cases id.projectRoom <;> cases history <;> cases given forParent <;>
    simp [Json.WellFormedMembers, wellFormed_jsonStrs, hlist, hstr, hnum]

/-- The members the reader asks for. -/
theorem lookups :
    let ms := pendingMembers (ν := ν) id history forParent
    lookupEntry "version" ms = some (.num (Number.ofInteger identityVersion)) ∧
    lookupEntry "sessionId" ms = some (.str id.sessionId) ∧
    lookupEntry "alias" ms = some (.str id.name) ∧
    lookupEntry "preferredAlias" ms = id.preferredAlias.map .str ∧
    lookupEntry "rooms" ms = some (jsonStrs id.rooms) ∧
    lookupEntry "reservations" ms = some (.arr (id.reservations.map FileReservation.json)) ∧
    lookupEntry "updatedAt" ms = some (.str id.updatedAt) ∧
    lookupEntry "handoffFor" ms = (given forParent).map .str := by
  unfold pendingMembers PersistedIdentity.members
  cases id.preferredAlias <;> cases id.projectRoom <;> cases history <;> cases given forParent <;>
    simp [lookupEntry]

theorem given_given (value : Option String) : given (given value) = given value := by
  unfold given
  rw [Option.filter_filter]
  simp

/-- What the reader makes of them: all but `projectRoom`. -/
def PersistedIdentity.reread (ν : Type) [Number ν] (rt : Runtime) (now : Int) (sessionId : String)
    (id : PersistedIdentity) : PersistedIdentity :=
  { sessionId
    name := id.name
    preferredAlias := given id.preferredAlias
    rooms := id.rooms
    reservations := freshReservations rt now (storedReservations (ν := ν) rt
      (some (.arr (id.reservations.map FileReservation.json))))
    updatedAt := id.updatedAt }

/-- The number `1` is read as what it is. -/
def Exact (ν : Type) [Number ν] : Prop :=
  Number.toInteger? (Number.ofInteger identityVersion : ν) = some identityVersion

theorem wire_version (hexact : Exact ν) :
    Json.wire (.num (Number.ofInteger identityVersion : ν)) = .num (Number.ofInteger identityVersion) := by
  have hfinite := Number.isFinite_of_integer _ _ hexact
  rw [Json.wire, if_pos hfinite]

theorem parse_identityText :
    Json.parse (ν := ν) (identityText (pendingMembers (ν := ν) id history forParent)) =
      some (.obj (Json.wireMembers (pendingMembers (ν := ν) id history forParent))) := by
  unfold identityText
  rw [Json.parse_indented _ (wellFormed_pendingMembers id history forParent), Json.wire]

theorem wire_map_str (value : Option String) :
    (value.map (Json.str (ν := ν))).map Json.wire = value.map .str := by
  cases value with
  | none => rfl
  | some s => rfl

theorem bind_map_str (value : Option String) : (value.map (Json.str (ν := ν))).bind asStr = value := by
  cases value with
  | none => rfl
  | some s => rfl

theorem parseIdentity_written (hexact : Exact ν) (sessionId : String) (ignoreSessionId : Bool)
    (hsession : ignoreSessionId = true ∨ sessionId = id.sessionId) :
    parseIdentity ν rt now (identityText (ν := ν) (pendingMembers id history forParent)) sessionId
        ignoreSessionId =
      if id.name = "" then none else some (id.reread ν rt now sessionId) := by
  obtain ⟨hversion, hid, hname, hpreferred, hrooms, hreservations, hupdated, -⟩ :=
    lookups (ν := ν) id history forParent
  unfold parseIdentity
  rw [parse_identityText]
  simp only [getOf, Json.lookupEntry_wireMembers, hversion, hid, hname, hpreferred, hrooms,
    hreservations, hupdated, Option.map_some, wire_version hexact, wire_map_str, wire_jsonStrs,
    wire_reservations, bind_map_str, stringsOf_jsonStrs]
  have hone : isInt (fun n => decide (n = identityVersion))
      (.num (Number.ofInteger identityVersion : ν)) = true := by
    unfold isInt
    dsimp only
    rw [show Number.toInteger? (Number.ofInteger identityVersion : ν) = some identityVersion from hexact]
    rfl
  have hmine : (!ignoreSessionId && !isStr (fun s => decide (s = sessionId))
      (Json.wire (.str id.sessionId : Json ν))) = false := by
    rcases hsession with rfl | rfl
    · rfl
    · simp [Json.wire, isStr]
  rw [Option.any_some, Option.any_some, hone, hmine]
  rfl

end Text

/-- What was read is what was saved just where the identity survives. -/
theorem restored_iff {id : PersistedIdentity} (hgiven : given id.preferredAlias = id.preferredAlias)
    (reader : String) :
    (id.name ≠ "" ∧ Restored rt now id (id.reread ν rt now reader)) ↔ id.Survives ν rt now := by
  constructor
  · rintro ⟨hname, hrestored⟩
    exact ⟨hname, hrestored.projectRoom.symm, (survive_iff id.reservations).mp hrestored.reservations⟩
  · intro hok
    exact ⟨hok.named, rfl, hgiven, rfl, hok.underived.symm, (survive_iff id.reservations).mpr hok.reservations⟩

/-- What the next start does with a room that was derived. -/
theorem dropsDerived_iff {client : ClientIdentity} {p : PersistedIdentity} (rooms : List String)
    (hp : p.projectRoom = none) :
    DropsDerived client p rooms ↔ ∀ room ∈ rooms, client.projectRoomName ≠ some room := by
  unfold DropsDerived dropRecordedProjectRoom
  rw [hp]
  dsimp only
  cases client.projectRoomName with
  | none => simp
  | some derived =>
      rw [eq_comm, List.filter_eq_self]
      refine forall₂_congr fun room _ => ?_
      simp only [ne_eq, decide_eq_true_eq, Option.some.injEq]
      exact ⟨fun h heq => h heq.symm, fun h heq => h heq.symm⟩

/-! ### The files -/

section Files

variable {calls : FileCalls} {dir dir₁ dir₂ : StateDir}

theorem get?_replaceFile {name : String} {text : List Char}
    (h : replaceFile calls dir name text = (dir₁, true)) : dir₁.get? name = some text := by
  unfold replaceFile renameFile at h
  dsimp only at h
  split at h
  · split at h
    · next dir₃ hmoved =>
      obtain ⟨rfl, -⟩ := Prod.mk.inj h
      split at hmoved
      · rw [Files.get?_rename hmoved, Map.get?_set_self]
      · cases hmoved
    · exact absurd (Prod.mk.inj h).2 (by simp)
  · exact absurd (Prod.mk.inj h).2 (by simp)

theorem get?_save {id : PersistedIdentity} {key : Option String}
    (h : MeshIdentity.save ν calls dir id key = (dir₁, true)) :
    ∃ name, MeshIdentity.pathFor id.sessionId key = some name ∧
      dir₁.get? name = some (identityText (ν := ν) (pendingMembers id none none)) := by
  unfold MeshIdentity.save at h
  split at h
  · exact absurd (Prod.mk.inj h).2 (by simp)
  · next name hname =>
    exact ⟨name, hname, by rw [pendingMembers_none]; exact get?_replaceFile h⟩

theorem readFile_eq (hread : ∀ name, calls (.read name) = true) (name : String) :
    readFile calls dir name = dir.get? name := by
  unfold readFile
  rw [if_pos (hread name)]

/-- A slot is the same file for every session. -/
theorem pathFor_slot {key : Option String} (hkey : given key ≠ none) (s s' : String) :
    MeshIdentity.pathFor s key = MeshIdentity.pathFor s' key := by
  unfold MeshIdentity.pathFor
  cases hgiven : given key with
  | none => exact absurd hgiven hkey
  | some k => rfl

theorem load_saved (hexact : Exact ν) {id : PersistedIdentity} {key : Option String} {loader : String}
    (hsaved : MeshIdentity.save ν calls dir id key = (dir₁, true)) {calls₂ : FileCalls}
    (hkept : ∀ name, MeshIdentity.pathFor id.sessionId key = some name → dir₂.get? name = dir₁.get? name)
    (hloader : given key = none → loader = id.sessionId)
    (hread : ∀ name, calls₂ (.read name) = true) :
    (MeshIdentity.load ν rt calls₂ now dir₂ loader key).2 =
      if (given key = none ∧ id.sessionId = "") ∨ id.name = "" then none
      else some (id.reread ν rt now loader) := by
  obtain ⟨name, hname, htext⟩ := get?_save hsaved
  have htext := (hkept name hname).trans htext
  unfold MeshIdentity.load
  cases hgiven : given key with
  | some k =>
      have hpath : MeshIdentity.pathFor loader key = some name := by
        rw [pathFor_slot (by rw [hgiven]; simp) loader id.sessionId, hname]
      dsimp only
      rw [hpath, Option.bind_some, readFile_eq hread, htext, Option.bind_some,
        parseIdentity_written id none none hexact loader true (.inl rfl)]
      simp
  | none =>
      obtain rfl := hloader hgiven
      dsimp only
      by_cases hempty : id.sessionId = ""
      · simp [hempty]
      · have hpath : MeshIdentity.pathFor id.sessionId none = some name := by
          rw [← hname]
          unfold MeshIdentity.pathFor
          rw [hgiven]
          rfl
        rw [if_neg hempty, hpath, Option.bind_some, readFile_eq hread, htext]
        dsimp only
        rw [parseIdentity_written id none none hexact id.sessionId false (.inr rfl)]
        simp [hempty]

theorem consume_staged (hexact : Exact ν) {id : PersistedIdentity} {history : Option (List String)}
    {forParent parentFile : Option String} {clock : Int} {at? : Option Int}
    (hsaved : MeshIdentity.savePending ν calls dir id history forParent = (dir₁, true))
    {calls₂ : FileCalls} (hkept : dir₂.get? identityPendingName = dir₁.get? identityPendingName)
    (hread : ∀ name, calls₂ (.read name) = true) (hunlink : ∀ name, calls₂ (.unlink name) = true)
    (p : PersistedIdentity) :
    (∃ h, (MeshIdentity.consumePending ν rt calls₂ clock dir₂ parentFile at?).2 = some (p, h)) ↔
      InTime rt (at?.getD clock) id ∧ IntendedFor forParent parentFile ∧ id.name ≠ "" ∧
        p = id.reread ν rt clock "" := by
  have htext := hkept.trans (get?_replaceFile hsaved)
  have hhas : dir₂.has identityPendingName = true := (Map.has_iff _ _).mpr ⟨_, htext⟩
  obtain ⟨-, -, -, -, -, -, hupdated, hhandoff⟩ := lookups (ν := ν) id history forParent
  have hunlinked : unlinkFile calls₂ dir₂ identityPendingName = some (dir₂.delete identityPendingName) := by
    unfold unlinkFile
    rw [hunlink, hhas]
    rfl
  have hstr : Json.wire (.str id.updatedAt : Json ν) = .str id.updatedAt := rfl
  unfold MeshIdentity.consumePending
  simp only [readFile_eq hread, htext, parse_identityText, getOf, Json.lookupEntry_wireMembers, hupdated,
    hhandoff, Option.map_some, hstr, wire_map_str, bind_map_str, given_given, hunlinked,
    parseIdentity_written id history forParent hexact "" true (.inl rfl)]
  have hintime : InTime rt (at?.getD clock) id ↔ ∃ t, ((rt.dateParse id.updatedAt).filter fun t =>
      decide (0 ≤ at?.getD clock - t) && decide (at?.getD clock - t ≤ pendingTtlMs)) = some t := by
    refine exists_congr fun t => ?_
    rw [Option.filter_eq_some_iff, Bool.and_eq_true, decide_eq_true_eq, decide_eq_true_eq]
  have hbound : IntendedFor forParent parentFile ↔
      ¬ ((given forParent).any fun file => decide (parentFile ≠ some file)) = true := by
    unfold IntendedFor
    cases given forParent with
    | none => simp
    | some file => simp
  rw [hintime, hbound]
  split
  · next hlate =>
    constructor
    · rintro ⟨h, heq⟩
      cases heq
    · rintro ⟨⟨t, ht⟩, -⟩
      rw [hlate] at ht
      cases ht
  · next t ht =>
    split
    · next hother =>
      constructor
      · rintro ⟨h, heq⟩
        cases heq
      · rintro ⟨-, hmine, -⟩
        exact absurd hother hmine
    · next hmine =>
      by_cases hname : id.name = ""
      · rw [if_pos hname]
        constructor
        · rintro ⟨h, heq⟩
          cases heq
        · rintro ⟨-, -, hne, -⟩
          exact absurd hname hne
      · rw [if_neg hname]
        constructor
        · rintro ⟨h, heq⟩
          obtain ⟨rfl, -⟩ := Prod.mk.inj (Option.some.inj heq)
          exact ⟨⟨t, ht⟩, hmine, hname, rfl⟩
        · rintro ⟨-, -, -, rfl⟩
          exact ⟨_, rfl⟩

end Files

/-! ### The claim -/

/-- **An identity is restored** where it has an alias, no derived room, and reservations the reader
accepts; and the next start drops the derived room just where there is none to drop. -/
theorem identity_restored (hexact : Exact ν) (rt : Runtime) (savedAt : Int) (sessionId : String)
    (client : ClientIdentity) (preferredAlias : Option String) :
    let id := identityFromClient rt savedAt sessionId client preferredAlias
    (∀ now key loader r, LoadedAs ν rt now id key loader r →
      ((∃ p, r = some p ∧ Restored rt now id p) ↔
        (given key = none → sessionId ≠ "") ∧ id.Survives ν rt now) ∧
      ∀ p, r = some p → ∀ rooms, DropsDerived client p rooms ↔
        ∀ room ∈ rooms, client.projectRoomName ≠ some room) ∧
    (∀ clock forParent parentFile at? r, ConsumedAs ν rt clock id forParent parentFile at? r →
      ((∃ p, r = some p ∧ Restored rt clock id p) ↔
        InTime rt (at?.getD clock) id ∧ IntendedFor forParent parentFile ∧ id.Survives ν rt clock) ∧
      ∀ p, r = some p → ∀ rooms, DropsDerived client p rooms ↔
        ∀ room ∈ rooms, client.projectRoomName ≠ some room) := by
  intro id
  have hgiven : given id.preferredAlias = id.preferredAlias := given_given preferredAlias
  constructor
  · rintro now key loader r ⟨calls, dir, dir₁, calls₂, dir₂, hsaved, hkept, hloader, hread, rfl⟩
    rw [load_saved hexact hsaved hkept hloader hread, ← restored_iff hgiven loader]
    by_cases hgone : (given key = none ∧ id.sessionId = "") ∨ id.name = ""
    · rw [if_pos hgone]
      refine ⟨⟨fun ⟨p, hp, _⟩ => (by cases hp), fun ⟨hsession, hname, _⟩ => ?_⟩, fun p hp => by cases hp⟩
      rcases hgone with ⟨hnone, hempty⟩ | hempty
      · exact absurd hempty (hsession hnone)
      · exact absurd hempty hname
    · rw [if_neg hgone]
      rw [not_or, not_and] at hgone
      refine ⟨⟨?_, fun ⟨_, _, hrestored⟩ => ⟨_, rfl, hrestored⟩⟩, fun p hp rooms => ?_⟩
      · rintro ⟨p, hp, hrestored⟩
        obtain rfl := Option.some.inj hp
        exact ⟨hgone.1, hgone.2, hrestored⟩
      · obtain rfl := Option.some.inj hp
        exact dropsDerived_iff rooms rfl
  · rintro clock forParent parentFile at? r
      ⟨history, calls, dir, dir₁, calls₂, dir₂, hsaved, hkept, hread, hunlink, rfl⟩
    have hconsumed : ∀ p, (MeshIdentity.consumePending ν rt calls₂ clock dir₂ parentFile at?).2.map
        Prod.fst = some p ↔ InTime rt (at?.getD clock) id ∧ IntendedFor forParent parentFile ∧
          id.name ≠ "" ∧ p = id.reread ν rt clock "" := by
      intro p
      rw [← consume_staged hexact hsaved hkept hread hunlink p, Option.map_eq_some_iff]
      constructor
      · rintro ⟨⟨p', h⟩, hp, rfl⟩
        exact ⟨h, hp⟩
      · rintro ⟨h, hp⟩
        exact ⟨_, hp, rfl⟩
    refine ⟨⟨?_, ?_⟩, fun p hp rooms => ?_⟩
    · rintro ⟨p, hp, hrestored⟩
      obtain ⟨hintime, hbound, hname, rfl⟩ := (hconsumed p).mp hp
      exact ⟨hintime, hbound, (restored_iff hgiven "").mp ⟨hname, hrestored⟩⟩
    · rintro ⟨hintime, hbound, hok⟩
      obtain ⟨hname, hrestored⟩ := (restored_iff hgiven "").mpr hok
      exact ⟨_, (hconsumed _).mpr ⟨hintime, hbound, hname, rfl⟩, hrestored⟩
    · obtain ⟨-, -, -, rfl⟩ := (hconsumed p).mp hp
      exact dropsDerived_iff rooms rfl

/-- A client with a reservation, in two rooms. -/
def aliceAtHome : ClientIdentity where
  name := "alice"
  rooms := ["default", "team"]
  reservations := [{ pattern := "src/**", since := some "2024-01-01T00:00:00.000Z" }]

/-- What is saved of her, at this time. -/
def aliceIdentity (client : ClientIdentity) : PersistedIdentity :=
  identityFromClient referenceRuntime 1704067200000 "s-1" client (some "al")

theorem loadedAs_alice (client : ClientIdentity) : LoadedAs Int referenceRuntime 1704067260000
    (aliceIdentity client) none "s-1" (MeshIdentity.load Int referenceRuntime (fun _ => true)
      1704067260000 (MeshIdentity.save Int (fun _ => true) Map.empty (aliceIdentity client) none).1
      "s-1" none).2 := by
  have hwrote : (MeshIdentity.save Int (fun _ => true) Map.empty (aliceIdentity client) none).2 = true :=
    rfl
  exact ⟨fun _ => true, Map.empty, _, fun _ => true, _, Prod.ext rfl hwrote, fun _ _ => rfl,
    fun _ => rfl, fun _ => rfl, rfl⟩

/-- After a minute she is as she was. -/
theorem alice_restored : ∃ r p, LoadedAs Int referenceRuntime 1704067260000 (aliceIdentity aliceAtHome)
    none "s-1" r ∧ r = some p ∧ Restored referenceRuntime 1704067260000 (aliceIdentity aliceAtHome) p := by
  have hloaded := loadedAs_alice aliceAtHome
  have hexact : Exact Int := rfl
  have hsurvives : (aliceIdentity aliceAtHome).Survives Int referenceRuntime 1704067260000 := by
    refine ⟨by decide, rfl, ?_⟩
    unfold ReservationsSurvive
    rw [if_pos (by decide +kernel)]
    decide +kernel
  obtain ⟨p, hp, hrestored⟩ := ((identity_restored hexact referenceRuntime 1704067200000 "s-1" aliceAtHome
    (some "al")).1 _ _ _ _ hloaded).1.mpr ⟨fun _ => by decide, hsurvives⟩
  exact ⟨_, p, hloaded, hp, hrestored⟩

/-- A client whose start derived a room. -/
def aliceInProject : ClientIdentity where
  name := "alice"
  rooms := ["default", "proj.shop.0a1b2c"]
  projectRoomName := some "proj.shop.0a1b2c"

/-- The reader forgets which room that was, and the next start keeps it. -/
theorem derived_room_forgotten : ∃ r p, LoadedAs Int referenceRuntime 1704067260000
    (aliceIdentity aliceInProject) none "s-1" r ∧ r = some p ∧
    (aliceIdentity aliceInProject).projectRoom = some "proj.shop.0a1b2c" ∧ p.projectRoom = none ∧
    ¬ Restored referenceRuntime 1704067260000 (aliceIdentity aliceInProject) p ∧
    ¬ DropsDerived aliceInProject p p.rooms := by
  have hloaded := loadedAs_alice aliceInProject
  have hexact : Exact Int := rfl
  obtain ⟨calls, dir, dir₁, calls₂, dir₂, hsaved, hkept, hloader, hread, hr⟩ := hloaded
  have hp : (MeshIdentity.load Int referenceRuntime calls₂ 1704067260000 dir₂ "s-1" none).2 = _ :=
    load_saved hexact hsaved hkept hloader hread
  rw [if_neg (by decide)] at hp
  refine ⟨_, _, loadedAs_alice aliceInProject, hr.symm.trans hp, rfl, rfl, fun hrestored => ?_, fun hdrops => ?_⟩
  · cases hrestored.projectRoom
  · unfold DropsDerived at hdrops
    exact absurd hdrops (by decide)

end PiMesh
