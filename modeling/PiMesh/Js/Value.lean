/-
JavaScript values, and what JSON keeps of one.

A value a program holds can say `undefined`, which no JSON text can.  `JSON.stringify` leaves
out a member that is undefined and writes `null` for an undefined item, and it writes `null`
for a number that is not finite; every other part of the value is read back as it was.

`HasKey` says that an object somewhere inside has a key.  The text of a value has no key that
the value itself has not, whatever was left out on the way.
-/
import PiMesh.Js.JsonRoundTrip

namespace Js

/-- A value made of objects, arrays and primitives. -/
inductive Value (ν : Type) where
  | undefined
  | null
  | bool (b : Bool)
  | num (x : ν)
  | str (s : String)
  | arr (items : List (Value ν))
  | obj (members : List (String × Value ν))

namespace Value

variable {ν : Type}

/-- A property of all values holds when it passes through arrays and objects. -/
@[elab_as_elim]
theorem induct {P : Value ν → Prop} (undefined : P undefined) (null : P null)
    (bool : ∀ b, P (bool b)) (num : ∀ x, P (num x)) (str : ∀ s, P (str s))
    (arr : ∀ items, (∀ v ∈ items, P v) → P (arr items))
    (obj : ∀ members, (∀ m ∈ members, P m.2) → P (obj members)) : ∀ v, P v := by
  intro v
  refine @Value.rec ν P (fun l => ∀ v ∈ l, P v) (fun l => ∀ m ∈ l, P m.2) (fun m => P m.2)
    undefined null bool num str (fun _ h => arr _ h) (fun _ h => obj _ h)
    (by simp) ?_ (by simp) ?_ (fun _ _ h => h) v
  · intro head tail hhead htail
    exact List.forall_mem_cons.mpr ⟨hhead, htail⟩
  · intro head tail hhead htail
    exact List.forall_mem_cons.mpr ⟨hhead, htail⟩

/-! ### To JSON and back -/

mutual

/-- The JSON value `JSON.stringify` writes: nothing for `undefined`. -/
def toJson : Value ν → Option (Json ν)
  | undefined => none
  | null => some .null
  | bool b => some (.bool b)
  | num x => some (.num x)
  | str s => some (.str s)
  | arr items => some (.arr (toItems items))
  | obj members => some (.obj (toMembers members))

def toItems : List (Value ν) → List (Json ν)
  | [] => []
  | v :: vs => (toJson v).getD .null :: toItems vs

def toMembers : List (String × Value ν) → List (String × Json ν)
  | [] => []
  | m :: ms =>
      match toJson m.2 with
      | none => toMembers ms
      | some j => (m.1, j) :: toMembers ms

end

mutual

/-- The value `JSON.parse` returns. -/
def ofJson : Json ν → Value ν
  | .null => null
  | .bool b => bool b
  | .num x => num x
  | .str s => str s
  | .arr items => arr (ofItems items)
  | .obj members => obj (ofMembers members)

def ofItems : List (Json ν) → List (Value ν)
  | [] => []
  | j :: js => ofJson j :: ofItems js

def ofMembers : List (String × Json ν) → List (String × Value ν)
  | [] => []
  | m :: ms => (m.1, ofJson m.2) :: ofMembers ms

end

mutual

/-- The value without the members that are undefined, at any depth. -/
def defined : Value ν → Value ν
  | arr items => arr (definedItems items)
  | obj members => obj (definedMembers members)
  | v => v

def definedItems : List (Value ν) → List (Value ν)
  | [] => []
  | v :: vs => defined v :: definedItems vs

def definedMembers : List (String × Value ν) → List (String × Value ν)
  | [] => []
  | (_, undefined) :: ms => definedMembers ms
  | (k, v) :: ms => (k, defined v) :: definedMembers ms

end

mutual

/-- How many arrays and objects lie in one another. -/
def nesting : Value ν → Nat
  | arr items => nestingItems items + 1
  | obj members => nestingMembers members + 1
  | _ => 0

def nestingItems : List (Value ν) → Nat
  | [] => 0
  | v :: vs => max (nesting v) (nestingItems vs)

def nestingMembers : List (String × Value ν) → Nat
  | [] => 0
  | m :: ms => max (nesting m.2) (nestingMembers ms)

end

mutual

/-- No object inside repeats a key. -/
def WellFormed : Value ν → Prop
  | arr items => WellFormedItems items
  | obj members => (members.map Prod.fst).Nodup ∧ WellFormedMembers members
  | _ => True

def WellFormedItems : List (Value ν) → Prop
  | [] => True
  | v :: vs => WellFormed v ∧ WellFormedItems vs

def WellFormedMembers : List (String × Value ν) → Prop
  | [] => True
  | m :: ms => WellFormed m.2 ∧ WellFormedMembers ms

end

mutual

/-- JSON has a text for everything inside that is not left out: no number is infinite or not a
number, and no item of an array is undefined. -/
def Writable [Number ν] : Value ν → Prop
  | num x => Number.isFinite x = true
  | arr items => WritableItems items
  | obj members => WritableMembers members
  | _ => True

def WritableItems [Number ν] : List (Value ν) → Prop
  | [] => True
  | v :: vs => v ≠ undefined ∧ Writable v ∧ WritableItems vs

def WritableMembers [Number ν] : List (String × Value ν) → Prop
  | [] => True
  | m :: ms => Writable m.2 ∧ WritableMembers ms

end

/-- Some object inside has the key. -/
inductive HasKey (k : String) : Value ν → Prop where
  | own {members : List (String × Value ν)} (h : k ∈ members.map Prod.fst) : HasKey k (obj members)
  | member {members : List (String × Value ν)} {m : String × Value ν} (hm : m ∈ members)
      (h : HasKey k m.2) : HasKey k (obj members)
  | item {items : List (Value ν)} {v : Value ν} (hv : v ∈ items) (h : HasKey k v) :
      HasKey k (arr items)

/-! ### Lists of parts -/

theorem toItems_eq (vs : List (Value ν)) :
    toItems vs = vs.map fun v => (toJson v).getD .null := by
  induction vs with
  | nil => rfl
  | cons v vs ih => rw [toItems, ih, List.map_cons]

theorem toMembers_eq (ms : List (String × Value ν)) :
    toMembers ms = ms.filterMap fun m => (toJson m.2).map fun j => (m.1, j) := by
  induction ms with
  | nil => rfl
  | cons m ms ih =>
      rw [toMembers, List.filterMap_cons]
      cases h : toJson m.2 with
      | none => exact ih
      | some j => exact congrArg ((m.1, j) :: ·) ih

theorem ofItems_eq (js : List (Json ν)) : ofItems js = js.map ofJson := by
  induction js with
  | nil => rfl
  | cons j js ih => rw [ofItems, ih, List.map_cons]

theorem ofMembers_eq (ms : List (String × Json ν)) :
    ofMembers ms = ms.map fun m => (m.1, ofJson m.2) := by
  induction ms with
  | nil => rfl
  | cons m ms ih => rw [ofMembers, ih, List.map_cons]

theorem wellFormedItems_iff (vs : List (Value ν)) :
    WellFormedItems vs ↔ ∀ v ∈ vs, WellFormed v := by
  induction vs with
  | nil => simp [WellFormedItems]
  | cons v vs ih => rw [WellFormedItems, ih, List.forall_mem_cons]

theorem wellFormedMembers_iff (ms : List (String × Value ν)) :
    WellFormedMembers ms ↔ ∀ m ∈ ms, WellFormed m.2 := by
  induction ms with
  | nil => simp [WellFormedMembers]
  | cons m ms ih => rw [WellFormedMembers, ih, List.forall_mem_cons]

theorem eq_undefined_of_toJson {v : Value ν} (h : toJson v = none) : v = undefined := by
  cases v with
  | undefined => rfl
  | _ => cases h

theorem mem_toMembers {ms : List (String × Value ν)} {n : String × Json ν}
    (h : n ∈ toMembers ms) : ∃ m ∈ ms, m.1 = n.1 ∧ toJson m.2 = some n.2 := by
  rw [toMembers_eq] at h
  obtain ⟨m, hm, hn⟩ := List.mem_filterMap.mp h
  obtain ⟨j, hj, rfl⟩ := Option.map_eq_some_iff.mp hn
  exact ⟨m, hm, rfl, hj⟩

/-- Leaving members out keeps their order. -/
theorem keys_toMembers (ms : List (String × Value ν)) :
    ((toMembers ms).map Prod.fst).Sublist (ms.map Prod.fst) := by
  induction ms with
  | nil => exact .slnil
  | cons m ms ih =>
      rw [toMembers]
      cases h : toJson m.2 with
      | none => exact .cons _ ih
      | some j => exact .cons_cons _ ih

/-! ### What the text keeps -/

theorem toJson_ofJson (j : Json ν) : toJson (ofJson j) = some j := by
  induction j using Json.induct with
  | null => rfl
  | bool b => rfl
  | num x => rfl
  | str s => rfl
  | arr items ih =>
      rw [ofJson, toJson, ofItems_eq, toItems_eq, List.map_map]
      refine congrArg (some ∘ Json.arr) ?_
      refine (List.map_congr_left ?_).trans (List.map_id items)
      intro j hj
      rw [Function.comp_apply, ih j hj]
      rfl
  | obj members ih =>
      rw [ofJson, toJson, ofMembers_eq, toMembers_eq, List.filterMap_map]
      refine congrArg (some ∘ Json.obj) ?_
      refine (List.filterMap_congr ?_).trans (List.filterMap_some)
      intro m hm
      rw [Function.comp_apply, ih m hm]
      rfl

theorem toMembers_ofMembers (ms : List (String × Json ν)) : toMembers (ofMembers ms) = ms :=
  Json.obj.inj (Option.some.inj (toJson_ofJson (.obj ms)))

theorem toJson_wellFormed {v : Value ν} (hwf : WellFormed v) :
    ∀ j, toJson v = some j → Json.WellFormed j := by
  induction v using induct with
  | undefined =>
      intro j h
      cases h
  | null =>
      intro j h
      cases h
      trivial
  | bool b =>
      intro j h
      cases h
      trivial
  | num x =>
      intro j h
      cases h
      trivial
  | str s =>
      intro j h
      cases h
      trivial
  | arr items ih =>
      intro j h
      cases h
      rw [WellFormed, wellFormedItems_iff] at hwf
      rw [Json.WellFormed, Json.wellFormedItems_iff, toItems_eq]
      intro j hj
      obtain ⟨v, hv, rfl⟩ := List.mem_map.mp hj
      cases hjson : toJson v with
      | none => trivial
      | some j => exact ih v hv (hwf v hv) j hjson
  | obj members ih =>
      intro j h
      cases h
      rw [WellFormed, wellFormedMembers_iff] at hwf
      rw [Json.WellFormed, Json.wellFormedMembers_iff]
      refine ⟨hwf.1.sublist (keys_toMembers members), ?_⟩
      intro n hn
      obtain ⟨m, hm, -, hjson⟩ := mem_toMembers hn
      exact ih m hm (hwf.2 m hm) n.2 hjson

/-- The text adds no key. -/
theorem hasKey_of_toJson {k : String} {v : Value ν} :
    ∀ j, toJson v = some j → HasKey k (ofJson j) → HasKey k v := by
  induction v using induct with
  | undefined =>
      intro j h
      cases h
  | null =>
      intro j h hkey
      cases h
      cases hkey
  | bool b =>
      intro j h hkey
      cases h
      cases hkey
  | num x =>
      intro j h hkey
      cases h
      cases hkey
  | str s =>
      intro j h hkey
      cases h
      cases hkey
  | arr items ih =>
      intro j h hkey
      cases h
      rw [ofJson, ofItems_eq, toItems_eq] at hkey
      cases hkey with
      | item hv hinner =>
          obtain ⟨j, hj, rfl⟩ := List.mem_map.mp hv
          obtain ⟨v, hitem, rfl⟩ := List.mem_map.mp hj
          cases hjson : toJson v with
          | none =>
              rw [hjson] at hinner
              cases hinner
          | some j =>
              rw [hjson] at hinner
              exact .item hitem (ih v hitem j hjson hinner)
  | obj members ih =>
      intro j h hkey
      cases h
      rw [ofJson, ofMembers_eq] at hkey
      cases hkey with
      | own hown =>
          rw [List.map_map] at hown
          exact .own ((keys_toMembers members).subset hown)
      | member hm hinner =>
          obtain ⟨n, hn, rfl⟩ := List.mem_map.mp hm
          obtain ⟨m, hm, -, hjson⟩ := mem_toMembers hn
          exact .member hm (ih m hm n.2 hjson hinner)

variable [Number ν]

/-- Nor does reading it back. -/
theorem hasKey_of_wire {k : String} {j : Json ν} (h : HasKey k (ofJson (Json.wire j))) :
    HasKey k (ofJson j) := by
  induction j using Json.induct with
  | null => exact h
  | bool b => exact h
  | str s => exact h
  | num x =>
      rw [Json.wire] at h
      split at h <;> cases h
  | arr items ih =>
      rw [Json.wire, Json.wireItems_eq_map, ofJson, ofItems_eq] at h
      rw [ofJson, ofItems_eq]
      cases h with
      | item hv hinner =>
          obtain ⟨w, hw, rfl⟩ := List.mem_map.mp hv
          obtain ⟨j, hj, rfl⟩ := List.mem_map.mp hw
          exact .item (List.mem_map_of_mem hj) (ih j hj hinner)
  | obj members ih =>
      rw [Json.wire, Json.wireMembers_eq_map, ofJson, ofMembers_eq] at h
      rw [ofJson, ofMembers_eq]
      cases h with
      | own hown =>
          rw [List.map_map, List.map_map] at hown
          refine .own ?_
          rw [List.map_map]
          exact hown
      | member hm hinner =>
          obtain ⟨w, hw, rfl⟩ := List.mem_map.mp hm
          obtain ⟨m, hmember, rfl⟩ := List.mem_map.mp hw
          exact .member (List.mem_map_of_mem hmember) (ih m hmember hinner)

/-- A value JSON has a text for is read back without its undefined members. -/
theorem ofJson_wire {v : Value ν} (hv : Writable v) :
    ∀ j, toJson v = some j → ofJson (Json.wire j) = defined v := by
  induction v using induct with
  | undefined =>
      intro j h
      cases h
  | null =>
      intro j h
      cases h
      rfl
  | bool b =>
      intro j h
      cases h
      rfl
  | str s =>
      intro j h
      cases h
      rfl
  | num x =>
      intro j h
      cases h
      rw [Writable] at hv
      rw [Json.wire, if_pos hv]
      rfl
  | arr items ih =>
      intro j h
      cases h
      rw [Json.wire, ofJson, defined]
      refine congrArg arr ?_
      induction items with
      | nil => rfl
      | cons v vs ihvs =>
          obtain ⟨hne, hhead, htail⟩ := hv
          have hrest := ihvs (fun w hw => ih w (List.mem_cons_of_mem _ hw)) htail
          rw [toItems, Json.wireItems, ofItems, definedItems, hrest]
          cases hjson : toJson v with
          | none => exact absurd (eq_undefined_of_toJson hjson) hne
          | some j =>
              rw [Option.getD_some, ih v (List.mem_cons_self ..) hhead j hjson]
  | obj members ih =>
      intro j h
      cases h
      rw [Json.wire, ofJson, defined]
      refine congrArg obj ?_
      induction members with
      | nil => rfl
      | cons m ms ihms =>
          have hrest := ihms (fun n hn => ih n (List.mem_cons_of_mem _ hn)) hv.2
          rw [toMembers]
          cases hjson : toJson m.2 with
          | none =>
              obtain ⟨k, v⟩ := m
              obtain rfl : v = undefined := eq_undefined_of_toJson hjson
              exact hrest
          | some j =>
              have hinner := ih m (List.mem_cons_self ..) hv.1 j hjson
              dsimp only
              rw [Json.wireMembers, ofMembers, hrest, hinner]
              obtain ⟨k, v⟩ := m
              cases v with
              | undefined => cases hjson
              | _ => rfl

end Value

end Js
