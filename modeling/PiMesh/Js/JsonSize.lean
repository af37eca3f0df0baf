/-
How many bytes a JSON text takes.

The text of an object is as long as its members together, each with its separator, and
one byte more; the same holds for an array and its items.
-/
import PiMesh.Js.Json

namespace Js

namespace Json

variable {ν : Type} [Number ν]

theorem byteLength_append (a b : List Char) : byteLength (a ++ b) = byteLength a + byteLength b := by
  simp [byteLength]

theorem byteLength_cons (c : Char) (a : List Char) :
    byteLength (c :: a) = c.utf8Size + byteLength a := by
  simp [byteLength]

/-- The bytes of a value's text. -/
def bytes (v : Json ν) : Nat := byteLength (stringify v)

/-- The bytes of a member: key, colon, value, and the comma or brace that follows. -/
def memberBytes (m : String × Json ν) : Nat := byteLength (quote m.1.toList) + bytes m.2 + 2

/-- The bytes of all members. -/
def membersBytes (ms : List (String × Json ν)) : Nat := (ms.map memberBytes).sum

/-- The bytes of all items, each with the comma or bracket that follows. -/
def itemsBytes (vs : List (Json ν)) : Nat := (vs.map fun v => bytes v + 1).sum

theorem byteLength_stringifyMembers (ms : List (String × Json ν)) :
    byteLength (stringifyMembers ms) = membersBytes ms + 1 := by
  induction ms with
  | nil => rfl
  | cons m rest ih =>
      have hcomma : Char.utf8Size ',' = 1 := rfl
      have hcolon : Char.utf8Size ':' = 1 := rfl
      rw [stringifyMembers]
      simp only [byteLength_cons, byteLength_append, ih, hcomma, hcolon, membersBytes, memberBytes,
        bytes, List.map_cons, List.sum_cons]
      omega

theorem byteLength_stringifyItems (vs : List (Json ν)) :
    byteLength (stringifyItems vs) = itemsBytes vs + 1 := by
  induction vs with
  | nil => rfl
  | cons v rest ih =>
      have hcomma : Char.utf8Size ',' = 1 := rfl
      rw [stringifyItems]
      simp only [byteLength_cons, byteLength_append, ih, hcomma, itemsBytes, bytes, List.map_cons,
        List.sum_cons]
      omega

theorem bytes_obj {ms : List (String × Json ν)} (h : ms ≠ []) :
    bytes (.obj ms) = membersBytes ms + 1 := by
  cases ms with
  | nil => exact absurd rfl h
  | cons m rest =>
      have hbrace : Char.utf8Size '\x7b' = 1 := rfl
      have hcolon : Char.utf8Size ':' = 1 := rfl
      rw [bytes, stringify]
      simp only [byteLength_cons, byteLength_append, byteLength_stringifyMembers, hbrace, hcolon,
        membersBytes, memberBytes, bytes, List.map_cons, List.sum_cons]
      omega

/-- An empty array is two bytes, as if it had one item of none. -/
theorem bytes_arr (vs : List (Json ν)) : bytes (.arr vs) = max 1 (itemsBytes vs) + 1 := by
  cases vs with
  | nil => rfl
  | cons v rest =>
      have hbracket : Char.utf8Size '[' = 1 := rfl
      rw [bytes, stringify]
      simp only [byteLength_cons, byteLength_append, byteLength_stringifyItems, hbracket, itemsBytes,
        bytes, List.map_cons, List.sum_cons]
      omega

end Json

end Js
