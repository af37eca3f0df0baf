/-
Text that is indented.

`JSON.stringify(v, null, 2)` breaks the line before every item and every member, two columns
further in than the value that holds it.  `parse` skips the line breaks wherever a value, a
name or a closing bracket may stand, so what is read back is the same as without them.
-/
import PiMesh.Js.JsonRoundTrip

namespace Js

namespace Json

variable {ν : Type} [Number ν]

/-! ### The text -/

/-- A line break, and the columns of the next line. -/
def lineBreak (indent : Nat) : List Char := '\n' :: List.replicate indent ' '

mutual

/-- `JSON.stringify(v, null, 2)`, from this column on. -/
def stringifyIndented (indent : Nat) : Json ν → List Char
  | arr (v :: vs) =>
      '[' :: (lineBreak (indent + 2) ++ (stringifyIndented (indent + 2) v ++ indentedItems indent vs))
  | obj (m :: ms) =>
      '\x7b' :: (lineBreak (indent + 2) ++ (quote m.1.toList ++
        ':' :: ' ' :: (stringifyIndented (indent + 2) m.2 ++ indentedMembers indent ms)))
  | arr [] => ['[', ']']
  | obj [] => ['\x7b', '\x7d']
  | null => stringify (null : Json ν)
  | bool b => stringify (bool b : Json ν)
  | num x => stringify (num x)
  | str s => stringify (str s : Json ν)

/-- The items after the first, and the closing bracket. -/
def indentedItems (indent : Nat) : List (Json ν) → List Char
  | [] => lineBreak indent ++ [']']
  | v :: vs =>
      ',' :: (lineBreak (indent + 2) ++ (stringifyIndented (indent + 2) v ++ indentedItems indent vs))

/-- The members after the first, and the closing brace. -/
def indentedMembers (indent : Nat) : List (String × Json ν) → List Char
  | [] => lineBreak indent ++ ['\x7d']
  | m :: ms =>
      ',' :: (lineBreak (indent + 2) ++ (quote m.1.toList ++
        ':' :: ' ' :: (stringifyIndented (indent + 2) m.2 ++ indentedMembers indent ms)))

end

/-! ### What the parsers skip -/

theorem skipSpace_lineBreak (indent : Nat) (r : List Char) :
    skipSpace (lineBreak indent ++ r) = skipSpace r := by
  have hblanks : skipSpace (List.replicate indent ' ' ++ r) = skipSpace r := by
    induction indent with
    | zero => rfl
    | succ n ih => simpa [skipSpace, List.replicate_succ, isJsonSpace] using ih
  show skipSpace ('\n' :: (List.replicate indent ' ' ++ r)) = skipSpace r
  rw [← hblanks]
  simp [skipSpace, isJsonSpace]

/-- A value is read from where its first character stands. -/
theorem parseValue_skips (fuel : Nat) {text text' : List Char} (h : skipSpace text = skipSpace text') :
    parseValue (ν := ν) fuel text = parseValue fuel text' := by
  cases fuel with
  | zero => rw [parseValue, parseValue]
  | succ k => rw [parseValue, parseValue, h]

theorem parseItems_skips (fuel : Nat) {text text' : List Char} (h : skipSpace text = skipSpace text') :
    parseItems (ν := ν) fuel text = parseItems fuel text' := by
  cases fuel with
  | zero => rw [parseItems, parseItems]
  | succ k => rw [parseItems, parseItems, parseValue_skips k h]

theorem parseMembers_skips (fuel : Nat) {text text' : List Char} (h : skipSpace text = skipSpace text') :
    parseMembers (ν := ν) fuel text = parseMembers fuel text' := by
  cases fuel with
  | zero => rw [parseMembers, parseMembers]
  | succ k => rw [parseMembers, parseMembers, h]

theorem ends_lineBreak (indent : Nat) (r : List Char) : Ends (lineBreak indent ++ r) :=
  ends_cons _ rfl

/-! ### Reading it back -/

/-- What the induction carries: `v` is read back whole, whatever ends it. -/
def ReadsBackIndented (v : Json ν) : Prop :=
  ∀ (indent : Nat) (r : List Char) (fuel : Nat), Ends r →
    2 * (stringifyIndented indent v).length ≤ fuel →
    parseValue fuel (stringifyIndented indent v ++ r) = some (wire v, r)

theorem stringifyIndented_head (indent : Nat) (v : Json ν) :
    ∃ c r, stringifyIndented indent v = c :: r ∧ isJsonSpace c = false ∧ c ≠ ']' := by
  cases v with
  | arr items =>
      cases items with
      | nil => exact ⟨'[', _, rfl, rfl, by decide⟩
      | cons v vs => exact ⟨'[', _, rfl, rfl, by decide⟩
  | obj members =>
      cases members with
      | nil => exact ⟨'\x7b', _, rfl, rfl, by decide⟩
      | cons m ms => exact ⟨'\x7b', _, rfl, rfl, by decide⟩
  | null => exact stringify_head null
  | bool b => exact stringify_head (bool b)
  | num x => exact stringify_head (num x)
  | str s => exact stringify_head (str s)

theorem stringifyIndented_length_pos (indent : Nat) (v : Json ν) :
    0 < (stringifyIndented indent v).length := by
  obtain ⟨c, r, h, -⟩ := stringifyIndented_head indent v
  rw [h]
  simp

theorem lineBreak_length (indent : Nat) : (lineBreak indent).length = indent + 1 := by
  simp [lineBreak]

theorem parseItems_indented (indent : Nat) (v : Json ν) (vs : List (Json ν))
    (h : ∀ w ∈ v :: vs, ReadsBackIndented w) (r : List Char) :
    ∀ fuel, 2 * (stringifyIndented (indent + 2) v ++ indentedItems indent vs).length ≤ fuel + 1 →
      parseItems fuel (stringifyIndented (indent + 2) v ++ (indentedItems indent vs ++ r))
        = some (wire v :: wireItems vs, r) := by
  induction vs generalizing v with
  | nil =>
      intro fuel hfuel
      have hpos := stringifyIndented_length_pos (indent + 2) v
      simp only [indentedItems, List.length_append, lineBreak_length, List.length_singleton] at hfuel
      obtain ⟨k, rfl⟩ : ∃ k, fuel = k + 1 := ⟨fuel - 1, by omega⟩
      have hv := h v (by simp) (indent + 2) (lineBreak indent ++ ']' :: r) k
        (ends_lineBreak _ _) (by omega)
      rw [parseItems]
      simp only [indentedItems, List.append_assoc, List.cons_append, List.nil_append]
      rw [hv]
      simp only [skipSpace_lineBreak]
      simp [skipSpace_cons, isJsonSpace, wireItems]
  | cons w ws ih =>
      intro fuel hfuel
      have hpos := stringifyIndented_length_pos (indent + 2) v
      simp only [indentedItems, List.length_append, List.length_cons, lineBreak_length] at hfuel
      obtain ⟨k, rfl⟩ : ∃ k, fuel = k + 1 := ⟨fuel - 1, by omega⟩
      have hv := h v (by simp) (indent + 2) (',' :: (lineBreak (indent + 2) ++
        (stringifyIndented (indent + 2) w ++ (indentedItems indent ws ++ r)))) k
        (ends_cons _ rfl) (by omega)
      have hws := ih w (fun u hu => h u (List.mem_cons_of_mem v hu)) k
        (by rw [List.length_append]; omega)
      have hbroken := parseItems_skips (ν := ν) k (skipSpace_lineBreak (indent + 2)
        (stringifyIndented (indent + 2) w ++ (indentedItems indent ws ++ r)))
      rw [parseItems]
      simp only [indentedItems, List.cons_append, List.append_assoc]
      rw [hv]
      simp only [skipSpace_cons _ (show isJsonSpace ',' = false from rfl)]
      rw [hbroken, hws]
      simp [wireItems]

theorem parseMembers_indented (indent : Nat) (m : String × Json ν) (ms : List (String × Json ν))
    (h : ∀ n ∈ m :: ms, ReadsBackIndented n.2) (r : List Char) :
    ∀ fuel, 2 * (quote m.1.toList ++ ':' :: ' ' :: (stringifyIndented (indent + 2) m.2 ++
        indentedMembers indent ms)).length ≤ fuel + 1 →
      parseMembers fuel (quote m.1.toList ++ ':' :: ' ' :: (stringifyIndented (indent + 2) m.2 ++
          (indentedMembers indent ms ++ r)))
        = some ((m.1, wire m.2) :: wireMembers ms, r) := by
  -- the blank behind the colon
  have hblank : ∀ (k : Nat) (tail : List Char),
      parseValue (ν := ν) k (' ' :: tail) = parseValue k tail := fun k tail =>
    parseValue_skips k (by simp [skipSpace, isJsonSpace])
  induction ms generalizing m with
  | nil =>
      intro fuel hfuel
      have hpos := stringifyIndented_length_pos (indent + 2) m.2
      simp only [indentedMembers, List.length_append, List.length_cons, List.length_nil,
        lineBreak_length] at hfuel
      obtain ⟨k, rfl⟩ : ∃ k, fuel = k + 1 := ⟨fuel - 1, by omega⟩
      have hv := h m (by simp) (indent + 2) (lineBreak indent ++ '\x7d' :: r) k
        (ends_lineBreak _ _) (by omega)
      rw [← hblank] at hv
      simp only [indentedMembers, List.append_assoc, List.cons_append, List.nil_append]
      rw [parseMembers_last hv ((skipSpace_lineBreak _ _).trans (skipSpace_cons _ rfl))]
      rfl
  | cons n ns ih =>
      intro fuel hfuel
      have hpos := stringifyIndented_length_pos (indent + 2) m.2
      simp only [indentedMembers, List.length_append, List.length_cons, lineBreak_length] at hfuel
      obtain ⟨k, rfl⟩ : ∃ k, fuel = k + 1 := ⟨fuel - 1, by omega⟩
      have hv := h m (by simp) (indent + 2) (',' :: (lineBreak (indent + 2) ++ (quote n.1.toList ++
        ':' :: ' ' :: (stringifyIndented (indent + 2) n.2 ++ (indentedMembers indent ns ++ r))))) k
        (ends_cons _ rfl) (by omega)
      rw [← hblank] at hv
      have hns := ih n (fun u hu => h u (List.mem_cons_of_mem m hu)) k
        (by simp only [List.length_append, List.length_cons]; omega)
      have hbroken := parseMembers_skips (ν := ν) k (skipSpace_lineBreak (indent + 2)
        (quote n.1.toList ++ ':' :: ' ' :: (stringifyIndented (indent + 2) n.2 ++
          (indentedMembers indent ns ++ r))))
      simp only [indentedMembers, List.cons_append, List.append_assoc]
      rw [parseMembers_more hv (skipSpace_cons _ rfl), hbroken, hns]
      rfl

/-- Every well-formed value is read back, in the middle of any text. -/
theorem readsBackIndented (v : Json ν) (hwf : WellFormed v) : ReadsBackIndented v := by
  induction v using induct with
  | null => exact fun _ r fuel hr hfuel => readsBack null hwf r fuel hr hfuel
  | bool b => exact fun _ r fuel hr hfuel => readsBack (bool b) hwf r fuel hr hfuel
  | num x => exact fun _ r fuel hr hfuel => readsBack (num x) hwf r fuel hr hfuel
  | str s => exact fun _ r fuel hr hfuel => readsBack (str s) hwf r fuel hr hfuel
  | arr items ih =>
      intro indent r fuel hr hfuel
      have hpos := stringifyIndented_length_pos indent (arr items)
      obtain ⟨k, rfl⟩ : ∃ k, fuel = k + 1 := ⟨fuel - 1, by omega⟩
      rw [WellFormed, wellFormedItems_iff] at hwf
      cases items with
      | nil => simp [stringifyIndented, parseValue, skipSpace_cons, isJsonSpace, wire, wireItems]
      | cons v vs =>
          rw [stringifyIndented, List.length_cons, List.length_append] at hfuel
          have hitems := parseItems_indented indent v vs (fun w hw => ih w hw (hwf w hw)) r k (by omega)
          obtain ⟨c, l, hcl, hsp, hbr⟩ := stringifyIndented_head (indent + 2) v
          have hbroken := skipSpace_lineBreak (indent + 2)
            (stringifyIndented (indent + 2) v ++ (indentedItems indent vs ++ r))
          have hskip : skipSpace (stringifyIndented (indent + 2) v ++ (indentedItems indent vs ++ r))
              = c :: (l ++ (indentedItems indent vs ++ r)) := by
            rw [hcl, List.cons_append, skipSpace_cons _ hsp]
          rw [stringifyIndented, List.cons_append, List.append_assoc, List.append_assoc, parseValue,
            skipSpace_cons _ rfl]
          simp only [hbroken, hskip]
          split
          · next heq =>
            obtain ⟨rfl, -⟩ := List.cons.inj heq
            exact absurd rfl hbr
          · rw [parseItems_skips k hbroken, hitems]
            simp [wire, wireItems]
  | obj members ih =>
      intro indent r fuel hr hfuel
      have hpos := stringifyIndented_length_pos indent (obj members)
      obtain ⟨k, rfl⟩ : ∃ k, fuel = k + 1 := ⟨fuel - 1, by omega⟩
      rw [WellFormed, wellFormedMembers_iff] at hwf
      obtain ⟨hnd, hmem⟩ := hwf
      cases members with
      | nil => simp [stringifyIndented, parseValue, skipSpace_cons, isJsonSpace, wire, wireMembers]
      | cons m ms =>
          rw [stringifyIndented, List.length_cons, List.length_append] at hfuel
          have hms := parseMembers_indented indent m ms (fun n hn => ih n hn (hmem n hn)) r k (by omega)
          have hfold : ((m.1, wire m.2) :: wireMembers ms).foldl
              (fun l m => setEntry m.1 m.2 l) [] = (m.1, wire m.2) :: wireMembers ms := by
            refine foldl_setEntry_of_nodup _ [] ?_
            rw [List.nil_append, List.map_cons, keys_wireMembers]
            simpa using hnd
          have hbroken := skipSpace_lineBreak (indent + 2) (quote m.1.toList ++
            ':' :: ' ' :: (stringifyIndented (indent + 2) m.2 ++ (indentedMembers indent ms ++ r)))
          have hskip : skipSpace (quote m.1.toList ++
                ':' :: ' ' :: (stringifyIndented (indent + 2) m.2 ++ (indentedMembers indent ms ++ r)))
              = quote m.1.toList ++
                ':' :: ' ' :: (stringifyIndented (indent + 2) m.2 ++ (indentedMembers indent ms ++ r)) := by
            rw [quote, List.cons_append, skipSpace_cons _ rfl]
          rw [stringifyIndented, List.cons_append, List.append_assoc, List.append_assoc,
            List.cons_append, List.cons_append, List.append_assoc, parseValue, skipSpace_cons _ rfl]
          simp only [hbroken, hskip]
          split
          · next heq => simp [quote] at heq
          · rw [parseMembers_skips k hbroken, hms]
            simp only [Option.map_some, hfold, wire, wireMembers]

/-- **`JSON.parse` undoes `JSON.stringify(v, null, 2)`**, with a line break after it. -/
theorem parse_indented (v : Json ν) (hwf : WellFormed v) :
    parse (stringifyIndented 0 v ++ ['\n']) = some (wire v) := by
  have h := readsBackIndented v hwf 0 ['\n'] (2 * (stringifyIndented 0 v ++ ['\n']).length + 1)
    (ends_cons _ rfl) (by rw [List.length_append]; omega)
  rw [parse, h]
  simp [skipSpace, isJsonSpace]

end Json

end Js
