/-
JSON values and their text.

`Js.Json` is what `JSON.parse` returns and `JSON.stringify` takes.  Numbers stay
abstract: `Js.Number` lists what a program can observe of one, its text and its
integer value, with the two laws ECMAScript states of `Number::toString` (the text
of a finite number is a number literal, and that literal denotes the number).  The
two zeros are one value, since no JSON text tells them apart.  A string is the
sequence of its code points, so an escape that leaves a surrogate unpaired is
outside this model and is not parsed.  `JSON.parse` takes values of any depth; what
else an engine does with one ends in a `RangeError` where its stack is used up, and
`Limits` says where that is.

`parse` follows the grammar of the JSON standard on a list of characters, with
`Nat` fuel bounded by the length of the text; `JsonRoundTrip` shows the bound is
enough.  A repeated member name keeps the place of its first occurrence and the
value of its last, as in JavaScript.
-/
import Mathlib.Algebra.GroupWithZero.Nat
import PiMesh.Js.Map

namespace Js

/-! ### Characters and lengths -/

/-- `Buffer.byteLength(s, "utf8")`, on the characters of a text. -/
def byteLength (text : List Char) : Nat := (text.map Char.utf8Size).sum

/-- The number of UTF-16 code units a character takes. -/
def utf16Size (c : Char) : Nat := if c.toNat < 0x10000 then 1 else 2

/-- JavaScript's `s.length`: UTF-16 code units. -/
def strLength (s : String) : Nat := (s.toList.map utf16Size).sum

/-! ### Number literals -/

/-- The characters a JSON number literal is written with. -/
def isNumberChar (c : Char) : Bool :=
  c.isDigit || c == '+' || c == '-' || c == '.' || c == 'e' || c == 'E'

/-- Digits up to the end of the text, at least one. -/
def isDigits (l : List Char) : Bool := !l.isEmpty && l.all Char.isDigit

/-- An exponent after its `e`, sign optional. -/
def isExponent : List Char → Bool
  | '+' :: r => isDigits r
  | '-' :: r => isDigits r
  | r => isDigits r

/-- What may follow the integer part: nothing, a fraction, an exponent, or both. -/
def isFractionExponent (l : List Char) : Bool :=
  match l with
  | [] => true
  | '.' :: r =>
      let digits := r.takeWhile Char.isDigit
      match r.dropWhile Char.isDigit with
      | [] => !digits.isEmpty
      | c :: e => !digits.isEmpty && (c == 'e' || c == 'E') && isExponent e
  | c :: e => (c == 'e' || c == 'E') && isExponent e

/-- A literal after its optional minus sign. -/
def isUnsignedLiteral (l : List Char) : Bool :=
  match l with
  | '0' :: r => isFractionExponent r
  | c :: r => c.isDigit && isFractionExponent (r.dropWhile Char.isDigit)
  | [] => false

/-- The number grammar of JSON. -/
def isNumberLiteral (l : List Char) : Bool :=
  l.all isNumberChar &&
    (match l with
     | '-' :: r => isUnsignedLiteral r
     | _ => isUnsignedLiteral l)

/-- Where an engine gives up with a `RangeError`. -/
structure Limits where
  /-- How deep arrays may lie in one another for `String(value)`. -/
  stringNesting : Nat
  /-- How deep a value may be for `JSON.stringify`. -/
  stringifyNesting : Nat
  /-- How deep a value may be for a recursive function of the program. -/
  callNesting : Nat
  /-- How many arguments a call takes. -/
  arguments : Nat
  /-- A value of a few levels is no trouble. -/
  shallow : 8 ≤ stringifyNesting

/-- What a program can observe of a JavaScript number, and of the engine it comes from. -/
class Number (ν : Type) where
  /-- `Number.isFinite`. -/
  isFinite : ν → Bool
  /-- The integer a number is, when `Number.isInteger` holds of it. -/
  toInteger? : ν → Option Int
  /-- The number of an integer the program itself computes. -/
  ofInteger : Int → ν
  /-- The value of a number literal. -/
  ofLiteral : List Char → ν
  /-- `Number::toString` of a finite number. -/
  toText : ν → List Char
  /-- An integer is finite. -/
  isFinite_of_integer : ∀ x n, toInteger? x = some n → isFinite x = true
  /-- The text of a finite number is a number literal. -/
  toText_literal : ∀ x, isFinite x = true → isNumberLiteral (toText x) = true
  /-- That literal denotes the number. -/
  ofLiteral_toText : ∀ x, isFinite x = true → ofLiteral (toText x) = x
  limits : Limits

/-! ### Values -/

inductive Json (ν : Type) where
  | null
  | bool (b : Bool)
  | num (x : ν)
  | str (s : String)
  | arr (items : List (Json ν))
  | obj (members : List (String × Json ν))

namespace Json

variable {ν : Type}

instance : Inhabited (Json ν) := ⟨null⟩

mutual

/-- Equality of values, member order included. -/
def beq [DecidableEq ν] : Json ν → Json ν → Bool
  | null, null => true
  | bool a, bool b => a == b
  | num x, num y => decide (x = y)
  | str s, str t => s == t
  | arr xs, arr ys => beqItems xs ys
  | obj ms, obj ns => beqMembers ms ns
  | _, _ => false

def beqItems [DecidableEq ν] : List (Json ν) → List (Json ν) → Bool
  | [], [] => true
  | x :: xs, y :: ys => beq x y && beqItems xs ys
  | _, _ => false

def beqMembers [DecidableEq ν] : List (String × Json ν) → List (String × Json ν) → Bool
  | [], [] => true
  | m :: ms, n :: ns => m.1 == n.1 && beq m.2 n.2 && beqMembers ms ns
  | _, _ => false

end

/-- A property of all values holds when it passes through arrays and objects. -/
@[elab_as_elim]
theorem induct {P : Json ν → Prop} (null : P null) (bool : ∀ b, P (bool b))
    (num : ∀ x, P (num x)) (str : ∀ s, P (str s))
    (arr : ∀ items, (∀ v ∈ items, P v) → P (arr items))
    (obj : ∀ members, (∀ m ∈ members, P m.2) → P (obj members)) : ∀ v, P v := by
  intro v
  refine @Json.rec ν P (fun l => ∀ v ∈ l, P v) (fun l => ∀ m ∈ l, P m.2) (fun m => P m.2)
    null bool num str (fun _ h => arr _ h) (fun _ h => obj _ h)
    (by simp) ?_ (by simp) ?_ (fun _ _ h => h) v
  · intro head tail hh ht v hv
    rcases List.mem_cons.mp hv with rfl | hv
    · exact hh
    · exact ht v hv
  · intro head tail hh ht m hm
    rcases List.mem_cons.mp hm with rfl | hm
    · exact hh
    · exact ht m hm

def isNull : Json ν → Bool
  | null => true
  | _ => false

theorem beq_iff [DecidableEq ν] (v w : Json ν) : beq v w = true ↔ v = w := by
  induction v using induct generalizing w with
  | null => cases w <;> simp [beq]
  | bool b => cases w <;> simp [beq]
  | num x => cases w <;> simp [beq]
  | str s => cases w <;> simp [beq]
  | arr items ih =>
      cases w with
      | arr items' =>
          have key : ∀ l : List (Json ν), (∀ v ∈ l, ∀ w, beq v w = true ↔ v = w) →
              ∀ l', beqItems l l' = true ↔ l = l' := by
            intro l
            induction l with
            | nil => intro _ l'; cases l' <;> simp [beqItems]
            | cons x xs ihl =>
                intro h l'
                cases l' with
                | nil => simp [beqItems]
                | cons y ys =>
                    simp only [beqItems, Bool.and_eq_true, List.cons.injEq,
                      h x (by simp) y, ihl (fun v hv => h v (by simp [hv])) ys]
          simp [beq, key items ih items']
      | _ => simp [beq]
  | obj members ih =>
      cases w with
      | obj members' =>
          have key : ∀ l : List (String × Json ν),
              (∀ m ∈ l, ∀ w, beq m.2 w = true ↔ m.2 = w) →
              ∀ l', beqMembers l l' = true ↔ l = l' := by
            intro l
            induction l with
            | nil => intro _ l'; cases l' <;> simp [beqMembers]
            | cons m ms ihl =>
                intro h l'
                cases l' with
                | nil => simp [beqMembers]
                | cons n ns =>
                    simp only [beqMembers, Bool.and_eq_true, List.cons.injEq, beq_iff_eq,
                      h m (by simp) n.2, ihl (fun v hv => h v (by simp [hv])) ns, Prod.ext_iff]
          simp [beq, key members ih members']
      | _ => simp [beq]

instance [DecidableEq ν] : DecidableEq (Json ν) := fun v w =>
  decidable_of_iff (beq v w = true) (beq_iff v w)

mutual

/-- How many arrays and objects lie in one another. -/
def nesting : Json ν → Nat
  | arr items => nestingItems items + 1
  | obj members => nestingMembers members + 1
  | _ => 0

def nestingItems : List (Json ν) → Nat
  | [] => 0
  | v :: vs => max (nesting v) (nestingItems vs)

def nestingMembers : List (String × Json ν) → Nat
  | [] => 0
  | m :: ms => max (nesting m.2) (nestingMembers ms)

end

/-! ### Text -/

/-- A lower-case hexadecimal digit. -/
def hexDigit (n : Nat) : Char := if n < 10 then Char.ofNat (48 + n) else Char.ofNat (87 + n)

/-- One character inside a string literal, escaped where the standard asks for it. -/
def escapeChar (c : Char) : List Char :=
  if c = '"' then ['\\', '"']
  else if c = '\\' then ['\\', '\\']
  else if c.toNat = 8 then ['\\', 'b']
  else if c.toNat = 12 then ['\\', 'f']
  else if c.toNat = 10 then ['\\', 'n']
  else if c.toNat = 13 then ['\\', 'r']
  else if c.toNat = 9 then ['\\', 't']
  else if c.toNat < 32 then ['\\', 'u', '0', '0', hexDigit (c.toNat / 16), hexDigit (c.toNat % 16)]
  else [c]

/-- A string literal. -/
def quote (s : List Char) : List Char := '"' :: (s.flatMap escapeChar ++ ['"'])

variable [Number ν]

mutual

/-- `JSON.stringify`. -/
def stringify : Json ν → List Char
  | null => ['n', 'u', 'l', 'l']
  | bool true => ['t', 'r', 'u', 'e']
  | bool false => ['f', 'a', 'l', 's', 'e']
  | num x => if Number.isFinite x then Number.toText x else ['n', 'u', 'l', 'l']
  | str s => quote s.toList
  | arr [] => ['[', ']']
  | arr (v :: vs) => '[' :: (stringify v ++ stringifyItems vs)
  | obj [] => ['\x7b', '\x7d']
  | obj (m :: ms) => '\x7b' :: (quote m.1.toList ++ ':' :: (stringify m.2 ++ stringifyMembers ms))

/-- The items after the first, and the closing bracket. -/
def stringifyItems : List (Json ν) → List Char
  | [] => [']']
  | v :: vs => ',' :: (stringify v ++ stringifyItems vs)

/-- The members after the first, and the closing brace. -/
def stringifyMembers : List (String × Json ν) → List Char
  | [] => ['\x7d']
  | m :: ms => ',' :: (quote m.1.toList ++ ':' :: (stringify m.2 ++ stringifyMembers ms))

end

/-! ### Parsing -/

/-- The whitespace JSON allows between tokens. -/
def isJsonSpace (c : Char) : Bool := c == ' ' || c == '\t' || c == '\n' || c == '\r'

def skipSpace (text : List Char) : List Char := text.dropWhile isJsonSpace

def hexValue (c : Char) : Option Nat :=
  let n := c.toNat
  if 48 ≤ n ∧ n ≤ 57 then some (n - 48)
  else if 97 ≤ n ∧ n ≤ 102 then some (n - 87)
  else if 65 ≤ n ∧ n ≤ 70 then some (n - 55)
  else none

/-- The code unit of four hexadecimal digits. -/
def hex4 (a b c d : Char) : Option Nat := do
  let a ← hexValue a
  let b ← hexValue b
  let c ← hexValue c
  let d ← hexValue d
  return ((a * 16 + b) * 16 + c) * 16 + d

/-- The character of an escape sequence, after its backslash. -/
def parseEscape : List Char → Option (Char × List Char)
  | '"' :: r => some ('"', r)
  | '\\' :: r => some ('\\', r)
  | '/' :: r => some ('/', r)
  | 'b' :: r => some (Char.ofNat 8, r)
  | 'f' :: r => some (Char.ofNat 12, r)
  | 'n' :: r => some ('\n', r)
  | 'r' :: r => some ('\r', r)
  | 't' :: r => some ('\t', r)
  | 'u' :: a :: b :: c :: d :: r =>
      match hex4 a b c d with
      | none => none
      | some u =>
          if u < 0xD800 ∨ 0xDFFF < u then some (Char.ofNat u, r)
          else if u < 0xDC00 then
            -- a high surrogate counts only with the low one that follows it
            match r with
            | '\\' :: 'u' :: e :: f :: g :: h :: r' =>
                match hex4 e f g h with
                | some lo =>
                    if 0xDC00 ≤ lo ∧ lo ≤ 0xDFFF then
                      some (Char.ofNat (0x10000 + (u - 0xD800) * 0x400 + (lo - 0xDC00)), r')
                    else none
                | none => none
            | _ => none
          else none
  | _ => none

/-- The characters of a string literal after its opening quote, and what follows it. -/
def parseChars : Nat → List Char → Option (List Char × List Char)
  | 0, _ => none
  | _ + 1, [] => none
  | fuel + 1, c :: r =>
      if c = '"' then some ([], r)
      else if c = '\\' then
        match parseEscape r with
        | none => none
        | some (e, r') => (parseChars fuel r').map fun p => (e :: p.1, p.2)
      else if c.toNat < 32 then none
      else (parseChars fuel r).map fun p => (c :: p.1, p.2)

/-- A number literal and what follows it. -/
def parseNumber (text : List Char) : Option (ν × List Char) :=
  let run := text.takeWhile isNumberChar
  if isNumberLiteral run then some (Number.ofLiteral run, text.dropWhile isNumberChar) else none

mutual

/-- A value and the text that follows it. -/
def parseValue : Nat → List Char → Option (Json ν × List Char)
  | 0, _ => none
  | fuel + 1, text =>
      match skipSpace text with
      | 'n' :: 'u' :: 'l' :: 'l' :: r => some (null, r)
      | 't' :: 'r' :: 'u' :: 'e' :: r => some (bool true, r)
      | 'f' :: 'a' :: 'l' :: 's' :: 'e' :: r => some (bool false, r)
      | '"' :: r => (parseChars (r.length + 1) r).map fun p => (str (String.ofList p.1), p.2)
      | '[' :: r =>
          match skipSpace r with
          | ']' :: r' => some (arr [], r')
          | _ => (parseItems fuel r).map fun p => (arr p.1, p.2)
      | '\x7b' :: r =>
          match skipSpace r with
          | '\x7d' :: r' => some (obj [], r')
          | _ => (parseMembers fuel r).map fun p =>
              (obj (p.1.foldl (fun l m => setEntry m.1 m.2 l) []), p.2)
      | rest => (parseNumber rest).map fun p => (num p.1, p.2)

/-- Items separated by commas, up to the closing bracket. -/
def parseItems : Nat → List Char → Option (List (Json ν) × List Char)
  | 0, _ => none
  | fuel + 1, text =>
      match parseValue fuel text with
      | none => none
      | some (v, r) =>
          match skipSpace r with
          | ',' :: r' => (parseItems fuel r').map fun p => (v :: p.1, p.2)
          | ']' :: r' => some ([v], r')
          | _ => none

/-- Members separated by commas, up to the closing brace. -/
def parseMembers : Nat → List Char → Option (List (String × Json ν) × List Char)
  | 0, _ => none
  | fuel + 1, text =>
      match skipSpace text with
      | '"' :: r =>
          match parseChars (r.length + 1) r with
          | none => none
          | some (name, r) =>
              match skipSpace r with
              | ':' :: r =>
                  match parseValue fuel r with
                  | none => none
                  | some (v, r) =>
                      match skipSpace r with
                      | ',' :: r' => (parseMembers fuel r').map fun p =>
                          ((String.ofList name, v) :: p.1, p.2)
                      | '\x7d' :: r' => some ([(String.ofList name, v)], r')
                      | _ => none
              | _ => none
      | _ => none

end

/-- `JSON.parse`; `none` where it throws. -/
def parse (text : List Char) : Option (Json ν) :=
  match parseValue (2 * text.length + 1) text with
  | some (v, r) => if skipSpace r = [] then some v else none
  | none => none

/-! ### What a text carries over -/

mutual

/-- The value a text written by `stringify` reads back as: no JSON text denotes a
number that is not finite, and `null` stands in its place. -/
def wire : Json ν → Json ν
  | null => null
  | bool b => bool b
  | num x => if Number.isFinite x then num x else null
  | str s => str s
  | arr items => arr (wireItems items)
  | obj members => obj (wireMembers members)

def wireItems : List (Json ν) → List (Json ν)
  | [] => []
  | v :: vs => wire v :: wireItems vs

def wireMembers : List (String × Json ν) → List (String × Json ν)
  | [] => []
  | m :: ms => (m.1, wire m.2) :: wireMembers ms

end

mutual

/-- No object in the value repeats a member name, which is so of all `parse` makes. -/
def WellFormed : Json ν → Prop
  | arr items => WellFormedItems items
  | obj members => (members.map Prod.fst).Nodup ∧ WellFormedMembers members
  | _ => True

def WellFormedItems : List (Json ν) → Prop
  | [] => True
  | v :: vs => WellFormed v ∧ WellFormedItems vs

def WellFormedMembers : List (String × Json ν) → Prop
  | [] => True
  | m :: ms => WellFormed m.2 ∧ WellFormedMembers ms

end

end Json

end Js
