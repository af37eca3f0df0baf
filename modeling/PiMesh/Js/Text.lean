/-
Strings and numbers as text.

The string methods of JavaScript that work character by character, and the one
concrete instance of `Js.Number` this library offers: the integers, written in
decimal.  On integer literals it agrees with every JavaScript engine; it exists so
that a statement about all number implementations can be tried on one.
-/
import PiMesh.Js.Json
import Mathlib.Data.List.DropRight

namespace Js

/-! ### String methods -/

/-- The characters `String.prototype.trim` removes: white space and line terminators. -/
def isTrimmed (c : Char) : Bool :=
  let n := c.toNat
  (9 ≤ n && n ≤ 13) || n == 32 || n == 0xA0 || n == 0x1680 || (0x2000 ≤ n && n ≤ 0x200A) ||
    n == 0x2028 || n == 0x2029 || n == 0x202F || n == 0x205F || n == 0x3000 || n == 0xFEFF

/-- `s.trim()`. -/
def trim (s : String) : String :=
  String.ofList ((s.toList.dropWhile isTrimmed).reverse.dropWhile isTrimmed).reverse

/-- What is left of a list with its ends dropped begins and ends with none of them. -/
theorem dropWhile_ends {α : Type} (p : α → Bool) (l : List α) :
    let m := ((l.dropWhile p).reverse.dropWhile p).reverse
    m.dropWhile p = m ∧ m.reverse.dropWhile p = m.reverse := by
  intro m
  have hback : m.reverse = (l.dropWhile p).reverse.dropWhile p := List.reverse_reverse _
  refine ⟨?_, ?_⟩
  · cases hm : m with
    | nil => rfl
    | cons c rest =>
        have hprefix : m <+: l.dropWhile p := by
          rw [← List.reverse_suffix, hback]
          exact List.dropWhile_suffix p
        obtain ⟨tail, htail⟩ := hprefix
        rw [hm, List.cons_append] at htail
        have hc : ¬ p c = true := by
          have hhead := List.head?_dropWhile_not p l
          rw [← htail] at hhead
          simpa using hhead
        rw [List.dropWhile_cons_of_neg hc]
  · rw [hback]
    exact List.dropWhile_idempotent _ _

@[simp] theorem trim_trim (s : String) : trim (trim s) = trim s := by
  have hends := dropWhile_ends isTrimmed s.toList
  unfold trim
  rw [String.toList_ofList, hends.1, hends.2, List.reverse_reverse]

/-- The pieces of `l` between occurrences of `sep`: `s.split(sep)`. -/
def splitChars (sep : Char) : List Char → List (List Char)
  | [] => [[]]
  | c :: rest =>
      if c = sep then [] :: splitChars sep rest
      else
        match splitChars sep rest with
        | [] => [[c]]
        | piece :: pieces => (c :: piece) :: pieces

/-- `s.includes(part)`. -/
def includesChars (part : List Char) : List Char → Bool
  | [] => part.isEmpty
  | c :: rest => part.isPrefixOf (c :: rest) || includesChars part rest

def includesString (s part : String) : Bool := includesChars part.toList s.toList

def startsWithString (s part : String) : Bool := part.toList.isPrefixOf s.toList

def endsWithString (s part : String) : Bool := part.toList.isSuffixOf s.toList

/-! ### Coercions

Where JavaScript needs a string or an iterable it converts, and may throw a
`TypeError`, or a `RangeError` where arrays are nested too deep; that is `none` here.
-/

section Coercion

variable {ν : Type} [Number ν]

mutual

/-- How many arrays lie in one another; `String` does not look into an object. -/
def arrayNesting : Json ν → Nat
  | .arr items => arrayNestingItems items + 1
  | _ => 0

def arrayNestingItems : List (Json ν) → Nat
  | [] => 0
  | v :: vs => max (arrayNesting v) (arrayNestingItems vs)

end

mutual

/-- `String(value)`.  An object answers with its own `toString` if it has one, and one
that comes from JSON is never a function. -/
def coerceString : Json ν → Option String
  | .null => some "null"
  | .bool true => some "true"
  | .bool false => some "false"
  | .num x => some (if Number.isFinite x then String.ofList (Number.toText x) else "Infinity")
  | .str s => some s
  | .arr items =>
      if arrayNestingItems items < (Number.limits ν).stringNesting then coerceItems items else none
  | .obj members => if (lookupEntry "toString" members).isSome then none else some "[object Object]"

/-- `items.join(",")`, where `null` counts as empty. -/
def coerceItems : List (Json ν) → Option String
  | [] => some ""
  | v :: vs => do
      let head ← if v.isNull then some "" else coerceString v
      let tail ← coerceItems vs
      return if vs.isEmpty then head else head ++ "," ++ tail

end

/-- The items `new Set(value)` takes up; `null` is an empty iterable to it. -/
def iterate : Json ν → Option (List (Json ν))
  | .null => some []
  | .str s => some (s.toList.map fun c => .str (String.singleton c))
  | .arr items => some items
  | _ => none

end Coercion

/-! ### The integers as numbers -/

/-- The decimal text of an integer. -/
def integerText : Int → List Char
  | .ofNat n => Nat.toDigits 10 n
  | .negSucc n => '-' :: Nat.toDigits 10 (n + 1)

/-- The integer of a literal without fraction or exponent. -/
def integerOfLiteral : List Char → Int
  | '-' :: r => -(Nat.ofDigitChars 10 r 0 : Int)
  | l => Nat.ofDigitChars 10 l 0

theorem toDigits_isDigit {n : Nat} : ∀ c ∈ Nat.toDigits 10 n, c.isDigit = true := fun _ hc =>
  Nat.isDigit_of_mem_toDigits (by decide) (by decide) hc

/-- No decimal text of a positive number starts with a zero. -/
theorem toDigits_head_ne_zero (n : Nat) (hn : 0 < n) :
    ∃ c r, Nat.toDigits 10 n = c :: r ∧ c ≠ '0' := by
  have hdigit : ∀ k, k < 10 → 0 < k → Nat.digitChar k ≠ '0' := by decide
  induction n using Nat.strongRecOn with
  | ind n ih =>
      rcases Nat.lt_or_ge n 10 with hlt | hge
      · exact ⟨n.digitChar, [], Nat.toDigits_of_lt_base hlt, hdigit n hlt hn⟩
      · obtain ⟨c, r, hcr, hc⟩ := ih (n / 10) (by omega) (by omega)
        refine ⟨c, r ++ [(n % 10).digitChar], ?_, hc⟩
        rw [Nat.toDigits_of_base_le (by decide) hge, hcr, List.cons_append]

theorem dropWhile_of_all {l : List Char} (h : ∀ c ∈ l, c.isDigit = true) :
    l.dropWhile Char.isDigit = [] := by
  induction l with
  | nil => rfl
  | cons c rest ih =>
      rw [List.dropWhile_cons_of_pos (h c (by simp))]
      exact ih fun d hd => h d (List.mem_cons_of_mem _ hd)

theorem isUnsignedLiteral_toDigits (n : Nat) : isUnsignedLiteral (Nat.toDigits 10 n) = true := by
  rcases Nat.eq_zero_or_pos n with rfl | hn
  · rw [Nat.toDigits_zero]
    rfl
  · obtain ⟨c, r, hcr, hc⟩ := toDigits_head_ne_zero n hn
    have hdig : ∀ d ∈ c :: r, d.isDigit = true := by
      rw [← hcr]
      exact toDigits_isDigit
    have hr : r.dropWhile Char.isDigit = [] :=
      dropWhile_of_all fun d hd => hdig d (List.mem_cons_of_mem _ hd)
    rw [hcr]
    unfold isUnsignedLiteral
    split
    · next heq => exact absurd (List.cons.inj heq).1 hc
    · next c' r' _ heq =>
        obtain ⟨rfl, rfl⟩ := List.cons.inj heq
        rw [hr, hdig c (by simp)]
        rfl
    · next heq => simp at heq

theorem all_isNumberChar_toDigits (n : Nat) : (Nat.toDigits 10 n).all isNumberChar = true := by
  rw [List.all_eq_true]
  intro c hc
  simp [isNumberChar, toDigits_isDigit c hc]

theorem toDigits_ne_minus {n : Nat} {r : List Char} : Nat.toDigits 10 n ≠ '-' :: r := by
  intro h
  have := toDigits_isDigit (n := n) '-' (by rw [h]; simp)
  exact absurd this (by decide)

theorem integerText_literal (n : Int) : isNumberLiteral (integerText n) = true := by
  cases n with
  | ofNat n =>
      show isNumberLiteral (Nat.toDigits 10 n) = true
      unfold isNumberLiteral
      rw [all_isNumberChar_toDigits, Bool.true_and]
      split
      · next heq => exact absurd heq toDigits_ne_minus
      · exact isUnsignedLiteral_toDigits n
  | negSucc n =>
      show isNumberLiteral ('-' :: Nat.toDigits 10 (n + 1)) = true
      unfold isNumberLiteral
      rw [List.all_cons, all_isNumberChar_toDigits]
      simp [isUnsignedLiteral_toDigits, isNumberChar]

theorem integerOfLiteral_text (n : Int) : integerOfLiteral (integerText n) = n := by
  cases n with
  | ofNat n =>
      show integerOfLiteral (Nat.toDigits 10 n) = n
      unfold integerOfLiteral
      split
      · next heq => exact absurd heq toDigits_ne_minus
      · rw [Nat.ofDigitChars_ten_toDigits]
  | negSucc n =>
      show -((Nat.ofDigitChars 10 (Nat.toDigits 10 (n + 1)) 0 : Nat) : Int) = Int.negSucc n
      rw [Nat.ofDigitChars_ten_toDigits]
      rfl

instance : Number Int where
  isFinite _ := true
  toInteger? n := some n
  ofInteger n := n
  ofLiteral := integerOfLiteral
  toText := integerText
  isFinite_of_integer _ _ _ := rfl
  toText_literal n _ := integerText_literal n
  ofLiteral_toText n _ := integerOfLiteral_text n
  limits := ⟨5000, 5000, 8000, 120000, by decide⟩

end Js
