/-
UTF-8, one byte at a time.

A character is a lead byte and the continuation bytes it announces.  The decoder is the one every
text API of the web and of Node.js uses: whatever does not fit becomes U+FFFD, and the byte that
did not fit is looked at again, as if it began a character.  At the end of its input an unfinished
character becomes U+FFFD too, which is what makes decoding piece by piece differ from decoding the
whole: `splits` says when, and every measure that counts U+FFFD more than half as much as any
other character sees the difference.
-/
import Mathlib.Algebra.GroupWithZero.Nat
import Mathlib.Data.List.Induction

namespace Utf8

/-- U+FFFD. -/
def replacement : Char := '\uFFFD'

/-! ### The decoder -/

/-- An unfinished character: where its next byte may lie, how many come after that one, and the
bits so far.  They suffice for a character that does not fit in fewer bytes. -/
structure Sequence where
  rest : Nat
  lower : Nat
  upper : Nat
  point : Nat
  lower_ge : 0x80 ≤ lower
  lower_le : lower ≤ upper
  upper_le : upper ≤ 0xBF
  long : 0x80 ≤ point * 64 ^ (rest + 1) + (lower - 0x80) * 64 ^ rest

/-- The byte may come next. -/
def Sequence.admits (s : Sequence) (byte : UInt8) : Bool :=
  s.lower ≤ byte.toNat && byte.toNat ≤ s.upper

theorem long_next {rest lower point : Nat} (hlower : 0x80 ≤ lower)
    (hlong : 0x80 ≤ point * 64 ^ (rest + 1 + 1) + (lower - 0x80) * 64 ^ (rest + 1)) {byte : Nat}
    (hbyte : lower ≤ byte) :
    0x80 ≤ (point * 64 + (byte - 0x80)) * 64 ^ (rest + 1) + (0x80 - 0x80) * 64 ^ rest := by
  have hbits : (lower - 0x80) * 64 ^ (rest + 1) ≤ (byte - 0x80) * 64 ^ (rest + 1) :=
    Nat.mul_le_mul_right _ (by omega)
  have hsum : (point * 64 + (byte - 0x80)) * 64 ^ (rest + 1)
      = point * 64 ^ (rest + 1 + 1) + (byte - 0x80) * 64 ^ (rest + 1) := by
    rw [Nat.add_mul, Nat.mul_assoc, ← Nat.pow_succ']
  omega

/-- A byte where a character begins. -/
def lead (byte : UInt8) : List Char × Option Sequence :=
  let b := byte.toNat
  if b < 0x80 then ([Char.ofNat b], none)
  else if h : 0xC2 ≤ b ∧ b ≤ 0xDF then
    ([], some ⟨0, 0x80, 0xBF, b - 0xC0, by decide, by decide, by decide, by omega⟩)
  else if h : 0xE0 ≤ b ∧ b ≤ 0xEF then
    ([], some ⟨1, if b = 0xE0 then 0xA0 else 0x80, if b = 0xED then 0x9F else 0xBF, b - 0xE0,
      by split <;> decide, by split <;> split <;> omega, by split <;> decide, by split <;> omega⟩)
  else if h : 0xF0 ≤ b ∧ b ≤ 0xF4 then
    ([], some ⟨2, if b = 0xF0 then 0x90 else 0x80, if b = 0xF4 then 0x8F else 0xBF, b - 0xF0,
      by split <;> decide, by split <;> split <;> omega, by split <;> decide, by split <;> omega⟩)
  else ([replacement], none)

/-- The next byte of an unfinished character. -/
def Sequence.next (s : Sequence) (byte : UInt8) (h : s.admits byte = true) :
    List Char × Option Sequence :=
  match s with
  | ⟨0, _, _, point, _, _, _, _⟩ => ([Char.ofNat (point * 64 + (byte.toNat - 0x80))], none)
  | ⟨rest + 1, lower, _, point, hlower, _, _, hlong⟩ =>
      ([], some ⟨rest, 0x80, 0xBF, point * 64 + (byte.toNat - 0x80), by decide, by decide, by decide,
        long_next hlower hlong (by simp [admits] at h; exact h.1)⟩)

/-- One byte: the characters that are complete then, and the one that is not. -/
def step (state : Option Sequence) (byte : UInt8) : List Char × Option Sequence :=
  match state with
  | none => lead byte
  | some s =>
      if h : s.admits byte = true then s.next byte h
      else (replacement :: (lead byte).1, (lead byte).2)

/-- The end of the input. -/
def finish : Option Sequence → List Char
  | none => []
  | some _ => [replacement]

/-- What is left unfinished. -/
def after (state : Option Sequence) : List UInt8 → Option Sequence
  | [] => state
  | byte :: bytes => after (step state byte).2 bytes

def read (state : Option Sequence) : List UInt8 → List Char
  | [] => finish state
  | byte :: bytes => (step state byte).1 ++ read (step state byte).2 bytes

/-- `buffer.toString("utf8")`. -/
def decode (bytes : List UInt8) : List Char := read none bytes

/-- Between the two a character is cut. -/
def splits (a b : List UInt8) : Bool :=
  (after none a).any fun s => b.head?.any fun byte => s.admits byte

/-! ### The encoder -/

def encodeChar (c : Char) : List UInt8 :=
  let n := c.toNat
  if n < 0x80 then [UInt8.ofNat n]
  else if n < 0x800 then [UInt8.ofNat (0xC0 + n / 64), UInt8.ofNat (0x80 + n % 64)]
  else if n < 0x10000 then
    [UInt8.ofNat (0xE0 + n / 4096), UInt8.ofNat (0x80 + n / 64 % 64), UInt8.ofNat (0x80 + n % 64)]
  else
    [UInt8.ofNat (0xF0 + n / 262144), UInt8.ofNat (0x80 + n / 4096 % 64),
      UInt8.ofNat (0x80 + n / 64 % 64), UInt8.ofNat (0x80 + n % 64)]

/-- `Buffer.from(text, "utf8")`. -/
def encode (text : List Char) : List UInt8 := text.flatMap encodeChar

/-! ### Reading in two parts -/

section Append

variable {state : Option Sequence} {s : Sequence} {a b : List UInt8} {byte : UInt8}

theorem after_append : after state (a ++ b) = after (after state a) b := by
  induction a generalizing state with
  | nil => rfl
  | cons byte a ih => exact ih

/-- Up to the end of the first part nothing depends on the second. -/
theorem read_append : ∃ text, read state a = text ++ finish (after state a) ∧
    read state (a ++ b) = text ++ read (after state a) b := by
  induction a generalizing state with
  | nil => exact ⟨[], rfl, rfl⟩
  | cons byte a ih =>
      obtain ⟨text, hend, hmore⟩ := @ih (step state byte).2
      refine ⟨(step state byte).1 ++ text, ?_, ?_⟩
      · show (step state byte).1 ++ read (step state byte).2 a = _
        rw [hend, List.append_assoc]
        rfl
      · show (step state byte).1 ++ read (step state byte).2 (a ++ b) = _
        rw [hmore, List.append_assoc]
        rfl

theorem step_admits (h : s.admits byte = true) : step (some s) byte = s.next byte h := dif_pos h

theorem step_not_admits (h : s.admits byte = false) :
    step (some s) byte = (replacement :: (lead byte).1, (lead byte).2) :=
  dif_neg (by simp [h])

/-- What comes next does not continue the character: it is as if the input had ended. -/
theorem read_not_admits (h : b.head?.any s.admits = false) :
    read (some s) b = replacement :: read none b := by
  cases b with
  | nil => rfl
  | cons byte b =>
      show (step (some s) byte).1 ++ read (step (some s) byte).2 b = _
      rw [step_not_admits h]
      rfl

/-- A text that is not cut in a character can be decoded in two parts. -/
theorem decode_append (h : splits a b = false) : decode (a ++ b) = decode a ++ decode b := by
  obtain ⟨text, hend, hmore⟩ := @read_append none a b
  unfold decode
  rw [hend, hmore]
  unfold splits at h
  cases hstate : after none a with
  | none => rw [finish, List.append_nil]
  | some s =>
      rw [hstate, Option.any_some] at h
      rw [read_not_admits h, finish, List.append_assoc]
      rfl

theorem splits_nil : splits [] b = false := rfl

theorem splits_end : splits a [] = false := by
  unfold splits
  cases after none a <;> rfl

/-- It depends on the first byte only. -/
theorem splits_append (h : b ≠ []) {c : List UInt8} : splits a (b ++ c) = splits a b := by
  cases b with
  | nil => exact absurd rfl h
  | cons byte b => rfl

theorem continuation_of_admits (h : s.admits byte = true) :
    0x80 ≤ byte.toNat ∧ byte.toNat ≤ 0xBF := by
  unfold Sequence.admits at h
  rw [Bool.and_eq_true, decide_eq_true_eq, decide_eq_true_eq] at h
  exact ⟨Nat.le_trans s.lower_ge h.1, Nat.le_trans h.2 s.upper_le⟩

/-- Where a character begins, a continuation byte is none. -/
theorem lead_continuation (h : 0x80 ≤ byte.toNat) (h' : byte.toNat ≤ 0xBF) :
    lead byte = ([replacement], none) := by
  unfold lead
  dsimp only
  rw [if_neg (by omega), dif_neg (by omega), dif_neg (by omega), dif_neg (by omega)]

end Append

/-! ### Measures -/

section Weight

variable {w : Char → Nat}

def weight (w : Char → Nat) (text : List Char) : Nat := (text.map w).sum

theorem weight_append (a b : List Char) : weight w (a ++ b) = weight w a + weight w b := by
  unfold weight
  rw [List.map_append, List.sum_append]

theorem weight_cons (c : Char) (text : List Char) : weight w (c :: text) = w c + weight w text := by
  unfold weight
  rw [List.map_cons, List.sum_cons]

variable {s : Sequence} {a b : List UInt8}

/-- An unfinished character weighs no more than its replacement, and less if it goes on. -/
theorem weight_read (hw : ∀ c, w c < 2 * w replacement) (s : Sequence) (b : List UInt8) :
    weight w (read (some s) b) ≤ w replacement + weight w (read none b) ∧
      (b.head?.any s.admits = true →
        weight w (read (some s) b) < w replacement + weight w (read none b)) := by
  induction b generalizing s with
  | nil =>
      refine ⟨Nat.le_of_eq (weight_cons _ _), fun h => ?_⟩
      cases h
  | cons byte b ih =>
      by_cases h : s.admits byte = true
      · -- the others read a replacement for each of its bytes
        have hpos := hw replacement
        have hother : weight w (read none (byte :: b)) = w replacement + weight w (read none b) := by
          show weight w ((lead byte).1 ++ read (lead byte).2 b) = _
          obtain ⟨hge, hle⟩ := continuation_of_admits h
          rw [lead_continuation hge hle, List.singleton_append, weight_cons]
        have hthis : weight w (read (some s) (byte :: b))
            < w replacement + (w replacement + weight w (read none b)) := by
          show weight w ((step (some s) byte).1 ++ read (step (some s) byte).2 b) < _
          rw [step_admits h]
          obtain ⟨rest, lower, upper, point, hlower, hle, hupper, hlong⟩ := s
          cases rest with
          | zero =>
              show weight w (Char.ofNat _ :: read none b) < _
              rw [weight_cons]
              have hchar := hw (Char.ofNat (point * 64 + (byte.toNat - 0x80)))
              omega
          | succ rest =>
              have hrest := (ih ⟨rest, 0x80, 0xBF, point * 64 + (byte.toNat - 0x80), by decide,
                by decide, by decide, long_next hlower hlong
                  (by unfold Sequence.admits at h; simp at h; exact h.1)⟩).1
              refine Nat.lt_of_le_of_lt hrest ?_
              omega
        rw [hother]
        exact ⟨Nat.le_of_lt hthis, fun _ => hthis⟩
      · have hnot : (byte :: b).head?.any s.admits = false := by
          rw [List.head?_cons, Option.any_some]
          simpa using h
        rw [read_not_admits hnot, weight_cons]
        refine ⟨Nat.le_refl _, fun hadmits => ?_⟩
        rw [hnot] at hadmits
        cases hadmits

theorem weight_decode_append (hw : ∀ c, w c < 2 * w replacement) :
    weight w (decode (a ++ b)) ≤ weight w (decode a) + weight w (decode b) ∧
      (splits a b = true →
        weight w (decode (a ++ b)) < weight w (decode a) + weight w (decode b)) := by
  obtain ⟨text, hend, hmore⟩ := @read_append none a b
  unfold decode splits
  rw [hend, hmore, weight_append, weight_append]
  cases after none a with
  | none =>
      have hnil : weight w (finish none) = 0 := rfl
      rw [hnil, Nat.add_zero]
      refine ⟨Nat.le_refl _, fun h => ?_⟩
      cases h
  | some s =>
      obtain ⟨hle, hlt⟩ := weight_read hw s b
      have hfinish : weight w (finish (some s)) = w replacement := weight_cons _ _
      rw [hfinish]
      refine ⟨by omega, fun h => ?_⟩
      have hlt := hlt h
      omega

end Weight

/-! ### ASCII -/

section Ascii

variable {state : Option Sequence} {byte : UInt8} {a b : List UInt8}

theorem lead_ascii (h : byte.toNat < 0x80) : lead byte = ([Char.ofNat byte.toNat], none) := if_pos h

/-- An ASCII byte is a character of its own, wherever it stands. -/
theorem step_ascii (h : byte.toNat < 0x80) :
    step state byte = (finish state ++ [Char.ofNat byte.toNat], none) := by
  cases state with
  | none => exact lead_ascii h
  | some s =>
      have hnot : s.admits byte = false := by
        by_contra hadmits
        have hge := (continuation_of_admits (by simpa using hadmits)).1
        omega
      rw [step_not_admits hnot, lead_ascii h]
      rfl

theorem decode_ascii (h : byte.toNat < 0x80) :
    decode (a ++ byte :: b) = decode a ++ Char.ofNat byte.toNat :: decode b := by
  obtain ⟨text, hend, hmore⟩ := @read_append none a (byte :: b)
  unfold decode
  rw [hend, hmore, List.append_assoc]
  refine congrArg (text ++ ·) ?_
  show (step (after none a) byte).1 ++ read (step (after none a) byte).2 b = _
  rw [step_ascii h, List.append_assoc]
  rfl

theorem after_ascii (h : byte.toNat < 0x80) : after state (a ++ byte :: b) = after none b := by
  rw [after_append]
  show after (step (after state a) byte).2 b = _
  rw [step_ascii h]

theorem splits_ascii (h : byte.toNat < 0x80) : splits a (byte :: b) = false := by
  unfold splits
  cases after none a with
  | none => rfl
  | some s =>
      rw [Option.any_some, List.head?_cons, Option.any_some]
      by_contra hadmits
      have hge := (continuation_of_admits (by simpa using hadmits)).1
      omega

/-- What comes before an ASCII byte does not matter after it. -/
theorem splits_after_ascii (h : byte.toNat < 0x80) {c : List UInt8} :
    splits (c ++ byte :: a) b = splits a b := by
  unfold splits
  rw [after_ascii h]

theorem toNat_ofNat {n : Nat} (h : n.isValidChar) : (Char.ofNat n).toNat = n := by
  unfold Char.ofNat
  rw [dif_pos h]
  rfl

theorem toNat_ofNat_ge {n : Nat} (h : 0x80 ≤ n) : (Char.ofNat n).toNat = 0 ∨
    0x80 ≤ (Char.ofNat n).toNat := by
  by_cases hvalid : n.isValidChar
  · right
    rwa [toNat_ofNat hvalid]
  · left
    unfold Char.ofNat
    rw [dif_neg hvalid]
    rfl

/-- An ASCII character comes from its own byte only. -/
theorem mem_read {c : Char} (hc : 0 < c.toNat) (hascii : c.toNat < 0x80)
    (h : c ∈ read state b) : ∃ byte ∈ b, byte.toNat = c.toNat := by
  have hother : ∀ {n : Nat}, 0x80 ≤ n → c ≠ Char.ofNat n := by
    intro n hn heq
    rcases toNat_ofNat_ge hn with hzero | hge
    · rw [heq, hzero] at hc
      exact absurd hc (Nat.lt_irrefl 0)
    · rw [heq] at hascii
      omega
  have hreplacement : c ≠ replacement := by
    intro heq
    rw [heq] at hascii
    exact absurd hascii (by decide)
  have hlead : ∀ {byte : UInt8}, c ∈ (lead byte).1 → byte.toNat = c.toNat := by
    intro byte hmem
    unfold lead at hmem
    dsimp only at hmem
    split at hmem
    · next hsmall =>
        rw [List.mem_singleton.mp hmem, toNat_ofNat (.inl (by omega))]
    · split at hmem
      · cases hmem
      · split at hmem
        · cases hmem
        · split at hmem
          · cases hmem
          · exact absurd (List.mem_singleton.mp hmem) hreplacement
  induction b generalizing state with
  | nil =>
      cases state with
      | none => cases h
      | some s => exact absurd (List.mem_singleton.mp h) hreplacement
  | cons byte b ih =>
      rcases List.mem_append.mp h with hnow | hlater
      · refine ⟨byte, List.mem_cons_self, ?_⟩
        cases state with
        | none => exact hlead hnow
        | some s =>
            by_cases hadmits : s.admits byte = true
            · rw [step_admits hadmits] at hnow
              obtain ⟨rest, lower, upper, point, hlower, hle, hupper, hlong⟩ := s
              cases rest with
              | zero =>
                  refine absurd (List.mem_singleton.mp hnow) (hother ?_)
                  have hge : lower ≤ byte.toNat := by
                    unfold Sequence.admits at hadmits
                    simp at hadmits
                    exact hadmits.1
                  omega
              | succ rest => cases hnow
            · rw [step_not_admits (by simpa using hadmits)] at hnow
              rcases List.mem_cons.mp hnow with heq | hnow
              · exact absurd heq hreplacement
              · exact hlead hnow
      · obtain ⟨x, hx, heq⟩ := ih hlater
        exact ⟨x, List.mem_cons_of_mem _ hx, heq⟩

theorem step_ne_nil : (step state byte).1 ≠ [] ∨ (step state byte).2 ≠ none := by
  have hlead : (lead byte).1 ≠ [] ∨ (lead byte).2 ≠ none := by
    unfold lead
    dsimp only
    split
    · exact .inl (List.cons_ne_nil _ _)
    · split
      · exact .inr (Option.some_ne_none _)
      · split
        · exact .inr (Option.some_ne_none _)
        · split
          · exact .inr (Option.some_ne_none _)
          · exact .inl (List.cons_ne_nil _ _)
  cases state with
  | none => exact hlead
  | some s =>
      by_cases hadmits : s.admits byte = true
      · rw [step_admits hadmits]
        obtain ⟨rest, lower, upper, point, hlower, hle, hupper, hlong⟩ := s
        cases rest with
        | zero => exact .inl (List.cons_ne_nil _ _)
        | succ rest => exact .inr (Option.some_ne_none _)
      · rw [step_not_admits (by simpa using hadmits)]
        exact .inl (List.cons_ne_nil _ _)

theorem read_ne_nil (h : b ≠ [] ∨ state ≠ none) : read state b ≠ [] := by
  induction b generalizing state with
  | nil =>
      cases state with
      | none => simp at h
      | some s => exact List.cons_ne_nil _ _
  | cons byte b ih =>
      intro hnil
      obtain ⟨hnow, hlater⟩ := List.append_eq_nil_iff.mp hnil
      rcases @step_ne_nil state byte with hchar | hopen
      · exact hchar hnow
      · exact ih (.inr hopen) hlater

/-- Only nothing is decoded to nothing. -/
theorem decode_eq_nil : decode b = [] ↔ b = [] := by
  refine ⟨fun h => ?_, fun h => by rw [h]; rfl⟩
  by_contra hne
  exact read_ne_nil (.inl hne) h

end Ascii

/-! ### The way back -/

section RoundTrip

variable {c : Char} {text : List Char} {a b : List UInt8}

theorem toNat_byte {n : Nat} (h : n < 256) : (UInt8.ofNat n).toNat = n :=
  UInt8.toNat_ofNat_of_lt' h

theorem toNat_lt (c : Char) : c.toNat < 0x110000 := by
  rcases c.valid with h | ⟨-, h⟩
  · exact Nat.lt_trans h (by decide)
  · exact h

/-- Surrogates are no characters. -/
theorem not_surrogate (c : Char) : c.toNat < 0xD800 ∨ 0xDFFF < c.toNat := by
  rcases c.valid with h | ⟨h, -⟩
  · exact .inl h
  · exact .inr h

variable {byte : UInt8} {bytes : List UInt8} {s : Sequence}

theorem admits_of (hge : s.lower ≤ byte.toNat) (hle : byte.toNat ≤ s.upper) :
    s.admits byte = true := by
  unfold Sequence.admits
  rw [decide_eq_true hge, decide_eq_true hle]
  rfl

/-- The last byte of a character. -/
theorem read_last (hrest : s.rest = 0) (h : s.admits byte = true) : read (some s) (byte :: bytes)
    = Char.ofNat (s.point * 64 + (byte.toNat - 0x80)) :: read none bytes := by
  show (step (some s) byte).1 ++ read (step (some s) byte).2 bytes = _
  rw [step_admits h]
  obtain ⟨rest, lower, upper, point, hlower, hle, hupper, hlong⟩ := s
  obtain rfl : rest = 0 := hrest
  rfl

/-- A byte that is not the last. -/
theorem read_more {rest : Nat} (hrest : s.rest = rest + 1) (h : s.admits byte = true) :
    ∃ s' : Sequence, s'.rest = rest ∧ s'.lower = 0x80 ∧ s'.upper = 0xBF ∧
      s'.point = s.point * 64 + (byte.toNat - 0x80) ∧
      read (some s) (byte :: bytes) = read (some s') bytes := by
  obtain ⟨r, lower, upper, point, hlower, hle, hupper, hlong⟩ := s
  obtain rfl : r = rest + 1 := hrest
  have hge : lower ≤ byte.toNat := by
    unfold Sequence.admits at h
    simp at h
    exact h.1
  refine ⟨⟨rest, 0x80, 0xBF, point * 64 + (byte.toNat - 0x80), by decide, by decide, by decide,
    long_next hlower hlong hge⟩, rfl, rfl, rfl, rfl, ?_⟩
  show (step (some _) byte).1 ++ read (step (some _) byte).2 bytes = _
  rw [step_admits h]
  rfl

theorem read_two (hge : 0xC2 ≤ byte.toNat) (hle : byte.toNat ≤ 0xDF) :
    ∃ s : Sequence, s.rest = 0 ∧ s.lower = 0x80 ∧ s.upper = 0xBF ∧ s.point = byte.toNat - 0xC0 ∧
      read none (byte :: bytes) = read (some s) bytes := by
  refine ⟨⟨0, 0x80, 0xBF, byte.toNat - 0xC0, by decide, by decide, by decide, by omega⟩,
    rfl, rfl, rfl, rfl, ?_⟩
  show (lead byte).1 ++ read (lead byte).2 bytes = _
  unfold lead
  dsimp only
  rw [if_neg (by omega), dif_pos ⟨hge, hle⟩]
  rfl

theorem read_three (hge : 0xE0 ≤ byte.toNat) (hle : byte.toNat ≤ 0xEF) :
    ∃ s : Sequence, s.rest = 1 ∧ s.lower = (if byte.toNat = 0xE0 then 0xA0 else 0x80) ∧
      s.upper = (if byte.toNat = 0xED then 0x9F else 0xBF) ∧ s.point = byte.toNat - 0xE0 ∧
      read none (byte :: bytes) = read (some s) bytes := by
  refine ⟨⟨1, if byte.toNat = 0xE0 then 0xA0 else 0x80, if byte.toNat = 0xED then 0x9F else 0xBF,
    byte.toNat - 0xE0, by split <;> decide, by split <;> split <;> omega, by split <;> decide,
    by split <;> omega⟩,
    rfl, rfl, rfl, rfl, ?_⟩
  show (lead byte).1 ++ read (lead byte).2 bytes = _
  unfold lead
  dsimp only
  rw [if_neg (by omega), dif_neg (by omega), dif_pos ⟨hge, hle⟩]
  rfl

theorem read_four (hge : 0xF0 ≤ byte.toNat) (hle : byte.toNat ≤ 0xF4) :
    ∃ s : Sequence, s.rest = 2 ∧ s.lower = (if byte.toNat = 0xF0 then 0x90 else 0x80) ∧
      s.upper = (if byte.toNat = 0xF4 then 0x8F else 0xBF) ∧ s.point = byte.toNat - 0xF0 ∧
      read none (byte :: bytes) = read (some s) bytes := by
  refine ⟨⟨2, if byte.toNat = 0xF0 then 0x90 else 0x80, if byte.toNat = 0xF4 then 0x8F else 0xBF,
    byte.toNat - 0xF0, by split <;> decide, by split <;> split <;> omega, by split <;> decide,
    by split <;> omega⟩,
    rfl, rfl, rfl, rfl, ?_⟩
  show (lead byte).1 ++ read (lead byte).2 bytes = _
  unfold lead
  dsimp only
  rw [if_neg (by omega), dif_neg (by omega), dif_neg (by omega), dif_pos ⟨hge, hle⟩]
  rfl

section Bytes

variable {n : Nat} {rest : List UInt8}

theorem toNat_tail (n : Nat) : (UInt8.ofNat (0x80 + n % 64)).toNat = 0x80 + n % 64 :=
  toNat_byte (by omega)

theorem read_two_bytes (h : 0x80 ≤ n) (h' : n < 0x800) :
    read none (UInt8.ofNat (0xC0 + n / 64) :: UInt8.ofNat (0x80 + n % 64) :: rest)
      = Char.ofNat n :: read none rest := by
  have htail := toNat_tail n
  have hfirst : (UInt8.ofNat (0xC0 + n / 64)).toNat = 0xC0 + n / 64 := toNat_byte (by omega)
  obtain ⟨s, hrest, hlower, hupper, hpoint, hread⟩ := @read_two (UInt8.ofNat (0xC0 + n / 64))
    (UInt8.ofNat (0x80 + n % 64) :: rest) (by omega) (by omega)
  rw [hread, read_last hrest (admits_of (by omega) (by omega)), htail, hpoint, hfirst]
  have hpointed : (0xC0 + n / 64 - 0xC0) * 64 + (0x80 + n % 64 - 0x80) = n := by omega
  rw [hpointed]

theorem read_three_bytes (h : 0x800 ≤ n) (h' : n < 0x10000) (hs : n < 0xD800 ∨ 0xDFFF < n) :
    read none (UInt8.ofNat (0xE0 + n / 4096) :: UInt8.ofNat (0x80 + n / 64 % 64) ::
      UInt8.ofNat (0x80 + n % 64) :: rest) = Char.ofNat n :: read none rest := by
  have htail := toNat_tail n
  have hsecond := toNat_tail (n / 64)
  have hfirst : (UInt8.ofNat (0xE0 + n / 4096)).toNat = 0xE0 + n / 4096 := toNat_byte (by omega)
  obtain ⟨s, hrest, hlower, hupper, hpoint, hread⟩ := @read_three (UInt8.ofNat (0xE0 + n / 4096))
    (UInt8.ofNat (0x80 + n / 64 % 64) :: UInt8.ofNat (0x80 + n % 64) :: rest) (by omega) (by omega)
  rw [hfirst] at hlower hupper hpoint
  -- neither a shorter character nor a surrogate
  have hadmits : s.admits (UInt8.ofNat (0x80 + n / 64 % 64)) = true :=
    admits_of (by rw [hlower]; split <;> omega) (by rw [hupper]; split <;> omega)
  obtain ⟨s', hrest', hlower', hupper', hpoint', hread'⟩ := @read_more _
    (UInt8.ofNat (0x80 + n % 64) :: rest) s 0 hrest hadmits
  rw [hread, hread', read_last hrest' (admits_of (by omega) (by omega)), htail, hpoint', hsecond,
    hpoint]
  have hpointed : ((0xE0 + n / 4096 - 0xE0) * 64 + (0x80 + n / 64 % 64 - 0x80)) * 64
      + (0x80 + n % 64 - 0x80) = n := by omega
  rw [hpointed]

theorem read_four_bytes (h : 0x10000 ≤ n) (h' : n < 0x110000) :
    read none (UInt8.ofNat (0xF0 + n / 262144) :: UInt8.ofNat (0x80 + n / 4096 % 64) ::
      UInt8.ofNat (0x80 + n / 64 % 64) :: UInt8.ofNat (0x80 + n % 64) :: rest)
      = Char.ofNat n :: read none rest := by
  have htail := toNat_tail n
  have hthird := toNat_tail (n / 64)
  have hsecond := toNat_tail (n / 4096)
  have hfirst : (UInt8.ofNat (0xF0 + n / 262144)).toNat = 0xF0 + n / 262144 :=
    toNat_byte (by omega)
  obtain ⟨s, hrest, hlower, hupper, hpoint, hread⟩ := @read_four (UInt8.ofNat (0xF0 + n / 262144))
    (UInt8.ofNat (0x80 + n / 4096 % 64) :: UInt8.ofNat (0x80 + n / 64 % 64) ::
      UInt8.ofNat (0x80 + n % 64) :: rest) (by omega) (by omega)
  rw [hfirst] at hlower hupper hpoint
  -- neither a shorter character nor one past the last
  have hadmits : s.admits (UInt8.ofNat (0x80 + n / 4096 % 64)) = true :=
    admits_of (by rw [hlower]; split <;> omega) (by rw [hupper]; split <;> omega)
  obtain ⟨s', hrest', hlower', hupper', hpoint', hread'⟩ := @read_more _
    (UInt8.ofNat (0x80 + n / 64 % 64) :: UInt8.ofNat (0x80 + n % 64) :: rest) s 1 hrest hadmits
  have hadmits' : s'.admits (UInt8.ofNat (0x80 + n / 64 % 64)) = true :=
    admits_of (by omega) (by omega)
  obtain ⟨t, hrest₂, hlower₂, hupper₂, hpoint₂, hread₂⟩ := @read_more _
    (UInt8.ofNat (0x80 + n % 64) :: rest) s' 0 hrest' hadmits'
  rw [hread, hread', hread₂, read_last hrest₂ (admits_of (by omega) (by omega)), htail, hpoint₂,
    hthird, hpoint', hsecond, hpoint]
  have hpointed : (((0xF0 + n / 262144 - 0xF0) * 64 + (0x80 + n / 4096 % 64 - 0x80)) * 64
      + (0x80 + n / 64 % 64 - 0x80)) * 64 + (0x80 + n % 64 - 0x80) = n := by omega
  rw [hpointed]

end Bytes

/-- What is encoded is decoded, whatever follows. -/
theorem read_encodeChar (c : Char) (rest : List UInt8) :
    read none (encodeChar c ++ rest) = c :: read none rest := by
  have hlt := toNat_lt c
  have hsurrogate := not_surrogate c
  have hback := Char.ofNat_toNat c
  unfold encodeChar
  dsimp only
  generalize hn : c.toNat = n at hlt hsurrogate hback
  by_cases h₁ : n < 0x80
  · rw [if_pos h₁]
    have hbyte : (UInt8.ofNat n).toNat = n := toNat_byte (by omega)
    show (lead _).1 ++ read (lead _).2 rest = _
    rw [lead_ascii (by rw [hbyte]; exact h₁), hbyte, hback]
    rfl
  · rw [if_neg h₁]
    by_cases h₂ : n < 0x800
    · rw [if_pos h₂, List.cons_append, List.cons_append, List.nil_append,
        read_two_bytes (by omega) h₂, hback]
    · rw [if_neg h₂]
      by_cases h₃ : n < 0x10000
      · rw [if_pos h₃, List.cons_append, List.cons_append, List.cons_append, List.nil_append,
          read_three_bytes (by omega) h₃ hsurrogate, hback]
      · rw [if_neg h₃, List.cons_append, List.cons_append, List.cons_append, List.cons_append,
          List.nil_append, read_four_bytes (by omega) hlt, hback]

theorem decode_encode (text : List Char) : decode (encode text) = text := by
  induction text with
  | nil => rfl
  | cons c text ih =>
      show read none (encodeChar c ++ encode text) = c :: text
      rw [read_encodeChar]
      exact congrArg _ ih

/-- It begins no character. -/
def isContinuation (byte : UInt8) : Bool := 0x80 ≤ byte.toNat && byte.toNat ≤ 0xBF

theorem encodeChar_head (c : Char) : ∃ byte rest, encodeChar c = byte :: rest ∧
    isContinuation byte = false := by
  have hlt := toNat_lt c
  have hnot : ∀ {m : Nat}, m < 256 → m < 0x80 ∨ 0xBF < m → isContinuation (UInt8.ofNat m) = false := by
    intro m hm hor
    unfold isContinuation
    rw [toNat_byte hm, Bool.and_eq_false_iff, decide_eq_false_iff_not, decide_eq_false_iff_not]
    omega
  unfold encodeChar
  dsimp only
  split
  · exact ⟨_, _, rfl, hnot (by omega) (by omega)⟩
  · split
    · exact ⟨_, _, rfl, hnot (by omega) (by omega)⟩
    · split
      · exact ⟨_, _, rfl, hnot (by omega) (by omega)⟩
      · exact ⟨_, _, rfl, hnot (by omega) (by omega)⟩

/-- Nothing of a character is left over. -/
theorem after_encodeChar (c : Char) : after none (encodeChar c) = none := by
  cases hopen : after none (encodeChar c) with
  | none => rfl
  | some s =>
      -- a byte that goes on with it would not be read by itself
      obtain ⟨text, hend, hmore⟩ := @read_append none (encodeChar c) [UInt8.ofNat s.lower]
      have hwhole := read_encodeChar c []
      rw [List.append_nil, hend, hopen] at hwhole
      have hlen := congrArg List.length hwhole
      rw [List.length_append] at hlen
      have hnil : text = [] := List.eq_nil_of_length_eq_zero (Nat.succ.inj hlen)
      rw [read_encodeChar, hopen, hnil, List.nil_append] at hmore
      have hbound := s.lower_le
      have hupper := s.upper_le
      have hbyte : (UInt8.ofNat s.lower).toNat = s.lower := toNat_byte (by omega)
      have hlt := (weight_read (w := fun _ => 1) (fun _ => by decide) s [UInt8.ofNat s.lower]).2
        (admits_of (Nat.le_of_eq hbyte.symm) (by omega))
      rw [← hmore, weight_cons] at hlt
      exact absurd hlt (Nat.lt_irrefl _)

theorem continuation_of_splits (h : splits a b = true) : b.head?.any isContinuation = true := by
  unfold splits at h
  obtain ⟨s, -, hhead⟩ := (Option.any_eq_true _ _).mp h
  obtain ⟨byte, hbyte, hadmits⟩ := (Option.any_eq_true _ _).mp hhead
  obtain ⟨hge, hle⟩ := continuation_of_admits hadmits
  rw [hbyte, Option.any_some]
  unfold isContinuation
  rw [decide_eq_true hge, decide_eq_true hle]
  rfl

theorem decode_encodeChar (c : Char) : decode (encodeChar c) = [c] := by
  have h := read_encodeChar c []
  rw [List.append_nil] at h
  exact h

/-- **Well-formed text is cut in a character exactly before a continuation byte.** -/
theorem splits_encode (h : a ++ b = encode text) :
    splits a b = b.head?.any isContinuation := by
  induction text generalizing a with
  | nil =>
      obtain ⟨rfl, rfl⟩ := List.append_eq_nil_iff.mp h
      rfl
  | cons c text ih =>
      have h : a ++ b = encodeChar c ++ encode text := h
      rcases List.append_eq_append_iff.mp h with ⟨m, hc, hb⟩ | ⟨m, ha, htext⟩
      · by_cases hm : m = []
        · rw [hm, List.append_nil] at hc
          rw [hm, List.nil_append] at hb
          have hnone : splits a b = splits [] b := by
            unfold splits
            rw [← hc, after_encodeChar]
            rfl
          rw [hnone, ih (a := []) hb]
        · by_cases ha : a = []
          · rw [ha, List.nil_append] at hc
            obtain ⟨byte, rest, hchar, hnot⟩ := encodeChar_head c
            rw [ha, splits_nil, hb, ← hc, hchar, List.cons_append, List.head?_cons, Option.any_some,
              hnot]
          · -- both parts of the character would be decoded to something
            have hcut : splits a m = true := by
              by_contra hwhole
              have happend := decode_append (by simpa using hwhole)
              rw [← hc, decode_encodeChar] at happend
              have hlen := congrArg List.length happend
              rw [List.length_append, List.length_singleton] at hlen
              have hpos := List.length_pos_iff.mpr fun hnil => ha (decode_eq_nil.mp hnil)
              have hpos' := List.length_pos_iff.mpr fun hnil => hm (decode_eq_nil.mp hnil)
              omega
            rw [hb, splits_append hm, hcut]
            have hcont := continuation_of_splits hcut
            cases m with
            | nil => exact absurd rfl hm
            | cons byte m => exact hcont.symm
      · have hlater : splits a b = splits m b := by
          unfold splits
          rw [ha, after_append, after_encodeChar]
        rw [hlater, ih htext.symm]

end RoundTrip

/-! ### Piece by piece -/

section Pieces

variable {pieces : List (List UInt8)} {piece : List UInt8} {w : Char → Nat}

/-- Every piece is decoded for itself. -/
def decodePieces (pieces : List (List UInt8)) : List Char := (pieces.map decode).flatten

/-- A character lies in two of them. -/
def Cut (pieces : List (List UInt8)) : Prop :=
  ∃ before after, pieces = before ++ after ∧ splits before.flatten after.flatten = true

theorem decodePieces_append (a b : List (List UInt8)) :
    decodePieces (a ++ b) = decodePieces a ++ decodePieces b := by
  unfold decodePieces
  rw [List.map_append, List.flatten_append]

theorem decodePieces_cons (a : List UInt8) (b : List (List UInt8)) :
    decodePieces (a :: b) = decode a ++ decodePieces b := rfl

/-- One more piece may continue the last character. -/
theorem cut_append_iff :
    Cut (pieces ++ [piece]) ↔ Cut pieces ∨ splits pieces.flatten piece = true := by
  refine ⟨fun h => ?_, fun h => ?_⟩
  · obtain ⟨before, after, heq, hsplits⟩ := h
    rcases List.eq_nil_or_concat after with rfl | ⟨rest, last, rfl⟩
    · rw [List.flatten_nil, splits_end] at hsplits
      cases hsplits
    · rw [List.concat_eq_append, ← List.append_assoc] at heq
      obtain ⟨hpieces, hlast⟩ := List.append_inj' heq rfl
      obtain rfl := (List.cons.inj hlast).1
      rw [List.concat_eq_append, List.flatten_append] at hsplits
      by_cases hrest : rest.flatten = []
      · rw [hrest, List.nil_append, List.flatten_singleton] at hsplits
        right
        rw [hpieces, List.flatten_append, hrest, List.append_nil]
        exact hsplits
      · rw [splits_append hrest] at hsplits
        exact .inl ⟨before, rest, hpieces, hsplits⟩
  · rcases h with ⟨before, after, rfl, hsplits⟩ | hsplits
    · refine ⟨before, after ++ [piece], List.append_assoc _ _ _, ?_⟩
      by_cases hafter : after.flatten = []
      · rw [hafter, splits_end] at hsplits
        cases hsplits
      · rw [List.flatten_append, splits_append hafter]
        exact hsplits
    · exact ⟨pieces, [piece], rfl, by rw [List.flatten_singleton]; exact hsplits⟩

theorem not_cut_nil : ¬Cut [] := by
  intro h
  obtain ⟨before, after, heq, hsplits⟩ := h
  obtain ⟨rfl, rfl⟩ := List.append_eq_nil_iff.mp heq.symm
  cases hsplits

/-- Where no character is cut, the pieces are decoded to the whole. -/
theorem decode_pieces (h : ¬Cut pieces) : decodePieces pieces = decode pieces.flatten := by
  induction pieces using List.reverseRecOn with
  | nil => rfl
  | append_singleton pieces piece ih =>
      rw [cut_append_iff, not_or] at h
      obtain ⟨hbefore, hlast⟩ := h
      rw [decodePieces_append, ih hbefore, List.flatten_append, List.flatten_singleton,
        decode_append (by simpa using hlast), decodePieces_cons]
      show _ ++ (decode piece ++ []) = _
      rw [List.append_nil]

/-- Otherwise they weigh more. -/
theorem weight_pieces (hw : ∀ c, w c < 2 * w replacement) (pieces : List (List UInt8)) :
    weight w (decode pieces.flatten) ≤ weight w (decodePieces pieces) ∧
      (Cut pieces → weight w (decode pieces.flatten) < weight w (decodePieces pieces)) := by
  induction pieces using List.reverseRecOn with
  | nil => exact ⟨Nat.le_refl _, fun h => absurd h not_cut_nil⟩
  | append_singleton pieces piece ih =>
      obtain ⟨hle, hlt⟩ := ih
      obtain ⟨hle', hlt'⟩ := weight_decode_append hw (a := pieces.flatten) (b := piece)
      have hlast : decodePieces (pieces ++ [piece]) = decodePieces pieces ++ decode piece := by
        rw [decodePieces_append]
        show _ ++ (decode piece ++ []) = _
        rw [List.append_nil]
      rw [hlast, weight_append, List.flatten_append, List.flatten_singleton]
      refine ⟨by omega, fun h => ?_⟩
      rcases cut_append_iff.mp h with hbefore | hsplits
      · have hlt := hlt hbefore
        omega
      · have hlt' := hlt' hsplits
        omega

theorem decodePieces_eq_nil : decodePieces pieces = [] ↔ pieces.flatten = [] := by
  unfold decodePieces
  rw [List.flatten_eq_nil_iff, List.flatten_eq_nil_iff]
  refine ⟨fun h piece hpiece => decode_eq_nil.mp (h _ (List.mem_map_of_mem hpiece)), ?_⟩
  intro h text htext
  obtain ⟨piece, hpiece, rfl⟩ := List.mem_map.mp htext
  exact decode_eq_nil.mpr (h piece hpiece)

end Pieces

end Utf8
