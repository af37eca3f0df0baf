/-
Where encoded text can be cut.

A byte that is no continuation begins a character, so a cut before it leaves whole characters on
either side.
-/
import PiMesh.Lib.Utf8

namespace Utf8

section Cut

variable {c : Char} {text : List Char} {a b : List UInt8}

theorem encode_append (a b : List Char) : encode (a ++ b) = encode a ++ encode b := by
  unfold encode
  rw [List.flatMap_append]

theorem encode_cons (c : Char) (text : List Char) :
    encode (c :: text) = encodeChar c ++ encode text := rfl

/-- What is encoded is read first, whatever bytes come behind it. -/
theorem decode_encode_append (text : List Char) (b : List UInt8) :
    decode (encode text ++ b) = text ++ decode b := by
  induction text with
  | nil => rfl
  | cons c text ih =>
      rw [encode_cons, List.append_assoc, List.cons_append, ← ih]
      exact read_encodeChar c (encode text ++ b)

/-- The bit pattern of a continuation byte. -/
theorem continuation_mask (byte : UInt8) : (byte &&& 0xC0 == 0x80) = isContinuation byte := by
  have hall : ∀ n < 256, (UInt8.ofNat n &&& 0xC0 == 0x80) = isContinuation (UInt8.ofNat n) := by
    decide +kernel
  have hbyte := hall byte.toNat byte.toNat_lt
  rw [UInt8.ofNat_toNat] at hbyte
  exact hbyte

theorem encodeChar_length (c : Char) : 0 < (encodeChar c).length ∧ (encodeChar c).length ≤ 4 := by
  unfold encodeChar
  dsimp only
  split
  · simp
  · split
    · simp
    · split
      · simp
      · simp

/-- Behind the first byte of a character there are continuation bytes. -/
theorem encodeChar_tail (c : Char) : ∀ byte ∈ (encodeChar c).tail, isContinuation byte = true := by
  have hlast : ∀ n, isContinuation (UInt8.ofNat (0x80 + n % 64)) = true := by
    intro n
    unfold isContinuation
    rw [toNat_tail, Bool.and_eq_true, decide_eq_true_eq, decide_eq_true_eq]
    omega
  unfold encodeChar
  dsimp only
  split
  · simp
  · split
    · exact List.forall_mem_cons.mpr ⟨hlast _, by simp⟩
    · split
      · exact List.forall_mem_cons.mpr ⟨hlast _, List.forall_mem_cons.mpr ⟨hlast _, by simp⟩⟩
      · exact List.forall_mem_cons.mpr ⟨hlast _, List.forall_mem_cons.mpr ⟨hlast _,
          List.forall_mem_cons.mpr ⟨hlast _, by simp⟩⟩⟩

/-- **Text that is cut before no continuation byte is cut between characters.** -/
theorem encode_cut (h : a ++ b = encode text) (hb : b.head?.any isContinuation = false) :
    ∃ s t, text = s ++ t ∧ a = encode s ∧ b = encode t := by
  induction text generalizing a with
  | nil =>
      obtain ⟨rfl, rfl⟩ := List.append_eq_nil_iff.mp h
      exact ⟨[], [], rfl, rfl, rfl⟩
  | cons c text ih =>
      by_cases ha : a = []
      · rw [ha, List.nil_append] at h
        exact ⟨[], c :: text, rfl, by rw [ha]; rfl, h⟩
      · rw [encode_cons] at h
        rcases List.append_eq_append_iff.mp h with ⟨m, hc, htail⟩ | ⟨m, hc, htail⟩
        · -- the cut is in the first character, so it has to be at its end
          have hm : m = [] := by
            by_contra hm
            obtain ⟨byte, m', rfl⟩ := List.exists_cons_of_ne_nil hm
            obtain ⟨first, a', rfl⟩ := List.exists_cons_of_ne_nil ha
            have hcont := encodeChar_tail c byte (by rw [hc]; simp)
            rw [htail, List.cons_append, List.head?_cons, Option.any_some, hcont] at hb
            simp at hb
          rw [hm, List.append_nil] at hc
          rw [hm, List.nil_append] at htail
          exact ⟨[c], text, rfl, by rw [← hc]; simp [encode], htail⟩
        · obtain ⟨s, t, rfl, rfl, rfl⟩ := ih htail.symm
          exact ⟨c :: s, t, rfl, hc, rfl⟩

end Cut

end Utf8
