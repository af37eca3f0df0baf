/-
How a long body is cut.

What `truncateUtf8` keeps is the longest part of whole characters that fits in the bytes, and then
it adds a marker.  With the marker it does not fit, so the result has the size that is documented
exactly if there was nothing to cut.
-/
import PiMesh.Proofs.Redaction
import PiMesh.Lib.Utf8Cut

namespace PiMesh

open Js Utf8

/-! ### What the result speaks of -/

/-- `Buffer.byteLength(text, "utf8")`. -/
def byteCount (text : List Char) : Nat := (encode text).length

/-- `out` is the text where it fits, and else as many whole characters of it as fit with the
marker. -/
structure CutCleanly (text : String) (maxBytes : Nat) (out : String) : Prop where
  whole : byteCount text.toList ≤ maxBytes → out = text
  cut : maxBytes < byteCount text.toList → ∃ kept, kept <+: text.toList ∧
    out.toList = kept ++ truncatedMarker.toList ∧ byteCount out.toList ≤ maxBytes ∧
    ∀ longer, longer <+: text.toList → kept.length < longer.length →
      maxBytes < byteCount (longer ++ truncatedMarker.toList)

/-- As many whole characters as fit without a marker. -/
structure LongestFit (text : List Char) (maxBytes : Nat) (kept : List Char) : Prop where
  whole : kept <+: text
  fits : byteCount kept ≤ maxBytes
  longest : ∀ longer, longer <+: text → kept.length < longer.length → maxBytes < byteCount longer

/-! ### Backing off -/

theorem byteCount_append (a b : List Char) : byteCount (a ++ b) = byteCount a + byteCount b := by
  unfold byteCount
  rw [encode_append, List.length_append]

/-- The byte at the place begins no character. -/
def continues (buf : List UInt8) (i : Nat) : Bool := buf[i]?.any isContinuation

/-- Where it stops, a character begins, and none begins between there and the bound. -/
theorem backOff_spec (buf : List UInt8) (stop : Nat) :
    backOff buf stop ≤ stop ∧ (backOff buf stop = 0 ∨ continues buf (backOff buf stop) = false) ∧
      ∀ i, backOff buf stop < i → i ≤ stop → continues buf i = true := by
  induction stop with
  | zero =>
      refine ⟨Nat.le_refl 0, .inl rfl, ?_⟩
      intro i hi hle
      omega
  | succ stop ih =>
      have hmask : (buf[stop + 1]?.any fun byte => byte &&& 0xC0 == 0x80) =
          continues buf (stop + 1) := by
        simp only [continues, continuation_mask]
      rw [backOff, hmask]
      by_cases hcont : continues buf (stop + 1) = true
      · rw [if_pos hcont]
        refine ⟨Nat.le_succ_of_le ih.1, ih.2.1, ?_⟩
        intro i hi hle
        by_cases heq : i = stop + 1
        · rw [heq]
          exact hcont
        · exact ih.2.2 i hi (by omega)
      · rw [if_neg hcont]
        refine ⟨Nat.le_refl _, .inr (by simpa using hcont), ?_⟩
        intro i hi hle
        omega

/-- Between two characters no byte continues one. -/
theorem continues_encode (a b : List Char) : continues (encode (a ++ b)) (byteCount a) = false := by
  unfold continues byteCount
  rw [encode_append, List.getElem?_append_right (Nat.le_refl _), Nat.sub_self]
  cases b with
  | nil => rfl
  | cons c b =>
      obtain ⟨byte, rest, hchar, hnot⟩ := encodeChar_head c
      rw [encode_cons, hchar]
      exact hnot

/-- **What is kept is the longest part that fits.** -/
theorem truncateUtf8_longest {text : String} {maxBytes : Nat}
    (hlong : maxBytes < byteCount text.toList) : ∃ kept, LongestFit text.toList maxBytes kept ∧
      (truncateUtf8 text maxBytes).toList = kept ++ truncatedMarker.toList := by
  obtain ⟨hle, hstop, hcont⟩ := backOff_spec (encode text.toList) maxBytes
  generalize hend : backOff (encode text.toList) maxBytes = stop at hle hstop hcont
  have hcut : ((encode text.toList).drop stop).head?.any isContinuation = false := by
    rw [List.head?_drop]
    rcases hstop with hzero | hnot
    · rw [hzero]
      exact continues_encode [] text.toList
    · exact hnot
  obtain ⟨kept, rest, htext, hkept, -⟩ := encode_cut (List.take_append_drop stop _) hcut
  have hcount : byteCount kept = stop := by
    unfold byteCount at hlong ⊢
    rw [← hkept, List.length_take]
    omega
  refine ⟨kept, ⟨⟨rest, htext.symm⟩, by omega, ?_⟩, ?_⟩
  · intro longer hlonger hlength
    by_contra hfits
    -- a character would begin behind `longer`, and the bound is no further
    obtain ⟨more, hmore⟩ := hlonger
    have hbegins := continues_encode longer more
    rw [hmore] at hbegins
    obtain ⟨extra, rfl⟩ : kept <+: longer :=
      List.prefix_of_prefix_length_le ⟨rest, htext.symm⟩ ⟨more, hmore⟩ (Nat.le_of_lt hlength)
    have hextra : extra ≠ [] := by
      intro hnil
      rw [hnil, List.append_nil] at hlength
      omega
    obtain ⟨c, extra', rfl⟩ := List.exists_cons_of_ne_nil hextra
    have hpos := (encodeChar_length c).1
    have hmoves : byteCount (kept ++ c :: extra') = stop + (encodeChar c).length + byteCount extra' := by
      rw [byteCount_append, hcount]
      unfold byteCount
      rw [encode_cons, List.length_append]
      omega
    have hcontinues := hcont (byteCount (kept ++ c :: extra')) (by omega) (by omega)
    rw [hbegins] at hcontinues
    simp at hcontinues
  · have hno : ¬ (encode text.toList).length ≤ maxBytes := by
      unfold byteCount at hlong
      omega
    unfold truncateUtf8
    simp only [hno, if_false, String.toList_append, String.toList_ofList, hend, hkept,
      decode_encode]

theorem byteCount_marker : byteCount truncatedMarker.toList = 14 := by decide

/-- **A text is cut as documented exactly if it fits, and is not cut at all.** -/
theorem truncateUtf8_cleanly_iff (text : String) (maxBytes : Nat) :
    CutCleanly text maxBytes (truncateUtf8 text maxBytes) ↔ byteCount text.toList ≤ maxBytes := by
  constructor
  · intro h
    by_contra hlong
    obtain ⟨kept, hkept, hout⟩ := truncateUtf8_longest (Nat.lt_of_not_le hlong)
    obtain ⟨-, -, -, hfits, -⟩ := h.cut (Nat.lt_of_not_le hlong)
    rw [hout, byteCount_append, byteCount_marker] at hfits
    -- one character more would not fit, and it is shorter than the marker
    obtain ⟨rest, hrest⟩ := hkept.whole
    cases rest with
    | nil =>
        rw [List.append_nil] at hrest
        rw [hrest] at hfits
        omega
    | cons c rest =>
        have hnext := hkept.longest (kept ++ [c]) ⟨rest, by rw [← hrest]; simp⟩ (by simp)
        have hsize : byteCount [c] = (encodeChar c).length := by
          simp [byteCount, encode]
        rw [byteCount_append, hsize] at hnext
        have hfour := (encodeChar_length c).2
        omega
  · intro hfits
    refine ⟨?_, fun hlong => absurd hfits (Nat.not_le_of_lt hlong)⟩
    intro _
    unfold truncateUtf8
    exact if_pos hfits

/-- Fifteen bytes, where fourteen are allowed: fourteen are kept, and the marker is added. -/
theorem truncation_too_long : byteCount truncatedMarker.toList ≤ 14 ∧
    truncateUtf8 "aaaaaaaaaaaaaaa" 14 = "aaaaaaaaaaaaaa…[truncated]" ∧
    byteCount (truncateUtf8 "aaaaaaaaaaaaaaa" 14).toList = 28 ∧
    ¬ CutCleanly "aaaaaaaaaaaaaaa" 14 (truncateUtf8 "aaaaaaaaaaaaaaa" 14) := by
  have hout : truncateUtf8 "aaaaaaaaaaaaaaa" 14 = "aaaaaaaaaaaaaa…[truncated]" := by decide
  have hsize : byteCount (truncateUtf8 "aaaaaaaaaaaaaaa" 14).toList = 28 := by
    rw [hout]
    decide
  refine ⟨by decide, hout, hsize, ?_⟩
  intro h
  obtain ⟨-, -, -, hfits, -⟩ := h.cut (by decide)
  rw [hsize] at hfits
  omega

end PiMesh
