/-
Lower case.

`toLowerCase` follows the tables of Unicode, and its callers rely on little of them: characters
without case stay where they are and nothing else turns into one, and what is in lower case stays
as it is.  `LowersCase` is that much, and the case of ASCII has it.
-/
import PiMesh.Js.Text
import Mathlib.Data.List.Forall2

namespace Js

/-- A character without case that some text of the program begins, ends or is cut at. -/
def isCaseless (c : Char) : Bool := isTrimmed c || c == '@' || c == '.' || c == '/' || c == '\\'

/-- What one character becomes. -/
def LowerPiece (c : Char) (piece : List Char) : Prop :=
  if isCaseless c then piece = [c] else piece ≠ [] ∧ ∀ d ∈ piece, isCaseless d = false

/-- `toLowerCase`. -/
structure LowersCase (lower : String → String) : Prop where
  /-- Every character becomes one or more, by itself. -/
  pieces : ∀ s, ∃ pieces, List.Forall₂ LowerPiece s.toList pieces ∧
    (lower s).toList = pieces.flatten
  /-- A part of a text in lower case is in lower case. -/
  settled : ∀ s part, part <:+: (lower s).toList → lower (String.ofList part) = String.ofList part

section Pieces

variable {c : Char} {piece : List Char} {l : List Char} {pieces : List (List Char)} {p : Char → Bool}

theorem LowerPiece.reverse (h : LowerPiece c piece) : LowerPiece c piece.reverse := by
  unfold LowerPiece at h ⊢
  by_cases hc : isCaseless c = true
  · rw [if_pos hc] at h ⊢
    rw [h, List.reverse_singleton]
  · rw [if_neg hc] at h ⊢
    refine ⟨by simpa using h.1, ?_⟩
    intro d hd
    exact h.2 d (List.mem_reverse.mp hd)

/-- A piece begins as its character does, and is not empty. -/
theorem LowerPiece.head (hp : ∀ c, p c = true → isCaseless c = true) (h : LowerPiece c piece) :
    ∃ d rest, piece = d :: rest ∧ p d = p c := by
  unfold LowerPiece at h
  by_cases hc : isCaseless c = true
  · rw [if_pos hc] at h
    exact ⟨c, [], h, rfl⟩
  · rw [if_neg hc] at h
    obtain ⟨d, rest, rfl⟩ := List.exists_cons_of_ne_nil h.1
    have hnot : ∀ e, isCaseless e = false → p e = false := by
      intro e he
      by_contra hpe
      rw [hp e (by simpa using hpe)] at he
      simp at he
    refine ⟨d, rest, rfl, ?_⟩
    rw [hnot d (h.2 d (by simp)), hnot c (by simpa using hc)]

theorem head_flatten (hp : ∀ c, p c = true → isCaseless c = true)
    (h : List.Forall₂ LowerPiece l pieces) : pieces.flatten.head?.any p = l.head?.any p := by
  cases h with
  | nil => rfl
  | cons hpiece _ =>
      obtain ⟨d, rest, rfl, hd⟩ := hpiece.head hp
      simp [hd]

theorem forall_reverse (h : List.Forall₂ LowerPiece l pieces) :
    List.Forall₂ LowerPiece l.reverse (pieces.map List.reverse).reverse := by
  rw [List.forall₂_reverse_iff, List.forall₂_map_right_iff]
  exact h.imp fun _ _ hpiece => hpiece.reverse

/-- Characters without case in front are in front of both. -/
theorem prefix_flatten_iff {w : List Char} (hw : ∀ c ∈ w, isCaseless c = true)
    (h : List.Forall₂ LowerPiece l pieces) : w <+: pieces.flatten ↔ w <+: l := by
  induction w generalizing l pieces with
  | nil => simp
  | cons c w ih =>
      have hc : isCaseless c = true := hw c (by simp)
      cases h with
      | nil => simp
      | @cons d piece rest ps hpiece hrest =>
          have ih := ih (fun e he => hw e (by simp [he])) hrest
          unfold LowerPiece at hpiece
          by_cases hd : isCaseless d = true
          · rw [if_pos hd] at hpiece
            rw [hpiece, List.flatten_cons, List.singleton_append, List.cons_prefix_cons,
              List.cons_prefix_cons, ih]
          · rw [if_neg hd] at hpiece
            obtain ⟨e, es, rfl⟩ := List.exists_cons_of_ne_nil hpiece.1
            have hne : c ≠ d := fun heq => hd (by rw [← heq]; exact hc)
            have hne' : c ≠ e := by
              intro heq
              have he := hpiece.2 e (by simp)
              rw [← heq, hc] at he
              simp at he
            rw [List.flatten_cons, List.cons_append, List.cons_prefix_cons, List.cons_prefix_cons]
            simp [hne, hne']

theorem mem_flatten_caseless (hc : isCaseless c = true) (h : List.Forall₂ LowerPiece l pieces)
    (hmem : c ∈ pieces.flatten) : c ∈ l := by
  induction h with
  | nil => simp at hmem
  | @cons d piece ds rest hpiece _ ih =>
      rw [List.flatten_cons, List.mem_append] at hmem
      rcases hmem with hnow | hlater
      · unfold LowerPiece at hpiece
        by_cases hd : isCaseless d = true
        · rw [if_pos hd] at hpiece
          rw [hpiece, List.mem_singleton] at hnow
          simp [hnow]
        · rw [if_neg hd] at hpiece
          have hnot := hpiece.2 c hnow
          rw [hc] at hnot
          simp at hnot
      · exact List.mem_cons_of_mem _ (ih hlater)

end Pieces

namespace LowersCase

variable {lower : String → String} {p : Char → Bool} (h : LowersCase lower)
include h

theorem lower_lower (s : String) : lower (lower s) = lower s := by
  have hall := h.settled s (lower s).toList (List.infix_refl _)
  rwa [String.ofList_toList] at hall

theorem lower_empty : lower "" = "" := by
  obtain ⟨pieces, hpieces, hlower⟩ := h.pieces ""
  rw [show "".toList = [] from rfl, List.forall₂_nil_left_iff] at hpieces
  rw [hpieces] at hlower
  exact String.toList_eq_nil_iff.mp hlower

/-- The first character keeps having no case, or having one. -/
theorem head (hp : ∀ c, p c = true → isCaseless c = true) (s : String) :
    (lower s).toList.head?.any p = s.toList.head?.any p := by
  obtain ⟨pieces, hpieces, hlower⟩ := h.pieces s
  rw [hlower]
  exact head_flatten hp hpieces

/-- So does the last. -/
theorem last (hp : ∀ c, p c = true → isCaseless c = true) (s : String) :
    (lower s).toList.getLast?.any p = s.toList.getLast?.any p := by
  obtain ⟨pieces, hpieces, hlower⟩ := h.pieces s
  rw [hlower, ← List.head?_reverse, ← List.head?_reverse, List.reverse_flatten]
  exact head_flatten hp (forall_reverse hpieces)

theorem prefix_iff {w : List Char} (hw : ∀ c ∈ w, isCaseless c = true) (s : String) :
    w <+: (lower s).toList ↔ w <+: s.toList := by
  obtain ⟨pieces, hpieces, hlower⟩ := h.pieces s
  rw [hlower]
  exact prefix_flatten_iff hw hpieces

/-- A character without case is there only if it was. -/
theorem mem {s : String} {c : Char} (hc : isCaseless c = true) (hmem : c ∈ (lower s).toList) :
    c ∈ s.toList := by
  obtain ⟨pieces, hpieces, hlower⟩ := h.pieces s
  rw [hlower] at hmem
  exact mem_flatten_caseless hc hpieces hmem

end LowersCase

/-! ### ASCII -/

/-- The letters of ASCII in lower case. -/
def asciiLower (s : String) : String := String.ofList (s.toList.map Char.toLower)

theorem ascii_upper : ∀ n < 128, (Char.ofNat n).isUpper = true →
    isCaseless (Char.ofNat n) = false ∧ isCaseless (Char.ofNat n).toLower = false ∧
      (Char.ofNat n).toLower.isUpper = false := by decide

theorem upper_caseless {c : Char} (h : c.isUpper = true) :
    isCaseless c = false ∧ isCaseless c.toLower = false ∧ c.toLower.isUpper = false := by
  have hlt : c.toNat < 128 := by
    delta Char.isUpper at h
    simp only [ge_iff_le, decide_eq_true_eq, UInt32.le_iff_toNat_le] at h
    have hle : c.val.toNat ≤ 90 := by simpa using h.2
    have hval : c.toNat = c.val.toNat := rfl
    omega
  have hall := ascii_upper c.toNat hlt
  rw [Char.ofNat_toNat] at hall
  exact hall h

theorem toLower_of_not_upper {c : Char} (h : ¬ c.isUpper = true) : c.toLower = c := by
  delta Char.isUpper at h
  rw [decide_eq_true_eq] at h
  unfold Char.toLower
  rw [dif_neg h]

theorem toLower_toLower (c : Char) : c.toLower.toLower = c.toLower := by
  by_cases h : c.isUpper = true
  · exact toLower_of_not_upper (by simp [(upper_caseless h).2.2])
  · rw [toLower_of_not_upper h, toLower_of_not_upper h]

theorem lowerPiece_toLower (c : Char) : LowerPiece c [c.toLower] := by
  unfold LowerPiece
  by_cases hupper : c.isUpper = true
  · obtain ⟨hc, hlower, -⟩ := upper_caseless hupper
    rw [if_neg (by simp [hc])]
    exact ⟨by simp, by simpa using hlower⟩
  · rw [toLower_of_not_upper hupper]
    by_cases hc : isCaseless c = true
    · rw [if_pos hc]
    · rw [if_neg hc]
      exact ⟨by simp, by simpa using hc⟩

theorem asciiLower_lowersCase : LowersCase asciiLower where
  pieces s := by
    refine ⟨s.toList.map fun c => [c.toLower], ?_, ?_⟩
    · rw [List.forall₂_map_right_iff, List.forall₂_same]
      intro c _
      exact lowerPiece_toLower c
    · unfold asciiLower
      rw [String.toList_ofList]
      induction s.toList with
      | nil => rfl
      | cons c rest ih => simp [ih]
  settled s part hpart := by
    unfold asciiLower at hpart ⊢
    rw [String.toList_ofList] at hpart ⊢
    refine congrArg String.ofList ((List.map_congr_left ?_).trans (List.map_id _))
    intro c hc
    obtain ⟨d, -, rfl⟩ := List.mem_map.mp (hpart.subset hc)
    exact toLower_toLower d

end Js
