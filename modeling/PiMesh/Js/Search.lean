/-
Searching in a text and cutting it.

The tests of JavaScript for a part of a string say where the part lies, and the pieces of
`split` say what is around each of them.
-/
import PiMesh.Js.Text

namespace Js

section Search

variable {s part : String}

theorem includesChars_iff {part : List Char} : ∀ {l : List Char},
    includesChars part l = true ↔ part <:+: l := by
  intro l
  induction l with
  | nil => simp [includesChars]
  | cons c rest ih =>
      rw [includesChars, Bool.or_eq_true, List.isPrefixOf_iff_prefix, ih, List.infix_cons_iff]

theorem includesString_iff : includesString s part = true ↔ part.toList <:+: s.toList :=
  includesChars_iff

theorem startsWithString_iff : startsWithString s part = true ↔ part.toList <+: s.toList :=
  List.isPrefixOf_iff_prefix

theorem endsWithString_iff : endsWithString s part = true ↔ part.toList <:+ s.toList :=
  List.isSuffixOf_iff_suffix

/-- A text of one character. -/
theorem singleton_infix_iff {c : Char} {l : List Char} : [c] <:+: l ↔ c ∈ l := by
  constructor
  · intro h
    exact h.subset (by simp)
  · intro h
    obtain ⟨a, b, rfl⟩ := List.append_of_mem h
    exact ⟨a, b, by simp⟩

end Search

section Split

variable {sep : Char} {l seg : List Char}

theorem splitChars_free {sep : Char} {l : List Char} (h : sep ∉ l) : splitChars sep l = [l] := by
  induction l with
  | nil => rfl
  | cons c rest ih =>
      have hc : c ≠ sep := fun hc => h (by rw [hc]; exact List.mem_cons_self)
      rw [splitChars, if_neg hc, ih fun hr => h (List.mem_cons_of_mem _ hr)]

theorem splitChars_append {sep : Char} {l : List Char} (h : sep ∉ l) (r : List Char) :
    splitChars sep (l ++ sep :: r) = l :: splitChars sep r := by
  induction l with
  | nil => rw [List.nil_append, splitChars, if_pos rfl]
  | cons c rest ih =>
      have hc : c ≠ sep := fun hc => h (by rw [hc]; exact List.mem_cons_self)
      rw [List.cons_append, splitChars, if_neg hc, ih fun hr => h (List.mem_cons_of_mem _ hr)]

/-- A text has no separator, or it has a first one. -/
theorem exists_first (sep : Char) (l : List Char) :
    sep ∉ l ∨ ∃ a r, sep ∉ a ∧ l = a ++ sep :: r := by
  by_cases h : sep ∈ l
  · obtain ⟨a, r, rfl, hfirst⟩ := List.eq_append_cons_of_mem h
    exact .inr ⟨a, r, hfirst, rfl⟩
  · exact .inl h

/-- What comes behind a piece: nothing, or a separator. -/
def Ended (sep : Char) (rest : List Char) : Prop := rest = [] ∨ ∃ r, rest = sep :: r

/-- The first piece is the text, up to its end or a separator. -/
theorem splitChars_head (sep : Char) (l : List Char) :
    ∃ first pieces rest, splitChars sep l = first :: pieces ∧ l = first ++ rest ∧
      Ended sep rest := by
  rcases exists_first sep l with hfree | ⟨a, r, ha, rfl⟩
  · exact ⟨l, [], [], splitChars_free hfree, by simp, .inl rfl⟩
  · exact ⟨a, splitChars sep r, sep :: r, splitChars_append ha r, rfl, .inr ⟨r, rfl⟩⟩

/-- Any other piece begins behind a separator. -/
theorem mem_tail_splitChars : seg ∈ (splitChars sep l).tail →
    ∃ before rest, l = before ++ sep :: (seg ++ rest) ∧ Ended sep rest := by
  induction hn : l.length using Nat.strongRecOn generalizing l with
  | ind n ih =>
      intro h
      rcases exists_first sep l with hfree | ⟨a, r, ha, rfl⟩
      · rw [splitChars_free hfree] at h
        simp at h
      · rw [splitChars_append ha, List.tail_cons] at h
        obtain ⟨first, pieces, rest, hsplit, hr, hend⟩ := splitChars_head sep r
        rw [hsplit] at h
        rcases List.mem_cons.mp h with rfl | hmem
        · exact ⟨a, rest, by rw [hr], hend⟩
        · have hlt : r.length < n := by
            rw [← hn]
            simp
            omega
          obtain ⟨before, rest', hr', hend'⟩ := ih _ hlt rfl (by rw [hsplit]; exact hmem)
          exact ⟨a ++ sep :: before, rest', by rw [hr']; simp, hend'⟩

/-- A piece is a part of the text. -/
theorem mem_splitChars_infix (h : seg ∈ splitChars sep l) : seg <:+: l := by
  obtain ⟨first, pieces, rest, hsplit, hl, -⟩ := splitChars_head sep l
  rw [hsplit] at h
  rcases List.mem_cons.mp h with rfl | hmem
  · exact ⟨[], rest, hl.symm⟩
  · have htail : seg ∈ (splitChars sep l).tail := by
      rw [hsplit]
      exact hmem
    obtain ⟨before, rest', hl', -⟩ := mem_tail_splitChars htail
    exact ⟨before ++ [sep], rest', by rw [hl']; simp⟩

theorem splitChars_ne_nil (sep : Char) (l : List Char) : splitChars sep l ≠ [] := by
  obtain ⟨first, pieces, rest, hsplit, -, -⟩ := splitChars_head sep l
  rw [hsplit]
  exact List.cons_ne_nil first pieces

/-- The parts of a text but the last stay as they are, whatever is appended. -/
theorem splitChars_parts (sep : Char) (a : List Char) : ∃ init last, sep ∉ last ∧
    ∀ b, splitChars sep (a ++ b) = init ++ splitChars sep (last ++ b) := by
  induction a with
  | nil => exact ⟨[], [], by simp, fun _ => rfl⟩
  | cons c a ih =>
      obtain ⟨init, last, hlast, hparts⟩ := ih
      by_cases hc : c = sep
      · refine ⟨[] :: init, last, hlast, ?_⟩
        intro b
        rw [List.cons_append, splitChars, if_pos hc, hparts]
        rfl
      · cases init with
        | nil =>
            refine ⟨[], c :: last, ?_, ?_⟩
            · intro h
              rcases List.mem_cons.mp h with h | h
              · exact hc h.symm
              · exact hlast h
            · intro b
              rw [List.cons_append, List.cons_append, splitChars, splitChars, if_neg hc, if_neg hc,
                hparts]
              rfl
        | cons part init =>
            refine ⟨(c :: part) :: init, last, hlast, ?_⟩
            intro b
            rw [List.cons_append, splitChars, if_neg hc, hparts]
            rfl

end Split

end Js
