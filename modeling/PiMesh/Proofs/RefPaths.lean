/-
What an accepted ref may still name.

`isValidRefPath` looks for `.env` as a whole segment wherever it stands, and for its variants
(`.env.local` and the like) at the start of the path only.  So an accepted ref has every property
the check is there for exactly if no segment after the first is such a variant; and nothing without
`.env` in it that has these properties is refused.
-/
import PiMesh.Protocol.Envelope
import PiMesh.Js.Search

namespace PiMesh

open Js

/-- The segments of a path. -/
def segmentsOf (ref : String) : List (List Char) := splitChars '/' ref.toList

/-- An environment file, or a variant of one. -/
def IsEnvFile (seg : List Char) : Prop := seg = ".env".toList ∨ ".env.".toList <+: seg

/-- A path that stays inside the repository and names no secret. -/
structure RefPathSafe (ref : String) : Prop where
  length : 1 ≤ strLength ref ∧ strLength ref ≤ maxRefChars
  relative : startsWithString ref "/" = false ∧ startsWithString ref "~" = false
  slashes : '\\' ∉ ref.toList
  below : ∀ seg ∈ segmentsOf ref, seg ≠ "..".toList
  secret : ∀ seg ∈ segmentsOf ref, ¬ IsEnvFile seg

/-- Every test of `isValidRefPath`, passed. -/
structure RefPathPasses (ref : String) : Prop where
  length : strLength ref ≠ 0 ∧ strLength ref ≤ maxRefChars
  relative : startsWithString ref "/" = false ∧ startsWithString ref "~" = false
  slashes : includesString ref "\\" = false
  below : (segmentsOf ref).any (fun seg => seg == "..".toList) = false
  whole : ref ≠ ".env"
  front : startsWithString ref ".env." = false
  back : endsWithString ref "/.env" = false
  middle : includesString ref ".env/" = false ∧ includesString ref "/.env/" = false

theorem isValidRefPath_iff (ref : String) : isValidRefPath ref = true ↔ RefPathPasses ref := by
  unfold isValidRefPath
  constructor
  · intro h
    split_ifs at h with hlength hrelative hslashes hbelow henv hmiddle
    simp only [Bool.or_eq_true, decide_eq_true_eq, beq_iff_eq, not_or, Bool.not_eq_true] at *
    exact ⟨⟨hlength.1, by omega⟩, hrelative, hslashes, hbelow, henv.1.1, henv.1.2, henv.2, hmiddle⟩
  · intro h
    have hlong : ¬ maxRefChars < strLength ref := Nat.not_lt_of_le h.length.2
    have hbelow : (splitChars '/' ref.toList).any (fun seg => seg == "..".toList) = false := h.below
    rw [hbelow]
    simp [h.length.1, hlong, h.relative, h.slashes, h.whole, h.front, h.back, h.middle]

section Env

variable {ref : String} {seg : List Char}

/-- The first segment is no environment file, nor a variant of one. -/
theorem first_not_env (h : RefPathPasses ref) {rest : List Char} (href : ref.toList = seg ++ rest)
    (hend : Ended '/' rest) : ¬ IsEnvFile seg := by
  intro henv
  rcases henv with rfl | hvariant
  · rcases hend with rfl | ⟨r, rfl⟩
    · refine h.whole (String.toList_inj.mp ?_)
      rw [href, List.append_nil]
    · have hin : includesString ref ".env/" = true := by
        rw [includesString_iff, href]
        exact ⟨[], r, by simp⟩
      rw [h.middle.1] at hin
      simp at hin
  · have hin : startsWithString ref ".env." = true := by
      rw [startsWithString_iff, href]
      exact hvariant.trans (List.prefix_append seg rest)
    rw [h.front] at hin
    simp at hin

/-- No other segment is one. -/
theorem later_ne_env (h : RefPathPasses ref) {before rest : List Char}
    (href : ref.toList = before ++ '/' :: (seg ++ rest)) (hend : Ended '/' rest) :
    seg ≠ ".env".toList := by
  intro henv
  rcases hend with rfl | ⟨r, rfl⟩
  · have hin : endsWithString ref "/.env" = true := by
      rw [endsWithString_iff, href, henv]
      exact ⟨before, by simp⟩
    rw [h.back] at hin
    simp at hin
  · have hin : includesString ref "/.env/" = true := by
      rw [includesString_iff, href, henv]
      exact ⟨before, r, by simp⟩
    rw [h.middle.2] at hin
    simp at hin

/-- What passes is safe, up to the variants of an environment file in a later segment. -/
theorem passes_safe_iff (h : RefPathPasses ref) :
    RefPathSafe ref ↔ ∀ seg ∈ (segmentsOf ref).tail, ¬ ".env.".toList <+: seg := by
  constructor
  · intro hsafe seg hseg hvariant
    exact hsafe.secret seg (List.mem_of_mem_tail hseg) (.inr hvariant)
  · intro hlater
    refine ⟨⟨Nat.pos_of_ne_zero h.length.1, h.length.2⟩, h.relative, ?_, ?_, ?_⟩
    · intro hmem
      have hin : includesString ref "\\" = true := by
        rw [includesString_iff]
        exact singleton_infix_iff.mpr hmem
      rw [h.slashes] at hin
      simp at hin
    · intro seg hseg hdots
      have hany := List.any_eq_false.mp h.below seg hseg
      simp [hdots] at hany
    · intro seg hseg henv
      by_cases htail : seg ∈ (segmentsOf ref).tail
      · rcases henv with hwhole | hvariant
        · obtain ⟨before, rest, href, hend⟩ := mem_tail_splitChars htail
          exact later_ne_env h href hend hwhole
        · exact hlater seg htail hvariant
      · obtain ⟨first, pieces, rest, hsplit, href, hend⟩ := splitChars_head '/' ref.toList
        unfold segmentsOf at hseg htail
        rw [hsplit] at hseg htail
        rcases List.mem_cons.mp hseg with rfl | hmem
        · exact first_not_env h href hend henv
        · exact htail hmem

/-- Whatever has no `.env` in it is not refused for one. -/
theorem safe_passes (h : RefPathSafe ref) (henv : includesString ref ".env" = false) :
    RefPathPasses ref := by
  have hnone : ∀ part : List Char, ".env".toList <:+: part → ¬ part <:+: ref.toList := by
    intro part hpart hin
    have hall : includesString ref ".env" = true := includesString_iff.mpr (hpart.trans hin)
    rw [henv] at hall
    simp at hall
  refine ⟨⟨by have := h.length.1; omega, h.length.2⟩, h.relative, ?_, ?_, ?_, ?_, ?_, ?_, ?_⟩
  · by_contra hslash
    rw [Bool.not_eq_false, includesString_iff] at hslash
    exact h.slashes (singleton_infix_iff.mp hslash)
  · rw [List.any_eq_false]
    intro seg hseg hdots
    exact h.below seg hseg (by simpa using hdots)
  · rintro rfl
    exact hnone ".env".toList (List.infix_refl _) (List.infix_refl _)
  · by_contra hfront
    rw [Bool.not_eq_false, startsWithString_iff] at hfront
    exact hnone _ ⟨[], ".".toList, by decide⟩ hfront.isInfix
  · by_contra hback
    rw [Bool.not_eq_false, endsWithString_iff] at hback
    exact hnone _ ⟨"/".toList, [], by decide⟩ hback.isInfix
  · by_contra hmiddle
    rw [Bool.not_eq_false, includesString_iff] at hmiddle
    exact hnone _ ⟨[], "/".toList, by decide⟩ hmiddle
  · by_contra hmiddle
    rw [Bool.not_eq_false, includesString_iff] at hmiddle
    exact hnone _ ⟨"/".toList, "/".toList, by decide⟩ hmiddle

end Env

/-- **An accepted ref is safe exactly if no segment after the first begins with `.env.`, and every
safe ref without `.env` in it is accepted.** -/
theorem ref_path_safe_iff (ref : String) :
    (isValidRefPath ref = true →
      (RefPathSafe ref ↔ ∀ seg ∈ (segmentsOf ref).tail, ¬ ".env.".toList <+: seg)) ∧
    (RefPathSafe ref → includesString ref ".env" = false → isValidRefPath ref = true) := by
  constructor
  · intro h
    exact passes_safe_iff ((isValidRefPath_iff ref).mp h)
  · intro hsafe henv
    exact (isValidRefPath_iff ref).mpr (safe_passes hsafe henv)

/-- A ref with a variant of its name at the end of a segment. -/
theorem ref_path_safe_source : RefPathSafe "src/a.env.ts" :=
  ((ref_path_safe_iff "src/a.env.ts").1 (by decide)).mpr (by decide)

/-- A variant in a directory is accepted. -/
theorem nested_env_accepted :
    isValidRefPath "a/.env.local" = true ∧ ¬ RefPathSafe "a/.env.local" := by
  refine ⟨by decide, ?_⟩
  intro hsafe
  exact hsafe.secret ".env.local".toList (by decide) (.inr (by decide))

end PiMesh
