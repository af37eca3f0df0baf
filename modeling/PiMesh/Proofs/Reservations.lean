/-
Which reservations stop an edit.

`findConflict` reports the first reservation of somebody else that has not expired and whose normal
form is that of the file or a directory it lies in.  So it comes down to the normal form, and there
one spelling too many is told apart: only one `./` is taken from the front.  A path is in normal
form after one pass, and its spellings have one normal form, exactly if none of them begins with
two.
-/
import PiMesh.Shared.Reservations
import PiMesh.Js.LowerCase
import PiMesh.Js.Search
import PiMesh.Broker.Reference

namespace PiMesh

open Js

/-! ### What the result speaks of -/

/-- A path without any `./` in front. -/
def withoutDots : List Char → List Char
  | '.' :: '/' :: rest => withoutDots rest
  | l => l

/-- Two spellings of a path: other slashes, and any number of `./` in front. -/
def SameSpelling (p q : String) : Prop :=
  withoutDots (forwardSlashes p) = withoutDots (forwardSlashes q)

instance (p q : String) : Decidable (SameSpelling p q) := inferInstanceAs (Decidable (_ = _))

/-- The path begins with two `./`, in whatever slashes. -/
def dotsTwice (p : String) : Bool := "././".toList.isPrefixOf (forwardSlashes p)

section Claim

variable (windows : Bool) (rt : Runtime)

/-- Two spellings are not told apart. -/
structure SpellingsAgree (p q : String) : Prop where
  idempotent : ∀ path ∈ [p, q], normalizePath windows rt (normalizePath windows rt path) =
    normalizePath windows rt path
  file : ∀ pattern, pathMatchesReservation windows rt p pattern =
    pathMatchesReservation windows rt q pattern
  pattern : ∀ file, pathMatchesReservation windows rt file p =
    pathMatchesReservation windows rt file q

/-- The pattern is the file, or a directory that it is or lies in. -/
def Covers (pattern file : String) : Prop :=
  let pat := normalizePath windows rt pattern
  let f := normalizePath windows rt file
  pat = f ∨ (endsWithString pat "/" = true ∧ (startsWithString f pat = true ∨ f ++ "/" = pat))

/-- Somebody else has reserved the file, and still holds it. -/
structure Blocks (file me : String) (ttlMs now : Int) (c : Conflict) : Prop where
  other : c.1 ≠ me
  held : isReservationExpired rt c.2 ttlMs now = false
  covers : Covers windows rt c.2.pattern file

/-- All reservations, each with its holder, in the order of the map and of its lists. -/
def heldBy (reservations : Map String (List FileReservation)) : List Conflict :=
  reservations.entries.flatMap fun e => e.2.map fun r => (e.1, r)

/-- `found` is the first of the reservations that block. -/
def FirstOf (blocks : Conflict → Prop) (held : List Conflict) : Option Conflict → Prop
  | none => ∀ c ∈ held, ¬ blocks c
  | some c => ∃ before after, held = before ++ c :: after ∧ blocks c ∧ ∀ b ∈ before, ¬ blocks b

end Claim

/-! ### Normal forms -/

theorem withoutDots_of_once {l : List Char} (h : "././".toList.isPrefixOf l = false) :
    withoutDots l = withoutDot l := by
  unfold withoutDot
  split
  · next rest =>
      rw [withoutDots]
      unfold withoutDots
      split
      · simp at h
      · rfl
  · next hnot =>
      unfold withoutDots
      split
      · next rest => exact absurd rfl (hnot rest)
      · rfl

theorem withoutDot_suffix (l : List Char) : withoutDot l <:+ l := by
  unfold withoutDot
  split
  · next rest => exact ⟨['.', '/'], rfl⟩
  · exact List.suffix_refl l

/-- Something is left to take away exactly if there were two. -/
theorem withoutDot_prefix_iff (l : List Char) :
    "./".toList <+: withoutDot l ↔ "././".toList.isPrefixOf l = true := by
  have hfront : "./".toList = ['.', '/'] := rfl
  have htwice : "././".toList = ['.', '/', '.', '/'] := rfl
  rw [hfront, htwice, List.isPrefixOf_iff_prefix]
  unfold withoutDot
  split
  · next rest => simp [List.cons_prefix_cons]
  · next hnot =>
      constructor
      · rintro ⟨rest, rfl⟩
        exact absurd rfl (hnot rest)
      · rintro ⟨rest, rfl⟩
        exact absurd rfl (hnot _)

theorem withoutDot_eq_self_iff (l : List Char) : withoutDot l = l ↔ ¬ "./".toList <+: l := by
  have hfront : "./".toList = ['.', '/'] := rfl
  rw [hfront]
  unfold withoutDot
  split
  · next rest =>
      have hne : rest ≠ '.' :: '/' :: rest := by
        intro h
        have hlength := congrArg List.length h
        simp only [List.length_cons] at hlength
        omega
      simp [List.cons_prefix_cons, hne]
  · next hnot =>
      simp only [true_iff]
      rintro ⟨rest, rfl⟩
      exact hnot rest rfl

theorem forwardSlashes_eq_self {s : String} (h : '\\' ∉ s.toList) : forwardSlashes s = s.toList := by
  refine (List.map_congr_left ?_).trans (List.map_id _)
  intro c hc
  rw [if_neg fun heq => h (by rw [← heq]; exact hc)]
  rfl

theorem not_mem_forwardSlashes (p : String) : '\\' ∉ forwardSlashes p := by
  intro hmem
  obtain ⟨c, -, hc⟩ := List.mem_map.mp hmem
  by_cases h : c = '\\'
  · rw [if_pos h] at hc
    exact absurd hc (by decide)
  · rw [if_neg h] at hc
    exact h hc

theorem caseless_dot : ∀ c ∈ "./".toList, isCaseless c = true :=
  List.all_eq_true.mp (by decide)

section Norm

variable (windows : Bool) {rt : Runtime} (hlower : LowersCase rt.toLowerCase)
include hlower

theorem normalizePath_no_backslash (p : String) :
    '\\' ∉ (normalizePath windows rt p).toList := by
  have hplain : '\\' ∉ withoutDot (forwardSlashes p) := fun hmem =>
    not_mem_forwardSlashes p ((withoutDot_suffix _).subset hmem)
  unfold normalizePath
  by_cases hw : windows = true
  · rw [if_pos hw]
    intro hmem
    have hin := hlower.mem (by decide) hmem
    rw [String.toList_ofList] at hin
    exact hplain hin
  · rw [if_neg hw, String.toList_ofList]
    exact hplain

/-- A normal form begins with `./` exactly if the path did twice. -/
theorem normalizePath_prefix_iff (p : String) :
    "./".toList <+: (normalizePath windows rt p).toList ↔ dotsTwice p = true := by
  unfold dotsTwice
  rw [← withoutDot_prefix_iff]
  unfold normalizePath
  by_cases hw : windows = true
  · rw [if_pos hw, hlower.prefix_iff caseless_dot]
    simp only [String.toList_ofList]
  · rw [if_neg hw]
    simp only [String.toList_ofList]

theorem normalizePath_again (p : String) :
    normalizePath windows rt (normalizePath windows rt p) =
      String.ofList (withoutDot (normalizePath windows rt p).toList) := by
  have hslashes := forwardSlashes_eq_self (normalizePath_no_backslash windows hlower p)
  rw [normalizePath, hslashes]
  by_cases hw : windows = true
  · have hlow : (normalizePath windows rt p) =
        rt.toLowerCase (String.ofList (withoutDot (forwardSlashes p))) := by
      rw [normalizePath, if_pos hw]
    rw [if_pos hw]
    exact hlower.settled _ _ (by rw [hlow]; exact (withoutDot_suffix _).isInfix)
  · rw [if_neg hw]

/-- **Normalizing twice is normalizing once, unless the path begins with two `./`.** -/
theorem normalizePath_again_iff (p : String) :
    normalizePath windows rt (normalizePath windows rt p) = normalizePath windows rt p ↔
      dotsTwice p = false := by
  have hsame : String.ofList (withoutDot (normalizePath windows rt p).toList)
      = normalizePath windows rt p ↔
        withoutDot (normalizePath windows rt p).toList = (normalizePath windows rt p).toList := by
    rw [← String.toList_inj, String.toList_ofList]
  rw [normalizePath_again windows hlower, hsame, withoutDot_eq_self_iff, normalizePath_prefix_iff windows hlower,
    Bool.not_eq_true]

end Norm

/-- Spellings that begin with one `./` at most have one normal form. -/
theorem normalizePath_spelling (windows : Bool) (rt : Runtime) {p q : String}
    (hsame : SameSpelling p q) (hp : dotsTwice p = false) (hq : dotsTwice q = false) :
    normalizePath windows rt p = normalizePath windows rt q := by
  unfold SameSpelling at hsame
  rw [withoutDots_of_once hp, withoutDots_of_once hq] at hsame
  unfold normalizePath
  rw [hsame]

/-! ### Conflicts -/

section Conflicts

variable (windows : Bool) (rt : Runtime)

theorem pathMatches_iff (file pattern : String) :
    pathMatchesReservation windows rt file pattern = true ↔ Covers windows rt pattern file := by
  unfold pathMatchesReservation Covers
  dsimp only
  by_cases hdir : endsWithString (normalizePath windows rt pattern) "/" = true
  · rw [if_pos hdir, Bool.or_eq_true, beq_iff_eq]
    constructor
    · intro h
      exact .inr ⟨hdir, h⟩
    · intro h
      rcases h with heq | ⟨-, h⟩
      · left
        simp [startsWithString_iff, heq]
      · exact h
  · rw [if_neg hdir, beq_iff_eq]
    constructor
    · intro h
      exact .inl h.symm
    · intro h
      rcases h with heq | ⟨h, -⟩
      · exact heq.symm
      · exact absurd h hdir

/-- The test of the two loops. -/
def blocksTest (windows : Bool) (rt : Runtime) (file self : String) (ttlMs now : Int)
    (c : Conflict) : Bool :=
  c.1 != self && (!isReservationExpired rt c.2 ttlMs now &&
    pathMatchesReservation windows rt file c.2.pattern)

theorem blocksTest_iff {file self : String} {ttlMs now : Int} {c : Conflict} :
    blocksTest windows rt file self ttlMs now c = true ↔ Blocks windows rt file self ttlMs now c := by
  unfold blocksTest
  rw [Bool.and_eq_true, Bool.and_eq_true, bne_iff_ne, Bool.not_eq_true', pathMatches_iff windows rt]
  constructor
  · intro h
    exact ⟨h.1, h.2.1, h.2.2⟩
  · intro h
    exact ⟨h.other, h.held, h.covers⟩

/-- The two loops are one search. -/
theorem findConflict_eq (file : String) (reservations : Map String (List FileReservation))
    (self : String) (ttlMs now : Int) :
    findConflict windows rt file reservations self ttlMs now =
      (heldBy reservations).find? (blocksTest windows rt file self ttlMs now) := by
  unfold findConflict heldBy
  induction reservations.entries with
  | nil => rfl
  | cons e rest ih =>
      rw [List.findSome?_cons, List.flatMap_cons, List.find?_append, ih, List.find?_map]
      by_cases hself : e.1 = self
      · have hnone : e.2.find? (blocksTest windows rt file self ttlMs now ∘ fun r => (e.1, r)) = none := by
          rw [List.find?_eq_none]
          intro r _
          simp [blocksTest, hself]
        rw [hnone]
        simp only [hself, if_true, Option.map_none, Option.none_or]
      · have htest : (blocksTest windows rt file self ttlMs now ∘ fun r => (e.1, r)) = fun r =>
            !isReservationExpired rt r ttlMs now && pathMatchesReservation windows rt file r.pattern := by
          funext r
          simp [blocksTest, hself]
        rw [htest]
        simp only [hself, if_false]
        cases List.find? _ e.2 <;> rfl

theorem findConflict_first (file : String) (reservations : Map String (List FileReservation))
    (self : String) (ttlMs now : Int) :
    FirstOf (Blocks windows rt file self ttlMs now) (heldBy reservations)
      (findConflict windows rt file reservations self ttlMs now) := by
  rw [findConflict_eq]
  cases hfind : (heldBy reservations).find? (blocksTest windows rt file self ttlMs now) with
  | none =>
      intro c hc hblocks
      exact List.find?_eq_none.mp hfind c hc ((blocksTest_iff windows rt).mpr hblocks)
  | some c =>
      obtain ⟨htest, before, after, hheld, hbefore⟩ := List.find?_eq_some_iff_append.mp hfind
      refine ⟨before, after, hheld, (blocksTest_iff windows rt).mp htest, ?_⟩
      intro b hb hblocks
      have hnot := hbefore b hb
      rw [(blocksTest_iff windows rt).mpr hblocks] at hnot
      simp at hnot

end Conflicts

/-- **Two spellings of a path are not told apart exactly if neither begins with two `./`; and a
conflict is always the first reservation that blocks.** -/
theorem spellings_agree_iff (windows : Bool) {rt : Runtime} (hlower : LowersCase rt.toLowerCase)
    {p q : String} (hsame : SameSpelling p q) :
    (SpellingsAgree windows rt p q ↔ dotsTwice p = false ∧ dotsTwice q = false) ∧
    ∀ (file : String) (reservations : Map String (List FileReservation)) (self : String)
      (ttlMs now : Int), FirstOf (Blocks windows rt file self ttlMs now) (heldBy reservations)
        (findConflict windows rt file reservations self ttlMs now) := by
  refine ⟨?_, findConflict_first windows rt⟩
  constructor
  · intro h
    exact ⟨(normalizePath_again_iff windows hlower p).mp (h.idempotent p (by simp)),
      (normalizePath_again_iff windows hlower q).mp (h.idempotent q (by simp))⟩
  · intro h
    have hnorm := normalizePath_spelling windows rt hsame h.1 h.2
    refine ⟨?_, ?_, ?_⟩
    · intro path hpath
      rw [normalizePath_again_iff windows hlower]
      rcases List.mem_cons.mp hpath with rfl | hpath
      · exact h.1
      · rw [List.mem_singleton.mp hpath]
        exact h.2
    · intro pattern
      unfold pathMatchesReservation
      rw [hnorm]
    · intro file
      unfold pathMatchesReservation
      rw [hnorm]

/-- One file in two spellings. -/
theorem spellings_agree_src : SpellingsAgree true referenceRuntime ".\\src\\a.ts" "src/a.ts" :=
  (spellings_agree_iff true asciiLower_lowersCase (by decide)).1.mpr (by decide)

/-- A reserved file is edited under a spelling with two `./`. -/
theorem spellings_told_apart : SameSpelling "././a" "a" ∧
    pathMatchesReservation false referenceRuntime "a" "a" = true ∧
    pathMatchesReservation false referenceRuntime "././a" "a" = false ∧
    ¬ SpellingsAgree false referenceRuntime "././a" "a" := by
  have hyes : pathMatchesReservation false referenceRuntime "a" "a" = true := by decide
  have hno : pathMatchesReservation false referenceRuntime "././a" "a" = false := by decide
  refine ⟨by decide, hyes, hno, ?_⟩
  intro h
  have hfile := h.file "a"
  rw [hyes, hno] at hfile
  simp at hfile

/-- **An edit goes through exactly if no reservation blocks it.** -/
theorem onToolCall_none_iff (windows : Bool) (rt : Runtime) {tool : FileTool} (htool : tool ≠ .other)
    {path : String} (hpath : path ≠ "") (reservations : Map String (List FileReservation))
    (self : String) (ttlMs now : Int) :
    onToolCall windows rt true tool (some path) reservations self ttlMs now = none ↔
      ∀ c ∈ heldBy reservations, ¬ Blocks windows rt path self ttlMs now c := by
  have hfirst := findConflict_first windows rt path reservations self ttlMs now
  have hsome : (some path).filter (fun p => p ≠ "") = some path := by simp [hpath]
  have hother : (tool == FileTool.other) = false := by simpa using htool
  unfold onToolCall
  rw [hother, hsome]
  simp only [Bool.not_true, Bool.or_false, Bool.false_eq_true, if_false, Option.map_eq_none_iff]
  cases hfound : findConflict windows rt path reservations self ttlMs now with
  | none =>
      rw [hfound] at hfirst
      exact ⟨fun _ => hfirst, fun _ => rfl⟩
  | some c =>
      rw [hfound] at hfirst
      obtain ⟨before, after, hheld, hblocks, -⟩ := hfirst
      constructor
      · intro h
        simp at h
      · intro hnone
        exact absurd hblocks (hnone c (by rw [hheld]; simp))

end PiMesh
