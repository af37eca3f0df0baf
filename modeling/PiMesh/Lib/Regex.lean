/-
Regular expressions that backtrack.

A match is found by trying: `runs` lists the places where a match that begins here can end, in the
order in which a backtracking engine comes by them, and the engine takes the first one.  Beside the
text that is left, a pattern sees one character more, the one before it, because an edge depends on
both sides.

Two texts that can be read side by side have the same matches, as far as a pattern looks at them:
`runs_follow` is the one induction on patterns that this takes.
-/
import Mathlib.Data.List.Basic

namespace Regex

variable {α : Type}

/-- A place in a text: the character before it, and what is left. -/
structure Cursor (α : Type) where
  before : Option α
  rest : List α

/-- One side ends or begins a word, and the other does not. -/
def Cursor.atEdge (c : Cursor α) (word : α → Bool) : Bool :=
  c.before.any word != c.rest.head?.any word

inductive Pattern (α : Type) where
  | empty
  | char (p : α → Bool)
  /-- `\b`. -/
  | edge (word : α → Bool)
  | seq (a b : Pattern α)
  | alt (a b : Pattern α)
  /-- As many as possible. -/
  | many (p : α → Bool)
  /-- As few as possible. -/
  | few (p : α → Bool)

/-! ### Matching -/

def greedy (p : α → Bool) : Option α → List α → List (Cursor α)
  | b, [] => [⟨b, []⟩]
  | b, d :: rest => if p d then greedy p (some d) rest ++ [⟨b, d :: rest⟩] else [⟨b, d :: rest⟩]

def reluctant (p : α → Bool) : Option α → List α → List (Cursor α)
  | b, [] => [⟨b, []⟩]
  | b, d :: rest => ⟨b, d :: rest⟩ :: if p d then reluctant p (some d) rest else []

namespace Pattern

/-- Where a match can end, the preferred end first. -/
def runs : Pattern α → Cursor α → List (Cursor α)
  | .empty, c => [c]
  | .char _, ⟨_, []⟩ => []
  | .char p, ⟨_, d :: rest⟩ => if p d then [⟨some d, rest⟩] else []
  | .edge word, c => if c.atEdge word then [c] else []
  | .seq a b, c => (a.runs c).flatMap b.runs
  | .alt a b, c => a.runs c ++ b.runs c
  | .many p, c => greedy p c.before c.rest
  | .few p, c => reluctant p c.before c.rest

/-- The end of the match that is found. -/
def exec (a : Pattern α) (c : Cursor α) : Option (Cursor α) := (a.runs c).head?

/-- The characters one after the other. -/
def lit [BEq α] : List α → Pattern α
  | [] => .empty
  | x :: xs => .seq (.char (· == x)) (lit xs)

/-- The first of them that matches. -/
def oneOf : List (Pattern α) → Pattern α
  | [] => .char fun _ => false
  | [a] => a
  | a :: rest => .alt a (oneOf rest)

/-- One or more. -/
def plus (p : α → Bool) : Pattern α := .seq (.char p) (.many p)

def times : Nat → (α → Bool) → Pattern α
  | 0, _ => .empty
  | n + 1, p => .seq (.char p) (times n p)

/-- At least so many. -/
def atLeast (n : Nat) (p : α → Bool) : Pattern α := .seq (times n p) (.many p)

/-- Replace the matches, from left to right, by what is made of each.  What was matched is skipped;
behind an empty match one character is passed over. -/
def replaceFrom (a : Pattern α) (r : List α → List α) : Nat → Option α → List α → List α
  | _, b, [] => if (a.exec ⟨b, []⟩).isSome then r [] else []
  | skip + 1, _, d :: rest => replaceFrom a r skip (some d) rest
  | 0, b, d :: rest =>
      match a.exec ⟨b, d :: rest⟩ with
      | none => d :: replaceFrom a r 0 (some d) rest
      | some c =>
          if c.rest.length = rest.length + 1 then r [] ++ d :: replaceFrom a r 0 (some d) rest
          else
            r ((d :: rest).take (rest.length + 1 - c.rest.length)) ++
              replaceFrom a r (rest.length - c.rest.length) (some d) rest

/-- Replace them all by one text. -/
def replaceAll (a : Pattern α) (r text : List α) : List α := a.replaceFrom (fun _ => r) 0 none text

/-- Replace each by a text of its own. -/
def replaceEach (a : Pattern α) (r : List α → List α) (text : List α) : List α :=
  a.replaceFrom r 0 none text

end Pattern

/-! ### Reading on -/

/-- The second place comes after the first, with such characters between them. -/
inductive Reads (p : α → Bool) : Cursor α → Cursor α → Prop where
  | here (c : Cursor α) : Reads p c c
  | more {b : Option α} {d : α} {rest : List α} {c : Cursor α} :
      p d = true → Reads p ⟨some d, rest⟩ c → Reads p ⟨b, d :: rest⟩ c

/-- The second place comes after the first. -/
abbrev Later : Cursor α → Cursor α → Prop := Reads fun _ => true

section Reads

variable {p : α → Bool} {c c' c'' : Cursor α}

theorem Reads.later (h : Reads p c c') : Later c c' := by
  induction h with
  | here c => exact .here c
  | more _ _ ih => exact .more rfl ih

theorem Reads.trans (h : Reads p c c') (h' : Reads p c' c'') : Reads p c c'' := by
  induction h with
  | here c => exact h'
  | more hd _ ih => exact .more hd (ih h')

theorem Reads.length_le (h : Reads p c c') : c'.rest.length ≤ c.rest.length := by
  induction h with
  | here c => exact Nat.le_refl _
  | more _ _ ih => exact Nat.le_succ_of_le ih

theorem mem_greedy_iff {b : Option α} {l : List α} : c' ∈ greedy p b l ↔ Reads p ⟨b, l⟩ c' := by
  induction l generalizing b with
  | nil =>
      constructor
      · intro h
        rw [List.mem_singleton.mp h]
        exact .here _
      · intro h
        cases h
        simp [greedy]
  | cons d rest ih =>
      by_cases hd : p d = true
      · simp only [greedy, hd, if_true, List.mem_append, List.mem_singleton, ih]
        constructor
        · intro h
          rcases h with hmore | rfl
          · exact .more hd hmore
          · exact .here _
        · intro h
          cases h with
          | here => exact .inr rfl
          | more _ hmore => exact .inl hmore
      · simp only [greedy, hd, if_false, Bool.false_eq_true, List.mem_singleton]
        constructor
        · intro h
          rw [h]
          exact .here _
        · intro h
          cases h with
          | here => rfl
          | more hd' _ => exact absurd hd' hd

theorem mem_reluctant_iff {b : Option α} {l : List α} :
    c' ∈ reluctant p b l ↔ Reads p ⟨b, l⟩ c' := by
  induction l generalizing b with
  | nil =>
      constructor
      · intro h
        rw [List.mem_singleton.mp h]
        exact .here _
      · intro h
        cases h
        simp [reluctant]
  | cons d rest ih =>
      by_cases hd : p d = true
      · simp only [reluctant, hd, if_true, List.mem_cons, ih]
        constructor
        · intro h
          rcases h with rfl | hmore
          · exact .here _
          · exact .more hd hmore
        · intro h
          cases h with
          | here => exact .inl rfl
          | more _ hmore => exact .inr hmore
      · simp only [reluctant, hd, if_false, Bool.false_eq_true, List.mem_singleton]
        constructor
        · intro h
          rw [h]
          exact .here _
        · intro h
          cases h with
          | here => rfl
          | more hd' _ => exact absurd hd' hd

/-- As many as possible: the preferred end is where none can follow. -/
theorem greedy_head (p : α → Bool) (b : Option α) (l : List α) :
    ∃ c, (greedy p b l).head? = some c ∧ c.rest.head?.any p = false := by
  induction l generalizing b with
  | nil => exact ⟨_, rfl, rfl⟩
  | cons d rest ih =>
      by_cases hd : p d = true
      · obtain ⟨c, hc, hnot⟩ := ih (some d)
        refine ⟨c, ?_, hnot⟩
        rw [greedy, if_pos hd, List.head?_append, hc]
        rfl
      · refine ⟨⟨b, d :: rest⟩, ?_, by simpa using hd⟩
        rw [greedy, if_neg hd]
        rfl

end Reads

/-! ### What a run is -/

namespace Pattern

variable {a b : Pattern α} {p word : α → Bool} {c c' : Cursor α}

theorem mem_runs_seq : c' ∈ (seq a b).runs c ↔ ∃ m ∈ a.runs c, c' ∈ b.runs m := List.mem_flatMap

theorem mem_runs_alt : c' ∈ (alt a b).runs c ↔ c' ∈ a.runs c ∨ c' ∈ b.runs c := List.mem_append

theorem mem_runs_many : c' ∈ (many p).runs c ↔ Reads p c c' := mem_greedy_iff

theorem mem_runs_few : c' ∈ (few p).runs c ↔ Reads p c c' := mem_reluctant_iff

theorem mem_runs_edge : c' ∈ (edge word).runs c ↔ c.atEdge word = true ∧ c' = c := by
  by_cases h : c.atEdge word = true
  · simp [runs, h]
  · simp [runs, h]

theorem mem_runs_char : c' ∈ (char p).runs c ↔
    ∃ d rest, c.rest = d :: rest ∧ p d = true ∧ c' = ⟨some d, rest⟩ := by
  obtain ⟨before, rest⟩ := c
  cases rest with
  | nil => simp [runs]
  | cons d rest =>
      by_cases hd : p d = true
      · simp [runs, hd]
      · simp [runs, hd]

theorem exec_mem (h : a.exec c = some c') : c' ∈ a.runs c := List.mem_of_head? h

theorem exec_eq_none : a.exec c = none ↔ a.runs c = [] := List.head?_eq_none_iff

/-- The first match of a sequence ends with the first match of its second part. -/
theorem exec_seq (h : (seq a b).exec c = some c') : ∃ m ∈ a.runs c, b.exec m = some c' := by
  unfold exec runs at h
  rw [List.head?_flatMap] at h
  obtain ⟨m, hm, hexec⟩ := List.exists_of_findSome?_eq_some h
  exact ⟨m, hm, hexec⟩

theorem exec_many (h : (many p).exec c = some c') : c'.rest.head?.any p = false := by
  obtain ⟨first, hfirst, hnot⟩ := greedy_head p c.before c.rest
  have hsame : some c' = some first := h.symm.trans hfirst
  rw [Option.some.inj hsame]
  exact hnot

/-- A match goes forward. -/
theorem later_of_mem {a : Pattern α} {c c' : Cursor α} (h : c' ∈ a.runs c) : Later c c' := by
  induction a generalizing c c' with
  | empty =>
      rw [List.mem_singleton.mp h]
      exact .here c
  | char p =>
      obtain ⟨d, rest, hrest, -, rfl⟩ := mem_runs_char.mp h
      obtain ⟨before, rest'⟩ := c
      obtain rfl : rest' = d :: rest := hrest
      exact .more rfl (.here _)
  | edge word =>
      rw [(mem_runs_edge.mp h).2]
      exact .here c
  | seq a b iha ihb =>
      obtain ⟨m, hm, hc'⟩ := mem_runs_seq.mp h
      exact (iha hm).trans (ihb hc')
  | alt a b iha ihb =>
      rcases mem_runs_alt.mp h with h | h
      · exact iha h
      · exact ihb h
  | many p => exact (mem_runs_many.mp h).later
  | few p => exact (mem_runs_few.mp h).later

/-- Every match reads something. -/
def consumes : Pattern α → Bool
  | .char _ => true
  | .seq a b => a.consumes || b.consumes
  | .alt a b => a.consumes && b.consumes
  | _ => false

theorem length_lt {a : Pattern α} {c c' : Cursor α} (hreads : a.consumes = true)
    (h : c' ∈ a.runs c) : c'.rest.length < c.rest.length := by
  induction a generalizing c c' with
  | char p =>
      obtain ⟨d, rest, hrest, -, rfl⟩ := mem_runs_char.mp h
      simp [hrest]
  | seq a b iha ihb =>
      obtain ⟨m, hm, hc'⟩ := mem_runs_seq.mp h
      have hfirst := (later_of_mem hm).length_le
      have hsecond := (later_of_mem hc').length_le
      rcases Bool.or_eq_true_iff.mp hreads with ha | hb
      · have hlt := iha ha hm
        omega
      · have hlt := ihb hb hc'
        omega
  | alt a b iha ihb =>
      obtain ⟨ha, hb⟩ := Bool.and_eq_true_iff.mp hreads
      rcases mem_runs_alt.mp h with h | h
      · exact iha ha h
      · exact ihb hb h
  | _ => simp [consumes] at hreads

/-- At the end of the text nothing can be read. -/
theorem runs_end {b : Option α} (hreads : a.consumes = true) : a.runs ⟨b, []⟩ = [] := by
  apply List.eq_nil_iff_forall_not_mem.mpr
  intro c' h
  have hlt := length_lt hreads h
  simp at hlt

/-! ### Simulation -/

/-- All characters that are read are allowed. -/
def Over (allowed : α → Prop) : Pattern α → Prop
  | .char p | .many p | .few p => ∀ d, p d = true → allowed d
  | .seq a b | .alt a b => a.Over allowed ∧ b.Over allowed
  | _ => True

theorem over_lit [BEq α] [LawfulBEq α] {allowed : α → Prop} {l : List α}
    (h : ∀ x ∈ l, allowed x) : (lit l).Over allowed := by
  induction l with
  | nil => trivial
  | cons x xs ih =>
      refine ⟨?_, ih fun y hy => h y (List.mem_cons_of_mem x hy)⟩
      intro d hd
      rw [eq_of_beq hd]
      exact h x List.mem_cons_self

theorem over_oneOf {allowed : α → Prop} {l : List (Pattern α)} (h : ∀ a ∈ l, a.Over allowed) :
    (oneOf l).Over allowed := by
  induction l with
  | nil =>
      intro d hd
      simp at hd
  | cons a rest ih =>
      have ih := ih fun b hb => h b (List.mem_cons_of_mem a hb)
      cases rest with
      | nil => exact h a List.mem_cons_self
      | cons b rest => exact ⟨h a List.mem_cons_self, ih⟩

/-- What a word is, at each edge. -/
def edges : Pattern α → List (α → Bool)
  | .edge word => [word]
  | .seq a b | .alt a b => a.edges ++ b.edges
  | _ => []

section Simulation

variable {allowed : α → Prop} {Rel : Cursor α → Cursor α → Prop}

/-- One text can be read along with another. -/
def Follows (allowed : α → Prop) (Rel : Cursor α → Cursor α → Prop) : Prop :=
  ∀ c b d rest, Rel c ⟨b, d :: rest⟩ → allowed d →
    ∃ before o, c = ⟨before, d :: o⟩ ∧ Rel ⟨some d, o⟩ ⟨some d, rest⟩

theorem reads_follow (hfollows : Follows allowed Rel) {p : α → Bool}
    (hp : ∀ d, p d = true → allowed d) {c u u' : Cursor α} (hrel : Rel c u) (h : Reads p u u') :
    ∃ c', Reads p c c' ∧ Rel c' u' := by
  induction h generalizing c with
  | here u => exact ⟨c, .here c, hrel⟩
  | more hd _ ih =>
      obtain ⟨before, o, rfl, hnext⟩ := hfollows _ _ _ _ hrel (hp _ hd)
      obtain ⟨c', hreads, hrel'⟩ := ih hnext
      exact ⟨c', .more hd hreads, hrel'⟩

/-- **What matches in one text matches in the other, which can be read along with it and has an
edge wherever it has one.** -/
theorem runs_follow {a : Pattern α} (hover : a.Over allowed) (hfollows : Follows allowed Rel)
    (hedges : ∀ word ∈ a.edges, ∀ c u, Rel c u → u.atEdge word = true → c.atEdge word = true)
    {c u u' : Cursor α} (hrel : Rel c u) (h : u' ∈ a.runs u) : ∃ c' ∈ a.runs c, Rel c' u' := by
  induction a generalizing c u u' with
  | empty =>
      rw [List.mem_singleton.mp h]
      exact ⟨c, List.mem_singleton.mpr rfl, hrel⟩
  | char p =>
      obtain ⟨d, rest, hrest, hd, rfl⟩ := mem_runs_char.mp h
      obtain ⟨before, rest'⟩ := u
      obtain rfl : rest' = d :: rest := hrest
      obtain ⟨b, o, rfl, hnext⟩ := hfollows _ _ _ _ hrel (hover d hd)
      exact ⟨⟨some d, o⟩, mem_runs_char.mpr ⟨d, o, rfl, hd, rfl⟩, hnext⟩
  | edge word =>
      obtain ⟨hedge, rfl⟩ := mem_runs_edge.mp h
      exact ⟨c, mem_runs_edge.mpr ⟨hedges word (by simp [edges]) c u' hrel hedge, rfl⟩, hrel⟩
  | seq a b iha ihb =>
      obtain ⟨m, hm, hu'⟩ := mem_runs_seq.mp h
      obtain ⟨cm, hcm, hrelm⟩ := iha hover.1
        (fun word hword => hedges word (by simp [edges, hword])) hrel hm
      obtain ⟨c', hc', hrel'⟩ := ihb hover.2
        (fun word hword => hedges word (by simp [edges, hword])) hrelm hu'
      exact ⟨c', mem_runs_seq.mpr ⟨cm, hcm, hc'⟩, hrel'⟩
  | alt a b iha ihb =>
      rcases mem_runs_alt.mp h with h | h
      · obtain ⟨c', hc', hrel'⟩ := iha hover.1
          (fun word hword => hedges word (by simp [edges, hword])) hrel h
        exact ⟨c', mem_runs_alt.mpr (.inl hc'), hrel'⟩
      · obtain ⟨c', hc', hrel'⟩ := ihb hover.2
          (fun word hword => hedges word (by simp [edges, hword])) hrel h
        exact ⟨c', mem_runs_alt.mpr (.inr hc'), hrel'⟩
  | many p =>
      obtain ⟨c', hreads, hrel'⟩ := reads_follow hfollows hover hrel (mem_runs_many.mp h)
      exact ⟨c', mem_runs_many.mpr hreads, hrel'⟩
  | few p =>
      obtain ⟨c', hreads, hrel'⟩ := reads_follow hfollows hover hrel (mem_runs_few.mp h)
      exact ⟨c', mem_runs_few.mpr hreads, hrel'⟩

end Simulation

/-- The text goes on with a character that is not allowed. -/
def CutAt (x : α) (c u : Cursor α) : Prop :=
  u.before = c.before ∧ ∃ t, u.rest = c.rest ++ x :: t

/-- A match does not get past a character it may not read. -/
theorem runs_cut {allowed : α → Prop} {x : α} (hover : a.Over allowed) (hx : ¬ allowed x)
    (hedges : ∀ word ∈ a.edges, word x = false) {c u u' : Cursor α} (hcut : CutAt x c u)
    (h : u' ∈ a.runs u) : ∃ c' ∈ a.runs c, CutAt x c' u' := by
  refine runs_follow hover ?_ ?_ hcut h
  · intro c b d rest hrel hd
    obtain ⟨-, t, hrest⟩ := hrel
    obtain ⟨before, o⟩ := c
    cases o with
    | nil =>
        obtain ⟨rfl, rfl⟩ := List.cons.inj hrest
        exact absurd hd hx
    | cons e o =>
        obtain ⟨rfl, rfl⟩ := List.cons.inj hrest
        exact ⟨before, o, rfl, rfl, t, rfl⟩
  · intro word hword c u hrel hedge
    obtain ⟨hbefore, t, hrest⟩ := hrel
    unfold Cursor.atEdge at hedge ⊢
    rw [hbefore, hrest] at hedge
    cases hc : c.rest with
    | nil =>
        rw [hc, List.nil_append, List.head?_cons, Option.any_some, hedges word hword] at hedge
        exact hedge
    | cons e o =>
        rw [hc] at hedge
        exact hedge

/-- The character is in no class of the pattern. -/
def refuses (x : α) : Pattern α → Bool
  | .char p | .many p | .few p => !p x
  | .seq a b | .alt a b => a.refuses x && b.refuses x
  | _ => true

theorem over_of_refuses {x y : α} (hx : a.refuses x = true) (hy : a.refuses y = true) :
    a.Over fun d => d ≠ x ∧ d ≠ y := by
  have hclass : ∀ p : α → Bool, (!p x) = true → (!p y) = true →
      ∀ d, p d = true → d ≠ x ∧ d ≠ y := by
    intro p hpx hpy d hd
    constructor
    · intro heq
      rw [heq] at hd
      simp [hd] at hpx
    · intro heq
      rw [heq] at hd
      simp [hd] at hpy
  induction a with
  | char p => exact hclass p hx hy
  | many p => exact hclass p hx hy
  | few p => exact hclass p hx hy
  | seq a b iha ihb =>
      obtain ⟨hax, hbx⟩ := Bool.and_eq_true_iff.mp hx
      obtain ⟨hay, hby⟩ := Bool.and_eq_true_iff.mp hy
      exact ⟨iha hax hay, ihb hbx hby⟩
  | alt a b iha ihb =>
      obtain ⟨hax, hbx⟩ := Bool.and_eq_true_iff.mp hx
      obtain ⟨hay, hby⟩ := Bool.and_eq_true_iff.mp hy
      exact ⟨iha hax hay, ihb hbx hby⟩
  | _ => trivial

/-- A match begins with a character that may be read. -/
theorem exists_first_read {allowed : α → Prop} (hover : a.Over allowed) (hedges : a.edges = [])
    (hreads : a.consumes = true) (h : c' ∈ a.runs c) : ∃ d o, c.rest = d :: o ∧ allowed d := by
  obtain ⟨b, rest⟩ := c
  cases rest with
  | nil =>
      rw [runs_end hreads] at h
      simp at h
  | cons d o =>
      refine ⟨d, o, rfl, ?_⟩
      by_contra hd
      have hcut : CutAt d ⟨b, []⟩ ⟨b, d :: o⟩ := ⟨rfl, o, rfl⟩
      obtain ⟨c₀, hc₀, -⟩ := runs_cut hover hd (by simp [hedges]) hcut h
      rw [runs_end hreads] at hc₀
      simp at hc₀

/-! ### Clean texts -/

/-- There is no match from here on. -/
def Clean (a : Pattern α) (c : Cursor α) : Prop := ∀ c', Later c c' → a.runs c' = []

/-- Look for a match at every place. -/
def found (a : Pattern α) : Option α → List α → Bool
  | b, [] => !(a.runs ⟨b, []⟩).isEmpty
  | b, d :: rest => !(a.runs ⟨b, d :: rest⟩).isEmpty || found a (some d) rest

theorem found_eq_false_iff {b : Option α} {l : List α} : a.found b l = false ↔ a.Clean ⟨b, l⟩ := by
  induction l generalizing b with
  | nil =>
      simp only [found, Bool.not_eq_false', List.isEmpty_iff]
      constructor
      · intro h c' hlater
        cases hlater
        exact h
      · intro h
        exact h _ (.here _)
  | cons d rest ih =>
      simp only [found, Bool.or_eq_false_iff, Bool.not_eq_false', List.isEmpty_iff, ih]
      constructor
      · intro h c' hlater
        cases hlater with
        | here => exact h.1
        | more _ hrest => exact h.2 c' hrest
      · intro h
        exact ⟨h _ (.here _), fun c' hrest => h c' (.more rfl hrest)⟩

instance (a : Pattern α) (c : Cursor α) : Decidable (a.Clean c) :=
  decidable_of_iff (a.found c.before c.rest = false) found_eq_false_iff

/-- Where nothing matches nothing is replaced. -/
theorem replaceFrom_clean {r : List α → List α} {b : Option α} {l : List α} (h : a.Clean ⟨b, l⟩) :
    a.replaceFrom r 0 b l = l := by
  induction l generalizing b with
  | nil =>
      have hnone : a.exec ⟨b, []⟩ = none := exec_eq_none.mpr (h _ (.here _))
      simp [replaceFrom, hnone]
  | cons d rest ih =>
      have hnone : a.exec ⟨b, d :: rest⟩ = none := exec_eq_none.mpr (h _ (.here _))
      rw [replaceFrom, hnone]
      exact congrArg (d :: ·) (ih fun c' hlater => h c' (.more rfl hlater))

end Pattern

end Regex
