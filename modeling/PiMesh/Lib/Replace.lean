/-
Replacing matches by a tag.

`Replaced` pairs each place of the result with the one of the text it stands for.  Where the
replacement is a tag between two brackets, a pattern that reads no bracket matches in the result
only where it has matched in the text, or inside of the tag: it is the same before and behind each
tag, except that words end there, which no match of a framed pattern needs.
-/
import PiMesh.Lib.Regex

namespace Regex

variable {α : Type}

/-- A replacement between two brackets, which belong to no word. -/
structure Tag (word : α → Bool) where
  opening : α
  inner : List α
  closing : α
  opening_edge : word opening = false
  closing_edge : word closing = false

variable {word : α → Bool}

def Tag.text (tag : Tag word) : List α := tag.opening :: (tag.inner ++ [tag.closing])

/-- The places of a result, each with the place of the text it stands for. -/
inductive Replaced (a : Pattern α) (tag : Tag word) : Cursor α → Cursor α → Prop where
  | done {b b' : Option α} : a.exec ⟨b, []⟩ = none → Replaced a tag ⟨b, []⟩ ⟨b', []⟩
  | keep {b b' : Option α} {d : α} {o u : List α} : a.exec ⟨b, d :: o⟩ = none →
      Replaced a tag ⟨some d, o⟩ ⟨some d, u⟩ → Replaced a tag ⟨b, d :: o⟩ ⟨b', d :: u⟩
  | swap {c c' : Cursor α} {b' : Option α} {u : List α} : a.exec c = some c' →
      Replaced a tag c' ⟨some tag.closing, u⟩ →
      Replaced a tag c ⟨b', tag.opening :: (tag.inner ++ tag.closing :: u)⟩

namespace Pattern

variable {a : Pattern α} {tag : Tag word}

/-- What was matched is passed over. -/
theorem replaceFrom_skip {r : List α → List α} {c c' : Cursor α} (h : Later c c') :
    a.replaceFrom r (c.rest.length - c'.rest.length) c.before c.rest =
      a.replaceFrom r 0 c'.before c'.rest := by
  induction h with
  | here c => rw [Nat.sub_self]
  | @more b d rest c' _ hlater ih =>
      have hle := hlater.length_le
      have hskip : (d :: rest).length - c'.rest.length = rest.length - c'.rest.length + 1 := by
        rw [List.length_cons]
        exact Nat.succ_sub hle
      show a.replaceFrom r ((d :: rest).length - c'.rest.length) b (d :: rest) = _
      rw [hskip, replaceFrom]
      exact ih

theorem replaced_replaceFrom (hreads : a.consumes = true) (c : Cursor α) (b' : Option α) :
    Replaced a tag c ⟨b', a.replaceFrom (fun _ => tag.text) 0 c.before c.rest⟩ := by
  induction hn : c.rest.length using Nat.strongRecOn generalizing c b' with
  | ind n ih =>
      obtain ⟨b, l⟩ := c
      cases l with
      | nil =>
          have hnone : a.exec ⟨b, []⟩ = none := exec_eq_none.mpr (runs_end hreads)
          have hnil : a.replaceFrom (fun _ => tag.text) 0 b [] = [] := by simp [replaceFrom, hnone]
          show Replaced a tag ⟨b, []⟩ ⟨b', a.replaceFrom (fun _ => tag.text) 0 b []⟩
          rw [hnil]
          exact .done hnone
      | cons d rest =>
          have hlength : n = rest.length + 1 := hn.symm
          show Replaced a tag ⟨b, d :: rest⟩ ⟨b', a.replaceFrom (fun _ => tag.text) 0 b (d :: rest)⟩
          rw [replaceFrom]
          cases hexec : a.exec ⟨b, d :: rest⟩ with
          | none =>
              have hnext := ih rest.length (by omega) ⟨some d, rest⟩ (some d) rfl
              exact .keep hexec hnext
          | some c' =>
              have hmem := exec_mem hexec
              have hlt := length_lt hreads hmem
              have hle : c'.rest.length ≤ rest.length := Nat.le_of_lt_succ hlt
              have hnext := ih c'.rest.length (by omega) c' (some tag.closing) rfl
              -- the match does not end where it began
              have hlater : Later ⟨some d, rest⟩ c' := by
                cases later_of_mem hmem with
                | here => exact absurd hlt (Nat.lt_irrefl _)
                | more _ hrest => exact hrest
              have hskip := replaceFrom_skip (a := a) (r := fun _ => tag.text) hlater
              simp only at hskip ⊢
              rw [if_neg (by omega), hskip]
              have htext : tag.text ++ a.replaceFrom (fun _ => tag.text) 0 c'.before c'.rest = tag.opening ::
                  (tag.inner ++ tag.closing :: a.replaceFrom (fun _ => tag.text) 0 c'.before c'.rest) := by
                simp [Tag.text]
              rw [htext]
              exact .swap hexec hnext

/-- A match begins at an edge, and ends where no word goes on. -/
structure Framed (a : Pattern α) (word : α → Bool) : Prop where
  start : ∀ {c c' : Cursor α}, a.exec c = some c' → c.atEdge word = true
  stop : ∀ {c c' : Cursor α}, a.exec c = some c' → c'.rest.head?.any word = true →
    c'.before.any word = false

/-- A match with an edge at either end. -/
theorem framed_of_edges : Framed (seq (edge word) (seq a (edge word))) word where
  start h := by
    obtain ⟨m, hm, -⟩ := mem_runs_seq.mp (exec_mem h)
    exact (mem_runs_edge.mp hm).1
  stop h hword := by
    obtain ⟨m, -, hrest⟩ := mem_runs_seq.mp (exec_mem h)
    obtain ⟨last, -, hlast⟩ := mem_runs_seq.mp hrest
    obtain ⟨hedge, rfl⟩ := mem_runs_edge.mp hlast
    unfold Cursor.atEdge at hedge
    rw [hword] at hedge
    simpa using hedge

/-- The character before is the same, or there is no word before and none goes on. -/
def Alike (word : α → Bool) (c u : Cursor α) : Prop :=
  u.before = c.before ∨
    (u.before.any word = false ∧ (c.rest.head?.any word = true → c.before.any word = false))

/-- A place of the result stands for one of the text. -/
structure StandsFor (a : Pattern α) (tag : Tag word) (u c : Cursor α) : Prop where
  replaced : Replaced a tag c u
  alike : Framed a word → Alike word c u

section StandsFor

variable {c u u' : Cursor α}

theorem standsFor_start (hreads : a.consumes = true) (text : List α) :
    StandsFor a tag ⟨none, a.replaceAll tag.text text⟩ ⟨none, text⟩ :=
  ⟨replaced_replaceFrom hreads ⟨none, text⟩ none, fun _ => .inl rfl⟩

/-- Behind a tag there is no word, and none goes on from the match. -/
theorem alike_swap {c' : Cursor α} {rest : List α} (h : a.exec c = some c')
    (hframed : Framed a word) : Alike word c' ⟨some tag.closing, rest⟩ :=
  .inr ⟨tag.closing_edge, hframed.stop h⟩

/-- An edge of the result is an edge of the text. -/
theorem StandsFor.atEdge (h : StandsFor a tag u c) (hframed : Framed a word)
    (hedge : u.atEdge word = true) : c.atEdge word = true := by
  have halike := h.alike hframed
  unfold Cursor.atEdge at hedge ⊢
  cases h.replaced with
  | done =>
      rcases halike with hsame | ⟨hnone, -⟩
      · simp only at hsame hedge ⊢
        rwa [hsame] at hedge
      · simp only at hnone hedge
        rw [hnone] at hedge
        simp at hedge
  | @keep b b' d o u =>
      rcases halike with hsame | ⟨hnone, hword⟩
      · simp only at hsame hedge ⊢
        rwa [hsame] at hedge
      · simp only [List.head?_cons, Option.any_some] at hnone hword hedge ⊢
        rw [hnone] at hedge
        have hd : word d = true := by simpa using hedge
        rw [hword hd, hd]
        rfl
  | swap hexec => exact hframed.start hexec

/-- What is no bracket is read in both. -/
theorem standsFor_follows {allowed : α → Prop} (hopening : ¬ allowed tag.opening) :
    Follows allowed fun c u => StandsFor a tag u c := by
  intro c b d rest hrel hd
  cases hrel.replaced with
  | keep _ hnext => exact ⟨_, _, rfl, hnext, fun _ => .inl rfl⟩
  | swap => exact absurd hd hopening

theorem later_append {x : α} {b : Option α} {l t : List α} (h : Later ⟨b, l ++ x :: t⟩ u') :
    (∃ v, Later ⟨b, l⟩ v ∧ CutAt x v u') ∨ Later ⟨some x, t⟩ u' := by
  induction l generalizing b with
  | nil =>
      cases h with
      | here => exact .inl ⟨⟨b, []⟩, .here _, rfl, t, rfl⟩
      | more _ hrest => exact .inr hrest
  | cons d l ih =>
      cases h with
      | here => exact .inl ⟨⟨b, d :: l⟩, .here _, rfl, t, rfl⟩
      | more _ hrest =>
          rcases ih hrest with ⟨v, hlater, hcut⟩ | hbehind
          · exact .inl ⟨v, .more rfl hlater, hcut⟩
          · exact .inr hbehind

/-- A place of the result stands for one of the text, or is inside of a tag. -/
theorem StandsFor.locate (h : StandsFor a tag u c) (hlater : Later u u') :
    (∃ c', Later c c' ∧ StandsFor a tag u' c') ∨
      ∃ v, Later ⟨some tag.opening, tag.inner⟩ v ∧ CutAt tag.closing v u' := by
  obtain ⟨hreplaced, halike⟩ := h
  induction hreplaced with
  | done hnone =>
      cases hlater
      exact .inl ⟨_, .here _, .done hnone, halike⟩
  | keep hnone hnext ih =>
      cases hlater with
      | here => exact .inl ⟨_, .here _, .keep hnone hnext, halike⟩
      | more _ hrest =>
          rcases ih hrest fun _ => .inl rfl with ⟨c', hc', hstands⟩ | hinside
          · exact .inl ⟨c', .more rfl hc', hstands⟩
          · exact .inr hinside
  | swap hexec hnext ih =>
      cases hlater with
      | here => exact .inl ⟨_, .here _, .swap hexec hnext, halike⟩
      | more _ hrest =>
          rcases later_append hrest with hinside | hbehind
          · exact .inr hinside
          · rcases ih hbehind (alike_swap hexec) with ⟨c', hc', hstands⟩ | hinside
            · exact .inl ⟨c', (later_of_mem (exec_mem hexec)).trans hc', hstands⟩
            · exact .inr hinside

end StandsFor

/-- The pattern reads no bracket of the tag, and matches nowhere inside of it. -/
structure Avoids (q : Pattern α) (tag : Tag word) : Prop where
  reads : q.Over fun d => d ≠ tag.opening ∧ d ≠ tag.closing
  edges : ∀ w ∈ q.edges, w = word
  consumes : q.consumes = true
  inner : q.Clean ⟨some tag.opening, tag.inner⟩

section Avoids

variable {q : Pattern α} {u : Cursor α} (h : q.Avoids tag)
include h

/-- It matches in the result only where it matches in the text. -/
theorem Avoids.runs (hframed : ∀ w ∈ q.edges, Framed a w) {c u' : Cursor α}
    (hstands : StandsFor a tag u c) (hu' : u' ∈ q.runs u) :
    ∃ c' ∈ q.runs c, StandsFor a tag u' c' := by
  refine runs_follow h.reads (standsFor_follows (by simp)) ?_ hstands hu'
  intro w hw c u hrel
  have hsame := h.edges w hw
  rw [hsame]
  exact hrel.atEdge (by rw [← hsame]; exact hframed w hw)

theorem Avoids.runs_inside {v : Cursor α} (hv : Later ⟨some tag.opening, tag.inner⟩ v)
    (hcut : CutAt tag.closing v u) : q.runs u = [] := by
  apply List.eq_nil_iff_forall_not_mem.mpr
  intro u' hu'
  obtain ⟨c', hc', -⟩ := runs_cut h.reads (by simp)
    (fun w hw => by rw [h.edges w hw]; exact tag.closing_edge) hcut hu'
  rw [h.inner v hv] at hc'
  simp at hc'

theorem Avoids.runs_opening (b : Option α) (rest : List α) :
    q.runs ⟨b, tag.opening :: rest⟩ = [] := by
  apply List.eq_nil_iff_forall_not_mem.mpr
  intro u' hu'
  have hcut : CutAt tag.opening ⟨b, []⟩ ⟨b, tag.opening :: rest⟩ := ⟨rfl, rest, rfl⟩
  obtain ⟨c', hc', -⟩ := runs_cut h.reads (by simp)
    (fun w hw => by rw [h.edges w hw]; exact tag.opening_edge) hcut hu'
  rw [runs_end h.consumes] at hc'
  simp at hc'

end Avoids

/-- A pattern whose matches go back to the text, and which begins with one that avoids the tag, does
not match in the result, if it has not matched in the text or is the one that was replaced. -/
theorem clean_replaceAll {q head : Pattern α} (hreads : a.consumes = true) (text : List α)
    (hback : ∀ u c, StandsFor a tag u c → q.runs u ≠ [] → q.runs c ≠ [])
    (hhead : ∀ u, head.runs u = [] → q.runs u = []) (havoids : head.Avoids tag)
    (htext : q = a ∨ q.Clean ⟨none, text⟩) :
    q.Clean ⟨none, a.replaceAll tag.text text⟩ := by
  intro u hu
  by_contra hmatch
  rcases (standsFor_start hreads text).locate hu with ⟨c, hc, hstands⟩ | ⟨v, hv, hcut⟩
  · have hmatched := hback u c hstands hmatch
    rcases htext with rfl | hclean
    · -- it would have been replaced
      cases hstands.replaced with
      | done hnone => exact hmatched (exec_eq_none.mp hnone)
      | keep hnone => exact hmatched (exec_eq_none.mp hnone)
      | swap => exact hmatch (hhead _ (havoids.runs_opening _ _))
    · exact hmatched (hclean c hc)
  · exact hmatch (hhead u (havoids.runs_inside hv hcut))

section Kinds

variable {q first last : Pattern α} {p : α → Bool} {text : List α}

/-- **A pattern that avoids the tag.** -/
theorem Avoids.clean (h : q.Avoids tag) (hframed : ∀ w ∈ q.edges, Framed a w)
    (hreads : a.consumes = true) (htext : q = a ∨ q.Clean ⟨none, text⟩) :
    q.Clean ⟨none, a.replaceAll tag.text text⟩ := by
  refine clean_replaceAll hreads text ?_ (fun u hu => hu) h htext
  intro u c hstands hmatch
  obtain ⟨u', hu'⟩ := List.exists_mem_of_ne_nil _ hmatch
  obtain ⟨c', hc', -⟩ := h.runs hframed hstands hu'
  exact List.ne_nil_of_mem hc'

theorem runs_seq_of_nil {u : Cursor α} (h : first.runs u = []) : (seq first last).runs u = [] := by
  rw [runs, h, List.flatMap_nil]

/-- **Two patterns that avoid the tag, and anything between them.** -/
theorem clean_span (hfirst : first.Avoids tag) (hlast : last.Avoids tag)
    (hframed : ∀ w ∈ first.edges ++ last.edges, Framed a w) (hreads : a.consumes = true)
    (htext : seq first (seq (few fun _ => true) last) = a ∨
      (seq first (seq (few fun _ => true) last)).Clean ⟨none, text⟩) :
    (seq first (seq (few fun _ => true) last)).Clean ⟨none, a.replaceAll tag.text text⟩ := by
  refine clean_replaceAll hreads text ?_ (fun u hu => runs_seq_of_nil hu) hfirst htext
  intro u c hstands hmatch
  obtain ⟨u', hu'⟩ := List.exists_mem_of_ne_nil _ hmatch
  obtain ⟨u₁, hu₁, hu'⟩ := mem_runs_seq.mp hu'
  obtain ⟨u₂, hu₂, hu'⟩ := mem_runs_seq.mp hu'
  obtain ⟨c₁, hc₁, hstands₁⟩ :=
    hfirst.runs (fun w hw => hframed w (List.mem_append_left _ hw)) hstands hu₁
  rcases hstands₁.locate (mem_runs_few.mp hu₂) with ⟨c₂, hc₂, hstands₂⟩ | ⟨v, hv, hcut⟩
  · obtain ⟨c', hc', -⟩ :=
      hlast.runs (fun w hw => hframed w (List.mem_append_right _ hw)) hstands₂ hu'
    have hrest : c' ∈ (seq (few fun _ => true) last).runs c₁ :=
      mem_runs_seq.mpr ⟨c₂, mem_runs_few.mpr hc₂, hc'⟩
    exact List.ne_nil_of_mem (mem_runs_seq.mpr ⟨c₁, hc₁, hrest⟩)
  · rw [hlast.runs_inside hv hcut] at hu'
    simp at hu'

/-- **A pattern that avoids the tag, and one or more characters as a match begins with.** -/
theorem clean_value (hfirst : first.Avoids tag) (hframed : ∀ w ∈ first.edges, Framed a w)
    (hreads : a.consumes = true)
    (hvalue : ∀ c c', a.exec c = some c' → ∃ d o, c.rest = d :: o ∧ p d = true)
    (htext : seq first (plus p) = a ∨
      (seq first (plus p)).Clean ⟨none, text⟩) :
    (seq first (plus p)).Clean ⟨none, a.replaceAll tag.text text⟩ := by
  refine clean_replaceAll hreads text ?_ (fun u hu => runs_seq_of_nil hu) hfirst htext
  intro u c hstands hmatch
  obtain ⟨u', hu'⟩ := List.exists_mem_of_ne_nil _ hmatch
  obtain ⟨u₁, hu₁, hu'⟩ := mem_runs_seq.mp hu'
  obtain ⟨u₂, hu₂, -⟩ := mem_runs_seq.mp hu'
  obtain ⟨d, rest, hrest, hd, -⟩ := mem_runs_char.mp hu₂
  obtain ⟨c₁, hc₁, hstands₁⟩ := hfirst.runs hframed hstands hu₁
  -- the first character of the value is kept, or a match began there
  have hchar : ∃ d' o, c₁.rest = d' :: o ∧ p d' = true := by
    cases hstands₁.replaced with
    | done => simp at hrest
    | keep =>
        obtain ⟨rfl, -⟩ := List.cons.inj hrest
        exact ⟨_, _, rfl, hd⟩
    | swap hexec => exact hvalue _ _ hexec
  obtain ⟨d', o, ho, hd'⟩ := hchar
  have hvalued : (⟨some d', o⟩ : Cursor α) ∈ (plus p).runs c₁ :=
    mem_runs_seq.mpr ⟨⟨some d', o⟩, mem_runs_char.mpr ⟨d', o, ho, hd', rfl⟩,
      mem_runs_many.mpr (.here _)⟩
  exact List.ne_nil_of_mem (mem_runs_seq.mpr ⟨c₁, hc₁, hvalued⟩)

end Kinds

end Pattern

end Regex
