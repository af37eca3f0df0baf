/-
Runs of a labelled transition relation.

A run remembers each event together with the state it met, so a property can speak
about what was true when something happened as well as about where it led.  The two
induction rules here are the only way the development argues about runs: an
invariant holds at the start and is kept by every step that meets a condition, or a
relation between the history and the state does.

The chains at the end are the same idea inside one step: a handler is a sequence of
small effects, and what each effect keeps the handler keeps.
-/
import Mathlib.Logic.Relation

namespace Transition

variable {σ ε : Type}

/-- A run from `s₀`: what happened, each event with the state it met, and where it led. -/
inductive Run (step : σ → ε → σ → Prop) (s₀ : σ) : List (σ × ε) → σ → Prop
  | nil : Run step s₀ [] s₀
  | snoc {tr : List (σ × ε)} {s s' : σ} {e : ε}
      (hrun : Run step s₀ tr s) (hstep : step s e s') : Run step s₀ (tr ++ [(s, e)]) s'

/-- Every step of a run meets a condition on the event and the state it met. -/
def Meets (C : σ → ε → Prop) (tr : List (σ × ε)) : Prop := ∀ x ∈ tr, C x.1 x.2

theorem Meets.trivial (tr : List (σ × ε)) : Meets (fun _ _ => True) tr := fun _ _ => True.intro

theorem Meets.left {C : σ → ε → Prop} {tr tr' : List (σ × ε)} (h : Meets C (tr ++ tr')) :
    Meets C tr := fun x hx => h x (List.mem_append_left _ hx)

theorem Meets.last {C : σ → ε → Prop} {tr : List (σ × ε)} {s : σ} {e : ε}
    (h : Meets C (tr ++ [(s, e)])) : C s e := h (s, e) (by simp)

theorem Meets.snoc_iff {C : σ → ε → Prop} {tr : List (σ × ε)} {s : σ} {e : ε} :
    Meets C (tr ++ [(s, e)]) ↔ Meets C tr ∧ C s e := by
  refine ⟨fun h => ⟨h.left, h.last⟩, fun ⟨h, hlast⟩ x hx => ?_⟩
  rcases List.mem_append.mp hx with hx | hx
  · exact h x hx
  · rw [List.mem_singleton.mp hx]
    exact hlast

namespace Run

variable {step : σ → ε → σ → Prop} {s₀ s : σ} {tr : List (σ × ε)}

/-- What holds of the history and the state at the start, and survives one more step,
holds at the end of every run. -/
theorem along {C : σ → ε → Prop} {P : List (σ × ε) → σ → Prop} (h : Run step s₀ tr s)
    (hok : Meets C tr) (h0 : P [] s₀)
    (hstep : ∀ tr s e s', Run step s₀ tr s → Meets C tr → P tr s → C s e → step s e s' →
      P (tr ++ [(s, e)]) s') : P tr s := by
  induction h with
  | nil => exact h0
  | snoc hrun hs ih => exact hstep _ _ _ _ hrun hok.left (ih hok.left) hok.last hs

/-- An invariant of the steps that meet a condition holds wherever they lead. -/
theorem invariant {C : σ → ε → Prop} {P : σ → Prop} (h : Run step s₀ tr s)
    (hok : Meets C tr) (h0 : P s₀)
    (hstep : ∀ s e s', P s → C s e → step s e s' → P s') : P s :=
  h.along (P := fun _ s => P s) hok h0 fun _ s e s' _ _ hp he hs => hstep s e s' hp he hs

/-- The state an event met was reached by the events before it. -/
theorem of_mem (h : Run step s₀ tr s) {x : σ × ε} (hx : x ∈ tr) :
    ∃ tr₁ tr₂, tr = tr₁ ++ x :: tr₂ ∧ Run step s₀ tr₁ x.1 := by
  induction h with
  | nil => simp at hx
  | @snoc tr s s' e hrun _ ih =>
      rcases List.mem_append.mp hx with hx | hx
      · obtain ⟨tr₁, tr₂, rfl, hr⟩ := ih hx
        exact ⟨tr₁, tr₂ ++ [(s, e)], by simp, hr⟩
      · rw [List.mem_singleton] at hx
        subst hx
        exact ⟨tr, [], rfl, hrun⟩

/-- A run of two parts stops in between. -/
theorem split {tr₁ tr₂ : List (σ × ε)} (h : Run step s₀ (tr₁ ++ tr₂) s) :
    ∃ s₁, Run step s₀ tr₁ s₁ ∧ Run step s₁ tr₂ s := by
  generalize htr : tr₁ ++ tr₂ = tr at h
  induction h generalizing tr₂ with
  | nil =>
      obtain ⟨rfl, rfl⟩ := List.append_eq_nil_iff.mp htr
      exact ⟨s₀, .nil, .nil⟩
  | @snoc tr s s' e hrun hstep ih =>
      rcases List.eq_nil_or_concat tr₂ with rfl | ⟨rest, x, rfl⟩
      · rw [List.append_nil] at htr
        exact ⟨s', by rw [htr]; exact .snoc hrun hstep, .nil⟩
      · rw [List.concat_eq_append, ← List.append_assoc] at htr
        obtain ⟨hinit, hlast⟩ := List.append_inj' htr rfl
        obtain rfl := (List.cons.inj hlast).1
        obtain ⟨s₁, h₁, h₂⟩ := ih hinit
        exact ⟨s₁, h₁, by rw [List.concat_eq_append]; exact .snoc h₂ hstep⟩

theorem eq_of_nil (h : Run step s₀ [] s) : s = s₀ := by
  generalize htr : ([] : List (σ × ε)) = l at h
  cases h with
  | nil => rfl
  | snoc => simp at htr

/-- The first step of a run. -/
theorem head {x : σ × ε} (h : Run step s₀ (x :: tr) s) :
    x.1 = s₀ ∧ ∃ s₁, step x.1 x.2 s₁ ∧ Run step s₁ tr s := by
  generalize htr : x :: tr = l at h
  induction h generalizing tr with
  | nil => cases htr
  | @snoc l s s' e hrun hstep ih =>
      cases l with
      | nil =>
          obtain ⟨rfl, rfl⟩ := List.cons.inj htr
          exact ⟨hrun.eq_of_nil, s', hstep, .nil⟩
      | cons y l =>
          obtain ⟨rfl, rfl⟩ := List.cons.inj htr
          obtain ⟨h₀, s₁, h₁, h₂⟩ := ih rfl
          exact ⟨h₀, s₁, h₁, .snoc h₂ hstep⟩

/-- One more step at the front. -/
theorem cons {s₁ : σ} {e : ε} (hstep : step s₀ e s₁) (h : Run step s₁ tr s) :
    Run step s₀ ((s₀, e) :: tr) s := by
  induction h with
  | nil => exact snoc nil hstep
  | snoc _ hs ih => exact snoc ih hs

/-- One run after another. -/
theorem append {tr₁ tr₂ : List (σ × ε)} {s₁ : σ} (h₁ : Run step s₀ tr₁ s₁)
    (h₂ : Run step s₁ tr₂ s) : Run step s₀ (tr₁ ++ tr₂) s := by
  induction h₂ with
  | nil =>
      rw [List.append_nil]
      exact h₁
  | snoc _ hstep ih =>
      rw [← List.append_assoc]
      exact snoc ih hstep

end Run

/-- The run of a step function over a list of events: its trace and where it ends. -/
def execute {κ : Type} (f : σ → ε → Except κ σ) : σ → List ε → Except κ (List (σ × ε) × σ)
  | s, [] => .ok ([], s)
  | s, e :: es =>
      match f s e with
      | .error err => .error err
      | .ok s' =>
          match execute f s' es with
          | .error err => .error err
          | .ok (tr, t) => .ok ((s, e) :: tr, t)

theorem Run.of_execute {κ : Type} {f : σ → ε → Except κ σ} {s t : σ} {es : List ε}
    {tr : List (σ × ε)} (h : execute f s es = .ok (tr, t)) :
    Run (fun s e s' => f s e = .ok s') s tr t ∧ tr.map Prod.snd = es := by
  induction es generalizing s tr with
  | nil =>
      simp only [execute, Except.ok.injEq, Prod.mk.injEq] at h
      obtain ⟨rfl, rfl⟩ := h
      exact ⟨.nil, rfl⟩
  | cons e es ih =>
      unfold execute at h
      split at h
      · cases h
      · next s' hs =>
          split at h
          · cases h
          · next tr' t' hrest =>
              simp only [Except.ok.injEq, Prod.mk.injEq] at h
              obtain ⟨rfl, rfl⟩ := h
              obtain ⟨hrun, rfl⟩ := ih hrest
              exact ⟨.cons hs hrun, rfl⟩

/-- The run of a partial step function: nothing where some event is not possible. -/
def follow (f : σ → ε → Option σ) : σ → List ε → Option (List (σ × ε) × σ)
  | s, [] => some ([], s)
  | s, e :: es =>
      match f s e with
      | none => none
      | some s' => (follow f s' es).map fun r => ((s, e) :: r.1, r.2)

theorem Run.of_follow {f : σ → ε → Option σ} {s t : σ} {es : List ε} {tr : List (σ × ε)}
    (h : follow f s es = some (tr, t)) :
    Run (fun s e s' => f s e = some s') s tr t ∧ tr.map Prod.snd = es := by
  induction es generalizing s tr with
  | nil =>
      simp only [follow, Option.some.injEq, Prod.mk.injEq] at h
      obtain ⟨rfl, rfl⟩ := h
      exact ⟨.nil, rfl⟩
  | cons e es ih =>
      unfold follow at h
      split at h
      · cases h
      · next s' hs =>
          obtain ⟨⟨tr', t'⟩, hrest, heq⟩ := Option.map_eq_some_iff.mp h
          obtain ⟨rfl, rfl⟩ := Prod.mk.inj heq
          obtain ⟨hrun, rfl⟩ := ih hrest
          exact ⟨.cons hs hrun, rfl⟩

/-- A run of a partial step function that passes a check, found by running it. -/
theorem Run.of_check {f : σ → ε → Option σ} {s : σ} {es : List ε}
    {check : List (σ × ε) × σ → Bool} (h : (follow f s es).any check = true) :
    ∃ tr t, Run (fun s e s' => f s e = some s') s tr t ∧ tr.map Prod.snd = es ∧
      check (tr, t) = true := by
  cases hrun : follow f s es with
  | none =>
      rw [hrun] at h
      cases h
  | some r =>
      rw [hrun] at h
      obtain ⟨hrun, hes⟩ := Run.of_follow hrun
      exact ⟨r.1, r.2, hrun, hes, h⟩

/-! ### Records

A record grows at its end, so an entry of it is the last one or was there before.
-/

theorem entry_of_snoc {α : Type} {l before after : List α} {a x : α}
    (h : l ++ [a] = before ++ x :: after) :
    (before = l ∧ x = a ∧ after = []) ∨ ∃ rest, l = before ++ x :: rest ∧ after = rest ++ [a] := by
  rcases List.append_eq_append_iff.mp h with ⟨gap, hbefore, hrest⟩ | ⟨gap, hl, hrest⟩
  · cases gap with
    | nil =>
        obtain ⟨rfl, rfl⟩ := List.cons.inj hrest
        exact .inl ⟨by rw [hbefore, List.append_nil], rfl, rfl⟩
    | cons y gap =>
        have hlength := congrArg List.length hrest
        simp at hlength
  · cases gap with
    | nil =>
        obtain ⟨rfl, rfl⟩ := List.cons.inj hrest
        exact .inl ⟨by rw [hl, List.append_nil], rfl, rfl⟩
    | cons y gap =>
        obtain ⟨rfl, hafter⟩ := List.cons.inj hrest
        exact .inr ⟨gap, hl, hafter⟩

/-- An entry that is nowhere else is the one that is known. -/
theorem entry_unique {α : Type} {l l' before after : List α} {x a : α} (hl : x ∉ l) (hl' : x ∉ l')
    (h : l ++ a :: l' = before ++ x :: after) : before = l ∧ x = a ∧ after = l' := by
  rcases List.append_eq_append_iff.mp h with ⟨gap, hbefore, hrest⟩ | ⟨gap, hgap, hrest⟩
  · cases gap with
    | nil =>
        obtain ⟨rfl, rfl⟩ := List.cons.inj hrest
        exact ⟨by rw [hbefore, List.append_nil], rfl, rfl⟩
    | cons y gap =>
        obtain ⟨-, hrest⟩ := List.cons.inj hrest
        exact absurd (by rw [hrest]; simp) hl'
  · cases gap with
    | nil =>
        obtain ⟨rfl, rfl⟩ := List.cons.inj hrest
        exact ⟨by rw [hgap, List.append_nil], rfl, rfl⟩
    | cons y gap =>
        obtain ⟨rfl, -⟩ := List.cons.inj hrest
        exact absurd (by rw [hgap]; simp) hl

/-! ### Chains inside a step -/

open Relation in
/-- What each link of a chain keeps, the chain keeps. -/
theorem chain_keeps {r : σ → σ → Prop} {P : σ → Prop} (hr : ∀ {a b}, r a b → P a → P b)
    {a b : σ} (h : ReflTransGen r a b) (ha : P a) : P b := by
  induction h with
  | refl => exact ha
  | tail _ hbc ih => exact hr hbc ih

open Relation in
/-- A loop whose body is a chain is a chain. -/
theorem chain_foldl {α : Type} {r : σ → σ → Prop} {f : σ → α → σ} {l : List α}
    (hf : ∀ s, ∀ a ∈ l, ReflTransGen r s (f s a)) (s : σ) : ReflTransGen r s (l.foldl f s) := by
  induction l generalizing s with
  | nil => exact .refl
  | cons a rest ih =>
      rw [List.foldl_cons]
      exact (hf s a (by simp)).trans (ih (fun s b hb => hf s b (List.mem_cons_of_mem _ hb)) _)

open Relation in
/-- The same, where the body may use that it runs on what the loop has made so far. -/
theorem chain_foldl_from {α : Type} {r : σ → σ → Prop} {f : σ → α → σ} {l : List α} {s₀ s : σ}
    (h₀ : ReflTransGen r s₀ s)
    (hf : ∀ s, ReflTransGen r s₀ s → ∀ a ∈ l, ReflTransGen r s (f s a)) :
    ReflTransGen r s₀ (l.foldl f s) := by
  induction l generalizing s with
  | nil => exact h₀
  | cons a rest ih =>
      rw [List.foldl_cons]
      exact ih (h₀.trans (hf s h₀ a (by simp))) fun s hs b hb => hf s hs b (List.mem_cons_of_mem _ hb)

end Transition
