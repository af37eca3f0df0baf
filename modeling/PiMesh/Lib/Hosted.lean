/-
Programs that call a host.

A program asks its host one call after another.  The host answers each call by its number, so
it may answer one question differently every time, and the answer of a call that is no
question says whether it returned or threw.  What was asked, and how it was answered, stays on
record, also where the program throws.
-/
import Mathlib.Logic.Basic

namespace Hosting

/-- The variables of a program, with the calls it made of its host. -/
structure Hosted (κ σ : Type) where
  calls : List (κ × Bool) := []
  vars : σ

/-- A program that calls its host, and may throw. -/
abbrev HostM (κ σ : Type) := EStateM Unit (Hosted κ σ)

variable {κ σ α : Type}

/-- One more call on record. -/
def Hosted.record (h : Hosted κ σ) (c : κ) (answer : Bool) : Hosted κ σ :=
  { h with calls := h.calls ++ [(c, answer)] }

/-- The answer of the host to the next call. -/
def Hosted.next (h : Hosted κ σ) (host : Nat → Bool) : Bool := host h.calls.length

@[simp] theorem Hosted.record_calls (h : Hosted κ σ) (c : κ) (answer : Bool) :
    (h.record c answer).calls = h.calls ++ [(c, answer)] := rfl

@[simp] theorem Hosted.record_vars (h : Hosted κ σ) (c : κ) (answer : Bool) :
    (h.record c answer).vars = h.vars := rfl

/-- A question. -/
def ask (host : Nat → Bool) (c : κ) : HostM κ σ Bool := fun h =>
  .ok (h.next host) (h.record c (h.next host))

/-- A call that returns nothing, or throws. -/
def perform (host : Nat → Bool) (c : κ) : HostM κ σ Unit := do
  if !(← ask host c) then throw ()

/-- A call whose answer plays no part. -/
def note (c : κ) : HostM κ σ Unit := fun h => .ok () (h.record c true)

/-- `try { m } catch {}`, and whether `m` returned. -/
def caught (m : HostM κ σ Unit) : HostM κ σ Bool := fun h =>
  match m h with
  | .ok _ h' => .ok true h'
  | .error _ h' => .ok false h'

def change (f : σ → σ) : HostM κ σ Unit := fun h => .ok () { h with vars := f h.vars }

def vars : HostM κ σ σ := fun h => .ok h.vars h

/-- Where a program leaves off, whether it returns or throws. -/
def after (m : HostM κ σ α) (h : Hosted κ σ) : Hosted κ σ :=
  match m h with
  | .ok _ h' => h'
  | .error _ h' => h'

/-- A program returns. -/
def Returns (m : HostM κ σ α) (h : Hosted κ σ) : Prop := ∃ a h', m h = .ok a h'

/-! ### How programs run -/

@[simp] theorem run_pure (a : α) (h : Hosted κ σ) : (pure a : HostM κ σ α) h = .ok a h := rfl

@[simp] theorem run_bind {β : Type} (m : HostM κ σ α) (f : α → HostM κ σ β) (h : Hosted κ σ) :
    (m >>= f) h = match m h with
      | .ok a h' => f a h'
      | .error e h' => .error e h' := by
  show EStateM.bind m f h = _
  unfold EStateM.bind
  cases m h with
  | ok a h' => rfl
  | error e h' => rfl

@[simp] theorem run_map {β : Type} (m : HostM κ σ α) (f : α → β) (h : Hosted κ σ) :
    (f <$> m) h = match m h with
      | .ok a h' => .ok (f a) h'
      | .error e h' => .error e h' := by
  show EStateM.map f m h = _
  unfold EStateM.map
  cases m h with
  | ok a h' => rfl
  | error e h' => rfl

@[simp] theorem run_ite {c : Prop} [Decidable c] (m m' : HostM κ σ α) (h : Hosted κ σ) :
    (if c then m else m') h = if c then m h else m' h := by
  split
  · rfl
  · rfl

@[simp] theorem run_ask (host : Nat → Bool) (c : κ) (h : Hosted κ σ) :
    ask host c h = .ok (h.next host) (h.record c (h.next host)) := rfl

@[simp] theorem run_note (c : κ) (h : Hosted κ σ) : note c h = .ok () (h.record c true) := rfl

@[simp] theorem run_change (f : σ → σ) (h : Hosted κ σ) :
    (change f : HostM κ σ Unit) h = .ok () { h with vars := f h.vars } := rfl

@[simp] theorem run_vars (h : Hosted κ σ) : (vars : HostM κ σ σ) h = .ok h.vars h := rfl

/-- A call that is tried returns, and says whether the call did. -/
@[simp] theorem run_caught_perform (host : Nat → Bool) (c : κ) (h : Hosted κ σ) :
    caught (perform host c) h = .ok (h.next host) (h.record c (h.next host)) := by
  unfold caught perform
  rw [run_bind, run_ask]
  cases h.next host with
  | false => rfl
  | true => rfl

theorem after_of_run {m : HostM κ σ α} {h h' : Hosted κ σ} {a : α} (hm : m h = .ok a h') :
    after m h = h' := by
  unfold after
  rw [hm]

end Hosting
