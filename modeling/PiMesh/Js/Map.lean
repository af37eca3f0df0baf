/-
Maps and sets that keep insertion order.

`Js.Map` and `Js.Set` are the collections of the JavaScript standard library: a
key occurs once, writing to a key already present keeps its place, a new key goes
to the end, and iteration follows that order.  Both carry the proof that nothing
occurs twice, so a reader of an entry never has to ask which one was meant.

The lemmas are the ones a proof about a table needs: what `get?` answers after a
`set` or a `delete`, and what an entry of the list means in terms of `get?`.
-/
import Mathlib.Data.List.Nodup
import Mathlib.Data.List.Perm.Basic

namespace Js

/-! ### Entry lists -/

/-- Write `v` at key `k`: in place when `k` is there, at the end otherwise. -/
def setEntry {κ α : Type} [DecidableEq κ] (k : κ) (v : α) : List (κ × α) → List (κ × α)
  | [] => [(k, v)]
  | e :: rest => if e.1 = k then (k, v) :: rest else e :: setEntry k v rest

/-- The value at key `k`. -/
def lookupEntry {κ α : Type} [DecidableEq κ] (k : κ) : List (κ × α) → Option α
  | [] => none
  | e :: rest => if e.1 = k then some e.2 else lookupEntry k rest

section Entries

variable {κ α : Type} [DecidableEq κ]

theorem keys_setEntry (k : κ) (v : α) (l : List (κ × α)) :
    (setEntry k v l).map Prod.fst
      = if k ∈ l.map Prod.fst then l.map Prod.fst else l.map Prod.fst ++ [k] := by
  induction l with
  | nil => simp [setEntry]
  | cons e rest ih =>
      by_cases h : e.1 = k
      · simp [setEntry, h]
      · have h' : ¬ k = e.1 := fun hc => h hc.symm
        by_cases hm : k ∈ rest.map Prod.fst
        · rw [if_pos hm] at ih
          have hm' : k ∈ (e :: rest).map Prod.fst := List.mem_cons_of_mem _ hm
          rw [if_pos hm', setEntry, if_neg h, List.map_cons, List.map_cons, ih]
        · rw [if_neg hm] at ih
          have hm' : k ∉ (e :: rest).map Prod.fst := by
            rw [List.map_cons, List.mem_cons]
            exact fun hc => hc.elim h' hm
          rw [if_neg hm', setEntry, if_neg h, List.map_cons, List.map_cons, ih,
            List.cons_append]

theorem lookupEntry_setEntry (k k' : κ) (v : α) (l : List (κ × α)) :
    lookupEntry k' (setEntry k v l) = if k' = k then some v else lookupEntry k' l := by
  induction l with
  | nil =>
      by_cases h : k' = k
      · simp [setEntry, lookupEntry, h]
      · have hk : ¬ k = k' := fun hc => h hc.symm
        simp [setEntry, lookupEntry, h, hk]
  | cons e rest ih =>
      by_cases he : e.1 = k
      · by_cases h : k' = k
        · simp [setEntry, lookupEntry, he, h]
        · have hk : ¬ k = k' := fun hc => h hc.symm
          simp [setEntry, lookupEntry, he, h, hk]
      · rw [setEntry, if_neg he, lookupEntry, ih]
        by_cases h : k' = k
        · rw [if_pos h, h, if_neg he, if_pos rfl]
        · rw [if_neg h, if_neg h, lookupEntry]

theorem lookupEntry_filter_ne (k k' : κ) (l : List (κ × α)) :
    lookupEntry k' (l.filter (fun e => decide (e.1 ≠ k)))
      = if k' = k then none else lookupEntry k' l := by
  induction l with
  | nil => simp [lookupEntry]
  | cons e rest ih =>
      by_cases he : e.1 = k
      · rw [List.filter_cons_of_neg (by simpa using he), ih, lookupEntry]
        by_cases h : k' = k
        · rw [if_pos h, if_pos h]
        · have hek : ¬ e.1 = k' := fun hc => h (hc.symm.trans he)
          rw [if_neg h, if_neg h, if_neg hek]
      · rw [List.filter_cons_of_pos (by simpa using he), lookupEntry, ih, lookupEntry]
        by_cases h : k' = k
        · have hek : ¬ e.1 = k' := fun hc => he (hc.trans h)
          rw [if_pos h, if_neg hek, if_pos h]
        · rw [if_neg h, if_neg h]

theorem lookupEntry_eq_none_iff (k : κ) (l : List (κ × α)) :
    lookupEntry k l = none ↔ k ∉ l.map Prod.fst := by
  induction l with
  | nil => simp [lookupEntry]
  | cons e rest ih =>
      by_cases h : e.1 = k
      · simp [lookupEntry, h]
      · have h' : ¬ k = e.1 := fun hc => h hc.symm
        rw [lookupEntry, if_neg h, ih, List.map_cons, List.mem_cons]
        simp [h']

theorem mem_of_lookupEntry {k : κ} {v : α} {l : List (κ × α)}
    (h : lookupEntry k l = some v) : (k, v) ∈ l := by
  induction l with
  | nil => simp [lookupEntry] at h
  | cons e rest ih =>
      rw [lookupEntry] at h
      by_cases he : e.1 = k
      · rw [if_pos he] at h
        have : e = (k, v) := Prod.ext he (Option.some.inj h)
        simp [this]
      · rw [if_neg he] at h
        exact List.mem_cons_of_mem _ (ih h)

/-- Where keys are distinct, an entry is what its key looks up. -/
theorem lookupEntry_of_mem {k : κ} {v : α} {l : List (κ × α)}
    (hnd : (l.map Prod.fst).Nodup) (h : (k, v) ∈ l) : lookupEntry k l = some v := by
  induction l with
  | nil => simp at h
  | cons e rest ih =>
      rw [List.map_cons, List.nodup_cons] at hnd
      rcases List.mem_cons.mp h with he | hr
      · simp [lookupEntry, ← he]
      · have hne : ¬ e.1 = k := by
          rintro rfl
          exact hnd.1 (List.mem_map.mpr ⟨_, hr, rfl⟩)
        rw [lookupEntry, if_neg hne]
        exact ih hnd.2 hr

/-- Writing an entry that is there already changes nothing. -/
theorem setEntry_of_lookupEntry {k : κ} {v : α} {l : List (κ × α)} (h : lookupEntry k l = some v) :
    setEntry k v l = l := by
  induction l with
  | nil => cases h
  | cons e rest ih =>
      by_cases hk : e.1 = k
      · rw [lookupEntry, if_pos hk] at h
        rw [setEntry, if_pos hk, ← hk, ← Option.some.inj h]
      · rw [lookupEntry, if_neg hk] at h
        rw [setEntry, if_neg hk, ih h]

theorem setEntry_setEntry (k : κ) (v w : α) (l : List (κ × α)) :
    setEntry k w (setEntry k v l) = setEntry k w l := by
  induction l with
  | nil => simp [setEntry]
  | cons e rest ih =>
      by_cases hk : e.1 = k
      · simp [setEntry, hk]
      · simp [setEntry, hk, ih]

/-- Two writes commute when the second finds its key. -/
theorem setEntry_comm {k k' : κ} (hne : k ≠ k') (v w : α) {l : List (κ × α)}
    (h : lookupEntry k' l ≠ none) :
    setEntry k' w (setEntry k v l) = setEntry k v (setEntry k' w l) := by
  induction l with
  | nil => exact absurd rfl h
  | cons e rest ih =>
      by_cases hk : e.1 = k
      · have hk' : ¬ e.1 = k' := fun hc => hne (hk.symm.trans hc)
        simp [setEntry, hk, hne]
      · by_cases hk' : e.1 = k'
        · simp [setEntry, hk', Ne.symm hne]
        · rw [lookupEntry, if_neg hk'] at h
          simp [setEntry, hk, hk', ih h]

theorem filter_setEntry_self (k : κ) (v : α) (l : List (κ × α)) :
    (setEntry k v l).filter (fun e => decide (e.1 ≠ k)) = l.filter fun e => decide (e.1 ≠ k) := by
  induction l with
  | nil => simp [setEntry]
  | cons e rest ih =>
      by_cases hk : e.1 = k
      · simp [setEntry, hk]
      · rw [setEntry, if_neg hk, List.filter_cons, List.filter_cons, ih]

theorem filter_setEntry_ne {k k' : κ} (hne : k ≠ k') (v : α) (l : List (κ × α)) :
    (setEntry k v l).filter (fun e => decide (e.1 ≠ k'))
      = setEntry k v (l.filter fun e => decide (e.1 ≠ k')) := by
  induction l with
  | nil => simp [setEntry, hne]
  | cons e rest ih =>
      by_cases hk : e.1 = k
      · have hk' : e.1 ≠ k' := fun hc => hne (hk.symm.trans hc)
        simp [setEntry, hk, hne]
      · by_cases hk' : e.1 = k'
        · rw [setEntry, if_neg hk, List.filter_cons_of_neg (by simp [hk']),
            List.filter_cons_of_neg (by simp [hk']), ih]
        · rw [setEntry, if_neg hk, List.filter_cons_of_pos (by simp [hk']),
            List.filter_cons_of_pos (by simp [hk']), setEntry, if_neg hk, ih]

theorem countP_setEntry (p : α → Bool) (k : κ) (v : α) (l : List (κ × α)) :
    ((setEntry k v l).map Prod.snd).countP p + ((lookupEntry k l).any p).toNat =
      (l.map Prod.snd).countP p + (p v).toNat := by
  have hcons : ∀ (x : α) (l : List α), (x :: l).countP p = l.countP p + (p x).toNat := by
    intro x l
    cases hx : p x <;> simp [hx]
  induction l with
  | nil => simp [setEntry, lookupEntry, hcons]
  | cons e rest ih =>
      by_cases h : e.1 = k
      · simp only [setEntry, lookupEntry, if_pos h, List.map_cons, hcons, Option.any_some]
        omega
      · simp only [setEntry, lookupEntry, if_neg h, List.map_cons, hcons]
        omega

theorem countP_filter_ne {k : κ} (p : α → Bool) {l : List (κ × α)} (hnd : (l.map Prod.fst).Nodup) :
    ((l.filter fun e => decide (e.1 ≠ k)).map Prod.snd).countP p +
      ((lookupEntry k l).any p).toNat = (l.map Prod.snd).countP p := by
  have hcons : ∀ (x : α) (l : List α), (x :: l).countP p = l.countP p + (p x).toNat := by
    intro x l
    cases hx : p x <;> simp [hx]
  induction l with
  | nil => simp [lookupEntry]
  | cons e rest ih =>
      rw [List.map_cons, List.nodup_cons] at hnd
      have ih := ih hnd.2
      by_cases h : e.1 = k
      · -- the key does not come again
        have hnone : lookupEntry k rest = none := by
          rw [lookupEntry_eq_none_iff, ← h]
          exact hnd.1
        rw [hnone] at ih
        rw [List.filter_cons_of_neg (by simp [h]), lookupEntry, if_pos h, List.map_cons, hcons]
        simp only [Option.any_none, Bool.toNat_false, Option.any_some] at ih ⊢
        omega
      · rw [List.filter_cons_of_pos (by simp [h]), lookupEntry, if_neg h, List.map_cons,
          List.map_cons, hcons, hcons]
        omega

theorem perm_filter_ne {k : κ} {v : α} {l : List (κ × α)} (hnd : (l.map Prod.fst).Nodup)
    (h : lookupEntry k l = some v) : l.Perm ((k, v) :: l.filter fun e => decide (e.1 ≠ k)) := by
  induction l with
  | nil => cases h
  | cons e rest ih =>
      rw [List.map_cons, List.nodup_cons] at hnd
      by_cases he : e.1 = k
      · -- the key does not come again, so the filter keeps the rest
        have hrest : rest.filter (fun e => decide (e.1 ≠ k)) = rest := by
          rw [List.filter_eq_self]
          intro e' he'
          have hne : e'.1 ≠ k := by
            intro hc
            apply hnd.1
            rw [he, ← hc]
            exact List.mem_map_of_mem he'
          simpa using hne
        rw [lookupEntry, if_pos he] at h
        rw [List.filter_cons_of_neg (by simp [he]), hrest, ← he, ← Option.some.inj h]
      · rw [lookupEntry, if_neg he] at h
        rw [List.filter_cons_of_pos (by simp [he])]
        exact ((ih hnd.2 h).cons e).trans (.swap _ _ _)

end Entries

/-! ### Maps -/

/-- A JavaScript `Map`: entries in insertion order, no key twice. -/
structure Map (κ α : Type) where
  entries : List (κ × α)
  nodup : (entries.map Prod.fst).Nodup

namespace Map

variable {κ α : Type}

/-- `new Map()`. -/
def empty : Map κ α := ⟨[], List.nodup_nil⟩

instance : Inhabited (Map κ α) := ⟨empty⟩

def keys (m : Map κ α) : List κ := m.entries.map Prod.fst

def values (m : Map κ α) : List α := m.entries.map Prod.snd

def size (m : Map κ α) : Nat := m.entries.length

@[ext] theorem ext {m m' : Map κ α} (h : m.entries = m'.entries) : m = m' := by
  cases m
  cases m'
  simpa using h

theorem length_keys (m : Map κ α) : m.keys.length = m.size := List.length_map _

variable [DecidableEq κ]

def get? (m : Map κ α) (k : κ) : Option α := lookupEntry k m.entries

def has (m : Map κ α) (k : κ) : Bool := (m.get? k).isSome

def set (m : Map κ α) (k : κ) (v : α) : Map κ α where
  entries := setEntry k v m.entries
  nodup := by
    rw [keys_setEntry]
    by_cases h : k ∈ m.entries.map Prod.fst
    · rw [if_pos h]; exact m.nodup
    · rw [if_neg h, List.nodup_append]
      refine ⟨m.nodup, List.nodup_singleton k, ?_⟩
      intro a ha b hb hab
      rw [List.mem_singleton] at hb
      exact h (by rw [← hb, ← hab]; exact ha)

def delete (m : Map κ α) (k : κ) : Map κ α where
  entries := m.entries.filter (fun e => decide (e.1 ≠ k))
  nodup := m.nodup.sublist (List.filter_sublist.map _)

@[simp] theorem get?_empty (k : κ) : (empty : Map κ α).get? k = none := rfl

theorem get?_set (m : Map κ α) (k k' : κ) (v : α) :
    (m.set k v).get? k' = if k' = k then some v else m.get? k' :=
  lookupEntry_setEntry k k' v m.entries

@[simp] theorem get?_set_self (m : Map κ α) (k : κ) (v : α) : (m.set k v).get? k = some v := by
  rw [get?_set, if_pos rfl]

theorem get?_set_ne (m : Map κ α) {k k' : κ} (v : α) (h : k' ≠ k) :
    (m.set k v).get? k' = m.get? k' := by
  rw [get?_set, if_neg h]

theorem get?_delete (m : Map κ α) (k k' : κ) :
    (m.delete k).get? k' = if k' = k then none else m.get? k' :=
  lookupEntry_filter_ne k k' m.entries

@[simp] theorem get?_delete_self (m : Map κ α) (k : κ) : (m.delete k).get? k = none := by
  rw [get?_delete, if_pos rfl]

theorem get?_delete_ne (m : Map κ α) {k k' : κ} (h : k' ≠ k) :
    (m.delete k).get? k' = m.get? k' := by
  rw [get?_delete, if_neg h]

theorem get?_foldl_delete (m : Map κ α) (ks : List κ) (k : κ) :
    (ks.foldl delete m).get? k = if k ∈ ks then none else m.get? k := by
  induction ks generalizing m with
  | nil => simp
  | cons k' rest ih =>
      rw [List.foldl_cons, ih, get?_delete]
      by_cases hr : k ∈ rest
      · simp [hr]
      · by_cases hk : k = k' <;> simp [hr, hk]

theorem get?_eq_none_iff (m : Map κ α) (k : κ) : m.get? k = none ↔ k ∉ m.keys :=
  lookupEntry_eq_none_iff k m.entries

theorem has_iff (m : Map κ α) (k : κ) : m.has k = true ↔ ∃ v, m.get? k = some v := by
  unfold has
  exact Option.isSome_iff_exists

theorem mem_keys_iff (m : Map κ α) (k : κ) : k ∈ m.keys ↔ ∃ v, m.get? k = some v := by
  rw [← has_iff, has, ← Option.ne_none_iff_isSome, ne_eq, get?_eq_none_iff, not_not]

theorem mem_entries_iff (m : Map κ α) (k : κ) (v : α) : (k, v) ∈ m.entries ↔ m.get? k = some v :=
  ⟨lookupEntry_of_mem m.nodup, mem_of_lookupEntry⟩

theorem mem_values_iff (m : Map κ α) (v : α) : v ∈ m.values ↔ ∃ k, m.get? k = some v := by
  unfold values
  rw [List.mem_map]
  constructor
  · rintro ⟨⟨k, v'⟩, he, rfl⟩
    exact ⟨k, (m.mem_entries_iff k v').mp he⟩
  · rintro ⟨k, h⟩
    exact ⟨(k, v), (m.mem_entries_iff k v).mpr h, rfl⟩

theorem size_set (m : Map κ α) (k : κ) (v : α) :
    (m.set k v).size = if m.has k then m.size else m.size + 1 := by
  have hkeys : (m.set k v).keys = if k ∈ m.keys then m.keys else m.keys ++ [k] :=
    keys_setEntry k v m.entries
  have hhas : m.has k = true ↔ k ∈ m.keys := by rw [has_iff, mem_keys_iff]
  rw [← length_keys, hkeys]
  by_cases h : k ∈ m.keys
  · rw [if_pos h, if_pos (hhas.mpr h), length_keys]
  · rw [if_neg h, if_neg (fun hc => h (hhas.mp hc)), List.length_append, length_keys]
    rfl

theorem size_delete_le (m : Map κ α) (k : κ) : (m.delete k).size ≤ m.size :=
  List.length_filter_le _ _

/-! ### Counting -/

/-- How many values meet a condition. -/
def count (m : Map κ α) (p : α → Bool) : Nat := m.values.countP p

theorem count_set (m : Map κ α) (p : α → Bool) (k : κ) (v : α) :
    (m.set k v).count p + ((m.get? k).any p).toNat = m.count p + (p v).toNat :=
  countP_setEntry p k v m.entries

theorem count_delete (m : Map κ α) (p : α → Bool) (k : κ) :
    (m.delete k).count p + ((m.get? k).any p).toNat = m.count p :=
  countP_filter_ne p m.nodup

theorem count_pos_iff (m : Map κ α) (p : α → Bool) :
    0 < m.count p ↔ ∃ k v, m.get? k = some v ∧ p v = true := by
  rw [count, List.countP_pos_iff]
  constructor
  · rintro ⟨v, hv, hp⟩
    obtain ⟨k, hk⟩ := (mem_values_iff m v).mp hv
    exact ⟨k, v, hk, hp⟩
  · rintro ⟨k, v, hk, hp⟩
    exact ⟨v, (mem_values_iff m v).mpr ⟨k, hk⟩, hp⟩

/-! ### Tables that come back to what they were -/

theorem set_of_get? {m : Map κ α} {k : κ} {v : α} (h : m.get? k = some v) : m.set k v = m :=
  ext (setEntry_of_lookupEntry h)

theorem set_set (m : Map κ α) (k : κ) (v w : α) : (m.set k v).set k w = m.set k w :=
  ext (setEntry_setEntry k v w m.entries)

theorem set_comm {m : Map κ α} {k k' : κ} (hne : k ≠ k') (v w : α) (h : m.get? k' ≠ none) :
    (m.set k v).set k' w = (m.set k' w).set k v :=
  ext (setEntry_comm hne v w h)

theorem delete_set_ne (m : Map κ α) {k k' : κ} (hne : k ≠ k') (v : α) :
    (m.set k v).delete k' = (m.delete k').set k v :=
  ext (filter_setEntry_ne hne v m.entries)

theorem delete_of_get?_eq_none {m : Map κ α} {k : κ} (h : m.get? k = none) : m.delete k = m := by
  apply ext
  refine List.filter_eq_self.mpr ?_
  intro e he
  have hne : e.1 ≠ k := by
    intro hc
    rw [(m.mem_entries_iff k e.2).mp (by rw [← hc]; exact he)] at h
    cases h
  simp [hne]

theorem delete_delete_self (m : Map κ α) (k : κ) : (m.delete k).delete k = m.delete k :=
  delete_of_get?_eq_none (get?_delete_self m k)

theorem delete_set_self (m : Map κ α) (k : κ) (v : α) : (m.set k v).delete k = m.delete k :=
  ext (filter_setEntry_self k v m.entries)

/-- An entry and the others are all there is. -/
theorem entries_perm {m : Map κ α} {k : κ} {v : α} (h : m.get? k = some v) :
    m.entries.Perm ((k, v) :: (m.delete k).entries) :=
  perm_filter_ne m.nodup h

/-- A new entry written and deleted again. -/
theorem delete_set_of_get?_eq_none {m : Map κ α} {k : κ} (v : α) (h : m.get? k = none) :
    (m.set k v).delete k = m := by
  rw [delete_set_self, delete_of_get?_eq_none h]

end Map

/-! ### Sets -/

/-- A JavaScript `Set`: elements in insertion order, none twice. -/
structure Set (α : Type) where
  elems : List α
  nodup : elems.Nodup

namespace Set

variable {α : Type}

/-- `new Set()`. -/
def empty : Set α := ⟨[], List.nodup_nil⟩

instance : Inhabited (Set α) := ⟨empty⟩

def size (s : Set α) : Nat := s.elems.length

@[ext] theorem ext {s s' : Set α} (h : s.elems = s'.elems) : s = s' := by
  cases s
  cases s'
  simpa using h

variable [DecidableEq α]

def has (s : Set α) (a : α) : Bool := decide (a ∈ s.elems)

def add (s : Set α) (a : α) : Set α :=
  if h : a ∈ s.elems then s
  else
    { elems := s.elems ++ [a]
      nodup := by
        rw [List.nodup_append]
        refine ⟨s.nodup, List.nodup_singleton a, ?_⟩
        intro x hx y hy hxy
        rw [List.mem_singleton] at hy
        exact h (by rw [← hy, ← hxy]; exact hx) }

def delete (s : Set α) (a : α) : Set α where
  elems := s.elems.filter (fun x => decide (x ≠ a))
  nodup := s.nodup.sublist List.filter_sublist

/-- `new Set(iterable)`: the elements in order, repetitions dropped. -/
def ofList (l : List α) : Set α := l.foldl add empty

@[simp] theorem has_iff (s : Set α) (a : α) : s.has a = true ↔ a ∈ s.elems := by
  simp [has]

theorem mem_add (s : Set α) (a x : α) : x ∈ (s.add a).elems ↔ x ∈ s.elems ∨ x = a := by
  unfold add
  by_cases h : a ∈ s.elems
  · rw [dif_pos h]
    exact ⟨Or.inl, fun hx => hx.elim id (fun hxa => hxa ▸ h)⟩
  · rw [dif_neg h]
    simp

theorem mem_delete (s : Set α) (a x : α) : x ∈ (s.delete a).elems ↔ x ∈ s.elems ∧ x ≠ a := by
  simp [delete, List.mem_filter]

theorem size_add_of_not_mem (s : Set α) {a : α} (h : a ∉ s.elems) :
    (s.add a).size = s.size + 1 := by
  simp [add, h, size]

/-- A set that was within a bound, or below it where the element is new, stays within it. -/
theorem size_add_bounds {s : Set α} {a : α} {n : Nat} (hmem : a ∈ s.elems → s.size ≤ n)
    (hnew : a ∉ s.elems → s.size < n) : (s.add a).size ≠ 0 ∧ (s.add a).size ≤ n := by
  constructor
  · intro h
    have : a ∈ (s.add a).elems := (s.mem_add a a).mpr (.inr rfl)
    rw [List.length_eq_zero_iff.mp h] at this
    cases this
  · by_cases h : a ∈ s.elems
    · rw [add, dif_pos h]
      exact hmem h
    · rw [size_add_of_not_mem s h]
      exact hnew h

theorem size_delete_le (s : Set α) (a : α) : (s.delete a).size ≤ s.size :=
  List.length_filter_le _ _

/-- Adding a new element and taking it out again gives the set back. -/
theorem delete_add_of_not_mem (s : Set α) {a : α} (h : a ∉ s.elems) :
    (s.add a).delete a = s := by
  apply ext
  simp only [add, h, dite_false, delete, List.filter_append]
  rw [List.filter_eq_self.mpr (fun x hx => by
    simp only [ne_eq, decide_not, Bool.not_eq_true', decide_eq_false_iff_not]
    rintro rfl
    exact h hx)]
  simp

theorem mem_foldl_add (l : List α) (s : Set α) (x : α) :
    x ∈ (l.foldl add s).elems ↔ x ∈ s.elems ∨ x ∈ l := by
  induction l generalizing s with
  | nil => simp
  | cons a rest ih => rw [List.foldl_cons, ih, mem_add, List.mem_cons, or_assoc]

theorem mem_foldl_delete (l : List α) (s : Set α) (x : α) :
    x ∈ (l.foldl delete s).elems ↔ x ∈ s.elems ∧ x ∉ l := by
  induction l generalizing s with
  | nil => simp
  | cons a rest ih => rw [List.foldl_cons, ih, mem_delete, List.mem_cons, not_or, and_assoc]

theorem mem_ofList (l : List α) (x : α) : x ∈ (ofList l).elems ↔ x ∈ l := by
  rw [ofList, mem_foldl_add]
  simp [empty]

end Set

end Js
