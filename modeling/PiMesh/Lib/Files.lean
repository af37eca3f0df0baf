/-
A directory of files, and the system calls that are atomic on it.

A file is a list of items: the lines of a log, or nothing at all for a file whose
existence is its meaning.  `rename` replaces whatever stood under the new name, as
`rename(2)` does, and that is the one call here that can lose an item nobody deleted.
The two facts about items that a proof needs are counted over the whole directory:
an append adds one, and a rename onto a free name changes nothing.
-/
import PiMesh.Js.Map

namespace Files

open Js

/-- The files of a directory, by name. -/
abbrev Dir (α : Type) := Map String (List α)

variable {α : Type}

/-- Everything the files hold. -/
def items (dir : Dir α) : List α := dir.values.flatten

/-- Append to a file, which is created if it is not there. -/
def append (dir : Dir α) (name : String) (item : α) : Dir α :=
  dir.set name ((dir.get? name).getD [] ++ [item])

/-- `rename(2)`: nothing where the file is not there. -/
def rename (dir : Dir α) (old new : String) : Option (Dir α) :=
  match dir.get? old with
  | none => none
  | some content => some (if old = new then dir else (dir.delete old).set new content)

theorem items_of_get? {dir : Dir α} {name : String} {content : List α}
    (h : dir.get? name = some content) :
    (items dir).Perm (content ++ items (dir.delete name)) := by
  have hvalues : dir.values.Perm (content :: (dir.delete name).values) :=
    (Map.entries_perm h).map Prod.snd
  exact hvalues.flatten

theorem delete_of_free {dir : Dir α} {name : String} (h : dir.get? name = none)
    (content : List α) : (dir.set name content).delete name = dir :=
  Map.delete_set_of_get?_eq_none content h

theorem items_set_free {dir : Dir α} {name : String} (h : dir.get? name = none)
    (content : List α) : (items (dir.set name content)).Perm (content ++ items dir) := by
  have hset := items_of_get? (Map.get?_set_self dir name content)
  rw [delete_of_free h] at hset
  exact hset

/-- An append adds its item and nothing else. -/
theorem items_append (dir : Dir α) (name : String) (item : α) :
    (items (append dir name item)).Perm (items dir ++ [item]) := by
  unfold append
  cases hget : dir.get? name with
  | none =>
      have hnew := items_set_free hget [item]
      exact hnew.trans List.perm_append_comm
  | some content =>
      -- the file's own lines, the new one, and what the other files hold
      have hset := items_of_get? (Map.get?_set_self dir name (content ++ [item]))
      rw [Map.delete_set_self] at hset
      refine hset.trans ?_
      rw [List.append_assoc]
      have hold := (items_of_get? hget).append_right [item]
      refine .trans ?_ hold.symm
      rw [List.append_assoc]
      exact List.perm_append_comm.append_left content

/-- A rename onto a free name loses nothing. -/
theorem items_rename {dir dir' : Dir α} {old new : String} (hfree : dir.get? new = none)
    (h : rename dir old new = some dir') : (items dir').Perm (items dir) := by
  unfold rename at h
  cases hget : dir.get? old with
  | none =>
      rw [hget] at h
      cases h
  | some content =>
      rw [hget] at h
      obtain rfl := Option.some.inj h
      split
      · exact .refl _
      · have hfree' : (dir.delete old).get? new = none := by
          rw [Map.get?_delete]
          split
          · rfl
          · exact hfree
        exact (items_set_free hfree' content).trans (items_of_get? hget).symm

/-- A rename carries the content over. -/
theorem get?_rename {dir dir' : Dir α} {old new : String} (h : rename dir old new = some dir') :
    dir'.get? new = dir.get? old := by
  unfold rename at h
  cases hget : dir.get? old with
  | none =>
      rw [hget] at h
      cases h
  | some content =>
      rw [hget] at h
      obtain rfl := Option.some.inj h
      split
      · next hsame => rw [← hsame, hget]
      · rw [Map.get?_set_self]

/-- After a rename the new name is taken. -/
theorem get?_rename_new {dir dir' : Dir α} {old new : String}
    (h : rename dir old new = some dir') : dir'.get? new ≠ none := by
  rw [get?_rename h]
  unfold rename at h
  intro hnone
  rw [hnone] at h
  cases h

/-- A rename leaves every other file alone. -/
theorem get?_rename_ne {dir dir' : Dir α} {old new name : String} (hold : name ≠ old)
    (hnew : name ≠ new) (h : rename dir old new = some dir') : dir'.get? name = dir.get? name := by
  unfold rename at h
  cases hget : dir.get? old with
  | none =>
      rw [hget] at h
      cases h
  | some content =>
      rw [hget] at h
      obtain rfl := Option.some.inj h
      split
      · rfl
      · rw [Map.get?_set_ne _ _ hnew, Map.get?_delete_ne _ hold]

/-- An append leaves every other file alone. -/
theorem get?_append_ne {dir : Dir α} {name name' : String} {item : α} (h : name' ≠ name) :
    (append dir name item).get? name' = dir.get? name' :=
  Map.get?_set_ne dir _ h

/-- An item counted once in the directory is in one file only. -/
theorem existsUnique_of_count [BEq α] [LawfulBEq α] {dir : Dir α} {item : α}
    (h : (items dir).count item = 1) :
    ∃! name, ∃ content, dir.get? name = some content ∧ item ∈ content := by
  have hmem : item ∈ items dir := List.count_pos_iff.mp (by omega)
  obtain ⟨content, hvalue, hitem⟩ := List.mem_flatten.mp hmem
  obtain ⟨name, hname⟩ := (dir.mem_values_iff content).mp hvalue
  refine ⟨name, ⟨content, hname, hitem⟩, ?_⟩
  rintro name' ⟨content', hname', hitem'⟩
  by_contra hne
  -- two files that hold it would count it twice
  have hdel : (dir.delete name).get? name' = some content' := by
    rw [Map.get?_delete_ne _ hne]
    exact hname'
  have hcount : (items dir).count item =
      content.count item + (content'.count item +
        (items ((dir.delete name).delete name')).count item) := by
    rw [(items_of_get? hname).count_eq, List.count_append, (items_of_get? hdel).count_eq,
      List.count_append]
  have hone : 0 < content.count item := List.count_pos_iff.mpr hitem
  have htwo : 0 < content'.count item := List.count_pos_iff.mpr hitem'
  omega

end Files
