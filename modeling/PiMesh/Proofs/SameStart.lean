/-
Both adapters on the start of a session.

`chooseInitialIdentity` was pulled out so that the adapters agree, and the one for OpenCode makes
the choice again by itself.  It does not look at a pinned alias, so a session with a stored identity
keeps the alias it had; and it trims the configured rooms and leaves out what it has seen, where
the other only leaves out the blank ones.  The two start alike exactly if none of this matters.
-/
import PiMesh.OpenCode.Runtime
import PiMesh.Broker.Reference

namespace PiMesh

open Js

/-! ### What the result speaks of -/

/-- The alias that the stored identity asks for. -/
def wantedAlias (stored : Option PersistedIdentity) : Option String :=
  stored.map fun id => id.preferredAlias.getD id.name

/-- The rooms that are stored. -/
def storedRooms (stored : Option PersistedIdentity) : List String :=
  (stored.map fun id => id.rooms).getD []

/-- No alias is pinned, or the one that the stored identity asks for. -/
def AliasAlike (cfg : IdentityConfig) (stored : Option PersistedIdentity) : Prop :=
  given cfg.name = none ∨ given cfg.name = wantedAlias stored

/-- The configured rooms are read alike: where they are pinned, none of them is blank, or all are
and the stored ones are the same; where nothing is stored, those that are not blank are trimmed and
distinct. -/
def RoomsAlike (cfg : IdentityConfig) (stored : Option PersistedIdentity) : Prop :=
  if cfg.roomsPinned = true ∧ cfg.rooms ≠ [] then
    (∀ room ∈ cfg.rooms, isNamed room = true) ∨
      ((∀ room ∈ cfg.rooms, isNamed room = false) ∧ storedRooms stored = cfg.rooms)
  else
    storedRooms stored ≠ [] ∨
      ((∀ room ∈ cfg.rooms, isNamed room = true → trim room = room) ∧
        (cfg.rooms.filter isNamed).Nodup)

instance (cfg : IdentityConfig) (stored : Option PersistedIdentity) :
    Decidable (AliasAlike cfg stored) := inferInstanceAs (Decidable (_ ∨ _))

instance (cfg : IdentityConfig) (stored : Option PersistedIdentity) :
    Decidable (RoomsAlike cfg stored) := by
  unfold RoomsAlike
  infer_instance

/-- The session starts as `chooseInitialIdentity` has it. -/
structure StartsAsChosen (rt : Runtime) (random : Fin 256 × Fin 256 × Fin 256)
    (load : Option String → Option PersistedIdentity) (cfg : IdentityConfig)
    (identityKey : Option String) : Prop where
  asked : (createSessionRuntime rt random [] load cfg identityKey).asked =
    (chooseInitialIdentity cfg (load identityKey)).name
  preferred : (createSessionRuntime rt random [] load cfg identityKey).preferredAlias =
    (chosenStart rt random load cfg identityKey).preferredAlias
  rooms : (createSessionRuntime rt random [] load cfg identityKey).rooms =
    (chooseInitialIdentity cfg (load identityKey)).rooms

/-! ### Aliases -/

section Aliases

variable {rt : Runtime} {random : Fin 256 × Fin 256 × Fin 256}
  {load : Option String → Option PersistedIdentity} {cfg : IdentityConfig} {key : Option String}

theorem createSession_asked : (createSessionRuntime rt random [] load cfg key).asked = wantedAlias (load key) := by
  unfold createSessionRuntime wantedAlias
  cases load key with
  | none => rfl
  | some id => cases hpreferred : id.preferredAlias <;> simp [hpreferred]

theorem chosen_name (persisted : Option PersistedIdentity) :
    (chooseInitialIdentity cfg persisted).name =
      (given cfg.name).orElse fun _ => wantedAlias persisted := rfl

/-- The stored alias is asked for, so a pinned one has to be the same. -/
theorem asked_iff : (createSessionRuntime rt random [] load cfg key).asked =
    (chooseInitialIdentity cfg (load key)).name ↔ AliasAlike cfg (load key) := by
  rw [createSession_asked, chosen_name]
  unfold AliasAlike
  cases given cfg.name with
  | none => simp
  | some pinned =>
      simp only [Option.orElse_some, reduceCtorEq, false_or]
      exact eq_comm

theorem preferred_of_asked (h : (createSessionRuntime rt random [] load cfg key).asked =
    (chooseInitialIdentity cfg (load key)).name) :
    (createSessionRuntime rt random [] load cfg key).preferredAlias =
      (chosenStart rt random load cfg key).preferredAlias := by
  have hkept : (createSessionRuntime rt random [] load cfg key).preferredAlias =
      (createSessionRuntime rt random [] load cfg key).asked.getD
        (clientAlias rt random (createSessionRuntime rt random [] load cfg key).asked) := rfl
  rw [hkept, h]
  rfl

end Aliases

/-! ### Rooms -/

/-- What `initialRooms` has collected so far. -/
structure Collected (out : List String) : Prop where
  named : ∀ room ∈ out, isNamed room = true
  trimmed : ∀ room ∈ out, trim room = room
  distinct : out.Nodup

theorem Collected.addRoom {out : List String} (h : Collected out) (room : String) :
    Collected (addRoom out room) := by
  unfold PiMesh.addRoom
  by_cases hnew : trim room ≠ "" ∧ trim room ∉ out
  · rw [if_pos hnew]
    have hnamed : isNamed (trim room) = true := by simpa [isNamed] using hnew.1
    refine ⟨?_, ?_, ?_⟩
    · intro r hr
      rcases List.mem_append.mp hr with hr | hr
      · exact h.named r hr
      · rw [List.mem_singleton.mp hr]
        exact hnamed
    · intro r hr
      rcases List.mem_append.mp hr with hr | hr
      · exact h.trimmed r hr
      · rw [List.mem_singleton.mp hr, trim_trim]
    · rw [List.nodup_append]
      refine ⟨h.distinct, by simp, ?_⟩
      intro a ha b hb heq
      rw [List.mem_singleton.mp hb] at heq
      exact hnew.2 (by rw [← heq]; exact ha)
  · rw [if_neg hnew]
    exact h

theorem collected_foldl (l : List String) {out : List String} (h : Collected out) :
    Collected (l.foldl addRoom out) := by
  induction l generalizing out with
  | nil => exact h
  | cons room l ih => exact ih (h.addRoom room)

/-- Rooms that are trimmed and distinct are collected as they are. -/
theorem foldl_addRoom {l out : List String}
    (htrim : ∀ room ∈ l, isNamed room = true → trim room = room)
    (hdistinct : (out ++ l.filter isNamed).Nodup) :
    l.foldl addRoom out = out ++ l.filter isNamed := by
  induction l generalizing out with
  | nil => simp
  | cons room l ih =>
      have hrest := fun r hr => htrim r (List.mem_cons_of_mem room hr)
      rw [List.foldl_cons]
      by_cases hnamed : isNamed room = true
      · rw [List.filter_cons_of_pos hnamed] at hdistinct ⊢
        have hout : room ∉ out := by
          intro hmem
          exact (List.nodup_append.mp hdistinct).2.2 room hmem room (by simp) rfl
        have hadd : addRoom out room = out ++ [room] := by
          unfold addRoom
          rw [htrim room (by simp) hnamed]
          refine if_pos ⟨?_, hout⟩
          rw [← htrim room (by simp) hnamed]
          simpa [isNamed] using hnamed
        rw [hadd, ih hrest (by simpa using hdistinct)]
        simp
      · rw [List.filter_cons_of_neg hnamed] at hdistinct ⊢
        have hadd : addRoom out room = out := by
          unfold addRoom
          refine if_neg fun h => hnamed ?_
          simpa [isNamed] using h.1
        rw [hadd, ih hrest hdistinct]

/-- The two ways to read the configured rooms differ unless these are trimmed and distinct. -/
theorem collected_iff (l : List String) : l.foldl addRoom [] = l.filter isNamed ↔
    (∀ room ∈ l, isNamed room = true → trim room = room) ∧ (l.filter isNamed).Nodup := by
  constructor
  · intro h
    have hall := collected_foldl l ⟨by simp, by simp, List.nodup_nil⟩
    rw [h] at hall
    refine ⟨?_, hall.distinct⟩
    intro room hroom hnamed
    exact hall.trimmed room (List.mem_filter.mpr ⟨hroom, hnamed⟩)
  · intro h
    exact foldl_addRoom h.1 (by simpa using h.2)

theorem addRoom_keeps (out : List String) (room : String) : out <+: addRoom out room := by
  unfold addRoom
  dsimp only
  split
  · exact List.prefix_append out _
  · exact List.prefix_refl out

theorem foldl_addRoom_keeps (l out : List String) : out <+: l.foldl addRoom out := by
  induction l generalizing out with
  | nil => exact List.prefix_refl out
  | cons room l ih => exact (addRoom_keeps out room).trans (ih _)

/-- Nothing is collected exactly if all rooms are blank. -/
theorem collected_nil_iff (l : List String) :
    l.foldl addRoom [] = [] ↔ l.filter isNamed = [] := by
  induction l with
  | nil => simp
  | cons room l ih =>
      rw [List.foldl_cons]
      by_cases hnamed : isNamed room = true
      · have hadd : addRoom [] room = [trim room] := by
          unfold addRoom
          exact if_pos ⟨by simpa [isNamed] using hnamed, by simp⟩
        rw [List.filter_cons_of_pos hnamed, hadd]
        have hkept := foldl_addRoom_keeps l [trim room]
        constructor
        · intro h
          rw [h] at hkept
          simp at hkept
        · intro h
          simp at h
      · have hadd : addRoom [] room = [] := by
          unfold addRoom
          refine if_neg fun h => hnamed ?_
          simpa [isNamed] using h.1
        rw [List.filter_cons_of_neg hnamed, hadd, ih]

/-- The rooms of a first start, from what was made of the configured ones. -/
def orDefault (rooms : List String) : List String := if rooms ≠ [] then rooms else [defaultRoom]

theorem orDefault_collected_iff (l : List String) :
    orDefault (l.foldl addRoom []) = orDefault (l.filter isNamed) ↔
      l.foldl addRoom [] = l.filter isNamed := by
  unfold orDefault
  by_cases hnil : l.filter isNamed = []
  · rw [hnil, (collected_nil_iff l).mpr hnil]
    simp
  · rw [if_pos hnil, if_pos fun h => hnil ((collected_nil_iff l).mp h)]

section Rooms

variable {cfg : IdentityConfig} {stored : Option PersistedIdentity}

theorem initialRooms_pinned (h : cfg.roomsPinned = true ∧ cfg.rooms ≠ []) :
    initialRooms [] cfg stored = cfg.rooms := by
  unfold initialRooms
  simp [h.1, h.2]

theorem initialRooms_unpinned (h : ¬ (cfg.roomsPinned = true ∧ cfg.rooms ≠ [])) :
    initialRooms [] cfg stored =
      if storedRooms stored ≠ [] then storedRooms stored
      else orDefault (cfg.rooms.foldl addRoom []) := by
  unfold initialRooms storedRooms orDefault
  rw [List.append_nil]
  cases stored with
  | none => simp_all
  | some id => simp_all

theorem chosen_rooms (persisted : Option PersistedIdentity) :
    (chooseInitialIdentity cfg persisted).rooms =
      if cfg.roomsPinned = true ∧ cfg.rooms.filter isNamed ≠ [] then cfg.rooms.filter isNamed
      else if storedRooms persisted ≠ [] then storedRooms persisted
      else orDefault (cfg.rooms.filter isNamed) := by
  unfold chooseInitialIdentity storedRooms orDefault
  cases persisted with
  | none => simp
  | some id => simp

/-- A blank name is not what is written for the default. -/
theorem orDefault_blank {l : List String} (hblank : ∀ room ∈ l, isNamed room = false) :
    l ≠ orDefault (l.filter isNamed) := by
  have hnil : l.filter isNamed = [] := by
    rw [List.filter_eq_nil_iff]
    intro room hroom
    simp [hblank room hroom]
  intro h
  rw [hnil] at h
  have hdefault := hblank defaultRoom (by rw [h]; simp [orDefault])
  exact absurd hdefault (by decide)

theorem rooms_iff : initialRooms [] cfg stored = (chooseInitialIdentity cfg stored).rooms ↔
    RoomsAlike cfg stored := by
  rw [chosen_rooms]
  unfold RoomsAlike
  by_cases hpin : cfg.roomsPinned = true ∧ cfg.rooms ≠ []
  · rw [initialRooms_pinned hpin, if_pos hpin]
    by_cases hnil : cfg.rooms.filter isNamed = []
    · -- all of them are blank, and only the stored ones can be the same
      have hblank : ∀ room ∈ cfg.rooms, isNamed room = false := by
        intro room hroom
        simpa using List.filter_eq_nil_iff.mp hnil room hroom
      have hsome : ¬ ∀ room ∈ cfg.rooms, isNamed room = true := by
        intro hall
        obtain ⟨room, hroom⟩ := List.exists_mem_of_ne_nil _ hpin.2
        have hno := hblank room hroom
        rw [hall room hroom] at hno
        simp at hno
      rw [if_neg fun h => h.2 hnil]
      constructor
      · intro h
        refine .inr ⟨hblank, ?_⟩
        by_cases hstored : storedRooms stored ≠ []
        · rw [if_pos hstored] at h
          exact h.symm
        · rw [if_neg hstored] at h
          exact absurd h (orDefault_blank hblank)
      · intro h
        rcases h with hall | ⟨-, hsame⟩
        · exact absurd hall hsome
        · rw [hsame, if_pos hpin.2]
    · rw [if_pos ⟨hpin.1, hnil⟩]
      have hsome : ¬ ∀ room ∈ cfg.rooms, isNamed room = false := by
        intro hblank
        apply hnil
        rw [List.filter_eq_nil_iff]
        intro room hroom
        simp [hblank room hroom]
      constructor
      · intro h
        exact .inl (List.filter_eq_self.mp h.symm)
      · intro h
        rcases h with hall | ⟨hblank, -⟩
        · exact (List.filter_eq_self.mpr hall).symm
        · exact absurd hblank hsome
  · have hunpinned : ¬ (cfg.roomsPinned = true ∧ cfg.rooms.filter isNamed ≠ []) := by
      intro h
      exact hpin ⟨h.1, fun hnil => h.2 (by rw [hnil]; rfl)⟩
    rw [initialRooms_unpinned hpin, if_neg hpin, if_neg hunpinned]
    by_cases hstored : storedRooms stored ≠ []
    · rw [if_pos hstored, if_pos hstored]
      simp [hstored]
    · rw [if_neg hstored, if_neg hstored, orDefault_collected_iff, collected_iff]
      simp [hstored]

end Rooms

/-- **A session in OpenCode starts as `chooseInitialIdentity` has it exactly if no alias is pinned
but the stored one, and the configured rooms are read alike.** -/
theorem starts_as_chosen_iff (rt : Runtime) (random : Fin 256 × Fin 256 × Fin 256)
    (load : Option String → Option PersistedIdentity) (cfg : IdentityConfig)
    (identityKey : Option String) :
    StartsAsChosen rt random load cfg identityKey ↔
      AliasAlike cfg (load identityKey) ∧ RoomsAlike cfg (load identityKey) := by
  constructor
  · intro h
    exact ⟨asked_iff.mp h.asked, rooms_iff.mp h.rooms⟩
  · intro h
    have hasked : (createSessionRuntime rt random [] load cfg identityKey).asked = _ :=
      asked_iff.mpr h.1
    exact ⟨hasked, preferred_of_asked hasked, rooms_iff.mpr h.2⟩

/-- A stored identity and another alias that is pinned. -/
def storedWorker : PersistedIdentity :=
  { sessionId := "s1", name := "worker", rooms := ["ops"], reservations := [],
    updatedAt := "2024-01-01T00:00:00.000Z" }

/-- The pin wins in one adapter, and the other does not see it. -/
theorem pinned_alias_lost :
    (createSessionRuntime referenceRuntime (0, 0, 0) [] (fun _ => some storedWorker)
      { name := some "lead" } none).asked = some "worker" ∧
    (chooseInitialIdentity { name := some "lead" } (some storedWorker)).name = some "lead" ∧
    ¬ StartsAsChosen referenceRuntime (0, 0, 0) (fun _ => some storedWorker)
      { name := some "lead" } none := by
  have hasked : (createSessionRuntime referenceRuntime (0, 0, 0) [] (fun _ => some storedWorker)
      { name := some "lead" } none).asked = some "worker" := by decide
  have hchosen : (chooseInitialIdentity { name := some "lead" } (some storedWorker)).name =
      some "lead" := by decide
  refine ⟨hasked, hchosen, ?_⟩
  intro h
  have hsame := h.asked
  rw [hasked, hchosen] at hsame
  exact absurd hsame (by decide)

end PiMesh
