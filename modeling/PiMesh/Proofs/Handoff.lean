/-
Handoffs in progress at the same time.

What a session reads it checks, so whatever the order of the system calls a bound handoff is
taken by its own child and in time.  The staging file is another matter: there is one for all
parents.  A handoff stays in it where every session moves the file it wrote, removes the file it
read, and leaves alone what another parent has staged; the invariant says that the file holds
every bound handoff whose save has returned and whose time is not over, so at such times there
is no second one.
-/
import PiMesh.Extension.Handoff
import PiMesh.Proofs.Identity
import PiMesh.Lib.Transition

namespace PiMesh

open Js Transition

variable {ν : Type} [Number ν] {rt : Runtime}

/-- A system call of a session as a relation. -/
def HandoffStep (ν : Type) [Number ν] (rt : Runtime) (st : HandoffState) (e : HandoffEvent)
    (st' : HandoffState) : Prop := handoffStep ν rt st e = some st'

abbrev HandoffTrace := List (HandoffState × HandoffEvent)

/-- What a child reads back of a handoff. -/
def Handoff.received (ν : Type) [Number ν] (rt : Runtime) (now : Int) (h : Handoff) :
    PersistedIdentity × Option (List String) :=
  (h.identity.reread ν rt now "",
    if h.history.getD [] = [] then none else some (h.history.getD []))

/-- What is remembered of a child's call. -/
def Handoff.taking (ν : Type) [Number ν] (rt : Runtime) (h : Handoff) (index : Nat)
    (parentFile : Option String) (now : Int) : Taking :=
  ⟨index, parentFile, now, (h.received ν rt now).1, (h.received ν rt now).2⟩

/-! ### What is asked of the handoffs -/

/-- Bound handoffs are isolated. -/
structure Isolated (ν : Type) [Number ν] (rt : Runtime) (st : HandoffState) : Prop where
  /-- Whoever took one is a child of its parent, came in time, and got what was staged. -/
  taken : ∀ t ∈ st.takings, ∀ h file, st.saves[t.index]? = some h → h.parent = some file →
    t.parentFile = some file ∧ InTime rt t.now h.identity ∧
      (t.identity, t.history) = h.received ν rt t.now
  once : ∀ i h, st.saves[i]? = some h → h.parent ≠ none →
    (st.takings.map Taking.index).count i ≤ 1
  /-- As long as its time is not over, a child of the parent would get it. -/
  kept : ∀ i ∈ st.completed, i ∉ st.ended → ∀ h file, st.saves[i]? = some h →
    h.parent = some file → ∀ clock, InTime rt clock h.identity →
    (MeshIdentity.consumePending ν rt (fun _ => true) clock st.dir (some file) none).2
      = some (h.received ν rt clock)

namespace HandoffState

/-- No other parent's handoff waits in the staging file. -/
def Spares (rt : Runtime) (st : HandoffState) (parent : Option String) (now : Int) : Prop :=
  ∀ h, st.handoff? st.staged = some h → h.parent ≠ none →
    h.parent = parent ∨ h.isFresh rt now = false

end HandoffState

/-- A save moves the file it wrote and a consumer removes the file it read; neither a save nor a
clear comes while the handoff of another parent is staged. -/
def LeavesStaged (rt : Runtime) (st : HandoffState) : HandoffEvent → Prop
  | .publish session now => ∀ i h, st.phases.get? session = some (.saving i) →
      st.saves[i]? = some h → st.written = some i ∧ st.Spares rt h.parent now
  | .finish session => ∀ i raw parentFile now h,
      st.phases.get? session = some (.consuming i raw parentFile now) → st.saves[i]? = some h →
      (h.isFresh rt now = false ∨ h.admits parentFile = true) → st.staged = none ∨ st.staged = some i
  | .clear sessionFile now => st.Spares rt (given sessionFile) now
  | _ => True

/-! ### Reading a handoff -/

section Reading

variable {now : Int} {h : Handoff} {dir : StateDir}

theorem isFresh_iff : h.isFresh rt now = true ↔ InTime rt now h.identity := by
  unfold Handoff.isFresh InTime
  rw [Option.any_eq_true]
  refine exists_congr fun t => ?_
  simp

theorem admits_iff {parentFile : Option String} : h.admits parentFile = true ↔
    ∀ file, h.parent = some file → parentFile = some file := by
  unfold Handoff.admits
  cases h.parent with
  | none => simp
  | some file => simp

theorem lookup_history (id : PersistedIdentity) (history : Option (List String))
    (forParent : Option String) :
    lookupEntry "history" (pendingMembers (ν := ν) id history forParent)
      = history.map jsonStrs := by
  unfold pendingMembers PersistedIdentity.members
  cases id.preferredAlias <;> cases id.projectRoom <;> cases history <;> cases given forParent <;>
    simp [lookupEntry]

/-- What `consumePending` makes of a handoff it has read. -/
theorem takePending_text (hexact : Exact ν) {clock : Int} {parentFile : Option String} :
    MeshIdentity.takePending ν rt (fun _ => true) clock now (h.text ν) dir parentFile =
      if h.isFresh rt now = false then (MeshIdentity.clearPending (fun _ => true) dir, none)
      else if h.admits parentFile = false then (dir, none)
      else if dir.has identityPendingName then
        (dir.delete identityPendingName, some (h.received ν rt clock))
      else (dir, none) := by
  obtain ⟨-, -, -, -, -, -, hupdated, hhandoff⟩ := lookups (ν := ν) h.identity h.history h.forParent
  have hhistory := lookup_history (ν := ν) h.identity h.history h.forParent
  have hstr : Json.wire (.str h.identity.updatedAt : Json ν) = .str h.identity.updatedAt := rfl
  have hstrings : stringsOf ((h.history.map (jsonStrs (ν := ν))).map Json.wire)
      = h.history.getD [] := by
    cases h.history with
    | none => rfl
    | some l =>
        rw [Option.map_some, Option.map_some, wire_jsonStrs, stringsOf_jsonStrs]
        rfl
  unfold MeshIdentity.takePending Handoff.text
  simp only [parse_identityText, getOf, Json.lookupEntry_wireMembers, hupdated, hhandoff, hhistory,
    Option.map_some, hstr, wire_map_str, bind_map_str, given_given, hstrings,
    parseIdentity_written h.identity h.history h.forParent hexact "" true (.inl rfl), if_neg h.named]
  have hunlink : unlinkFile (fun _ => true) dir identityPendingName
      = if dir.has identityPendingName then some (dir.delete identityPendingName) else none := by
    unfold unlinkFile
    rw [Bool.true_and]
  have hfresh : h.isFresh rt now = ((rt.dateParse h.identity.updatedAt).filter fun t =>
      decide (0 ≤ now - t) && decide (now - t ≤ pendingTtlMs)).isSome := by
    unfold Handoff.isFresh
    cases rt.dateParse h.identity.updatedAt with
    | none => rfl
    | some t =>
        rw [Option.any_some, Option.filter_some]
        cases decide (0 ≤ now - t) && decide (now - t ≤ pendingTtlMs) <;> rfl
  have hadmits : h.admits parentFile
      = !(given h.forParent).any fun file => decide (parentFile ≠ some file) := by
    unfold Handoff.admits Handoff.parent
    cases given h.forParent with
    | none => rfl
    | some file => simp
  rw [hfresh, hadmits, hunlink]
  cases hdate : (rt.dateParse h.identity.updatedAt).filter fun t =>
      decide (0 ≤ now - t) && decide (now - t ≤ pendingTtlMs) with
  | none => rw [← hunlink]; rfl
  | some t =>
      dsimp only [Option.isSome_some]
      cases hany : (given h.forParent).any fun file => decide (parentFile ≠ some file) with
      | true => rfl
      | false =>
          cases hhas : dir.has identityPendingName with
          | true => rfl
          | false => rfl

end Reading

/-! ### The two files -/

section Dir

variable {dir dir' : StateDir}

theorem pending_ne_tmp : identityPendingName ≠ pendingTmpName := by decide

theorem has_eq_false {name : String} : dir.has name = false ↔ dir.get? name = none := by
  rw [Bool.eq_false_iff, ne_eq, Map.has_iff]
  cases dir.get? name <;> simp

theorem clearPending_eq :
    MeshIdentity.clearPending (fun _ => true) dir = dir.delete identityPendingName := by
  unfold MeshIdentity.clearPending unlinkFile
  cases hhas : dir.has identityPendingName with
  | true => rfl
  | false => exact (Map.delete_of_get?_eq_none (has_eq_false.mp hhas)).symm

theorem get?_tmp_delete : (dir.delete identityPendingName).get? pendingTmpName
    = dir.get? pendingTmpName := Map.get?_delete_ne _ (Ne.symm pending_ne_tmp)

end Dir

/-! ### The invariant -/

structure HandoffInv (ν : Type) [Number ν] (rt : Runtime) (st : HandoffState) : Prop where
  saving : ∀ session i, st.phases.get? session = some (.saving i) →
    i < st.saves.length ∧ i ∉ st.completed
  /-- A save is one session's. -/
  unique : ∀ session session' i, st.phases.get? session = some (.saving i) →
    st.phases.get? session' = some (.saving i) → session = session'
  consuming : ∀ session i raw parentFile now,
    st.phases.get? session = some (.consuming i raw parentFile now) →
    ∃ h, st.saves[i]? = some h ∧ raw = h.text ν
  written : ∀ i, st.written = some i →
    ∃ h, st.saves[i]? = some h ∧ st.dir.get? pendingTmpName = some (h.text ν)
  staged : ∀ i, st.staged = some i → i ∈ st.completed ∧
    ∃ h, st.saves[i]? = some h ∧ st.dir.get? identityPendingName = some (h.text ν)
  unstaged : st.staged = none → st.dir.get? identityPendingName = none
  known : ∀ i ∈ st.completed, i < st.saves.length
  gone : ∀ t ∈ st.takings, t.index ∈ st.completed ∧ st.staged ≠ some t.index
  taken : ∀ t ∈ st.takings, ∀ h file, st.saves[t.index]? = some h → h.parent = some file →
    t.parentFile = some file ∧ InTime rt t.now h.identity ∧
      (t.identity, t.history) = h.received ν rt t.now
  once : ∀ i, (st.takings.map Taking.index).count i ≤ 1
  kept : ∀ i ∈ st.completed, i ∉ st.ended → ∀ h, st.saves[i]? = some h → h.parent ≠ none →
    st.staged = some i

theorem inv_init : HandoffInv ν rt {} where
  saving _ _ h := by cases h
  unique _ _ _ h := by cases h
  consuming _ _ _ _ _ h := by cases h
  written _ h := by cases h
  staged _ h := by cases h
  unstaged _ := rfl
  known _ h := by cases h
  gone _ h := by cases h
  taken _ h := by cases h
  once _ := Nat.zero_le _
  kept _ h := by cases h

section Steps

variable {st st' : HandoffState}

/-- A staged handoff that the parent may end, or whose time is over, is released. -/
theorem mem_released {parent : Option String} {now : Int} {i : Nat} {h : Handoff}
    (hspares : st.Spares rt parent now) (hstaged : st.staged = some i) (hh : st.saves[i]? = some h)
    (hbound : h.parent ≠ none) : i ∈ st.released rt parent now := by
  have hof : st.handoff? st.staged = some h := by
    rw [hstaged]
    exact hh
  unfold HandoffState.released
  rw [hof, hstaged, if_pos]
  · exact List.mem_singleton_self i
  · rw [Option.any_some]
    rcases hspares h hof hbound with heq | hold
    · rw [heq]
      simp
    · rw [hold]
      simp

theorem inv_write (hi : HandoffInv ν rt st) {session : Nat} {h : Handoff} :
    HandoffInv ν rt { st with
      dir := st.dir.set pendingTmpName (h.text ν)
      phases := st.phases.set session (.saving st.saves.length)
      saves := st.saves ++ [h]
      written := some st.saves.length } := by
  have hold : ∀ {i : Nat}, i < st.saves.length → (st.saves ++ [h])[i]? = st.saves[i]? :=
    fun hlt => List.getElem?_append_left hlt
  have hlt : ∀ {i : Nat} {h' : Handoff}, st.saves[i]? = some h' → i < st.saves.length :=
    fun hh => (List.getElem?_eq_some_iff.mp hh).1
  have hkept : ∀ {i : Nat} {h' : Handoff}, st.saves[i]? = some h' →
      (st.saves ++ [h])[i]? = some h' := fun hh => (hold (hlt hh)).trans hh
  have hpending : (st.dir.set pendingTmpName (h.text ν)).get? identityPendingName
      = st.dir.get? identityPendingName := Map.get?_set_ne _ _ pending_ne_tmp
  have hphase : ∀ {s : Nat} {p : HandoffPhase},
      (st.phases.set session (.saving st.saves.length)).get? s = some p →
      (s = session ∧ p = .saving st.saves.length) ∨ st.phases.get? s = some p := by
    intro s p hp
    rw [Map.get?_set] at hp
    by_cases hs : s = session
    · rw [if_pos hs] at hp
      exact .inl ⟨hs, (Option.some.inj hp).symm⟩
    · rw [if_neg hs] at hp
      exact .inr hp
  refine ⟨?_, ?_, ?_, ?_, ?_, ?_, ?_, hi.gone, ?_, hi.once, ?_⟩
  · intro s i hp
    rw [List.length_append]
    rcases hphase hp with ⟨-, heq⟩ | hp
    · obtain rfl := HandoffPhase.saving.inj heq
      exact ⟨Nat.lt_succ_self _, fun hc => Nat.lt_irrefl _ (hi.known _ hc)⟩
    · exact ⟨Nat.lt_succ_of_lt (hi.saving s i hp).1, (hi.saving s i hp).2⟩
  · intro s s' i hp hp'
    rcases hphase hp with ⟨hs, heq⟩ | hold₁
    · obtain rfl := HandoffPhase.saving.inj heq
      rcases hphase hp' with ⟨hs', -⟩ | hold₂
      · exact hs.trans hs'.symm
      · exact absurd (hi.saving s' _ hold₂).1 (Nat.lt_irrefl _)
    · rcases hphase hp' with ⟨-, heq⟩ | hold₂
      · obtain rfl := HandoffPhase.saving.inj heq
        exact absurd (hi.saving s _ hold₁).1 (Nat.lt_irrefl _)
      · exact hi.unique s s' i hold₁ hold₂
  · intro s i raw parentFile now hp
    rcases hphase hp with ⟨-, heq⟩ | hp
    · cases heq
    · obtain ⟨h', hh, hraw⟩ := hi.consuming s i raw parentFile now hp
      exact ⟨h', hkept hh, hraw⟩
  · intro i hw
    obtain rfl := Option.some.inj hw
    exact ⟨h, List.getElem?_concat_length, Map.get?_set_self _ _ _⟩
  · intro i hs
    obtain ⟨hc, h', hh, htext⟩ := hi.staged i hs
    exact ⟨hc, h', hkept hh, hpending.trans htext⟩
  · intro hs
    exact hpending.trans (hi.unstaged hs)
  · intro i hc
    rw [List.length_append]
    exact Nat.lt_succ_of_lt (hi.known i hc)
  · intro t ht h' file hh hfile
    rw [hold (hi.known _ (hi.gone t ht).1)] at hh
    exact hi.taken t ht h' file hh hfile
  · intro i hc hended h' hh hbound
    rw [hold (hi.known i hc)] at hh
    exact hi.kept i hc hended h' hh hbound

theorem get?_of_delete {session s : Nat} {p : HandoffPhase}
    (hp : (st.phases.delete session).get? s = some p) :
    s ≠ session ∧ st.phases.get? s = some p := by
  rw [Map.get?_delete] at hp
  by_cases hs : s = session
  · rw [if_pos hs] at hp
    cases hp
  · rw [if_neg hs] at hp
    exact ⟨hs, hp⟩

theorem inv_publish (hi : HandoffInv ν rt st) {session i : Nat} {now : Int}
    (hsaving : st.phases.get? session = some (.saving i))
    (hok : LeavesStaged rt st (.publish session now)) {content : List Char}
    (hcontent : st.dir.get? pendingTmpName = some content) :
    HandoffInv ν rt { st with
      dir := (st.dir.delete pendingTmpName).set identityPendingName content
      phases := st.phases.delete session
      written := none
      staged := st.written
      completed := st.completed ++ [i]
      ended := st.ended ++ st.released rt ((st.handoff? (some i)).bind Handoff.parent) now } := by
  obtain ⟨hlt, hnew⟩ := hi.saving session i hsaving
  obtain ⟨h, hh⟩ : ∃ h, st.saves[i]? = some h := ⟨_, List.getElem?_eq_getElem hlt⟩
  obtain ⟨hwritten, hspares⟩ := hok i h hsaving hh
  obtain ⟨h', hh', htext⟩ := hi.written i hwritten
  obtain rfl := Option.some.inj (hh.symm.trans hh')
  obtain rfl := Option.some.inj (hcontent.symm.trans htext)
  have hparent : (st.handoff? (some i)).bind Handoff.parent = h.parent := by
    show st.saves[i]?.bind Handoff.parent = h.parent
    rw [hh]
    rfl
  have hdone : ∀ {j : Nat}, j ∈ st.completed ++ [i] → j ∈ st.completed ∨ j = i := by
    intro j hj
    rcases List.mem_append.mp hj with hj | hj
    · exact .inl hj
    · exact .inr (List.mem_singleton.mp hj)
  refine ⟨?_, ?_, ?_, ?_, ?_, ?_, ?_, ?_, hi.taken, hi.once, ?_⟩
  · intro s j hp
    obtain ⟨hs, hold⟩ := get?_of_delete hp
    refine ⟨(hi.saving s j hold).1, fun hj => ?_⟩
    rcases hdone hj with hj | rfl
    · exact (hi.saving s j hold).2 hj
    · exact hs (hi.unique s session j hold hsaving)
  · intro s s' j hp hp'
    exact hi.unique s s' j (get?_of_delete hp).2 (get?_of_delete hp').2
  · intro s j raw parentFile clock hp
    exact hi.consuming s j raw parentFile clock (get?_of_delete hp).2
  · intro j hj
    cases hj
  · intro j hj
    obtain rfl := Option.some.inj (hwritten.symm.trans hj)
    exact ⟨List.mem_append_right _ (List.mem_singleton_self _), h, hh, Map.get?_set_self _ _ _⟩
  · intro hnone
    cases hwritten.symm.trans hnone
  · intro j hj
    rcases hdone hj with hj | rfl
    · exact hi.known j hj
    · exact hlt
  · intro t ht
    obtain ⟨hindex, -⟩ := hi.gone t ht
    refine ⟨List.mem_append_left _ hindex, fun hstaged => hnew ?_⟩
    obtain rfl := Option.some.inj (hwritten.symm.trans hstaged)
    exact hindex
  · intro j hj hended h' hh' hbound
    rcases hdone hj with hj | rfl
    · -- what was staged before is this parent's own, or its time is over
      have hold := hi.kept j hj (fun hmem => hended (List.mem_append_left _ hmem)) h' hh' hbound
      refine absurd (List.mem_append_right _ ?_) hended
      rw [hparent]
      exact mem_released hspares hold hh' hbound
    · exact hwritten

theorem inv_read (hi : HandoffInv ν rt st) {session : Nat} {parentFile : Option String} {now : Int}
    {raw : List Char} (hraw : st.dir.get? identityPendingName = some raw) :
    HandoffInv ν rt { st with
      phases := st.phases.set session (.consuming (st.staged.getD 0) raw parentFile now) } := by
  have hphase : ∀ {s : Nat} {p : HandoffPhase}, (st.phases.set session
      (.consuming (st.staged.getD 0) raw parentFile now)).get? s = some p →
      p = .consuming (st.staged.getD 0) raw parentFile now ∨ st.phases.get? s = some p := by
    intro s p hp
    rw [Map.get?_set] at hp
    by_cases hs : s = session
    · rw [if_pos hs] at hp
      exact .inl (Option.some.inj hp).symm
    · rw [if_neg hs] at hp
      exact .inr hp
  have hsaving : ∀ {s i : Nat}, (st.phases.set session
      (.consuming (st.staged.getD 0) raw parentFile now)).get? s = some (.saving i) →
      st.phases.get? s = some (.saving i) := by
    intro s i hp
    rcases hphase hp with heq | hold
    · cases heq
    · exact hold
  refine ⟨?_, ?_, ?_, hi.written, hi.staged, hi.unstaged, hi.known, hi.gone, hi.taken, hi.once,
    hi.kept⟩
  · intro s i hp
    exact hi.saving s i (hsaving hp)
  · intro s s' i hp hp'
    exact hi.unique s s' i (hsaving hp) (hsaving hp')
  · intro s i raw' parentFile' now' hp
    rcases hphase hp with heq | hold
    · obtain ⟨rfl, rfl, -, -⟩ := HandoffPhase.consuming.inj heq
      cases hstaged : st.staged with
      | none =>
          rw [hi.unstaged hstaged] at hraw
          cases hraw
      | some j =>
          obtain ⟨-, h, hh, htext⟩ := hi.staged j hstaged
          exact ⟨h, hh, Option.some.inj (hraw.symm.trans htext)⟩
    · exact hi.consuming s i raw' parentFile' now' hold

/-- Where the staging file is removed. -/
theorem inv_removed (hi : HandoffInv ν rt st) {phases : Map Nat HandoffPhase}
    {takings : List Taking} {ended : List Nat}
    (hphases : ∀ s p, phases.get? s = some p → st.phases.get? s = some p)
    (hended : ∀ i ∈ st.ended, i ∈ ended)
    (hstaged : ∀ i h, st.staged = some i → st.saves[i]? = some h → h.parent ≠ none → i ∈ ended)
    (hindex : ∀ t ∈ takings, t.index ∈ st.completed)
    (htaken : ∀ t ∈ takings, ∀ h file, st.saves[t.index]? = some h → h.parent = some file →
      t.parentFile = some file ∧ InTime rt t.now h.identity ∧
        (t.identity, t.history) = h.received ν rt t.now)
    (honce : ∀ i, (takings.map Taking.index).count i ≤ 1) :
    HandoffInv ν rt { st with
      dir := st.dir.delete identityPendingName, phases, staged := none, takings, ended } where
  saving s i hp := hi.saving s i (hphases _ _ hp)
  unique s s' i hp hp' := hi.unique s s' i (hphases _ _ hp) (hphases _ _ hp')
  consuming s i raw parentFile now hp := hi.consuming s i raw parentFile now (hphases _ _ hp)
  written i hw := by
    obtain ⟨h, hh, htext⟩ := hi.written i hw
    exact ⟨h, hh, get?_tmp_delete.trans htext⟩
  staged _ hs := by cases hs
  unstaged _ := Map.get?_delete_self _ _
  known := hi.known
  gone t ht := ⟨hindex t ht, by intro hs; cases hs⟩
  taken := htaken
  once := honce
  kept i hc hnot h hh hbound := by
    have hold := hi.kept i hc (fun hmem => hnot (hended i hmem)) h hh hbound
    exact absurd (hstaged i h hold hh hbound) hnot

/-- Where a session ends its call and no file is touched. -/
theorem inv_idle (hi : HandoffInv ν rt st) (session : Nat) :
    HandoffInv ν rt { st with phases := st.phases.delete session } :=
  ⟨fun s i hp => hi.saving s i (get?_of_delete hp).2,
    fun s s' i hp hp' => hi.unique s s' i (get?_of_delete hp).2 (get?_of_delete hp').2,
    fun s i raw parentFile now hp =>
      hi.consuming s i raw parentFile now (get?_of_delete hp).2,
    hi.written, hi.staged, hi.unstaged, hi.known, hi.gone, hi.taken, hi.once, hi.kept⟩

/-- A child takes the staged handoff; nobody took it before. -/
theorem inv_taken (hi : HandoffInv ν rt st) (session : Nat) {i : Nat} {h : Handoff}
    {parentFile : Option String} {now : Int} (hh : st.saves[i]? = some h)
    (hstaged : st.staged = some i) (hfresh : h.isFresh rt now = true)
    (hadmits : h.admits parentFile = true) :
    HandoffInv ν rt { st with
      dir := st.dir.delete identityPendingName
      phases := st.phases.delete session
      staged := none
      takings := st.takings ++ [h.taking ν rt i parentFile now]
      ended := st.ended ++ [i] } := by
  have hfirst : i ∉ st.takings.map Taking.index := by
    intro hmem
    obtain ⟨t, ht, rfl⟩ := List.mem_map.mp hmem
    exact (hi.gone t ht).2 hstaged
  apply inv_removed hi
  · intro s p hp
    exact (get?_of_delete hp).2
  · intro j hj
    exact List.mem_append_left _ hj
  · intro j h' hj _ _
    obtain rfl := Option.some.inj (hj.symm.trans hstaged)
    exact List.mem_append_right _ (List.mem_singleton_self _)
  · intro t ht
    rcases List.mem_append.mp ht with ht | ht
    · exact (hi.gone t ht).1
    · obtain rfl := List.mem_singleton.mp ht
      exact (hi.staged i hstaged).1
  · intro t ht h' file hh' hfile
    rcases List.mem_append.mp ht with ht | ht
    · exact hi.taken t ht h' file hh' hfile
    · obtain rfl := List.mem_singleton.mp ht
      obtain rfl := Option.some.inj (hh.symm.trans hh')
      exact ⟨admits_iff.mp hadmits file hfile, isFresh_iff.mp hfresh, rfl⟩
  · intro j
    rw [List.map_append, List.count_append]
    show (st.takings.map Taking.index).count j + [i].count j ≤ 1
    by_cases hj : j = i
    · rw [hj, List.count_eq_zero_of_not_mem hfirst, List.count_singleton_self]
    · rw [List.count_eq_zero_of_not_mem fun hmem => hj (List.mem_singleton.mp hmem)]
      exact hi.once j

/-- The handoff a session has read is taken, or is found too old, or nothing happens. -/
theorem inv_finished (hexact : Exact ν) (hi : HandoffInv ν rt st) {session i : Nat} {h : Handoff}
    {parentFile : Option String} {now : Int} (hh : st.saves[i]? = some h)
    (hlast : (h.isFresh rt now = false ∨ h.admits parentFile = true) →
      st.staged = none ∨ st.staged = some i) :
    HandoffInv ν rt (st.finished rt session i parentFile now
      (MeshIdentity.takePending ν rt (fun _ => true) now now (h.text ν) st.dir parentFile)) := by
  have hof : st.handoff? (some i) = some h := hh
  have hgone : (st.dir.delete identityPendingName).has identityPendingName = false :=
    has_eq_false.mpr (Map.get?_delete_self _ _)
  -- without the staging file no save is staged
  have hstays : (if st.dir.has identityPendingName then st.staged else none) = st.staged := by
    cases hstaged : st.staged with
    | none => exact ite_self _
    | some j =>
        obtain ⟨-, h', -, htext⟩ := hi.staged j hstaged
        exact if_pos ((Map.has_iff _ _).mpr ⟨_, htext⟩)
  rw [takePending_text hexact]
  by_cases hfresh : h.isFresh rt now = false
  · rw [if_pos hfresh, clearPending_eq]
    have hphases : ∀ s p, (st.phases.delete session).get? s = some p →
        st.phases.get? s = some p := fun s p hp => (get?_of_delete hp).2
    have hthis : ∀ j h', st.staged = some j → st.saves[j]? = some h' → h'.parent ≠ none →
        j ∈ st.ended ++ [i] := by
      intro j h' hj _ _
      rcases hlast (.inl hfresh) with hnone | hsome
      · cases hnone.symm.trans hj
      · obtain rfl := Option.some.inj (hj.symm.trans hsome)
        exact List.mem_append_right _ (List.mem_singleton_self _)
    have hnext := inv_removed hi hphases (fun j hj => List.mem_append_left _ hj) hthis
      (fun t ht => (hi.gone t ht).1) hi.taken hi.once
    simpa [HandoffState.finished, hof, hfresh, hgone] using hnext
  · rw [if_neg hfresh]
    rw [Bool.not_eq_false] at hfresh
    by_cases hadmits : h.admits parentFile = false
    · rw [if_pos hadmits]
      simpa [HandoffState.finished, hof, hfresh, hstays] using inv_idle hi session
    · rw [if_neg hadmits]
      rw [Bool.not_eq_false] at hadmits
      by_cases hhas : st.dir.has identityPendingName = true
      · rw [if_pos hhas]
        have hstaged : st.staged = some i := by
          rcases hlast (.inr hadmits) with hnone | hsome
          · rw [Map.has_iff, hi.unstaged hnone] at hhas
            obtain ⟨_, hnothing⟩ := hhas
            cases hnothing
          · exact hsome
        have hnext := inv_taken hi session hh hstaged hfresh hadmits
        simpa [HandoffState.finished, Handoff.taking, hof, hgone] using hnext
      · rw [if_neg hhas]
        simpa [HandoffState.finished, hof, hfresh, hstays] using inv_idle hi session

theorem inv_clear (hi : HandoffInv ν rt st) {sessionFile : Option String} {now : Int}
    (hok : st.Spares rt (given sessionFile) now) :
    HandoffInv ν rt { st with
      dir := MeshIdentity.clearPending (fun _ => true) st.dir
      staged := none
      ended := st.ended ++ st.released rt (given sessionFile) now } := by
  rw [clearPending_eq]
  exact inv_removed hi (fun _ _ hp => hp) (fun j hj => List.mem_append_left _ hj)
    (fun j h hj hh hbound => List.mem_append_right _ (mem_released hok hj hh hbound))
    (fun t ht => (hi.gone t ht).1) hi.taken hi.once

/-- One system call. -/
theorem inv_step (hexact : Exact ν) {e : HandoffEvent} (hi : HandoffInv ν rt st)
    (hok : LeavesStaged rt st e) (hs : HandoffStep ν rt st e st') : HandoffInv ν rt st' := by
  cases e with
  | write session h =>
      have hs : (if st.phases.has session then none else some _) = some st' := hs
      by_cases hbusy : st.phases.has session = true
      · rw [if_pos hbusy] at hs
        cases hs
      · rw [if_neg hbusy] at hs
        obtain rfl := Option.some.inj hs
        exact inv_write hi
  | publish session now =>
      unfold HandoffStep handoffStep at hs
      dsimp only at hs
      cases hphase : st.phases.get? session with
      | none =>
          rw [hphase] at hs
          cases hs
      | some phase =>
          cases phase with
          | consuming =>
              rw [hphase] at hs
              cases hs
          | saving i =>
              rw [hphase] at hs
              obtain ⟨h, hh⟩ : ∃ h, st.saves[i]? = some h :=
                ⟨_, List.getElem?_eq_getElem (hi.saving session i hphase).1⟩
              obtain ⟨h', -, htext⟩ := hi.written i (hok i h hphase hh).1
              have hrename : renameFile (fun _ => true) st.dir pendingTmpName identityPendingName
                  = some ((st.dir.delete pendingTmpName).set identityPendingName (h'.text ν)) := by
                unfold renameFile Files.rename
                rw [if_pos rfl, htext]
                exact congrArg some (if_neg (Ne.symm pending_ne_tmp))
              rw [hrename] at hs
              obtain rfl := Option.some.inj hs
              exact inv_publish hi hphase hok htext
  | read session parentFile now =>
      unfold HandoffStep handoffStep at hs
      dsimp only at hs
      by_cases hbusy : st.phases.has session = true
      · rw [if_pos hbusy] at hs
        cases hs
      · rw [if_neg hbusy] at hs
        cases hraw : st.dir.get? identityPendingName with
        | none =>
            have hread : readFile (fun _ => true) st.dir identityPendingName = none := hraw
            rw [hread] at hs
            obtain rfl := Option.some.inj hs
            exact hi
        | some raw =>
            have hread : readFile (fun _ => true) st.dir identityPendingName = some raw := hraw
            rw [hread] at hs
            obtain rfl := Option.some.inj hs
            exact inv_read hi hraw
  | finish session =>
      unfold HandoffStep handoffStep at hs
      dsimp only at hs
      cases hphase : st.phases.get? session with
      | none =>
          rw [hphase] at hs
          cases hs
      | some phase =>
          cases phase with
          | saving =>
              rw [hphase] at hs
              cases hs
          | consuming i raw parentFile now =>
              rw [hphase] at hs
              obtain ⟨h, hh, rfl⟩ := hi.consuming session i raw parentFile now hphase
              obtain rfl := Option.some.inj hs
              exact inv_finished hexact hi hh (hok i _ parentFile now h hphase hh)
  | clear sessionFile now =>
      obtain rfl := Option.some.inj hs
      exact inv_clear hi hok

end Steps

theorem isolated_of_inv (hexact : Exact ν) {st : HandoffState} (hi : HandoffInv ν rt st) :
    Isolated ν rt st where
  taken := hi.taken
  once i _ _ _ := hi.once i
  kept i hc hended h file hh hfile clock htime := by
    have hbound : h.parent ≠ none := by
      rw [hfile]
      simp
    obtain ⟨-, h', hh', htext⟩ := hi.staged i (hi.kept i hc hended h hh hbound)
    obtain rfl := Option.some.inj (hh.symm.trans hh')
    have hread : readFile (fun _ => true) st.dir identityPendingName = some (h.text ν) := htext
    have hhas : st.dir.has identityPendingName = true := (Map.has_iff _ _).mpr ⟨_, htext⟩
    have hadmits : h.admits (some file) = true := by
      rw [admits_iff]
      intro file' hfile'
      rw [← hfile', hfile]
    rw [MeshIdentity.consumePending_eq, hread]
    show (MeshIdentity.takePending ν rt (fun _ => true) clock clock (h.text ν) st.dir
      (some file)).2 = _
    rw [takePending_text hexact, isFresh_iff.mpr htime, hadmits, hhas]
    rfl

/-- Bound handoffs are isolated in a run that meets the condition. -/
theorem handoffs_isolated (hexact : Exact ν) {tr : HandoffTrace} {st : HandoffState}
    (hrun : Run (HandoffStep ν rt) {} tr st) (hok : Meets (LeavesStaged rt) tr) :
    Isolated ν rt st :=
  isolated_of_inv hexact (hrun.invariant hok inv_init fun _ _ _ hi hc hs => inv_step hexact hi hc hs)

/-! ### Two parents -/

/-- `ada` is handed over to a child of the file. -/
def adaFor (file : String) : Handoff where
  identity := {
    sessionId := "s1", name := "ada", rooms := ["default"], reservations := []
    updatedAt := "2024-01-01T00:00:00.000Z" }
  forParent := some file

/-- One parent has written its handoff. -/
def writtenOnce : HandoffState where
  dir := Map.empty.set pendingTmpName ((adaFor "/a.jsonl").text Int)
  phases := Map.empty.set 0 (.saving 0)
  saves := [adaFor "/a.jsonl"]
  written := some 0

/-- It is staged. -/
def stagedOnce : HandoffState where
  dir := Map.empty.set identityPendingName ((adaFor "/a.jsonl").text Int)
  saves := [adaFor "/a.jsonl"]
  staged := some 0
  completed := [0]

theorem run_stagedOnce : Run (HandoffStep Int referenceRuntime) {}
    [({}, .write 0 (adaFor "/a.jsonl")), (writtenOnce, .publish 0 1704067200000)] stagedOnce := by
  have hwrite : HandoffStep Int referenceRuntime {} (.write 0 (adaFor "/a.jsonl")) writtenOnce := rfl
  have hpublish : HandoffStep Int referenceRuntime writtenOnce (.publish 0 1704067200000)
      stagedOnce := rfl
  exact .snoc (.snoc .nil hwrite) hpublish

/-- A child of the parent has read it. -/
def readOnce : HandoffState := { stagedOnce with
  phases := Map.empty.set 1 (.consuming 0 ((adaFor "/a.jsonl").text Int) (some "/a.jsonl")
    1704067260000) }

/-- The child takes it. -/
theorem handoffs_isolated_ada : ∃ (tr : HandoffTrace) (st : HandoffState),
    Run (HandoffStep Int referenceRuntime) {} tr st ∧ st.takings ≠ [] ∧
      Isolated Int referenceRuntime st := by
  have hread : HandoffStep Int referenceRuntime stagedOnce
      (.read 1 (some "/a.jsonl") 1704067260000) readOnce := rfl
  have hfinish : HandoffStep Int referenceRuntime readOnce (.finish 1)
      (readOnce.finished referenceRuntime 1 0 (some "/a.jsonl") 1704067260000
        (MeshIdentity.takePending Int referenceRuntime (fun _ => true) 1704067260000 1704067260000
          ((adaFor "/a.jsonl").text Int) readOnce.dir (some "/a.jsonl"))) := rfl
  have hrun := Run.snoc (.snoc run_stagedOnce hread) hfinish
  have hexact : Exact Int := rfl
  refine ⟨_, _, hrun, ?_, handoffs_isolated hexact hrun ?_⟩
  · have hfresh : (adaFor "/a.jsonl").isFresh referenceRuntime 1704067260000 = true := by
      decide +kernel
    have hadmits : (adaFor "/a.jsonl").admits (some "/a.jsonl") = true := by decide +kernel
    have hhas : readOnce.dir.has identityPendingName = true := rfl
    rw [takePending_text hexact, hfresh, hadmits, hhas]
    exact List.cons_ne_nil _ _
  · intro x hx
    simp only [List.mem_append, List.mem_cons, List.not_mem_nil, or_false] at hx
    rcases hx with ((rfl | rfl) | rfl) | rfl
    · exact trivial
    · intro i h hphase _
      have hi : some (HandoffPhase.saving 0) = some (HandoffPhase.saving i) := hphase
      obtain rfl := HandoffPhase.saving.inj (Option.some.inj hi)
      exact ⟨rfl, fun h' hh' => by cases hh'⟩
    · exact trivial
    · intro i raw parentFile now h hphase _ _
      have hi : some (HandoffPhase.consuming 0 _ _ _) = some (.consuming i raw parentFile now) :=
        hphase
      obtain ⟨rfl, -⟩ := HandoffPhase.consuming.inj (Option.some.inj hi)
      exact .inr rfl

/-- Another parent has written a handoff of its own. -/
def writtenTwice : HandoffState := { stagedOnce with
  dir := stagedOnce.dir.set pendingTmpName ((adaFor "/b.jsonl").text Int)
  phases := Map.empty.set 1 (.saving 1)
  saves := [adaFor "/a.jsonl", adaFor "/b.jsonl"]
  written := some 1 }

/-- It is staged within the quarter of an hour: nothing of the first one is left. -/
def stagedTwice : HandoffState where
  dir := Map.empty.set identityPendingName ((adaFor "/b.jsonl").text Int)
  saves := [adaFor "/a.jsonl", adaFor "/b.jsonl"]
  staged := some 1
  completed := [0, 1]
  ended := [] ++ writtenTwice.released referenceRuntime (some "/b.jsonl") 1704067260000

/-- The child of the first parent comes in time and finds the handoff of the second. -/
theorem second_parent_replaces : ∃ tr : HandoffTrace,
    Run (HandoffStep Int referenceRuntime) {} tr stagedTwice ∧
      tr.map Prod.snd = [.write 0 (adaFor "/a.jsonl"), .publish 0 1704067200000,
        .write 1 (adaFor "/b.jsonl"), .publish 1 1704067260000] ∧
      ¬Isolated Int referenceRuntime stagedTwice := by
  have hwrite : HandoffStep Int referenceRuntime stagedOnce (.write 1 (adaFor "/b.jsonl"))
      writtenTwice := rfl
  have hpublish : HandoffStep Int referenceRuntime writtenTwice (.publish 1 1704067260000)
      stagedTwice := rfl
  refine ⟨_, .snoc (.snoc run_stagedOnce hwrite) hpublish, rfl, ?_⟩
  intro hisolated
  have hexact : Exact Int := rfl
  have hended : 0 ∉ stagedTwice.ended := by decide +kernel
  have htime : InTime referenceRuntime 1704067260000 (adaFor "/a.jsonl").identity :=
    ⟨1704067200000, by decide +kernel, by decide, by decide⟩
  have hkept := hisolated.kept 0 (List.mem_cons_self) hended (adaFor "/a.jsonl") "/a.jsonl" rfl
    (by decide) 1704067260000 htime
  have hread : readFile (fun _ => true) stagedTwice.dir identityPendingName
      = some ((adaFor "/b.jsonl").text Int) := rfl
  have hfresh : (adaFor "/b.jsonl").isFresh referenceRuntime 1704067260000 = true := by
    decide +kernel
  have hadmits : (adaFor "/b.jsonl").admits (some "/a.jsonl") = false := by decide +kernel
  rw [MeshIdentity.consumePending_eq, hread] at hkept
  dsimp only [Option.getD_none] at hkept
  rw [takePending_text hexact, hfresh, hadmits] at hkept
  cases hkept

end PiMesh
