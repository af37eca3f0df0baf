/-
The ledger keeps its history while rotations do not overlap.

A session that has found a rotated name free goes on to move the ledger there, and
nothing holds the name for it in between.  While no session moves the ledger to a name
that another one has chosen as well, every chosen name stays free until its move, so a
move never replaces a file and the lines of all files together are the ones there were
at the start and the ones written since.

The condition cannot be dropped: from the state in which two sessions have chosen one
name, the first moves and writes, and the second then moves what is left over the first
one's file.
-/
import PiMesh.Extension.Ledger
import PiMesh.Lib.Transition
import PiMesh.Broker.Reference

namespace PiMesh

open Js Files Transition

variable {ν : Type} [Number ν]

/-! ### What the result speaks of -/

/-- What happened to a ledger, each call with the state it met. -/
abbrev LedgerTrace (ν : Type) := List (LedgerState ν × Nat × LedgerEvent ν)

/-- The line of the `append` that returns in this step. -/
def returnedLine (x : LedgerState ν × Nat × LedgerEvent ν) : Option (List Char) :=
  match x.1.calls.get? x.2.1, x.2.2 with
  | some (.write record), .write => some (ledgerLine record)
  | _, _ => none

/-- The lines of the records whose `append` has returned. -/
def returned (tr : LedgerTrace ν) : List (List Char) := tr.filterMap returnedLine

/-- `ledger.jsonl` and the `ledger-<date>.jsonl.N`. -/
def IsLedgerFile (name : String) : Prop :=
  name = ledgerFileName ∨ ∃ date n, name = rotatedName date n

/-- A session moves the ledger over a rotated file that is there. -/
def Overwrites (st : LedgerState ν) (e : Nat × LedgerEvent ν) : Prop :=
  ∃ record date n, e.2 = .move ∧ st.calls.get? e.1 = some (.move record date n) ∧
    st.dir.get? ledgerFileName ≠ none ∧ st.dir.get? (rotatedName date n) ≠ none

/-- Nothing is lost: the lines there are, are those of the start and those of the
appends that returned, each in one place. -/
structure KeepsHistory (dir₀ : Dir (List Char)) (tr : LedgerTrace ν) (st : LedgerState ν) :
    Prop where
  lines : (items st.dir).Perm (items dir₀ ++ returned tr)
  others : ∀ name, ¬ IsLedgerFile name → st.dir.get? name = dir₀.get? name
  once : ∀ line ∈ returned tr, (items dir₀ ++ returned tr).count line = 1 →
    ∃! name, ∃ content, st.dir.get? name = some content ∧ line ∈ content
  inLedger : ∀ line ∈ returned tr, line ∉ items dir₀ → ∀ name content,
    st.dir.get? name = some content → line ∈ content → IsLedgerFile name
  whole : ∀ x ∈ tr, ¬ Overwrites x.1 x.2

/-- A session moves the ledger only while no other has chosen the same rotated name. -/
def RotatesAlone (st : LedgerState ν) (e : Nat × LedgerEvent ν) : Prop :=
  ∀ record date n, e.2 = .move → st.calls.get? e.1 = some (.move record date n) →
    st.dir.get? ledgerFileName ≠ none → ∀ q ≠ e.1, ∀ record' date' n',
      st.calls.get? q = some (.move record' date' n') → rotatedName date' n' ≠ rotatedName date n

/-! ### One step -/

variable {maxBytes : Nat → Nat} {dir₀ : Dir (List Char)} {tr : LedgerTrace ν}
  {st st' : LedgerState ν} {p : Nat} {e : LedgerEvent ν}

theorem rotatedName_ne (date : String) (n : Nat) : rotatedName date n ≠ ledgerFileName := by
  intro h
  have hlist := congrArg String.toList h
  simp [rotatedName, ledgerFileName, ToString.toString] at hlist

/-- What a system call of `append` can do. -/
inductive LedgerAct (st : LedgerState ν) (p : Nat) (e : LedgerEvent ν) (st' : LedgerState ν) : Prop
  /-- Nothing in the directory, and no rotated name is chosen. -/
  | other (hline : returnedLine (st, p, e) = none) (hdir : st'.dir = st.dir)
      (hcalls : ∀ q record date n, st'.calls.get? q = some (.move record date n) →
        st.calls.get? q = some (.move record date n))
  /-- A rotated name that was found free. -/
  | chosen (record : Members ν) (date : String) (n : Nat)
      (hline : returnedLine (st, p, e) = none) (hdir : st'.dir = st.dir)
      (hcalls : st'.calls = st.calls.set p (.move record date n))
      (hfree : st.dir.get? (rotatedName date n) = none)
  | moved (record : Members ν) (date : String) (n : Nat)
      (hline : returnedLine (st, p, e) = none) (he : e = .move)
      (hcall : st.calls.get? p = some (.move record date n))
      (hmove : rename st.dir ledgerFileName (rotatedName date n) = some st'.dir)
      (hcalls : st'.calls = st.calls.set p (.write record))
  | wrote (line : List Char) (hline : returnedLine (st, p, e) = some line)
      (hdir : st'.dir = append st.dir ledgerFileName line)
      (hcalls : st'.calls = st.calls.delete p)

theorem get?_delete_some {κ α : Type} [DecidableEq κ] {m : Map κ α} {k k' : κ} {v : α}
    (h : (m.delete k).get? k' = some v) : m.get? k' = some v := by
  rw [Map.get?_delete] at h
  split at h
  · cases h
  · exact h

/-- A session that goes on to a call other than its move. -/
theorem LedgerAct.of_next {c : AppendAt ν} (hc : ∀ record date n, c ≠ .move record date n)
    (hline : returnedLine (st, p, e) = none) :
    LedgerAct st p e { st with calls := st.calls.set p c } := by
  refine .other hline rfl ?_
  intro q record date n hq
  rw [Map.get?_set] at hq
  split at hq
  · exact absurd (Option.some.inj hq) (hc record date n)
  · exact hq

theorem LedgerAct.of_leave (hline : returnedLine (st, p, e) = none) :
    LedgerAct st p e { st with calls := st.calls.delete p } :=
  .other hline rfl fun _ _ _ _ hq => get?_delete_some hq

theorem ledgerStep_act (h : LedgerStep maxBytes st (p, e) st') : LedgerAct st p e st' := by
  unfold LedgerStep LedgerState.step at h
  dsimp only at h
  split at h
  · next input ts hcall =>
      obtain rfl := Option.some.inj h
      have hline : returnedLine (st, p, .append input ts) = none := by simp [returnedLine, hcall]
      split
      · exact .other hline rfl fun _ _ _ _ hq => hq
      · exact .of_next (by simp) hline
  · next record date hcall =>
      have hline : returnedLine (st, p, LedgerEvent.stat (ν := ν) date) = none := by
        simp [returnedLine, hcall]
      split at h
      · obtain rfl := Option.some.inj h
        exact .of_next (by simp) hline
      · split at h
        · obtain rfl := Option.some.inj h
          exact .of_next (by simp) hline
        · obtain rfl := Option.some.inj h
          exact .of_next (by simp) hline
  · next record hcall =>
      obtain rfl := Option.some.inj h
      exact .of_next (by simp) (by simp [returnedLine, hcall])
  · next record date n hcall =>
      have hline : returnedLine (st, p, LedgerEvent.probe (ν := ν)) = none := by
        simp [returnedLine, hcall]
      split at h
      · obtain rfl := Option.some.inj h
        exact .of_next (by simp) hline
      · next hhas =>
          obtain rfl := Option.some.inj h
          refine .chosen record date n hline rfl rfl ?_
          simpa [Map.has] using hhas
  · next record date n hcall =>
      have hline : returnedLine (st, p, LedgerEvent.move (ν := ν)) = none := by
        simp [returnedLine, hcall]
      split at h
      · obtain rfl := Option.some.inj h
        exact .of_leave hline
      · next dir hmove =>
          obtain rfl := Option.some.inj h
          exact .moved record date n hline rfl hcall hmove rfl
  · next record hcall =>
      obtain rfl := Option.some.inj h
      exact .wrote (ledgerLine record) (by simp [returnedLine, hcall]) rfl rfl
  · next c hcall =>
      obtain rfl := Option.some.inj h
      exact .of_leave (by simp [returnedLine, hcall])
  · cases h

/-! ### Chosen names stay free -/

/-- Every rotated name a session is about to move to is free. -/
def ChosenFree (st : LedgerState ν) : Prop :=
  ∀ p record date n, st.calls.get? p = some (.move record date n) →
    st.dir.get? (rotatedName date n) = none

theorem chosenFree_step (h : ChosenFree st) (hok : RotatesAlone st (p, e))
    (hact : LedgerAct st p e st') : ChosenFree st' := by
  intro q record date n hq
  cases hact with
  | other _ hdir hcalls =>
      rw [hdir]
      exact h q record date n (hcalls q record date n hq)
  | chosen record' date' n' _ hdir hcalls hfree =>
      rw [hdir]
      rw [hcalls, Map.get?_set] at hq
      split at hq
      · cases hq
        exact hfree
      · exact h q record date n hq
  | moved record' date' n' _ he hcall hmove hcalls =>
      rw [hcalls, Map.get?_set] at hq
      split at hq
      · cases hq
      · next hqp =>
          -- another session's name: not the one this move has just taken
          have hledger : st.dir.get? ledgerFileName ≠ none := by
            intro hnone
            simp [rename, hnone] at hmove
          have hne := hok record' date' n' he hcall hledger q hqp record date n hq
          rw [get?_rename_ne (rotatedName_ne date n) hne hmove]
          exact h q record date n hq
  | wrote line _ hdir hcalls =>
      rw [hcalls] at hq
      rw [hdir, get?_append_ne (rotatedName_ne date n)]
      exact h q record date n (get?_delete_some hq)

/-! ### The history -/

theorem returned_snoc (tr : LedgerTrace ν) (x : LedgerState ν × Nat × LedgerEvent ν) :
    returned (tr ++ [x]) = returned tr ++ (returnedLine x).toList := by
  unfold returned
  rw [List.filterMap_append]
  cases h : returnedLine x <;> simp [h]

theorem items_step (hfree : ChosenFree st) (hact : LedgerAct st p e st') :
    (items st'.dir).Perm (items st.dir ++ (returnedLine (st, p, e)).toList) := by
  cases hact with
  | other hline hdir _ =>
      rw [hline, hdir]
      simp
  | chosen _ _ _ hline hdir _ _ =>
      rw [hline, hdir]
      simp
  | moved record date n hline _ hcall hmove _ =>
      rw [hline]
      simpa using items_rename (hfree p record date n hcall) hmove
  | wrote line hline hdir _ =>
      rw [hline, hdir]
      exact items_append st.dir ledgerFileName line

theorem others_step (hact : LedgerAct st p e st') {name : String} (hname : ¬ IsLedgerFile name) :
    st'.dir.get? name = st.dir.get? name := by
  have hcurrent : name ≠ ledgerFileName := fun hc => hname (.inl hc)
  cases hact with
  | other _ hdir _ => rw [hdir]
  | chosen _ _ _ _ hdir _ _ => rw [hdir]
  | moved record date n _ _ _ hmove _ =>
      have hrotated : name ≠ rotatedName date n := fun hc => hname (.inr ⟨date, n, hc⟩)
      exact get?_rename_ne hcurrent hrotated hmove
  | wrote line _ hdir _ =>
      rw [hdir]
      exact get?_append_ne hcurrent

/-- What a run keeps while rotations do not overlap. -/
structure Rotating (dir₀ : Dir (List Char)) (tr : LedgerTrace ν) (st : LedgerState ν) : Prop where
  free : ChosenFree st
  lines : (items st.dir).Perm (items dir₀ ++ returned tr)
  others : ∀ name, ¬ IsLedgerFile name → st.dir.get? name = dir₀.get? name
  whole : ∀ x ∈ tr, ¬ Overwrites x.1 x.2

theorem rotating_run (hrun : Run (LedgerStep maxBytes) (.atRest dir₀) tr st)
    (hok : Meets RotatesAlone tr) : Rotating dir₀ tr st := by
  refine hrun.along hok ?_ ?_
  · refine ⟨?_, by simp [returned, LedgerState.atRest], fun _ _ => rfl, by simp⟩
    intro p record date n hp
    cases hp
  · rintro tr s ⟨p, e⟩ s' _ _ h halone hstep
    have hact := ledgerStep_act hstep
    refine ⟨chosenFree_step h.free halone hact, ?_, ?_, ?_⟩
    · rw [returned_snoc, ← List.append_assoc]
      exact (items_step h.free hact).trans (h.lines.append_right _)
    · intro name hname
      rw [others_step hact hname]
      exact h.others name hname
    · intro x hx
      rcases List.mem_append.mp hx with hx | hx
      · exact h.whole x hx
      · rw [List.mem_singleton.mp hx]
        rintro ⟨record, date, n, _, hcall, _, htaken⟩
        exact htaken (h.free p record date n hcall)

theorem Rotating.keeps (h : Rotating dir₀ tr st) : KeepsHistory dir₀ tr st where
  lines := h.lines
  others := h.others
  once := by
    intro line _ hcount
    exact existsUnique_of_count (by rw [h.lines.count_eq]; exact hcount)
  inLedger := by
    intro line _ hnew name content hname hline
    by_contra hother
    rw [h.others name hother] at hname
    apply hnew
    exact List.mem_flatten.mpr ⟨content, (dir₀.mem_values_iff content).mpr ⟨name, hname⟩, hline⟩
  whole := h.whole

/-! ### Two sessions with one name -/

/-- From a state in which a session moves the ledger to a name another one has chosen, it
goes on to write, and the other one then moves over its file. -/
theorem overlap_overwrites (h : ¬ RotatesAlone st (p, e)) :
    ∃ tr' st', Run (LedgerStep maxBytes) st ((st, p, e) :: tr') st' ∧
      ∃ x ∈ tr', Overwrites x.1 x.2 := by
  unfold RotatesAlone at h
  push Not at h
  obtain ⟨record, date, n, rfl, hcall, hledger, q, hqp, record', date', n', hq, hname⟩ := h
  dsimp only at hcall hqp
  obtain ⟨content, hcontent⟩ := Option.ne_none_iff_exists'.mp hledger
  obtain ⟨dir, hmove⟩ : ∃ dir, rename st.dir ledgerFileName (rotatedName date n) = some dir := by
    simp [rename, hcontent]
  let st₁ : LedgerState ν := { dir, calls := st.calls.set p (.write record) }
  let st₂ : LedgerState ν :=
    { dir := append dir ledgerFileName (ledgerLine record), calls := st₁.calls.delete p }
  have h₁ : LedgerStep maxBytes st (p, .move) st₁ := by
    simp [LedgerStep, LedgerState.step, hcall, hmove, st₁]
  have h₂ : LedgerStep maxBytes st₁ (p, .write) st₂ := by
    simp [LedgerStep, LedgerState.step, st₁, st₂]
  have hq₂ : st₂.calls.get? q = some (.move record' date' n') := by
    show ((st.calls.set p _).delete p).get? q = _
    rw [Map.get?_delete_ne _ hqp, Map.get?_set_ne _ _ hqp]
    exact hq
  have hledger₂ : st₂.dir.get? ledgerFileName ≠ none := by
    show (append dir ledgerFileName _).get? ledgerFileName ≠ none
    simp [append]
  have htaken : st₂.dir.get? (rotatedName date' n') ≠ none := by
    show (append dir ledgerFileName _).get? (rotatedName date' n') ≠ none
    rw [get?_append_ne (rotatedName_ne date' n'), hname]
    exact get?_rename_new hmove
  obtain ⟨st₃, h₃⟩ : ∃ st₃, LedgerStep maxBytes st₂ (q, .move) st₃ := by
    unfold LedgerStep LedgerState.step
    rw [hq₂]
    dsimp only
    split <;> exact ⟨_, rfl⟩
  refine ⟨[(st₁, p, .write), (st₂, q, .move)], st₃, .cons h₁ (.cons h₂ (.cons h₃ .nil)), ?_⟩
  exact ⟨(st₂, q, .move), by simp, record', date', n', rfl, hq₂, hledger₂, htaken⟩

/-- While no session moves the ledger to a name another one has chosen too, nothing is
lost; and where one does, the steps that follow can overwrite a rotated file. -/
theorem ledger_keeps_history (hrun : Run (LedgerStep maxBytes) (.atRest dir₀) tr st) :
    (Meets RotatesAlone tr → KeepsHistory dir₀ tr st) ∧
      ∀ e, ¬ RotatesAlone st e → ∃ tr' st',
        Run (LedgerStep maxBytes) (.atRest dir₀) (tr ++ (st, e) :: tr') st' ∧
          ¬ KeepsHistory dir₀ (tr ++ (st, e) :: tr') st' := by
  refine ⟨fun hok => (rotating_run hrun hok).keeps, ?_⟩
  intro e he
  obtain ⟨tr', st', hmore, x, hx, hover⟩ := overlap_overwrites he
  refine ⟨tr', st', hrun.append hmore, ?_⟩
  intro hkeeps
  exact hkeeps.whole x (List.mem_append_right _ (List.mem_cons_of_mem _ hx)) hover

/-! ### Two sessions on one directory -/

/-- A record with an event and nothing else. -/
def eventInput (event : String) : Members Int := [("event", .str event)]

/-- Session 0 appends once, and then both sessions find `ledger.jsonl` too long and the
same rotated name free; each of them moves and writes in turn. -/
def overlapping : List (Nat × LedgerEvent Int) :=
  [(0, .append (eventInput "sent") "t0"), (0, .stat "2024-01-01"), (0, .write),
    (0, .append (eventInput "reply") "t1"), (0, .stat "2024-01-01"), (0, .probe),
    (1, .append (eventInput "ctl") "t2"), (1, .stat "2024-01-01"), (1, .probe),
    (0, .move), (0, .write), (1, .move), (1, .write)]

/-- The line of the record session 0 wrote first. -/
def firstLine : List Char := ledgerLine (ledgerRecord (eventInput "sent") "t0")

/-- A step of a ledger whose limit is one byte. -/
def smallStep (st : LedgerState Int) (e : Nat × LedgerEvent Int) : Option (LedgerState Int) :=
  st.step (fun _ => 1) e.1 e.2

/-- The append returned, and its line is in no file any more. -/
theorem overlapping_loses_record : ∃ (tr : LedgerTrace Int) (st : LedgerState Int),
    Run (LedgerStep fun _ => 1) (.atRest .empty) tr st ∧ firstLine ∈ returned tr ∧
      firstLine ∉ items st.dir ∧ ¬ KeepsHistory .empty tr st := by
  have hlost : (follow smallStep (.atRest .empty) overlapping).any (fun r =>
      decide (firstLine ∈ returned r.1 ∧ firstLine ∉ items r.2.dir)) = true := by decide +kernel
  obtain ⟨tr, st, hrun, -, hfound⟩ := Run.of_check hlost
  obtain ⟨hin, hout⟩ := of_decide_eq_true hfound
  refine ⟨tr, st, hrun, hin, hout, ?_⟩
  intro hkeeps
  exact hout (hkeeps.lines.mem_iff.mpr (List.mem_append_right _ hin))

/-- Session 0 appends, rotates and appends again with nobody else about. -/
def rotatingAlone : List (Nat × LedgerEvent Int) :=
  [(0, .append (eventInput "sent") "t0"), (0, .stat "2024-01-01"), (0, .write),
    (0, .append (eventInput "reply") "t1"), (0, .stat "2024-01-01"), (0, .probe), (0, .move),
    (0, .write)]

theorem rotatingAlone_keeps_history : ∃ (tr : LedgerTrace Int) (st : LedgerState Int),
    Run (LedgerStep fun _ => 1) (.atRest .empty) tr st ∧ firstLine ∈ returned tr ∧
      st.dir.has (rotatedName "2024-01-01" 1) = true ∧ KeepsHistory .empty tr st := by
  have hcheck : (follow smallStep (.atRest .empty) rotatingAlone).any (fun r =>
      decide (firstLine ∈ returned r.1 ∧ r.2.dir.has (rotatedName "2024-01-01" 1) = true ∧
        ∀ x ∈ r.1, ∀ q ∈ x.1.calls.keys, q = x.2.1)) = true := by decide +kernel
  obtain ⟨tr, st, hrun, -, hfound⟩ := Run.of_check hcheck
  obtain ⟨hin, hrotated, halone⟩ := of_decide_eq_true hfound
  refine ⟨tr, st, hrun, hin, hrotated, (ledger_keeps_history hrun).1 ?_⟩
  intro x hx _ _ _ _ _ _ q hq _ _ _ hcall
  exact absurd (halone x hx q ((x.1.calls.mem_keys_iff q).mpr ⟨_, hcall⟩)) hq

end PiMesh
