/-
What `mesh_ledger` reads back.

`read` looks at the current file only, so a rotation hides what was appended before it.  The
trace says which records came after the last one, and the invariant is that the current file
has the lines of just these.
-/
import PiMesh.Extension.LedgerRead
import PiMesh.Proofs.History

namespace PiMesh

open Js Files Transition MeshLedger

variable {ν : Type} [Number ν]

/-- The record a call appends, if it does not throw. -/
def AppendCall.record? (maxBytes : Nat) (st : LedgerHistory ν) (c : AppendCall ν) :
    Option (List (String × Value ν)) :=
  (append maxBytes st.dir (isoDate c.rotated) (toISOString c.stamped) c.input).1.toOption

/-- The records appended since the last rotation. -/
def recent (maxBytes : Nat) (tr : List (LedgerHistory ν × AppendCall ν)) :
    List (List (String × Value ν)) :=
  tr.foldl (fun kept x =>
    (if rotates maxBytes x.1 x.2 then [] else kept) ++ (x.2.record? maxBytes x.1).toList) []

theorem recent_snoc (maxBytes : Nat) (tr : List (LedgerHistory ν × AppendCall ν))
    (st : LedgerHistory ν) (c : AppendCall ν) :
    recent maxBytes (tr ++ [(st, c)])
      = (if rotates maxBytes st c then [] else recent maxBytes tr) ++
        (c.record? maxBytes st).toList := by
  unfold recent
  rw [List.foldl_append]
  rfl

/-- The current file has the lines of these records. -/
structure HasLines (dir : Dir (List Char)) (records : List (List (String × Value ν))) : Prop where
  text : (dir.get? ledgerFileName).getD [] = records.map lineOf
  wellFormed : ∀ record ∈ records, (Value.obj record).WellFormed

section Step

variable {maxBytes : Nat} {st st' : LedgerHistory ν} {c : AppendCall ν}
  {records : List (List (String × Value ν))}

/-- What is in the current file once `rotateIfNeeded` has run. -/
theorem HasLines.rotated (h : HasLines st.dir records) (maxBytes : Nat)
    (hclean : MeshLedger.scans (.obj (record c.input.members (toISOString c.stamped))) = true) :
    HasLines (rotateIfNeeded maxBytes st.dir (isoDate c.rotated))
      (if rotates maxBytes st c then [] else records) := by
  have hrotates : rotates maxBytes st c
      = (st.dir.get? ledgerFileName).any fun lines => maxBytes < fileSize lines := by
    unfold rotates
    rw [hclean]
    rfl
  rw [hrotates]
  unfold rotateIfNeeded
  cases hlines : st.dir.get? ledgerFileName with
  | none => exact h
  | some lines =>
      dsimp only [Option.any_some]
      by_cases hsize : fileSize lines ≤ maxBytes
      · rw [if_pos hsize, if_neg (by simpa using hsize)]
        exact h
      · rw [if_neg hsize, if_pos (by simpa using hsize)]
        cases hmove : rename st.dir ledgerFileName
            (rotatedName (isoDate c.rotated) (freeIndex st.dir (isoDate c.rotated) st.dir.size 1)) with
        | none =>
            unfold rename at hmove
            rw [hlines] at hmove
            cases hmove
        | some dir' =>
            have hgone := get?_rename_old (fun heq => rotatedName_ne _ _ heq.symm) hmove
            exact ⟨by rw [hgone]; rfl, by simp⟩

/-- **A call leaves the current file with what the trace says.** -/
theorem HasLines.step (h : HasLines st.dir records) (hstep : AppendStep maxBytes st c st') :
    HasLines st'.dir ((if rotates maxBytes st c then [] else records) ++
      (c.record? maxBytes st).toList) := by
  obtain ⟨-, -, rfl⟩ := hstep
  unfold LedgerHistory.after AppendCall.record? MeshLedger.append
  dsimp only
  cases hscan : MeshLedger.scans (.obj (record c.input.members (toISOString c.stamped))) with
  | false =>
      have hstays : rotates maxBytes st c = false := by
        unfold rotates
        rw [hscan]
        rfl
      rw [hstays]
      simpa [Except.toOption] using h
  | true =>
      have hrotated := h.rotated maxBytes hscan
      rw [if_neg (by decide)]
      split
      · simpa [Except.toOption] using hrotated
      · simp only [Except.toOption, Option.toList]
        refine ⟨?_, ?_⟩
        · rw [List.map_append, ← hrotated.text]
          simp [Files.append, lineOf]
        · intro r hr
          rcases List.mem_append.mp hr with hr | hr
          · exact hrotated.wellFormed r hr
          · rw [List.mem_singleton.mp hr]
            exact record_wellFormed c.input _

theorem hasLines_recent {dir : Dir (List Char)} {clock : Int}
    {tr : List (LedgerHistory ν × AppendCall ν)} (h : dir.has ledgerFileName = false)
    (hrun : Run (AppendStep maxBytes) { dir, clock } tr st) :
    HasLines st.dir (recent maxBytes tr) := by
  refine hrun.along (P := fun tr st => HasLines st.dir (recent maxBytes tr)) (Meets.trivial tr) ?_ ?_
  · have hnone : dir.get? ledgerFileName = none := by simpa [Map.has] using h
    exact ⟨by rw [hnone]; rfl, by simp [recent]⟩
  · intro tr st c st' _ _ hst _ hstep
    rw [recent_snoc]
    exact hst.step hstep

end Step

/-! ### Lines -/

theorem splitChars_flatten {lines : List (List Char)} (h : Complete lines) :
    splitChars '\n' lines.flatten = lines.map List.dropLast ++ [[]] := by
  induction lines with
  | nil => rfl
  | cons l lines ih =>
      obtain ⟨⟨text, htext, rfl⟩, hrest⟩ := List.forall_mem_cons.mp h
      have hflat : ((text ++ ['\n']) :: lines).flatten = text ++ '\n' :: lines.flatten := by simp
      rw [hflat, splitChars_append htext, ih hrest, List.map_cons, List.dropLast_concat,
        List.cons_append]

theorem trim_stringify (ms : List (String × Json ν)) :
    trim (String.ofList (Json.stringify (.obj ms))) = String.ofList (Json.stringify (.obj ms)) ∧
      String.ofList (Json.stringify (.obj ms)) ≠ "" := by
  obtain ⟨mid, hmid⟩ := stringify_braces ms
  rw [hmid]
  refine ⟨trim_between (by decide) (by decide) mid, ?_⟩
  intro hempty
  have hlist := congrArg String.toList hempty
  rw [String.toList_ofList] at hlist
  cases hlist

/-- A line gives the record it was written for, if the filter lets it through. -/
theorem readRecord_lineOf (filter : ReadFilter) {record : List (String × Value ν)}
    (hwf : (Value.obj record).WellFormed) :
    readRecord filter (lineOf record).dropLast
      = if selects filter (asRead record) then some (asRead record) else none := by
  have htext : (lineOf record).dropLast = Json.stringify (.obj (Value.toMembers record)) := by
    unfold lineOf ledgerLine encodeLine
    exact List.dropLast_concat
  have hparse := Json.parse_stringify _ (Value.toJson_wellFormed hwf _ rfl)
  obtain ⟨htrim, hfull⟩ := trim_stringify (Value.toMembers record)
  unfold readRecord
  rw [htext, htrim, if_neg hfull, hparse]
  rfl

/-- **What is read back is the newest of the records that were appended since the last
rotation and match the filter**, in every run of appends, whatever the files of the directory
were called before. -/
theorem read_recent {maxBytes : Nat} {dir : Dir (List Char)} {clock : Int}
    (h : dir.has ledgerFileName = false) {tr : List (LedgerHistory ν × AppendCall ν)}
    {st : LedgerHistory ν} (hrun : Run (AppendStep maxBytes) { dir, clock } tr st) (limit : Int)
    (filter : ReadFilter) :
    MeshLedger.read st.dir limit filter
      = sliceFrom (-limit) (((recent maxBytes tr).map asRead).filter (selects filter)) := by
  have hlines := hasLines_recent h hrun
  have hblank : readRecord (ν := ν) filter [] = none := by
    unfold readRecord
    exact if_pos (by decide)
  have hread : ∀ records : List (List (String × Value ν)),
      (∀ record ∈ records, (Value.obj record).WellFormed) →
        (records.map fun r => (lineOf r).dropLast).filterMap (readRecord filter)
          = (records.map asRead).filter (selects filter) := by
    intro records
    induction records with
    | nil => exact fun _ => rfl
    | cons record records ih =>
        intro hall
        rw [List.forall_mem_cons] at hall
        rw [List.map_cons, List.filterMap_cons, readRecord_lineOf filter hall.1, List.map_cons,
          List.filter_cons, ih hall.2]
        by_cases hkeep : selects filter (asRead record) = true
        · rw [if_pos hkeep, if_pos hkeep]
        · rw [if_neg hkeep, if_neg hkeep]
  unfold MeshLedger.read
  cases hget : st.dir.get? ledgerFileName with
  | none =>
      have htext := hlines.text
      rw [hget] at htext
      have hnil : recent maxBytes tr = [] := List.map_eq_nil_iff.mp htext.symm
      rw [hnil]
      simp [sliceFrom]
  | some lines =>
      have htext := hlines.text
      rw [hget, Option.getD_some] at htext
      dsimp only
      rw [htext, splitChars_flatten (complete_lineOf _), List.filterMap_append, List.map_map,
        ← hread _ hlines.wellFormed]
      simp [hblank, Function.comp_def]

/-- Two records, the file moved away in between: the first one is not read back. -/
theorem read_recent_rotated : ∃ st : LedgerHistory Int,
    (∃ tr, Run (AppendStep 0) { dir := Map.empty, clock := 0 } tr st) ∧ st.appended.length = 2 ∧
      MeshLedger.read st.dir 20 {} = [asRead (sentRecord (sentAt 0 1))] := by
  have hfirst := sent_run [] (sentAt 0 0) .nil (by decide) (by decide)
  have hrun := sent_run [sentAt 0 0] (sentAt 0 1) hfirst (by decide) (by decide)
  refine ⟨_, ⟨_, hrun⟩, by decide, ?_⟩
  rw [read_recent rfl hrun]
  rfl

end PiMesh
