/-
What the transcript keeps.

An archive gives each day its lines.  The files are one: a record adds a line to the day it is
filed under, and switching the transcript on takes away the days that are too long ago.  What
happens to a line is read off the archive, where no name and no text of a date is left.
-/
import PiMesh.Extension.TranscriptFiles
import PiMesh.Lib.Transition
import PiMesh.Proofs.HashOnly
import PiMesh.Proofs.Truncation

namespace PiMesh

open Js Files Transition

namespace MeshTranscript

variable {ν : Type} [Number ν]

/-! ### Names -/

section Names

variable {t t' : Int}

theorem FourDigitYear.congr (h : dayOf t' = dayOf t) (ht : FourDigitYear t) : FourDigitYear t' := by
  have hyear : yearOf t' = yearOf t := by
    unfold yearOf
    rw [h]
  unfold FourDigitYear at ht ⊢
  rw [hyear]
  exact ht

/-- The name of a file is that of its day. -/
theorem fileName_congr (ht : FourDigitYear t) (h : dayOf t' = dayOf t) :
    fileName t' = fileName t := by
  have htext : dateText t' = dateText t := by
    unfold dateText monthDateOf yearOf
    rw [h]
  have hlist : (isoDate t').toList = (isoDate t).toList := by
    rw [toList_isoDate ht, toList_isoDate (FourDigitYear.congr h ht), htext]
  unfold fileName
  rw [String.toList_inj.mp hlist]

theorem toList_fileName (ht : FourDigitYear t) :
    (fileName t).toList = dateText t ++ ".jsonl".toList := by
  unfold fileName
  rw [String.toList_append, toList_isoDate ht]

theorem take_fileName (ht : FourDigitYear t) : (fileName t).toList.take 10 = dateText t ∧
    (fileName t).toList.drop 10 = ".jsonl".toList := by
  rw [toList_fileName ht, ← length_dateText ht]
  exact ⟨List.take_left, List.drop_left⟩

/-- A year begins with a digit exactly if it has four of them. -/
theorem head_dateText (t : Int) : ∃ c rest, dateText t = c :: rest ∧
    (FourDigitYear t ↔ c.isDigit = true) := by
  by_cases ht : FourDigitYear t
  · have hyear : 0 ≤ yearOf t ∧ yearOf t ≤ 9999 := ht
    unfold dateText yearText
    rw [if_pos hyear]
    refine ⟨_, _, rfl, ?_⟩
    have hdigit := isDigit_lastDigits 4 (yearOf t).toNat
    exact ⟨fun _ => hdigit _ List.mem_cons_self, fun _ => ht⟩
  · have hyear : ¬ (0 ≤ yearOf t ∧ yearOf t ≤ 9999) := ht
    unfold dateText yearText
    rw [if_neg hyear]
    refine ⟨_, _, rfl, ?_⟩
    have hsign : (if yearOf t < 0 then '-' else '+').isDigit = false := by
      split <;> rfl
    rw [hsign]
    simp [ht]

theorem head_fileName (t : Int) : ∃ c rest, (fileName t).toList = c :: rest ∧
    (FourDigitYear t ↔ c.isDigit = true) := by
  obtain ⟨c, rest, htext, hyear⟩ := head_dateText t
  unfold fileName isoDate toISOString
  rw [String.toList_append, String.toList_ofList, String.toList_ofList, htext]
  exact ⟨c, _, rfl, hyear⟩

/-- A file that has the name of a day is that day's. -/
theorem dayOf_of_fileName (ht : FourDigitYear t) (h : fileName t' = fileName t) :
    dayOf t' = dayOf t := by
  by_cases ht' : FourDigitYear t'
  · have hdate : dateText t' = dateText t := by
      rw [← (take_fileName ht').1, h, (take_fileName ht).1]
    have hday := midnightOf_dateText ht'
    rw [hdate, midnightOf_dateText ht] at hday
    have hms := Option.some.inj hday
    unfold msPerDay at hms
    omega
  · obtain ⟨c', rest', hhead', hyear'⟩ := head_fileName t'
    obtain ⟨c, rest, hhead, hyear⟩ := head_fileName t
    rw [h, hhead] at hhead'
    obtain ⟨rfl, -⟩ := List.cons.inj hhead'
    exact absurd (hyear'.mpr (hyear.mp ht)) ht'

theorem isOutdated_fileName (days : Nat) (now : Int) (ht : FourDigitYear t) :
    isOutdated days now (fileName t) = decide (now - dayOf t * msPerDay > days * msPerDay) := by
  obtain ⟨htake, hdrop⟩ := take_fileName ht
  unfold isOutdated isDayFile
  rw [htake, hdrop, midnightOf_dateText ht, readDate_dateText ht]
  simp

end Names

/-! ### The archive -/

/-- The lines of each day. -/
abbrev Archive := Int → List (List Char)

/-- A call, on the archive. -/
def archived (days : Nat) (a : Archive) (x : MeshTranscript × Call ν) : Archive :=
  match x.2 with
  | .record direction frame stamped filed =>
      if x.1.enabled then
        Function.update a (dayOf filed) (a (dayOf filed) ++ [entryLine direction frame stamped])
      else a
  | .setEnabled on now unlinks => fun d =>
      if on = true ∧ now - d * msPerDay > days * msPerDay ∧ unlinks (fileName (d * msPerDay)) = true
      then [] else a d

/-- The files are the archive of the days whose names are dates. -/
def Refines (st : MeshTranscript) (a : Archive) : Prop :=
  ∀ t, FourDigitYear t → (st.files.get? (fileName t)).getD [] = a (dayOf t)

section Refinement

variable {days : Nat} {st st' : MeshTranscript} {a : Archive} {c : Call ν} {t : Int}

theorem dayOf_midnight (d : Int) : dayOf (d * msPerDay) = d := by
  unfold dayOf msPerDay
  omega

theorem get?_pruneRetention (days : Nat) (now : Int) (unlinks : String → Bool)
    (files : Dir (List Char)) (name : String) :
    (pruneRetention days now unlinks files).1.get? name
      = if isOutdated days now name && unlinks name then none else files.get? name := by
  unfold pruneRetention
  dsimp only
  rw [Map.get?_foldl_delete]
  by_cases hgone : (isOutdated days now name && unlinks name) = true
  · rw [if_pos hgone]
    split
    · rfl
    · next hkeys =>
        rw [Map.get?_eq_none_iff]
        intro hmem
        exact hkeys (List.mem_filter.mpr ⟨hmem, hgone⟩)
  · rw [if_neg hgone, if_neg]
    intro hmem
    exact hgone (List.mem_filter.mp hmem).2

/-- **Every call on the files is the call on the archive.** -/
theorem Refines.step (h : Refines st a) (hstep : TranscriptStep days st c st') :
    Refines st' (archived days a (st, c)) := by
  subst hstep
  intro t ht
  cases c with
  | record direction frame stamped filed =>
      unfold after recordFrame archived
      dsimp only
      by_cases hon : st.enabled = true
      · rw [if_pos hon, if_pos hon]
        show ((Files.append st.files (fileName filed) _).get? (fileName t)).getD [] = _
        by_cases hday : dayOf filed = dayOf t
        · rw [fileName_congr ht hday, hday, Function.update_self, ← h t ht]
          simp [Files.append, entryLine]
        · have hname : fileName t ≠ fileName filed := fun heq =>
            hday (dayOf_of_fileName ht heq.symm)
          rw [get?_append_ne hname, Function.update_of_ne (Ne.symm hday)]
          exact h t ht
      · rw [if_neg hon, if_neg hon]
        exact h t ht
  | setEnabled on now unlinks =>
      have hname : fileName (dayOf t * msPerDay) = fileName t :=
        fileName_congr ht (dayOf_midnight _)
      unfold after archived
      dsimp only
      rw [hname]
      cases on with
      | false => simpa using h t ht
      | true =>
          rw [if_pos rfl, get?_pruneRetention, isOutdated_fileName days now ht]
          by_cases hgone : now - dayOf t * msPerDay > days * msPerDay ∧ unlinks (fileName t) = true
          · rw [if_pos (by simpa using hgone), if_pos ⟨rfl, hgone⟩]
            rfl
          · rw [if_neg (by simpa using hgone), if_neg (fun hc => hgone hc.2)]
            exact h t ht

theorem Refines.run {tr : List (MeshTranscript × Call ν)} (h : Refines st a)
    (hrun : Run (TranscriptStep days) st tr st') : Refines st' (tr.foldl (archived days) a) := by
  refine hrun.along (P := fun tr st' => Refines st' (tr.foldl (archived days) a))
    (Meets.trivial tr) h ?_
  intro tr s c s' _ _ hs _ hstep
  rw [List.foldl_append]
  exact hs.step hstep

end Refinement

/-! ### What is kept -/

/-- The line a call adds to a day. -/
def dayLine (d : Int) (x : MeshTranscript × Call ν) : Option (List Char) :=
  match x.2 with
  | .record direction frame stamped filed =>
      if x.1.enabled = true ∧ dayOf filed = d then some (entryLine direction frame stamped) else none
  | .setEnabled _ _ _ => none

/-- The call finds the day within the time it is to be kept. -/
def KeepsDay (days : Nat) (d : Int) (c : Call ν) : Prop :=
  ∀ now unlinks, c = .setEnabled true now unlinks → now - d * msPerDay ≤ days * msPerDay

section Kept

variable {days : Nat} {st st₀ : MeshTranscript} {a : Archive} {d : Int}

theorem archived_keeps {x : MeshTranscript × Call ν} (h : KeepsDay days d x.2) :
    archived days a x d = a d ++ (dayLine d x).toList := by
  obtain ⟨s, c⟩ := x
  unfold archived dayLine
  cases c with
  | record direction frame stamped filed =>
      dsimp only
      by_cases hon : s.enabled = true
      · rw [if_pos hon]
        by_cases hday : dayOf filed = d
        · rw [if_pos ⟨hon, hday⟩, hday, Function.update_self]
          rfl
        · rw [if_neg (fun hc => hday hc.2), Function.update_of_ne (Ne.symm hday)]
          simp
      · rw [if_neg hon, if_neg (fun hc => hon hc.1)]
        simp
  | setEnabled on now unlinks =>
      dsimp only
      rw [if_neg]
      · simp
      · rintro ⟨rfl, hlong, -⟩
        have hshort := h now unlinks rfl
        omega

/-- While a day is kept, its lines are added to and nothing else. -/
theorem foldl_archived (tr : List (MeshTranscript × Call ν))
    (h : ∀ x ∈ tr, KeepsDay days d x.2) :
    tr.foldl (archived days) a d = a d ++ tr.filterMap (dayLine d) := by
  induction tr generalizing a with
  | nil => simp
  | cons x tr ih =>
      rw [List.forall_mem_cons] at h
      rw [List.foldl_cons, ih h.2, archived_keeps h.1, List.filterMap_cons, List.append_assoc]
      cases dayLine d x <;> rfl

theorem after_last {before : List (MeshTranscript × Call ν)} {s : MeshTranscript} {c : Call ν}
    (hrun : Run (TranscriptStep days) st₀ (before ++ [(s, c)]) st) : st = s.after days c := by
  obtain ⟨s', -, hright⟩ := hrun.split
  obtain ⟨-, s'', hstep, hnil⟩ := hright.head
  rw [hnil.eq_of_nil]
  exact hstep

/-- **A record stays in the file of its day, in front of the later ones of the day and in their
order, for as long as the transcript is never switched on at a time at which the day is past its
retention; a day that is past it is gone after a pass that could delete its file; and no other
file is ever deleted.** -/
theorem transcript_kept {tr : List (MeshTranscript × Call ν)}
    (hrun : Run (TranscriptStep days) st₀ tr st) :
    (∀ before s direction frame stamped filed after,
      tr = before ++ (s, .record direction frame stamped filed) :: after → s.enabled = true →
      FourDigitYear filed → (∀ x ∈ after, KeepsDay days (dayOf filed) x.2) →
        ∃ old, st.files.get? (fileName filed)
          = some (old ++ entryLine direction frame stamped ::
              after.filterMap (dayLine (dayOf filed)))) ∧
    (∀ before s now unlinks, tr = before ++ [(s, .setEnabled true now unlinks)] →
      ∀ t, FourDigitYear t → unlinks (fileName t) = true →
        now - dayOf t * msPerDay > days * msPerDay → st.files.get? (fileName t) = none) ∧
    ∀ before s now unlinks, tr = before ++ [(s, .setEnabled true now unlinks)] →
      ∀ name, isOutdated days now name = false → st.files.get? name = s.files.get? name := by
  refine ⟨?_, ?_, ?_⟩
  · intro before s direction frame stamped filed after htr hon hyear hkeeps
    subst htr
    let start : Archive := fun d => (st₀.files.get? (fileName (d * msPerDay))).getD []
    have hstart : Refines st₀ start := by
      intro t ht
      rw [← fileName_congr ht (dayOf_midnight (dayOf t))]
    have hend := hstart.run hrun filed hyear
    have hlines : (before ++ (s, .record direction frame stamped filed) :: after).foldl
        (archived days) start (dayOf filed) = before.foldl (archived days) start (dayOf filed) ++
          entryLine direction frame stamped :: after.filterMap (dayLine (dayOf filed)) := by
      rw [List.foldl_append, foldl_archived]
      · simp [dayLine, hon]
      · rw [List.forall_mem_cons]
        refine ⟨?_, hkeeps⟩
        intro now unlinks hcall
        cases hcall
    rw [hlines] at hend
    refine ⟨before.foldl (archived days) start (dayOf filed), ?_⟩
    cases hget : st.files.get? (fileName filed) with
    | none =>
        rw [hget] at hend
        simp at hend
    | some lines =>
        rw [hget] at hend
        rw [← hend]
        rfl
  · intro before s now unlinks htr t ht hdeletes hlong
    subst htr
    rw [after_last hrun]
    show (pruneRetention days now unlinks s.files).1.get? (fileName t) = none
    rw [get?_pruneRetention, isOutdated_fileName days now ht, if_pos]
    simpa [hdeletes] using hlong
  · intro before s now unlinks htr name hname
    subst htr
    rw [after_last hrun]
    show (pruneRetention days now unlinks s.files).1.get? name = _
    rw [get?_pruneRetention, hname]
    rfl

/-- Two records of the first day of 2024, and a pass within the week. -/
theorem transcript_kept_week : ∃ (tr : List (MeshTranscript × Call Int)) (st : MeshTranscript) (old : _),
    Run (TranscriptStep 7) { enabled := true, files := Map.empty } tr st ∧
      st.files.get? (fileName 1704067200000)
        = some (old ++ [entryLine "in" [("id", .num (1 : Int))] 0,
            entryLine "out" [("id", .num (2 : Int))] 0]) := by
  let s₀ : MeshTranscript := { enabled := true, files := Map.empty }
  let c₁ : Call Int := .record "in" [("id", .num 1)] 0 1704067200000
  let c₂ : Call Int := .record "out" [("id", .num 2)] 0 1704067260000
  let c₃ : Call Int := .setEnabled true 1704672000000 fun _ => true
  have hfirst : Run (TranscriptStep 7) s₀ ([] ++ [(s₀, c₁)]) (s₀.after 7 c₁) := .snoc .nil rfl
  have hsecond := Run.snoc hfirst (show TranscriptStep 7 _ c₂ _ from rfl)
  have hrun := Run.snoc hsecond (show TranscriptStep 7 _ c₃ _ from rfl)
  obtain ⟨old, hold⟩ := (transcript_kept hrun).1 [] s₀ "in" [("id", .num 1)] 0 1704067200000
    [(_, c₂), (_, c₃)] rfl rfl (by decide) (by
      rw [List.forall_mem_cons, List.forall_mem_cons]
      refine ⟨?_, ?_, by simp⟩
      · rintro now unlinks hcall
        cases hcall
      · rintro now unlinks hcall
        cases hcall
        decide)
  exact ⟨_, _, old, hrun, hold⟩

end Kept

/-! ### What a line says -/

section Lines

variable {frame : Members ν} {body : String}

omit [Number ν] in
theorem cleanFrame_body (h : lookupEntry "body" frame = some (.str body)) :
    cleanFrame frame
      = setEntry "body" (.str (truncateUtf8 (redactSecrets body) transcriptMaxBodyBytes)) frame := by
  unfold cleanFrame
  rw [h]

omit [Number ν] in
theorem cleanFrame_cases (frame : Members ν) :
    cleanFrame frame = frame ∨ ∃ text, cleanFrame frame = setEntry "body" (.str text) frame := by
  unfold cleanFrame
  split
  · exact .inr ⟨_, rfl⟩
  · exact .inl rfl

omit [Number ν] in
theorem lookupEntry_cleanFrame {k : String} (hk : k ≠ "body") :
    lookupEntry k (cleanFrame frame) = lookupEntry k frame := by
  rcases cleanFrame_cases frame with heq | ⟨text, heq⟩
  · rw [heq]
  · rw [heq, lookupEntry_setEntry, if_neg hk]

omit [Number ν] in
theorem cleanFrame_wellFormed (h : (Json.obj frame).WellFormed) :
    (Json.obj (cleanFrame frame)).WellFormed := by
  rcases cleanFrame_cases frame with heq | ⟨text, heq⟩
  · rw [heq]
    exact h
  · rw [heq]
    exact ⟨Json.nodup_keys_setEntry h.1,
      Json.wellFormedMembers_setEntry (by simp [Json.WellFormed]) h.2⟩

/-- No pattern matches in a redacted text. -/
theorem absent_redactSecrets (text : String) :
    ∀ p ∈ secretPatterns, p.Absent (redactSecrets text) := by
  have hnone : ∀ q ∈ ([] : List SecretPattern), q.Absent text := by simp
  have hkept := absent_foldl secretPatterns_keep (List.prefix_refl _) hnone
  unfold redactSecrets
  simpa using hkept

/-- **A line is one entry of NDJSON, which reads back as the frame with its body made safe**: the
body redacted where that fits, so that no secret is recognised in it, and else the longest part
of the redacted body that fits, and the marker. -/
theorem recorded_line (hwf : (Json.obj frame).WellFormed) (direction : String) (stamped : Int) :
    (∃ text, entryLine direction frame stamped = text ++ ['\n'] ∧ '\n' ∉ text ∧
      Json.parse text = some (Json.wire (.obj [("ts", .str (toISOString stamped)),
        ("dir", .str direction), ("frame", .obj (cleanFrame frame))]))) ∧
    (∀ k, k ≠ "body" → lookupEntry k (cleanFrame frame) = lookupEntry k frame) ∧
    ∀ body, lookupEntry "body" frame = some (.str body) → ∃ kept,
      lookupEntry "body" (cleanFrame frame) = some (.str kept) ∧
        (byteCount (redactSecrets body).toList ≤ transcriptMaxBodyBytes →
          kept = redactSecrets body ∧ ∀ p ∈ secretPatterns, p.Absent kept) ∧
        (transcriptMaxBodyBytes < byteCount (redactSecrets body).toList → ∃ front,
          LongestFit (redactSecrets body).toList transcriptMaxBodyBytes front ∧
            kept.toList = front ++ truncatedMarker.toList) := by
  refine ⟨⟨_, rfl, newline_not_mem (printed_stringify _), ?_⟩,
    fun k hk => lookupEntry_cleanFrame hk, ?_⟩
  · refine Json.parse_stringify _ ⟨by simp, ?_⟩
    exact ⟨trivial, trivial, cleanFrame_wellFormed hwf, trivial⟩
  · intro body hbody
    refine ⟨truncateUtf8 (redactSecrets body) transcriptMaxBodyBytes, ?_, ?_, ?_⟩
    · rw [cleanFrame_body hbody, lookupEntry_setEntry, if_pos rfl]
    · intro hfits
      have hwhole : truncateUtf8 (redactSecrets body) transcriptMaxBodyBytes = redactSecrets body := by
        unfold truncateUtf8
        exact if_pos hfits
      rw [hwhole]
      exact ⟨rfl, absent_redactSecrets body⟩
    · intro hlong
      exact truncateUtf8_longest hlong

/-- A frame of one member. -/
theorem recorded_line_short : ∃ text,
    entryLine "in" ([("body", .str "ok")] : Members Int) 0 = text ++ ['\n'] ∧ '\n' ∉ text := by
  have hwf : (Json.obj ([("body", .str "ok")] : Members Int)).WellFormed :=
    ⟨by simp, trivial, trivial⟩
  obtain ⟨⟨text, hline, hnone, -⟩, -, -⟩ := recorded_line hwf "in" 0
  exact ⟨text, hline, hnone⟩

end Lines

end MeshTranscript

end PiMesh
