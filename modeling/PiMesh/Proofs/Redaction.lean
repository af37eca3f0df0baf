/-
No secret is left.

Each replacement is a tag in brackets.  Behind and before a tag a word ends, as it did where the
match was, so what matches between tags has matched in the text before: a later pattern brings no
match of an earlier one, and none of itself.  What could go through a tag is the text between the
lines of a key, which begins and ends outside of it, and the value of an assignment, which stood
there before, or a match began with it.
-/
import PiMesh.Extension.Transcript

namespace PiMesh

open Js Regex Pattern

/-! ### What the result speaks of -/

/-- The pattern matches nowhere in the text. -/
def SecretPattern.Absent (p : SecretPattern) (text : String) : Prop :=
  p.re.Clean ⟨none, text.toList⟩

/-- Nothing that is recognised is left, and nothing comes back on the way. -/
structure Redacted (text : String) : Prop where
  absent : ∀ p ∈ secretPatterns, p.Absent (redactSecrets text)
  idempotent : redactSecrets (redactSecrets text) = redactSecrets text
  /-- Behind the first few patterns, none of these matches. -/
  onTheWay : ∀ done todo, secretPatterns = done ++ todo →
    ∀ p ∈ done, p.Absent (done.foldl SecretPattern.redact text)

/-- Replacing one pattern leaves none of another, if there was none or they are one. -/
def StaysAbsent (q p : SecretPattern) : Prop :=
  ∀ text, q.re = p.re ∨ q.Absent text → q.Absent (p.redact text)

/-! ### Tags -/

/-- The replacement as a tag. -/
def SecretPattern.tag (p : SecretPattern) : Tag isWordChar :=
  ⟨'[', (p.replacement.toList.drop 1).dropLast, ']', rfl, rfl⟩

theorem tag_text : ∀ p ∈ secretPatterns, p.replacement.toList = p.tag.text := by decide

/-- The patterns, up to what may go through a tag. -/
def heads : List (Pattern Char) :=
  [keyLine "-----BEGIN ", keyLine "-----END ", bearerToken, apiKey, awsAccessKey,
    .seq secretName assignment, email]

theorem heads_refuse : ∀ q ∈ heads, q.refuses '[' = true ∧ q.refuses ']' = true := by decide

theorem heads_consume : ∀ q ∈ heads, q.consumes = true := by decide

theorem heads_edges : heads.flatMap edges = List.replicate 7 isWordChar := rfl

theorem heads_inner : ∀ p ∈ secretPatterns, ∀ q ∈ heads,
    q.Clean ⟨some p.tag.opening, p.tag.inner⟩ := by decide +kernel

theorem avoids_tag {p : SecretPattern} (hp : p ∈ secretPatterns) {q : Pattern Char}
    (hq : q ∈ heads) : q.Avoids p.tag where
  reads := over_of_refuses (heads_refuse q hq).1 (heads_refuse q hq).2
  edges w hw := by
    have hmem : w ∈ heads.flatMap edges := List.mem_flatMap.mpr ⟨q, hq, hw⟩
    rw [heads_edges] at hmem
    exact List.eq_of_mem_replicate hmem
  consumes := heads_consume q hq
  inner := heads_inner p hp q hq

/-- What is left absent of a text is absent of its characters. -/
theorem absent_redact {p q : SecretPattern} (hp : p ∈ secretPatterns) {text : String}
    (h : q.re.Clean ⟨none, p.re.replaceAll p.tag.text text.toList⟩) : q.Absent (p.redact text) := by
  unfold SecretPattern.Absent SecretPattern.redact
  rw [String.toList_ofList, tag_text p hp]
  exact h

theorem patterns_consume : ∀ p ∈ secretPatterns, p.re.consumes = true := by decide

/-! ### Where matches begin and end -/

theorem unquoted_of_word {c : Char} (h : isWordChar c = true) : isUnquoted c = true := by
  have hascii : ∀ n < 128, isWordChar (Char.ofNat n) = true → isUnquoted (Char.ofNat n) = true := by
    decide
  have hlt : c.toNat < 128 := by
    unfold isWordChar at h
    rcases Bool.or_eq_true_iff.mp h with halnum | hline
    · delta Char.isAlphanum Char.isAlpha Char.isUpper Char.isLower Char.isDigit at halnum
      simp only [Bool.or_eq_true, Bool.and_eq_true, decide_eq_true_eq, ge_iff_le,
        UInt32.le_iff_toNat_le] at halnum
      have hval : c.toNat = c.val.toNat := rfl
      simp at halnum
      omega
    · rw [eq_of_beq hline]
      decide
  have hall := hascii c.toNat hlt
  rw [Char.ofNat_toNat] at hall
  exact hall h

theorem name_is_word {c : Char} (h : isNameOfSecret c = true) : isWordChar c = true := by
  unfold isNameOfSecret isKeyChar at h
  unfold isWordChar Char.isAlphanum Char.isAlpha
  simp only [Bool.or_eq_true] at h ⊢
  rcases h with (hdigit | hupper) | hline
  · exact .inl (.inr hdigit)
  · exact .inl (.inl (.inl hupper))
  · exact .inr hline

/-- The name of a secret is one word. -/
theorem secretName_first {c c' : Cursor Char} (h : c' ∈ secretName.runs c) :
    c.atEdge isWordChar = true ∧ ∃ d o, c.rest = d :: o ∧ isWordChar d = true := by
  obtain ⟨m, hm, hbody⟩ := mem_runs_seq.mp h
  obtain ⟨hedge, rfl⟩ := mem_runs_edge.mp hm
  refine ⟨hedge, ?_⟩
  have hover : Over (fun d => isWordChar d = true) (.seq (.many isNameOfSecret)
      (.seq (.oneOf [literal "SECRET", literal "TOKEN", literal "PASSWORD", literal "API_KEY"])
        (.many isNameOfSecret))) := by
    refine ⟨fun d hd => name_is_word hd, over_oneOf ?_, fun d hd => name_is_word hd⟩
    have hwords : ∀ w ∈ ["SECRET", "TOKEN", "PASSWORD", "API_KEY"],
        w.toList.all isWordChar = true := by decide
    simpa [literal] using fun w hw => over_lit (List.all_eq_true.mp (hwords w hw))
  exact exists_first_read hover rfl rfl hbody

theorem framed_api : Framed apiKey isWordChar := framed_of_edges
theorem framed_aws : Framed awsAccessKey isWordChar := framed_of_edges
theorem framed_email : Framed email isWordChar := framed_of_edges

/-- An assignment goes as far as its value does. -/
theorem framed_assignment : Framed secretAssignment isWordChar where
  start h := by
    obtain ⟨m, hm, -⟩ := mem_runs_seq.mp (exec_mem h)
    obtain ⟨n, hn, -⟩ := mem_runs_seq.mp hm
    exact (secretName_first hn).1
  stop {c c'} h hword := by
    obtain ⟨m, -, hvalue⟩ := exec_seq h
    obtain ⟨n, -, hmore⟩ := exec_seq hvalue
    have hnot := exec_many hmore
    cases hrest : c'.rest with
    | nil => simp [hrest] at hword
    | cons d o =>
        rw [hrest, List.head?_cons, Option.any_some] at hword hnot
        rw [unquoted_of_word hword] at hnot
        simp at hnot

/-! ### One pattern after another -/

section StaysAbsent

variable {p : SecretPattern} (hp : p ∈ secretPatterns)
include hp

/-- A pattern without edges is not brought back. -/
theorem keeps_edgeless {q : SecretPattern} (hq : q.re ∈ heads) (hedges : q.re.edges = []) :
    StaysAbsent q p := by
  intro text htext
  refine absent_redact hp ((avoids_tag hp hq).clean ?_ (patterns_consume p hp) htext)
  simp [hedges]

/-- A key has edges nowhere, and its lines are outside of the tags. -/
theorem keeps_key {q : SecretPattern} (hq : q.re = privateKey) : StaysAbsent q p := by
  intro text htext
  have hfirst : (keyLine "-----BEGIN ").Avoids p.tag := avoids_tag hp (by simp [heads])
  have hlast : (keyLine "-----END ").Avoids p.tag := avoids_tag hp (by simp [heads])
  refine absent_redact hp ?_
  unfold SecretPattern.Absent at htext
  rw [hq] at htext ⊢
  refine clean_span hfirst hlast ?_ (patterns_consume p hp) htext
  intro w hw
  have hnone : (keyLine "-----BEGIN ").edges ++ (keyLine "-----END ").edges = [] := rfl
  rw [hnone] at hw
  simp at hw

/-- A match of a framed pattern is one in the text. -/
theorem keeps_framed {q : SecretPattern} (hframed : Framed p.re isWordChar) (hq : q.re ∈ heads) :
    StaysAbsent q p := by
  intro text htext
  have havoids := avoids_tag hp hq
  refine absent_redact hp (havoids.clean ?_ (patterns_consume p hp) htext)
  intro w hw
  rw [havoids.edges w hw]
  exact hframed

/-- An assignment was one before, since a match begins as a value may. -/
theorem keeps_assignment {q : SecretPattern} (hframed : Framed p.re isWordChar)
    (hvalue : ∀ c c', p.re.exec c = some c' → ∃ d o, c.rest = d :: o ∧ isUnquoted d = true)
    (hq : q.re = secretAssignment) : StaysAbsent q p := by
  intro text htext
  have havoids : (Pattern.seq secretName assignment).Avoids p.tag :=
    avoids_tag hp (by simp [heads])
  refine absent_redact hp ?_
  unfold SecretPattern.Absent at htext
  rw [hq] at htext ⊢
  refine clean_value havoids ?_ (patterns_consume p hp) hvalue htext
  intro w hw
  rw [havoids.edges w hw]
  exact hframed

end StaysAbsent

theorem value_assignment (c c' : Cursor Char) (h : secretAssignment.exec c = some c') :
    ∃ d o, c.rest = d :: o ∧ isUnquoted d = true := by
  obtain ⟨m, hm, -⟩ := mem_runs_seq.mp (exec_mem h)
  obtain ⟨n, hn, -⟩ := mem_runs_seq.mp hm
  obtain ⟨d, o, hrest, hd⟩ := (secretName_first hn).2
  exact ⟨d, o, hrest, unquoted_of_word hd⟩

theorem value_email (c c' : Cursor Char) (h : email.exec c = some c') :
    ∃ d o, c.rest = d :: o ∧ isUnquoted d = true := by
  obtain ⟨m, hm, hbody⟩ := mem_runs_seq.mp (exec_mem h)
  obtain ⟨-, rfl⟩ := mem_runs_edge.mp hm
  obtain ⟨n, hn, -⟩ := mem_runs_seq.mp hbody
  obtain ⟨n', hlocal, -⟩ := mem_runs_seq.mp hn
  obtain ⟨first, hfirst, -⟩ := mem_runs_seq.mp hlocal
  obtain ⟨d, o, hrest, hd, -⟩ := mem_runs_char.mp hfirst
  refine ⟨d, o, hrest, ?_⟩
  rcases Bool.or_eq_true_iff.mp hd with halnum | hsign
  · exact unquoted_of_word (by simp [isWordChar, halnum])
  · have hall : "._%+-".toList.all isUnquoted = true := by decide
    exact List.all_eq_true.mp hall d (by simpa using hsign)

/-- Each pattern leaves none of those up to itself. -/
def AllStayAbsent : List SecretPattern → List SecretPattern → Prop
  | _, [] => True
  | done, p :: todo => (∀ q ∈ done ++ [p], StaysAbsent q p) ∧ AllStayAbsent (done ++ [p]) todo

theorem secretPatterns_keep : AllStayAbsent [] secretPatterns := by
  have hkey : ∀ p ∈ secretPatterns, StaysAbsent secretPatterns[0] p := fun p hp => keeps_key hp rfl
  have hbearer : ∀ p ∈ secretPatterns, StaysAbsent secretPatterns[1] p := fun p hp =>
    keeps_edgeless hp (by simp [heads, secretPatterns]) rfl
  have hapi : ∀ p ∈ secretPatterns, Framed p.re isWordChar → StaysAbsent secretPatterns[2] p :=
    fun p hp hframed => keeps_framed hp hframed (by simp [heads, secretPatterns])
  have haws : ∀ p ∈ secretPatterns, Framed p.re isWordChar → StaysAbsent secretPatterns[3] p :=
    fun p hp hframed => keeps_framed hp hframed (by simp [heads, secretPatterns])
  have hemail : ∀ p ∈ secretPatterns, Framed p.re isWordChar → StaysAbsent secretPatterns[5] p :=
    fun p hp hframed => keeps_framed hp hframed (by simp [heads, secretPatterns])
  have hmem : ∀ i (h : i < 6), secretPatterns[i] ∈ secretPatterns := fun i h =>
    List.getElem_mem h
  have hassign : StaysAbsent secretPatterns[4] secretPatterns[4] :=
    keeps_assignment (hmem 4 (by decide)) framed_assignment value_assignment rfl
  have hassign' : StaysAbsent secretPatterns[4] secretPatterns[5] :=
    keeps_assignment (hmem 5 (by decide)) framed_email value_email rfl
  refine ⟨?_, ?_, ?_, ?_, ?_, ?_, trivial⟩
  · intro q hq
    rw [List.mem_singleton.mp hq]
    exact hkey _ (hmem 0 (by decide))
  · have hp := hmem 1 (by decide)
    simpa using ⟨hkey _ hp, hbearer _ hp⟩
  · have hp := hmem 2 (by decide)
    simpa using ⟨hkey _ hp, hbearer _ hp, hapi _ hp framed_api⟩
  · have hp := hmem 3 (by decide)
    simpa using ⟨hkey _ hp, hbearer _ hp, hapi _ hp framed_aws, haws _ hp framed_aws⟩
  · have hp := hmem 4 (by decide)
    simpa using ⟨hkey _ hp, hbearer _ hp, hapi _ hp framed_assignment,
      haws _ hp framed_assignment, hassign⟩
  · have hp := hmem 5 (by decide)
    simpa using ⟨hkey _ hp, hbearer _ hp, hapi _ hp framed_email, haws _ hp framed_email,
      hassign', hemail _ hp framed_email⟩

/-- **What the patterns up to here recognise is not there any more, whatever comes next.** -/
theorem absent_foldl {done todo pre : List SecretPattern} (h : AllStayAbsent done todo)
    (hpre : pre <+: todo) {text : String} (hdone : ∀ q ∈ done, q.Absent text) :
    ∀ q ∈ done ++ pre, q.Absent (pre.foldl SecretPattern.redact text) := by
  induction pre generalizing done todo text with
  | nil => simpa using hdone
  | cons p pre ih =>
      cases todo with
      | nil => simp at hpre
      | cons p' todo =>
          obtain ⟨rfl, hrest⟩ := List.cons_prefix_cons.mp hpre
          have hnext : ∀ q ∈ done ++ [p], q.Absent (p.redact text) := by
            intro q hq
            refine h.1 q hq text ?_
            rcases List.mem_append.mp hq with hq | hq
            · exact .inr (hdone q hq)
            · exact .inl (by rw [List.mem_singleton.mp hq])
          have hall := ih h.2 hrest hnext
          rw [List.append_assoc] at hall
          exact hall

theorem redact_absent {p : SecretPattern} {text : String} (h : p.Absent text) :
    p.redact text = text := by
  unfold SecretPattern.redact replaceAll
  rw [replaceFrom_clean h, String.ofList_toList]

/-- A text without secrets stays as it is. -/
theorem redact_again {ps : List SecretPattern} {text : String} (h : ∀ p ∈ ps, p.Absent text) :
    ps.foldl SecretPattern.redact text = text := by
  induction ps with
  | nil => rfl
  | cons p ps ih =>
      rw [List.foldl_cons, redact_absent (h p List.mem_cons_self)]
      exact ih fun q hq => h q (List.mem_cons_of_mem p hq)

/-- **No pattern matches in a redacted text, so redacting again changes nothing; and no pattern on
the way brings back a match of one before it.** -/
theorem redacted_absent (text : String) : Redacted text := by
  have hall : ∀ done todo, secretPatterns = done ++ todo →
      ∀ p ∈ done, p.Absent (done.foldl SecretPattern.redact text) := by
    intro done todo hsplit
    have hnone : ∀ q ∈ ([] : List SecretPattern), q.Absent text := by simp
    have hkept := absent_foldl secretPatterns_keep ⟨todo, hsplit.symm⟩ hnone
    simpa using hkept
  have hend := hall secretPatterns [] (List.append_nil _).symm
  exact ⟨hend, redact_again hend, hall⟩

end PiMesh
