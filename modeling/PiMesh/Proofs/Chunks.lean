/-
What a decoder returns, however the stream is cut.

There are two texts: the one the stream decodes to, and the one made of the chunks decoded each by
itself.  They have the same lines, in number and in which of them are empty, and a line of the
second is never the shorter one; it is longer exactly where a character of it lies in two chunks.
A push that throws keeps back every line it has completed, so a line is also lost where a too long
one comes behind it in the same chunk.  Nothing else goes wrong, and the two theorems count that
way: what is returned is no more than the legal lines of the second text, and these are no more
than the legal lines of the first.
-/
import PiMesh.Protocol.Frames
import PiMesh.Js.JsonSize
import PiMesh.Js.JsonRoundTrip

namespace PiMesh

open Js Utf8

/-! ### Lines -/

/-- The lines of a text; the last one is not complete. -/
def textLines (text : List Char) : List (List Char) := text.splitOn '\n'

/-- No line has more bytes, complete or not. -/
def LinesFit (maxBytes : Nat) (text : List Char) : Prop :=
  ∀ line ∈ textLines text, byteLength line ≤ maxBytes

/-- The complete lines before the first that is too long, without the empty ones. -/
def legalOf (maxBytes : Nat) : List (List Char) → List (List Char)
  | line :: next :: rest =>
      if byteLength line > maxBytes then []
      else if line = [] then legalOf maxBytes (next :: rest)
      else line :: legalOf maxBytes (next :: rest)
  | _ => []

def legalLines (maxBytes : Nat) (text : List Char) : List (List Char) :=
  legalOf maxBytes (textLines text)

section Lines

variable {maxBytes : Nat} {a b text : List Char}

theorem textLines_ne_nil (text : List Char) : textLines text ≠ [] := List.splitOn_ne_nil _ _

theorem textLines_open (h : '\n' ∉ a) : textLines a = [a] := List.splitOn_eq_singleton h

theorem textLines_newline (a b : List Char) :
    textLines (a ++ '\n' :: b) = textLines a ++ textLines b := List.splitOn_append_cons_self _ _

theorem textLines_line (h : '\n' ∉ a) : textLines (a ++ '\n' :: b) = a :: textLines b := by
  rw [textLines_newline, textLines_open h]
  rfl

/-- A text is an unfinished line, or a line and a text. -/
theorem text_induction {P : List Char → Prop} (hopen : ∀ a, '\n' ∉ a → P a)
    (hline : ∀ a b, '\n' ∉ a → P b → P (a ++ '\n' :: b)) (text : List Char) : P text := by
  suffices h : ∀ a b : List Char, '\n' ∉ a → P (a ++ b) by exact h [] text (by simp)
  intro a b ha
  induction b generalizing a with
  | nil =>
      rw [List.append_nil]
      exact hopen a ha
  | cons c b ih =>
      by_cases hc : c = '\n'
      · rw [hc]
        exact hline a b ha (ih [] (by simp))
      · have hnot : '\n' ∉ a ++ [c] := by
          simp only [List.mem_append, List.mem_singleton, not_or]
          exact ⟨ha, fun h => hc h.symm⟩
        have hstep := ih (a ++ [c]) hnot
        rwa [List.append_assoc] at hstep

/-- The complete lines of a text stay as they are, whatever is appended. -/
theorem exists_lines (text : List Char) : ∃ init last, textLines text = init ++ [last] ∧
    '\n' ∉ last ∧ ∀ more, textLines (text ++ more) = init ++ textLines (last ++ more) := by
  induction text using text_induction with
  | hopen a ha => exact ⟨[], a, textLines_open ha, ha, fun _ => rfl⟩
  | hline a b ha ih =>
      obtain ⟨init, last, hlines, hlast, hmore⟩ := ih
      refine ⟨a :: init, last, ?_, hlast, fun more => ?_⟩
      · rw [textLines_line ha, hlines]
        rfl
      · rw [List.append_assoc, List.cons_append, textLines_line ha, hmore]
        rfl

theorem byteLength_append_le (a b : List Char) : byteLength a ≤ byteLength (a ++ b) := by
  rw [Json.byteLength_append]
  exact Nat.le_add_right _ _

theorem fits_open (h : '\n' ∉ a) : LinesFit maxBytes a ↔ byteLength a ≤ maxBytes := by
  unfold LinesFit
  rw [textLines_open h]
  simp

theorem fits_newline : LinesFit maxBytes (a ++ '\n' :: b) ↔ LinesFit maxBytes a ∧ LinesFit maxBytes b := by
  unfold LinesFit
  rw [textLines_newline]
  simp only [List.mem_append, or_imp, forall_and]

theorem legalLines_open (h : '\n' ∉ a) : legalLines maxBytes a = [] := by
  unfold legalLines
  rw [textLines_open h]
  rfl

theorem legalLines_line (h : '\n' ∉ a) : legalLines maxBytes (a ++ '\n' :: b) =
    if byteLength a > maxBytes then []
    else if a = [] then legalLines maxBytes b else a :: legalLines maxBytes b := by
  unfold legalLines
  rw [textLines_line h]
  cases hb : textLines b with
  | nil => exact absurd hb (textLines_ne_nil b)
  | cons next rest => rfl

theorem legalOf_cons {line : List Char} {rest : List (List Char)} (h : rest ≠ []) :
    legalOf maxBytes (line :: rest) = if byteLength line > maxBytes then []
      else if line = [] then legalOf maxBytes rest else line :: legalOf maxBytes rest := by
  cases rest with
  | nil => exact absurd rfl h
  | cons next rest => rfl

theorem legalOf_append {xs ys : List (List Char)} (h : ∀ line ∈ xs, byteLength line ≤ maxBytes)
    (hys : ys ≠ []) :
    legalOf maxBytes (xs ++ ys) = (xs.filter fun line => line ≠ []) ++ legalOf maxBytes ys := by
  induction xs with
  | nil => rfl
  | cons line xs ih =>
      have ih := ih fun x hx => h x (List.mem_cons_of_mem _ hx)
      have hline := h line List.mem_cons_self
      have hne : xs ++ ys ≠ [] := fun hnil => hys (List.append_eq_nil_iff.mp hnil).2
      rw [List.cons_append, legalOf_cons hne, if_neg (by omega), ih]
      by_cases hempty : line = []
      · rw [if_pos hempty, List.filter_cons_of_neg (by simp [hempty])]
      · rw [if_neg hempty, List.filter_cons_of_pos (by simp [hempty]), List.cons_append]

end Lines

/-! ### A push -/

section Push

variable {maxBytes : Nat} {a b text acc : List Char}

theorem takeLines_open (h : '\n' ∉ a) :
    takeLines maxBytes a acc = some ([], acc.reverse ++ a) := by
  induction a generalizing acc with
  | nil => rw [takeLines, List.append_nil]
  | cons c a ih =>
      obtain ⟨hc, ha⟩ := not_or.mp (List.mem_cons.not.mp h)
      rw [takeLines, if_neg (Ne.symm hc), ih ha, List.reverse_cons, List.append_assoc]
      rfl

theorem takeLines_line (h : '\n' ∉ a) : takeLines maxBytes (a ++ '\n' :: b) acc =
    if byteLength (acc.reverse ++ a) > maxBytes then none
    else (takeLines maxBytes b []).map fun r =>
      (if acc.reverse ++ a = [] then r.1 else (acc.reverse ++ a) :: r.1, r.2) := by
  induction a generalizing acc with
  | nil =>
      rw [List.nil_append, List.append_nil, takeLines, if_pos rfl]
      dsimp only
      by_cases hlong : byteLength acc.reverse > maxBytes
      · rw [if_pos hlong, if_pos hlong]
      · rw [if_neg hlong, if_neg hlong]
        cases takeLines maxBytes b [] with
        | none => rfl
        | some r =>
            cases hrev : acc.reverse with
            | nil => rfl
            | cons c l => rfl
  | cons c a ih =>
      obtain ⟨hc, ha⟩ := not_or.mp (List.mem_cons.not.mp h)
      rw [List.cons_append, takeLines, if_neg (Ne.symm hc), ih ha, List.reverse_cons,
        List.append_assoc]
      rfl

theorem takeLines_eq {init : List (List Char)} {last : List Char}
    (h : textLines text = init ++ [last]) : takeLines maxBytes text [] =
      if ∀ line ∈ init, byteLength line ≤ maxBytes then some (legalLines maxBytes text, last)
      else none := by
  induction text using text_induction generalizing init with
  | hopen a ha =>
      rw [textLines_open ha] at h
      have h : [] ++ [a] = init ++ [last] := h
      obtain ⟨rfl, hlast⟩ := List.append_inj' h rfl
      obtain rfl := (List.cons.inj hlast).1
      rw [takeLines_open ha, legalLines_open ha, if_pos (by simp)]
      rfl
  | hline a b ha ih =>
      rw [textLines_line ha] at h
      cases init with
      | nil => exact absurd (List.cons.inj h).2 (textLines_ne_nil b)
      | cons x init =>
          obtain ⟨rfl, hinit⟩ := List.cons.inj h
          rw [takeLines_line ha, legalLines_line ha, ih hinit, List.reverse_nil, List.nil_append]
          simp only [List.forall_mem_cons]
          by_cases hlong : byteLength a > maxBytes
          · rw [if_pos hlong, if_pos hlong, if_neg fun hall => absurd hall.1 (Nat.not_le.mpr hlong)]
          · rw [if_neg hlong, if_neg hlong]
            by_cases hall : ∀ line ∈ init, byteLength line ≤ maxBytes
            · rw [if_pos hall, if_pos ⟨Nat.not_lt.mp hlong, hall⟩]
              rfl
            · rw [if_neg hall, if_neg fun hboth => hall hboth.2]
              rfl

variable (maxBytes) in
/-- A push succeeds where every line fits, and then it returns the legal ones. -/
theorem push_eq (d : FrameDecoder) (chunk : List Char) {init : List (List Char)} {last : List Char}
    (h : textLines (d.buf ++ chunk) = init ++ [last]) :
    (LinesFit maxBytes (d.buf ++ chunk) → d.push maxBytes chunk
      = some (legalLines maxBytes (d.buf ++ chunk), ⟨last⟩)) ∧
    (¬LinesFit maxBytes (d.buf ++ chunk) → d.push maxBytes chunk = none) := by
  have hfits : LinesFit maxBytes (d.buf ++ chunk) ↔
      (∀ line ∈ init, byteLength line ≤ maxBytes) ∧ byteLength last ≤ maxBytes := by
    unfold LinesFit
    rw [h]
    simp only [List.mem_append, List.mem_singleton, or_imp, forall_and, forall_eq]
  unfold FrameDecoder.push
  rw [hfits, takeLines_eq h]
  by_cases hall : ∀ line ∈ init, byteLength line ≤ maxBytes
  · rw [if_pos hall]
    exact ⟨fun hboth => if_neg (Nat.not_lt.mpr hboth.2),
      fun hnot => if_pos (Nat.not_le.mp fun hlast => hnot ⟨hall, hlast⟩)⟩
  · rw [if_neg hall]
    exact ⟨fun hboth => absurd hboth.1 hall, fun _ => rfl⟩

end Push

/-! ### Pushes in a row -/

/-- The last line has begun. -/
def OpenLine (text : List Char) : Prop := (textLines text).getLast? ≠ some []

/-- Where a text ends a line that is to be returned, no line is too long in the rest of it. -/
def KeepsText (maxBytes : Nat) (buf : List Char) (texts : List (List Char)) : Prop :=
  ∀ before text after u v, texts = before ++ text :: after → text = u ++ '\n' :: v →
    OpenLine (buf ++ (before.flatten ++ u)) → LinesFit maxBytes (buf ++ (before.flatten ++ u)) →
    LinesFit maxBytes v

section Pushes

variable {maxBytes : Nat} {a b text buf last : List Char} {init : List (List Char)}

theorem getLast?_lines {xs ys : List (List Char)} (hys : ys ≠ []) :
    (xs ++ ys).getLast? = ys.getLast? := by
  rw [List.getLast?_append_of_ne_nil _ hys]

theorem openLine_open (h : '\n' ∉ a) : OpenLine a ↔ a ≠ [] := by
  unfold OpenLine
  rw [textLines_open h]
  simp

theorem openLine_newline : OpenLine (a ++ '\n' :: b) ↔ OpenLine b := by
  unfold OpenLine
  rw [textLines_newline, getLast?_lines (textLines_ne_nil b)]

/-- An unfinished line goes on in the first line of what follows. -/
theorem first_line (h : '\n' ∉ last) (more : List Char) :
    ∃ p rest, textLines (last ++ more) = (last ++ p) :: rest := by
  induction more using text_induction with
  | hopen a ha =>
      have hnot : '\n' ∉ last ++ a := by
        rw [List.mem_append, not_or]
        exact ⟨h, ha⟩
      exact ⟨a, [], textLines_open hnot⟩
  | hline a b ha ih =>
      have hnot : '\n' ∉ last ++ a := by
        rw [List.mem_append, not_or]
        exact ⟨h, ha⟩
      rw [← List.append_assoc, textLines_line hnot]
      exact ⟨a, textLines b, rfl⟩

theorem fits_of_append (h : LinesFit maxBytes (a ++ b)) : LinesFit maxBytes a := by
  obtain ⟨init, last, hlines, hlast, hmore⟩ := exists_lines a
  obtain ⟨p, rest, hfirst⟩ := first_line hlast b
  intro line hline
  rw [hlines] at hline
  unfold LinesFit at h
  rw [hmore, hfirst] at h
  rcases List.mem_append.mp hline with hinit | hlast
  · exact h line (List.mem_append_left _ hinit)
  · obtain rfl := List.mem_singleton.mp hlast
    exact Nat.le_trans (byteLength_append_le line p)
      (h _ (List.mem_append_right _ List.mem_cons_self))

/-- A line that has begun and fits is legal when it ends. -/
theorem legal_ne_nil (hopen : OpenLine a) (hfits : LinesFit maxBytes a) :
    legalLines maxBytes (a ++ '\n' :: b) ≠ [] := by
  obtain ⟨init, last, hlines, hlast, hmore⟩ := exists_lines a
  have hne : last ≠ [] := by
    rintro rfl
    apply hopen
    rw [hlines, List.getLast?_concat]
  have hall : ∀ line ∈ textLines a, byteLength line ≤ maxBytes := hfits
  rw [hlines] at hall
  unfold legalLines
  rw [hmore, textLines_line hlast,
    legalOf_append (fun line hline => hall line (List.mem_append_left _ hline))
      (List.cons_ne_nil _ _),
    legalOf_cons (textLines_ne_nil b),
    if_neg (Nat.not_lt.mpr (hall last (List.mem_append_right _ (List.mem_singleton_self _)))),
    if_neg hne]
  simp

/-- What a push returns comes before what the rest of the stream gives. -/
theorem legal_append (hlines : textLines a = init ++ [last])
    (hmore : ∀ more, textLines (a ++ more) = init ++ textLines (last ++ more))
    (hfits : LinesFit maxBytes a) :
    legalLines maxBytes (a ++ b) = legalLines maxBytes a ++ legalLines maxBytes (last ++ b) := by
  have hinit : ∀ line ∈ init, byteLength line ≤ maxBytes := by
    intro line hline
    apply hfits
    rw [hlines]
    exact List.mem_append_left _ hline
  have hnothing : legalOf maxBytes [last] = [] := rfl
  unfold legalLines
  rw [hmore, hlines, legalOf_append hinit (textLines_ne_nil _),
    legalOf_append hinit (List.cons_ne_nil _ _), hnothing, List.append_nil]

/-- A push that throws keeps nothing back where it ends no line that is to be returned. -/
theorem legal_eq_nil_iff (hbuf : '\n' ∉ buf) (hnot : ¬LinesFit maxBytes (buf ++ text)) :
    legalLines maxBytes (buf ++ (text ++ b)) = [] ↔
      ∀ u v, text = u ++ '\n' :: v → OpenLine (buf ++ u) → LinesFit maxBytes (buf ++ u) →
        LinesFit maxBytes v := by
  constructor
  · intro h u v htext hopen hfits
    rw [htext, List.append_assoc, ← List.append_assoc, List.cons_append] at h
    exact absurd h (legal_ne_nil hopen hfits)
  · intro h
    induction text using text_induction generalizing buf with
    | hopen a ha =>
        have hopen : '\n' ∉ buf ++ a := by
          rw [List.mem_append, not_or]
          exact ⟨hbuf, ha⟩
        rw [fits_open hopen, Nat.not_le] at hnot
        obtain ⟨p, rest, hfirst⟩ := first_line hopen b
        unfold legalLines
        rw [← List.append_assoc, hfirst]
        cases rest with
        | nil => rfl
        | cons next rest =>
            exact if_pos (Nat.lt_of_lt_of_le hnot (byteLength_append_le _ p))
    | hline a t ha ih =>
        have hopen : '\n' ∉ buf ++ a := by
          rw [List.mem_append, not_or]
          exact ⟨hbuf, ha⟩
        rw [← List.append_assoc, fits_newline, fits_open hopen] at hnot
        have hcut : buf ++ (a ++ '\n' :: t ++ b) = (buf ++ a) ++ '\n' :: (t ++ b) := by simp
        rw [hcut, legalLines_line hopen]
        by_cases hlong : byteLength (buf ++ a) > maxBytes
        · exact if_pos hlong
        · have hshort := Nat.not_lt.mp hlong
          have hrest : ¬LinesFit maxBytes t := fun hfits => hnot ⟨hshort, hfits⟩
          have hempty : buf ++ a = [] := by
            by_contra hne
            exact hrest (h a t rfl ((openLine_open hopen).mpr hne) ((fits_open hopen).mpr hshort))
          rw [if_neg hlong, if_pos hempty]
          have hnext := @ih [] (by simp) hrest ?_
          · exact hnext
          intro u v htext hstarted hfits
          refine h (a ++ '\n' :: u) v (by rw [htext]; simp) ?_ ?_
          · rw [← List.append_assoc, openLine_newline]
            exact hstarted
          · rw [← List.append_assoc, fits_newline, fits_open hopen]
            exact ⟨hshort, hfits⟩

theorem pushAll_upTo (d : FrameDecoder) (texts : List (List Char)) :
    (d.pushAll maxBytes texts).1 <+: legalLines maxBytes (d.buf ++ texts.flatten) := by
  induction texts generalizing d with
  | nil => exact List.nil_prefix
  | cons text texts ih =>
      obtain ⟨init, last, hlines, -, hmore⟩ := exists_lines (d.buf ++ text)
      obtain ⟨hpush, hthrow⟩ := push_eq maxBytes d text hlines
      unfold FrameDecoder.pushAll
      by_cases hfits : LinesFit maxBytes (d.buf ++ text)
      · rw [hpush hfits, List.flatten_cons, ← List.append_assoc, legal_append hlines hmore hfits]
        exact (List.prefix_append_right_inj _).mpr (ih ⟨last⟩)
      · rw [hthrow hfits]
        exact List.nil_prefix

/-- Nothing throws where every line fits. -/
theorem pushAll_fits (d : FrameDecoder) (hd : '\n' ∉ d.buf) {texts : List (List Char)}
    (h : LinesFit maxBytes (d.buf ++ texts.flatten)) :
    d.pushAll maxBytes texts = (legalLines maxBytes (d.buf ++ texts.flatten), true) := by
  induction texts generalizing d with
  | nil =>
      rw [List.flatten_nil, List.append_nil, legalLines_open hd]
      rfl
  | cons text texts ih =>
      obtain ⟨init, last, hlines, hlast, hmore⟩ := exists_lines (d.buf ++ text)
      rw [List.flatten_cons, ← List.append_assoc] at h ⊢
      have hnow := fits_of_append h
      have hlater : LinesFit maxBytes (last ++ texts.flatten) := by
        intro line hline
        apply h
        rw [hmore]
        exact List.mem_append_right _ hline
      unfold FrameDecoder.pushAll
      rw [(push_eq maxBytes d text hlines).1 hnow, legal_append hlines hmore hnow]
      dsimp only
      rw [ih ⟨last⟩ hlast hlater]

/-- Where a push succeeds, what is asked of the next ones is asked from its last line on. -/
theorem keepsText_cons {texts : List (List Char)} (hlines : textLines (buf ++ text) = init ++ [last])
    (hmore : ∀ more, textLines (buf ++ text ++ more) = init ++ textLines (last ++ more))
    (hfits : LinesFit maxBytes (buf ++ text)) :
    KeepsText maxBytes buf (text :: texts) ↔ KeepsText maxBytes last texts := by
  have hopen : ∀ more, OpenLine (buf ++ (text ++ more)) ↔ OpenLine (last ++ more) := by
    intro more
    unfold OpenLine
    rw [← List.append_assoc, hmore, getLast?_lines (textLines_ne_nil _)]
  have hfit : ∀ more, LinesFit maxBytes (buf ++ (text ++ more)) ↔ LinesFit maxBytes (last ++ more) := by
    intro more
    have hinit : ∀ line ∈ init, byteLength line ≤ maxBytes := by
      intro line hline
      apply hfits
      rw [hlines]
      exact List.mem_append_left _ hline
    unfold LinesFit
    rw [← List.append_assoc, hmore]
    simp only [List.mem_append, or_imp, forall_and]
    exact ⟨fun hboth => hboth.2, fun hlater => ⟨hinit, hlater⟩⟩
  constructor
  · intro h before chunk after u v htexts hchunk hbegun hshort
    have hbefore : (text :: before).flatten ++ u = text ++ (before.flatten ++ u) := by
      rw [List.flatten_cons, List.append_assoc]
    apply h (text :: before) chunk after u v (by rw [htexts]; rfl) hchunk
    · rw [hbefore, hopen]
      exact hbegun
    · rw [hbefore, hfit]
      exact hshort
  · intro h before chunk after u v htexts hchunk hbegun hshort
    cases before with
    | nil =>
        obtain ⟨rfl, -⟩ := List.cons.inj htexts
        rw [hchunk, ← List.append_assoc, fits_newline] at hfits
        exact hfits.2
    | cons first before =>
        obtain ⟨rfl, hrest⟩ := List.cons.inj htexts
        rw [List.flatten_cons, List.append_assoc] at hbegun hshort
        exact h before chunk after u v hrest hchunk ((hopen _).mp hbegun) ((hfit _).mp hshort)

/-- **The legal lines of the text are returned exactly where no push keeps one back.** -/
theorem pushAll_eq_iff (d : FrameDecoder) (hd : '\n' ∉ d.buf) (texts : List (List Char)) :
    (d.pushAll maxBytes texts).1 = legalLines maxBytes (d.buf ++ texts.flatten) ↔
      KeepsText maxBytes d.buf texts := by
  induction texts generalizing d with
  | nil =>
      rw [List.flatten_nil, List.append_nil, legalLines_open hd]
      refine ⟨fun _ before text after u v htexts => ?_, fun _ => rfl⟩
      simp at htexts
  | cons text texts ih =>
      obtain ⟨init, last, hlines, hlast, hmore⟩ := exists_lines (d.buf ++ text)
      obtain ⟨hpush, hthrow⟩ := push_eq maxBytes d text hlines
      unfold FrameDecoder.pushAll
      by_cases hfits : LinesFit maxBytes (d.buf ++ text)
      · rw [hpush hfits, List.flatten_cons, ← List.append_assoc, legal_append hlines hmore hfits,
          keepsText_cons hlines hmore hfits, ← ih ⟨last⟩ hlast]
        exact List.append_right_inj _
      · rw [hthrow hfits, List.flatten_cons]
        show [] = _ ↔ _
        rw [eq_comm, legal_eq_nil_iff hd hfits]
        constructor
        · intro h before chunk after u v htexts hchunk hbegun hshort
          cases before with
          | nil =>
              obtain ⟨rfl, -⟩ := List.cons.inj htexts
              exact h u v hchunk hbegun hshort
          | cons first before =>
              -- the line that is too long has come before
              obtain ⟨rfl, -⟩ := List.cons.inj htexts
              rw [List.flatten_cons, List.append_assoc, ← List.append_assoc] at hshort
              exact absurd (fits_of_append hshort) hfits
        · intro h u v htext hbegun hshort
          exact h [] text texts u v rfl htext hbegun hshort

end Pushes

/-! ### The two texts of a stream -/

def newline : UInt8 := 10

/-- A boundary between chunks that falls inside a character lies in no line that is to be
returned. -/
def KeepsCharacters (maxBytes : Nat) (chunks : List (List UInt8)) : Prop :=
  ∀ before after, chunks = before ++ after → splits before.flatten after.flatten = true →
    ∀ u v, after.flatten = u ++ newline :: v → newline ∉ u →
      ¬LinesFit maxBytes (decode (before.flatten ++ u))

/-- A chunk that ends a line that is to be returned, and not an empty one, holds no line that is
too long behind it. -/
def KeepsLines (maxBytes : Nat) (chunks : List (List UInt8)) : Prop :=
  ∀ before chunk after u v, chunks = before ++ chunk :: after → chunk = u ++ newline :: v →
    OpenLine (decode (before.flatten ++ u)) → LinesFit maxBytes (decode (before.flatten ++ u)) →
    LinesFit maxBytes (decode v)

section Streams

variable {maxBytes : Nat} {a b u v : List UInt8} {chunks xs ys : List (List UInt8)}

theorem decode_newline (a b : List UInt8) :
    decode (a ++ newline :: b) = decode a ++ '\n' :: decode b := decode_ascii (by decide)

theorem not_mem_decode (h : newline ∉ a) : '\n' ∉ decode a := by
  intro hmem
  obtain ⟨byte, hbyte, heq⟩ := mem_read (by decide) (by decide) hmem
  have hten : byte = newline := UInt8.toNat_inj.mp heq
  exact h (hten ▸ hbyte)

theorem not_mem_decodePieces (h : newline ∉ chunks.flatten) : '\n' ∉ decodePieces chunks := by
  intro hmem
  obtain ⟨text, htext, hmem⟩ := List.mem_flatten.mp hmem
  obtain ⟨chunk, hchunk, rfl⟩ := List.mem_map.mp htext
  exact not_mem_decode (fun hc => h (List.mem_flatten.mpr ⟨chunk, hchunk, hc⟩)) hmem

/-- A stream is an unfinished line, or a line and a stream. -/
theorem chunk_induction {P : List (List UInt8) → Prop}
    (hopen : ∀ chunks, newline ∉ chunks.flatten → P chunks)
    (hline : ∀ xs u v ys, newline ∉ xs.flatten ++ u → P (v :: ys) →
      P (xs ++ (u ++ newline :: v) :: ys)) (chunks : List (List UInt8)) : P chunks := by
  suffices h : ∀ (ys xs : List (List UInt8)) (u v : List UInt8), newline ∉ xs.flatten ++ u →
      P (xs ++ (u ++ v) :: ys) by
    cases chunks with
    | nil => exact hopen [] (by simp)
    | cons chunk chunks => exact h chunks [] [] chunk (by simp)
  intro ys
  induction ys with
  | nil =>
      intro xs u v hu
      induction v generalizing xs u with
      | nil => exact hopen _ (by simpa using hu)
      | cons byte v ih =>
          by_cases hbyte : byte = newline
          · rw [hbyte]
            exact hline xs u v [] hu (ih [] [] (by simp))
          · have hnot : newline ∉ xs.flatten ++ (u ++ [byte]) := by
              rw [← List.append_assoc, List.mem_append, not_or, List.mem_singleton]
              exact ⟨hu, fun heq => hbyte heq.symm⟩
            have hstep := ih xs (u ++ [byte]) hnot
            rwa [List.append_assoc] at hstep
  | cons next ys ihys =>
      intro xs u v hu
      induction v generalizing xs u with
      | nil =>
          have hnext := ihys (xs ++ [u]) [] next (by simpa using hu)
          rw [List.append_assoc] at hnext
          rw [List.append_nil]
          exact hnext
      | cons byte v ih =>
          by_cases hbyte : byte = newline
          · rw [hbyte]
            exact hline xs u v (next :: ys) hu (ih [] [] (by simp))
          · have hnot : newline ∉ xs.flatten ++ (u ++ [byte]) := by
              rw [← List.append_assoc, List.mem_append, not_or, List.mem_singleton]
              exact ⟨hu, fun heq => hbyte heq.symm⟩
            have hstep := ih xs (u ++ [byte]) hnot
            rwa [List.append_assoc] at hstep

/-- The first line of a stream, and the rest of it. -/
theorem flatten_line : (xs ++ (u ++ newline :: v) :: ys).flatten
    = (xs ++ [u]).flatten ++ newline :: (v :: ys).flatten := by
  simp

theorem decodePieces_line : decodePieces (xs ++ (u ++ newline :: v) :: ys)
    = decodePieces (xs ++ [u]) ++ '\n' :: decodePieces (v :: ys) := by
  rw [decodePieces_append, decodePieces_append, decodePieces_cons, decodePieces_cons,
    decodePieces_cons, decode_newline]
  simp [decodePieces]

theorem utf8Size_lt (c : Char) : c.utf8Size < 2 * replacement.utf8Size :=
  Nat.lt_of_le_of_lt c.utf8Size_le_four (by decide)

theorem byteLength_pieces (chunks : List (List UInt8)) :
    byteLength (decode chunks.flatten) ≤ byteLength (decodePieces chunks) :=
  (weight_pieces utf8Size_lt chunks).1

/-- A line that was cut in a character is another one. -/
theorem pieces_eq_iff : decodePieces chunks = decode chunks.flatten ↔ ¬Cut chunks := by
  refine ⟨fun heq hcut => ?_, decode_pieces⟩
  have hlt := (weight_pieces utf8Size_lt chunks).2 hcut
  rw [heq] at hlt
  exact Nat.lt_irrefl _ hlt

/-- Line by line, the chunks' text is no shorter, and has the same empty lines. -/
def Longer : List (List Char) → List (List Char) → Prop :=
  List.Forall₂ fun f r => byteLength r ≤ byteLength f ∧ (f = [] ↔ r = [])

theorem pieces_longer (chunks : List (List UInt8)) :
    Longer (textLines (decodePieces chunks)) (textLines (decode chunks.flatten)) := by
  have hpieces : ∀ pieces : List (List UInt8), byteLength (decode pieces.flatten)
      ≤ byteLength (decodePieces pieces) ∧ (decodePieces pieces = [] ↔ decode pieces.flatten = []) :=
    fun pieces => ⟨byteLength_pieces pieces, by rw [decodePieces_eq_nil, decode_eq_nil]⟩
  induction chunks using chunk_induction with
  | hopen chunks h =>
      rw [textLines_open (not_mem_decodePieces h), textLines_open (not_mem_decode h)]
      exact .cons (hpieces chunks) .nil
  | hline xs u v ys h ih =>
      have hfirst : newline ∉ (xs ++ [u]).flatten := by simpa using h
      rw [decodePieces_line, flatten_line, decode_newline,
        textLines_line (not_mem_decodePieces hfirst), textLines_line (not_mem_decode hfirst)]
      exact .cons (hpieces _) ih

theorem legal_length_le {fed whole : List (List Char)} (h : Longer fed whole) :
    (legalOf maxBytes fed).length ≤ (legalOf maxBytes whole).length := by
  induction h with
  | nil => exact Nat.le_refl _
  | @cons f r fs rs hfr hrest ih =>
      cases hrest with
      | nil => exact Nat.zero_le _
      | @cons f' r' fs' rs' hfr' hrest' =>
          rw [legalOf_cons (List.cons_ne_nil _ _), legalOf_cons (List.cons_ne_nil _ _)]
          by_cases hlong : byteLength f > maxBytes
          · rw [if_pos hlong]
            exact Nat.zero_le _
          · have hle := hfr.1
            have hshort : ¬byteLength r > maxBytes := by omega
            rw [if_neg hlong, if_neg hshort]
            by_cases hempty : f = []
            · rw [if_pos hempty, if_pos (hfr.2.mp hempty)]
              exact ih
            · rw [if_neg hempty, if_neg fun hr => hempty (hfr.2.mpr hr)]
              exact Nat.succ_le_succ ih

theorem fits_of_pieces (h : LinesFit maxBytes (decodePieces chunks)) :
    LinesFit maxBytes (decode chunks.flatten) := by
  have hlines := pieces_longer chunks
  unfold LinesFit at h ⊢
  generalize textLines (decodePieces chunks) = fed at h hlines
  generalize textLines (decode chunks.flatten) = whole at hlines ⊢
  induction hlines with
  | nil => exact h
  | cons hfr hrest ih =>
      rw [List.forall_mem_cons] at h ⊢
      exact ⟨Nat.le_trans hfr.1 h.1, ih h.2⟩

theorem openLine_pieces :
    OpenLine (decodePieces chunks) ↔ OpenLine (decode chunks.flatten) := by
  have hlines := pieces_longer chunks
  unfold OpenLine
  generalize textLines (decodePieces chunks) = fed at hlines ⊢
  generalize textLines (decode chunks.flatten) = whole at hlines ⊢
  induction hlines with
  | nil => rfl
  | cons hfr hrest ih =>
      cases hrest with
      | nil => simp [hfr.2]
      | cons hfr' hrest' =>
          rw [List.getLast?_cons_cons, List.getLast?_cons_cons]
          exact ih

theorem first_newline {w z t : List UInt8} (hw : newline ∉ w) (hu : newline ∉ u)
    (h : w ++ newline :: z = u ++ newline :: t) : w = u := by
  have hhead := congrArg (fun l => (l.splitOn newline).head?) h
  rw [List.splitOn_append_cons_self_of_not_mem hw,
    List.splitOn_append_cons_self_of_not_mem hu] at hhead
  exact Option.some.inj hhead

/-- A line that is to be returned is not cut in a character. -/
theorem not_cut_of_keeps (h : KeepsCharacters maxBytes (xs ++ (u ++ newline :: v) :: ys))
    (hfits : LinesFit maxBytes (decode (xs ++ [u]).flatten)) : ¬Cut (xs ++ [u]) := by
  rintro ⟨before, after, hpieces, hsplits⟩
  rcases List.eq_nil_or_concat after with rfl | ⟨rest, last, rfl⟩
  · rw [List.flatten_nil, splits_end] at hsplits
    cases hsplits
  · rw [List.concat_eq_append, ← List.append_assoc] at hpieces
    obtain ⟨rfl, hlast⟩ := List.append_inj' hpieces rfl
    obtain rfl := (List.cons.inj hlast).1
    rw [List.concat_eq_append, List.flatten_append, List.flatten_singleton] at hsplits
    have hflat : (rest ++ (u ++ newline :: v) :: ys).flatten
        = (rest.flatten ++ u) ++ newline :: (v ++ ys.flatten) := by simp
    have hne : rest.flatten ++ u ≠ [] := by
      intro hnil
      rw [hnil, splits_end] at hsplits
      cases hsplits
    have hhere : splits before.flatten (rest ++ (u ++ newline :: v) :: ys).flatten = true := by
      rw [hflat, splits_append hne]
      exact hsplits
    have hwhole : (before ++ rest ++ [u]).flatten = before.flatten ++ (rest.flatten ++ u) := by simp
    rw [hwhole] at hfits
    have happly := h before _ (List.append_assoc _ _ _) hhere
    -- the boundary's line ends here, or at a newline before
    by_cases hmem : newline ∈ rest.flatten ++ u
    · obtain ⟨w, z, hcut, hw⟩ := List.eq_append_cons_of_mem hmem
      rw [hcut, ← List.append_assoc, decode_newline, fits_newline] at hfits
      exact happly w (z ++ newline :: (v ++ ys.flatten)) (by rw [hflat, hcut]; simp) hw hfits.1
    · exact happly _ _ hflat hmem hfits

/-- A boundary in the first line of a stream, and one after it. -/
theorem keepsCharacters_line (h : newline ∉ xs.flatten ++ u) :
    KeepsCharacters maxBytes (xs ++ (u ++ newline :: v) :: ys) ↔
      (byteLength (decode (xs ++ [u]).flatten) ≤ maxBytes →
        ¬Cut (xs ++ [u]) ∧ KeepsCharacters maxBytes (v :: ys)) := by
  have hfirst : newline ∉ (xs ++ [u]).flatten := by simpa using h
  have hfits : ∀ w, LinesFit maxBytes (decode ((xs ++ [u]).flatten ++ newline :: w)) ↔
      byteLength (decode (xs ++ [u]).flatten) ≤ maxBytes ∧ LinesFit maxBytes (decode w) := by
    intro w
    rw [decode_newline, fits_newline, fits_open (not_mem_decode hfirst)]
  constructor
  · intro hkeeps hshort
    refine ⟨not_cut_of_keeps hkeeps ((fits_open (not_mem_decode hfirst)).mpr hshort), ?_⟩
    intro before after hrest hsplits w z hafter hw hfit
    cases before with
    | nil => cases hsplits
    | cons piece before =>
        obtain ⟨rfl, hys⟩ := List.cons.inj hrest
        have hys : ys = before ++ after := hys
        have hflat : (xs ++ (u ++ newline :: v) :: before).flatten
            = (xs ++ [u]).flatten ++ newline :: (v :: before).flatten := flatten_line
        refine hkeeps (xs ++ (u ++ newline :: v) :: before) after (by rw [hys]; simp) ?_ w z
          hafter hw ?_
        · rw [hflat, splits_after_ascii (by decide)]
          exact hsplits
        · rw [hflat, List.append_assoc, List.cons_append, hfits]
          exact ⟨hshort, hfit⟩
  · intro hkeeps before after hchunks hsplits w z hafter hw hfit
    have inside : ∀ bs, xs = before ++ bs → after = bs ++ (u ++ newline :: v) :: ys → False := by
      rintro bs rfl rfl
      have hflat : (bs ++ (u ++ newline :: v) :: ys).flatten
          = (bs.flatten ++ u) ++ newline :: (v ++ ys.flatten) := by simp
      rw [List.flatten_append, List.append_assoc, List.mem_append, not_or] at h
      obtain rfl := first_newline hw h.2 (hafter.symm.trans hflat)
      have hwhole : before.flatten ++ (bs.flatten ++ u) = (before ++ bs ++ [u]).flatten := by simp
      rw [hwhole, fits_open (not_mem_decode hfirst)] at hfit
      apply (hkeeps hfit).1
      refine ⟨before, bs ++ [u], List.append_assoc _ _ _, ?_⟩
      rw [List.flatten_append, List.flatten_singleton]
      by_cases hnil : bs.flatten ++ u = []
      · rw [hflat, hnil, List.nil_append, splits_ascii (by decide)] at hsplits
        cases hsplits
      · rwa [hflat, splits_append hnil] at hsplits
    rcases List.append_eq_append_iff.mp hchunks with ⟨as, hbefore, has⟩ | ⟨bs, hxs, hbs⟩
    · cases as with
      | nil => exact inside [] (by simpa using hbefore.symm) (by simpa using has.symm)
      | cons piece as =>
          obtain ⟨hpiece, hys⟩ := List.cons.inj has
          have hflat : before.flatten
              = (xs ++ [u]).flatten ++ newline :: (v :: as).flatten := by
            rw [hbefore, ← hpiece, flatten_line]
          rw [hflat, List.append_assoc, List.cons_append, hfits] at hfit
          rw [hflat, splits_after_ascii (by decide)] at hsplits
          exact (hkeeps hfit.1).2 (v :: as) after (by rw [hys]; rfl) hsplits w z hafter hw hfit.2
    · exact inside bs hxs hbs

/-- **The two texts have the same legal lines exactly where none of them is cut in a character.** -/
theorem legal_pieces_iff (chunks : List (List UInt8)) :
    legalLines maxBytes (decodePieces chunks) = legalLines maxBytes (decode chunks.flatten) ↔
      KeepsCharacters maxBytes chunks := by
  induction chunks using chunk_induction with
  | hopen chunks h =>
      rw [legalLines_open (not_mem_decodePieces h), legalLines_open (not_mem_decode h)]
      refine ⟨fun _ before after hchunks _ u v hafter _ => ?_, fun _ => rfl⟩
      rw [hchunks, List.flatten_append, hafter] at h
      simp at h
  | hline xs u v ys h ih =>
      have hfirst : newline ∉ (xs ++ [u]).flatten := by simpa using h
      rw [keepsCharacters_line h, ← ih, ← pieces_eq_iff, decodePieces_line, flatten_line,
        decode_newline, legalLines_line (not_mem_decodePieces hfirst),
        legalLines_line (not_mem_decode hfirst)]
      have hle := byteLength_pieces (xs ++ [u])
      have hnil : decodePieces (xs ++ [u]) = [] ↔ decode (xs ++ [u]).flatten = [] := by
        rw [decodePieces_eq_nil, decode_eq_nil]
      generalize decodePieces (xs ++ [u]) = f at hle hnil ⊢
      generalize decode (xs ++ [u]).flatten = r at hle hnil ⊢
      by_cases hlong : byteLength r > maxBytes
      · have hlong' : byteLength f > maxBytes := by omega
        rw [if_pos hlong, if_pos hlong']
        exact ⟨fun _ hshort => absurd hlong (Nat.not_lt.mpr hshort), fun _ => rfl⟩
      · rw [if_neg hlong]
        have hshort : byteLength r ≤ maxBytes := Nat.not_lt.mp hlong
        by_cases heq : f = r
        · rw [heq, if_neg hlong]
          by_cases hempty : r = []
          · rw [if_pos hempty, if_pos hempty]
            exact ⟨fun hsame _ => ⟨rfl, hsame⟩, fun hboth => (hboth hshort).2⟩
          · rw [if_neg hempty, if_neg hempty, List.cons_inj_right]
            exact ⟨fun hsame _ => ⟨rfl, hsame⟩, fun hboth => (hboth hshort).2⟩
        · have hempty : r ≠ [] := fun hr => heq ((hnil.mpr hr).trans hr.symm)
          have hempty' : f ≠ [] := fun hf => hempty (hnil.mp hf)
          rw [if_neg hempty, if_neg hempty']
          refine ⟨fun hsame => ?_, fun hboth => absurd (hboth hshort).1 heq⟩
          by_cases hlong' : byteLength f > maxBytes
          · rw [if_pos hlong'] at hsame
            cases hsame
          · rw [if_neg hlong'] at hsame
            exact absurd (List.cons.inj hsame).1 heq

/-- A newline of the text comes from one of the bytes. -/
theorem decode_eq_newline {bytes : List UInt8} {s t : List Char} (h : decode bytes = s ++ '\n' :: t) :
    ∃ u v, bytes = u ++ newline :: v ∧ decode u = s ∧ decode v = t := by
  have hmem : newline ∈ bytes := by
    by_contra hnot
    apply not_mem_decode hnot
    rw [h]
    simp
  obtain ⟨u, v, ha, hu⟩ := List.eq_append_cons_of_mem hmem
  rw [ha, decode_newline] at h
  rcases List.append_eq_append_iff.mp h with ⟨as, hs, hrest⟩ | ⟨bs, hdecode, hrest⟩
  · cases as with
    | nil =>
        rw [List.append_nil] at hs
        rw [List.nil_append] at hrest
        exact ⟨u, v, ha, hs.symm, (List.cons.inj hrest).2⟩
    | cons c as =>
        obtain ⟨rfl, hv⟩ := List.cons.inj hrest
        have hv : decode v = as ++ '\n' :: t := hv
        have hlen : v.length < bytes.length := by
          rw [ha, List.length_append, List.length_cons]
          omega
        obtain ⟨w, z, hcut, hw, hz⟩ := decode_eq_newline hv
        refine ⟨u ++ newline :: w, z, by rw [ha, hcut]; simp, ?_, hz⟩
        rw [decode_newline, hw, hs]
  · cases bs with
    | nil =>
        rw [List.append_nil] at hdecode
        rw [List.nil_append] at hrest
        exact ⟨u, v, ha, hdecode, (List.cons.inj hrest).2.symm⟩
    | cons c bs =>
        obtain ⟨rfl, -⟩ := List.cons.inj hrest
        refine absurd ?_ (not_mem_decode hu)
        rw [hdecode]
        simp
termination_by bytes.length

theorem keepsText_iff (h : KeepsCharacters maxBytes chunks) :
    KeepsText maxBytes [] (chunks.map decode) ↔ KeepsLines maxBytes chunks := by
  have hwritten : ∀ (before : List (List UInt8)) (u : List UInt8),
      [] ++ ((before.map decode).flatten ++ decode u) = decodePieces (before ++ [u]) := by
    intro before u
    rw [decodePieces_append, List.nil_append]
    exact congrArg _ (List.append_nil _).symm
  have hwhole : ∀ (before : List (List UInt8)) (u : List UInt8),
      before.flatten ++ u = (before ++ [u]).flatten := by
    intro before u
    rw [List.flatten_append, List.flatten_singleton]
  constructor
  · intro hkeeps before chunk after u v hchunks hchunk hopen hfits
    subst hchunk
    rw [hchunks] at h
    rw [hwhole] at hopen hfits
    have hsame := decode_pieces (not_cut_of_keeps h hfits)
    refine hkeeps (before.map decode) (decode (u ++ newline :: v)) (after.map decode) (decode u)
      (decode v) (by rw [hchunks]; simp) (decode_newline u v) ?_ ?_
    · rw [hwritten, hsame]
      exact hopen
    · rw [hwritten, hsame]
      exact hfits
  · intro hkeeps before text after s t htexts htext hopen hfits
    obtain ⟨xs, rest, rfl, rfl, hrest⟩ := List.map_eq_append_iff.mp htexts
    obtain ⟨chunk, ys, rfl, hdecode, rfl⟩ := List.map_eq_cons_iff.mp hrest
    obtain ⟨u, v, hchunk, rfl, rfl⟩ := decode_eq_newline (hdecode.trans htext)
    rw [hwritten] at hopen hfits
    refine hkeeps xs chunk ys u v rfl hchunk ?_ ?_
    · rw [hwhole, ← openLine_pieces]
      exact hopen
    · rw [hwhole]
      exact fits_of_pieces hfits

/-- **The legal lines of a stream are returned exactly where no boundary cuts a character of one,
and no chunk holds a too long line behind one.** -/
theorem pushBuffers_eq_iff (chunks : List (List UInt8)) :
    (FrameDecoder.pushBuffers maxBytes chunks).1 = legalLines maxBytes (decode chunks.flatten) ↔
      KeepsCharacters maxBytes chunks ∧ KeepsLines maxBytes chunks := by
  have hpushed := @pushAll_eq_iff maxBytes {} (List.not_mem_nil) (chunks.map decode)
  have htext : ([] : List Char) ++ (chunks.map decode).flatten = decodePieces chunks := rfl
  constructor
  · intro h
    have hupTo := @pushAll_upTo maxBytes {} (chunks.map decode)
    have hlen := @legal_length_le maxBytes _ _ (pieces_longer chunks)
    have hfed : (FrameDecoder.pushBuffers maxBytes chunks).1
        = legalLines maxBytes (decodePieces chunks) := by
      refine hupTo.eq_of_length (Nat.le_antisymm hupTo.length_le ?_)
      have hall : (FrameDecoder.pushAll {} maxBytes (chunks.map decode)).1
          = legalLines maxBytes (decode chunks.flatten) := h
      rw [hall]
      exact hlen
    have hkeeps := (legal_pieces_iff chunks).mp (hfed.symm.trans h)
    exact ⟨hkeeps, (keepsText_iff hkeeps).mp (hpushed.mp hfed)⟩
  · rintro ⟨hkeeps, hlines⟩
    rw [← (legal_pieces_iff chunks).mpr hkeeps]
    exact hpushed.mpr ((keepsText_iff hkeeps).mpr hlines)

end Streams

/-! ### Frames -/

section Frames

variable {ν : Type} [Number ν]

theorem newline_ne_hexDigit : ∀ n, n < 16 → '\n' ≠ Json.hexDigit n := by decide

theorem newline_not_mem_escapeChar (c : Char) : '\n' ∉ Json.escapeChar c := by
  unfold Json.escapeChar
  by_cases h₁ : c = '"'
  · rw [if_pos h₁]
    decide
  by_cases h₂ : c = '\\'
  · rw [if_neg h₁, if_pos h₂]
    decide
  by_cases h₃ : c.toNat = 8
  · rw [if_neg h₁, if_neg h₂, if_pos h₃]
    decide
  by_cases h₄ : c.toNat = 12
  · rw [if_neg h₁, if_neg h₂, if_neg h₃, if_pos h₄]
    decide
  rw [if_neg h₁, if_neg h₂, if_neg h₃, if_neg h₄]
  by_cases h₅ : c.toNat = 10
  · rw [if_pos h₅]
    decide
  by_cases h₆ : c.toNat = 13
  · rw [if_neg h₅, if_pos h₆]
    decide
  by_cases h₇ : c.toNat = 9
  · rw [if_neg h₅, if_neg h₆, if_pos h₇]
    decide
  rw [if_neg h₅, if_neg h₆, if_neg h₇]
  by_cases h₈ : c.toNat < 32
  · have hhigh := newline_ne_hexDigit (c.toNat / 16) (by omega)
    have hlow := newline_ne_hexDigit (c.toNat % 16) (by omega)
    rw [if_pos h₈]
    simp [hhigh, hlow]
  · rw [if_neg h₈, List.mem_singleton]
    rintro rfl
    exact h₅ rfl

theorem newline_not_mem_quote (s : List Char) : '\n' ∉ Json.quote s := by
  have hbody : '\n' ∉ s.flatMap Json.escapeChar := by
    intro hmem
    obtain ⟨c, -, hc⟩ := List.mem_flatMap.mp hmem
    exact newline_not_mem_escapeChar c hc
  unfold Json.quote
  simp [hbody]

theorem newline_not_mem_items {vs : List (Json ν)} (h : ∀ v ∈ vs, '\n' ∉ Json.stringify v) :
    '\n' ∉ Json.stringifyItems vs := by
  induction vs with
  | nil => simp [Json.stringifyItems]
  | cons v vs ih =>
      have hv := h v List.mem_cons_self
      have hvs := ih fun w hw => h w (List.mem_cons_of_mem _ hw)
      simp [Json.stringifyItems, hv, hvs]

theorem newline_not_mem_members {ms : List (String × Json ν)}
    (h : ∀ m ∈ ms, '\n' ∉ Json.stringify m.2) : '\n' ∉ Json.stringifyMembers ms := by
  induction ms with
  | nil => simp [Json.stringifyMembers]
  | cons m ms ih =>
      have hm := h m List.mem_cons_self
      have hms := ih fun n hn => h n (List.mem_cons_of_mem _ hn)
      simp [Json.stringifyMembers, newline_not_mem_quote, hm, hms]

/-- A JSON text is one line. -/
theorem newline_not_mem_stringify (v : Json ν) : '\n' ∉ Json.stringify v := by
  induction v using Json.induct with
  | null => simp [Json.stringify]
  | bool b => cases b <;> simp [Json.stringify]
  | num x =>
      unfold Json.stringify
      by_cases hx : Number.isFinite x = true
      · rw [if_pos hx]
        intro hmem
        have hliteral := Number.toText_literal x hx
        unfold isNumberLiteral at hliteral
        have hchar := List.all_eq_true.mp (Bool.and_eq_true_iff.mp hliteral).1 _ hmem
        exact absurd hchar (by decide)
      · rw [if_neg hx]
        simp
  | str s =>
      unfold Json.stringify
      exact newline_not_mem_quote _
  | arr items h =>
      cases items with
      | nil => simp [Json.stringify]
      | cons v vs =>
          have hv := h v List.mem_cons_self
          have hvs := newline_not_mem_items fun w hw => h w (List.mem_cons_of_mem _ hw)
          simp [Json.stringify, hv, hvs]
  | obj members h =>
      cases members with
      | nil => simp [Json.stringify]
      | cons m ms =>
          have hm := h m List.mem_cons_self
          have hms := newline_not_mem_members fun n hn => h n (List.mem_cons_of_mem _ hn)
          simp [Json.stringify, newline_not_mem_quote, hm, hms]

/-- The text of the frames is legal through and through. -/
theorem lines_of_frames {maxBytes : Nat} {frames : List (Members ν)}
    (h : ∀ ms ∈ frames, encodeFrame ms maxBytes = some (encodeLine ms)) :
    LinesFit maxBytes (frames.map encodeLine).flatten ∧
      legalLines maxBytes (frames.map encodeLine).flatten
        = frames.map fun ms => Json.stringify (.obj ms) := by
  induction frames with
  | nil => exact ⟨by simp [LinesFit, textLines, byteLength], rfl⟩
  | cons ms frames ih =>
      obtain ⟨hfits, hlegal⟩ := ih fun f hf => h f (List.mem_cons_of_mem _ hf)
      have hline : '\n' ∉ Json.stringify (.obj ms) := newline_not_mem_stringify _
      have hcut : ((ms :: frames).map encodeLine).flatten
          = Json.stringify (.obj ms) ++ '\n' :: (frames.map encodeLine).flatten := by
        rw [List.map_cons, List.flatten_cons, encodeLine, List.append_assoc]
        rfl
      have hshort : byteLength (Json.stringify (.obj ms)) ≤ maxBytes := by
        have hframe := h ms List.mem_cons_self
        unfold encodeFrame at hframe
        split_ifs at hframe with hdeep hlong
        exact Nat.le_trans (byteLength_append_le _ _) (Nat.not_lt.mp hlong)
      have hne : Json.stringify (.obj ms) ≠ [] := by
        obtain ⟨c, r, htext, -⟩ := Json.stringify_head (.obj ms)
        rw [htext]
        exact List.cons_ne_nil _ _
      rw [hcut, fits_newline, fits_open hline, legalLines_line hline,
        if_neg (Nat.not_lt.mpr hshort), if_neg hne, hlegal]
      exact ⟨⟨hshort, hfits⟩, rfl⟩

variable {maxBytes : Nat} {frames : List (Members ν)} {chunks : List (List UInt8)}

/-- A stream of frames is read where no chunk begins inside a character. -/
theorem frames_read (h : ∀ ms ∈ frames, encodeFrame ms maxBytes = some (encodeLine ms))
    (hchunks : chunks.flatten = encode (frames.map encodeLine).flatten)
    (hwhole : ∀ chunk ∈ chunks, chunk.head?.any isContinuation = false) :
    FrameDecoder.pushBuffers maxBytes chunks
      = (frames.map fun ms => Json.stringify (.obj ms), true) := by
  obtain ⟨hfits, hlegal⟩ := lines_of_frames h
  have hnot : ¬Cut chunks := by
    rintro ⟨before, after, rfl, hsplits⟩
    rw [List.flatten_append] at hchunks
    rw [splits_encode hchunks] at hsplits
    obtain ⟨byte, hbyte, hcont⟩ := (Option.any_eq_true _ _).mp hsplits
    rw [List.head?_flatten] at hbyte
    obtain ⟨chunk, hchunk, hhead⟩ := List.exists_of_findSome?_eq_some hbyte
    have hfalse := hwhole chunk (List.mem_append_right _ hchunk)
    rw [hhead, Option.any_some, hcont] at hfalse
    cases hfalse
  have htext : ({} : FrameDecoder).buf ++ (chunks.map decode).flatten
      = (frames.map encodeLine).flatten := by
    show decodePieces chunks = _
    rw [decode_pieces hnot, hchunks, decode_encode]
  unfold FrameDecoder.pushBuffers
  rw [pushAll_fits {} List.not_mem_nil (by rw [htext]; exact hfits), htext, hlegal]

/-- A stream of frames ends with a newline. -/
theorem newline_mem_suffix {a b : List UInt8} (hb : b ≠ [])
    (h : a ++ b = encode (frames.map encodeLine).flatten) : newline ∈ b := by
  rcases List.eq_nil_or_concat frames with rfl | ⟨init, last, rfl⟩
  · exact absurd (List.append_eq_nil_iff.mp h).2 hb
  · have hlast : encode ((init.concat last).map encodeLine).flatten
        = encode ((init.map encodeLine).flatten ++ Json.stringify (.obj last)) ++ [newline] := by
      have htext : ((init.concat last).map encodeLine).flatten
          = ((init.map encodeLine).flatten ++ Json.stringify (.obj last)) ++ ['\n'] := by
        simp [encodeLine]
      rw [htext]
      exact List.flatMap_append
    rcases List.eq_nil_or_concat b with rfl | ⟨bytes, byte, rfl⟩
    · exact absurd rfl hb
    · rw [hlast, List.concat_eq_append, ← List.append_assoc] at h
      obtain ⟨-, hbyte⟩ := List.append_inj' h rfl
      rw [(List.cons.inj hbyte).1, List.concat_eq_append]
      exact List.mem_append_right _ (List.mem_singleton_self _)

/-- And nowhere else. -/
theorem whole_of_keeps (h : ∀ ms ∈ frames, encodeFrame ms maxBytes = some (encodeLine ms))
    (hchunks : chunks.flatten = encode (frames.map encodeLine).flatten)
    (hkeeps : KeepsCharacters maxBytes chunks) :
    ∀ chunk ∈ chunks, chunk.head?.any isContinuation = false := by
  intro chunk hchunk
  by_contra hcont
  have hcont : chunk.head?.any isContinuation = true := by simpa using hcont
  obtain ⟨before, after, rfl⟩ := List.append_of_mem hchunk
  have hne : chunk ≠ [] := by
    rintro rfl
    cases hcont
  have hhead : (chunk :: after).flatten.head? = chunk.head? := by
    rw [List.flatten_cons, List.head?_append_of_ne_nil _ hne]
  rw [List.flatten_append] at hchunks
  have hsplits : splits before.flatten (chunk :: after).flatten = true := by
    rw [splits_encode hchunks, hhead]
    exact hcont
  have hmem : newline ∈ (chunk :: after).flatten :=
    newline_mem_suffix (by simp [hne]) hchunks
  obtain ⟨u, v, hafter, hu⟩ := List.eq_append_cons_of_mem hmem
  refine hkeeps before (chunk :: after) rfl hsplits u v hafter hu ?_
  have hfits := (lines_of_frames h).1
  rw [← decode_encode (frames.map encodeLine).flatten, ← hchunks, hafter, ← List.append_assoc,
    decode_newline, fits_newline] at hfits
  exact hfits.1

end Frames

/-- The frames of a stream are read exactly where no chunk begins inside a character; and of any
stream the legal lines are returned exactly where no boundary cuts a character of one and no chunk
holds a too long line behind one. -/
theorem decoding_chunked (ν : Type) [Number ν] (maxBytes : Nat) :
    (∀ (frames : List (Members ν)) (chunks : List (List UInt8)),
      (∀ ms ∈ frames, encodeFrame ms maxBytes = some (encodeLine ms)) →
      chunks.flatten = encode (frames.map encodeLine).flatten →
      (FrameDecoder.pushBuffers maxBytes chunks
          = (frames.map fun ms => Json.stringify (.obj ms), true) ↔
        ∀ chunk ∈ chunks, chunk.head?.any isContinuation = false)) ∧
    ∀ chunks : List (List UInt8),
      (FrameDecoder.pushBuffers maxBytes chunks).1 = legalLines maxBytes (decode chunks.flatten) ↔
        KeepsCharacters maxBytes chunks ∧ KeepsLines maxBytes chunks := by
  refine ⟨fun frames chunks h hchunks => ?_, pushBuffers_eq_iff⟩
  refine ⟨fun hread => ?_, frames_read h hchunks⟩
  have hlegal := (lines_of_frames h).2
  rw [← decode_encode (frames.map encodeLine).flatten, ← hchunks] at hlegal
  have hall : (FrameDecoder.pushBuffers maxBytes chunks).1
      = legalLines maxBytes (decode chunks.flatten) := by
    rw [hread, hlegal]
  exact whole_of_keeps h hchunks ((pushBuffers_eq_iff chunks).mp hall).1

/-- A frame whose body is one letter of two bytes. -/
def accented : Members Int := [("body", .str "é")]

/-- Its line in two chunks, the first of so many bytes. -/
def accentedCut (n : Nat) : List (List UInt8) :=
  [(encode (encodeLine accented)).take n, (encode (encodeLine accented)).drop n]

theorem decoding_chunked_whole :
    FrameDecoder.pushBuffers 64 (accentedCut 9) = ([Json.stringify (.obj accented)], true) := by
  refine ((decoding_chunked Int 64).1 [accented] (accentedCut 9) ?_ ?_).mpr ?_
  · intro ms hms
    rw [List.mem_singleton.mp hms]
    decide +kernel
  · show (encode _).take 9 ++ ((encode _).drop 9 ++ []) = encode (encodeLine accented ++ [])
    rw [List.append_nil, List.append_nil, List.take_append_drop]
  · decide +kernel

/-- The letter is cut, and two replacements are read; a line is lost to the too long one behind
it. -/
theorem chunks_change_lines :
    (encodeFrame accented 64 = some (encodeLine accented) ∧
      (accentedCut 10).flatten = encode ([accented].map encodeLine).flatten ∧
      FrameDecoder.pushBuffers 64 (accentedCut 10) ≠ ([Json.stringify (.obj accented)], true)) ∧
    (FrameDecoder.pushBuffers 2 [encode "a\nlong".toList]).1
      ≠ legalLines 2 (decode [encode "a\nlong".toList].flatten) := by
  decide +kernel

end PiMesh
