/-
History in order.

A rotated file is named by a date and by a number that begins again every day, and the reader puts
the number first: the second file of one day stands behind the first one of the next.  So the
order of the names is the order of the rotations as long as no day but the last has a second file.
The invariant carries the rotations in the order they happened, each with the lines it moved away.
-/
import PiMesh.Cli.Ledger
import PiMesh.Proofs.HashOnly
import PiMesh.Js.Search
import PiMesh.Lib.Transition

namespace PiMesh

open Js Files Transition MeshLedger LedgerCli

variable {ν : Type} [Number ν]

/-! ### What the result speaks of -/

/-- The files of one process, the last time it read and the records it has appended. -/
structure LedgerHistory (ν : Type) where
  dir : Dir (List Char)
  clock : Int
  appended : List (List (String × Value ν)) := []

/-- A call of `append`, with the times its record and its rotation read. -/
structure AppendCall (ν : Type) where
  input : LedgerInput ν
  stamped : Int
  rotated : Int

namespace LedgerHistory

def after (maxBytes : Nat) (st : LedgerHistory ν) (c : AppendCall ν) : LedgerHistory ν :=
  let r := append maxBytes st.dir (isoDate c.rotated) (toISOString c.stamped) c.input
  { dir := r.2, clock := c.rotated, appended := st.appended ++ r.1.toOption.toList }

end LedgerHistory

/-- A call, at a time the clock has reached. -/
def AppendStep (maxBytes : Nat) (st : LedgerHistory ν) (c : AppendCall ν) (st' : LedgerHistory ν) :
    Prop := st.clock ≤ c.stamped ∧ c.stamped ≤ c.rotated ∧ st' = st.after maxBytes c

/-- No file of a ledger is there. -/
structure NoLedger (dir : Dir (List Char)) : Prop where
  current : dir.has ledgerFileName = false
  rotated : ∀ name, isRotated name = true → dir.has name = false

/-- The date in the name of a rotated file. -/
def dateOfName (name : String) : String := String.ofList ((name.toList.drop 7).take 10)

/-- The call moves the current file away. -/
def rotates (maxBytes : Nat) (st : LedgerHistory ν) (c : AppendCall ν) : Bool :=
  MeshLedger.scans (.obj (record c.input.members (toISOString c.stamped))) &&
    (st.dir.get? ledgerFileName).any fun lines => maxBytes < fileSize lines

/-- A rotation happens in a year of four digits, and no other day has a second file. -/
def RotatesLast (maxBytes : Nat) (st : LedgerHistory ν) (c : AppendCall ν) : Prop :=
  rotates maxBytes st c = true → FourDigitYear c.rotated ∧
    ∀ name ∈ st.dir.keys, isRotated name = true → 2 ≤ trailingNumber name →
      dateOfName name = isoDate c.rotated

/-- What JSON keeps of a record. -/
def asRead (record : List (String × Value ν)) : Json ν :=
  Json.wire (.obj (Value.toMembers record))

/-- The record passes a filter. -/
def Matching (f : LedgerFilters) (l : Json ν) : Bool := (matchesFilters l f).getD false

/-- What the commands read is what was appended, in that order. -/
structure ReadsInOrder (st : LedgerHistory ν) : Prop where
  records : ∀ listing, listing.Perm st.dir.keys →
    readLines st.dir (ledgerFiles listing st.dir) = st.appended.map asRead
  /-- `mesh tail` shows the last ones. -/
  tail : ∀ listing, listing.Perm st.dir.keys → ∀ limitRaw n, tailLimit cliLedgerMaxLimit limitRaw = .ok n →
    cmdTail ν listing st.dir limitRaw =
      { out := if st.appended = [] then ["(no ledger)"]
          else (newest n (st.appended.map asRead)).map shown
        code := exitOk }
  /-- `mesh ledger` shows the last ones that match. -/
  ledger : ∀ listing, listing.Perm st.dir.keys → ∀ filters : LedgerFilters, ∀ asJson,
    1 ≤ filters.limit → filters.limit ≤ cliLedgerMaxLimit →
      cmdLedger ν listing st.dir filters asJson =
        some { out := if (st.appended.map asRead).filter (Matching filters) = [] then
              (if asJson then [] else ["(no matching ledger records)"])
            else (newest filters.limit.toNat
              ((st.appended.map asRead).filter (Matching filters))).map shown
               code := exitOk }

/-! ### Names -/

section Names

variable {t t' : Int} {n : Nat}

theorem length_namePart : namePart.length = 7 := by decide
theorem length_kindPart : kindPart.length = 6 := by decide

theorem toList_rotatedName (date : String) (n : Nat) :
    (rotatedName date n).toList =
      namePart ++ (date.toList ++ (kindPart ++ '.' :: Nat.toDigits 10 n)) := by
  have hnumber : (toString n).toList = Nat.toDigits 10 n := by
    rw [Nat.toString_eq_repr, Nat.toList_repr]
  have htext : ∀ s : String, toString s = s := fun s => rfl
  unfold rotatedName namePart kindPart
  rw [htext, htext, htext, String.toList_append, String.toList_append, String.toList_append,
    hnumber]
  simp

theorem isDatePart_dateText (ht : FourDigitYear t) : isDatePart (dateText t) = true := by
  have hdigits := isDigit_lastDigits
  unfold FourDigitYear at ht
  unfold dateText yearText
  rw [if_pos ht]
  simp only [lastDigits, List.nil_append, List.cons_append, isDatePart, List.all_cons,
    List.all_nil, Bool.and_true, Bool.and_eq_true]
  have hdigit : ∀ i, (Nat.digitChar (i % 10)).isDigit = true := by
    intro i
    exact hdigits 1 i _ (by simp [lastDigits])
  simp [hdigit]

theorem isRotated_rotatedName (ht : FourDigitYear t) (n : Nat) :
    isRotated (rotatedName (isoDate t) n) = true := by
  have hdate := isDatePart_dateText ht
  have hlength := length_dateText ht
  unfold isRotated
  rw [toList_rotatedName, toList_isoDate ht]
  have hnumber : isNumberPart ('.' :: Nat.toDigits 10 n) = true := by
    have hall : (Nat.toDigits 10 n).all Char.isDigit = true :=
      List.all_eq_true.mpr fun c hc => toDigits_isDigit c hc
    simp [isNumberPart, hall]
  have hsplit : ∀ l : List Char, l.drop 17 = (l.drop 7).drop 10 ∧
      l.drop 23 = ((l.drop 7).drop 10).drop 6 := by
    intro l
    rw [List.drop_drop, List.drop_drop]
    exact ⟨rfl, rfl⟩
  dsimp only
  rw [(hsplit _).1, (hsplit _).2, List.take_left' length_namePart, List.drop_left' length_namePart,
    List.take_left' hlength, List.drop_left' hlength, List.take_left' length_kindPart,
    List.drop_left' length_kindPart, hdate, hnumber]
  simp

theorem dateOfName_rotatedName (ht : FourDigitYear t) (n : Nat) :
    dateOfName (rotatedName (isoDate t) n) = isoDate t := by
  unfold dateOfName
  rw [toList_rotatedName, List.drop_left' length_namePart, toList_isoDate ht,
    List.take_left' (length_dateText ht), ← toList_isoDate ht, String.ofList_toList]

theorem trailingNumber_rotatedName (date : String) (n : Nat) :
    trailingNumber (rotatedName date n) = n := by
  have hall : ∀ c ∈ (Nat.toDigits 10 n).reverse, c.isDigit = true := by
    intro c hc
    exact toDigits_isDigit c (List.mem_reverse.mp hc)
  have hback : (rotatedName date n).toList.reverse =
      (Nat.toDigits 10 n).reverse ++ '.' :: (namePart ++ (date.toList ++ kindPart)).reverse := by
    rw [toList_rotatedName]
    simp
  have htake : (rotatedName date n).toList.reverse.takeWhile Char.isDigit =
      (Nat.toDigits 10 n).reverse := by
    rw [hback, List.takeWhile_append_of_pos hall, List.takeWhile_cons_of_neg (by decide),
      List.append_nil]
  have hdrop : (rotatedName date n).toList.reverse.dropWhile Char.isDigit =
      '.' :: (namePart ++ (date.toList ++ kindPart)).reverse := by
    rw [hback, List.dropWhile_append_of_pos hall, List.dropWhile_cons_of_neg (by decide)]
  have hread : Nat.ofDigitChars 10 (Nat.toDigits 10 n) 0 = n := by simp
  unfold trailingNumber
  dsimp only
  rw [htake, hdrop]
  cases hdigits : (Nat.toDigits 10 n).reverse with
  | nil => simp at hdigits
  | cons c rest =>
      have hread' : Nat.ofDigitChars 10 (c :: rest).reverse 0 = n := by
        rw [← hdigits, List.reverse_reverse, hread]
      exact congrArg Int.ofNat hread'

theorem isRotated_ledgerFileName : isRotated ledgerFileName = false := by decide

/-- One name comes before another one in reading order. -/
def Ahead (a b : String) : Prop :=
  trailingNumber a < trailingNumber b ∨ trailingNumber a = trailingNumber b ∧ a < b

theorem rotatedName_lt (n : Nat) (h : dateText t < dateText t') (ht : FourDigitYear t)
    (ht' : FourDigitYear t') : rotatedName (isoDate t) n < rotatedName (isoDate t') n := by
  have hlengths : (dateText t).length = (dateText t').length := by
    rw [length_dateText ht, length_dateText ht']
  rw [String.lt_iff_toList_lt, toList_rotatedName, toList_rotatedName, toList_isoDate ht,
    toList_isoDate ht']
  exact append_lt_append_left _ (append_lt_append hlengths h _ _)

end Names

/-! ### Rotations -/

/-- A file moved away: when, its number that day, and its lines. -/
structure Rotation where
  time : Int
  n : Nat
  lines : List (List Char)

def Rotation.name (r : Rotation) : String := rotatedName (isoDate r.time) r.n

/-- The line of a record. -/
def lineOf (record : List (String × Value ν)) : List Char := ledgerLine (Value.toMembers record)

/-- The rotated files are there, and they are in order. -/
structure Shelved (dir : Dir (List Char)) (clock : Int) (rots : List Rotation) : Prop where
  past : ∀ r ∈ rots, FourDigitYear r.time ∧ r.time ≤ clock
  found : ∀ r ∈ rots, dir.get? r.name = some r.lines
  complete : ∀ name, isRotated name = true → dir.has name = true → ∃ r ∈ rots, r.name = name
  ordered : rots.Pairwise fun a b => Ahead a.name b.name
  /-- The numbers of a day have no gap. -/
  filled : ∀ r ∈ rots, ∀ m, 1 ≤ m → m ≤ r.n → dir.has (rotatedName (isoDate r.time) m) = true

/-- Nothing is lost: what was appended is in the rotated files and the current one. -/
structure OnRecord (st : LedgerHistory ν) (rots : List Rotation) : Prop where
  shelved : Shelved st.dir st.clock rots
  text : rots.flatMap Rotation.lines ++ (st.dir.get? ledgerFileName).getD [] =
    st.appended.map lineOf
  wellFormed : ∀ record ∈ st.appended, (Value.obj record).WellFormed

section Rotate

variable {dir : Dir (List Char)} {clock t : Int} {rots : List Rotation} {maxBytes : Nat}

theorem freeIndex_ge (dir : Dir (List Char)) (date : String) (fuel : Nat) :
    ∀ n, n ≤ freeIndex dir date fuel n := by
  induction fuel with
  | zero => exact fun n => Nat.le_refl n
  | succ fuel ih =>
      intro n
      rw [freeIndex]
      split
      · exact Nat.le_trans (Nat.le_succ n) (ih (n + 1))
      · exact Nat.le_refl n

/-- Every number before the first free one is taken. -/
theorem freeIndex_taken (dir : Dir (List Char)) (date : String) (fuel : Nat) :
    ∀ n m, n ≤ m → m < freeIndex dir date fuel n → dir.has (rotatedName date m) = true := by
  induction fuel with
  | zero =>
      intro n m hn hm
      rw [freeIndex] at hm
      omega
  | succ fuel ih =>
      intro n m hn hm
      rw [freeIndex] at hm
      split at hm
      · next hhas =>
          by_cases hsame : m = n
          · rw [hsame]
            exact hhas
          · exact ih (n + 1) m (by omega) hm
      · omega

theorem get?_rename_old {dir dir' : Dir (List Char)} {old new : String} (hne : old ≠ new)
    (h : rename dir old new = some dir') : dir'.get? old = none := by
  unfold rename at h
  cases hget : dir.get? old with
  | none =>
      rw [hget] at h
      cases h
  | some content =>
      rw [hget] at h
      obtain rfl := Option.some.inj h
      rw [if_neg hne, Map.get?_set_ne _ _ hne, Map.get?_delete, if_pos rfl]

theorem Shelved.later (h : Shelved dir clock rots) (hclock : clock ≤ t) : Shelved dir t rots :=
  { h with
    past := by
      intro r hr
      have hpast := h.past r hr
      exact ⟨hpast.1, Int.le_trans hpast.2 hclock⟩ }

/-- A rotation comes behind all the others. -/
theorem Shelved.ahead (h : Shelved dir clock rots) (hclock : clock ≤ t) (hyear : FourDigitYear t)
    (hlast : ∀ name ∈ dir.keys, isRotated name = true → 2 ≤ trailingNumber name →
      dateOfName name = isoDate t) {r : Rotation} (hr : r ∈ rots) {k : Nat} (hk : 1 ≤ k)
    (hfree : dir.get? (rotatedName (isoDate t) k) = none) :
    Ahead r.name (rotatedName (isoDate t) k) := by
  obtain ⟨hr4, hrt⟩ := h.past r hr
  unfold Ahead Rotation.name
  rw [trailingNumber_rotatedName, trailingNumber_rotatedName]
  by_cases hday : isoDate r.time = isoDate t
  · -- the number would be taken if one as high were
    refine .inl ?_
    by_contra hle
    have htaken := h.filled r hr k hk (by omega)
    rw [hday] at htaken
    simp [Map.has, hfree] at htaken
  · have hone : r.n ≤ 1 := by
      by_contra htwo
      have hkey : r.name ∈ dir.keys := (dir.mem_keys_iff _).mpr ⟨_, h.found r hr⟩
      have hdate := hlast r.name hkey (isRotated_rotatedName hr4 r.n) (by
        unfold Rotation.name
        rw [trailingNumber_rotatedName]
        omega)
      unfold Rotation.name at hdate
      rw [dateOfName_rotatedName hr4] at hdate
      exact hday hdate
    by_cases hlt : r.n < k
    · exact .inl (by omega)
    · obtain hsame : r.n = k := by omega
      refine .inr ⟨by rw [hsame], ?_⟩
      rw [hsame]
      rcases dateText_mono (Int.le_trans hrt hclock) hr4 hyear with htext | htext
      · exact rotatedName_lt k htext hr4 hyear
      · rw [← toList_isoDate hr4, ← toList_isoDate hyear] at htext
        exact absurd (String.toList_inj.mp htext) hday

/-- The step of a rotation. -/
theorem Shelved.rotate {dir' : Dir (List Char)} {lines : List (List Char)}
    (h : Shelved dir clock rots) (hclock : clock ≤ t) (hyear : FourDigitYear t)
    (hlast : ∀ name ∈ dir.keys, isRotated name = true → 2 ≤ trailingNumber name →
      dateOfName name = isoDate t) (hlines : dir.get? ledgerFileName = some lines)
    (hmove : rename dir ledgerFileName
      (rotatedName (isoDate t) (freeIndex dir (isoDate t) dir.size 1)) = some dir') :
    Shelved dir' t (rots ++ [⟨t, freeIndex dir (isoDate t) dir.size 1, lines⟩]) := by
  have hfree := freeIndex_free dir (isoDate t)
  have hpos := freeIndex_ge dir (isoDate t) dir.size 1
  have htaken := freeIndex_taken dir (isoDate t) dir.size 1
  generalize freeIndex dir (isoDate t) dir.size 1 = k at hfree hpos htaken hmove ⊢
  have hnew := get?_rename hmove
  rw [hlines] at hnew
  have hkeep : ∀ name, name ≠ ledgerFileName → ∀ content, dir.get? name = some content →
      dir'.get? name = some content := by
    intro name hne content hname
    have hne' : name ≠ rotatedName (isoDate t) k := by
      intro heq
      rw [heq, hfree] at hname
      cases hname
    rw [get?_rename_ne hne hne' hmove, hname]
  have hhas : ∀ date m, dir.has (rotatedName date m) = true →
      dir'.has (rotatedName date m) = true := by
    intro date m hm
    obtain ⟨content, hcontent⟩ := (dir.has_iff _).mp hm
    exact (dir'.has_iff _).mpr ⟨content, hkeep _ (rotatedName_ne date m) content hcontent⟩
  constructor
  · intro r hr
    rcases List.mem_append.mp hr with hr | hr
    · exact (h.later hclock).past r hr
    · rw [List.mem_singleton.mp hr]
      exact ⟨hyear, Int.le_refl t⟩
  · intro r hr
    rcases List.mem_append.mp hr with hr | hr
    · exact hkeep _ (rotatedName_ne _ _) _ (h.found r hr)
    · rw [List.mem_singleton.mp hr]
      exact hnew
  · intro name hname hthere
    by_cases hsame : name = rotatedName (isoDate t) k
    · exact ⟨_, List.mem_append_right _ List.mem_cons_self, hsame.symm⟩
    · have hne : name ≠ ledgerFileName := by
        intro heq
        rw [heq, isRotated_ledgerFileName] at hname
        cases hname
      have hold : dir.has name = true := by
        rw [Map.has, get?_rename_ne hne hsame hmove] at hthere
        exact hthere
      obtain ⟨r, hr, hrname⟩ := h.complete name hname hold
      exact ⟨r, List.mem_append_left _ hr, hrname⟩
  · refine List.pairwise_append.mpr ⟨h.ordered, List.pairwise_singleton _ _, ?_⟩
    intro a ha b hb
    rw [List.mem_singleton.mp hb]
    exact h.ahead hclock hyear hlast ha hpos hfree
  · intro r hr m hm hle
    rcases List.mem_append.mp hr with hr | hr
    · exact hhas _ m (h.filled r hr m hm hle)
    · rw [List.mem_singleton.mp hr] at hle ⊢
      by_cases hsame : m = k
      · rw [hsame]
        exact (dir'.has_iff _).mpr ⟨_, hnew⟩
      · have hlt : m < k := Nat.lt_of_le_of_ne hle hsame
        exact hhas _ m (htaken m hm hlt)

/-- A line more in the current file moves none of the others. -/
theorem Shelved.append (h : Shelved dir clock rots) (line : List Char) :
    Shelved (Files.append dir ledgerFileName line) clock rots := by
  have hget : ∀ name, name ≠ ledgerFileName →
      (Files.append dir ledgerFileName line).get? name = dir.get? name := by
    intro name hne
    exact get?_append_ne hne
  constructor
  · exact h.past
  · intro r hr
    rw [hget r.name (rotatedName_ne _ _)]
    exact h.found r hr
  · intro name hname hthere
    have hne : name ≠ ledgerFileName := by
      intro heq
      rw [heq, isRotated_ledgerFileName] at hname
      cases hname
    rw [Map.has, hget name hne] at hthere
    exact h.complete name hname hthere
  · exact h.ordered
  · intro r hr m hm hle
    rw [Map.has, hget _ (rotatedName_ne _ _)]
    exact h.filled r hr m hm hle

end Rotate

/-! ### Lines -/

section Lines

theorem stringifyMembers_brace (ms : List (String × Json ν)) :
    ∃ mid, Json.stringifyMembers ms = mid ++ ['\x7d'] := by
  induction ms with
  | nil => exact ⟨[], rfl⟩
  | cons m ms ih =>
      obtain ⟨mid, hmid⟩ := ih
      refine ⟨',' :: (Json.quote m.1.toList ++ ':' :: (Json.stringify m.2 ++ mid)), ?_⟩
      rw [Json.stringifyMembers, hmid]
      simp

theorem stringify_braces (ms : List (String × Json ν)) :
    ∃ mid, Json.stringify (.obj ms) = '\x7b' :: (mid ++ ['\x7d']) := by
  cases ms with
  | nil => exact ⟨[], rfl⟩
  | cons m ms =>
      obtain ⟨mid, hmid⟩ := stringifyMembers_brace ms
      refine ⟨Json.quote m.1.toList ++ ':' :: (Json.stringify m.2 ++ mid), ?_⟩
      rw [Json.stringify, hmid]
      simp

omit [Number ν] in
theorem trim_between {c d : Char} (hc : isTrimmed c = false) (hd : isTrimmed d = false)
    (mid : List Char) :
    trim (String.ofList (c :: (mid ++ [d]))) = String.ofList (c :: (mid ++ [d])) := by
  have hfront : (c :: (mid ++ [d])).dropWhile isTrimmed = c :: (mid ++ [d]) :=
    List.dropWhile_cons_of_neg (by simp [hc])
  have hback : (c :: (mid ++ [d])).reverse.dropWhile isTrimmed = (c :: (mid ++ [d])).reverse := by
    rw [List.reverse_cons, List.reverse_append]
    exact List.dropWhile_cons_of_neg (by simp [hd])
  unfold trim
  rw [String.toList_ofList, hfront, hback, List.reverse_reverse]

/-- A line reads back as the object it was written from. -/
theorem readLine_stringify {ms : List (String × Json ν)} (hwf : (Json.obj ms).WellFormed) :
    readLine (Json.stringify (.obj ms)) = some (Json.wire (.obj ms)) := by
  have hparse := Json.parse_stringify _ hwf
  obtain ⟨mid, hmid⟩ := stringify_braces ms
  unfold readLine
  dsimp only
  rw [hmid, trim_between (by decide) (by decide) mid, String.toList_ofList, ← hmid, hparse,
    if_neg]
  intro hempty
  have hlist := congrArg String.toList hempty
  rw [String.toList_ofList, hmid] at hlist
  cases hlist

/-- A list of lines, each of them complete. -/
def Complete (lines : List (List Char)) : Prop := ∀ l ∈ lines, ∃ text, '\n' ∉ text ∧ l = text ++ ['\n']

theorem readText_lines {lines : List (List Char)} (h : Complete lines) :
    (splitChars '\n' lines.flatten).filterMap (readLine (ν := ν)) =
      lines.filterMap fun l => readLine l.dropLast := by
  induction lines with
  | nil =>
      have hblank : readLine (ν := ν) [] = none := by
        unfold readLine
        exact if_pos (by decide)
      simp [splitChars, hblank]
  | cons l lines ih =>
      obtain ⟨⟨text, htext, rfl⟩, hrest⟩ := List.forall_mem_cons.mp h
      have hflat : ((text ++ ['\n']) :: lines).flatten = text ++ '\n' :: lines.flatten := by simp
      rw [hflat, splitChars_append htext, List.filterMap_cons, List.filterMap_cons, ih hrest,
        List.dropLast_concat]

theorem complete_lineOf (records : List (List (String × Value ν))) :
    Complete (records.map lineOf) := by
  intro l hl
  obtain ⟨record, -, rfl⟩ := List.mem_map.mp hl
  exact ⟨_, newline_not_mem (printed_stringify _), rfl⟩

theorem readLine_lineOf {record : List (String × Value ν)} (hwf : (Value.obj record).WellFormed) :
    readLine (lineOf record).dropLast = some (asRead record) := by
  unfold lineOf ledgerLine encodeLine
  rw [List.dropLast_concat]
  exact readLine_stringify (Value.toJson_wellFormed hwf _ rfl)

end Lines

/-! ### The order of the files -/

section Order

variable {a b c : String}

theorem Ahead.trans (hab : Ahead a b) (hbc : Ahead b c) : Ahead a c := by
  unfold Ahead at *
  rcases hab with hab | ⟨hab, hlt⟩
  · rcases hbc with hbc | ⟨hbc, -⟩
    · exact .inl (Int.lt_trans hab hbc)
    · exact .inl (hbc ▸ hab)
  · rcases hbc with hbc | ⟨hbc, hlt'⟩
    · exact .inl (hab ▸ hbc)
    · exact .inr ⟨hab.trans hbc, lt_trans hlt hlt'⟩

theorem Ahead.irrefl (a : String) : ¬ Ahead a a := by
  intro h
  rcases h with h | ⟨-, h⟩
  · exact Int.lt_irrefl _ h
  · exact lt_irrefl a h

theorem ahead_trichotomy (a b : String) : Ahead a b ∨ a = b ∨ Ahead b a := by
  unfold Ahead
  rcases Int.lt_trichotomy (trailingNumber a) (trailingNumber b) with h | h | h
  · exact .inl (.inl h)
  · rcases lt_trichotomy a b with hlt | heq | hgt
    · exact .inl (.inr ⟨h, hlt⟩)
    · exact .inr (.inl heq)
    · exact .inr (.inr (.inr ⟨h.symm, hgt⟩))
  · exact .inr (.inr (.inl h))

theorem comesBefore_iff : comesBefore a b ↔ a = b ∨ Ahead a b := by
  unfold comesBefore Ahead
  by_cases h : trailingNumber a = trailingNumber b
  · rw [if_neg (not_not.mpr h), le_iff_eq_or_lt]
    simp [h]
  · rw [if_pos h]
    have hne : a ≠ b := fun heq => h (by rw [heq])
    simp only [hne, h, false_and, or_false, false_or]
    omega

instance : Std.Total comesBefore where
  total := by
    intro a b
    rw [comesBefore_iff, comesBefore_iff]
    rcases ahead_trichotomy a b with h | h | h
    · exact .inl (.inr h)
    · exact .inl (.inl h)
    · exact .inr (.inr h)

instance : IsTrans String comesBefore where
  trans := by
    intro a b c hab hbc
    rw [comesBefore_iff] at *
    rcases hab with rfl | hab
    · exact hbc
    · rcases hbc with rfl | hbc
      · exact .inr hab
      · exact .inr (hab.trans hbc)

instance : Std.Antisymm comesBefore where
  antisymm := by
    intro a b hab hba
    rw [comesBefore_iff] at *
    rcases hab with hab | hab
    · exact hab
    · rcases hba with hba | hba
      · exact hba.symm
      · exact absurd (hab.trans hba) (Ahead.irrefl a)

variable {dir : Dir (List Char)} {clock : Int} {rots : List Rotation} {listing : List String}

/-- The reader goes through the rotated files in the order they were moved away. -/
theorem Shelved.sorted (h : Shelved dir clock rots) (hlisting : listing.Perm dir.keys) :
    (listing.filter isRotated).insertionSort comesBefore = rots.map Rotation.name := by
  have hordered : (rots.map Rotation.name).Pairwise Ahead := List.pairwise_map.mpr h.ordered
  have hnodup : (rots.map Rotation.name).Nodup := by
    refine hordered.imp ?_
    intro a b hab heq
    rw [heq] at hab
    exact Ahead.irrefl b hab
  have hperm : (listing.filter isRotated).Perm (rots.map Rotation.name) := by
    refine (hlisting.filter _).trans ?_
    have hkeys : dir.keys.Nodup := dir.nodup
    refine (List.perm_ext_iff_of_nodup (hkeys.filter _) hnodup).mpr ?_
    intro name
    rw [List.mem_filter, dir.mem_keys_iff, List.mem_map]
    constructor
    · rintro ⟨hkey, hname⟩
      exact h.complete name hname ((dir.has_iff name).mpr hkey)
    · rintro ⟨r, hr, rfl⟩
      exact ⟨⟨_, h.found r hr⟩, isRotated_rotatedName (h.past r hr).1 r.n⟩
  refine List.Perm.eq_of_pairwise' (List.pairwise_insertionSort comesBefore _) ?_
    ((List.perm_insertionSort comesBefore _).trans hperm)
  refine hordered.imp ?_
  intro a b hab
  exact comesBefore_iff.mpr (.inr hab)

end Order

/-! ### The reader -/

section Reader

variable {st : LedgerHistory ν} {rots : List Rotation} {listing : List String}

theorem readFile_found {dir : Dir (List Char)} {name : String} {lines : List (List Char)}
    (h : dir.get? name = some lines) (hlines : Complete lines) :
    readFile (ν := ν) dir name = lines.filterMap fun l => readLine l.dropLast := by
  unfold readFile
  rw [h]
  exact readText_lines hlines

theorem OnRecord.complete (h : OnRecord st rots) :
    (∀ r ∈ rots, Complete r.lines) ∧ Complete ((st.dir.get? ledgerFileName).getD []) := by
  have hall := complete_lineOf st.appended
  rw [← h.text] at hall
  constructor
  · intro r hr l hl
    exact hall l (List.mem_append_left _ (List.mem_flatMap.mpr ⟨r, hr, hl⟩))
  · intro l hl
    exact hall l (List.mem_append_right _ hl)

/-- All that was appended is read, in that order. -/
theorem OnRecord.records (h : OnRecord st rots) (hlisting : listing.Perm st.dir.keys) :
    readLines st.dir (ledgerFiles listing st.dir) = st.appended.map asRead := by
  obtain ⟨hrots, hcurrent⟩ := h.complete
  have hshelf : (rots.map Rotation.name).flatMap (readFile (ν := ν) st.dir) =
      (rots.flatMap Rotation.lines).filterMap fun l => readLine l.dropLast := by
    rw [List.flatMap_map, List.filterMap_flatMap]
    refine List.flatMap_congr ?_
    intro r hr
    exact readFile_found (h.shelved.found r hr) (hrots r hr)
  have hlast : (if st.dir.has ledgerFileName then [ledgerFileName] else []).flatMap
      (readFile (ν := ν) st.dir) =
        ((st.dir.get? ledgerFileName).getD []).filterMap fun l => readLine l.dropLast := by
    cases hget : st.dir.get? ledgerFileName with
    | none =>
        have hhas : st.dir.has ledgerFileName = false := by simp [Map.has, hget]
        simp [hhas]
    | some lines =>
        have hhas : st.dir.has ledgerFileName = true := by simp [Map.has, hget]
        rw [hget] at hcurrent
        simp [hhas, readFile_found hget hcurrent]
  unfold readLines ledgerFiles
  rw [h.shelved.sorted hlisting, List.flatMap_append, hshelf, hlast, ← List.filterMap_append,
    h.text, List.filterMap_map]
  have hread : ∀ records : List (List (String × Value ν)),
      (∀ record ∈ records, (Value.obj record).WellFormed) →
        records.filterMap ((fun l => readLine (ν := ν) l.dropLast) ∘ lineOf) =
          records.map asRead := by
    intro records
    induction records with
    | nil => exact fun _ => rfl
    | cons record records ih =>
        intro hall
        rw [List.forall_mem_cons] at hall
        rw [List.filterMap_cons, Function.comp_apply, readLine_lineOf hall.1, List.map_cons,
          ih hall.2]
  exact hread st.appended h.wellFormed

theorem newest_eq_nil {α : Type} {n : Nat} (hn : 1 ≤ n) {l : List α} :
    newest n l = [] ↔ l = [] := by
  unfold newest
  rw [List.drop_eq_nil_iff]
  constructor
  · intro h
    exact List.length_eq_zero_iff.mp (by omega)
  · intro h
    simp [h]

theorem tailLimit_pos {max : Nat} {limitRaw : Option String} {n : Nat}
    (h : tailLimit max limitRaw = .ok n) : 1 ≤ n := by
  unfold tailLimit at h
  cases limitRaw with
  | none =>
      obtain rfl := Except.ok.inj h
      decide
  | some raw =>
      dsimp only at h
      cases hlimit : limitOf max raw with
      | none =>
          rw [hlimit] at h
          cases h
      | some m =>
          rw [hlimit] at h
          obtain rfl := Except.ok.inj h
          unfold limitOf at hlimit
          obtain ⟨k, -, hk⟩ := Option.bind_eq_some_iff.mp hlimit
          split at hk
          · cases hk
          · obtain rfl := Option.some.inj hk
            omega

theorem tail_of_records {dir : Dir (List Char)} {records : List (Json ν)}
    (h : readLines dir (ledgerFiles listing dir) = records) {limitRaw : Option String} {n : Nat}
    (hlimit : tailLimit cliLedgerMaxLimit limitRaw = .ok n) :
    cmdTail ν listing dir limitRaw =
      { out := if records = [] then ["(no ledger)"] else (newest n records).map shown
        code := exitOk } := by
  have hblank := newest_eq_nil (α := Json ν) (tailLimit_pos hlimit) (l := records)
  unfold cmdTail
  rw [hlimit]
  dsimp only
  split
  · next hnone =>
      rw [List.length_eq_zero_iff.mp hnone] at h
      have hnil : records = [] := h.symm
      rw [if_pos hnil]
  · rw [h]
    by_cases hnil : records = []
    · have hnone := hblank.mpr hnil
      rw [if_pos hnil, hnone]
      rfl
    · have hsome : (newest n records).length ≠ 0 := by
        rw [Ne, List.length_eq_zero_iff, hblank]
        exact hnil
      rw [if_neg hnil, if_neg hsome, List.nil_append]

omit [Number ν] in
/-- The filters look at objects only. -/
theorem select_objects {records : List (Json ν)} (hall : ∀ l ∈ records, ∃ ms, l = .obj ms)
    (f : LedgerFilters) : select f records = some (records.filter (Matching f)) := by
  have hfield : ∀ ms : List (String × Json ν), ∀ key want,
      ∃ b, hasField (.obj ms) key want = some b := by
    intro ms key want
    cases want with
    | none => exact ⟨true, rfl⟩
    | some want => exact ⟨_, rfl⟩
  have hmatch : ∀ ms : List (String × Json ν), ∃ b, matchesFilters (.obj ms) f = some b := by
    intro ms
    obtain ⟨b₁, h₁⟩ := hfield ms "from" f.sender
    obtain ⟨b₂, h₂⟩ := hfield ms "to" f.recipient
    obtain ⟨b₃, h₃⟩ := hfield ms "room" f.room
    obtain ⟨b₄, h₄⟩ := hfield ms "event" f.event
    unfold matchesFilters
    rw [h₁, h₂, h₃, h₄]
    cases b₁ <;> cases b₂ <;> cases b₃ <;> exact ⟨_, rfl⟩
  induction records with
  | nil => rfl
  | cons l records ih =>
      rw [List.forall_mem_cons] at hall
      obtain ⟨⟨ms, rfl⟩, hrest⟩ := hall
      obtain ⟨b, hb⟩ := hmatch ms
      have hmatching : Matching f (Json.obj ms) = b := by
        unfold Matching
        rw [hb]
        rfl
      rw [select, hb, ih hrest, List.filter_cons, hmatching]
      rfl

theorem ledger_of_records {dir : Dir (List Char)} {records : List (Json ν)}
    (h : readLines dir (ledgerFiles listing dir) = records)
    (hall : ∀ l ∈ records, ∃ ms, l = .obj ms) {filters : LedgerFilters} (asJson : Bool)
    (hpos : 1 ≤ filters.limit) (hmax : filters.limit ≤ cliLedgerMaxLimit) :
    cmdLedger ν listing dir filters asJson =
      some { out := if records.filter (Matching filters) = [] then
            (if asJson then [] else ["(no matching ledger records)"])
          else (newest filters.limit.toNat (records.filter (Matching filters))).map shown
             code := exitOk } := by
  have hblank := newest_eq_nil (α := Json ν) (n := filters.limit.toNat) (by omega)
    (l := records.filter (Matching filters))
  unfold cmdLedger
  rw [if_neg (by omega), h, select_objects hall]
  simp only [Option.bind_eq_bind, Option.bind_some, List.length_eq_zero_iff, hblank]
  split
  · rfl
  · rfl

theorem OnRecord.reads (h : OnRecord st rots) : ReadsInOrder st := by
  have hobjects : ∀ l ∈ st.appended.map (asRead (ν := ν)), ∃ ms, l = .obj ms := by
    intro l hl
    obtain ⟨record, -, rfl⟩ := List.mem_map.mp hl
    exact ⟨_, rfl⟩
  have hnil : (st.appended.map (asRead (ν := ν)) = []) = (st.appended = []) := by simp
  refine ⟨fun listing hlisting => h.records hlisting, ?_, ?_⟩
  · intro listing hlisting limitRaw n hlimit
    rw [tail_of_records (h.records hlisting) hlimit]
    simp only [hnil]
  · intro listing hlisting filters asJson hpos hmax
    exact ledger_of_records (h.records hlisting) hobjects asJson hpos hmax

end Reader

/-! ### The writer -/

section Writer

variable {maxBytes : Nat} {st st' : LedgerHistory ν} {rots : List Rotation} {c : AppendCall ν}

theorem OnRecord.start {dir : Dir (List Char)} (h : NoLedger dir) (clock : Int) :
    OnRecord (ν := ν) { dir, clock } [] := by
  have hnone : dir.get? ledgerFileName = none := by
    have hcurrent := h.current
    simpa [Map.has] using hcurrent
  refine ⟨⟨by simp, by simp, ?_, List.Pairwise.nil, by simp⟩, by simp [hnone], by simp⟩
  intro name hname hthere
  rw [h.rotated name hname] at hthere
  cases hthere

/-- What stands in the files after the rotation, if there is one. -/
theorem OnRecord.rotated (h : OnRecord st rots) (hclock : st.clock ≤ c.rotated)
    (hclean : MeshLedger.scans (.obj (record c.input.members (toISOString c.stamped))) = true)
    (hok : RotatesLast maxBytes st c) :
    ∃ rots', OnRecord { st with dir := rotateIfNeeded maxBytes st.dir (isoDate c.rotated),
                                clock := c.rotated } rots' := by
  have hstay : OnRecord { dir := st.dir, clock := c.rotated, appended := st.appended } rots :=
    ⟨h.shelved.later hclock, h.text, h.wellFormed⟩
  unfold rotateIfNeeded
  cases hlines : st.dir.get? ledgerFileName with
  | none => exact ⟨rots, hstay⟩
  | some lines =>
      dsimp only
      by_cases hsize : fileSize lines ≤ maxBytes
      · rw [if_pos hsize]
        exact ⟨rots, hstay⟩
      · rw [if_neg hsize]
        have hrotates : rotates maxBytes st c = true := by
          unfold rotates
          rw [hclean, hlines]
          simp
          omega
        obtain ⟨hyear, hlast⟩ := hok hrotates
        split
        · exact ⟨rots, hstay⟩
        · next dir' hmove =>
            refine ⟨_, h.shelved.rotate hclock hyear hlast hlines hmove, ?_, h.wellFormed⟩
            have hgone := get?_rename_old (fun heq => rotatedName_ne _ _ heq.symm) hmove
            have htext := h.text
            rw [hlines] at htext
            rw [hgone, List.flatMap_append, ← htext]
            simp

theorem OnRecord.step (h : OnRecord st rots) (hstep : AppendStep maxBytes st c st')
    (hok : RotatesLast maxBytes st c) : ∃ rots', OnRecord st' rots' := by
  obtain ⟨hstamped, hrotated, rfl⟩ := hstep
  have hclock : st.clock ≤ c.rotated := Int.le_trans hstamped hrotated
  unfold LedgerHistory.after MeshLedger.append
  dsimp only
  cases hscan : MeshLedger.scans (.obj (record c.input.members (toISOString c.stamped))) with
  | false =>
      refine ⟨rots, h.shelved.later hclock, ?_, ?_⟩
      · simpa [Except.toOption] using h.text
      · simpa [Except.toOption] using h.wellFormed
  | true =>
      obtain ⟨rots', hkept⟩ := h.rotated hclock hscan hok
      rw [if_neg (by decide)]
      split
      · refine ⟨rots', hkept.shelved, ?_, ?_⟩
        · simpa [Except.toOption] using hkept.text
        · simpa [Except.toOption] using h.wellFormed
      · refine ⟨rots', hkept.shelved.append _, ?_, ?_⟩
        · have htext := hkept.text
          dsimp only at htext
          simp only [Except.toOption, Option.toList, List.map_append, List.map_cons, List.map_nil,
            ← htext]
          simp [Files.append, lineOf]
        · intro r hr
          rcases List.mem_append.mp hr with hr | hr
          · exact h.wellFormed r hr
          · obtain rfl := List.mem_singleton.mp hr
            exact record_wellFormed c.input _

end Writer

/-- **The history is read in the order it was appended, in every run in which each rotation comes
last in reading order.** -/
theorem history_in_order {maxBytes : Nat} {dir : Dir (List Char)} {clock : Int} (h : NoLedger dir)
    {tr : List (LedgerHistory ν × AppendCall ν)} {st : LedgerHistory ν}
    (hrun : Run (AppendStep maxBytes) { dir, clock } tr st)
    (hok : Meets (RotatesLast maxBytes) tr) : ReadsInOrder st := by
  have hkept : ∃ rots, OnRecord st rots := by
    refine hrun.invariant (P := fun st => ∃ rots, OnRecord st rots) hok ⟨[], OnRecord.start h clock⟩ ?_
    intro s c s' hs hc hstep
    obtain ⟨rots, hrots⟩ := hs
    exact hrots.step hstep hc
  obtain ⟨rots, hrots⟩ := hkept
  exact hrots.reads

/-! ### Two days -/

/-- `{ event: "sent" }`. -/
def sentInput : LedgerInput Int where
  members := [("event", .str "sent")]
  wellFormed := by simp [Value.WellFormed, Value.WellFormedMembers]

/-- A call at a second of a day in January 2024. -/
def sentAt (day second : Nat) : AppendCall Int where
  input := sentInput
  stamped := 1704067200000 + day * 86400000 + second * 1000
  rotated := 1704067200000 + day * 86400000 + second * 1000

/-- The calls of a process that moves the file away each time. -/
def sentAll (calls : List (AppendCall Int)) : LedgerHistory Int :=
  calls.foldl (LedgerHistory.after 0) { dir := Map.empty, clock := 0 }

theorem noLedger_empty : NoLedger Map.empty where
  current := rfl
  rotated _ _ := rfl

instance (maxBytes : Nat) (st : LedgerHistory ν) (c : AppendCall ν) :
    Decidable (RotatesLast maxBytes st c) := by
  unfold RotatesLast
  infer_instance

theorem sent_run (calls : List (AppendCall Int)) (c : AppendCall Int)
    {tr : List (LedgerHistory Int × AppendCall Int)}
    (hrun : Run (AppendStep 0) { dir := Map.empty, clock := 0 } tr (sentAll calls))
    (hclock : (sentAll calls).clock ≤ c.stamped) (hrotated : c.stamped ≤ c.rotated) :
    Run (AppendStep 0) { dir := Map.empty, clock := 0 } (tr ++ [(sentAll calls, c)])
      (sentAll (calls ++ [c])) := by
  refine .snoc hrun ⟨hclock, hrotated, ?_⟩
  unfold sentAll
  rw [List.foldl_append]
  rfl

/-- A second file on the last day is read behind the others. -/
theorem history_in_order_two_days :
    ReadsInOrder (sentAll [sentAt 0 0, sentAt 0 1, sentAt 1 0, sentAt 1 1]) :=
  have hrun := sent_run [sentAt 0 0, sentAt 0 1, sentAt 1 0] (sentAt 1 1)
    (sent_run [sentAt 0 0, sentAt 0 1] (sentAt 1 0)
      (sent_run [sentAt 0 0] (sentAt 0 1) (sent_run [] (sentAt 0 0) .nil (by decide) (by decide))
        (by decide) (by decide)) (by decide) (by decide)) (by decide) (by decide)
  history_in_order noLedger_empty hrun (by
    simp only [List.nil_append, List.cons_append, Meets, List.forall_mem_cons]
    exact ⟨by decide, by decide, by decide, by decide, by simp⟩)

theorem readFile_single {st : LedgerHistory Int} {name : String}
    (record : List (String × Value Int)) (h : st.dir.get? name = some [lineOf record])
    (hwf : (Value.obj record).WellFormed) : readFile st.dir name = [asRead record] := by
  rw [readFile_found h (complete_lineOf [record])]
  simp [readLine_lineOf hwf]

/-- The record of a call. -/
def sentRecord (c : AppendCall Int) : List (String × Value Int) :=
  record c.input.members (toISOString c.stamped)

/-- A second file of the first day is read behind the first one of the second day. -/
theorem second_file_misplaced :
    (∃ tr, Run (AppendStep 0) { dir := Map.empty, clock := 0 } tr
      (sentAll [sentAt 0 0, sentAt 0 1, sentAt 0 2, sentAt 1 0])) ∧
    ledgerFiles (sentAll [sentAt 0 0, sentAt 0 1, sentAt 0 2, sentAt 1 0]).dir.keys
        (sentAll [sentAt 0 0, sentAt 0 1, sentAt 0 2, sentAt 1 0]).dir =
      ["ledger-2024-01-01.jsonl.1", "ledger-2024-01-02.jsonl.1", "ledger-2024-01-01.jsonl.2",
        "ledger.jsonl"] ∧
    ¬ ReadsInOrder (sentAll [sentAt 0 0, sentAt 0 1, sentAt 0 2, sentAt 1 0]) := by
  have hfiles : ledgerFiles (sentAll [sentAt 0 0, sentAt 0 1, sentAt 0 2, sentAt 1 0]).dir.keys
      (sentAll [sentAt 0 0, sentAt 0 1, sentAt 0 2, sentAt 1 0]).dir =
        ["ledger-2024-01-01.jsonl.1", "ledger-2024-01-02.jsonl.1", "ledger-2024-01-01.jsonl.2",
          "ledger.jsonl"] := by decide
  refine ⟨⟨_, sent_run [sentAt 0 0, sentAt 0 1, sentAt 0 2] (sentAt 1 0)
    (sent_run [sentAt 0 0, sentAt 0 1] (sentAt 0 2)
      (sent_run [sentAt 0 0] (sentAt 0 1) (sent_run [] (sentAt 0 0) .nil (by decide) (by decide))
        (by decide) (by decide)) (by decide) (by decide)) (by decide) (by decide)⟩, hfiles, ?_⟩
  intro h
  have hread := h.records _ (List.Perm.refl _)
  -- the second record read is the third one appended
  have hwf : ∀ c, (Value.obj (sentRecord c)).WellFormed := fun c => record_wellFormed c.input _
  rw [hfiles, readLines, List.flatMap_cons, List.flatMap_cons,
    readFile_single (sentRecord (sentAt 0 0)) rfl (hwf _),
    readFile_single (sentRecord (sentAt 0 2)) rfl (hwf _)] at hread
  have hsecond := congrArg (fun l => (l[1]?).map Json.stringify) hread
  revert hsecond
  decide

end PiMesh
