/-
The ledger holds no bodies, and a record that would put one there changes nothing.

The scan before the write looks at every key of the record, at any depth, so a record that
passes it has none of the forbidden keys, and neither has its text: leaving out what is
undefined takes keys away and adds none.  The scan also comes before the rotation.  A record
that fails it leaves every file as it was; one that passes adds its line to the ledger, which
at most has its old content moved first to a name no file has.
-/
import PiMesh.Extension.Append
import PiMesh.Proofs.Ledger

namespace PiMesh

open Js Files Transition

variable {ν : Type}

namespace MeshLedger

/-! ### What the result speaks of -/

/-- Some object of the value, at some depth, has a forbidden key. -/
def Forbidden (v : Value ν) : Prop := ∃ k ∈ forbiddenPersistedKeys, v.HasKey k

/-- What a call that went through has done to the files. -/
structure AddsLine (dir : Dir (List Char)) (line : List Char) (dir' : Dir (List Char)) : Prop where
  /-- One line more in all the files together. -/
  lines : (items dir').Perm (items dir ++ [line])
  /-- It is the last one of the ledger. -/
  last : ∃ before, dir'.get? ledgerFileName = some (before ++ [line])
  /-- What a file held, it still holds, or the rotated one does that took its place. -/
  kept : ∀ name content, dir.get? name = some content →
    (∃ more, dir'.get? name = some (content ++ more)) ∨
      (name = ledgerFileName ∧ ∃ date n, dir.get? (rotatedName date n) = none ∧
        dir'.get? (rotatedName date n) = some content)

/-! ### The scan -/

theorem hasForbiddenItem_iff (vs : List (Value ν)) :
    hasForbiddenItem vs = true ↔ ∃ v ∈ vs, hasForbiddenPersistedKey v = true := by
  induction vs with
  | nil => simp [hasForbiddenItem]
  | cons v vs ih => simp [hasForbiddenItem, ih]

theorem hasForbiddenMember_iff (ms : List (String × Value ν)) :
    hasForbiddenMember ms = true ↔
      ∃ m ∈ ms, m.1 ∈ forbiddenPersistedKeys ∨ hasForbiddenPersistedKey m.2 = true := by
  induction ms with
  | nil => simp [hasForbiddenMember]
  | cons m ms ih => simp [hasForbiddenMember, ih]

/-- The scan reaches every key. -/
theorem hasForbiddenPersistedKey_iff (v : Value ν) :
    hasForbiddenPersistedKey v = true ↔ Forbidden v := by
  constructor
  · intro h
    induction v using Value.induct with
    | arr items ih =>
        rw [hasForbiddenPersistedKey, hasForbiddenItem_iff] at h
        obtain ⟨v, hv, h⟩ := h
        obtain ⟨k, hk, hkey⟩ := ih v hv h
        exact ⟨k, hk, .item hv hkey⟩
    | obj members ih =>
        rw [hasForbiddenPersistedKey, hasForbiddenMember_iff] at h
        obtain ⟨m, hm, h | h⟩ := h
        · exact ⟨m.1, h, .own (List.mem_map_of_mem hm)⟩
        · obtain ⟨k, hk, hkey⟩ := ih m hm h
          exact ⟨k, hk, .member hm hkey⟩
    | _ => cases h
  · intro h
    obtain ⟨k, hk, hkey⟩ := h
    induction hkey with
    | own h =>
        obtain ⟨m, hm, rfl⟩ := List.mem_map.mp h
        rw [hasForbiddenPersistedKey, hasForbiddenMember_iff]
        exact ⟨m, hm, .inl hk⟩
    | member hm _ ih =>
        rw [hasForbiddenPersistedKey, hasForbiddenMember_iff]
        exact ⟨_, hm, .inr ih⟩
    | item hv _ ih =>
        rw [hasForbiddenPersistedKey, hasForbiddenItem_iff]
        exact ⟨_, hv, ih⟩

/-! ### The record -/

theorem wellFormedMembers_setEntry {k : String} {v : Value ν} (hv : v.WellFormed)
    {ms : List (String × Value ν)} (hms : ∀ m ∈ ms, m.2.WellFormed) :
    ∀ m ∈ setEntry k v ms, m.2.WellFormed := by
  induction ms with
  | nil => simpa [setEntry] using hv
  | cons m ms ih =>
      rw [List.forall_mem_cons] at hms
      rw [setEntry]
      split
      · exact List.forall_mem_cons.mpr ⟨hv, hms.2⟩
      · exact List.forall_mem_cons.mpr ⟨hms.1, ih hms.2⟩

theorem wellFormed_setEntry {k : String} {v : Value ν} (hv : v.WellFormed)
    {ms : List (String × Value ν)} (hms : (Value.obj ms).WellFormed) :
    (Value.obj (setEntry k v ms)).WellFormed := by
  rw [Value.WellFormed, Value.wellFormedMembers_iff] at hms ⊢
  exact ⟨(Map.set ⟨ms, hms.1⟩ k v).nodup, wellFormedMembers_setEntry hv hms.2⟩

theorem wellFormed_spread {input : List (String × Value ν)} (hinput : ∀ m ∈ input, m.2.WellFormed) :
    ∀ {ms : List (String × Value ν)}, (Value.obj ms).WellFormed →
      (Value.obj (input.foldl (fun ms e => setEntry e.1 e.2 ms) ms)).WellFormed := by
  induction input with
  | nil => exact id
  | cons e rest ih =>
      intro ms hms
      rw [List.forall_mem_cons] at hinput
      exact ih hinput.2 (wellFormed_setEntry hinput.1 hms)

theorem record_wellFormed (input : LedgerInput ν) (ts : String) :
    (Value.obj (record input.members ts)).WellFormed := by
  have hinput := input.wellFormed
  rw [Value.WellFormed, Value.wellFormedMembers_iff] at hinput
  have hschema : (Value.obj (ν := ν) [("schema", .str ledgerSchema)]).WellFormed := by
    simp [Value.WellFormed, Value.WellFormedMembers]
  have hspread := wellFormed_spread hinput.2 hschema
  have hts : (Value.str (ν := ν) ts).WellFormed := trivial
  have hstored : (Value.bool (ν := ν) false).WellFormed := trivial
  exact wellFormed_setEntry hstored (wellFormed_setEntry hts hspread)

/-! ### Rotation -/

theorem rotatedName_injective (date : String) : Function.Injective (rotatedName date) := by
  intro n m h
  have hlist := congrArg String.toList h
  simp only [rotatedName, String.toList_append, Nat.toString_eq_repr, Nat.toList_repr,
    List.append_assoc, List.append_cancel_left_eq] at hlist
  have hread := congrArg (fun l => Nat.ofDigitChars 10 l 0) hlist
  simpa using hread

theorem freeIndex_spec (dir : Dir (List Char)) (date : String) (fuel : Nat) : ∀ n,
    dir.has (rotatedName date (freeIndex dir date fuel n)) = true →
      ∀ i ≤ fuel, dir.has (rotatedName date (n + i)) = true := by
  induction fuel with
  | zero =>
      intro n h i hi
      obtain rfl : i = 0 := by omega
      exact h
  | succ fuel ih =>
      intro n h i hi
      rw [freeIndex] at h
      split at h
      · next hhas =>
          rcases i with _ | i
          · exact hhas
          · have hnext := ih (n + 1) h i (by omega)
            rw [Nat.add_right_comm] at hnext
            exact hnext
      · next hhas => exact absurd h hhas

/-- Among more names than there are files, one is free. -/
theorem freeIndex_free (dir : Dir (List Char)) (date : String) :
    dir.get? (rotatedName date (freeIndex dir date dir.size 1)) = none := by
  by_contra hne
  have htaken := freeIndex_spec dir date dir.size 1
    ((dir.has_iff _).mpr (Option.ne_none_iff_exists'.mp hne))
  let names := (List.range (dir.size + 1)).map fun i => rotatedName date (1 + i)
  have hnodup : names.Nodup :=
    List.nodup_range.map fun i j h => Nat.add_left_cancel (rotatedName_injective date h)
  have hsub : names ⊆ dir.keys := by
    intro name hname
    obtain ⟨i, hi, rfl⟩ := List.mem_map.mp hname
    have hhas := htaken i (by have := List.mem_range.mp hi; omega)
    exact (dir.mem_keys_iff _).mpr ((dir.has_iff _).mp hhas)
  have hle := (List.subperm_of_subset hnodup hsub).length_le
  have hlength : names.length = dir.size + 1 := by simp [names]
  rw [hlength, Map.length_keys] at hle
  omega

/-- A rotation moves the ledger to a free name or does nothing. -/
theorem rotateIfNeeded_cases (maxBytes : Nat) (dir : Dir (List Char)) (date : String) :
    rotateIfNeeded maxBytes dir date = dir ∨ ∃ n, dir.get? (rotatedName date n) = none ∧
      rename dir ledgerFileName (rotatedName date n) =
        some (rotateIfNeeded maxBytes dir date) := by
  unfold rotateIfNeeded
  split
  · exact .inl rfl
  · split
    · exact .inl rfl
    · split
      · exact .inl rfl
      · next hmove => exact .inr ⟨_, freeIndex_free dir date, hmove⟩

theorem append_adds (dir : Dir (List Char)) (line : List Char) :
    AddsLine dir line (Files.append dir ledgerFileName line) where
  lines := items_append dir ledgerFileName line
  last := ⟨_, Map.get?_set_self ..⟩
  kept := by
    intro name content hname
    refine .inl ?_
    by_cases hledger : name = ledgerFileName
    · refine ⟨[line], ?_⟩
      rw [hledger] at hname ⊢
      simp [Files.append, hname]
    · refine ⟨[], ?_⟩
      rw [get?_append_ne hledger, hname, List.append_nil]

theorem rotate_append_adds {dir rotated : Dir (List Char)} {date : String} {n : Nat}
    (hfree : dir.get? (rotatedName date n) = none)
    (hmove : rename dir ledgerFileName (rotatedName date n) = some rotated) (line : List Char) :
    AddsLine dir line (Files.append rotated ledgerFileName line) where
  lines := (items_append rotated ledgerFileName line).trans
    ((items_rename hfree hmove).append_right _)
  last := ⟨_, Map.get?_set_self ..⟩
  kept := by
    intro name content hname
    by_cases hledger : name = ledgerFileName
    · refine .inr ⟨hledger, date, n, hfree, ?_⟩
      rw [get?_append_ne (rotatedName_ne date n), get?_rename hmove, ← hledger]
      exact hname
    · have hnew : name ≠ rotatedName date n := by
        intro h
        rw [← h, hname] at hfree
        cases hfree
      refine .inl ⟨[], ?_⟩
      rw [get?_append_ne hledger, get?_rename_ne hledger hnew hmove, hname, List.append_nil]

end MeshLedger

/-! ### The text of a line -/

section Text

variable [Number ν]

/-- No control character is written raw. -/
def Printed (text : List Char) : Prop := ∀ c ∈ text, 32 ≤ c.toNat

theorem printed_append {a b : List Char} (ha : Printed a) (hb : Printed b) : Printed (a ++ b) :=
  List.forall_mem_append.mpr ⟨ha, hb⟩

theorem printed_cons {c : Char} {text : List Char} (hc : 32 ≤ c.toNat) (h : Printed text) :
    Printed (c :: text) :=
  List.forall_mem_cons.mpr ⟨hc, h⟩

theorem printed_hexDigit : ∀ n < 16, 32 ≤ (Json.hexDigit n).toNat := by decide

theorem printed_escapeChar (c : Char) : Printed (Json.escapeChar c) := by
  unfold Json.escapeChar
  split_ifs with h₁ h₂ h₃ h₄ h₅ h₆ h₇ h₈
  · simp [Printed]
  · simp [Printed]
  · simp [Printed]
  · simp [Printed]
  · simp [Printed]
  · simp [Printed]
  · simp [Printed]
  · have hhigh := printed_hexDigit (c.toNat / 16) (by omega)
    have hlow := printed_hexDigit (c.toNat % 16) (by omega)
    simp [Printed, hhigh, hlow]
  · simp only [Printed, List.forall_mem_singleton]
    omega

theorem printed_quote (s : List Char) : Printed (Json.quote s) := by
  refine printed_cons (by decide) (printed_append ?_ (printed_cons (by decide) (by simp [Printed])))
  intro c hc
  obtain ⟨d, -, hd⟩ := List.mem_flatMap.mp hc
  exact printed_escapeChar d c hd

theorem printed_isNumberChar {c : Char} (h : isNumberChar c = true) : 32 ≤ c.toNat := by
  unfold isNumberChar at h
  simp only [Bool.or_eq_true, beq_iff_eq] at h
  obtain ((((h | rfl) | rfl) | rfl) | rfl) | rfl := h
  · have hdigit : 48 ≤ c.toNat := (Char.isDigit_iff_toNat.mp h).1
    omega
  · decide
  · decide
  · decide
  · decide
  · decide

theorem printed_toText {x : ν} (hx : Number.isFinite x = true) : Printed (Number.toText x) := by
  have hliteral := Number.toText_literal x hx
  unfold isNumberLiteral at hliteral
  have hall := (Bool.and_eq_true_iff.mp hliteral).1
  intro c hc
  exact printed_isNumberChar (List.all_eq_true.mp hall c hc)

theorem printed_items {vs : List (Json ν)} (h : ∀ v ∈ vs, Printed (Json.stringify v)) :
    Printed (Json.stringifyItems vs) := by
  induction vs with
  | nil => exact printed_cons (by decide) (by simp [Printed])
  | cons v vs ih =>
      rw [List.forall_mem_cons] at h
      exact printed_cons (by decide) (printed_append h.1 (ih h.2))

theorem printed_members {ms : List (String × Json ν)} (h : ∀ m ∈ ms, Printed (Json.stringify m.2)) :
    Printed (Json.stringifyMembers ms) := by
  induction ms with
  | nil => exact printed_cons (by decide) (by simp [Printed])
  | cons m ms ih =>
      rw [List.forall_mem_cons] at h
      exact printed_cons (by decide) (printed_append (printed_quote _)
        (printed_cons (by decide) (printed_append h.1 (ih h.2))))

theorem printed_stringify (v : Json ν) : Printed (Json.stringify v) := by
  induction v using Json.induct with
  | null => simp [Printed, Json.stringify]
  | bool b => cases b <;> simp [Printed, Json.stringify]
  | num x =>
      rw [Json.stringify]
      split
      · next hx => exact printed_toText hx
      · simp [Printed]
  | str s => exact printed_quote _
  | arr items ih =>
      cases items with
      | nil => simp [Printed, Json.stringify]
      | cons v vs =>
          rw [List.forall_mem_cons] at ih
          exact printed_cons (by decide) (printed_append ih.1 (printed_items ih.2))
  | obj members ih =>
      cases members with
      | nil => simp [Printed, Json.stringify]
      | cons m ms =>
          rw [List.forall_mem_cons] at ih
          exact printed_cons (by decide) (printed_append (printed_quote _)
            (printed_cons (by decide) (printed_append ih.1 (printed_members ih.2))))

theorem newline_not_mem {text : List Char} (h : Printed text) : '\n' ∉ text := by
  intro hmem
  exact absurd (h '\n' hmem) (by decide)

end Text

/-! ### The call -/

namespace MeshLedger

variable [Number ν]

/-- What is on the line of a record: the record as JSON has it, and none of its bodies. -/
structure LineOf (record : List (String × Value ν)) (text : List Char) : Prop where
  unbroken : '\n' ∉ text
  /-- What it reads back as: the value that was written, `null` for a number without a text. -/
  reads : Json.parse text = some (Json.wire (.obj (Value.toMembers record)))
  /-- That is the record, without the fields that are undefined. -/
  exact : (Value.obj record).Writable → ∀ j, Json.parse text = some j →
    Value.ofJson j = (Value.obj record).defined
  hashOnly : ∀ j, Json.parse (ν := ν) text = some j → ¬ Forbidden (Value.ofJson j)

theorem lineOf_record {record : List (String × Value ν)} (hwf : (Value.obj record).WellFormed)
    (hscan : ¬ Forbidden (Value.obj record)) :
    LineOf record (Json.stringify (.obj (Value.toMembers record))) := by
  have hparse := Json.parse_stringify _ (Value.toJson_wellFormed hwf _ rfl)
  refine ⟨newline_not_mem (printed_stringify _), hparse, ?_, ?_⟩
  · intro hwritable j hj
    rw [hparse] at hj
    obtain rfl := Option.some.inj hj
    exact Value.ofJson_wire hwritable _ rfl
  · intro j hj hforbidden
    rw [hparse] at hj
    obtain rfl := Option.some.inj hj
    obtain ⟨k, hk, hkey⟩ := hforbidden
    exact hscan ⟨k, hk, Value.hasKey_of_toJson _ rfl (Value.hasKey_of_wire hkey)⟩

/-- **A record with a forbidden key anywhere throws and changes no file; any other adds one line,
which reads back as the record and has no forbidden key**, as long as the record is not nested
deeper than the engine can follow. -/
theorem append_hash_only (maxBytes : Nat) (dir : Dir (List Char)) (date ts : String)
    (input : LedgerInput ν) (hscans : (Value.obj (record input.members ts)).nesting ≤
      (Number.limits ν).callNesting) (hprints : (Value.obj (record input.members ts)).nesting ≤
      (Number.limits ν).stringifyNesting) :
    (Forbidden (.obj (record input.members ts)) ∧
        append maxBytes dir date ts input = (.error failClosed, dir)) ∨
      (¬ Forbidden (.obj (record input.members ts)) ∧ ∃ text dir',
        append maxBytes dir date ts input = (.ok (record input.members ts), dir') ∧
          LineOf (record input.members ts) text ∧ AddsLine dir (text ++ ['\n']) dir') := by
  unfold append scans
  dsimp only
  rw [decide_eq_true hscans, Bool.and_true, Bool.not_not]
  split
  · next hscan => exact .inl ⟨(hasForbiddenPersistedKey_iff _).mp hscan, rfl⟩
  · next hscan =>
      rw [hasForbiddenPersistedKey_iff] at hscan
      rw [if_neg (Nat.not_lt.mpr hprints)]
      refine .inr ⟨hscan, _, _, rfl, lineOf_record (record_wellFormed input ts) hscan, ?_⟩
      obtain hsame | ⟨n, hfree, hmove⟩ := rotateIfNeeded_cases maxBytes dir date
      · rw [hsame]
        exact append_adds dir _
      · exact rotate_append_adds hfree hmove _

example : hasForbiddenPersistedKey (ν := Int)
    (.obj [("details", .arr [.obj [("body", .undefined)]])]) = true := by decide

/-- An input with one field. -/
def detailsInput (v : Value Int) (h : v.WellFormed) : LedgerInput Int where
  members := [("details", v)]
  wellFormed := by simp [Value.WellFormed, Value.WellFormedMembers, h]

/-- An item that is undefined. -/
def gapInput : LedgerInput Int := detailsInput (.arr [.undefined]) (by
  simp [Value.WellFormed, Value.WellFormedItems])

theorem append_hash_only_gap :
    (Forbidden (.obj (record gapInput.members "t")) ∧
        append 100 Map.empty "2024-01-01" "t" gapInput = (.error failClosed, Map.empty)) ∨
      (¬ Forbidden (.obj (record gapInput.members "t")) ∧ ∃ text dir',
        append 100 Map.empty "2024-01-01" "t" gapInput = (.ok (record gapInput.members "t"), dir') ∧
          LineOf (record gapInput.members "t") text ∧ AddsLine Map.empty (text ++ ['\n']) dir') :=
  append_hash_only 100 Map.empty "2024-01-01" "t" gapInput (by decide) (by decide)

/-- Arrays in one another. -/
def deepValue : Nat → Value Int
  | 0 => .null
  | n + 1 => .arr [deepValue n]

theorem deepValue_spec (n : Nat) : (deepValue n).WellFormed ∧ (deepValue n).nesting = n ∧
    hasForbiddenPersistedKey (deepValue n) = false := by
  induction n with
  | zero => exact ⟨trivial, rfl, rfl⟩
  | succ n ih =>
      obtain ⟨hwf, hnesting, hscan⟩ := ih
      refine ⟨?_, ?_, ?_⟩
      · simp [deepValue, Value.WellFormed, Value.WellFormedItems, hwf]
      · simp [deepValue, Value.nesting, Value.nestingItems, hnesting]
      · simp [deepValue, hasForbiddenPersistedKey, hasForbiddenItem, hscan]

/-- A directory whose ledger is due. -/
def dueDir : Dir (List Char) := Map.empty.set ledgerFileName [['a', '\n']]

/-- Between the two limits the scan goes through and the printing does not. -/
theorem append_overflows {v : Value Int} (hwf : v.WellFormed) (hnesting : v.nesting = 6000)
    (hscan : hasForbiddenPersistedKey v = false) :
    append 0 dueDir "2024-01-01" "t" (detailsInput v hwf) =
      (.error stackOverflow, rotateIfNeeded 0 dueDir "2024-01-01") := by
  have hrecord : record (detailsInput v hwf).members "t" = [("schema", .str ledgerSchema),
      ("details", v), ("ts", .str "t"), ("bodyStored", .bool false)] := by
    simp [record, detailsInput, setEntry]
  have hdepth : (Value.obj (record (detailsInput v hwf).members "t")).nesting = 6001 := by
    rw [hrecord]
    simp [Value.nesting, Value.nestingMembers, hnesting]
  have hscans : scans (.obj (record (detailsInput v hwf).members "t")) = true := by
    unfold scans
    rw [hdepth, hrecord]
    simp only [hasForbiddenPersistedKey, hasForbiddenMember, hscan]
    decide
  unfold append
  dsimp only
  rw [hscans, hdepth, if_neg (by decide), if_pos (by decide)]

/-- An item that is undefined reads back as `null`; and a value that is nested too deep for
`JSON.stringify` throws when the ledger has been moved away. -/
theorem gap_reads_null :
    (∃ text, (append 100 Map.empty "2024-01-01" "t" gapInput).2.get? ledgerFileName
        = some [text ++ ['\n']] ∧
      ∀ j, Json.parse text = some j →
        Value.ofJson j ≠ (Value.obj (record gapInput.members "t")).defined) ∧
    (append 0 dueDir "2024-01-01" "t" (detailsInput (deepValue 6000) (deepValue_spec 6000).1)).1
        = .error stackOverflow ∧
      (append 0 dueDir "2024-01-01" "t" (detailsInput (deepValue 6000)
        (deepValue_spec 6000).1)).2.get? ledgerFileName = none := by
  have hdeep := append_overflows (deepValue_spec 6000).1 (deepValue_spec 6000).2.1
    (deepValue_spec 6000).2.2
  refine ⟨⟨_, rfl, ?_⟩, ?_, ?_⟩
  · intro j hj
    rw [Json.parse_stringify _ (Value.toJson_wellFormed (record_wellFormed gapInput "t") _ rfl)]
      at hj
    obtain rfl := Option.some.inj hj
    intro hsame
    cases hsame
  · rw [hdeep]
  · rw [hdeep]
    decide +kernel

/-! ### The call and its system calls -/

omit [Number ν] in
theorem scan_ofJson (j : Json ν) :
    hasForbiddenPersistedKey (Value.ofJson j) = PiMesh.hasForbiddenPersistedKey j := by
  induction j using Json.induct with
  | arr items ih =>
      rw [Value.ofJson, hasForbiddenPersistedKey, PiMesh.hasForbiddenPersistedKey]
      induction items with
      | nil => rfl
      | cons v vs ihvs =>
          rw [List.forall_mem_cons] at ih
          rw [Value.ofItems, hasForbiddenItem, PiMesh.hasForbiddenItem, ih.1, ihvs ih.2]
  | obj members ih =>
      rw [Value.ofJson, hasForbiddenPersistedKey, PiMesh.hasForbiddenPersistedKey]
      induction members with
      | nil => rfl
      | cons m ms ihms =>
          rw [List.forall_mem_cons] at ih
          rw [Value.ofMembers, hasForbiddenMember, PiMesh.hasForbiddenMember, ih.1, ihms ih.2]
  | _ => rfl

omit [Number ν] in
theorem setEntry_ofMembers (k : String) (j : Json ν) (ms : List (String × Json ν)) :
    setEntry k (Value.ofJson j) (Value.ofMembers ms) = Value.ofMembers (setEntry k j ms) := by
  induction ms with
  | nil => rfl
  | cons m ms ih =>
      rw [Value.ofMembers, setEntry, setEntry]
      split
      · rfl
      · rw [ih, Value.ofMembers]

omit [Number ν] in
theorem spread_ofMembers (input : List (String × Json ν)) : ∀ ms : List (String × Json ν),
    (Value.ofMembers input).foldl (fun ms e => setEntry e.1 e.2 ms) (Value.ofMembers ms) =
      Value.ofMembers (input.foldl (fun ms e => withMember ms e.1 e.2) ms) := by
  induction input with
  | nil => exact fun ms => rfl
  | cons m input ih =>
      intro ms
      rw [Value.ofMembers, List.foldl_cons, List.foldl_cons, setEntry_ofMembers]
      exact ih _

omit [Number ν] in
/-- Where nothing is undefined, the record is the one the system calls carry. -/
theorem record_ofMembers (input : Members ν) (ts : String) :
    record (Value.ofMembers input) ts = Value.ofMembers (ledgerRecord input ts) := by
  unfold record ledgerRecord
  dsimp only
  unfold withMember
  rw [← setEntry_ofMembers, ← setEntry_ofMembers]
  exact congrArg (fun ms => setEntry "bodyStored" (.bool false) (setEntry "ts" (.str ts) ms))
    (spread_ofMembers input [("schema", .str ledgerSchema)])

variable {dir : Dir (List Char)} {p : Nat}

/-- A state directory in which session `p` alone is at a call. -/
def alone (dir : Dir (List Char)) (p : Nat) (c : AppendAt ν) : LedgerState ν :=
  { dir, calls := Map.empty.set p c }

omit [Number ν] in
theorem alone_done (c : AppendAt ν) :
    ({ dir, calls := (alone dir p c).calls.delete p } : LedgerState ν) = .atRest dir := by
  rw [alone, Map.delete_set_self, Map.delete_of_get?_eq_none rfl, LedgerState.atRest]

/-- A system call of session `p`, which does not throw. -/
def OfCall (p : Nat) (date : String) (x : LedgerState ν × Nat × LedgerEvent ν) : Prop :=
  x.2.1 = p ∧ (x.2.2 = .stat date ∨ x.2.2 = .probe ∨ x.2.2 = .move ∨ x.2.2 = .write)

/-- The probes end at the first free name. -/
theorem probes_run (maxBytes : Nat) (record : Members ν) (date : String) (fuel : Nat) : ∀ n,
    dir.get? (rotatedName date (freeIndex dir date fuel n)) = none →
      ∃ tr, Run (LedgerStep fun _ => maxBytes) (alone dir p (.probe record date n)) tr
        (alone dir p (.move record date (freeIndex dir date fuel n))) ∧
        ∀ x ∈ tr, OfCall p date x := by
  have hfree : ∀ n, dir.has (rotatedName date n) = false →
      LedgerStep (fun _ => maxBytes) (alone dir p (.probe record date n)) (p, .probe)
        (alone dir p (.move record date n)) := by
    intro n hn
    simp [LedgerStep, LedgerState.step, alone, hn, Map.set_set]
  have htaken : ∀ n, dir.has (rotatedName date n) = true →
      LedgerStep (fun _ => maxBytes) (alone dir p (.probe record date n)) (p, .probe)
        (alone dir p (.probe record date (n + 1))) := by
    intro n hn
    simp [LedgerStep, LedgerState.step, alone, hn, Map.set_set]
  induction fuel with
  | zero =>
      intro n hn
      rw [freeIndex] at hn ⊢
      exact ⟨_, .cons (hfree n (by simp [Map.has, hn])) .nil, by simp [OfCall]⟩
  | succ fuel ih =>
      intro n hn
      rw [freeIndex] at hn ⊢
      by_cases hhas : dir.has (rotatedName date n) = true
      · rw [if_pos hhas] at hn ⊢
        obtain ⟨tr, hrun, hcalls⟩ := ih (n + 1) hn
        exact ⟨_, .cons (htaken n hhas) hrun, List.forall_mem_cons.mpr ⟨by simp [OfCall], hcalls⟩⟩
      · rw [if_neg hhas]
        exact ⟨_, .cons (hfree n (by simpa using hhas)) .nil, by simp [OfCall]⟩

/-- The rotation, and the call stands before its write. -/
theorem rotate_run (maxBytes : Nat) (record : Members ν) (date : String) :
    ∃ tr, Run (LedgerStep fun _ => maxBytes) (alone dir p (.stat record)) tr
      (alone (rotateIfNeeded maxBytes dir date) p (.write record)) ∧ ∀ x ∈ tr, OfCall p date x := by
  unfold rotateIfNeeded
  split
  · next hnone =>
      have hstat : LedgerStep (fun _ => maxBytes) (alone dir p (.stat record)) (p, .stat date)
          (alone dir p (.write record)) := by
        simp [LedgerStep, LedgerState.step, alone, hnone, Map.set_set]
      exact ⟨_, .cons hstat .nil, by simp [OfCall]⟩
  · next lines hlines =>
      split
      · next hle =>
          have hstat : LedgerStep (fun _ => maxBytes) (alone dir p (.stat record)) (p, .stat date)
              (alone dir p (.write record)) := by
            simp [LedgerStep, LedgerState.step, alone, hlines, hle, Map.set_set]
          exact ⟨_, .cons hstat .nil, by simp [OfCall]⟩
      · next hlong =>
          have hstat : LedgerStep (fun _ => maxBytes) (alone dir p (.stat record))
              (p, .stat date) (alone dir p (.probe record date 1)) := by
            simp [LedgerStep, LedgerState.step, alone, hlines, hlong, Map.set_set]
          obtain ⟨tr, hprobes, hcalls⟩ := probes_run (p := p) maxBytes record date dir.size 1
            (freeIndex_free dir date)
          split
          · next hmove => simp [rename, hlines] at hmove
          · next rotated hmove =>
              have hstep : LedgerStep (fun _ => maxBytes)
                  (alone dir p (.move record date (freeIndex dir date dir.size 1))) (p, .move)
                  (alone rotated p (.write record)) := by
                simp [LedgerStep, LedgerState.step, alone, hmove, Map.set_set]
              refine ⟨_, .cons hstat (hprobes.append (.cons hstep .nil)), ?_⟩
              exact List.forall_mem_cons.mpr ⟨by simp [OfCall],
                List.forall_mem_append.mpr ⟨hcalls, by simp [OfCall]⟩⟩

/-- **A session that is alone does in its system calls what `append` does as one call**, where
none of them throws. -/
theorem append_run (p maxBytes : Nat) (dir : Dir (List Char)) (date ts : String)
    (input : Members ν) (hwf : (Value.obj (Value.ofMembers input)).WellFormed)
    (hscans : (Value.obj (record (Value.ofMembers input) ts)).nesting ≤
      (Number.limits ν).callNesting)
    (hprints : (Value.obj (record (Value.ofMembers input) ts)).nesting ≤
      (Number.limits ν).stringifyNesting) :
    ∃ tr, Run (LedgerStep (ν := ν) fun _ => maxBytes) (.atRest dir)
        ((.atRest dir, p, .append input ts) :: tr)
        (.atRest (append maxBytes dir date ts ⟨Value.ofMembers input, hwf⟩).2) ∧
      ∀ x ∈ tr, OfCall p date x := by
  unfold append scans
  dsimp only
  rw [decide_eq_true hscans, Bool.and_true, Bool.not_not, if_neg (Nat.not_lt.mpr hprints),
    record_ofMembers]
  have hscan := scan_ofJson (ν := ν) (.obj (ledgerRecord input ts))
  rw [Value.ofJson] at hscan
  rw [hscan]
  split
  · next hforbidden =>
      have hstep : LedgerStep (fun _ => maxBytes) (.atRest dir) (p, .append input ts)
          (.atRest dir) := by
        simp [LedgerStep, LedgerState.step, LedgerState.atRest, hforbidden]
      exact ⟨[], .cons hstep .nil, by simp⟩
  · next hclean =>
      have hstart : LedgerStep (fun _ => maxBytes) (.atRest dir) (p, .append input ts)
          (alone dir p (.stat (ledgerRecord input ts))) := by
        simp [LedgerStep, LedgerState.step, LedgerState.atRest, hclean, alone]
      obtain ⟨tr, hrotate, hcalls⟩ := rotate_run (p := p) maxBytes
        (ledgerRecord input ts) date
      have hwrite : LedgerStep (fun _ => maxBytes)
          (alone (rotateIfNeeded maxBytes dir date) p (.write (ledgerRecord input ts))) (p, .write)
          (.atRest (Files.append (rotateIfNeeded maxBytes dir date) ledgerFileName
            (ledgerLine (ledgerRecord input ts)))) := by
        rw [← alone_done (.write (ledgerRecord input ts)) (p := p)]
        simp [LedgerStep, LedgerState.step, alone]
      rw [Value.toMembers_ofMembers]
      exact ⟨_, .cons hstart (hrotate.append (.cons hwrite .nil)),
        List.forall_mem_append.mpr ⟨hcalls, by simp [OfCall]⟩⟩

/-- One record in an empty directory. -/
theorem append_run_one : ∃ tr, Run (LedgerStep (ν := Int) fun _ => 100) (.atRest Map.empty)
      ((.atRest Map.empty, 0, .append [("event", .str "cc")] "t") :: tr)
      (.atRest (append 100 Map.empty "2024-01-01" "t"
        ⟨Value.ofMembers ([("event", .str "cc")] : Members Int),
          ⟨List.nodup_singleton _, trivial, trivial⟩⟩).2) ∧
    ∀ x ∈ tr, OfCall 0 "2024-01-01" x :=
  append_run 0 100 Map.empty "2024-01-01" "t" [("event", .str "cc")] _ (by decide) (by decide)

end MeshLedger

end PiMesh
