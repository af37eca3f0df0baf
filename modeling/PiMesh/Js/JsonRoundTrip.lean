/-
Reading back what was written.

`parse_stringify` is the one fact the rest of a development needs about JSON text:
`JSON.parse` undoes `JSON.stringify`, up to the numbers no text can denote.  It is
proved for every value whose objects do not repeat a member name, and
`parse_wellFormed` says that `parse` itself makes only such values.

Everything is stated with the text that follows, since a value is read in the
middle of a longer text.  What follows must not continue a number literal, which is
what `Ends` says; a comma, a closing bracket and the end of the text all qualify.
-/
import PiMesh.Js.Json

namespace Js

namespace Json

variable {ν : Type} [Number ν]

/-! ### Strings -/

theorem hexValue_hexDigit : ∀ n, n < 16 → hexValue (hexDigit n) = some n := by decide

/-- Reading an escaped character gives it back and moves past it. -/
theorem parseChars_escapeChar (c : Char) (fuel : Nat) (r : List Char) :
    parseChars (fuel + 1) (escapeChar c ++ r)
      = (parseChars fuel r).map fun p => (c :: p.1, p.2) := by
  have hofNat : ∀ n, c.toNat = n → Char.ofNat n = c := by
    rintro n rfl
    exact Char.ofNat_toNat c
  unfold escapeChar
  by_cases h1 : c = '"'
  · subst h1
    simp [parseChars, parseEscape]
  by_cases h2 : c = '\\'
  · subst h2
    simp [parseChars, parseEscape]
  rw [if_neg h1, if_neg h2]
  by_cases h3 : c.toNat = 8
  · rw [if_pos h3, ← hofNat 8 h3]
    simp [parseChars, parseEscape]
  by_cases h4 : c.toNat = 12
  · rw [if_neg h3, if_pos h4, ← hofNat 12 h4]
    simp [parseChars, parseEscape]
  by_cases h5 : c.toNat = 10
  · have hc : c = '\n' := (hofNat 10 h5).symm
    rw [if_neg h3, if_neg h4, if_pos h5]
    simp [parseChars, parseEscape, hc]
  by_cases h6 : c.toNat = 13
  · have hc : c = '\r' := (hofNat 13 h6).symm
    rw [if_neg h3, if_neg h4, if_neg h5, if_pos h6]
    simp [parseChars, parseEscape, hc]
  by_cases h7 : c.toNat = 9
  · have hc : c = '\t' := (hofNat 9 h7).symm
    rw [if_neg h3, if_neg h4, if_neg h5, if_neg h6, if_pos h7]
    simp [parseChars, parseEscape, hc]
  rw [if_neg h3, if_neg h4, if_neg h5, if_neg h6, if_neg h7]
  by_cases h8 : c.toNat < 32
  · -- a control character without a short escape is written as `\u00xy`
    have hhi := hexValue_hexDigit (c.toNat / 16) (by omega)
    have hlo := hexValue_hexDigit (c.toNat % 16) (by omega)
    have hhex : hex4 '0' '0' (hexDigit (c.toNat / 16)) (hexDigit (c.toNat % 16))
        = some c.toNat := by
      have hz : hexValue '0' = some 0 := rfl
      simp only [hex4, hz, hhi, hlo, Option.bind_eq_bind, Option.bind_some, Option.pure_def,
        Option.some.injEq]
      omega
    rw [if_pos h8]
    have hsmall : c.toNat < 0xD800 ∨ 0xDFFF < c.toNat := by omega
    simp [parseChars, parseEscape, hhex, hsmall, Char.ofNat_toNat]
  · rw [if_neg h8]
    simp [parseChars, h1, h2, h8]

theorem parseChars_escaped (s : List Char) (r : List Char) :
    ∀ fuel, (s.flatMap escapeChar).length < fuel →
      parseChars fuel (s.flatMap escapeChar ++ '"' :: r) = some (s, r) := by
  induction s with
  | nil =>
      intro fuel hfuel
      obtain ⟨k, rfl⟩ := Nat.exists_eq_succ_of_ne_zero (Nat.ne_of_gt (Nat.zero_lt_of_lt hfuel))
      simp [parseChars]
  | cons c rest ih =>
      intro fuel hfuel
      have hpos : 0 < (escapeChar c).length := by
        unfold escapeChar
        split_ifs <;> simp
      rw [List.flatMap_cons, List.length_append] at hfuel
      obtain ⟨k, rfl⟩ : ∃ k, fuel = k + 1 := ⟨fuel - 1, by omega⟩
      rw [List.flatMap_cons, List.append_assoc, parseChars_escapeChar, ih k (by omega)]
      rfl

theorem parseChars_quote (s r : List Char) (tail : List Char)
    (htail : tail = s.flatMap escapeChar ++ '"' :: r) :
    parseChars (tail.length + 1) tail = some (s, r) := by
  subst htail
  refine parseChars_escaped s r _ ?_
  rw [List.length_append]
  omega

/-! ### Numbers -/

/-- What follows does not continue a number literal. -/
def Ends (r : List Char) : Prop := ∀ c r', r = c :: r' → isNumberChar c = false

theorem ends_nil : Ends [] := by intro c r' h; simp at h

theorem ends_cons {c : Char} (r : List Char) (h : isNumberChar c = false) : Ends (c :: r) := by
  intro c' r' hc
  rw [List.cons.injEq] at hc
  rw [← hc.1]
  exact h

theorem span_number {l r : List Char} (hl : l.all isNumberChar = true) (hr : Ends r) :
    (l ++ r).takeWhile isNumberChar = l ∧ (l ++ r).dropWhile isNumberChar = r := by
  induction l with
  | nil =>
      cases r with
      | nil => simp
      | cons c r' => simp [hr c r' rfl]
  | cons c rest ih =>
      rw [List.all_cons, Bool.and_eq_true] at hl
      obtain ⟨ht, hd⟩ := ih hl.2
      simp [hl.1, ht, hd]

theorem parseNumber_toText {x : ν} (hx : Number.isFinite x = true) {r : List Char}
    (hr : Ends r) : parseNumber (Number.toText x ++ r) = some (x, r) := by
  have hlit := Number.toText_literal x hx
  have hall : (Number.toText x).all isNumberChar = true := by
    unfold isNumberLiteral at hlit
    rw [Bool.and_eq_true] at hlit
    exact hlit.1
  obtain ⟨ht, hd⟩ := span_number hall hr
  simp only [parseNumber, ht, hd, hlit, if_true, Number.ofLiteral_toText x hx]

/-- A number literal starts with a digit or a minus sign. -/
theorem literal_head {l : List Char} (h : isNumberLiteral l = true) :
    ∃ c r, l = c :: r ∧ (c.isDigit = true ∨ c = '-') := by
  unfold isNumberLiteral at h
  rw [Bool.and_eq_true] at h
  cases l with
  | nil => simp [isUnsignedLiteral] at h
  | cons c r =>
      refine ⟨c, r, rfl, ?_⟩
      by_cases hm : c = '-'
      · exact Or.inr hm
      by_cases hz : c = '0'
      · exact Or.inl (by rw [hz]; rfl)
      have h2 := h.2
      left
      split at h2
      · simp_all
      · unfold isUnsignedLiteral at h2
        split at h2
        · simp_all
        · simp_all
        · simp_all

/-- The first character of a literal starts no other token. -/
theorem digit_or_minus_ne {c : Char} (h : c.isDigit = true ∨ c = '-') :
    c ≠ 'n' ∧ c ≠ 't' ∧ c ≠ 'f' ∧ c ≠ '"' ∧ c ≠ '[' ∧ c ≠ '\x7b' ∧ isJsonSpace c = false := by
  rcases h with h | rfl
  · refine ⟨?_, ?_, ?_, ?_, ?_, ?_, ?_⟩
    iterate 6 (rintro rfl; exact absurd h (by decide))
    unfold isJsonSpace
    have hsp : ∀ d : Char, d.isDigit = false → (c == d) = false := by
      intro d hd
      rw [beq_eq_false_iff_ne]
      rintro rfl
      rw [hd] at h
      exact Bool.noConfusion h
    rw [hsp ' ' rfl, hsp '\t' rfl, hsp '\n' rfl, hsp '\r' rfl]
    rfl
  · decide

/-! ### Values -/

theorem skipSpace_cons {c : Char} (r : List Char) (h : isJsonSpace c = false) :
    skipSpace (c :: r) = c :: r := by
  simp [skipSpace, h]

/-- Nothing `stringify` writes starts with whitespace. -/
theorem stringify_head (v : Json ν) :
    ∃ c r, stringify v = c :: r ∧ isJsonSpace c = false ∧ c ≠ ']' := by
  cases v with
  | null => exact ⟨'n', _, rfl, rfl, by decide⟩
  | bool b => cases b <;> exact ⟨_, _, rfl, rfl, by decide⟩
  | num x =>
      by_cases hx : Number.isFinite x = true
      · obtain ⟨c, r, hcr, hc⟩ := literal_head (Number.toText_literal x hx)
        refine ⟨c, r, by rw [stringify, if_pos hx, hcr], (digit_or_minus_ne hc).2.2.2.2.2.2, ?_⟩
        rintro rfl
        exact absurd hc (by decide)
      · exact ⟨'n', _, by rw [stringify, if_neg hx], rfl, by decide⟩
  | str s => exact ⟨'"', _, rfl, rfl, by decide⟩
  | arr items => cases items <;> exact ⟨'[', _, rfl, rfl, by decide⟩
  | obj members => cases members <;> exact ⟨'\x7b', _, rfl, rfl, by decide⟩

theorem parseValue_num {x : ν} (hx : Number.isFinite x = true) (fuel : Nat) {r : List Char}
    (hr : Ends r) :
    parseValue (fuel + 1) (Number.toText x ++ r) = some (num x, r) := by
  obtain ⟨c, l, hcl, hc⟩ := literal_head (Number.toText_literal x hx)
  obtain ⟨h1, h2, h3, h4, h5, h6, h7⟩ := digit_or_minus_ne hc
  have hnum := parseNumber_toText hx hr
  rw [hcl, List.cons_append] at hnum ⊢
  rw [parseValue, skipSpace_cons _ h7]
  split
  · simp_all
  · simp_all
  · simp_all
  · simp_all
  · simp_all
  · simp_all
  · rw [hnum]
    rfl

theorem parseValue_quote (fuel : Nat) (s : String) (r : List Char) :
    parseValue (ν := ν) (fuel + 1) (quote s.toList ++ r) = some (str s, r) := by
  have hq : quote s.toList ++ r
      = '"' :: (s.toList.flatMap escapeChar ++ '"' :: r) := by
    simp [quote]
  rw [hq, parseValue, skipSpace_cons _ rfl]
  simp only
  rw [parseChars_quote s.toList r _ rfl]
  simp

/-- Where names are distinct, entering the members one by one keeps them as they are. -/
theorem foldl_setEntry_of_nodup {α : Type} (l acc : List (String × α))
    (h : ((acc ++ l).map Prod.fst).Nodup) :
    l.foldl (fun l m => setEntry m.1 m.2 l) acc = acc ++ l := by
  induction l generalizing acc with
  | nil => simp
  | cons m ms ih =>
      have hnew : m.1 ∉ acc.map Prod.fst := by
        rw [List.map_append, List.nodup_append] at h
        intro hc
        exact h.2.2 _ hc _ (by simp) rfl
      have happ : ∀ acc : List (String × α), m.1 ∉ acc.map Prod.fst →
          setEntry m.1 m.2 acc = acc ++ [m] := by
        intro acc
        induction acc with
        | nil => intro _; rfl
        | cons e rest ihe =>
            intro hc
            rw [List.map_cons, List.mem_cons, not_or] at hc
            rw [setEntry, if_neg (fun he => hc.1 he.symm), ihe hc.2, List.cons_append]
      rw [List.foldl_cons, happ acc hnew, ih (acc ++ [m]) (by simpa using h)]
      simp

theorem keys_wireMembers (ms : List (String × Json ν)) :
    (wireMembers ms).map Prod.fst = ms.map Prod.fst := by
  induction ms with
  | nil => rfl
  | cons m ms ih => simp [wireMembers, ih]

/-- What the induction carries: `v` is read back whole, whatever ends it. -/
def ReadsBack (v : Json ν) : Prop :=
  ∀ (r : List Char) (fuel : Nat), Ends r → 2 * (stringify v).length ≤ fuel →
    parseValue fuel (stringify v ++ r) = some (wire v, r)

theorem stringify_length_pos (v : Json ν) : 0 < (stringify v).length := by
  obtain ⟨c, r, h, -⟩ := stringify_head v
  rw [h]
  simp

theorem parseItems_stringify (v : Json ν) (vs : List (Json ν))
    (h : ∀ w ∈ v :: vs, ReadsBack w) (r : List Char) :
    ∀ fuel, 2 * (stringify v ++ stringifyItems vs).length ≤ fuel + 1 →
      parseItems fuel (stringify v ++ (stringifyItems vs ++ r))
        = some (wire v :: wireItems vs, r) := by
  induction vs generalizing v with
  | nil =>
      intro fuel hfuel
      have hpos := stringify_length_pos v
      simp only [stringifyItems, List.length_append, List.length_singleton] at hfuel
      obtain ⟨k, rfl⟩ : ∃ k, fuel = k + 1 := ⟨fuel - 1, by omega⟩
      have hv := h v (by simp) (']' :: r) k (ends_cons r rfl) (by omega)
      rw [parseItems]
      simp only [stringifyItems, List.cons_append, List.nil_append]
      rw [hv]
      simp [skipSpace_cons, isJsonSpace, wireItems]
  | cons w ws ih =>
      intro fuel hfuel
      have hpos := stringify_length_pos v
      simp only [stringifyItems, List.length_append, List.length_cons] at hfuel
      obtain ⟨k, rfl⟩ : ∃ k, fuel = k + 1 := ⟨fuel - 1, by omega⟩
      have hv := h v (by simp) (',' :: (stringify w ++ (stringifyItems ws ++ r))) k
        (ends_cons _ rfl) (by omega)
      have hws := ih w (fun u hu => h u (List.mem_cons_of_mem v hu)) k
        (by rw [List.length_append]; omega)
      rw [parseItems]
      simp only [stringifyItems, List.cons_append, List.append_assoc]
      rw [hv]
      simp [skipSpace_cons, isJsonSpace, hws, wireItems]

/-- The name of a member is read, and its value from behind the colon. -/
theorem parseMembers_last {name : String} {fuel : Nat} {tail r r' : List Char} {v : Json ν}
    (hv : parseValue fuel tail = some (v, r)) (hr : skipSpace r = '\x7d' :: r') :
    parseMembers (fuel + 1) (quote name.toList ++ ':' :: tail) = some ([(name, v)], r') := by
  have hq : quote name.toList ++ ':' :: tail
      = '"' :: (name.toList.flatMap escapeChar ++ '"' :: (':' :: tail)) := by
    simp [quote]
  rw [hq, parseMembers, skipSpace_cons _ rfl]
  simp only
  rw [parseChars_quote name.toList (':' :: tail) _ rfl]
  simp only [skipSpace_cons _ (show isJsonSpace ':' = false from rfl), hv, hr, String.ofList_toList]

theorem parseMembers_more {name : String} {fuel : Nat} {tail r r' : List Char} {v : Json ν}
    (hv : parseValue fuel tail = some (v, r)) (hr : skipSpace r = ',' :: r') :
    parseMembers (fuel + 1) (quote name.toList ++ ':' :: tail) =
      (parseMembers fuel r').map fun p => ((name, v) :: p.1, p.2) := by
  have hq : quote name.toList ++ ':' :: tail
      = '"' :: (name.toList.flatMap escapeChar ++ '"' :: (':' :: tail)) := by
    simp [quote]
  rw [hq, parseMembers, skipSpace_cons _ rfl]
  simp only
  rw [parseChars_quote name.toList (':' :: tail) _ rfl]
  simp only [skipSpace_cons _ (show isJsonSpace ':' = false from rfl), hv, hr, String.ofList_toList]

theorem parseMembers_stringify (m : String × Json ν) (ms : List (String × Json ν))
    (h : ∀ n ∈ m :: ms, ReadsBack n.2) (r : List Char) :
    ∀ fuel, 2 * (quote m.1.toList ++ ':' :: (stringify m.2 ++ stringifyMembers ms)).length
        ≤ fuel + 1 →
      parseMembers fuel
          (quote m.1.toList ++ ':' :: (stringify m.2 ++ (stringifyMembers ms ++ r)))
        = some ((m.1, wire m.2) :: wireMembers ms, r) := by
  induction ms generalizing m with
  | nil =>
      intro fuel hfuel
      have hpos := stringify_length_pos m.2
      simp only [stringifyMembers, List.length_append, List.length_cons, List.length_nil] at hfuel
      obtain ⟨k, rfl⟩ : ∃ k, fuel = k + 1 := ⟨fuel - 1, by omega⟩
      have hv := h m (by simp) ('\x7d' :: r) k (ends_cons r rfl) (by omega)
      simp only [stringifyMembers, List.cons_append, List.nil_append]
      rw [parseMembers_last hv (skipSpace_cons _ rfl)]
      rfl
  | cons n ns ih =>
      intro fuel hfuel
      have hpos := stringify_length_pos m.2
      simp only [stringifyMembers, List.length_append, List.length_cons] at hfuel
      obtain ⟨k, rfl⟩ : ∃ k, fuel = k + 1 := ⟨fuel - 1, by omega⟩
      have hv := h m (by simp)
        (',' :: (quote n.1.toList ++ ':' :: (stringify n.2 ++ (stringifyMembers ns ++ r)))) k
        (ends_cons _ rfl) (by omega)
      have hns := ih n (fun u hu => h u (List.mem_cons_of_mem m hu)) k
        (by simp only [List.length_append, List.length_cons]; omega)
      simp only [stringifyMembers, List.cons_append, List.append_assoc]
      rw [parseMembers_more hv (skipSpace_cons _ rfl), hns]
      rfl

omit [Number ν] in
theorem wellFormedItems_iff (l : List (Json ν)) :
    WellFormedItems l ↔ ∀ v ∈ l, WellFormed v := by
  induction l with
  | nil => simp [WellFormedItems]
  | cons v vs ih => simp [WellFormedItems, ih]

omit [Number ν] in
theorem wellFormedMembers_iff (l : List (String × Json ν)) :
    WellFormedMembers l ↔ ∀ m ∈ l, WellFormed m.2 := by
  induction l with
  | nil => simp [WellFormedMembers]
  | cons m ms ih => simp only [WellFormedMembers, ih, List.forall_mem_cons]

/-- Every well-formed value is read back, in the middle of any text. -/
theorem readsBack (v : Json ν) (hwf : WellFormed v) : ReadsBack v := by
  induction v using induct with
  | null =>
      intro r fuel _ hfuel
      obtain ⟨k, rfl⟩ : ∃ k, fuel = k + 1 := ⟨fuel - 1, by simp [stringify] at hfuel; omega⟩
      simp [stringify, parseValue, skipSpace_cons, isJsonSpace, wire]
  | bool b =>
      intro r fuel _ hfuel
      cases b <;>
        (obtain ⟨k, rfl⟩ : ∃ k, fuel = k + 1 := ⟨fuel - 1, by simp [stringify] at hfuel; omega⟩
         simp [stringify, parseValue, skipSpace_cons, isJsonSpace, wire])
  | num x =>
      intro r fuel hr hfuel
      have hpos := stringify_length_pos (num x)
      obtain ⟨k, rfl⟩ : ∃ k, fuel = k + 1 := ⟨fuel - 1, by omega⟩
      by_cases hx : Number.isFinite x = true
      · rw [stringify, if_pos hx, parseValue_num hx k hr, wire, if_pos hx]
      · rw [stringify, if_neg hx, wire, if_neg hx]
        simp [parseValue, skipSpace_cons, isJsonSpace]
  | str s =>
      intro r fuel _ hfuel
      have hpos := stringify_length_pos (str s : Json ν)
      obtain ⟨k, rfl⟩ : ∃ k, fuel = k + 1 := ⟨fuel - 1, by omega⟩
      rw [stringify, parseValue_quote, wire]
  | arr items ih =>
      intro r fuel hr hfuel
      have hpos := stringify_length_pos (arr items)
      obtain ⟨k, rfl⟩ : ∃ k, fuel = k + 1 := ⟨fuel - 1, by omega⟩
      rw [WellFormed, wellFormedItems_iff] at hwf
      cases items with
      | nil => simp [stringify, parseValue, skipSpace_cons, isJsonSpace, wire, wireItems]
      | cons v vs =>
          rw [stringify, List.length_cons] at hfuel
          have hitems := parseItems_stringify v vs (fun w hw => ih w hw (hwf w hw)) r k (by omega)
          obtain ⟨c, l, hcl, hsp, hbr⟩ := stringify_head v
          have hskip : skipSpace (stringify v ++ (stringifyItems vs ++ r))
              = c :: (l ++ (stringifyItems vs ++ r)) := by
            rw [hcl, List.cons_append, skipSpace_cons _ hsp]
          rw [stringify, List.cons_append, List.append_assoc, parseValue, skipSpace_cons _ rfl]
          simp only [hskip]
          split
          · next heq => simp_all
          · rw [hitems]
            simp [wire, wireItems]
  | obj members ih =>
      intro r fuel hr hfuel
      have hpos := stringify_length_pos (obj members)
      obtain ⟨k, rfl⟩ : ∃ k, fuel = k + 1 := ⟨fuel - 1, by omega⟩
      rw [WellFormed, wellFormedMembers_iff] at hwf
      obtain ⟨hnd, hmem⟩ := hwf
      cases members with
      | nil => simp [stringify, parseValue, skipSpace_cons, isJsonSpace, wire, wireMembers]
      | cons m ms =>
          rw [stringify, List.length_cons] at hfuel
          have hms := parseMembers_stringify m ms (fun n hn => ih n hn (hmem n hn)) r k (by omega)
          have hfold : ((m.1, wire m.2) :: wireMembers ms).foldl
              (fun l m => setEntry m.1 m.2 l) [] = (m.1, wire m.2) :: wireMembers ms := by
            refine foldl_setEntry_of_nodup _ [] ?_
            rw [List.nil_append, List.map_cons, keys_wireMembers]
            simpa using hnd
          have hskip : skipSpace (quote m.1.toList
                ++ ':' :: (stringify m.2 ++ (stringifyMembers ms ++ r)))
              = quote m.1.toList ++ ':' :: (stringify m.2 ++ (stringifyMembers ms ++ r)) := by
            rw [quote, List.cons_append, skipSpace_cons _ rfl]
          rw [stringify, List.cons_append, List.append_assoc, List.cons_append, List.append_assoc,
            parseValue, skipSpace_cons _ rfl]
          simp only [hskip]
          split
          · next heq => simp [quote] at heq
          · rw [hms]
            simp only [Option.map_some, hfold, wire, wireMembers]

/-- **`JSON.parse` undoes `JSON.stringify`.** -/
theorem parse_stringify (v : Json ν) (hwf : WellFormed v) :
    parse (stringify v) = some (wire v) := by
  have h := readsBack v hwf [] (2 * (stringify v).length + 1) ends_nil (by omega)
  rw [List.append_nil] at h
  rw [parse, h]
  simp [skipSpace]

/-! ### The value that comes back -/

theorem wireItems_eq_map (items : List (Json ν)) : wireItems items = items.map wire := by
  induction items with
  | nil => rfl
  | cons v vs ih => rw [wireItems, ih, List.map_cons]

theorem wireMembers_eq_map (ms : List (String × Json ν)) :
    wireMembers ms = ms.map fun m => (m.1, wire m.2) := by
  induction ms with
  | nil => rfl
  | cons m ms ih => rw [wireMembers, ih, List.map_cons]

theorem lookupEntry_wireMembers (k : String) (ms : List (String × Json ν)) :
    lookupEntry k (wireMembers ms) = (lookupEntry k ms).map wire := by
  induction ms with
  | nil => rfl
  | cons m rest ih =>
      rw [wireMembers, lookupEntry, lookupEntry]
      by_cases h : m.1 = k
      · simp [h]
      · simp [h, ih]

/-- Its text is the text it came from. -/
theorem stringify_wire (v : Json ν) : stringify (wire v) = stringify v := by
  induction v using induct with
  | null => rfl
  | bool b => rfl
  | str s => rfl
  | num x =>
      rw [wire]
      split
      · rfl
      · next hx => rw [stringify, stringify, if_neg hx]
  | arr items ih =>
      have hitems : ∀ l : List (Json ν), (∀ v ∈ l, stringify (wire v) = stringify v) →
          stringifyItems (wireItems l) = stringifyItems l := by
        intro l
        induction l with
        | nil => intro _; rfl
        | cons v vs ihl =>
            intro h
            rw [wireItems, stringifyItems, stringifyItems, h v (by simp),
              ihl fun w hw => h w (List.mem_cons_of_mem _ hw)]
      cases items with
      | nil => rfl
      | cons v vs =>
          rw [wire, wireItems, stringify, stringify, ih v (by simp),
            hitems vs fun w hw => ih w (List.mem_cons_of_mem _ hw)]
  | obj members ih =>
      have hmembers : ∀ l : List (String × Json ν), (∀ m ∈ l, stringify (wire m.2) = stringify m.2) →
          stringifyMembers (wireMembers l) = stringifyMembers l := by
        intro l
        induction l with
        | nil => intro _; rfl
        | cons m ms ihl =>
            intro h
            rw [wireMembers, stringifyMembers, stringifyMembers, h m (by simp),
              ihl fun n hn => h n (List.mem_cons_of_mem _ hn)]
      cases members with
      | nil => rfl
      | cons m ms =>
          rw [wire, wireMembers, stringify, stringify, ih m (by simp),
            hmembers ms fun n hn => ih n (List.mem_cons_of_mem _ hn)]

/-! ### What `parse` makes is well formed -/

omit [Number ν] in
theorem wellFormedMembers_setEntry {k : String} {v : Json ν} (hv : WellFormed v)
    {l : List (String × Json ν)} (hl : WellFormedMembers l) :
    WellFormedMembers (setEntry k v l) := by
  induction l with
  | nil => simp [setEntry, WellFormedMembers, hv]
  | cons m ms ih =>
      rw [WellFormedMembers] at hl
      rw [setEntry]
      split
      · exact ⟨hv, hl.2⟩
      · exact ⟨hl.1, ih hl.2⟩

omit [Number ν] in
theorem nodup_keys_setEntry {k : String} {v : Json ν} {l : List (String × Json ν)}
    (h : (l.map Prod.fst).Nodup) : ((setEntry k v l).map Prod.fst).Nodup :=
  (Map.set ⟨l, h⟩ k v).nodup

omit [Number ν] in
theorem wellFormed_foldl (l acc : List (String × Json ν)) (hl : WellFormedMembers l)
    (hacc : WellFormed (obj acc)) :
    WellFormed (obj (l.foldl (fun l m => setEntry m.1 m.2 l) acc)) := by
  induction l generalizing acc with
  | nil => exact hacc
  | cons m ms ih =>
      rw [WellFormed] at hacc
      rw [WellFormedMembers] at hl
      exact ih _ hl.2 ⟨nodup_keys_setEntry hacc.1, wellFormedMembers_setEntry hl.1 hacc.2⟩

/-- The three parsers at once, by induction on the fuel they share. -/
theorem parseValue_wellFormed : ∀ (fuel : Nat),
    (∀ text (v : Json ν) r, parseValue fuel text = some (v, r) → WellFormed v) ∧
    (∀ text (vs : List (Json ν)) r, parseItems fuel text = some (vs, r) → WellFormedItems vs) ∧
    (∀ text (ms : List (String × Json ν)) r, parseMembers fuel text = some (ms, r) →
      WellFormedMembers ms) := by
  intro fuel
  induction fuel with
  | zero =>
      refine ⟨?_, ?_, ?_⟩ <;> intro text v r h
      · rw [parseValue] at h; simp at h
      · rw [parseItems] at h; simp at h
      · rw [parseMembers] at h; simp at h
  | succ fuel ih =>
      obtain ⟨ihv, ihi, ihm⟩ := ih
      refine ⟨?_, ?_, ?_⟩
      · intro text v r h
        rw [parseValue] at h
        split at h
        · obtain ⟨rfl, -⟩ := by simpa using h
          trivial
        · obtain ⟨rfl, -⟩ := by simpa using h
          trivial
        · obtain ⟨rfl, -⟩ := by simpa using h
          trivial
        · obtain ⟨p, -, hp⟩ := Option.map_eq_some_iff.mp h
          obtain ⟨rfl, -⟩ := Prod.mk.inj hp
          trivial
        · split at h
          · obtain ⟨rfl, -⟩ := by simpa using h
            trivial
          · obtain ⟨p, hp, hv⟩ := Option.map_eq_some_iff.mp h
            obtain ⟨rfl, -⟩ := Prod.mk.inj hv
            exact ihi _ _ _ hp
        · split at h
          · obtain ⟨rfl, -⟩ := by simpa using h
            exact ⟨List.nodup_nil, trivial⟩
          · obtain ⟨p, hp, hv⟩ := Option.map_eq_some_iff.mp h
            obtain ⟨rfl, -⟩ := Prod.mk.inj hv
            exact wellFormed_foldl _ [] (ihm _ _ _ hp) ⟨List.nodup_nil, trivial⟩
        · obtain ⟨p, -, hp⟩ := Option.map_eq_some_iff.mp h
          obtain ⟨rfl, -⟩ := Prod.mk.inj hp
          trivial
      · intro text vs r h
        rw [parseItems] at h
        split at h
        · simp at h
        · next v r' hv =>
            split at h
            · obtain ⟨p, hp, hvs⟩ := Option.map_eq_some_iff.mp h
              obtain ⟨rfl, -⟩ := Prod.mk.inj hvs
              exact ⟨ihv _ _ _ hv, ihi _ _ _ hp⟩
            · obtain ⟨rfl, -⟩ := by simpa using h
              exact ⟨ihv _ _ _ hv, trivial⟩
            · simp at h
      · intro text ms r h
        rw [parseMembers] at h
        split at h
        · split at h
          · simp at h
          · split at h
            · split at h
              · simp at h
              · next v r' hv =>
                  split at h
                  · obtain ⟨p, hp, hms⟩ := Option.map_eq_some_iff.mp h
                    obtain ⟨rfl, -⟩ := Prod.mk.inj hms
                    exact ⟨ihv _ _ _ hv, ihm _ _ _ hp⟩
                  · obtain ⟨rfl, -⟩ := by simpa using h
                    exact ⟨ihv _ _ _ hv, trivial⟩
                  · simp at h
            · simp at h
        · simp at h

/-- **`JSON.parse` makes no object with a repeated member name.** -/
theorem parse_wellFormed {text : List Char} {v : Json ν} (h : parse text = some v) :
    WellFormed v := by
  rw [parse] at h
  split at h
  · next v' r hv =>
      split at h
      · obtain rfl := Option.some.inj h
        exact (parseValue_wellFormed _).1 _ _ _ hv
      · simp at h
  · simp at h

end Json

end Js
