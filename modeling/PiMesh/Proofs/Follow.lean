/-
Nothing lost and nothing repeated.

Read in pieces, a text gives the lines it gives as a whole, as long as no piece ends inside a
character; so the follower is where a reader of the whole file would be.  A rotation is safe where
nothing of the file is unread, and the new file is noticed only by being shorter than the offset.
The invariant says which text of the current file has been read, or that none of it has and all of
the files before.
-/
import PiMesh.Cli.TailFollow
import PiMesh.Proofs.History
import PiMesh.Lib.Utf8Cut

namespace PiMesh

open Js Transition LedgerCli MeshLedger Utf8

variable {ν : Type} [Number ν]

/-! ### What the result speaks of -/

def FollowStep (st : FollowState ν) (e : FollowEvent ν) (st' : FollowState ν) : Prop :=
  st.next e = some st'

namespace FollowState

/-- The bytes a reader sees. -/
def content (st : FollowState ν) : List UInt8 := st.file.getD []

/-- The ones that have not been read. -/
def unread (st : FollowState ν) : List UInt8 :=
  if st.turned then st.content else st.content.drop ((st.follower.map (·.offset)).getD 0)

/-- What is to be said: the records that were not complete when the follower started. -/
def due (st : FollowState ν) : List String :=
  (st.appended.drop st.skip).map fun record => shown (.obj (Value.toMembers record))

end FollowState

/-- No read ends inside a character, the file is moved away when all of it was read, and a new one
is read before it is as long as the old one was. -/
def FollowsWell (st : FollowState ν) : FollowEvent ν → Prop
  | .start _ _ => st.rest.head?.any isContinuation = false
  | .read => st.rest.head?.any isContinuation = false ∧
      (st.turned = true → st.file ≠ none →
        ∀ f, st.follower = some f → st.content.length < f.offset ∨ f.offset = 0)
  | .rotate => st.follower ≠ none → st.rest = [] ∧ st.unread = []
  | _ => True

/-! ### Lines in pieces -/

section Pieces

theorem parseLines_open {text : List Char} (h : '\n' ∉ text) :
    parseLines (ν := ν) text [] = ([], text) := by
  unfold parseLines
  rw [List.nil_append, splitChars_free h]
  rfl

theorem parseLines_carry (a b : List Char) :
    parseLines (ν := ν) b a = parseLines (a ++ b) [] := rfl

/-- What is read in two pieces is what is read in one. -/
theorem parseLines_append (a b : List Char) :
    parseLines (ν := ν) (a ++ b) [] =
      ((parseLines a []).1 ++ (parseLines b (parseLines (ν := ν) a []).2).1,
        (parseLines (ν := ν) b (parseLines (ν := ν) a []).2).2) := by
  obtain ⟨init, last, hlast, hparts⟩ := splitChars_parts '\n' a
  have hne := splitChars_ne_nil '\n' (last ++ b)
  have ha : splitChars '\n' a = init ++ [last] := by
    have hself := hparts []
    rwa [List.append_nil, List.append_nil, splitChars_free hlast] at hself
  have hfirst : parseLines (ν := ν) a [] = (init.filterMap readLine, last) := by
    unfold parseLines
    rw [List.nil_append, ha]
    dsimp only
    rw [List.dropLast_concat, List.getLast?_concat]
    rfl
  rw [hfirst]
  unfold parseLines
  rw [List.nil_append, hparts]
  dsimp only
  rw [List.dropLast_append_of_ne_nil hne, List.filterMap_append,
    List.getLast?_append_of_ne_nil _ hne]

theorem newline_carry (a : List Char) : '\n' ∉ (parseLines (ν := ν) a []).2 := by
  obtain ⟨init, last, hlast, hparts⟩ := splitChars_parts '\n' a
  have ha := hparts []
  rw [List.append_nil, List.append_nil, splitChars_free hlast] at ha
  unfold parseLines
  rw [List.nil_append, ha]
  dsimp only
  rw [List.getLast?_concat]
  exact hlast

/-- Whole lines, and the beginning of one. -/
theorem parseLines_records {records : List (List (String × Value ν))}
    (hwf : ∀ record ∈ records, (Value.obj record).WellFormed) {s : List Char} (hs : '\n' ∉ s) :
    parseLines (records.flatMap lineOf ++ s) [] = (records.map asRead, s) := by
  induction records with
  | nil => exact parseLines_open hs
  | cons record records ih =>
      rw [List.forall_mem_cons] at hwf
      have hline : parseLines (ν := ν) (lineOf record) [] = ([asRead record], []) := by
        obtain ⟨text, htext, heq⟩ := complete_lineOf [record] (lineOf record) (by simp)
        have hread := readLine_lineOf hwf.1
        rw [heq, List.dropLast_concat] at hread
        unfold parseLines
        rw [heq, List.nil_append, splitChars_append htext]
        simp [splitChars, hread]
      rw [List.flatMap_cons, List.append_assoc, parseLines_append, hline]
      dsimp only
      rw [ih hwf.2]
      rfl

end Pieces

/-! ### The follower -/

section Follower

variable {f : Follower} {heard : List Char} {b : List UInt8}

omit [Number ν] in
theorem rewound_of_le (h : f.offset ≤ b.length) : f.rewound b = f := if_neg (Nat.not_lt.mpr h)

/-- A follower that has read a text reads on behind it. -/
theorem readNew_behind (hoffset : f.offset = (encode heard).length)
    (hcarry : f.carry = (parseLines (ν := ν) heard []).2) :
    f.readNew ν (some (encode heard ++ b)) = { f with
      offset := (encode heard ++ b).length
      carry := (parseLines (ν := ν) (heard ++ decode b) []).2
      streamed := f.streamed ++ (parseLines (ν := ν) (decode b) f.carry).1.map shown } := by
  have hdrop : (encode heard ++ b).drop f.offset = b := List.drop_left' hoffset.symm
  have hmore := congrArg Prod.snd (parseLines_append (ν := ν) heard (decode b))
  have hle : f.offset ≤ (encode heard ++ b).length := by
    rw [List.length_append]
    omega
  unfold Follower.readNew
  dsimp only at hmore ⊢
  rw [rewound_of_le hle, hdrop, hmore, ← hcarry]
  by_cases hb : b = []
  · have hsame : parseLines (ν := ν) (decode b) f.carry = ([], f.carry) := by
      rw [hb, hcarry, parseLines_carry]
      show parseLines (_ ++ []) [] = _
      rw [List.append_nil]
      exact parseLines_open (newline_carry heard)
    rw [hsame, hb, List.append_nil, if_pos hoffset.symm, ← hoffset]
    simp
  · have hlonger : (encode heard ++ b).length ≠ f.offset := by
      have hpos := List.length_pos_iff.mpr hb
      rw [List.length_append]
      omega
    rw [if_neg hlonger]

/-- A shorter file is read from its beginning. -/
theorem readNew_again (hcarry : f.carry = []) (h : b.length < f.offset ∨ f.offset = 0) :
    f.readNew ν (some b) = ({ f with offset := 0 } : Follower).readNew ν (some b) := by
  have hrewound : f.rewound b = { f with offset := 0 } := by
    unfold Follower.rewound
    by_cases hshort : b.length < f.offset
    · rw [if_pos hshort, ← hcarry]
    · rw [if_neg hshort, ← h.resolve_left hshort]
  unfold Follower.readNew
  dsimp only
  rw [hrewound, rewound_of_le (Nat.zero_le _)]

end Follower

/-! ### The ledger -/

/-- What is said of records. -/
def said (records : List (List (String × Value ν))) : List String :=
  records.map fun record => shown (.obj (Value.toMembers record))

theorem shown_asRead (records : List (List (String × Value ν))) :
    (records.map asRead).map shown = said records := by
  have hone : ∀ record : List (String × Value ν),
      shown (asRead record) = shown (.obj (Value.toMembers record)) := by
    intro record
    unfold shown asRead
    rw [Json.stringify_wire]
  simp [said, hone]

/-- Which records are in files moved away, which are complete in the file, and which one is under
way. -/
structure Laid (st : FollowState ν) (past whole under : List (List (String × Value ν))) : Prop where
  appended : st.appended = past ++ (whole ++ under)
  wellFormed : ∀ record ∈ st.appended, (Value.obj record).WellFormed
  bytes : ∃ seen, st.content = encode (whole.flatMap lineOf) ++ seen ∧
    seen ++ st.rest = encode (under.flatMap lineOf)
  single : under.length ≤ 1
  pending : st.rest = [] ↔ under = []

section Layout

variable {st st' : FollowState ν} {past whole under : List (List (String × Value ν))}

theorem encode_eq_nil {text : List Char} : encode text = [] ↔ text = [] := by
  constructor
  · intro h
    rw [← decode_encode text, h]
    rfl
  · intro h
    rw [h]
    rfl

theorem lineOf_eq (record : List (String × Value ν)) :
    ∃ text, '\n' ∉ text ∧ lineOf record = text ++ ['\n'] :=
  complete_lineOf [record] (lineOf record) (by simp)

theorem lineOf_ne_nil (record : List (String × Value ν)) : lineOf record ≠ [] := by
  obtain ⟨text, -, htext⟩ := lineOf_eq record
  rw [htext]
  simp

theorem flatMap_lineOf_eq_nil {records : List (List (String × Value ν))} :
    records.flatMap lineOf = [] ↔ records = [] := by
  cases records with
  | nil => simp
  | cons record records => simp [lineOf_ne_nil]

theorem Laid.single_cases (h : Laid st past whole under) : under = [] ∨ ∃ record, under = [record] := by
  have hsingle := h.single
  cases under with
  | nil => exact .inl rfl
  | cons record rest =>
      cases rest with
      | nil => exact .inr ⟨record, rfl⟩
      | cons _ _ => simp at hsingle

/-- Where no character is cut, a reader sees whole lines and the beginning of one. -/
theorem Laid.uncut (h : Laid st past whole under)
    (hcut : st.rest.head?.any isContinuation = false) :
    ∃ s, '\n' ∉ s ∧ st.content = encode (whole.flatMap lineOf ++ s) ∧ (st.rest = [] → s = []) := by
  obtain ⟨seen, hcontent, hrest⟩ := h.bytes
  rcases h.single_cases with hunder | ⟨record, hunder⟩
  · rw [hunder] at hrest
    have hseen : seen = [] := (List.append_eq_nil_iff.mp hrest).1
    refine ⟨[], by simp, ?_, fun _ => rfl⟩
    rw [hcontent, hseen, List.append_nil, List.append_nil]
  · have hline : seen ++ st.rest = encode (lineOf record) := by
      rw [hrest, hunder]
      simp
    obtain ⟨s, t, hst, hs, ht⟩ := encode_cut hline hcut
    have hne : st.rest ≠ [] := by
      intro hnil
      rw [h.pending.mp hnil] at hunder
      cases hunder
    have htne : t ≠ [] := by
      intro hnil
      rw [ht, hnil] at hne
      exact hne rfl
    obtain ⟨text, htext, heq⟩ := lineOf_eq record
    have hfree : '\n' ∉ s := by
      rw [heq, ← List.dropLast_append_getLast htne, ← List.append_assoc] at hst
      have hsplit := List.append_inj_left' hst rfl
      intro hmem
      rw [hsplit] at htext
      exact htext (List.mem_append_left _ hmem)
    refine ⟨s, hfree, ?_, fun hnil => absurd hnil hne⟩
    rw [hcontent, hs, encode_append]

/-- The layout is one of the files and their records. -/
theorem Laid.congr (h : Laid st past whole under) (hfile : st'.file = st.file)
    (hrest : st'.rest = st.rest) (happended : st'.appended = st.appended) :
    Laid st' past whole under where
  appended := by
    rw [happended]
    exact h.appended
  wellFormed := by
    rw [happended]
    exact h.wellFormed
  bytes := by
    rw [hrest]
    unfold FollowState.content
    rw [hfile]
    exact h.bytes
  single := h.single
  pending := by
    rw [hrest]
    exact h.pending

/-- An empty file has no lines. -/
theorem Laid.whole_nil (h : Laid st past whole under) (hcontent : st.content = []) : whole = [] := by
  obtain ⟨seen, hseen, -⟩ := h.bytes
  rw [hcontent] at hseen
  have hwhole := (List.append_eq_nil_iff.mp hseen.symm).1
  exact flatMap_lineOf_eq_nil.mp (encode_eq_nil.mp hwhole)

theorem Laid.init : Laid ({} : FollowState ν) [] [] [] where
  appended := rfl
  wellFormed := by simp
  bytes := ⟨[], rfl, rfl⟩
  single := Nat.zero_le 1
  pending := by simp

theorem Laid.append (h : Laid st past whole under) (hrest : st.rest = [])
    {record : List (String × Value ν)} (hwf : (Value.obj record).WellFormed) :
    Laid { st with
      file := some (st.file.getD []), rest := encode (lineOf record)
      appended := st.appended ++ [record] } past whole [record] := by
  have hunder := h.pending.mp hrest
  obtain ⟨seen, hcontent, hseen⟩ := h.bytes
  rw [hunder] at hseen
  have hnil : seen = [] := (List.append_eq_nil_iff.mp hseen).1
  rw [hnil, List.append_nil] at hcontent
  constructor
  · have happended := h.appended
    rw [hunder, List.append_nil] at happended
    simp [happended]
  · intro r hr
    rcases List.mem_append.mp hr with hr | hr
    · exact h.wellFormed r hr
    · rw [List.mem_singleton.mp hr]
      exact hwf
  · refine ⟨[], ?_, by simp⟩
    rw [List.append_nil, ← hcontent]
    rfl
  · exact Nat.le_refl 1
  · have hne : encode (lineOf record) ≠ [] := fun heq => lineOf_ne_nil record (encode_eq_nil.mp heq)
    simp [hne]

theorem Laid.reveal (h : Laid st past whole under) (hrest : st.rest ≠ []) (n : Nat) :
    ∃ whole' under', Laid { st with
      file := some (st.file.getD [] ++ st.rest.take n), rest := st.rest.drop n } past whole' under' := by
  obtain ⟨seen, hcontent, hseen⟩ := h.bytes
  have hnew : st.content ++ st.rest.take n = encode (whole.flatMap lineOf) ++ (seen ++ st.rest.take n) := by
    rw [hcontent, List.append_assoc]
  have hall : (seen ++ st.rest.take n) ++ st.rest.drop n = encode (under.flatMap lineOf) := by
    rw [List.append_assoc, List.take_append_drop, hseen]
  by_cases hdone : st.rest.drop n = []
  · rw [hdone, List.append_nil] at hall
    refine ⟨whole ++ under, [], ?_, h.wellFormed, ⟨[], ?_, by simp [hdone, encode]⟩, Nat.zero_le 1,
      by simp [hdone]⟩
    · have happended := h.appended
      simpa using happended
    · rw [List.append_nil, List.flatMap_append, encode_append, ← hall, ← hnew]
      rfl
  · refine ⟨whole, under, h.appended, h.wellFormed, ⟨_, hnew, hall⟩, h.single, ?_⟩
    have hunder : under ≠ [] := fun hnil => hrest (h.pending.mpr hnil)
    simp [hdone, hunder]

theorem Laid.rotate (h : Laid st past whole under) :
    Laid { st with file := none, rest := [], turned := true } (past ++ (whole ++ under)) [] [] where
  appended := by
    have happended := h.appended
    simpa using happended
  wellFormed := h.wellFormed
  bytes := ⟨[], rfl, rfl⟩
  single := Nat.zero_le 1
  pending := by simp

end Layout

/-! ### The invariant -/

/-- What the follower has read and said: some of the file, or all of the files before it. -/
structure Heard (st : FollowState ν) (f : Follower) (past : List (List (String × Value ν))) :
    Prop where
  same : st.turned = false → ∃ heard, encode heard <+: st.content ∧
    f.offset = (encode heard).length ∧ f.carry = (parseLines (ν := ν) heard []).2 ∧
    st.skip ≤ past.length + (parseLines (ν := ν) heard []).1.length ∧
    f.streamed = (said past ++ (parseLines (ν := ν) heard []).1.map shown).drop st.skip
  turned : st.turned = true → f.carry = [] ∧ st.skip ≤ past.length ∧
    f.streamed = (said past).drop st.skip

/-- The ledger is laid out, and the follower has heard what it could. -/
def Following (st : FollowState ν) : Prop :=
  ∃ past whole under, Laid st past whole under ∧ ∀ f, st.follower = some f → Heard st f past

/-- All that is due was said. -/
def UpToDate (st : FollowState ν) : Prop :=
  st.rest = [] → ∀ f, st.follower = some f → f.streamed = st.due

section Steps

variable {st st' : FollowState ν} {past whole under : List (List (String × Value ν))} {f : Follower}

theorem due_eq (st : FollowState ν) : st.due = (said st.appended).drop st.skip := by
  unfold FollowState.due said
  rw [List.map_drop]

theorem length_said (records : List (List (String × Value ν))) :
    (said records).length = records.length := by
  simp [said]

theorem said_append (a b : List (List (String × Value ν))) : said (a ++ b) = said a ++ said b := by
  simp [said]

/-- Bytes that become visible change nothing of what was heard. -/
theorem Heard.grow (h : Heard st f past) (hturned : st'.turned = st.turned)
    (hskip : st'.skip = st.skip) (hcontent : st.content <+: st'.content) : Heard st' f past := by
  constructor
  · intro hsame
    rw [hturned] at hsame
    obtain ⟨heard, hbegin, hoffset, hcarry, hle, hsaid⟩ := h.same hsame
    rw [hskip]
    exact ⟨heard, hbegin.trans hcontent, hoffset, hcarry, hle, hsaid⟩
  · intro hnew
    rw [hturned] at hnew
    rw [hskip]
    exact h.turned hnew

/-- Whole lines that were read were said. -/
theorem parseLines_whole (hlaid : Laid st past whole under) {s : List Char} (hs : '\n' ∉ s) :
    parseLines (whole.flatMap lineOf ++ s) [] = (whole.map asRead, s) := by
  refine parseLines_records ?_ hs
  intro record hrecord
  refine hlaid.wellFormed record ?_
  rw [hlaid.appended]
  exact List.mem_append_right _ (List.mem_append_left _ hrecord)

/-- A follower that has read the whole file, up to a cut between characters. -/
theorem Heard.full (hlaid : Laid st past whole under) {s : List Char} (hs : '\n' ∉ s)
    (hcontent : st.content = encode (whole.flatMap lineOf ++ s)) (hsame : st.turned = false)
    (hoffset : f.offset = st.content.length) (hcarry : f.carry = s)
    (hskip : st.skip ≤ past.length + whole.length)
    (hsaid : f.streamed = (said (past ++ whole)).drop st.skip) : Heard st f past := by
  have hparse := parseLines_whole hlaid hs
  refine ⟨fun _ => ⟨whole.flatMap lineOf ++ s, ?_, ?_, ?_, ?_, ?_⟩, ?_⟩
  · exact ⟨[], by rw [List.append_nil, hcontent]⟩
  · rw [hoffset, hcontent]
  · rw [hparse, hcarry]
  · rw [hparse, List.length_map]
    exact hskip
  · rw [hparse, shown_asRead, ← said_append]
    exact hsaid
  · intro hturned
    rw [hsame] at hturned
    cases hturned

/-- What a read leads to, from a text that has been read before. -/
theorem readNew_full (hlaid : Laid st past whole under) {s : List Char} (hs : '\n' ∉ s)
    (hcontent : st.content = encode (whole.flatMap lineOf ++ s)) (heard : List Char)
    (hbegin : encode heard <+: st.content) (hoffset : f.offset = (encode heard).length)
    (hcarry : f.carry = (parseLines (ν := ν) heard []).2)
    (hle : st.skip ≤ past.length + (parseLines (ν := ν) heard []).1.length)
    (hsaid : f.streamed = (said past ++ (parseLines (ν := ν) heard []).1.map shown).drop st.skip) :
    f.readNew ν (some st.content) = { f with
        offset := st.content.length, carry := s
        streamed := (said (past ++ whole)).drop st.skip } ∧
      st.skip ≤ past.length + whole.length := by
  obtain ⟨b, hb⟩ := hbegin
  have htext : heard ++ decode b = whole.flatMap lineOf ++ s := by
    rw [← decode_encode_append, hb, hcontent, decode_encode]
  have hparse := parseLines_append (ν := ν) heard (decode b)
  rw [htext, parseLines_whole hlaid hs, Prod.mk.injEq, ← hcarry] at hparse
  obtain ⟨hrecords, hrest⟩ := hparse
  have hcount := congrArg List.length hrecords
  rw [List.length_map, List.length_append] at hcount
  have hbehind := readNew_behind (b := b) hoffset hcarry
  rw [hb, htext, parseLines_whole hlaid hs] at hbehind
  refine ⟨?_, by omega⟩
  rw [hbehind, hsaid, ← List.drop_append_of_le_length, List.append_assoc, ← List.map_append,
    ← hrecords, shown_asRead, said_append]
  rw [List.length_append, length_said, List.length_map]
  exact hle

theorem parseLines_nil : parseLines (ν := ν) [] [] = ([], []) := parseLines_open (by simp)

/-- A read that notices a new file goes through all of the file. -/
theorem Heard.read (h : Heard st f past) (hlaid : Laid st past whole under) {s : List Char}
    (hs : '\n' ∉ s) (hcontent : st.content = encode (whole.flatMap lineOf ++ s))
    (hnoticed : st.turned = true → st.content.length < f.offset ∨ f.offset = 0) :
    st.skip ≤ past.length + whole.length ∧
      ∃ opening, f.readNew ν (some st.content) =
        ⟨st.content.length, s, opening, (said (past ++ whole)).drop st.skip⟩ := by
  cases hturned : st.turned with
  | false =>
      obtain ⟨heard, hbegin, hoffset, hcarry, hle, hsaid⟩ := h.same hturned
      obtain ⟨hread, hskip⟩ := readNew_full hlaid hs hcontent heard hbegin hoffset hcarry hle hsaid
      exact ⟨hskip, f.opening, hread⟩
  | true =>
      obtain ⟨hcarry, hle, hsaid⟩ := h.turned hturned
      have hagain := readNew_again (ν := ν) hcarry (hnoticed hturned)
      obtain ⟨hread, hskip⟩ := readNew_full (f := { f with offset := 0 }) hlaid hs
        hcontent [] (List.nil_prefix) rfl (by rw [parseLines_nil]; exact hcarry)
        (by rw [parseLines_nil]; exact hle) (by rw [parseLines_nil, List.map_nil, List.append_nil];
                                                exact hsaid)
      exact ⟨hskip, f.opening, hagain.trans hread⟩

/-- A follower that has just read the file. -/
theorem following_caught (hlaid : Laid st past whole under) {s : List Char} (hs : '\n' ∉ s)
    (hcontent : st.content = encode (whole.flatMap lineOf ++ s)) (hturned : st.turned = false)
    (hskip : st.skip ≤ past.length + whole.length) (opening : List String)
    (hfollower : st.follower =
      some ⟨st.content.length, s, opening, (said (past ++ whole)).drop st.skip⟩) :
    Following st ∧ UpToDate st := by
  constructor
  · refine ⟨past, whole, under, hlaid, ?_⟩
    intro f hf
    rw [hfollower] at hf
    obtain rfl := Option.some.inj hf
    exact Heard.full hlaid hs hcontent hturned rfl rfl hskip rfl
  · intro hrest f hf
    rw [hfollower] at hf
    obtain rfl := Option.some.inj hf
    have happended := hlaid.appended
    rw [hlaid.pending.mp hrest, List.append_nil] at happended
    rw [due_eq, happended]

/-- The step of a read. -/
theorem Following.read (h : Following st) (hok : FollowsWell st (.read : FollowEvent ν))
    (hf : st.follower = some f) :
    Following { st with
        follower := some (f.readNew ν st.file), turned := st.turned && st.file.isNone } ∧
      UpToDate { st with
        follower := some (f.readNew ν st.file), turned := st.turned && st.file.isNone } := by
  obtain ⟨past, whole, under, hlaid, hheard⟩ := h
  obtain ⟨hcut, hnoticed⟩ := hok
  obtain ⟨s, hs, hcontent, hclosed⟩ := hlaid.uncut hcut
  have hheard := hheard f hf
  cases hfile : st.file with
  | none =>
      -- there is nothing to read
      have hblank : st.content = [] := by
        unfold FollowState.content
        rw [hfile]
        rfl
      refine ⟨⟨past, whole, under, hlaid.congr hfile.symm rfl rfl, ?_⟩, ?_⟩
      · intro g hg
        obtain rfl := Option.some.inj hg
        refine hheard.grow (by simp) rfl ?_
        rw [hblank]
        exact List.nil_prefix
      · intro hrest g hg
        obtain rfl := Option.some.inj hg
        have happended := hlaid.appended
        rw [hlaid.whole_nil hblank, hlaid.pending.mp hrest, List.append_nil, List.append_nil]
          at happended
        rw [due_eq]
        dsimp only [Follower.readNew]
        rw [happended]
        cases hturned : st.turned with
        | false =>
            obtain ⟨heard, hbegin, -, -, -, hsaid⟩ := hheard.same hturned
            rw [hblank, List.prefix_nil, encode_eq_nil] at hbegin
            rw [hsaid, hbegin, parseLines_nil, List.map_nil, List.append_nil]
        | true => exact (hheard.turned hturned).2.2
  | some buf =>
      have hbuf : st.content = buf := by
        unfold FollowState.content
        rw [hfile]
        rfl
      obtain ⟨hskip, opening, hread⟩ := hheard.read hlaid hs hcontent
        (fun hturned => hnoticed hturned (by rw [hfile]; exact Option.some_ne_none buf) f hf)
      rw [← hbuf, hread]
      exact following_caught (hlaid.congr (by rw [hfile, hbuf]) rfl rfl) hs hcontent
        (by simp) hskip opening rfl

/-- The step of the start. -/
theorem Following.start (h : Following st)
    (hcut : st.rest.head?.any isContinuation = false) (dir : String) (limit : Nat) :
    Following { st with
      follower := some (startFollower ν dir limit st.file)
      skip := st.appended.length - (if st.rest = [] then 0 else 1)
      turned := false } := by
  obtain ⟨past, whole, under, hlaid, -⟩ := h
  obtain ⟨s, hs, hcontent, -⟩ := hlaid.uncut hcut
  have hskip : st.appended.length - (if st.rest = [] then 0 else 1) = past.length + whole.length := by
    rw [hlaid.appended, List.length_append, List.length_append]
    rcases hlaid.single_cases with hunder | ⟨record, hunder⟩
    · rw [if_pos (hlaid.pending.mpr hunder), hunder]
      simp
    · have hrest : st.rest ≠ [] := by
        intro hnil
        rw [hlaid.pending.mp hnil] at hunder
        cases hunder
      rw [if_neg hrest, hunder]
      simp
  have hnone : (said (past ++ whole)).drop (past.length + whole.length) = [] := by
    rw [List.drop_eq_nil_iff, length_said, List.length_append]
  have hstart : ∃ opening, startFollower ν dir limit st.file =
      ⟨st.content.length, s, opening, []⟩ := by
    cases hfile : st.file with
    | none =>
        have hblank : st.content = [] := by
          unfold FollowState.content
          rw [hfile]
          rfl
        rw [hblank] at hcontent
        have htext := encode_eq_nil.mp hcontent.symm
        rw [(List.append_eq_nil_iff.mp htext).2, hblank]
        exact ⟨_, rfl⟩
    | some buf =>
        have hbuf : st.content = buf := by
          unfold FollowState.content
          rw [hfile]
          rfl
        have hparse : (parseLines (ν := ν) (decode buf) []).2 = s := by
          rw [← hbuf, hcontent, decode_encode, parseLines_whole hlaid hs]
        rw [hbuf, ← hparse]
        exact ⟨_, rfl⟩
  obtain ⟨opening, hopening⟩ := hstart
  have hlaid' : Laid { st with
      follower := some (startFollower ν dir limit st.file)
      skip := st.appended.length - (if st.rest = [] then 0 else 1)
      turned := false } past whole under := hlaid.congr rfl rfl rfl
  refine (following_caught hlaid' hs hcontent rfl (Nat.le_of_eq hskip) opening ?_).1
  dsimp only
  rw [hopening, hskip, hnone]
  rfl

/-- The step of a rotation. -/
theorem Following.rotate (h : Following st)
    (hok : FollowsWell st (.rotate : FollowEvent ν)) :
    Following { st with file := none, rest := [], turned := true } := by
  obtain ⟨past, whole, under, hlaid, hheard⟩ := h
  refine ⟨past ++ (whole ++ under), [], [], hlaid.rotate, ?_⟩
  intro f hf
  obtain ⟨hrest, hunread⟩ := hok (by rw [hf]; exact Option.some_ne_none f)
  have hunder := hlaid.pending.mp hrest
  have hheard := hheard f hf
  refine ⟨fun hsame => by simp at hsame, ?_⟩
  intro _
  unfold FollowState.unread at hunread
  rw [hunder, List.append_nil]
  cases hturned : st.turned with
  | true =>
      rw [hturned, if_pos rfl] at hunread
      rw [hlaid.whole_nil hunread, List.append_nil]
      exact hheard.turned hturned
  | false =>
      rw [hturned, if_neg (by decide), hf] at hunread
      obtain ⟨heard, ⟨b, hb⟩, hoffset, hcarry, hle, hsaid⟩ := hheard.same hturned
      obtain ⟨s, hs, hcontent, hclosed⟩ := hlaid.uncut (by rw [hrest]; rfl)
      -- what was heard is all of the file, and the file ends with a newline
      have hnothing : b = [] := by
        rw [← hb] at hunread
        dsimp only [Option.map_some, Option.getD_some] at hunread
        rw [hoffset, List.drop_left] at hunread
        exact hunread
      have htext : heard = whole.flatMap lineOf := by
        rw [hnothing, List.append_nil, hcontent, hclosed hrest, List.append_nil] at hb
        rw [← decode_encode heard, hb, decode_encode]
      have hparse := parseLines_whole hlaid (s := []) (by simp)
      rw [List.append_nil, ← htext] at hparse
      rw [hparse] at hcarry hle hsaid
      rw [List.length_map] at hle
      refine ⟨hcarry, by rw [List.length_append]; exact hle, ?_⟩
      rw [hsaid, shown_asRead, said_append]

theorem Following.step {e : FollowEvent ν} (h : Following st) (hok : FollowsWell st e)
    (hstep : FollowStep st e st') : Following st' := by
  unfold FollowStep FollowState.next at hstep
  cases e with
  | append input ts =>
      dsimp only at hstep
      split at hstep
      · obtain rfl := Option.some.inj hstep
        exact h
      · split at hstep
        · cases hstep
        · next hrest =>
            obtain rfl := Option.some.inj hstep
            obtain ⟨past, whole, under, hlaid, hheard⟩ := h
            refine ⟨past, whole, _, hlaid.append (not_not.mp hrest) (record_wellFormed input ts), ?_⟩
            intro f hf
            exact (hheard f hf).grow rfl rfl (List.prefix_refl _)
  | reveal n =>
      dsimp only at hstep
      split at hstep
      · cases hstep
      · next hrest =>
          obtain rfl := Option.some.inj hstep
          obtain ⟨past, whole, under, hlaid, hheard⟩ := h
          obtain ⟨whole', under', hlaid'⟩ := hlaid.reveal hrest n
          refine ⟨past, whole', under', hlaid', ?_⟩
          intro f hf
          exact (hheard f hf).grow rfl rfl (List.prefix_append _ _)
  | rotate =>
      dsimp only at hstep
      split at hstep
      · cases hstep
      · obtain rfl := Option.some.inj hstep
        exact h.rotate hok
  | start dir limitRaw =>
      dsimp only at hstep
      split at hstep
      · obtain rfl := Option.some.inj hstep
        exact h.start hok dir _
      · cases hstep
  | read =>
      dsimp only at hstep
      split at hstep
      · cases hstep
      · next f hf =>
          obtain rfl := Option.some.inj hstep
          exact (h.read hok hf).1

end Steps

theorem Following.init : Following ({} : FollowState ν) := by
  refine ⟨[], [], [], Laid.init, ?_⟩
  intro f hf
  cases hf

theorem following_run {tr : List (FollowState ν × FollowEvent ν)} {s : FollowState ν}
    (hrun : Run FollowStep {} tr s) (hok : Meets FollowsWell tr) : Following s := by
  refine hrun.invariant (P := Following) hok Following.init ?_
  intro s e s' hs hc hstep
  exact hs.step hc hstep

/-- A read with no append under way has said what is due. -/
theorem Following.told {s st : FollowState ν} (h : Following s)
    (hok : FollowsWell s (.read : FollowEvent ν)) (hread : FollowStep s .read st)
    (hrest : st.rest = []) : ∃ f, st.follower = some f ∧ f.streamed = st.due := by
  unfold FollowStep FollowState.next at hread
  dsimp only at hread
  split at hread
  · cases hread
  · next f hf =>
      obtain rfl := Option.some.inj hread
      exact ⟨_, rfl, (h.read hok hf).2 hrest _ rfl⟩

/-- No append is under way, and all that is due was said. -/
def CaughtUp (st : FollowState ν) : Prop :=
  Following st ∧ st.rest = [] ∧ ∃ f, st.follower = some f ∧ f.streamed = st.due

/-- Nothing but an append makes more due. -/
theorem CaughtUp.step {st st' : FollowState ν} {e : FollowEvent ν} (h : CaughtUp st)
    (hok : FollowsWell st e) (hquiet : ∀ input ts, e ≠ .append input ts)
    (hstep : FollowStep st e st') : CaughtUp st' := by
  obtain ⟨hfollowing, hrest, f, hf, hsaid⟩ := h
  refine ⟨hfollowing.step hok hstep, ?_⟩
  have hnext := hstep
  unfold FollowStep FollowState.next at hnext
  cases e with
  | append input ts => exact absurd rfl (hquiet input ts)
  | reveal n =>
      dsimp only at hnext
      rw [if_pos hrest] at hnext
      cases hnext
  | rotate =>
      dsimp only at hnext
      split at hnext
      · cases hnext
      · obtain rfl := Option.some.inj hnext
        exact ⟨rfl, f, hf, hsaid⟩
  | start dir limitRaw =>
      dsimp only at hnext
      rw [hf] at hnext
      cases hnext
  | read =>
      dsimp only at hnext
      rw [hf] at hnext
      obtain rfl := Option.some.inj hnext
      exact ⟨hrest, hfollowing.told hok hstep hrest⟩

/-- **A read with no append under way has said all that was appended since the start, once and in
order, in every run whose steps meet the condition.** -/
theorem follow_all {tr : List (FollowState ν × FollowEvent ν)} {s st : FollowState ν}
    (hrun : Run FollowStep {} tr s) (hread : FollowStep s .read st)
    (hok : Meets FollowsWell (tr ++ [(s, .read)])) (hrest : st.rest = []) :
    ∃ f, st.follower = some f ∧ f.streamed = st.due := by
  obtain ⟨htr, hlast⟩ := Meets.snoc_iff.mp hok
  exact (following_run hrun htr).told hlast hread hrest

/-- **Where a read came after the last append, all that was appended since the start has been
said, once and in order, in every run whose steps meet the condition.** -/
theorem tail_prints_all {before after : List (FollowState ν × FollowEvent ν)}
    {s t st : FollowState ν} (hbefore : Run FollowStep {} before s) (hwhole : s.rest = [])
    (hread : FollowStep s .read t) (hafter : Run FollowStep t after st)
    (hquiet : ∀ x ∈ after, ∀ input ts, x.2 ≠ .append input ts)
    (hok : Meets FollowsWell (before ++ (s, .read) :: after)) :
    ∃ f, st.follower = some f ∧ f.streamed = st.due := by
  obtain ⟨hfirst, hlater⟩ := List.forall_mem_append.mp hok
  obtain ⟨hlast, hlater⟩ := List.forall_mem_cons.mp hlater
  have hfollowing := following_run hbefore hfirst
  have hrest : t.rest = [] := by
    have hnext := hread
    unfold FollowStep FollowState.next at hnext
    dsimp only at hnext
    split at hnext
    · cases hnext
    · obtain rfl := Option.some.inj hnext
      exact hwhole
  have hcaught : CaughtUp t := ⟨hfollowing.step hlast hread, hrest,
    hfollowing.told hlast hread hrest⟩
  have hend : CaughtUp st := by
    refine hafter.invariant (P := CaughtUp)
      (C := fun s e => FollowsWell s e ∧ ∀ input ts, e ≠ .append input ts)
      (fun x hx => ⟨hlater x hx, hquiet x hx⟩) hcaught ?_
    intro s e s' hs hc hstep
    exact hs.step hc.1 hc.2 hstep
  exact hend.2.2

/-! ### Runs of events -/

instance (st : FollowState ν) (e : FollowEvent ν) : Decidable (FollowsWell st e) :=
  match e with
  | .append _ _ | .reveal _ => .isTrue True.intro
  | .start _ _ => inferInstanceAs (Decidable (_ = false))
  | .rotate => inferInstanceAs (Decidable (_ ≠ none → _ ∧ _))
  | .read =>
      have : Decidable (∀ f, st.follower = some f → st.content.length < f.offset ∨ f.offset = 0) :=
        inferInstanceAs (Decidable (∀ f ∈ st.follower, _))
      inferInstanceAs (Decidable (_ ∧ (_ → _ → _)))

/-- Where events lead. -/
def play (st : FollowState ν) : List (FollowEvent ν) → Option (FollowState ν)
  | [] => some st
  | e :: es => (st.next e).bind fun st => play st es

/-- Each of them meets the condition. -/
def playsWell (st : FollowState ν) : List (FollowEvent ν) → Bool
  | [] => true
  | e :: es => decide (FollowsWell st e) && (st.next e).any fun st => playsWell st es

theorem play_run {s st : FollowState ν} {es : List (FollowEvent ν)} (h : play s es = some st)
    {tr : List (FollowState ν × FollowEvent ν)} (hrun : Run FollowStep {} tr s) :
    ∃ tr', Run FollowStep {} tr' st ∧
      (Meets FollowsWell tr → playsWell s es = true → Meets FollowsWell tr') := by
  induction es generalizing s tr with
  | nil =>
      obtain rfl := Option.some.inj h
      exact ⟨tr, hrun, fun hok _ => hok⟩
  | cons e es ih =>
      rw [play] at h
      obtain ⟨s', hnext, hmore⟩ := Option.bind_eq_some_iff.mp h
      obtain ⟨tr', hrun', hkeep⟩ := ih hmore (hrun.snoc hnext)
      refine ⟨tr', hrun', ?_⟩
      intro hok hwell
      rw [playsWell, hnext, Option.any_some, Bool.and_eq_true, decide_eq_true_eq] at hwell
      exact hkeep (Meets.snoc_iff.mpr ⟨hok, hwell.1⟩) hwell.2

/-- The state a list of events leads to. -/
def played (es : List (FollowEvent Int)) : FollowState Int := (play {} es).getD {}

theorem played_run (es : List (FollowEvent Int)) (h : (play {} es).isSome = true) :
    ∃ tr, Run FollowStep {} tr (played es) ∧
      (playsWell ({} : FollowState Int) es = true → Meets FollowsWell tr) := by
  obtain ⟨st, hst⟩ := Option.isSome_iff_exists.mp h
  obtain ⟨tr, hrun, hwell⟩ := play_run hst .nil
  refine ⟨tr, ?_, hwell fun x hx => by simp at hx⟩
  unfold played
  rw [hst]
  exact hrun

/-- A start, a record in two pieces, and another one in a new file. -/
def rotatedEvents : List (FollowEvent Int) :=
  [.append sentInput "a", .reveal 1000, .start "state" none, .append sentInput "b", .reveal 20,
    .read, .reveal 1000, .read, .rotate, .append sentInput "c", .reveal 20, .read, .reveal 1000]

theorem follow_all_rotated : ∃ st, FollowStep (played rotatedEvents) .read st ∧
    ∃ f, st.follower = some f ∧ f.streamed = st.due := by
  obtain ⟨tr, hrun, hwell⟩ := played_run rotatedEvents (by decide)
  have hread : FollowStep (played rotatedEvents) .read (played (rotatedEvents ++ [.read])) := rfl
  exact ⟨_, hread, follow_all hrun hread
    (Meets.snoc_iff.mpr ⟨hwell (by decide +kernel), by decide⟩) (by decide)⟩

/-- After the read the file is moved away. -/
theorem tail_prints_all_moved :
    ∃ f, (played (rotatedEvents ++ [.read, .rotate])).follower = some f ∧
      f.streamed = (played (rotatedEvents ++ [.read, .rotate])).due := by
  obtain ⟨tr, hrun, hwell⟩ := played_run rotatedEvents (by decide)
  have hmove : Run FollowStep (played (rotatedEvents ++ [.read]))
      [(played (rotatedEvents ++ [.read]), .rotate)] (played (rotatedEvents ++ [.read, .rotate])) :=
    .snoc .nil rfl
  refine tail_prints_all hrun (by decide) rfl hmove ?_ ?_
  · simp
  · refine List.forall_mem_append.mpr ⟨hwell (by decide +kernel), ?_⟩
    rw [List.forall_mem_cons, List.forall_mem_singleton]
    exact ⟨by decide, by decide +kernel⟩

/-- A record is appended before the file is moved away, and read too late. -/
def unreadEvents : List (FollowEvent Int) :=
  [.start "state" none, .append sentInput "a", .reveal 1000, .rotate]

/-- A new file is as long as the old one was. -/
def sameLengthEvents : List (FollowEvent Int) :=
  [.append sentInput "a", .reveal 1000, .start "state" none, .rotate, .append sentInput "b",
    .reveal 1000]

/-- A read after these events says nothing of a record that is due. -/
def NeverSaid (es : List (FollowEvent Int)) : Prop :=
  (∃ tr, Run FollowStep {} tr (played es)) ∧
    FollowStep (played es) .read (played (es ++ [.read])) ∧
    (played es).rest = [] ∧
    (played (es ++ [.read])).follower.map (·.streamed) = some [] ∧
    (played (es ++ [.read])).due.length = 1

theorem record_never_said : NeverSaid unreadEvents ∧ NeverSaid sameLengthEvents := by
  unfold NeverSaid
  constructor
  · obtain ⟨tr, hrun, -⟩ := played_run unreadEvents (by decide)
    exact ⟨⟨tr, hrun⟩, rfl, by decide, by decide, by decide⟩
  · obtain ⟨tr, hrun, -⟩ := played_run sameLengthEvents (by decide)
    exact ⟨⟨tr, hrun⟩, rfl, by decide, by decide, by decide⟩

end PiMesh
