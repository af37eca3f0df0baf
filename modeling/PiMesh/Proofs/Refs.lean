/-
The refs of `mesh send`.

`validateRefsCsv` looks at the parts as they are written, `csvParts` drops a leading `@` from
each and puts it in lower case, and `isValidRefPath` knows more forms that it refuses: a path
from the home directory, a backslash that is not in front, an environment file.  So the three
agree where no part has one of these forms, begins with `@` or is not in lower case.
-/
import PiMesh.Cli.Send
import PiMesh.Proofs.Cast
import PiMesh.Proofs.RefPaths
import PiMesh.Js.LowerCase
import PiMesh.Broker.Reference

namespace PiMesh

open Js

/-- What the command makes of one part. -/
def sentPart (rt : Runtime) (p : String) : String := rt.toLowerCase (stripAt p)

/-- Parts that are dropped once they are empty may be dropped before that. -/
theorem filter_map_filter {f : String → String} (hempty : f "" = "") (l : List String) :
    (l.map f).filter (fun p => p != "") =
      ((l.filter fun p => p != "").map f).filter fun p => p != "" := by
  induction l with
  | nil => rfl
  | cons p rest ih =>
      by_cases hp : p = ""
      · rw [List.map_cons, hp, hempty, List.filter_cons_of_neg (by simp),
          List.filter_cons_of_neg (by simp), ih]
      · rw [List.filter_cons_of_pos (by simp [hp]), List.map_cons, List.map_cons]
        by_cases hf : f p = ""
        · rw [hf, List.filter_cons_of_neg (by simp), List.filter_cons_of_neg (by simp), ih]
        · rw [List.filter_cons_of_pos (by simp [hf]), List.filter_cons_of_pos (by simp [hf]), ih]

/-- Parts that are changed one by one, and dropped where nothing is left, come out as they were
only if each of them does. -/
theorem filter_map_eq_self {f : String → String} {l : List String} (hl : ∀ p ∈ l, p ≠ "") :
    (l.map f).filter (fun p => p != "") = l ↔ ∀ p ∈ l, f p = p := by
  constructor
  · intro h
    have hlength := (congrArg List.length h).trans (List.length_map f).symm
    rw [List.length_filter_eq_length_iff] at hlength
    rw [List.filter_eq_self.mpr hlength] at h
    exact List.map_inj_left.mp (h.trans (List.map_id l).symm)
  · intro h
    have hmap : l.map f = l := (List.map_inj_left.mpr h).trans (List.map_id l)
    rw [hmap]
    exact List.filter_eq_self.mpr fun p hp => by simpa using hl p hp

section Parts

variable {rt : Runtime} {raw : String}

theorem refParts_ne {p : String} (hp : p ∈ refParts raw) : p ≠ "" := by
  simpa using (List.mem_filter.mp hp).2

theorem csvParts_eq_iff (hempty : rt.toLowerCase "" = "") :
    csvParts rt raw = refParts raw ↔ ∀ p ∈ refParts raw, sentPart rt p = p := by
  have hnone : sentPart rt "" = "" := hempty
  rw [← filter_map_eq_self fun p hp => refParts_ne hp]
  unfold refParts
  rw [← filter_map_filter hnone]
  rfl

/-- A list of refs that passes the table has its parts checked one by one. -/
theorem validateRefsCsv_parts (h : validateRefsCsv raw = .ok ()) :
    (refParts raw).length ≤ maxRefs ∧ ∀ p ∈ refParts raw, validateRef p = .ok () := by
  unfold validateRefsCsv at h
  dsimp only at h
  split at h
  · cases h
  · split at h
    · cases h
    · next hle =>
        refine ⟨Nat.le_of_not_lt hle, ?_⟩
        revert h
        induction refParts raw with
        | nil => simp
        | cons q rest ih =>
            intro h p hp
            change (validateRef q >>= fun _ => rest.forM validateRef) = .ok () at h
            cases hq : validateRef q with
            | error err => simp [hq, bind, Except.bind] at h
            | ok u =>
                rcases List.mem_cons.mp hp with rfl | hp
                · exact hq
                · exact ih (by simpa [hq, bind, Except.bind] using h) p hp

/-- The table lets a part through. -/
theorem validateRef_eq_ok {p : String} (h : validateRef p = .ok ()) : strLength p ≤ maxRefChars ∧
    startsWithString p "/" = false ∧ includesString p ".." = false := by
  unfold validateRef at h
  split_ifs at h with hlong hrelative
  simp only [Bool.or_eq_true, not_or, Bool.not_eq_true] at hrelative
  exact ⟨Nat.le_of_not_lt hlong, hrelative.1.1, hrelative.1.2⟩

end Parts

/-! ### One part -/

/-- A part in none of the forms that the table lets through and the protocol refuses, and that
`csvParts` does not touch. -/
structure PlainPart (rt : Runtime) (p : String) : Prop where
  home : startsWithString p "~" = false
  slashes : '\\' ∉ p.toList
  whole : p ≠ ".env"
  variants : startsWithString p ".env." = false
  last : endsWithString p "/.env" = false
  directory : includesString p ".env/" = false
  mark : startsWithString p "@" = false
  lower : rt.toLowerCase p = p

section Part

variable {rt : Runtime} {p : String}

theorem eq_empty_of_strLength (h : strLength p = 0) : p = "" := by
  unfold strLength at h
  cases hp : p.toList with
  | nil => exact String.toList_eq_nil_iff.mp hp
  | cons c rest =>
      have hpos : 1 ≤ utf16Size c := by
        unfold utf16Size
        split <;> omega
      rw [hp, List.map_cons, List.sum_cons] at h
      omega

/-- **The protocol accepts a part that passed the table exactly if it has none of the forms.** -/
theorem isValidRefPath_of_table (hne : p ≠ "") (hok : validateRef p = .ok ()) :
    isValidRefPath p = true ↔ startsWithString p "~" = false ∧ '\\' ∉ p.toList ∧ p ≠ ".env" ∧
      startsWithString p ".env." = false ∧ endsWithString p "/.env" = false ∧
      includesString p ".env/" = false := by
  obtain ⟨hlong, hroot, hdots⟩ := validateRef_eq_ok hok
  rw [isValidRefPath_iff]
  constructor
  · intro h
    refine ⟨h.relative.2, ?_, h.whole, h.front, h.back, h.middle.1⟩
    intro hmem
    have hin : includesString p "\\" = true := by
      rw [includesString_iff]
      exact singleton_infix_iff.mpr hmem
    exact Bool.false_ne_true (h.slashes.symm.trans hin)
  · rintro ⟨hhome, hslash, hwhole, hfront, hback, hmiddle⟩
    have hpos : strLength p ≠ 0 := fun h => hne (eq_empty_of_strLength h)
    refine ⟨⟨hpos, hlong⟩, ⟨hroot, hhome⟩, ?_, ?_, hwhole, hfront, hback, hmiddle, ?_⟩
    · by_contra hin
      rw [Bool.not_eq_false, includesString_iff] at hin
      exact hslash (singleton_infix_iff.mp hin)
    · -- a segment `..` is a place where `..` stands
      rw [List.any_eq_false]
      intro seg hseg hseg'
      have hin : includesString p ".." = true := by
        rw [includesString_iff, ← eq_of_beq hseg']
        exact mem_splitChars_infix hseg
      exact Bool.false_ne_true (hdots.symm.trans hin)
    · by_contra hin
      rw [Bool.not_eq_false, includesString_iff] at hin
      have hall := includesString_iff.mpr ((show ".env/".toList <:+: "/.env/".toList from
        ⟨['/'], [], by decide⟩).trans hin)
      exact Bool.false_ne_true (hmiddle.symm.trans hall)

/-- A text with an `@` in front of it is not its lower case, whatever it is. -/
theorem toLowerCase_ne_marked (hlower : LowersCase rt.toLowerCase) (rest : List Char) :
    (rt.toLowerCase (String.ofList rest)).toList ≠ '@' :: rest := by
  intro heq
  have hall : ∀ n, List.replicate n '@' <+: rest := by
    intro n
    induction n with
    | zero => simp
    | succ n ih =>
        have hmarks : ∀ c ∈ List.replicate (n + 1) '@', isCaseless c = true := by
          intro c hc
          rw [List.eq_of_mem_replicate hc]
          decide
        have h := (hlower.prefix_iff hmarks (String.ofList rest)).mp (by
          rw [heq, List.replicate_succ, List.cons_prefix_cons]
          exact ⟨rfl, ih⟩)
        rwa [String.toList_ofList] at h
  have hle := (hall (rest.length + 1)).length_le
  rw [List.length_replicate] at hle
  omega

/-- The command leaves a part alone exactly if it has no mark and is in lower case. -/
theorem sentPart_eq_self_iff (hlower : LowersCase rt.toLowerCase) :
    sentPart rt p = p ↔ startsWithString p "@" = false ∧ rt.toLowerCase p = p := by
  unfold sentPart stripAt
  split
  · next rest hp =>
      have hmark : startsWithString p "@" = true := by
        rw [startsWithString_iff, hp]
        exact ⟨rest, rfl⟩
      rw [hmark]
      constructor
      · intro h
        refine absurd ?_ (toLowerCase_ne_marked hlower rest)
        rw [h, hp]
      · rintro ⟨h, -⟩
        cases h
  · next hp =>
      have hmark : startsWithString p "@" = false := by
        by_contra hin
        rw [Bool.not_eq_false, startsWithString_iff] at hin
        obtain ⟨rest, hrest⟩ := hin
        exact hp rest hrest.symm
      simp [hmark]

end Part

/-! ### The command -/

/-- What passes the table has its refs checked, and sends what `csvParts` makes of them. -/
theorem cmdSend_refs {rt : Runtime} {args : SendArgs} {opts : SendOpts}
    (h : cmdSend rt args = .ok opts) : opts.refs = args.refsCsv.map (csvParts rt) := by
  unfold cmdSend at h
  simp only [bind, Except.bind, pure, Except.pure, throw, throwThe, MonadExceptOf.throw] at h
  repeat' split at h
  all_goals cases h <;> rfl

section Client

variable {ν : Type}

theorem planSend_refs {env : ClientEnv} {st : ClientState ν} {opts : SendOpts} {plan : SendPlan}
    (h : planSend env st opts = .ok plan) : plan.refs = opts.refs := by
  unfold planSend at h
  simp only [bind, Except.bind, pure, Except.pure, throw, throwThe, MonadExceptOf.throw] at h
  repeat' split at h
  all_goals cases h <;> rfl

variable [Number ν]

/-- The three rules agree on a list of refs. -/
structure RefsAgree (ν : Type) [Number ν] (rt : Runtime) (raw : String) : Prop where
  valid : ∀ p ∈ refParts raw, isValidRefPath p = true
  /-- The command passes on what was written. -/
  sent : ∀ args opts, args.refsCsv = some raw → cmdSend rt args = .ok opts →
    opts.refs = some (refParts raw)
  /-- The client puts it in the frame. -/
  framed : ∀ (env : ClientEnv) (st : ClientState ν) (now : Int) args opts plan, env.rt = rt →
    args.refsCsv = some raw → cmdSend rt args = .ok opts → planSend env st opts = .ok plan →
    (sendFrame env now st plan).refs = some (refParts raw)
  /-- The frame check accepts it. -/
  accepted : ∀ get : Get ν, get "refs" = some (jsonStrs (refParts raw)) → refsRule get = none

variable {rt : Runtime} {raw : String}

/-- A broadcast with these refs passes the table. -/
theorem RefsAgree.parts (h : RefsAgree ν rt raw) (hok : validateRefsCsv raw = .ok ()) :
    csvParts rt raw = refParts raw := by
  have hbody : validateBody "x" = .ok () := by decide
  obtain ⟨opts, hopts⟩ : ∃ opts,
      cmdSend rt { text := "x", broadcast := true, refsCsv := some raw } = .ok opts := by
    simp [cmdSend, hbody, hok, bind, Except.bind, pure, Except.pure, Option.forM]
  have hsent := h.sent _ opts rfl hopts
  rw [cmdSend_refs hopts] at hsent
  exact Option.some.inj hsent

end Client

/-- **The rules agree on a list that passes the table exactly if no part is in one of the forms
that only the protocol refuses, begins with `@` or is not in lower case.** -/
theorem refs_agree_iff {ν : Type} [Number ν] {rt : Runtime} (hlower : LowersCase rt.toLowerCase)
    {raw : String} (hok : validateRefsCsv raw = .ok ()) :
    RefsAgree ν rt raw ↔ ∀ p ∈ refParts raw, PlainPart rt p := by
  have hempty : rt.toLowerCase "" = "" := hlower.lower_empty
  obtain ⟨hlength, hchecked⟩ := validateRefsCsv_parts hok
  constructor
  · intro h p hp
    have hsent := (csvParts_eq_iff hempty).mp (h.parts hok) p hp
    obtain ⟨hmark, hlow⟩ := (sentPart_eq_self_iff hlower).mp hsent
    obtain ⟨hhome, hslash, hwhole, hfront, hback, hmiddle⟩ :=
      (isValidRefPath_of_table (refParts_ne hp) (hchecked p hp)).mp (h.valid p hp)
    exact ⟨hhome, hslash, hwhole, hfront, hback, hmiddle, hmark, hlow⟩
  · intro h
    have hvalid : ∀ p ∈ refParts raw, isValidRefPath p = true := by
      intro p hp
      have hplain := h p hp
      exact (isValidRefPath_of_table (refParts_ne hp) (hchecked p hp)).mpr ⟨hplain.home,
        hplain.slashes, hplain.whole, hplain.variants, hplain.last, hplain.directory⟩
    have hparts : csvParts rt raw = refParts raw :=
      (csvParts_eq_iff hempty).mpr fun p hp =>
        (sentPart_eq_self_iff hlower).mpr ⟨(h p hp).mark, (h p hp).lower⟩
    have hsent : ∀ args opts, args.refsCsv = some raw → cmdSend rt args = .ok opts →
        opts.refs = some (refParts raw) := by
      intro args opts hcsv hopts
      rw [cmdSend_refs hopts, hcsv, Option.map_some, hparts]
    refine ⟨hvalid, hsent, ?_, ?_⟩
    · intro env st now args opts plan henv hcsv hopts hplan
      show plan.refs = _
      rw [planSend_refs hplan, hsent args opts hcsv hopts]
    · intro get hget
      have hall : ((refParts raw).map (.str : String → Json ν)).all (isStr isValidRefPath) = true := by
        rw [List.all_map, List.all_eq_true]
        exact hvalid
      have hlong : ¬ ((refParts raw).map (.str : String → Json ν)).length > maxRefs := by
        rw [List.length_map]
        exact Nat.not_lt_of_le hlength
      unfold refsRule
      rw [hget]
      show (if _ > maxRefs then _ else _) = _
      rw [if_neg hlong, hall]
      rfl

/-- Two refs in lower case. -/
theorem refs_agree_lower : RefsAgree Int referenceRuntime "a/b.ts, c" :=
  (refs_agree_iff asciiLower_lowersCase (by decide +kernel)).mpr fun p hp => by
    have hparts : refParts "a/b.ts, c" = ["a/b.ts", "c"] := by decide +kernel
    rw [hparts] at hp
    rcases List.mem_pair.mp hp with rfl | rfl
    all_goals exact ⟨by decide, by decide, by decide, by decide, by decide, by decide, by decide,
      by decide⟩

/-- A ref in upper case is sent in lower case. -/
theorem refs_changed :
    validateRefsCsv "R.md" = .ok () ∧ ¬ RefsAgree Int referenceRuntime "R.md" := by
  have hok : validateRefsCsv "R.md" = .ok () := by decide +kernel
  have hsent : csvParts referenceRuntime "R.md" ≠ refParts "R.md" := by decide +kernel
  exact ⟨hok, fun h => hsent (h.parts hok)⟩

/-- A home path passes the table, and is no valid ref. -/
example : validateRefsCsv "~/a" = .ok () ∧ isValidRefPath "~/a" = false := by decide +kernel

end PiMesh
