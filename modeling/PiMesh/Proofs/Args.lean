/-
What the argument parser accepts.

A command line says a list of items, each spelled by one word or two.  `Leads` is the
grammar of these spellings; the parser is a loop with an accumulator.  The loop follows a
spelling item by item, so it ends with what the items say, and it stops at the first word
that no item can begin with.  Every list of words falls under one of the two, which is why
nothing else has to be said about what is rejected.
-/
import PiMesh.Cli.Args
import PiMesh.Js.Search

namespace PiMesh

open Js

variable {specs : List ArgSpec} {items : List ArgItem} {words : List String} {a : String}

/-! ### Names -/

theorem get?_foldl_keyed (key : ArgSpec → Option String) (n : String) (specs : List ArgSpec)
    (m : Map String ArgSpec) :
    (specs.foldl (fun m s =>
      match key s with
      | some k => m.set k s
      | none => m) m).get? n = (specs.reverse.find? fun s => key s = some n).or (m.get? n) := by
  induction specs generalizing m with
  | nil => simp
  | cons s rest ih =>
      rw [List.foldl_cons, ih, List.reverse_cons, List.find?_append]
      by_cases hs : key s = some n
      · simp [hs]
      · cases hk : key s with
        | none => simp [hk]
        | some k =>
            have hne : n ≠ k := by
              intro h
              exact hs (by rw [hk, h])
            simp [hk, Map.get?_set_ne _ _ hne, Ne.symm hne]

/-- The two tables hold, for each name, the last specification with that name. -/
theorem findSpec_eq (specs : List ArgSpec) (n : String) : findSpec specs n = named specs n := by
  have hlong := get?_foldl_keyed (fun s => some s.name) n specs Map.empty
  have hshort := get?_foldl_keyed ArgSpec.short n specs Map.empty
  have hempty : (Map.empty : Map String ArgSpec).get? n = none := rfl
  rw [hempty, Option.or_none] at hlong hshort
  refine congrArg₂ Option.or ?_ hshort
  simpa using hlong

/-! ### Words -/

theorem toList_dashes (n : String) : ("--" ++ n).toList = '-' :: '-' :: n.toList := by
  simp

theorem startsWithString_append (part s : String) : startsWithString (part ++ s) part = true := by
  rw [startsWithString_iff]
  simp

theorem takeWhile_of_not_mem {c : Char} {l : List Char} (h : c ∉ l) (r : List Char) :
    (l ++ c :: r).takeWhile (· ≠ c) = l ∧ (l ++ c :: r).dropWhile (· ≠ c) = c :: r := by
  have hall : ∀ x ∈ l, decide (x ≠ c) = true := by
    intro x hx
    simpa using fun hxc : x = c => h (hxc ▸ hx)
  constructor
  · rw [List.takeWhile_append_of_pos hall]
    simp
  · rw [List.dropWhile_append_of_pos hall]
    simp

theorem readOption_of_writes {n : String} {v : Option String} (h : Writes n v a) :
    readOption a = (n, v) := by
  cases h with
  | long hn =>
      have hdrop : n.toList.dropWhile (fun c => decide (c ≠ '=')) = [] := by
        rw [List.dropWhile_eq_nil_iff]
        intro c hc
        simpa using fun hce : c = '=' => hn (hce ▸ hc)
      unfold readOption
      rw [if_pos (startsWithString_append "--" n)]
      simp only [toList_dashes, List.drop_succ_cons, List.drop_zero, hdrop]
      simp
  | inlined hn v =>
      have hcut := takeWhile_of_not_mem hn v.toList
      have hlist : ("--" ++ n ++ "=" ++ v).toList = '-' :: '-' :: (n.toList ++ '=' :: v.toList) := by
        simp
      unfold readOption
      rw [String.append_assoc, String.append_assoc, if_pos (startsWithString_append "--" _),
        ← String.append_assoc, ← String.append_assoc]
      simp only [hlist, List.drop_succ_cons, List.drop_zero, hcut.1, hcut.2]
      simp
  | short hn =>
      have hno : startsWithString ("-" ++ n) "--" = false := by
        rw [Bool.eq_false_iff]
        intro h
        rw [startsWithString_iff] at h
        obtain ⟨r, hr⟩ := h
        have hlist : ("-" ++ n).toList = '-' :: n.toList := by simp
        rw [hlist] at hr
        have htail : '-' :: r = n.toList := by simpa using hr
        exact hn (by rw [← htail]; rfl)
      unfold readOption
      rw [if_neg (by rw [hno]; simp)]
      simp

/-- Every word that begins with a dash spells a name. -/
theorem exists_writes (h : startsWithString a "-" = true) : ∃ n v, Writes n v a := by
  obtain ⟨r, hr⟩ := startsWithString_iff.mp h
  by_cases hdash : r.head? = some '-'
  · obtain ⟨body, rfl⟩ : ∃ body, r = '-' :: body := by
      cases r with
      | nil => simp at hdash
      | cons c body => exact ⟨body, by simpa using hdash⟩
    have ha : a.toList = '-' :: '-' :: body := by rw [← hr]; simp
    rcases exists_first '=' body with hfree | ⟨name, value, hname, rfl⟩
    · refine ⟨String.ofList body, none, ?_⟩
      have heq : a = "--" ++ String.ofList body := by
        rw [← String.toList_inj, ha]
        simp
      rw [heq]
      exact .long (by simpa using hfree)
    · refine ⟨String.ofList name, some (String.ofList value), ?_⟩
      have heq : a = "--" ++ String.ofList name ++ "=" ++ String.ofList value := by
        rw [← String.toList_inj, ha]
        simp
      rw [heq]
      exact .inlined (by simpa using hname) _
  · refine ⟨String.ofList r, none, ?_⟩
    have heq : a = "-" ++ String.ofList r := by
      rw [← String.toList_inj, ← hr]
      simp
    rw [heq]
    exact .short (by simpa using hdash)

/-! ### What one item changes -/

/-- The accumulators after an item. -/
def noted (acc : ParsedArgs × Bool) : ArgItem → ParsedArgs × Bool
  | .flag name => ({ acc.1 with flags := acc.1.flags.add name }, acc.2)
  | .value name v => (acc.1.store name v, acc.2)
  | .operand w => ({ acc.1 with positionals := acc.1.positionals ++ [w] }, acc.2)
  | .help => (acc.1, true)

theorem collects_nil : Collects [] {} false where
  flags name := by simp [Js.Set.empty]
  values name := rfl
  repeats name := rfl
  positionals := rfl
  help := by simp

theorem collects_noted {acc : ParsedArgs × Bool} (h : Collects items acc.1 acc.2)
    (item : ArgItem) : Collects (items ++ [item]) (noted acc item).1 (noted acc item).2 := by
  cases item with
  | flag f =>
      refine ⟨?_, ?_, ?_, ?_, ?_⟩
      · intro name
        rw [noted, Js.Set.mem_add, h.flags]
        simp
      · intro name
        rw [noted, h.values]
        simp [ArgItem.value?]
      · intro name
        rw [noted, h.repeats]
        simp [ArgItem.value?]
      · rw [noted, h.positionals]
        simp [ArgItem.operand?]
      · rw [noted, h.help]
        simp
  | value n v =>
      refine ⟨?_, ?_, ?_, ?_, ?_⟩
      · intro name
        rw [noted, ParsedArgs.store, h.flags]
        simp
      · intro name
        rw [noted, ParsedArgs.store, Map.get?_set]
        by_cases hn : name = n
        · simp [hn, ArgItem.value?]
        · rw [if_neg hn, h.values]
          simp [Ne.symm hn, ArgItem.value?]
      · intro name
        rw [noted, ParsedArgs.store, Map.get?_set]
        by_cases hn : name = n
        · rw [if_pos hn, Option.getD_some, h.repeats, hn]
          simp [ArgItem.value?]
        · rw [if_neg hn, h.repeats]
          simp [Ne.symm hn, ArgItem.value?]
      · rw [noted, ParsedArgs.store, h.positionals]
        simp [ArgItem.operand?]
      · rw [noted, h.help]
        simp
  | operand w =>
      refine ⟨?_, ?_, ?_, ?_, ?_⟩
      · intro name
        rw [noted, h.flags]
        simp
      · intro name
        rw [noted, h.values]
        simp [ArgItem.value?]
      · intro name
        rw [noted, h.repeats]
        simp [ArgItem.value?]
      · rw [noted, h.positionals]
        simp [ArgItem.operand?]
      · rw [noted, h.help]
        simp
  | help =>
      refine ⟨?_, ?_, ?_, ?_, ?_⟩
      · intro name
        rw [noted, h.flags]
        simp
      · intro name
        rw [noted, h.values]
        simp [ArgItem.value?]
      · intro name
        rw [noted, h.repeats]
        simp [ArgItem.value?]
      · rw [noted, h.positionals]
        simp [ArgItem.operand?]
      · rw [noted]
        simp

/-- **The accumulators of the loop hold what the items so far say.** -/
theorem collects_foldl {acc : ParsedArgs × Bool} {done : List ArgItem}
    (h : Collects done acc.1 acc.2) (items : List ArgItem) :
    Collects (done ++ items) (items.foldl noted acc).1 (items.foldl noted acc).2 := by
  induction items generalizing acc done with
  | nil => simpa using h
  | cons item rest ih => simpa using ih (collects_noted h item)

/-! ### The loop follows a spelling -/

theorem IsOption.not_operand (h : IsOption a) :
    (false || decide (a = "-") || !startsWithString a "-") = false := by
  simp [h.1, h.2.1]

/-- An option the table knows, at the front of the words. -/
theorem parseArgsFrom_bare {n : String} {s : ArgSpec} (ha : IsOption a) (hn : Writes n none a)
    (hs : named specs n = some s) (rest : List String) (acc : ParsedArgs × Bool) :
    parseArgsFrom specs (a :: rest) acc.1 acc.2 false
      = if s.kind = .flag then parseArgsFrom specs rest (noted acc (.flag s.name)).1 acc.2 false
        else
          match rest with
          | value :: rest => parseArgsFrom specs rest (acc.1.store s.name value) acc.2 false
          | [] => .error ("option --" ++ s.name ++ " requires a value") := by
  have hread := readOption_of_writes hn
  rw [parseArgsFrom, if_neg (by rw [ha.not_operand]; simp), if_neg ha.2.2.1,
    if_neg (not_or.mpr ⟨ha.2.2.2.1, ha.2.2.2.2⟩), hread]
  simp only [findSpec_eq, hs]
  cases rest <;> rfl

/-- The same with the value in the word. -/
theorem parseArgsFrom_inlined {n v : String} {s : ArgSpec} (ha : IsOption a)
    (hn : Writes n (some v) a) (hs : named specs n = some s) (rest : List String)
    (acc : ParsedArgs × Bool) :
    parseArgsFrom specs (a :: rest) acc.1 acc.2 false
      = if s.kind = .flag then .error ("option --" ++ s.name ++ " takes no value")
        else parseArgsFrom specs rest (acc.1.store s.name v) acc.2 false := by
  have hread := readOption_of_writes hn
  rw [parseArgsFrom, if_neg (by rw [ha.not_operand]; simp), if_neg ha.2.2.1,
    if_neg (not_or.mpr ⟨ha.2.2.2.1, ha.2.2.2.2⟩), hread]
  simp only [findSpec_eq, hs]

/-- **The loop goes through the words of a spelling and collects its items.** -/
theorem parseArgsFrom_leads (h : Leads specs items words) (rest : List String)
    (acc : ParsedArgs × Bool) :
    parseArgsFrom specs (words ++ rest) acc.1 acc.2 false
      = parseArgsFrom specs rest (items.foldl noted acc).1 (items.foldl noted acc).2 false := by
  induction h generalizing acc with
  | nil => rfl
  | operand a ha h ih =>
      have hcond : (false || decide (a = "-") || !startsWithString a "-") = true := by
        rcases ha with ha | ha
        · simp [ha]
        · simp [ha]
      rw [List.cons_append, parseArgsFrom, if_pos hcond, List.foldl_cons, ← ih]
      rfl
  | help a ha h ih =>
      have hcond : (false || decide (a = "-") || !startsWithString a "-") = false := by
        rcases ha with ha | ha
        · subst ha; decide
        · subst ha; decide
      have hends : a ≠ "--" := by
        rcases ha with ha | ha
        · subst ha; decide
        · subst ha; decide
      rw [List.cons_append, parseArgsFrom, if_neg (by rw [hcond]; simp), if_neg hends, if_pos ha,
        List.foldl_cons, ← ih]
      rfl
  | flag a n s ha hn hs hk h ih =>
      rw [List.cons_append, parseArgsFrom_bare ha hn hs, if_pos hk, List.foldl_cons, ← ih]
      rfl
  | inlined a n v s ha hn hs hk h ih =>
      rw [List.cons_append, parseArgsFrom_inlined ha hn hs, if_neg hk, List.foldl_cons, ← ih]
      rfl
  | separate a n v s ha hn hs hk h ih =>
      rw [List.cons_append, List.cons_append, parseArgsFrom_bare ha hn hs, if_neg hk,
        List.foldl_cons, ← ih]
      rfl

/-- Behind a `--` every word is an operand. -/
theorem parseArgsFrom_operands (operands : List String) (acc : ParsedArgs × Bool) :
    parseArgsFrom specs operands acc.1 acc.2 true
      = .ok ((operands.map ArgItem.operand).foldl noted acc) := by
  induction operands generalizing acc with
  | nil => rfl
  | cons w rest ih =>
      rw [parseArgsFrom, if_pos (by simp), List.map_cons, List.foldl_cons, ← ih]
      rfl

/-- The parser accepts a spelling, with what its items say. -/
theorem parseArgs_of_spells (h : Spells specs items words) :
    parseArgs words specs = .ok (items.foldl noted ({}, false)) := by
  unfold parseArgs
  cases h with
  | openEnded h =>
      have hrun := parseArgsFrom_leads h [] ({}, false)
      rw [List.append_nil] at hrun
      exact hrun
  | @ended items words h operands =>
      have hrun := parseArgsFrom_leads h ("--" :: operands) ({}, false)
      have hends : parseArgsFrom specs ("--" :: operands) (items.foldl noted ({}, false)).1
          (items.foldl noted ({}, false)).2 false
        = parseArgsFrom specs operands (items.foldl noted ({}, false)).1
          (items.foldl noted ({}, false)).2 true := by
        rw [parseArgsFrom, if_neg (by decide), if_pos rfl]
      rw [hrun, hends, parseArgsFrom_operands, List.foldl_append]

/-- The parser stops at an offending word, and says what is wrong with it. -/
theorem parseArgs_of_offends {pre post : List String} {e : String} (h : Leads specs items pre)
    (ho : Offends specs a post e) : parseArgs (pre ++ a :: post) specs = .error e := by
  unfold parseArgs
  have hrun := parseArgsFrom_leads h (a :: post) ({}, false)
  refine hrun.trans ?_
  cases ho with
  | unknown n v ha hn hs =>
      have hread := readOption_of_writes hn
      rw [parseArgsFrom, if_neg (by rw [ha.not_operand]; simp), if_neg ha.2.2.1,
        if_neg (not_or.mpr ⟨ha.2.2.2.1, ha.2.2.2.2⟩), hread]
      simp only [findSpec_eq, hs]
  | takesNone n v s ha hn hs hk => rw [parseArgsFrom_inlined ha hn hs, if_pos hk]
  | missing n s ha hn hs hk hrest => rw [parseArgsFrom_bare ha hn hs, if_neg hk, hrest]

/-! ### Every command line is one or the other -/

/-- **A list of words spells a list of items, or there is a first word that none can begin
with.** -/
theorem spells_or_offends (specs : List ArgSpec) (words : List String) :
    (∃ items, Spells specs items words) ∨
      ∃ items pre a post e, words = pre ++ a :: post ∧ Leads specs items pre ∧
        Offends specs a post e := by
  induction hlen : words.length using Nat.strongRecOn generalizing words with
  | ind k ih =>
  -- an item in front of words that are one or the other
  have hfront : ∀ {item rest} (front : List String), words = front ++ rest → front ≠ [] →
      (∀ {items words}, Leads specs items words → Leads specs (item :: items) (front ++ words)) →
      (∃ items, Spells specs items words) ∨
        ∃ items pre a post e, words = pre ++ a :: post ∧ Leads specs items pre ∧
          Offends specs a post e := by
    intro item rest front hwords hne hlead
    have hlt : rest.length < k := by
      have hpos := List.length_pos_iff.mpr hne
      rw [← hlen, hwords, List.length_append]
      omega
    rcases ih _ hlt rest rfl with ⟨items, hspells⟩ | ⟨items, pre, a, post, e, hrest, hleads, ho⟩
    · left
      rw [hwords]
      cases hspells with
      | openEnded h => exact ⟨_, .openEnded (hlead h)⟩
      | @ended items words h operands =>
          refine ⟨(item :: items) ++ operands.map .operand, ?_⟩
          rw [← List.append_assoc]
          exact .ended (hlead h) operands
    · right
      exact ⟨item :: items, front ++ pre, a, post, e, by rw [hwords, hrest, List.append_assoc],
        hlead hleads, ho⟩
  cases words with
  | nil => exact .inl ⟨[], .openEnded .nil⟩
  | cons a rest =>
      by_cases hoperand : IsOperand a
      · exact hfront [a] rfl (by simp) fun h => .operand a hoperand h
      by_cases hends : a = "--"
      · left
        subst hends
        exact ⟨_, .ended .nil rest⟩
      by_cases hhelp : a = "--help" ∨ a = "-h"
      · exact hfront [a] rfl (by simp) fun h => .help a hhelp h
      have hdash : startsWithString a "-" = true := by
        by_cases h : startsWithString a "-" = true
        · exact h
        · exact absurd (.inr (by simpa using h)) hoperand
      have ha : IsOption a :=
        ⟨hdash, fun h => hoperand (.inl h), hends, fun h => hhelp (.inl h), fun h => hhelp (.inr h)⟩
      obtain ⟨n, v, hn⟩ := exists_writes hdash
      cases hs : named specs n with
      | none => exact .inr ⟨[], [], a, rest, _, rfl, .nil, .unknown n v ha hn hs⟩
      | some s =>
          by_cases hk : s.kind = .flag
          · cases v with
            | some v => exact .inr ⟨[], [], a, rest, _, rfl, .nil, .takesNone n v s ha hn hs hk⟩
            | none => exact hfront [a] rfl (by simp) fun h => .flag a n s ha hn hs hk h
          · cases v with
            | some v =>
                exact hfront [a] rfl (by simp) fun h => .inlined a n v s ha hn hs hk h
            | none =>
                cases rest with
                | nil => exact .inr ⟨[], [], a, [], _, rfl, .nil, .missing n s ha hn hs hk rfl⟩
                | cons v rest =>
                    exact hfront [a, v] rfl (by simp)
                      fun h => .separate a n v s ha hn hs hk h

/-- **The parser accepts the command lines that spell a list of items, and answers with what
the items say**: the flags given, of each option the last value and all of them in order, the
operands in order, and whether help was asked for. -/
theorem parseArgs_spells (specs : List ArgSpec) (argv : List String) :
    (∀ items, Spells specs items argv → ∃ parsed help,
      parseArgs argv specs = .ok (parsed, help) ∧ Collects items parsed help) ∧
    ∀ parsed help, parseArgs argv specs = .ok (parsed, help) →
      ∃ items, Spells specs items argv ∧ Collects items parsed help := by
  have hspelled : ∀ items, Spells specs items argv → ∃ parsed help,
      parseArgs argv specs = .ok (parsed, help) ∧ Collects items parsed help := by
    intro items h
    have hstart : Collects [] (({}, false) : ParsedArgs × Bool).1 false := collects_nil
    exact ⟨_, _, parseArgs_of_spells h, collects_foldl hstart items⟩
  refine ⟨hspelled, ?_⟩
  intro parsed help hok
  rcases spells_or_offends specs argv with ⟨items, h⟩ | ⟨items, pre, a, post, e, hargv, h, ho⟩
  · obtain ⟨parsed', help', hok', hcollects⟩ := hspelled items h
    rw [hok] at hok'
    obtain ⟨rfl, rfl⟩ := Prod.mk.inj (Except.ok.inj hok')
    exact ⟨items, h, hcollects⟩
  · rw [hargv, parseArgs_of_offends h ho] at hok
    cases hok

example : (parseArgs ["a", "--limit=5", "--", "-x"] [⟨"limit", .value, none⟩]).map
    (fun r => (r.1.values.get? "limit", r.1.positionals)) = .ok (some "5", ["a", "-x"]) := by
  decide +kernel

/-- **The parser refuses exactly the command lines with an offending word, and its error is
about the first**: a name no option has, a value for a flag, or an option at the end that
lacks its value. -/
theorem parseArgs_error_iff (specs : List ArgSpec) (argv : List String) (e : String) :
    parseArgs argv specs = .error e ↔
      ∃ items pre a post, argv = pre ++ a :: post ∧ Leads specs items pre ∧
        Offends specs a post e := by
  constructor
  · intro herror
    rcases spells_or_offends specs argv with ⟨items, h⟩ | ⟨items, pre, a, post, e', hargv, h, ho⟩
    · rw [parseArgs_of_spells h] at herror
      cases herror
    · rw [hargv, parseArgs_of_offends h ho] at herror
      cases herror
      exact ⟨items, pre, a, post, hargv, h, ho⟩
  · rintro ⟨items, pre, a, post, rfl, h, ho⟩
    exact parseArgs_of_offends h ho

end PiMesh
