/-
A task package at its second gate.

`validateTaskPackage` answers with a copy: texts trimmed, paths without repetitions, the
deadline in ISO form.  Each field of the copy passes its own check again and comes out as it
is.  What is left is the size: the first check is made of what came in, and the ISO form of a
short deadline is longer, so a package near the limit can come out above it.
-/
import PiMesh.Extension.Tools
import PiMesh.Proofs.Rules
import PiMesh.Broker.Reference

namespace PiMesh

open Js TaskPackage

variable {ν : Type} [Number ν]

/-- `JSON.stringify(value).length`. -/
def jsonLength (value : Json ν) : Nat := ((Json.stringify value).map utf16Size).sum

/-! ### One field -/

theorem text_some {o : Option (Json ν)} {max : Nat} {s : String} (h : text o max = some s) :
    (∃ raw, o = some (.str raw) ∧ s = trim raw) ∧ 0 < strLength s ∧ strLength s ≤ max := by
  unfold text at h
  split at h
  · next raw =>
    dsimp only at h
    split at h
    · cases h
    · next hlength =>
      obtain rfl := Option.some.inj h
      refine ⟨⟨raw, rfl, rfl⟩, ?_, ?_⟩
      · omega
      · omega
  · cases h

/-- A text that is accepted is accepted again, as it is. -/
theorem text_again {o : Option (Json ν)} {max : Nat} {s : String} (h : text o max = some s) :
    text (some (.str s : Json ν)) max = some s := by
  obtain ⟨⟨raw, -, rfl⟩, hpos, hle⟩ := text_some h
  unfold text
  dsimp only
  rw [trim_trim, if_neg (by omega)]

theorem relativePath_text {v : Json ν} {p : String} (h : relativePath v = some p) :
    text (some v) 256 = some p := by
  unfold relativePath at h
  split at h
  · cases h
  · next s hs =>
    split at h
    · cases h
    · split at h
      · cases h
      · rw [hs, h]

theorem relativePath_again {v : Json ν} {p : String} (h : relativePath v = some p) :
    relativePath (.str p : Json ν) = some p := by
  have htext := relativePath_text h
  unfold relativePath at h ⊢
  rw [text_again htext]
  rw [htext] at h
  exact h

/-! ### The paths -/

/-- The texts in order, without repetitions. -/
def distinct (ps : List String) : List String :=
  ps.foldl (fun acc p => if acc.contains p then acc else acc ++ [p]) []

/-- What `trim` leaves of a text member. -/
def trimmedText (o : Option (Json ν)) : String :=
  match o with
  | some (.str s) => trim s
  | _ => ""

theorem trimmedText_of_text {o : Option (Json ν)} {max : Nat} {s : String} (h : text o max = some s) :
    trimmedText o = s := by
  obtain ⟨⟨raw, rfl, rfl⟩, -⟩ := text_some h
  rfl

structure PathsRead (acc paths : List String) (count : Nat) : Prop where
  relative : ∀ p ∈ paths, p ∈ acc ∨ relativePath (.str p : Json ν) = some p
  nodup : acc.Nodup → paths.Nodup
  length : paths.length ≤ acc.length + count
  grows : acc.length ≤ paths.length
  nonempty : 0 < count → paths ≠ []

theorem readPaths_read {items : List (Json ν)} {acc paths : List String}
    (h : readPaths items acc = some paths) : PathsRead (ν := ν) acc paths items.length := by
  induction items generalizing acc with
  | nil =>
      obtain rfl := Option.some.inj h
      exact ⟨fun p hp => .inl hp, id, Nat.le_refl _, Nat.le_refl _, fun h => absurd h (Nat.lt_irrefl 0)⟩
  | cons v rest ih =>
      rw [readPaths] at h
      cases hv : relativePath v with
      | none =>
          rw [hv] at h
          cases h
      | some p =>
          rw [hv] at h
          have hread := ih h
          by_cases hmem : acc.contains p = true
          · rw [if_pos hmem] at hread
            refine ⟨hread.relative, hread.nodup, ?_, hread.grows, fun _ => ?_⟩
            · have hle := hread.length
              rw [List.length_cons]
              omega
            · have hpos := List.length_pos_of_mem (List.contains_iff_mem.mp hmem)
              have hgrows := hread.grows
              exact List.ne_nil_of_length_pos (by omega)
          · rw [if_neg hmem] at hread
            have hnot : p ∉ acc := fun hp => hmem (List.contains_iff_mem.mpr hp)
            refine ⟨fun q hq => ?_, fun hnodup => hread.nodup ?_, ?_, ?_, fun _ => ?_⟩
            · rcases hread.relative q hq with hold | hrel
              · rcases List.mem_append.mp hold with hold | hnew
                · exact .inl hold
                · rw [List.mem_singleton.mp hnew]
                  exact .inr (relativePath_again hv)
              · exact .inr hrel
            · rw [List.nodup_append]
              refine ⟨hnodup, List.nodup_singleton p, fun a ha b hb heq => ?_⟩
              rw [List.mem_singleton.mp hb] at heq
              exact hnot (heq ▸ ha)
            · have hle := hread.length
              rw [List.length_append, List.length_singleton] at hle
              rw [List.length_cons]
              omega
            · have hgrows := hread.grows
              rw [List.length_append] at hgrows
              omega
            · have hgrows := hread.grows
              rw [List.length_append, List.length_singleton] at hgrows
              exact List.ne_nil_of_length_pos (by omega)

/-- Paths that are relative and distinct are read as they are. -/
theorem readPaths_again {acc paths : List String} (hnodup : (acc ++ paths).Nodup)
    (hrelative : ∀ p ∈ paths, relativePath (.str p : Json ν) = some p) :
    readPaths (paths.map (.str : String → Json ν)) acc = some (acc ++ paths) := by
  induction paths generalizing acc with
  | nil =>
      rw [List.append_nil]
      rfl
  | cons p rest ih =>
      have hnot : acc.contains p = false := by
        rw [Bool.eq_false_iff]
        intro hmem
        have hdisjoint := (List.nodup_append.mp hnodup).2.2
        exact hdisjoint p (List.contains_iff_mem.mp hmem) p (by simp) rfl
      rw [List.map_cons, readPaths, hrelative p (by simp)]
      dsimp only
      rw [if_neg (by rw [hnot]; exact Bool.false_ne_true), ih ?_ fun q hq => hrelative q (by simp [hq])]
      · simp
      · simpa using hnodup

/-- What is read of the items is their trimmed texts, without repetitions. -/
theorem readPaths_distinct {items : List (Json ν)} {acc paths : List String}
    (h : readPaths items acc = some paths) :
    paths = (items.map fun v => trimmedText (some v)).foldl
      (fun acc p => if acc.contains p then acc else acc ++ [p]) acc := by
  induction items generalizing acc with
  | nil => exact (Option.some.inj h).symm
  | cons v rest ih =>
      rw [readPaths] at h
      cases hv : relativePath v with
      | none =>
          rw [hv] at h
          cases h
      | some p =>
          rw [hv] at h
          rw [List.map_cons, List.foldl_cons, trimmedText_of_text (relativePath_text hv)]
          exact ih h

/-! ### The package -/

/-- What is read of the members of an accepted package, and what comes out. -/
structure PackageRead (rt : Runtime) (members bb rep : Members ν) (items : List (Json ν)) (ms : Int)
    (p : MeshTaskPackage) : Prop where
  size : jsonLength (.obj members) ≤ maxTaskPackageBytes
  keys : hasExactKeys members exactKeys = true
  task : text (lookupEntry "task" members) 128 = some p.task
  taskId : isTaskId p.task = true
  goalAcceptance : text (lookupEntry "goalAcceptance" members) 1024 = some p.goalAcceptance
  array : lookupEntry "paths" members = some (.arr items)
  count : 0 < items.length ∧ items.length ≤ maxTaskPaths
  paths : readPaths items [] = some p.paths
  branchBase : lookupEntry "branchBase" members = some (.obj bb)
  branchBaseKeys : hasExactKeys bb ["branch", "base"] = true
  branch : text (lookupEntry "branch" bb) 128 = some p.branch
  base : text (lookupEntry "base" bb) 256 = some p.base
  reply : lookupEntry "reply" members = some (.obj rep)
  replyKeys : hasExactKeys rep ["to", "deadline", "format"] = true
  replyTo : text (lookupEntry "to" rep) 128 = some p.replyTo
  date : (text (lookupEntry "deadline" rep) 64).bind rt.dateParse = some ms
  deadline : p.deadline = rt.toISOString ms
  format : text (lookupEntry "format" rep) 256 = some p.format

theorem validateTaskPackage_read {rt : Runtime} {value : Json ν} {p : MeshTaskPackage}
    (h : validateTaskPackage rt value = .ok p) :
    ∃ members bb rep items ms, value = .obj members ∧ PackageRead rt members bb rep items ms p := by
  cases value with
  | obj members =>
      unfold validateTaskPackage at h
      dsimp only at h
      split at h
      · cases h
      next hsize =>
      split at h
      · cases h
      next hkeys =>
      cases htask : text (lookupEntry "task" members) 128 with
      | none => rw [htask] at h; cases h
      | some task =>
      rw [htask] at h
      dsimp only at h
      split at h
      · cases h
      next htaskId =>
      cases hgoal : text (lookupEntry "goalAcceptance" members) 1024 with
      | none => rw [hgoal] at h; cases h
      | some goal =>
      rw [hgoal] at h
      dsimp only at h
      split at h
      swap
      · cases h
      next items hitems =>
      split at h
      · cases h
      next hcount =>
      cases hpaths : readPaths items [] with
      | none => rw [hpaths] at h; cases h
      | some paths =>
      rw [hpaths] at h
      dsimp only at h
      split at h
      swap
      · cases h
      next bb hbb =>
      split at h
      · cases h
      next hbbKeys =>
      split at h
      · cases h
      · cases h
      next branch base hbranch hbase =>
      split at h
      swap
      · cases h
      next rep hrep =>
      split at h
      · cases h
      next hrepKeys =>
      split at h
      · cases h
      next replyTo hreplyTo =>
      split at h
      · cases h
      next ms hdate =>
      split at h
      · cases h
      next format hformat =>
      obtain rfl := Except.ok.inj h
      refine ⟨members, bb, rep, items, ms, rfl, ?_⟩
      exact
        { size := Nat.le_of_not_lt hsize
          keys := by simpa using hkeys
          task := htask
          taskId := by simpa using htaskId
          goalAcceptance := hgoal
          array := hitems
          count := by omega
          paths := hpaths
          branchBase := hbb
          branchBaseKeys := by simpa using hbbKeys
          branch := hbranch
          base := hbase
          reply := hrep
          replyKeys := by simpa using hrepKeys
          replyTo := hreplyTo
          date := hdate
          deadline := rfl
          format := hformat }
  | _ => cases h

theorem validateTaskPackage_of_read {rt : Runtime} {members bb rep : Members ν}
    {items : List (Json ν)} {ms : Int} {p : MeshTaskPackage}
    (h : PackageRead rt members bb rep items ms p) : validateTaskPackage rt (.obj members) = .ok p := by
  have hcount := h.count
  have hsize : ¬ ((Json.stringify (.obj members)).map utf16Size).sum > maxTaskPackageBytes :=
    Nat.not_lt_of_le h.size
  unfold validateTaskPackage
  dsimp only
  rw [if_neg hsize, if_neg (by simp [h.keys]), h.task]
  dsimp only
  rw [if_neg (by simp [h.taskId]), h.goalAcceptance]
  dsimp only
  rw [h.array]
  dsimp only
  rw [if_neg (by omega), h.paths]
  dsimp only
  rw [h.branchBase]
  dsimp only
  rw [if_neg (by simp [h.branchBaseKeys]), h.branch, h.base]
  dsimp only
  rw [h.reply]
  dsimp only
  rw [if_neg (by simp [h.replyKeys]), h.replyTo]
  dsimp only
  rw [h.date]
  dsimp only
  rw [h.format]
  dsimp only
  rw [← h.deadline]

/-! ### The copy -/

/-- What `Date` promises of the dates it reads: their ISO form is read as the same date, and has
24 or 27 characters with no space among them. -/
structure DateTimes (rt : Runtime) : Prop where
  reads : ∀ s t, rt.dateParse s = some t → rt.dateParse (rt.toISOString t) = some t
  length : ∀ s t, rt.dateParse s = some t →
    strLength (rt.toISOString t) = 24 ∨ strLength (rt.toISOString t) = 27
  plain : ∀ s t, rt.dateParse s = some t → trim (rt.toISOString t) = rt.toISOString t

/-- The members of a member that is an object. -/
def membersOf (o : Option (Json ν)) : Members ν :=
  match o with
  | some (.obj ms) => ms
  | _ => []

/-- The items of a member that is an array. -/
def memberItems (o : Option (Json ν)) : List (Json ν) :=
  match o with
  | some (.arr items) => items
  | _ => []

/-- A package with its texts trimmed, no path twice and the deadline in ISO form. -/
def normalForm (rt : Runtime) (members : Members ν) : MeshTaskPackage :=
  let branchBase := membersOf (lookupEntry "branchBase" members)
  let reply := membersOf (lookupEntry "reply" members)
  { task := trimmedText (lookupEntry "task" members)
    goalAcceptance := trimmedText (lookupEntry "goalAcceptance" members)
    paths := distinct ((memberItems (lookupEntry "paths" members)).map fun v => trimmedText (some v))
    branch := trimmedText (lookupEntry "branch" branchBase)
    base := trimmedText (lookupEntry "base" branchBase)
    replyTo := trimmedText (lookupEntry "to" reply)
    deadline :=
      match rt.dateParse (trimmedText (lookupEntry "deadline" reply)) with
      | some t => rt.toISOString t
      | none => ""
    format := trimmedText (lookupEntry "format" reply) }

/-- The normal form of what comes in has room within the limit. -/
def FitsNormalized (rt : Runtime) (value : Json ν) : Prop :=
  jsonLength ((normalForm rt (membersOf (some value))).json : Json ν) ≤ maxTaskPackageBytes

section Copy

variable {rt : Runtime} {members bb rep : Members ν} {items : List (Json ν)} {ms : Int}
  {p : MeshTaskPackage}

theorem PackageRead.date_read (h : PackageRead rt members bb rep items ms p) :
    ∃ s, text (lookupEntry "deadline" rep) 64 = some s ∧ rt.dateParse s = some ms :=
  Option.bind_eq_some_iff.mp h.date

/-- The copy is the normal form of what came in. -/
theorem PackageRead.normal (h : PackageRead rt members bb rep items ms p) :
    normalForm rt members = p := by
  obtain ⟨s, hs, hdate⟩ := h.date_read
  unfold normalForm
  rw [trimmedText_of_text h.task, trimmedText_of_text h.goalAcceptance, h.branchBase, h.array,
    h.reply]
  dsimp only [membersOf, memberItems]
  rw [trimmedText_of_text h.branch, trimmedText_of_text h.base, trimmedText_of_text h.replyTo,
    trimmedText_of_text hs, hdate, trimmedText_of_text h.format, distinct,
    ← readPaths_distinct h.paths]
  dsimp only
  rw [← h.deadline]

/-- **Each field of the copy passes its own check again.** -/
theorem PackageRead.again (hdates : DateTimes rt) (h : PackageRead rt members bb rep items ms p) :
    validateTaskPackage rt (p.json : Json ν) = .ok p ↔
      jsonLength (p.json : Json ν) ≤ maxTaskPackageBytes := by
  constructor
  · intro hok
    obtain ⟨_, _, _, _, _, heq, hread⟩ := validateTaskPackage_read hok
    rw [heq]
    exact hread.size
  · intro hsize
    obtain ⟨s, -, hdate⟩ := h.date_read
    have hpaths := readPaths_read h.paths
    have hrelative : ∀ q ∈ p.paths, relativePath (.str q : Json ν) = some q := fun q hq =>
      (hpaths.relative q hq).resolve_left List.not_mem_nil
    have hdeadline : text (some (.str p.deadline : Json ν)) 64 = some p.deadline := by
      have hlength := hdates.length s ms hdate
      unfold text
      dsimp only
      rw [h.deadline, hdates.plain s ms hdate, if_neg (by omega)]
    refine validateTaskPackage_of_read (?_ : PackageRead rt _
      [("branch", .str p.branch), ("base", .str p.base)]
      [("to", .str p.replyTo), ("deadline", .str p.deadline), ("format", .str p.format)]
      (p.paths.map .str) ms _)
    exact
      { size := hsize
        keys := rfl
        task := text_again h.task
        taskId := h.taskId
        goalAcceptance := text_again h.goalAcceptance
        array := rfl
        count := by
          have hpos := List.length_pos_of_ne_nil (hpaths.nonempty h.count.1)
          have hle := hpaths.length
          have hcount := h.count
          rw [List.length_map]
          rw [List.length_nil] at hle
          omega
        paths := readPaths_again (hpaths.nodup List.nodup_nil) hrelative
        branchBase := rfl
        branchBaseKeys := rfl
        branch := text_again h.branch
        base := text_again h.base
        reply := rfl
        replyKeys := rfl
        replyTo := text_again h.replyTo
        date := by
          show (text (some (.str p.deadline : Json ν)) 64).bind rt.dateParse = some ms
          rw [hdeadline, Option.bind_some, h.deadline]
          exact hdates.reads s ms hdate
        deadline := h.deadline
        format := text_again h.format }

end Copy

/-! ### The gates -/

/-- A value is accepted with a package: directly, at the gate of a capability or by the tool. -/
inductive PackageAccepted (rt : Runtime) (value : Json ν) (p : MeshTaskPackage) : Prop
  | direct (hok : validateTaskPackage rt value = .ok p)
  | cap {target cap : String} (hok : checkCapSend rt target (some value) = .ok (cap, p))
  | tool {cap : Option String} (hok : sendPackage rt cap (some value) = .ok (some p))

/-- The package that is sent is accepted as it is, also by the frame check of who reads it. -/
def PassesGates (ν : Type) [Number ν] (rt : Runtime) (p : MeshTaskPackage) : Prop :=
  validateTaskPackage rt (p.json : Json ν) = .ok p ∧
    ∀ get : Get ν, get "taskPackage" = some (Json.wire p.json) → taskPackageRule rt get = none

theorem PackageAccepted.validated {rt : Runtime} {value : Json ν} {p : MeshTaskPackage}
    (h : PackageAccepted rt value p) : validateTaskPackage rt value = .ok p := by
  cases h with
  | direct hok => exact hok
  | cap hok =>
      unfold checkCapSend at hok
      split at hok
      · cases hok
      · dsimp only at hok
        split at hok
        · cases hok
        · next hpkg =>
          obtain ⟨-, rfl⟩ := Prod.mk.inj (Except.ok.inj hok)
          exact hpkg
  | @tool cap hok =>
      cases cap with
      | none | some cap =>
          unfold sendPackage at hok
          dsimp only at hok
          split at hok
          · cases hok
          · next hpkg =>
            obtain rfl := Option.some.inj (Except.ok.inj hok)
            exact hpkg

/-- **An accepted package passes every later gate exactly if its normal form fits.** -/
theorem package_passes_iff {rt : Runtime} (hdates : DateTimes rt) {value : Json ν}
    {p : MeshTaskPackage} (h : PackageAccepted rt value p) :
    PassesGates ν rt p ↔ FitsNormalized rt value := by
  obtain ⟨members, bb, rep, items, ms, rfl, hread⟩ := validateTaskPackage_read h.validated
  have hnormal : FitsNormalized rt (.obj members) ↔
      jsonLength (p.json : Json ν) ≤ maxTaskPackageBytes := by
    unfold FitsNormalized membersOf
    rw [hread.normal]
  rw [hnormal, ← hread.again hdates]
  refine ⟨And.left, fun hok => ⟨hok, fun get hget => ?_⟩⟩
  unfold taskPackageRule
  rw [hget]
  dsimp only
  rw [validateTaskPackage_wire, hok]

/-! ### At the limit -/

/-- A runtime that knows one day, in two forms. -/
def oneDay : Runtime :=
  { referenceRuntime with
    dateParse := fun s =>
      if s = "2026-01-01" ∨ s = "2026-01-01T00:00:00.000Z" then some 1767225600000 else none }

theorem oneDay_dates : DateTimes oneDay := by
  have honly : ∀ s t, oneDay.dateParse s = some t → t = 1767225600000 := by
    intro s t h
    dsimp only [oneDay] at h
    split at h
    · exact (Option.some.inj h).symm
    · cases h
  refine ⟨fun s t h => ?_, fun s t h => ?_, fun s t h => ?_⟩
  · rw [honly s t h]
    decide +kernel
  · rw [honly s t h]
    decide +kernel
  · rw [honly s t h]
    decide +kernel

/-- A package with a goal of control characters, each of which takes six characters in JSON. -/
def controlPackage (goal : Nat) (deadline : String) : MeshTaskPackage where
  task := "t"
  goalAcceptance := String.ofList (List.replicate goal '\x01')
  paths := ["p"]
  branch := "b"
  base := "m"
  replyTo := "r"
  deadline
  format := "f"

theorem quote_control (n : Nat) :
    ((Json.quote (List.replicate n '\x01')).map utf16Size).sum = 6 * n + 2 := by
  have hescaped : (((List.replicate n '\x01').flatMap Json.escapeChar).map utf16Size).sum = 6 * n := by
    induction n with
    | zero => rfl
    | succ n ih =>
        have hone : ((Json.escapeChar '\x01').map utf16Size).sum = 6 := by decide
        rw [List.replicate_succ, List.flatMap_cons, List.map_append, List.sum_append, ih, hone]
        omega
  have hmark : utf16Size '"' = 1 := by decide
  unfold Json.quote
  rw [List.map_cons, List.sum_cons, List.map_append, List.sum_append, hescaped, hmark]
  simp [hmark]
  omega

theorem jsonLength_control (n : Nat) (deadline : String) :
    jsonLength ((controlPackage n deadline).json : Json Int) =
      6 * n + jsonLength ((controlPackage 0 deadline).json : Json Int) := by
  simp only [jsonLength, controlPackage, MeshTaskPackage.json, Json.stringify, Json.stringifyMembers,
    List.map_cons, List.map_append, List.sum_cons, List.sum_append, String.toList_ofList,
    quote_control]
  omega

theorem text_control {n : Nat} (hpos : 0 < n) (hle : n ≤ 1024) :
    text (some (.str (String.ofList (List.replicate n '\x01')) : Json Int)) 1024 =
      some (String.ofList (List.replicate n '\x01')) := by
  obtain ⟨m, rfl⟩ : ∃ m, n = m + 1 := ⟨n - 1, by omega⟩
  have hkept : ¬ isTrimmed '\x01' = true := by decide
  have htrim : trim (String.ofList (List.replicate (m + 1) '\x01')) =
      String.ofList (List.replicate (m + 1) '\x01') := by
    unfold trim
    rw [String.toList_ofList, List.replicate_succ, List.dropWhile_cons_of_neg hkept,
      ← List.replicate_succ, List.reverse_replicate, List.replicate_succ,
      List.dropWhile_cons_of_neg hkept, ← List.replicate_succ, List.reverse_replicate]
  have hlength : strLength (String.ofList (List.replicate (m + 1) '\x01')) = m + 1 := by
    have hone : utf16Size '\x01' = 1 := by decide
    unfold strLength
    rw [String.toList_ofList, List.map_replicate, hone]
    simp
  unfold text
  dsimp only
  rw [htrim, hlength, if_neg (by omega)]

/-- It is accepted while it fits. -/
theorem control_accepted {n : Nat} (hpos : 0 < n) (hle : n ≤ 658) :
    validateTaskPackage oneDay ((controlPackage n "2026-01-01").json : Json Int) =
      .ok (controlPackage n "2026-01-01T00:00:00.000Z") := by
  have hshort : jsonLength ((controlPackage 0 "2026-01-01").json : Json Int) = 141 := by decide +kernel
  have hletter : ∀ s ∈ ["t", "b", "m", "r", "f"], ∀ max ∈ [128, 256],
      text (some (.str s : Json Int)) max = some s := by decide +kernel
  have hpaths : readPaths [(.str "p" : Json Int)] [] = some ["p"] := by decide +kernel
  have hdate : (text (some (.str "2026-01-01" : Json Int)) 64).bind oneDay.dateParse =
      some 1767225600000 := by decide +kernel
  have hiso : "2026-01-01T00:00:00.000Z" = oneDay.toISOString 1767225600000 := by decide +kernel
  have hid : isTaskId "t" = true := by decide +kernel
  refine validateTaskPackage_of_read (?_ : PackageRead oneDay _
    [("branch", .str "b"), ("base", .str "m")]
    [("to", .str "r"), ("deadline", .str "2026-01-01"), ("format", .str "f")]
    [.str "p"] 1767225600000 _)
  exact
    { size := by
        show jsonLength ((controlPackage n "2026-01-01").json : Json Int) ≤ 4096
        rw [jsonLength_control, hshort]
        omega
      keys := rfl
      task := hletter "t" (by simp) 128 (by simp)
      taskId := hid
      goalAcceptance := text_control hpos (by omega)
      array := rfl
      count := by decide
      paths := hpaths
      branchBase := rfl
      branchBaseKeys := rfl
      branch := hletter "b" (by simp) 128 (by simp)
      base := hletter "m" (by simp) 256 (by simp)
      reply := rfl
      replyKeys := rfl
      replyTo := hletter "r" (by simp) 128 (by simp)
      date := hdate
      deadline := hiso
      format := hletter "f" (by simp) 256 (by simp) }

/-- A short package passes. -/
theorem package_passes_short :
    PassesGates Int oneDay (controlPackage 1 "2026-01-01T00:00:00.000Z") := by
  refine (package_passes_iff oneDay_dates
    (.direct (control_accepted (by decide) (by decide)))).mpr ?_
  show jsonLength _ ≤ maxTaskPackageBytes
  decide +kernel

/-- A package of 4089 characters is accepted, and its copy has 4103. -/
theorem package_outgrows_limit :
    validateTaskPackage oneDay ((controlPackage 658 "2026-01-01").json : Json Int) =
      .ok (controlPackage 658 "2026-01-01T00:00:00.000Z") ∧
    ¬ PassesGates Int oneDay (controlPackage 658 "2026-01-01T00:00:00.000Z") := by
  refine ⟨control_accepted (by decide) (by decide), fun hpasses => ?_⟩
  have hshort : jsonLength ((controlPackage 0 "2026-01-01T00:00:00.000Z").json : Json Int) = 155 := by
    decide +kernel
  obtain ⟨members, _, _, _, _, heq, hread⟩ := validateTaskPackage_read hpasses.1
  have hsize := hread.size
  rw [← heq, jsonLength_control, hshort] at hsize
  exact absurd hsize (by decide)

end PiMesh
