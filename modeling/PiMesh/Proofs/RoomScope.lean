/-
Which rooms a session gets.

`resolveRoomScope` is measured against what its comments promise.  Everything about its result
follows from two counts and a list: the other rooms, in order, without the project room, the
default room and whatever is taken for an earlier name of the project; how often the default
room is asked for; and how often the project room is.  Their sum is the number of rooms asked
for, and where the cap does not hold them all, the default rooms are shed as far as needed and
the other rooms from the end.
-/
import PiMesh.Shared.ProjectRoom
import PiMesh.Broker.Reference
import Mathlib.Data.List.Basic
import Mathlib.Logic.Relation

namespace PiMesh

open Js

/-! ### What is asked of the rooms -/

/-- The slug of a room of the form `proj.<slug>.<tail>`. -/
def derivedSlug? (room : String) : Option String :=
  if startsWithString room projectRoomPrefix &&
      (lastDot room.toList).any (fun i => projectRoomPrefix.toList.length ≤ i) then
    some (slugOf room)
  else none

/-- Six hexadecimal digits. -/
def isRoomHash (l : List Char) : Bool :=
  l.length == projectRoomHashChars && l.all (fun c => c.isDigit || ('a' ≤ c && c ≤ 'f'))

/-- The room is named exactly `proj.<slug>.<hex6>`, with the slug of the project room. -/
def isOwnGhost (projectRoom room : String) : Bool :=
  (derivedSlug? projectRoom).any fun slug =>
    let head := projectRoomPrefix ++ slug ++ "."
    startsWithString room head && isRoomHash (room.toList.drop head.toList.length)

namespace ScopeArgs

/-- `configured`. -/
def configured (args : ScopeArgs) : List String := args.configuredRooms.getD []

/-- A listed room that the configuration names. -/
def Chosen (args : ScopeArgs) (room : String) : Prop := room ∈ args.base ∧ room ∈ args.configured

/-- The cap holds all of these. -/
def ChosenFit (args : ScopeArgs) : Prop :=
  (args.base.filter args.configured.contains).dedup.length ≤ args.cap

/-- Rooms that may go: an earlier name of the project, and in project mode a default room
that is not configured. -/
def mayGo (projectRoom : String) (args : ScopeArgs) (room : String) : Bool :=
  isOwnGhost projectRoom room ||
    (args.roomMode = some .project && room == defaultRoom && !args.configured.contains defaultRoom)

end ScopeArgs

/-- What the comments promise of a result. -/
structure ScopePromise (projectRoom : String) (args : ScopeArgs) (scope : RoomScope) : Prop where
  atMost : scope.rooms.length ≤ args.cap
  broadcast : scope.broadcastRoom ∈ scope.rooms
  project : scope.degraded = none → projectRoom ∈ scope.rooms
  kept : scope.degraded = none →
    (args.base.filter fun room => !args.mayGo projectRoom room).Sublist scope.rooms
  default : args.roomMode ≠ some .project →
    defaultRoom ∈ scope.rooms ∨ args.persistedRooms = true ∧ defaultRoom ∉ args.base
  chosen : args.ChosenFit → ∀ room, args.Chosen room → room ∈ scope.rooms
  /-- A room that was typed by hand is never dropped. -/
  typed : ∀ room ∈ args.base, args.mayGo projectRoom room = false → room ∈ scope.rooms

namespace ScopeArgs

/-- The listed rooms besides the project room, the default room and what is taken for stale. -/
def others (projectRoom : String) (args : ScopeArgs) : List String :=
  args.base.filter fun room =>
    !isStaleOwnProjectRoom room projectRoom && room ≠ projectRoom && room ≠ defaultRoom

/-- How often the default room is asked for. -/
def defaults (args : ScopeArgs) : Nat :=
  match args.roomMode with
  | some .project =>
      if args.configured.contains defaultRoom then args.base.count defaultRoom
      else args.base.count defaultRoom - 1
  | _ =>
      if args.persistedRooms && !args.base.contains defaultRoom then 0
      else max 1 (args.base.count defaultRoom)

/-- How often the project room is asked for, not counting it as the default room. -/
def projects (projectRoom : String) (args : ScopeArgs) : Nat :=
  if projectRoom = defaultRoom then 1 - args.defaults else max 1 (args.base.count projectRoom)

/-- How many rooms are asked for. -/
def asked (projectRoom : String) (args : ScopeArgs) : Nat :=
  (args.others projectRoom).length + args.defaults + args.projects projectRoom

/-- The room is not the project room, and there is a place for it. -/
def FirstTyped (projectRoom : String) (args : ScopeArgs) (room : String) : Prop :=
  room ≠ projectRoom ∧ if room = defaultRoom then (args.others projectRoom).length < args.cap
    else room ∈ (args.others projectRoom).take args.cap

/-- Where the promise is kept. -/
structure Sound (projectRoom : String) (args : ScopeArgs) : Prop where
  /-- No hand-typed room looks like the project's. -/
  ghosts : ∀ room ∈ args.base,
    isStaleOwnProjectRoom room projectRoom = true → isOwnGhost projectRoom room = true
  /-- Nor does a configured one, whatever it ends in. -/
  fresh : args.ChosenFit → ∀ room, args.Chosen room →
    isStaleOwnProjectRoom room projectRoom = false
  /-- Over the cap the configured rooms come first. -/
  first : args.cap < args.asked projectRoom → args.ChosenFit → ¬args.Chosen projectRoom ∧
    (args.cap ≤ (args.others projectRoom).length → ¬args.Chosen defaultRoom ∧
      ∀ room, args.Chosen room → room ∈ (args.others projectRoom).take args.cap)
  /-- Over the cap there is another room. -/
  another : args.cap < args.asked projectRoom →
    args.others projectRoom ≠ [] ∨ projectRoom ≠ defaultRoom ∧ 0 < args.defaults
  /-- Over the cap there is room for the default room beside the others. -/
  spare : args.cap < args.asked projectRoom → args.roomMode ≠ some .project →
    projectRoom ≠ defaultRoom ∧ (args.others projectRoom).length < args.cap ∨
      args.persistedRooms = true ∧ defaultRoom ∉ args.base
  /-- Over the cap the hand-typed rooms come first. -/
  typed : args.cap < args.asked projectRoom → ∀ room ∈ args.base,
    args.mayGo projectRoom room = false → args.FirstTyped projectRoom room

end ScopeArgs

/-! ### The slug -/

/-- The part between the prefix and the last dot. -/
theorem slugOf_named (slug : String) {tail : List Char} (htail : '.' ∉ tail) :
    slugOf (projectRoomPrefix ++ slug ++ "." ++ String.ofList tail) = slug := by
  have hl : (projectRoomPrefix ++ slug ++ "." ++ String.ofList tail).toList
      = projectRoomPrefix.toList ++ slug.toList ++ '.' :: tail := by
    simp [String.toList_append, List.append_assoc]
  have hdot : lastDot (projectRoomPrefix.toList ++ slug.toList ++ '.' :: tail)
      = some (projectRoomPrefix.toList ++ slug.toList).length := by
    have hfind : tail.reverse.findIdx? (· == '.') = none := by
      rw [List.findIdx?_eq_none_iff]
      intro c hc
      have hne : c ≠ '.' := fun heq => htail (heq ▸ List.mem_reverse.mp hc)
      simpa using hne
    unfold lastDot
    rw [List.reverse_append, List.reverse_cons, List.findIdx?_append, List.findIdx?_append, hfind]
    simp only [List.findIdx?_singleton, beq_self_eq_true, if_true, Option.map_some, Option.none_or,
      Option.some_or, List.length_reverse, List.length_append, List.length_cons, Option.some.injEq]
    omega
  unfold slugOf
  dsimp only
  rw [hl, hdot, Option.getD_some, List.take_left, List.drop_left, String.ofList_toList]

/-! ### Counting -/

section Counting

variable {α : Type} [DecidableEq α]

theorem length_eq_without (l : List α) (d : α) :
    l.length = (l.filter fun x => x ≠ d).length + l.count d := by
  induction l with
  | nil => rfl
  | cons x rest ih =>
      by_cases h : x = d
      · subst h
        simp only [ne_eq, not_true_eq_false, decide_false, Bool.false_eq_true, not_false_eq_true,
          List.filter_cons_of_neg, List.count_cons_self, List.length_cons, ih]
        omega
      · rw [List.filter_cons_of_pos (by simpa using h), List.count_cons_of_ne h, List.length_cons,
          List.length_cons, ih]
        omega

theorem filter_erase_without (l : List α) (d : α) :
    ((l.erase d).filter fun x => x ≠ d) = l.filter fun x => x ≠ d := by
  induction l with
  | nil => rfl
  | cons x rest ih =>
      by_cases h : x = d
      · subst h
        rw [List.erase_cons_head, List.filter_cons_of_neg (by simp)]
      · rw [List.erase_cons_tail (by simpa using h), List.filter_cons_of_pos (by simpa using h),
          List.filter_cons_of_pos (by simpa using h), ih]

theorem count_without (l : List α) {a d : α} (h : a ≠ d) :
    (l.filter fun x => x ≠ d).count a = l.count a :=
  List.count_filter (p := fun x => decide (x ≠ d)) (by simpa using h)

theorem filter_without_of_count {l : List α} {d : α} (h : l.count d = 0) :
    (l.filter fun x => x ≠ d) = l := by
  rw [List.filter_eq_self]
  intro x hx
  have hd : d ∉ l := List.count_eq_zero.mp h
  have hne : x ≠ d := fun hc => hd (hc ▸ hx)
  simpa using hne

end Counting

theorem filter_sublist_of_imp {α : Type} {l : List α} {p q : α → Bool} (h : ∀ x ∈ l, p x = true → q x = true) :
    (l.filter p).Sublist (l.filter q) := by
  have heq : l.filter p = (l.filter q).filter p := by
    rw [List.filter_filter]
    refine List.filter_congr fun x hx => ?_
    cases hp : p x with
    | false => rfl
    | true => rw [h x hx hp]; rfl
  rw [heq]
  exact List.filter_sublist

/-- The loop leaves the rooms besides `default` as they are, and of `default` as many as there
is room for. -/
theorem shedDefault_spec (cap fuel : Nat) (l : List String) (hfuel : l.count defaultRoom ≤ fuel) :
    ((shedDefault cap fuel l).filter fun room => room ≠ defaultRoom)
        = (l.filter fun room => room ≠ defaultRoom) ∧
      (shedDefault cap fuel l).count defaultRoom
        = min (l.count defaultRoom) (cap - (l.filter fun room => room ≠ defaultRoom).length) := by
  induction fuel generalizing l with
  | zero =>
      have hzero : l.count defaultRoom = 0 := by omega
      exact ⟨rfl, by rw [hzero]; simp [shedDefault, hzero]⟩
  | succ fuel ih =>
      have hlen := length_eq_without l defaultRoom
      unfold shedDefault
      by_cases hmem : defaultRoom ∈ l
      · have hpos : 0 < l.count defaultRoom := List.count_pos_iff.mpr hmem
        by_cases hover : cap < l.length
        · rw [if_pos (by simp [hover, hmem])]
          have hcount : (l.erase defaultRoom).count defaultRoom = l.count defaultRoom - 1 :=
            List.count_erase_self
          obtain ⟨h₁, h₂⟩ := ih (l.erase defaultRoom) (by omega)
          rw [filter_erase_without] at h₁ h₂
          refine ⟨h₁, ?_⟩
          rw [h₂, hcount]
          omega
        · rw [if_neg (by simp [hover])]
          refine ⟨rfl, ?_⟩
          omega
      · have hzero : l.count defaultRoom = 0 := List.count_eq_zero.mpr hmem
        rw [if_neg (by simp [hmem])]
        refine ⟨rfl, ?_⟩
        omega

/-! ### The rooms asked for -/

section Asked

variable {projectRoom : String} {args : ScopeArgs}

theorem not_stale_self : isStaleOwnProjectRoom projectRoom projectRoom = false := by
  simp [isStaleOwnProjectRoom]

theorem not_stale_default : isStaleOwnProjectRoom defaultRoom projectRoom = false := by
  unfold isStaleOwnProjectRoom
  by_cases h : defaultRoom = projectRoom
  · rw [if_pos h]
  · rw [if_neg h]
    -- one begins with a `p` and the other with a `d`
    simp only [startsWithString, projectRoomPrefix, defaultRoom, String.toList_append]
    rfl

theorem ne_default_of_stale {room : String}
    (h : isStaleOwnProjectRoom room projectRoom = true) : room ≠ defaultRoom := by
  rintro rfl
  rw [not_stale_default] at h
  cases h

/-- `cleaned`. -/
def ScopeArgs.cleaned (projectRoom : String) (args : ScopeArgs) : List String :=
  args.base.filter fun room => !isStaleOwnProjectRoom room projectRoom

variable (projectRoom args) in
theorem count_cleaned_default : (args.cleaned projectRoom).count defaultRoom
    = args.base.count defaultRoom := List.count_filter (by rw [not_stale_default]; rfl)

theorem count_cleaned_project : (args.cleaned projectRoom).count projectRoom
    = args.base.count projectRoom := List.count_filter (by rw [not_stale_self]; rfl)

theorem mem_cleaned_default : defaultRoom ∈ args.cleaned projectRoom ↔ defaultRoom ∈ args.base := by
  rw [← List.count_pos_iff, count_cleaned_default, List.count_pos_iff]

/-- `wanted` by the mode. -/
theorem wanted_project (hmode : args.roomMode = some .project) : args.wanted projectRoom =
    if args.configured.contains defaultRoom then args.cleaned projectRoom
    else (args.cleaned projectRoom).erase defaultRoom := by
  unfold ScopeArgs.wanted
  rw [hmode]
  rfl

theorem wanted_both (hmode : args.roomMode ≠ some .default) (hmode' : args.roomMode ≠ some .project) :
    args.wanted projectRoom =
      if !args.base.contains defaultRoom && !args.persistedRooms then
        args.cleaned projectRoom ++ [defaultRoom]
      else args.cleaned projectRoom := by
  have hboth : args.roomMode.getD .both = .both := by
    cases hm : args.roomMode with
    | none => rfl
    | some mode =>
        cases mode with
        | default => exact absurd hm hmode
        | project => exact absurd hm hmode'
        | both => rfl
  have hmem : (args.cleaned projectRoom).contains defaultRoom = args.base.contains defaultRoom := by
    rw [Bool.eq_iff_iff, List.contains_iff_mem, List.contains_iff_mem, mem_cleaned_default]
  unfold ScopeArgs.wanted
  rw [hboth]
  show (if !(args.cleaned projectRoom).contains defaultRoom
      && !(args.persistedRooms && !args.base.contains defaultRoom) then _ else _) = _
  rw [hmem]
  cases args.base.contains defaultRoom <;> cases args.persistedRooms <;> rfl

variable (projectRoom) in
theorem count_wanted_default (hmode : args.roomMode ≠ some .default) :
    (args.wanted projectRoom).count defaultRoom = args.defaults := by
  have hcount := count_cleaned_default projectRoom args
  unfold ScopeArgs.defaults
  by_cases hproject : args.roomMode = some .project
  · rw [wanted_project hproject, hproject]
    dsimp only
    split
    · exact hcount
    · rw [List.count_erase_self, hcount]
  · rw [wanted_both hmode hproject]
    by_cases hmem : defaultRoom ∈ args.base
    · have hpos : 0 < args.base.count defaultRoom := List.count_pos_iff.mpr hmem
      have hcontains : args.base.contains defaultRoom = true := List.contains_iff_mem.mpr hmem
      rw [if_neg (by rw [hcontains]; simp), hcount]
      split
      · next hm => exact absurd hm hproject
      · rw [hcontains]
        simp only [Bool.not_true, Bool.and_false, Bool.false_eq_true, if_false]
        omega
    · have hzero : args.base.count defaultRoom = 0 := List.count_eq_zero.mpr hmem
      have hcontains : args.base.contains defaultRoom = false := by simpa using hmem
      split
      · next hadd =>
          have hpersisted : args.persistedRooms = false := by
            rw [hcontains] at hadd
            simpa using hadd
          rw [List.count_append, hcount, hzero, List.count_singleton_self]
          split
          · next hm => exact absurd hm hproject
          · rw [hpersisted]
            rfl
      · next hadd =>
          have hpersisted : args.persistedRooms = true := by
            rw [hcontains] at hadd
            simpa using hadd
          rw [hcount, hzero]
          split
          · next hm => exact absurd hm hproject
          · rw [hpersisted, hcontains]
            rfl

/-- Besides the default room, what is wanted is what is left of the list. -/
theorem wanted_without (hmode : args.roomMode ≠ some .default) :
    ((args.wanted projectRoom).filter fun room => room ≠ defaultRoom)
      = (args.cleaned projectRoom).filter fun room => room ≠ defaultRoom := by
  by_cases hproject : args.roomMode = some .project
  · rw [wanted_project hproject]
    split
    · rfl
    · exact filter_erase_without _ _
  · rw [wanted_both hmode hproject]
    split
    · rw [List.filter_append]
      simp
    · rfl

theorem others_eq : args.others projectRoom
    = ((args.cleaned projectRoom).filter fun room => room ≠ defaultRoom).filter
        fun room => room ≠ projectRoom := by
  unfold ScopeArgs.others ScopeArgs.cleaned
  rw [List.filter_filter, List.filter_filter]
  refine List.filter_congr ?_
  intro room _
  cases isStaleOwnProjectRoom room projectRoom <;> simp [Bool.and_comm]

/-- The joined rooms without the project room are those wanted without it. -/
theorem joined_without : ((args.joined projectRoom).filter fun room => room ≠ projectRoom)
    = (args.wanted projectRoom).filter fun room => room ≠ projectRoom := by
  unfold ScopeArgs.joined
  simp only
  split
  · rfl
  · rw [List.filter_append]
    simp

theorem joined_others (hmode : args.roomMode ≠ some .default) :
    (((args.joined projectRoom).filter fun room => room ≠ projectRoom).filter
      fun room => room ≠ defaultRoom) = args.others projectRoom := by
  rw [joined_without, List.filter_comm, wanted_without hmode, others_eq]

theorem count_wanted_project (hmode : args.roomMode ≠ some .default)
    (hne : projectRoom ≠ defaultRoom) :
    (args.wanted projectRoom).count projectRoom = args.base.count projectRoom := by
  calc (args.wanted projectRoom).count projectRoom
      = ((args.wanted projectRoom).filter fun room => room ≠ defaultRoom).count projectRoom :=
        (count_without _ hne).symm
    _ = ((args.cleaned projectRoom).filter fun room => room ≠ defaultRoom).count projectRoom := by
        rw [wanted_without hmode]
    _ = (args.cleaned projectRoom).count projectRoom := count_without _ hne
    _ = args.base.count projectRoom := count_cleaned_project

theorem count_joined_project :
    (args.joined projectRoom).count projectRoom = max 1 ((args.wanted projectRoom).count projectRoom) := by
  unfold ScopeArgs.joined
  simp only
  by_cases h : projectRoom ∈ args.wanted projectRoom
  · have hpos := List.count_pos_iff.mpr h
    rw [if_pos (by simpa using h)]
    omega
  · have hzero := List.count_eq_zero.mpr h
    rw [if_neg (by simpa using h), List.count_append, hzero, List.count_singleton_self]
    rfl

variable (projectRoom) in
/-- How often the default room is left when the project room is taken out. -/
theorem count_joined_default (hmode : args.roomMode ≠ some .default) :
    ((args.joined projectRoom).filter fun room => room ≠ projectRoom).count defaultRoom
      = if projectRoom = defaultRoom then 0 else args.defaults := by
  rw [joined_without]
  by_cases h : projectRoom = defaultRoom
  · rw [if_pos h, List.count_eq_zero]
    intro hmem
    simp [h] at hmem
  · rw [if_neg h, count_without _ (Ne.symm h), count_wanted_default _ hmode]

variable (projectRoom) in
theorem length_joined (hmode : args.roomMode ≠ some .default) :
    (args.joined projectRoom).length = args.asked projectRoom := by
  have h₁ := length_eq_without (args.joined projectRoom) projectRoom
  have h₂ := length_eq_without ((args.joined projectRoom).filter fun room => room ≠ projectRoom)
    defaultRoom
  rw [joined_others hmode, count_joined_default _ hmode] at h₂
  rw [count_joined_project] at h₁
  unfold ScopeArgs.asked ScopeArgs.projects
  by_cases h : projectRoom = defaultRoom
  · rw [if_pos h] at h₂
    have hcount := count_wanted_default projectRoom hmode
    rw [← h] at hcount
    rw [if_pos h]
    omega
  · rw [if_neg h] at h₂
    rw [count_wanted_project hmode h] at h₁
    rw [if_neg h]
    omega

theorem mem_args_others {room : String} : room ∈ args.others projectRoom ↔
    room ∈ args.base ∧ isStaleOwnProjectRoom room projectRoom = false ∧ room ≠ projectRoom ∧
      room ≠ defaultRoom := by
  unfold ScopeArgs.others
  simp [List.mem_filter, and_assoc]

/-- A room that is neither is joined exactly where it is another. -/
theorem mem_joined (hmode : args.roomMode ≠ some .default) {room : String}
    (hproject : room ≠ projectRoom) (hdefault : room ≠ defaultRoom) :
    room ∈ args.joined projectRoom ↔ room ∈ args.others projectRoom := by
  rw [← joined_others hmode, List.mem_filter, List.mem_filter]
  simp [hproject, hdefault]

theorem project_mem_joined : projectRoom ∈ args.joined projectRoom := by
  rw [← List.count_pos_iff, count_joined_project]
  omega

theorem default_mem_joined (hmode : args.roomMode ≠ some .default) (h : 0 < args.defaults) :
    defaultRoom ∈ args.joined projectRoom := by
  by_cases hp : projectRoom = defaultRoom
  · rw [← hp]
    exact project_mem_joined
  · have hcount := count_joined_default projectRoom hmode
    rw [if_neg hp] at hcount
    have hmem := List.count_pos_iff.mp (hcount ▸ h)
    exact (List.mem_filter.mp hmem).1

/-- A chosen default room is asked for. -/
theorem defaults_of_chosen (h : args.Chosen defaultRoom) : 0 < args.defaults := by
  obtain ⟨hbase, hconf⟩ := h
  have hpos : 0 < args.base.count defaultRoom := List.count_pos_iff.mpr hbase
  unfold ScopeArgs.defaults
  split
  · rw [if_pos (List.contains_iff_mem.mpr hconf)]
    exact hpos
  · rw [if_neg (by simp [hbase])]
    omega

/-- The default room is asked for, but where the list was persisted without it. -/
theorem defaults_of_both (hproject : args.roomMode ≠ some .project)
    (h : ¬(args.persistedRooms = true ∧ defaultRoom ∉ args.base)) : 0 < args.defaults := by
  unfold ScopeArgs.defaults
  split
  · next hm => exact absurd hm hproject
  · rw [if_neg (by simpa using h)]
    omega

theorem defaults_of_typed (hbase : defaultRoom ∈ args.base)
    (hmay : args.mayGo projectRoom defaultRoom = false) : 0 < args.defaults := by
  by_cases hproject : args.roomMode = some .project
  · have hconf : defaultRoom ∈ args.configured := by
      simp only [ScopeArgs.mayGo, hproject, Bool.or_eq_false_iff] at hmay
      simpa using hmay.2
    exact defaults_of_chosen ⟨hbase, hconf⟩
  · exact defaults_of_both hproject fun hleft => hleft.2 hbase

end Asked

/-! ### Within the cap -/

section Within

variable {projectRoom : String} {args : ScopeArgs}

theorem wanted_sublist_joined : (args.wanted projectRoom).Sublist (args.joined projectRoom) := by
  unfold ScopeArgs.joined
  simp only
  split
  · exact .refl _
  · exact List.sublist_append_left _ _

/-- What may not go is wanted, in the order of the list. -/
theorem kept_sublist_wanted (hmode : args.roomMode ≠ some .default)
    (hghosts : ∀ room ∈ args.base, isStaleOwnProjectRoom room projectRoom = true →
      isOwnGhost projectRoom room = true) :
    (args.base.filter fun room => !args.mayGo projectRoom room).Sublist (args.wanted projectRoom) := by
  have hfresh : ∀ room ∈ args.base, (!args.mayGo projectRoom room) = true →
      (!isStaleOwnProjectRoom room projectRoom) = true := by
    intro room hroom hkeep
    cases hstale : isStaleOwnProjectRoom room projectRoom with
    | false => rfl
    | true =>
        rw [ScopeArgs.mayGo, hghosts room hroom hstale, Bool.true_or] at hkeep
        cases hkeep
  have hcleaned : (args.base.filter fun room => !args.mayGo projectRoom room).Sublist
      (args.cleaned projectRoom) := filter_sublist_of_imp hfresh
  by_cases hproject : args.roomMode = some .project
  · rw [wanted_project hproject]
    split
    · exact hcleaned
    · next hconf =>
        have hnone : (args.base.filter fun room => !args.mayGo projectRoom room).filter
            (fun room => room ≠ defaultRoom)
              = args.base.filter fun room => !args.mayGo projectRoom room := by
          rw [List.filter_eq_self]
          intro room hroom
          obtain ⟨-, hkeep⟩ := List.mem_filter.mp hroom
          by_contra hd
          have hd' : room = defaultRoom := by simpa using hd
          rw [ScopeArgs.mayGo, hproject, hd'] at hkeep
          have hin : isOwnGhost projectRoom defaultRoom = false ∧ defaultRoom ∈ args.configured := by
            simpa using hkeep
          exact hconf (List.contains_iff_mem.mpr hin.2)
        have hsub := hcleaned.filter fun room => room ≠ defaultRoom
        rw [hnone, ← filter_erase_without] at hsub
        exact hsub.trans List.filter_sublist
  · rw [wanted_both hmode hproject]
    split
    · exact hcleaned.trans (List.sublist_append_left _ _)
    · exact hcleaned

/-- A room taken for stale is not joined. -/
theorem not_mem_joined_of_stale (hmode : args.roomMode ≠ some .default) {room : String}
    (hstale : isStaleOwnProjectRoom room projectRoom = true) : room ∉ args.joined projectRoom := by
  have hproject : room ≠ projectRoom := by
    intro hc
    rw [hc, not_stale_self] at hstale
    cases hstale
  have hdefault := ne_default_of_stale hstale
  rw [mem_joined hmode hproject hdefault, mem_args_others, hstale]
  simp

/-- A listed room that is not stale is joined, but for a default room in project mode. -/
theorem mem_joined_of_base (hmode : args.roomMode ≠ some .default) {room : String}
    (hbase : room ∈ args.base) (hstale : isStaleOwnProjectRoom room projectRoom = false)
    (hdefault : room = defaultRoom → 0 < args.defaults) : room ∈ args.joined projectRoom := by
  by_cases hd : room = defaultRoom
  · rw [hd]
    exact default_mem_joined hmode (hdefault hd)
  · by_cases hp : room = projectRoom
    · rw [hp]
      exact project_mem_joined
    · rw [mem_joined hmode hp hd, mem_args_others]
      exact ⟨hbase, hstale, hp, hd⟩

/-- The scope of a session whose rooms fit. -/
def fullScope (projectRoom : String) (args : ScopeArgs) : RoomScope :=
  { rooms := args.joined projectRoom, projectRoom := some projectRoom, broadcastRoom := projectRoom }

theorem promise_within (hmode : args.roomMode ≠ some .default)
    (hfit : args.asked projectRoom ≤ args.cap) :
    ScopePromise projectRoom args (fullScope projectRoom args) ↔
      (∀ room ∈ args.base, isStaleOwnProjectRoom room projectRoom = true →
        isOwnGhost projectRoom room = true) ∧
      (args.ChosenFit → ∀ room, args.Chosen room →
        isStaleOwnProjectRoom room projectRoom = false) := by
  constructor
  · intro h
    constructor
    · intro room hroom hstale
      by_contra hghost
      have hdefault := ne_default_of_stale hstale
      refine not_mem_joined_of_stale hmode hstale ((h.kept rfl).subset (List.mem_filter.mpr ⟨hroom, ?_⟩))
      simpa [ScopeArgs.mayGo, hdefault] using hghost
    · intro hchosenFit room hchosen
      by_contra hstale
      exact not_mem_joined_of_stale hmode (by simpa using hstale) (h.chosen hchosenFit room hchosen)
  · rintro ⟨hghosts, hfresh⟩
    have hkept : (args.base.filter fun room => !args.mayGo projectRoom room).Sublist
        (args.joined projectRoom) := (kept_sublist_wanted hmode hghosts).trans wanted_sublist_joined
    refine ⟨?_, project_mem_joined, fun _ => project_mem_joined, fun _ => hkept,
      fun hproject => ?_, ?_, fun room hroom hmay => ?_⟩
    · show (args.joined projectRoom).length ≤ args.cap
      rw [length_joined _ hmode]
      exact hfit
    · by_cases hleft : args.persistedRooms = true ∧ defaultRoom ∉ args.base
      · exact .inr hleft
      · exact .inl (default_mem_joined hmode (defaults_of_both hproject hleft))
    · intro hchosenFit room hchosen
      refine mem_joined_of_base hmode hchosen.1 (hfresh hchosenFit room hchosen) ?_
      rintro rfl
      exact defaults_of_chosen hchosen
    · exact hkept.subset (List.mem_filter.mpr ⟨hroom, by rw [hmay]; rfl⟩)

end Within

/-! ### Over the cap -/

section Over

variable {projectRoom : String} {args : ScopeArgs}

/-- `trimmed`. -/
def ScopeArgs.trimmed (projectRoom : String) (args : ScopeArgs) : List String :=
  let others := (args.joined projectRoom).filter fun room => room ≠ projectRoom
  shedDefault args.cap others.length others

/-- The scope of a session whose rooms do not fit. -/
def shedScope (projectRoom : String) (args : ScopeArgs) : RoomScope :=
  { rooms := (args.trimmed projectRoom).take (max 1 args.cap),
    broadcastRoom := legacyBroadcastRoom (args.trimmed projectRoom), degraded := some .roomCap }

theorem trimmed_without (hmode : args.roomMode ≠ some .default) :
    ((args.trimmed projectRoom).filter fun room => room ≠ defaultRoom) = args.others projectRoom := by
  have h := (shedDefault_spec args.cap _
    ((args.joined projectRoom).filter fun room => room ≠ projectRoom) List.count_le_length).1
  rw [joined_others hmode] at h
  exact h

theorem count_trimmed (hmode : args.roomMode ≠ some .default) :
    (args.trimmed projectRoom).count defaultRoom
      = min (if projectRoom = defaultRoom then 0 else args.defaults)
          (args.cap - (args.others projectRoom).length) := by
  have h := (shedDefault_spec args.cap _
    ((args.joined projectRoom).filter fun room => room ≠ projectRoom) List.count_le_length).2
  rw [joined_others hmode, count_joined_default _ hmode] at h
  exact h

variable (projectRoom) in
theorem length_trimmed (hmode : args.roomMode ≠ some .default) :
    (args.trimmed projectRoom).length = (args.others projectRoom).length
      + min (if projectRoom = defaultRoom then 0 else args.defaults)
          (args.cap - (args.others projectRoom).length) := by
  rw [length_eq_without _ defaultRoom, trimmed_without hmode, count_trimmed hmode]

/-- Where the others fill the cap, no default room is left. -/
theorem trimmed_of_full (hmode : args.roomMode ≠ some .default)
    (hfull : args.cap ≤ (args.others projectRoom).length) :
    args.trimmed projectRoom = args.others projectRoom := by
  have hzero : (args.trimmed projectRoom).count defaultRoom = 0 := by
    rw [count_trimmed hmode]
    omega
  rw [← filter_without_of_count hzero, trimmed_without hmode]

theorem mem_trimmed (hmode : args.roomMode ≠ some .default) {room : String} :
    room ∈ args.trimmed projectRoom ↔ room ∈ args.others projectRoom ∨
      room = defaultRoom ∧ projectRoom ≠ defaultRoom ∧ 0 < args.defaults ∧
        (args.others projectRoom).length < args.cap := by
  by_cases hd : room = defaultRoom
  · have hnot : defaultRoom ∉ args.others projectRoom := fun hc => (mem_args_others.mp hc).2.2.2 rfl
    rw [hd, ← List.count_pos_iff, count_trimmed hmode]
    by_cases hp : projectRoom = defaultRoom
    · simp [hp, hp ▸ hnot]
    · simp only [hp, if_false, hnot, false_or, ne_eq, not_false_eq_true, true_and, lt_min_iff]
      omega
  · rw [← trimmed_without hmode, List.mem_filter]
    simp [hd]

theorem shed_rooms (hcap : 1 ≤ args.cap) :
    (shedScope projectRoom args).rooms = (args.trimmed projectRoom).take args.cap := by
  show (args.trimmed projectRoom).take (max 1 args.cap) = _
  rw [Nat.max_eq_right hcap]

/-- With room to spare beside the others nothing more is dropped. -/
theorem shed_rooms_spare (hmode : args.roomMode ≠ some .default) (hcap : 1 ≤ args.cap)
    (hlt : (args.others projectRoom).length < args.cap) :
    (shedScope projectRoom args).rooms = args.trimmed projectRoom := by
  rw [shed_rooms hcap, List.take_of_length_le]
  rw [length_trimmed _ hmode]
  omega

theorem shed_rooms_full (hmode : args.roomMode ≠ some .default) (hcap : 1 ≤ args.cap)
    (hfull : args.cap ≤ (args.others projectRoom).length) :
    (shedScope projectRoom args).rooms = (args.others projectRoom).take args.cap := by
  rw [shed_rooms hcap, trimmed_of_full hmode hfull]

/-- The broadcast room is among the rooms unless there are none. -/
theorem shed_broadcast (hmode : args.roomMode ≠ some .default) (hcap : 1 ≤ args.cap) :
    (shedScope projectRoom args).broadcastRoom ∈ (shedScope projectRoom args).rooms ↔
      args.others projectRoom ≠ [] ∨ projectRoom ≠ defaultRoom ∧ 0 < args.defaults := by
  constructor
  · intro h
    have hmem : legacyBroadcastRoom (args.trimmed projectRoom) ∈ args.trimmed projectRoom := by
      rw [shed_rooms hcap] at h
      exact List.mem_of_mem_take h
    rcases (mem_trimmed hmode).mp hmem with h | ⟨-, hp, hd, -⟩
    · exact .inl (List.ne_nil_of_mem h)
    · exact .inr ⟨hp, hd⟩
  · intro h
    show legacyBroadcastRoom (args.trimmed projectRoom) ∈ (shedScope projectRoom args).rooms
    unfold legacyBroadcastRoom
    by_cases hd : defaultRoom ∈ args.trimmed projectRoom
    · have hlt : (args.others projectRoom).length < args.cap := by
        rcases (mem_trimmed hmode).mp hd with hc | ⟨-, -, -, hlt⟩
        · exact absurd rfl (mem_args_others.mp hc).2.2.2
        · exact hlt
      rw [if_pos (List.contains_iff_mem.mpr hd), shed_rooms_spare hmode hcap hlt]
      exact hd
    · rw [if_neg (by simpa using hd), shed_rooms hcap]
      cases htrimmed : args.trimmed projectRoom with
      | cons room rest =>
          obtain ⟨n, hn⟩ : ∃ n, args.cap = n + 1 := ⟨args.cap - 1, by omega⟩
          rw [hn, List.take_succ_cons]
          exact List.mem_cons_self
      | nil =>
          have hnone : ∀ room, room ∉ args.trimmed projectRoom := by
            rw [htrimmed]
            intro room hc
            cases hc
          exfalso
          by_cases hothers : args.others projectRoom = []
          · obtain ⟨hp, hpos⟩ := h.resolve_left (fun hc => hc hothers)
            refine hnone defaultRoom ((mem_trimmed hmode).mpr (.inr ⟨rfl, hp, hpos, ?_⟩))
            rw [hothers]
            exact hcap
          · obtain ⟨room, hroom⟩ := List.exists_mem_of_ne_nil _ hothers
            exact hnone room ((mem_trimmed hmode).mpr (.inl hroom))

/-- The chosen rooms survive where they come first. -/
theorem shed_chosen (hmode : args.roomMode ≠ some .default) (hcap : 1 ≤ args.cap) :
    (∀ room, args.Chosen room → room ∈ (shedScope projectRoom args).rooms) ↔
      (∀ room, args.Chosen room → isStaleOwnProjectRoom room projectRoom = false) ∧
      ¬args.Chosen projectRoom ∧
      (args.cap ≤ (args.others projectRoom).length → ¬args.Chosen defaultRoom ∧
        ∀ room, args.Chosen room → room ∈ (args.others projectRoom).take args.cap) := by
  constructor
  · intro h
    have hin : ∀ room, args.Chosen room → room ∈ args.trimmed projectRoom := by
      intro room hroom
      have hmem := h room hroom
      rw [shed_rooms hcap] at hmem
      exact List.mem_of_mem_take hmem
    refine ⟨?_, ?_, ?_⟩
    · intro room hroom
      rcases (mem_trimmed hmode).mp (hin room hroom) with hc | ⟨rfl, -⟩
      · exact (mem_args_others.mp hc).2.1
      · exact not_stale_default
    · intro hc
      rcases (mem_trimmed hmode).mp (hin _ hc) with hc | ⟨hp, hne, -⟩
      · exact (mem_args_others.mp hc).2.2.1 rfl
      · exact hne hp
    · intro hfull
      rw [shed_rooms_full hmode hcap hfull] at h
      refine ⟨?_, h⟩
      intro hc
      exact (mem_args_others.mp (List.mem_of_mem_take (h _ hc))).2.2.2 rfl
  · rintro ⟨hfresh, hproject, hfirst⟩ room hroom
    by_cases hfull : args.cap ≤ (args.others projectRoom).length
    · rw [shed_rooms_full hmode hcap hfull]
      exact (hfirst hfull).2 room hroom
    · rw [shed_rooms_spare hmode hcap (by omega), mem_trimmed hmode]
      have hp : room ≠ projectRoom := fun hc => hproject (hc ▸ hroom)
      by_cases hd : room = defaultRoom
      · subst hd
        exact .inr ⟨rfl, Ne.symm hp, defaults_of_chosen hroom, by omega⟩
      · exact .inl (mem_args_others.mpr ⟨hroom.1, hfresh room hroom, hp, hd⟩)

/-- Over the cap, which rooms are left. -/
theorem mem_shed (hmode : args.roomMode ≠ some .default) (hcap : 1 ≤ args.cap) {room : String} :
    room ∈ (shedScope projectRoom args).rooms ↔
      room ∈ (args.others projectRoom).take args.cap ∨ room = defaultRoom ∧
        projectRoom ≠ defaultRoom ∧ 0 < args.defaults ∧
          (args.others projectRoom).length < args.cap := by
  by_cases hfull : args.cap ≤ (args.others projectRoom).length
  · rw [shed_rooms_full hmode hcap hfull, or_iff_left fun h => by omega]
  · rw [shed_rooms_spare hmode hcap (by omega), mem_trimmed hmode,
      List.take_of_length_le (by omega)]

theorem shed_default (hmode : args.roomMode ≠ some .default) (hcap : 1 ≤ args.cap)
    (hproject : args.roomMode ≠ some .project) :
    (defaultRoom ∈ (shedScope projectRoom args).rooms ∨
        args.persistedRooms = true ∧ defaultRoom ∉ args.base) ↔
      projectRoom ≠ defaultRoom ∧ (args.others projectRoom).length < args.cap ∨
        args.persistedRooms = true ∧ defaultRoom ∉ args.base := by
  refine or_congr_left' fun hleft => ?_
  rw [mem_shed hmode hcap, or_iff_right fun hc =>
    (mem_args_others.mp (List.mem_of_mem_take hc)).2.2.2 rfl]
  have hpos := defaults_of_both hproject hleft
  simp [hpos]

/-- A room typed by hand is left exactly where there is a place for it. -/
theorem shed_typed (hmode : args.roomMode ≠ some .default) (hcap : 1 ≤ args.cap) {room : String}
    (hbase : room ∈ args.base) (hmay : args.mayGo projectRoom room = false) :
    room ∈ (shedScope projectRoom args).rooms ↔ args.FirstTyped projectRoom room := by
  rw [mem_shed hmode hcap, ScopeArgs.FirstTyped]
  by_cases hd : room = defaultRoom
  · subst hd
    have hpos := defaults_of_typed hbase hmay
    rw [if_pos rfl, or_iff_right fun hc =>
      (mem_args_others.mp (List.mem_of_mem_take hc)).2.2.2 rfl]
    simp [hpos, eq_comm]
  · rw [if_neg hd, or_iff_left fun h => hd h.1]
    exact ⟨fun h => ⟨(mem_args_others.mp (List.mem_of_mem_take h)).2.2.1, h⟩, fun h => h.2⟩

theorem promise_over (hmode : args.roomMode ≠ some .default) (hcap : 1 ≤ args.cap) :
    ScopePromise projectRoom args (shedScope projectRoom args) ↔
      (args.others projectRoom ≠ [] ∨ projectRoom ≠ defaultRoom ∧ 0 < args.defaults) ∧
      (args.roomMode ≠ some .project →
        projectRoom ≠ defaultRoom ∧ (args.others projectRoom).length < args.cap ∨
          args.persistedRooms = true ∧ defaultRoom ∉ args.base) ∧
      (args.ChosenFit →
        (∀ room, args.Chosen room → isStaleOwnProjectRoom room projectRoom = false) ∧
        ¬args.Chosen projectRoom ∧
        (args.cap ≤ (args.others projectRoom).length → ¬args.Chosen defaultRoom ∧
          ∀ room, args.Chosen room → room ∈ (args.others projectRoom).take args.cap)) ∧
      ∀ room ∈ args.base, args.mayGo projectRoom room = false →
        args.FirstTyped projectRoom room := by
  constructor
  · intro h
    refine ⟨(shed_broadcast hmode hcap).mp h.broadcast, fun hproject =>
      (shed_default hmode hcap hproject).mp (h.default hproject), fun hfit =>
      (shed_chosen hmode hcap).mp (h.chosen hfit), fun room hroom hmay => ?_⟩
    exact (shed_typed hmode hcap hroom hmay).mp (h.typed room hroom hmay)
  · rintro ⟨hanother, hspare, hchosen, htyped⟩
    refine ⟨?_, (shed_broadcast hmode hcap).mpr hanother, nofun, nofun, fun hproject =>
      (shed_default hmode hcap hproject).mpr (hspare hproject), fun hfit =>
      (shed_chosen hmode hcap).mpr (hchosen hfit), fun room hroom hmay =>
      (shed_typed hmode hcap hroom hmay).mpr (htyped room hroom hmay)⟩
    rw [shed_rooms hcap]
    exact List.length_take_le _ _

/-- What is taken for stale and is no ghost may not go, and has no place. -/
theorem ghosts_of_typed (h : ∀ room ∈ args.base, args.mayGo projectRoom room = false →
      args.FirstTyped projectRoom room) {room : String} (hbase : room ∈ args.base)
    (hstale : isStaleOwnProjectRoom room projectRoom = true) :
    isOwnGhost projectRoom room = true := by
  by_contra hghost
  have hdefault := ne_default_of_stale hstale
  have hfirst := (h room hbase (by simpa [ScopeArgs.mayGo, hdefault] using hghost)).2
  rw [if_neg hdefault] at hfirst
  rw [(mem_args_others.mp (List.mem_of_mem_take hfirst)).2.1] at hstale
  cases hstale

end Over

/-! ### The scope -/

section Resolve

variable {rt : Runtime} {realpath : String → Option String} {args : ScopeArgs}

theorem mode_applies (hmode : args.roomMode ≠ some .default) (hpin : args.pinned = false) :
    ¬(args.roomMode.getD .both = .default ∨ args.pinned = true) := by
  rw [hpin]
  cases hm : args.roomMode with
  | none => simp
  | some mode => simpa [hm] using hmode

theorem resolveRoomScope_within (hmode : args.roomMode ≠ some .default) (hpin : args.pinned = false)
    (hfit : args.asked (args.project rt realpath) ≤ args.cap) :
    resolveRoomScope rt realpath args = fullScope (args.project rt realpath) args := by
  have hlen := length_joined (args.project rt realpath) hmode
  unfold resolveRoomScope
  rw [if_neg (mode_applies hmode hpin)]
  dsimp only
  rw [if_neg (by omega)]
  rfl

theorem resolveRoomScope_over (hmode : args.roomMode ≠ some .default) (hpin : args.pinned = false)
    (hover : args.cap < args.asked (args.project rt realpath)) :
    resolveRoomScope rt realpath args = shedScope (args.project rt realpath) args := by
  have hlen := length_joined (args.project rt realpath) hmode
  unfold resolveRoomScope
  rw [if_neg (mode_applies hmode hpin)]
  dsimp only
  rw [if_pos (by omega)]
  rfl

end Resolve

/-- **The promise is kept exactly where no listed room but a ghost has the project's prefix, and
where, over the cap, there is a place for the default room, the configured rooms and those typed
by hand.** -/
theorem scope_promise_iff (rt : Runtime) (realpath : String → Option String) (args : ScopeArgs)
    (hmode : args.roomMode ≠ some .default) (hpin : args.pinned = false) (hcap : 1 ≤ args.cap) :
    ScopePromise (args.project rt realpath) args (resolveRoomScope rt realpath args) ↔
      args.Sound (args.project rt realpath) := by
  by_cases hfit : args.asked (args.project rt realpath) ≤ args.cap
  · rw [resolveRoomScope_within hmode hpin hfit, promise_within hmode hfit]
    have hno : ¬ args.cap < args.asked (args.project rt realpath) := by omega
    constructor
    · rintro ⟨hghosts, hfresh⟩
      exact ⟨hghosts, hfresh, fun h => absurd h hno, fun h => absurd h hno,
        fun h => absurd h hno, fun h => absurd h hno⟩
    · exact fun h => ⟨h.ghosts, h.fresh⟩
  · have hover : args.cap < args.asked (args.project rt realpath) := by omega
    rw [resolveRoomScope_over hmode hpin hover, promise_over hmode hcap]
    constructor
    · rintro ⟨hanother, hspare, hchosen, htyped⟩
      exact ⟨fun room => ghosts_of_typed htyped, fun hf => (hchosen hf).1,
        fun _ hf => (hchosen hf).2, fun _ => hanother, fun _ => hspare, fun _ => htyped⟩
    · intro h
      exact ⟨h.another hover, h.spare hover, fun hf => ⟨h.fresh hf, h.first hover hf⟩,
        h.typed hover⟩

/-- A session of `pi-mesh` with these rooms, nothing else being configured. -/
def piMeshArgs (rooms : List String) : ScopeArgs :=
  { roomMode := some .both, rooms, stateDir := "/home/dev/pi-mesh/.mesh" }

theorem scope_promise_elsewhere :
    ScopePromise "proj.pi-mesh.e3b0c4" (piMeshArgs ["default", "ops", "proj.other.design"])
      (resolveRoomScope referenceRuntime (fun _ => none)
        (piMeshArgs ["default", "ops", "proj.other.design"])) := by
  have hproject : (piMeshArgs ["default", "ops", "proj.other.design"]).project referenceRuntime
      (fun _ => none) = "proj.pi-mesh.e3b0c4" := by decide +kernel
  have hfresh : ∀ room ∈ (piMeshArgs ["default", "ops", "proj.other.design"]).base,
      isStaleOwnProjectRoom room "proj.pi-mesh.e3b0c4" = false := by decide +kernel
  have hasked : (piMeshArgs ["default", "ops", "proj.other.design"]).asked "proj.pi-mesh.e3b0c4"
      ≤ (piMeshArgs ["default", "ops", "proj.other.design"]).cap := by decide +kernel
  have h := scope_promise_iff referenceRuntime (fun _ => none)
    (piMeshArgs ["default", "ops", "proj.other.design"]) (by decide) rfl (by decide)
  rw [hproject] at h
  have hfit := Nat.not_lt.mpr hasked
  refine h.mpr ⟨?_, fun _ room hroom => hfresh room hroom.1, fun hover => absurd hover hfit,
    fun hover => absurd hover hfit, fun hover => absurd hover hfit,
    fun hover => absurd hover hfit⟩
  intro room hroom hstale
  rw [hfresh room hroom] at hstale
  cases hstale

/-- A room typed by hand is dropped for its prefix; a configured `default` is shed before a room
that is not configured; and a project room that is listed twice leaves no room at all. -/
theorem hand_typed_room_dropped :
    (¬ScopePromise "proj.pi-mesh.e3b0c4" (piMeshArgs ["default", "proj.pi-mesh.design"])
      (resolveRoomScope referenceRuntime (fun _ => none)
        (piMeshArgs ["default", "proj.pi-mesh.design"]))) ∧
    (¬ScopePromise "proj.pi-mesh.e3b0c4"
      { piMeshArgs ["ops", "dev", "default"] with
        configuredRooms := some ["default"], maxRoomsPerPeer := some 2 }
      (resolveRoomScope referenceRuntime (fun _ => none)
        { piMeshArgs ["ops", "dev", "default"] with
          configuredRooms := some ["default"], maxRoomsPerPeer := some 2 })) ∧
    ¬ScopePromise "lobby"
      { piMeshArgs ["lobby", "lobby"] with
        roomMode := some .project, projectRoomName := some "lobby", maxRoomsPerPeer := some 1 }
      (resolveRoomScope referenceRuntime (fun _ => none)
        { piMeshArgs ["lobby", "lobby"] with
          roomMode := some .project, projectRoomName := some "lobby", maxRoomsPerPeer := some 1 }) := by
  refine ⟨?_, ?_, ?_⟩
  · intro h
    exact absurd (h.kept (by decide +kernel)) (by decide +kernel)
  · intro h
    have hfit : ({ piMeshArgs ["ops", "dev", "default"] with
        configuredRooms := some ["default"], maxRoomsPerPeer := some 2 } : ScopeArgs).ChosenFit := by
      unfold ScopeArgs.ChosenFit
      decide +kernel
    exact absurd (h.chosen hfit "default" ⟨by decide +kernel, by decide +kernel⟩)
      (by decide +kernel)
  · intro h
    exact absurd h.broadcast (by decide +kernel)

end PiMesh
