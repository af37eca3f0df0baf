/-
A session starts again with the rooms it had.

What a start resolves is settled: its rooms are named, distinct and not stale, the default room
is there only where the mode keeps it, and if they were shed there are as many as the cap
holds.  Resolving a settled list gives that list back, which is all a restart does with the
rooms of the saved identity.  After a room was left the list is settled still, with one room
less; where the cap had kept the project room out, it now gets in.
-/
import PiMesh.Proofs.Identity
import PiMesh.Proofs.RoomScope

namespace PiMesh

open Js

/-! ### The arguments of a start -/

/-- The arguments with which `session_start` resolves a list of rooms. -/
def SessionConfig.args (config : SessionConfig) (stateDir : String) (rooms : List String)
    (persistedRooms : Bool) : ScopeArgs :=
  { roomMode := some config.roomMode, rooms, stateDir, projectRoomName := config.projectRoomName,
    configuredRooms := some config.rooms, maxRoomsPerPeer := some config.maxRoomsPerPeer,
    persistedRooms, pinned := config.roomsPinned }

/-- `roomsForScope`. -/
def sessionRooms (config : SessionConfig) (persisted : Option PersistedIdentity) : List String :=
  dropRecordedProjectRoom (chooseInitialIdentity config.toIdentityConfig persisted).rooms
    (persisted.bind fun id => id.projectRoom)

/-- The project room of a configuration. -/
def SessionConfig.project (rt : Runtime) (realpath : String → Option String) (config : SessionConfig)
    (stateDir : String) : String :=
  config.projectRoomName.getD (deriveProjectRoom rt realpath stateDir)

/-- The rooms are pinned, and there are some. -/
def SessionConfig.isPinned (config : SessionConfig) : Bool :=
  config.roomsPinned && decide (config.rooms.filter isNamed ≠ [])

section Start

variable {rt : Runtime} {realpath : String → Option String} {config : SessionConfig}
  {stateDir : String} {persisted : Option PersistedIdentity}

theorem sessionScope_eq : sessionScope rt realpath config stateDir persisted =
    resolveRoomScope rt realpath (config.args stateDir (sessionRooms config persisted)
      (persisted.any fun id => id.rooms ≠ [])) := rfl

/-- A start on a saved identity asks for its rooms, if it has any and none are pinned. -/
theorem sessionRooms_saved {id : PersistedIdentity} (hpin : config.isPinned = false)
    (hrooms : id.rooms ≠ []) (hproject : id.projectRoom = none) :
    sessionRooms config (some id) = id.rooms := by
  unfold SessionConfig.isPinned at hpin
  unfold sessionRooms chooseInitialIdentity
  dsimp only
  rw [hpin, Option.bind_some, hproject]
  simp [dropRecordedProjectRoom, hrooms]

theorem isNamed_of_mem {s : String} {c : Char} (hc : c ∈ s.toList) (hkept : isTrimmed c = false) :
    isNamed s = true := by
  have hne : ∀ {l : List Char}, c ∈ l → c ∈ l.dropWhile isTrimmed := by
    intro l hl
    induction l with
    | nil => cases hl
    | cons x rest ih =>
        by_cases hx : isTrimmed x = true
        · rw [List.dropWhile_cons_of_pos hx]
          rcases List.mem_cons.mp hl with rfl | hl
          · rw [hkept] at hx
            cases hx
          · exact ih hl
        · rw [List.dropWhile_cons_of_neg hx]
          exact hl
  have hin : c ∈ (trim s).toList := by
    unfold trim
    rw [String.toList_ofList, List.mem_reverse]
    exact hne (List.mem_reverse.mpr (hne hc))
  have hempty : trim s ≠ "" := by
    intro heq
    rw [heq] at hin
    cases hin
  simpa [isNamed] using hempty

theorem isTrimmed_of_lowerOrDigit {c : Char} (h : isLowerOrDigit c = true) :
    isTrimmed c = false := by
  have hrange : 48 ≤ c.toNat ∧ c.toNat ≤ 122 := by
    rcases (Bool.or_eq_true _ _).mp h with hlower | hdigit
    · have hb : (decide ('a'.val ≤ c.val) && decide (c.val ≤ 'z'.val)) = true := hlower
      obtain ⟨h₁, h₂⟩ := (Bool.and_eq_true _ _).mp hb
      have h₃ : 97 ≤ c.toNat := of_decide_eq_true h₁
      have h₄ : c.toNat ≤ 122 := of_decide_eq_true h₂
      omega
    · have hb : (decide (48 ≤ c.val) && decide (c.val ≤ 57)) = true := hdigit
      obtain ⟨h₁, h₂⟩ := (Bool.and_eq_true _ _).mp hb
      have h₃ : 48 ≤ c.toNat := of_decide_eq_true h₁
      have h₄ : c.toNat ≤ 57 := of_decide_eq_true h₂
      omega
  simp only [isTrimmed, Bool.or_eq_false_iff, Bool.and_eq_false_iff, beq_eq_false_iff_ne, ne_eq,
    decide_eq_false_iff_not]
  omega

theorem isNamed_default : isNamed defaultRoom = true :=
  isNamed_of_mem (c := 'd') (by decide) (by decide)

theorem isNamed_project : isNamed (config.project rt realpath stateDir) = true := by
  unfold SessionConfig.project
  cases hname : config.projectRoomName with
  | none =>
      refine isNamed_of_mem (c := 'p') ?_ (by decide)
      unfold deriveProjectRoom
      simp [String.toList_append, projectRoomPrefix]
  | some name =>
      have hvalid := config.name_valid name hname
      unfold isValidRoom at hvalid
      cases hl : name.toList with
      | nil =>
          rw [hl] at hvalid
          cases hvalid
      | cons c rest =>
          rw [hl] at hvalid
          simp only [Bool.and_eq_true] at hvalid
          refine isNamed_of_mem (c := c) (by rw [Option.getD_some, hl]; exact List.mem_cons_self) ?_
          exact isTrimmed_of_lowerOrDigit hvalid.1.1

end Start

/-! ### Settled lists -/

/-- In strict mode the default room is taken out of the list. -/
def SessionConfig.dropsDefault (config : SessionConfig) : Prop :=
  config.roomMode = .project ∧ defaultRoom ∉ config.rooms

/-- A list that can have been resolved. -/
structure RoomSettled (config : SessionConfig) (projectRoom : String) (rooms : List String) : Prop where
  named : ∀ room ∈ rooms, isNamed room = true
  fresh : ∀ room ∈ rooms, isStaleOwnProjectRoom room projectRoom = false
  nodup : rooms.Nodup
  /-- Where the default room is taken out it is there as the project room, which comes last. -/
  default : config.dropsDefault → defaultRoom ∈ rooms →
    projectRoom = defaultRoom ∧ ∃ front, rooms = front ++ [defaultRoom]

section Settled

variable {rt : Runtime} {realpath : String → Option String} {config : SessionConfig}
  {stateDir projectRoom : String} {rooms : List String} {persistedRooms : Bool}

/-- What is wanted of a list, by the mode. -/
theorem wanted_drops (hdrop : config.dropsDefault) :
    (config.args stateDir rooms persistedRooms).wanted projectRoom
      = ((config.args stateDir rooms persistedRooms).cleaned projectRoom).erase defaultRoom := by
  have hnot : ¬(config.args stateDir rooms persistedRooms).configured.contains defaultRoom = true :=
    fun hc => hdrop.2 (List.contains_iff_mem.mp hc)
  rw [wanted_project (congrArg some hdrop.1), if_neg hnot]

variable (stateDir projectRoom rooms persistedRooms) in
theorem wanted_keeps (hmode : config.roomMode ≠ .default) (hkeep : ¬config.dropsDefault) :
    (config.args stateDir rooms persistedRooms).wanted projectRoom
        = (config.args stateDir rooms persistedRooms).cleaned projectRoom ∨
      persistedRooms = false ∧ defaultRoom ∉ (config.args stateDir rooms persistedRooms).base ∧
        (config.args stateDir rooms persistedRooms).wanted projectRoom
          = (config.args stateDir rooms persistedRooms).cleaned projectRoom ++ [defaultRoom] := by
  by_cases hproject : config.roomMode = .project
  · have hin : (config.args stateDir rooms persistedRooms).configured.contains defaultRoom = true := by
      by_contra hc
      exact hkeep ⟨hproject, fun hin => hc (List.contains_iff_mem.mpr hin)⟩
    rw [wanted_project (congrArg some hproject), if_pos hin]
    exact .inl rfl
  · rw [wanted_both (fun hc => hmode (Option.some.inj hc)) fun hc => hproject (Option.some.inj hc)]
    split
    · next hadd =>
        refine .inr ⟨?_, ?_, rfl⟩
        · show (config.args stateDir rooms persistedRooms).persistedRooms = false
          cases hp : (config.args stateDir rooms persistedRooms).persistedRooms with
          | false => rfl
          | true =>
              rw [hp] at hadd
              simp at hadd
        · intro hin
          rw [List.contains_iff_mem.mpr hin] at hadd
          cases hadd
    · exact .inl rfl

theorem RoomSettled.filter (h : RoomSettled config projectRoom rooms) (x : String) :
    RoomSettled config projectRoom (rooms.filter fun room => room ≠ x) where
  named room hroom := h.named room (List.mem_filter.mp hroom).1
  fresh room hroom := h.fresh room (List.mem_filter.mp hroom).1
  nodup := h.nodup.filter _
  default := by
    intro hdrop hmem
    obtain ⟨hin, hne⟩ := List.mem_filter.mp hmem
    obtain ⟨hp, front, rfl⟩ := h.default hdrop hin
    refine ⟨hp, front.filter fun room => room ≠ x, ?_⟩
    rw [List.filter_append, List.filter_singleton, hne]
    rfl

/-- The rooms joined at the first start are settled. -/
theorem settled_joined (hmode : config.roomMode ≠ .default) (hnodup : rooms.Nodup)
    (hnamed : isNamed projectRoom = true) :
    RoomSettled config projectRoom ((config.args stateDir rooms persistedRooms).joined projectRoom) := by
  have hcleaned : ((config.args stateDir rooms persistedRooms).cleaned projectRoom).Nodup :=
    (hnodup.filter _).filter _
  have hmem : ∀ room ∈ (config.args stateDir rooms persistedRooms).cleaned projectRoom,
      isNamed room = true ∧ isStaleOwnProjectRoom room projectRoom = false := by
    intro room hroom
    obtain ⟨hbase, hfresh⟩ := List.mem_filter.mp hroom
    exact ⟨(List.mem_filter.mp hbase).2, by simpa using hfresh⟩
  -- what is wanted has the same properties, and the default room only where it is kept
  have hwanted : ((config.args stateDir rooms persistedRooms).wanted projectRoom).Nodup ∧
      (∀ room ∈ (config.args stateDir rooms persistedRooms).wanted projectRoom,
        isNamed room = true ∧ isStaleOwnProjectRoom room projectRoom = false) ∧
      (config.dropsDefault →
        defaultRoom ∉ (config.args stateDir rooms persistedRooms).wanted projectRoom) := by
    by_cases hdrop : config.dropsDefault
    · rw [wanted_drops hdrop]
      exact ⟨hcleaned.erase _, fun room hroom => hmem room (List.mem_of_mem_erase hroom),
        fun _ => hcleaned.not_mem_erase⟩
    · rcases wanted_keeps stateDir projectRoom rooms persistedRooms hmode hdrop with heq | ⟨-, hnot, heq⟩
      · rw [heq]
        exact ⟨hcleaned, hmem, fun hc => absurd hc hdrop⟩
      · rw [heq]
        refine ⟨?_, ?_, fun hc => absurd hc hdrop⟩
        · refine List.nodup_append.mpr ⟨hcleaned, List.nodup_singleton _, ?_⟩
          intro a ha b hb hab
          rw [List.mem_singleton.mp hb] at hab
          rw [hab] at ha
          exact hnot (mem_cleaned_default.mp ha)
        · intro room hroom
          rcases List.mem_append.mp hroom with hroom | hroom
          · exact hmem room hroom
          · rw [List.mem_singleton.mp hroom]
            exact ⟨isNamed_default, not_stale_default⟩
  obtain ⟨hwn, hwm, hwd⟩ := hwanted
  unfold ScopeArgs.joined
  simp only
  split
  · exact ⟨fun room hroom => (hwm room hroom).1, fun room hroom => (hwm room hroom).2, hwn,
      fun hdrop hd => absurd hd (hwd hdrop)⟩
  · next hnot =>
      have hp : projectRoom ∉ (config.args stateDir rooms persistedRooms).wanted projectRoom :=
        fun hc => hnot (List.contains_iff_mem.mpr hc)
      refine ⟨?_, ?_, ?_, ?_⟩
      · intro room hroom
        rcases List.mem_append.mp hroom with hroom | hroom
        · exact (hwm room hroom).1
        · rw [List.mem_singleton.mp hroom]
          exact hnamed
      · intro room hroom
        rcases List.mem_append.mp hroom with hroom | hroom
        · exact (hwm room hroom).2
        · rw [List.mem_singleton.mp hroom]
          exact not_stale_self
      · refine List.nodup_append.mpr ⟨hwn, List.nodup_singleton _, ?_⟩
        intro a ha b hb hab
        rw [List.mem_singleton.mp hb] at hab
        exact hp (hab ▸ ha)
      · intro hdrop hd
        rcases List.mem_append.mp hd with hd | hd
        · exact absurd hd (hwd hdrop)
        · have hpd := (List.mem_singleton.mp hd).symm
          exact ⟨hpd, _, by rw [hpd]⟩

variable (stateDir persistedRooms) in
theorem settled_cleaned (h : RoomSettled config projectRoom rooms) :
    (config.args stateDir rooms persistedRooms).cleaned projectRoom = rooms := by
  have hbase : (config.args stateDir rooms persistedRooms).base = rooms :=
    List.filter_eq_self.mpr h.named
  unfold ScopeArgs.cleaned
  rw [hbase, List.filter_eq_self]
  intro room hroom
  rw [h.fresh room hroom]
  rfl

variable (stateDir) in
/-- A settled list with the project room is joined as it is. -/
theorem joined_settled (hmode : config.roomMode ≠ .default) (h : RoomSettled config projectRoom rooms)
    (hproject : projectRoom ∈ rooms) :
    (config.args stateDir rooms true).joined projectRoom = rooms := by
  have hcleaned := settled_cleaned stateDir true h
  unfold ScopeArgs.joined
  by_cases hdrop : config.dropsDefault
  · rw [wanted_drops hdrop, hcleaned]
    by_cases hd : defaultRoom ∈ rooms
    · -- the default room is the project room: taken out of its place, and put back there
      obtain ⟨hp, front, rfl⟩ := h.default hdrop hd
      have hfront : defaultRoom ∉ front := fun hc =>
        (List.nodup_append.mp h.nodup).2.2 _ hc _ (List.mem_singleton_self _) rfl
      have herase : (front ++ [defaultRoom]).erase defaultRoom = front := by
        rw [List.erase_append_right _ hfront]
        simp
      dsimp only
      rw [herase, hp, if_neg (by simpa using hfront)]
    · dsimp only
      rw [List.erase_of_not_mem hd, if_pos (List.contains_iff_mem.mpr hproject)]
  · rcases wanted_keeps stateDir projectRoom rooms true hmode hdrop with heq | ⟨hc, -⟩
    · dsimp only
      rw [heq, hcleaned, if_pos (List.contains_iff_mem.mpr hproject)]
    · cases hc

variable (stateDir) in
/-- Without the project room, it is added at the end. -/
theorem joined_settled_new (hmode : config.roomMode ≠ .default)
    (h : RoomSettled config projectRoom rooms) (hproject : projectRoom ∉ rooms) :
    (config.args stateDir rooms true).joined projectRoom = rooms ++ [projectRoom] := by
  have hcleaned := settled_cleaned stateDir true h
  have hwanted : (config.args stateDir rooms true).wanted projectRoom = rooms := by
    by_cases hdrop : config.dropsDefault
    · rw [wanted_drops hdrop, hcleaned, List.erase_of_not_mem]
      intro hd
      exact hproject ((h.default hdrop hd).1 ▸ hd)
    · rcases wanted_keeps stateDir projectRoom rooms true hmode hdrop with heq | ⟨hc, -⟩
      · rw [heq, hcleaned]
      · cases hc
  unfold ScopeArgs.joined
  dsimp only
  rw [hwanted, if_neg (by simpa using hproject)]

end Settled

/-! ### Resolving -/

/-- What resolving leads to where the mode applies: rooms with the project room, or as many as
the cap holds without it. -/
inductive ScopeResolved (config : SessionConfig) (projectRoom : String) : RoomScope → Prop
  | full (rooms : List String) (h : RoomSettled config projectRoom rooms)
      (hproject : projectRoom ∈ rooms) (hfit : rooms.length ≤ config.maxRoomsPerPeer) :
      ScopeResolved config projectRoom
        { rooms, projectRoom := some projectRoom, broadcastRoom := projectRoom }
  | shed (rooms : List String) (h : RoomSettled config projectRoom rooms)
      (hproject : projectRoom ∉ rooms) (hfull : rooms.length = config.maxRoomsPerPeer) :
      ScopeResolved config projectRoom
        { rooms, broadcastRoom := legacyBroadcastRoom rooms, degraded := some .roomCap }

section Resolving

variable {rt : Runtime} {realpath : String → Option String} {config : SessionConfig}
  {stateDir : String} {rooms : List String} {persistedRooms : Bool}

theorem args_mode (hmode : config.roomMode ≠ .default) :
    (config.args stateDir rooms persistedRooms).roomMode ≠ some .default :=
  fun hc => hmode (Option.some.inj hc)

theorem asked_eq (hmode : config.roomMode ≠ .default) {projectRoom : String} :
    (config.args stateDir rooms persistedRooms).asked projectRoom
      = ((config.args stateDir rooms persistedRooms).joined projectRoom).length :=
  (length_joined _ (args_mode hmode)).symm

theorem resolve_full (hmode : config.roomMode ≠ .default) (hpin : config.roomsPinned = false)
    (hfit : ((config.args stateDir rooms persistedRooms).joined
      (config.project rt realpath stateDir)).length ≤ config.maxRoomsPerPeer) :
    resolveRoomScope rt realpath (config.args stateDir rooms persistedRooms) =
      fullScope (config.project rt realpath stateDir)
        (config.args stateDir rooms persistedRooms) := by
  refine resolveRoomScope_within (args_mode hmode) hpin ?_
  rw [asked_eq hmode]
  exact hfit

theorem resolve_shed (hmode : config.roomMode ≠ .default) (hpin : config.roomsPinned = false)
    (hover : config.maxRoomsPerPeer < ((config.args stateDir rooms persistedRooms).joined
      (config.project rt realpath stateDir)).length) :
    resolveRoomScope rt realpath (config.args stateDir rooms persistedRooms) =
      shedScope (config.project rt realpath stateDir)
        (config.args stateDir rooms persistedRooms) := by
  refine resolveRoomScope_over (args_mode hmode) hpin ?_
  rw [asked_eq hmode]
  exact hover

theorem shedDefault_sublist (cap fuel : Nat) (l : List String) :
    (shedDefault cap fuel l).Sublist l := by
  induction fuel generalizing l with
  | zero => exact .refl _
  | succ fuel ih =>
      unfold shedDefault
      split
      · exact (ih _).trans List.erase_sublist
      · exact .refl _

theorem legacy_take {list : List String} {cap : Nat} (hcap : 0 < cap)
    (h : list.length ≤ cap ∨ defaultRoom ∉ list) :
    legacyBroadcastRoom (list.take cap) = legacyBroadcastRoom list := by
  rcases h with h | h
  · rw [List.take_of_length_le h]
  · have htake : defaultRoom ∉ list.take cap := fun hc => h (List.mem_of_mem_take hc)
    unfold legacyBroadcastRoom
    rw [if_neg (by simpa using htake), if_neg (by simpa using h)]
    cases list with
    | nil => rw [List.take_nil]
    | cons room rest =>
        obtain ⟨n, rfl⟩ : ∃ n, cap = n + 1 := ⟨cap - 1, by omega⟩
        rfl

/-- A first start on distinct rooms resolves to settled ones. -/
theorem resolved_start (hmode : config.roomMode ≠ .default) (hpin : config.roomsPinned = false)
    (hnodup : rooms.Nodup) :
    ScopeResolved config (config.project rt realpath stateDir)
      (resolveRoomScope rt realpath (config.args stateDir rooms persistedRooms)) := by
  have hsettled : RoomSettled config (config.project rt realpath stateDir)
      ((config.args stateDir rooms persistedRooms).joined (config.project rt realpath stateDir)) :=
    settled_joined hmode hnodup isNamed_project
  by_cases hfit : ((config.args stateDir rooms persistedRooms).joined
      (config.project rt realpath stateDir)).length ≤ config.maxRoomsPerPeer
  · rw [resolve_full hmode hpin hfit]
    exact .full _ hsettled project_mem_joined hfit
  · rw [resolve_shed hmode hpin (by omega)]
    have hmode' : (config.args stateDir rooms persistedRooms).roomMode ≠ some .default :=
      args_mode hmode
    have hcap : 1 ≤ (config.args stateDir rooms persistedRooms).cap := config.cap_pos
    -- the project room is there once, so without it the others still fill the cap
    have hcount : ((config.args stateDir rooms persistedRooms).joined
        (config.project rt realpath stateDir)).count (config.project rt realpath stateDir) ≤ 1 :=
      List.nodup_iff_count_le_one.mp hsettled.nodup _
    have h₁ := length_eq_without ((config.args stateDir rooms persistedRooms).joined
      (config.project rt realpath stateDir)) (config.project rt realpath stateDir)
    have h₂ := length_eq_without (((config.args stateDir rooms persistedRooms).joined
      (config.project rt realpath stateDir)).filter
        fun room => room ≠ config.project rt realpath stateDir) defaultRoom
    rw [joined_others hmode', count_joined_default _ hmode'] at h₂
    have hlen := length_trimmed (config.project rt realpath stateDir) hmode'
    have hcapeq : (config.args stateDir rooms persistedRooms).cap = config.maxRoomsPerPeer := rfl
    have hsub : (shedScope (config.project rt realpath stateDir)
        (config.args stateDir rooms persistedRooms)).rooms.Sublist
        (((config.args stateDir rooms persistedRooms).joined
          (config.project rt realpath stateDir)).filter
            fun room => room ≠ config.project rt realpath stateDir) :=
      (List.take_sublist _ _).trans (shedDefault_sublist _ _ _)
    have hproject : config.project rt realpath stateDir ∉ (shedScope
        (config.project rt realpath stateDir) (config.args stateDir rooms persistedRooms)).rooms := by
      intro hc
      simpa using (List.mem_filter.mp (hsub.subset hc)).2
    have hbroadcast : (shedScope (config.project rt realpath stateDir)
        (config.args stateDir rooms persistedRooms)).broadcastRoom
          = legacyBroadcastRoom (shedScope (config.project rt realpath stateDir)
            (config.args stateDir rooms persistedRooms)).rooms := by
      rw [shed_rooms hcap]
      refine (legacy_take hcap ?_).symm
      by_cases hfull : (config.args stateDir rooms persistedRooms).cap
          ≤ ((config.args stateDir rooms persistedRooms).others
            (config.project rt realpath stateDir)).length
      · refine .inr ?_
        rw [trimmed_of_full hmode' hfull]
        exact fun hc => (mem_args_others.mp hc).2.2.2 rfl
      · refine .inl ?_
        rw [hlen]
        omega
    have heq : shedScope (config.project rt realpath stateDir)
        (config.args stateDir rooms persistedRooms)
          = { rooms := (shedScope (config.project rt realpath stateDir)
                (config.args stateDir rooms persistedRooms)).rooms,
              broadcastRoom := legacyBroadcastRoom (shedScope (config.project rt realpath stateDir)
                (config.args stateDir rooms persistedRooms)).rooms,
              degraded := some .roomCap } := by
      rw [← hbroadcast]
      rfl
    rw [heq]
    refine .shed _ ⟨?_, ?_, ?_, ?_⟩ hproject ?_
    · intro room hroom
      exact hsettled.named room (List.mem_filter.mp (hsub.subset hroom)).1
    · intro room hroom
      exact hsettled.fresh room (List.mem_filter.mp (hsub.subset hroom)).1
    · exact (hsettled.nodup.filter _).sublist hsub
    · intro hdrop hd
      -- it would be the project room, which is not there
      have hp := (hsettled.default hdrop (List.mem_filter.mp (hsub.subset hd)).1).1
      exact absurd (hp ▸ hd) hproject
    · rw [shed_rooms hcap, List.length_take, hlen]
      omega

/-- A settled list resolves to itself, and to the project room where there is place for it. -/
theorem resolve_settled (hmode : config.roomMode ≠ .default) (hpin : config.roomsPinned = false)
    (h : RoomSettled config (config.project rt realpath stateDir) rooms) :
    (config.project rt realpath stateDir ∈ rooms → rooms.length ≤ config.maxRoomsPerPeer →
      resolveRoomScope rt realpath (config.args stateDir rooms true)
        = { rooms, projectRoom := some (config.project rt realpath stateDir),
            broadcastRoom := config.project rt realpath stateDir }) ∧
    (config.project rt realpath stateDir ∉ rooms → rooms.length < config.maxRoomsPerPeer →
      resolveRoomScope rt realpath (config.args stateDir rooms true)
        = { rooms := rooms ++ [config.project rt realpath stateDir],
            projectRoom := some (config.project rt realpath stateDir),
            broadcastRoom := config.project rt realpath stateDir }) ∧
    (config.project rt realpath stateDir ∉ rooms → rooms.length = config.maxRoomsPerPeer →
      resolveRoomScope rt realpath (config.args stateDir rooms true)
        = { rooms, broadcastRoom := legacyBroadcastRoom rooms, degraded := some .roomCap }) := by
  refine ⟨?_, ?_, ?_⟩
  · intro hproject hfit
    have hjoined := joined_settled stateDir hmode h hproject
    rw [resolve_full hmode hpin (by rw [hjoined]; exact hfit), fullScope, hjoined]
  · intro hproject hfit
    have hjoined := joined_settled_new stateDir hmode h hproject
    rw [resolve_full hmode hpin (by rw [hjoined, List.length_append]; exact hfit), fullScope, hjoined]
  · intro hproject hfull
    have hjoined := joined_settled_new stateDir hmode h hproject
    have hfilter : (rooms ++ [config.project rt realpath stateDir]).filter
        (fun room => room ≠ config.project rt realpath stateDir) = rooms := by
      rw [List.filter_append, List.filter_eq_self.mpr]
      · simp
      · intro room hroom
        have hne : room ≠ config.project rt realpath stateDir := fun hc => hproject (hc ▸ hroom)
        simpa using hne
    have htrimmed : (config.args stateDir rooms true).trimmed
        (config.project rt realpath stateDir) = rooms := by
      have hshed : ∀ fuel, shedDefault config.maxRoomsPerPeer fuel rooms = rooms := by
        intro fuel
        cases fuel with
        | zero => rfl
        | succ fuel =>
            unfold shedDefault
            rw [if_neg (by simp [hfull])]
      unfold ScopeArgs.trimmed
      rw [hjoined, hfilter]
      exact hshed _
    rw [resolve_shed hmode hpin (by rw [hjoined, List.length_append, hfull]; exact Nat.lt_succ_self _)]
    unfold shedScope
    rw [htrimmed, List.take_of_length_le (by rw [hfull]; exact le_max_right _ _)]

end Resolving

/-! ### Starting again -/

/-- The scope where the mode does not apply. -/
def legacyScope (config : SessionConfig) (base : List String) : RoomScope :=
  let rooms := if base ≠ [] then base else [defaultRoom]
  { rooms, broadcastRoom := legacyBroadcastRoom rooms,
    degraded := if config.roomsPinned ∧ config.roomMode ≠ .default then some .pinned else none }

/-- The mode applies, so the project has a room. -/
def SessionConfig.scoped (config : SessionConfig) : Prop :=
  config.roomMode ≠ .default ∧ config.roomsPinned = false

section Again

variable {rt : Runtime} {realpath : String → Option String} {config : SessionConfig}
  {stateDir : String} {persisted : Option PersistedIdentity} {id : PersistedIdentity}

theorem resolve_legacy {rooms : List String} {persistedRooms : Bool} (h : ¬config.scoped) :
    resolveRoomScope rt realpath (config.args stateDir rooms persistedRooms)
      = legacyScope config (rooms.filter isNamed) := by
  have hmode : (config.args stateDir rooms persistedRooms).roomMode.getD .both = .default ∨
      (config.args stateDir rooms persistedRooms).pinned = true := by
    by_cases hm : config.roomMode = .default
    · exact .inl hm
    · refine .inr ?_
      cases hp : config.roomsPinned with
      | true => exact hp
      | false => exact absurd ⟨hm, hp⟩ h
  unfold resolveRoomScope
  rw [if_pos hmode]
  rfl

variable (config) in
theorem legacyScope_rooms (base : List String) (hnamed : ∀ room ∈ base, isNamed room = true) :
    (legacyScope config base).rooms ≠ [] ∧
      legacyScope config ((legacyScope config base).rooms.filter isNamed) = legacyScope config base := by
  by_cases h : base = []
  · have hrooms : (legacyScope config base).rooms = [defaultRoom] := by
      unfold legacyScope
      dsimp only
      rw [if_neg (by simpa using h)]
    have hfilter : [defaultRoom].filter isNamed = [defaultRoom] := by
      rw [List.filter_cons_of_pos isNamed_default, List.filter_nil]
    rw [hrooms, hfilter, h]
    exact ⟨by simp, rfl⟩
  · have hrooms : (legacyScope config base).rooms = base := by
      unfold legacyScope
      dsimp only
      rw [if_pos h]
    rw [hrooms, List.filter_eq_self.mpr hnamed]
    exact ⟨h, rfl⟩

/-- Where the rooms are pinned, what was saved plays no part. -/
theorem sessionScope_pinned (hpin : config.isPinned = true)
    (hproject : persisted.bind (fun id => id.projectRoom) = none) :
    sessionScope rt realpath config stateDir persisted
      = legacyScope config ((config.rooms.filter isNamed).filter isNamed) := by
  have hrooms : sessionRooms config persisted = config.rooms.filter isNamed := by
    unfold sessionRooms chooseInitialIdentity
    unfold SessionConfig.isPinned at hpin
    dsimp only
    rw [hproject, if_pos hpin]
    rfl
  rw [sessionScope_eq, hrooms, resolve_legacy]
  rintro ⟨-, hc⟩
  unfold SessionConfig.isPinned at hpin
  rw [hc] at hpin
  cases hpin

/-- Where they are not, the saved rooms are resolved. -/
theorem sessionScope_saved (hpin : config.isPinned = false) (hrooms : id.rooms ≠ [])
    (hproject : id.projectRoom = none) :
    sessionScope rt realpath config stateDir (some id)
      = resolveRoomScope rt realpath (config.args stateDir id.rooms true) := by
  rw [sessionScope_eq, sessionRooms_saved hpin hrooms hproject]
  simp [hrooms]

theorem resolved_rooms {projectRoom : String} {s : RoomScope} (h : ScopeResolved config projectRoom s) :
    s.rooms ≠ [] ∧ RoomSettled config projectRoom s.rooms := by
  cases h with
  | full rooms h hproject hfit => exact ⟨List.ne_nil_of_mem hproject, h⟩
  | shed rooms h hproject hfull =>
      refine ⟨?_, h⟩
      have hcap := config.cap_pos
      intro hc
      dsimp only at hc
      rw [hc] at hfull
      simp at hfull
      omega

theorem legacy_eq (hscoped : ¬config.scoped) : sessionScope rt realpath config stateDir persisted
    = legacyScope config ((sessionRooms config persisted).filter isNamed) := by
  rw [sessionScope_eq, resolve_legacy hscoped]

/-- The rooms of a scope are distinct if those asked for are. -/
theorem sessionScope_nodup (hnodup : (sessionRooms config persisted).Nodup) :
    (sessionScope rt realpath config stateDir persisted).rooms.Nodup := by
  by_cases hscoped : config.scoped
  · exact (resolved_rooms (resolved_start hscoped.1 hscoped.2 hnodup)).2.nodup
  · rw [legacy_eq hscoped]
    unfold legacyScope
    dsimp only
    split
    · exact hnodup.filter _
    · exact List.nodup_singleton _

/-- A restart resolves to what there was. -/
theorem sessionScope_again (hproject : persisted.bind (fun id => id.projectRoom) = none)
    (hnodup : (sessionRooms config persisted).Nodup)
    (hrooms : id.rooms = (sessionScope rt realpath config stateDir persisted).rooms)
    (hproject' : id.projectRoom = none) :
    sessionScope rt realpath config stateDir (some id)
      = sessionScope rt realpath config stateDir persisted := by
  by_cases hpin : config.isPinned = true
  · rw [sessionScope_pinned hpin hproject, sessionScope_pinned hpin (by simpa using hproject')]
  · have hpin : config.isPinned = false := by simpa using hpin
    by_cases hscoped : config.scoped
    · have hres : ScopeResolved config (config.project rt realpath stateDir)
          (sessionScope rt realpath config stateDir persisted) :=
        resolved_start hscoped.1 hscoped.2 hnodup
      have hne := (resolved_rooms hres).1
      rw [sessionScope_saved hpin (by rw [hrooms]; exact hne) hproject', hrooms]
      have hsettled := (resolved_rooms hres).2
      have hagain := resolve_settled hscoped.1 hscoped.2 hsettled
      generalize sessionScope rt realpath config stateDir persisted = s at hres hagain ⊢
      cases hres with
      | full rooms h hin hfit => exact hagain.1 hin hfit
      | shed rooms h hout hfull => exact hagain.2.2 hout hfull
    · have hlegacy : sessionScope rt realpath config stateDir persisted
          = legacyScope config ((sessionRooms config persisted).filter isNamed) := legacy_eq hscoped
      have hkept := legacyScope_rooms config ((sessionRooms config persisted).filter isNamed)
        fun room hroom => (List.mem_filter.mp hroom).2
      rw [hlegacy] at hrooms
      rw [sessionScope_saved hpin (by rw [hrooms]; exact hkept.1) hproject',
        resolve_legacy hscoped, hrooms, hlegacy]
      exact hkept.2

/-- After a room was left, that room is missing. -/
theorem sessionScope_left (hpin : config.isPinned = false)
    (hnodup : (sessionRooms config persisted).Nodup) {x : String}
    (hx : x ∈ (sessionScope rt realpath config stateDir persisted).rooms)
    (hrooms : id.rooms
      = (sessionScope rt realpath config stateDir persisted).rooms.filter fun room => room ≠ x)
    (hne : id.rooms ≠ []) (hproject' : id.projectRoom = none) {room : String}
    (hother : config.scoped → room ≠ config.project rt realpath stateDir) :
    room ∈ (sessionScope rt realpath config stateDir (some id)).rooms ↔
      room ∈ (sessionScope rt realpath config stateDir persisted).rooms ∧ room ≠ x := by
  have hmem : room ∈ id.rooms ↔
      room ∈ (sessionScope rt realpath config stateDir persisted).rooms ∧ room ≠ x := by
    rw [hrooms, List.mem_filter]
    simp
  rw [← hmem, sessionScope_saved hpin hne hproject']
  by_cases hscoped : config.scoped
  · have hres : ScopeResolved config (config.project rt realpath stateDir)
        (sessionScope rt realpath config stateDir persisted) :=
      resolved_start hscoped.1 hscoped.2 hnodup
    have hsettled : RoomSettled config (config.project rt realpath stateDir) id.rooms := by
      rw [hrooms]
      exact (resolved_rooms hres).2.filter x
    have hagain := resolve_settled hscoped.1 hscoped.2 hsettled
    -- one room less leaves place for the project room
    have hlt : id.rooms.length < config.maxRoomsPerPeer := by
      have hlen := length_eq_without (sessionScope rt realpath config stateDir persisted).rooms x
      have hpos := List.count_pos_iff.mpr hx
      rw [← hrooms] at hlen
      generalize sessionScope rt realpath config stateDir persisted = s at hres hlen hpos
      cases hres with
      | full rooms h hin hfit =>
          dsimp only at hlen hpos
          omega
      | shed rooms h hout hfull =>
          dsimp only at hlen hpos
          omega
    by_cases hp : config.project rt realpath stateDir ∈ id.rooms
    · rw [hagain.1 hp hlt.le]
    · rw [hagain.2.1 hp hlt]
      simp [hother hscoped]
  · have hnamed : ∀ r ∈ id.rooms, isNamed r = true := by
      intro r hr
      rw [hrooms, legacy_eq hscoped] at hr
      have hin := (List.mem_filter.mp hr).1
      unfold legacyScope at hin
      dsimp only at hin
      split at hin
      · exact (List.mem_filter.mp hin).2
      · rw [List.mem_singleton.mp hin]
        exact isNamed_default
    rw [resolve_legacy hscoped, List.filter_eq_self.mpr hnamed]
    unfold legacyScope
    dsimp only
    rw [if_pos hne]

end Again

/-! ### Through the state directory -/

section Restarts

/-- The state directory has the path it had, where the project room is named after it. -/
def SessionConfig.SamePath (config : SessionConfig) (stateDir : String)
    (realpath realpath' : String → Option String) : Prop :=
  config.scoped → config.projectRoomName = none →
    canonicalStateDir realpath' stateDir = canonicalStateDir realpath stateDir

variable {ν : Type} [Number ν] {rt : Runtime} {realpath realpath' : String → Option String}
  {config : SessionConfig} {stateDir : String}

theorem project_path (h : config.SamePath stateDir realpath realpath') (hscoped : config.scoped) :
    config.project rt realpath' stateDir = config.project rt realpath stateDir := by
  unfold SessionConfig.project
  rcases Option.eq_none_or_eq_some config.projectRoomName with hname | ⟨name, hname⟩
  · unfold deriveProjectRoom
    rw [h hscoped hname]
  · rw [hname, Option.getD_some, Option.getD_some]

theorem sessionScope_path (h : config.SamePath stateDir realpath realpath')
    (persisted : Option PersistedIdentity) : sessionScope rt realpath' config stateDir persisted =
      sessionScope rt realpath config stateDir persisted := by
  by_cases hscoped : config.scoped
  · have hproject : ∀ rooms persistedRooms,
        (config.args stateDir rooms persistedRooms).project rt realpath' =
          (config.args stateDir rooms persistedRooms).project rt realpath :=
      fun _ _ => project_path h hscoped
    rw [sessionScope_eq, sessionScope_eq]
    unfold resolveRoomScope
    rw [hproject]
  · rw [legacy_eq hscoped, legacy_eq hscoped]

variable (ν) in
/-- A session in the scope `t` whose client has these rooms saves its identity, and a session
started on what was saved gets the scope `u`; the paths are those of the restart. -/
def Restarted (rt : Runtime) (realpath : String → Option String) (config : SessionConfig)
    (stateDir : String) (rooms : List String) (t u : RoomScope) : Prop :=
  ∃ savedAt sessionId name reservations preferredAlias calls dir dir₁ calls₂ dir₂ now loader
      parentFile,
    name ≠ "" ∧
    (given config.identityKey = none → loader = sessionId ∧ sessionId ≠ "") ∧
    MeshIdentity.save ν calls dir (identityFromClient rt savedAt sessionId
      ⟨name, rooms, reservations, t.projectRoom⟩ preferredAlias) config.identityKey = (dir₁, true) ∧
    (∀ file, MeshIdentity.pathFor sessionId config.identityKey = some file →
      dir₂.get? file = dir₁.get? file) ∧
    (∀ file, calls₂ (.read file) = true) ∧
    u = startScope ν rt realpath config stateDir calls₂ now dir₂ loader parentFile

variable (ν) in
/-- A restart that keeps the rooms; the state directory may have been made since. -/
def RestartedSame (rt : Runtime) (realpath : String → Option String) (config : SessionConfig)
    (stateDir : String) (t u : RoomScope) : Prop :=
  ∃ realpath', config.SamePath stateDir realpath realpath' ∧
    Restarted ν rt realpath' config stateDir t.rooms t u

theorem parseIdentity_underived {now : Int} {raw : List Char} {sessionId : String} {any : Bool}
    {id : PersistedIdentity} (h : parseIdentity ν rt now raw sessionId any = some id) :
    id.projectRoom = none := by
  unfold parseIdentity at h
  split at h
  · dsimp only at h
    split at h
    · cases h
    · split at h
      · cases h
      · split at h
        · split at h
          · cases h
          · exact (Option.some.inj h) ▸ rfl
        · cases h
  · cases h

/-- An identity that is read back has no project room. -/
theorem startIdentity_underived (calls : FileCalls) (now : Int) (dir : StateDir) (sessionId : String)
    (key parentFile : Option String) :
    (startIdentity ν rt calls now dir sessionId key parentFile).bind (fun id => id.projectRoom)
      = none := by
  have hload : ∀ id, (MeshIdentity.load ν rt calls now dir sessionId key).2 = some id →
      id.projectRoom = none := by
    intro id h
    unfold MeshIdentity.load at h
    split at h
    · obtain ⟨raw, -, hparse⟩ := Option.bind_eq_some_iff.mp h
      exact parseIdentity_underived hparse
    · split at h
      · cases h
      · split at h
        · exact parseIdentity_underived h
        · split at h
          · cases h
          · next id' hread =>
              obtain ⟨raw, -, hparse⟩ := Option.bind_eq_some_iff.mp hread
              exact Option.some.inj h ▸ parseIdentity_underived hparse
  have hconsume : ∀ dir r, (MeshIdentity.consumePending ν rt calls now dir parentFile none).2 = some r →
      r.1.projectRoom = none := by
    intro dir r h
    unfold MeshIdentity.consumePending at h
    dsimp only at h
    split at h
    · cases h
    · split at h
      · split at h
        · split at h
          · cases h
          · split at h
            · cases h
            · split at h
              · cases h
              · next hparse =>
                  split at h
                  · cases h
                  · exact Option.some.inj h ▸ parseIdentity_underived hparse
        · cases h
      · cases h
  unfold startIdentity
  cases hl : MeshIdentity.load ν rt calls now dir sessionId key with
  | mk dir' found =>
      cases found with
      | some id => exact hload id (by rw [hl])
      | none =>
          dsimp only
          cases hc : (MeshIdentity.consumePending ν rt calls now dir' parentFile none).2 with
          | none => rfl
          | some r => exact hconsume dir' r hc

/-- A restart resolves the rooms that were saved. -/
theorem Restarted.saved (hexact : Exact ν) {rooms : List String} {t u : RoomScope}
    (h : Restarted ν rt realpath config stateDir rooms t u) :
    ∃ id : PersistedIdentity, id.rooms = rooms ∧ id.projectRoom = none ∧
      u = sessionScope rt realpath config stateDir (some id) := by
  obtain ⟨savedAt, sessionId, name, reservations, preferredAlias, calls, dir, dir₁, calls₂, dir₂, now,
    loader, parentFile, hname, hid, hsaved, hkept, hread, rfl⟩ := h
  have hload : (MeshIdentity.load ν rt calls₂ now dir₂ loader config.identityKey).2 = _ :=
    load_saved hexact hsaved hkept (fun hk => (hid hk).1) hread
  rw [if_neg] at hload
  · refine ⟨(identityFromClient rt savedAt sessionId ⟨name, rooms, reservations, t.projectRoom⟩
      preferredAlias).reread ν rt now loader, rfl, rfl, ?_⟩
    unfold startScope startIdentity
    cases hl : MeshIdentity.load ν rt calls₂ now dir₂ loader config.identityKey with
    | mk dir' found =>
        rw [hl] at hload
        dsimp only at hload
        rw [hload]
  · rintro (⟨hk, hs⟩ | hn)
    · exact (hid hk).2 hs
    · exact hname hn

/-- **Every restart gets the scope of the first start**, where the state directory has the path
it had.  If a room was left that is not pinned and was not the last, a restart misses that room
and no other, the project room aside, and every further restart gets that scope. -/
theorem restart_stable (hexact : Exact ν) (rt : Runtime) (realpath : String → Option String)
    (config : SessionConfig) (stateDir : String) (calls : FileCalls) (now : Int) (dir : StateDir)
    (sessionId : String) (parentFile : Option String)
    (hnodup : (sessionRooms config
      (startIdentity ν rt calls now dir sessionId config.identityKey parentFile)).Nodup) :
    let s := startScope ν rt realpath config stateDir calls now dir sessionId parentFile
    (∀ t, Relation.ReflTransGen (RestartedSame ν rt realpath config stateDir) s t → t = s) ∧
    ∀ x u realpath', config.isPinned = false → x ∈ s.rooms →
      (s.rooms.filter fun room => room ≠ x) ≠ [] → config.SamePath stateDir realpath realpath' →
      Restarted ν rt realpath' config stateDir (s.rooms.filter fun room => room ≠ x) s u →
      (∀ room, (config.scoped → room ≠ config.project rt realpath stateDir) →
        (room ∈ u.rooms ↔ room ∈ s.rooms ∧ room ≠ x)) ∧
      ∀ t, Relation.ReflTransGen (RestartedSame ν rt realpath config stateDir) u t → t = u := by
  intro s
  -- whatever identity a start has found, restarts from there change nothing
  have hstable : ∀ persisted : Option PersistedIdentity,
      persisted.bind (fun id => id.projectRoom) = none → (sessionRooms config persisted).Nodup →
      ∀ t, Relation.ReflTransGen (RestartedSame ν rt realpath config stateDir)
        (sessionScope rt realpath config stateDir persisted) t →
        t = sessionScope rt realpath config stateDir persisted := by
    intro persisted hproject hdistinct t hrun
    induction hrun with
    | refl => rfl
    | tail _ hstep ih =>
        subst ih
        obtain ⟨realpath', hpath, hrestart⟩ := hstep
        obtain ⟨id, hrooms, hunderived, rfl⟩ := hrestart.saved hexact
        rw [sessionScope_path hpath]
        exact sessionScope_again hproject hdistinct hrooms hunderived
  have hproject : (startIdentity ν rt calls now dir sessionId config.identityKey parentFile).bind
      (fun id => id.projectRoom) = none :=
    startIdentity_underived calls now dir sessionId config.identityKey parentFile
  refine ⟨fun t hrun => hstable _ hproject hnodup t hrun, ?_⟩
  intro x u realpath' hpin hx hne hpath hleft
  obtain ⟨id, hrooms, hunderived, rfl⟩ := hleft.saved hexact
  rw [sessionScope_path hpath]
  have hne' : id.rooms ≠ [] := by rwa [hrooms]
  refine ⟨fun room hother => sessionScope_left hpin hnodup hx hrooms hne' hunderived hother, ?_⟩
  refine hstable (some id) hunderived ?_
  rw [sessionRooms_saved hpin hne' hunderived, hrooms]
  exact (sessionScope_nodup hnodup).filter _

end Restarts

/-! ### Leaving a room -/

/-- Alice's first start, in an empty state directory. -/
def aliceStarts (config : SessionConfig) : RoomScope :=
  startScope Int referenceRuntime (fun _ => none) config "/home/dev/pi-mesh/.mesh" (fun _ => true)
    1704067200000 Map.empty "s-1" none

/-- She can start again with any rooms. -/
theorem exists_restarted (realpath : String → Option String) (config : SessionConfig)
    (hkey : config.identityKey = none) (rooms : List String) (t : RoomScope) :
    ∃ u, Restarted Int referenceRuntime realpath config "/home/dev/pi-mesh/.mesh" rooms t u := by
  refine ⟨_, 1704067200000, "s-1", "alice", [], none, fun _ => true, Map.empty,
    (MeshIdentity.save Int (fun _ => true) Map.empty (identityFromClient referenceRuntime 1704067200000
      "s-1" ⟨"alice", rooms, [], t.projectRoom⟩ none) none).1, fun _ => true, _, 1704067260000, "s-1",
    none, by decide, fun _ => ⟨rfl, by decide⟩, ?_, fun _ _ => rfl, fun _ => rfl, rfl⟩
  rw [hkey]
  exact Prod.ext rfl rfl

/-- Two rooms, in the mode that adds the project's. -/
def twoRooms : SessionConfig := { rooms := ["default", "ops"] }

theorem restart_stable_ops : ∃ u, Restarted Int referenceRuntime (fun _ => none) twoRooms
    "/home/dev/pi-mesh/.mesh" ((aliceStarts twoRooms).rooms.filter fun room => room ≠ "ops")
      (aliceStarts twoRooms) u ∧ "ops" ∉ u.rooms ∧ "default" ∈ u.rooms := by
  have hrooms : (aliceStarts twoRooms).rooms = ["default", "ops", "proj.pi-mesh.e3b0c4"] := by
    decide +kernel
  have hproject : twoRooms.project referenceRuntime (fun _ => none) "/home/dev/pi-mesh/.mesh"
      = "proj.pi-mesh.e3b0c4" := by decide +kernel
  have hnodup : (sessionRooms twoRooms (startIdentity Int referenceRuntime (fun _ => true)
      1704067200000 Map.empty "s-1" twoRooms.identityKey none)).Nodup := by decide +kernel
  have hexact : Exact Int := rfl
  obtain ⟨u, hu⟩ := exists_restarted (fun _ => none) twoRooms rfl
    ((aliceStarts twoRooms).rooms.filter fun room => room ≠ "ops") (aliceStarts twoRooms)
  have h := ((restart_stable hexact referenceRuntime (fun _ => none) twoRooms "/home/dev/pi-mesh/.mesh"
    (fun _ => true) 1704067200000 Map.empty "s-1" none hnodup).2 "ops" u (fun _ => none) (by decide)
    (by show "ops" ∈ (aliceStarts twoRooms).rooms; rw [hrooms]; decide)
    (by show ((aliceStarts twoRooms).rooms.filter fun room => room ≠ "ops") ≠ []; rw [hrooms]; decide)
    (fun _ _ => rfl) hu).1
  refine ⟨u, hu, ?_, ?_⟩
  · rw [h "ops" fun _ => by rw [hproject]; decide]
    simp
  · rw [h "default" fun _ => by rw [hproject]; decide]
    refine ⟨?_, by decide⟩
    show "default" ∈ (aliceStarts twoRooms).rooms
    rw [hrooms]
    decide

/-- Two pinned rooms. -/
def pinnedRooms : SessionConfig := { rooms := ["ops", "dev"], roomsPinned := true }

/-- One room, without a project room. -/
def oneRoom : SessionConfig := { rooms := ["ops"], roomMode := .default }

/-- Where the state directory is a link, once it is there. -/
def linked (_ : String) : Option String := some "/data/mesh-two/.mesh"

/-- A pinned room that was left is there again, and so is the last room; and where the state
directory turns out to be a link, so that its path changes, the project room is another. -/
theorem left_room_returns :
    ("ops" ∈ (aliceStarts pinnedRooms).rooms ∧ ∃ u, Restarted Int referenceRuntime (fun _ => none)
      pinnedRooms "/home/dev/pi-mesh/.mesh"
      ((aliceStarts pinnedRooms).rooms.filter fun room => room ≠ "ops") (aliceStarts pinnedRooms) u ∧
      "ops" ∈ u.rooms) ∧
    ("ops" ∈ (aliceStarts oneRoom).rooms ∧ ∃ u, Restarted Int referenceRuntime (fun _ => none)
      oneRoom "/home/dev/pi-mesh/.mesh"
      ((aliceStarts oneRoom).rooms.filter fun room => room ≠ "ops") (aliceStarts oneRoom) u ∧
      "ops" ∈ u.rooms) ∧
    ∃ u, Restarted Int referenceRuntime linked twoRooms "/home/dev/pi-mesh/.mesh"
      (aliceStarts twoRooms).rooms (aliceStarts twoRooms) u ∧
      u.broadcastRoom ≠ (aliceStarts twoRooms).broadcastRoom := by
  have hexact : Exact Int := rfl
  refine ⟨⟨by decide +kernel, ?_⟩, ⟨by decide +kernel, ?_⟩, ?_⟩
  · obtain ⟨u, hu⟩ := exists_restarted (fun _ => none) pinnedRooms rfl
      ((aliceStarts pinnedRooms).rooms.filter fun room => room ≠ "ops") (aliceStarts pinnedRooms)
    refine ⟨u, hu, ?_⟩
    obtain ⟨id, -, hproject, rfl⟩ := hu.saved hexact
    have hpinned : pinnedRooms.isPinned = true := by decide +kernel
    rw [sessionScope_pinned hpinned (by simpa using hproject)]
    decide +kernel
  · obtain ⟨u, hu⟩ := exists_restarted (fun _ => none) oneRoom rfl
      ((aliceStarts oneRoom).rooms.filter fun room => room ≠ "ops") (aliceStarts oneRoom)
    refine ⟨u, hu, ?_⟩
    obtain ⟨id, hrooms, hproject, rfl⟩ := hu.saved hexact
    have hnone : id.rooms = [] := by
      rw [hrooms]
      decide +kernel
    have hsession : sessionRooms oneRoom (some id) = ["ops"] := by
      unfold sessionRooms chooseInitialIdentity
      dsimp only
      rw [hnone, Option.bind_some, hproject]
      decide +kernel
    rw [legacy_eq (fun hc => hc.1 rfl), hsession]
    decide +kernel
  · obtain ⟨u, hu⟩ := exists_restarted linked twoRooms rfl (aliceStarts twoRooms).rooms
      (aliceStarts twoRooms)
    refine ⟨u, hu, ?_⟩
    obtain ⟨id, hrooms, hproject, rfl⟩ := hu.saved hexact
    have hsession : sessionRooms twoRooms (some id) = ["default", "ops", "proj.pi-mesh.e3b0c4"] := by
      have hstart : (aliceStarts twoRooms).rooms = ["default", "ops", "proj.pi-mesh.e3b0c4"] := by
        decide +kernel
      rw [sessionRooms_saved (by decide +kernel) (by rw [hrooms, hstart]; simp) hproject, hrooms,
        hstart]
    have hpersisted : (some id).any (fun id => id.rooms ≠ []) = true := by
      have hne : (aliceStarts twoRooms).rooms ≠ [] := by decide +kernel
      simpa [hrooms] using hne
    rw [sessionScope_eq, hsession, hpersisted]
    decide +kernel

end PiMesh
