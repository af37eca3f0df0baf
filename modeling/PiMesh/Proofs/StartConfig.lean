/-
What a configuration may hold for a session to start.

Most fields are made safe one by one, and five kinds are not.  A positive number below one is
rounded down to zero; an alias is passed on as it is written; so are rooms, and in the default
mode or under a pin nobody counts them; the items of `caps` are trimmed as if they were
strings; and nothing relates the limit of a frame to what the hello has to hold.  Where none of
these is met the configuration is usable, and where one is, it is not.

The rooms need care, because outside of the default mode some of those asked for are dropped:
the project's own earlier names, the default room, and what is over the cap.  A room that is
dropped does no harm, so only the first of the others count, as many as the cap holds.
-/
import PiMesh.Shared.LoadConfig
import PiMesh.Js.JsonSize
import PiMesh.Proofs.RoomRestart
import Mathlib.Data.List.Dedup

namespace PiMesh

open Js

variable {ν : Type} [FloorNumber ν]

/-! ### Usable configurations -/

/-- The numeric limits that have to be positive. -/
def LoadedConfig.limits (cfg : LoadedConfig) : List Int :=
  [cfg.maxFrameBytes, cfg.heartbeatMs, cfg.brokerSilenceMs, cfg.maxRoomsPerPeer,
    cfg.transcriptRetentionDays, cfg.ledgerMaxBytes, cfg.watchdogSpikeBytes, cfg.watchdogMaxCalls,
    cfg.watchdogCompactionBytes, cfg.inboundBatchMaxHoldMs, cfg.mailboxCap, cfg.mailboxTtlMs,
    cfg.activityIdleMs, cfg.activityStuckMs]

/-- The ones of which 0 is an opt-out. -/
def LoadedConfig.optOuts (cfg : LoadedConfig) : List Int := [cfg.reservationTtlMs, cfg.inboundBatchMs]

variable (ν) in
/-- A hello that can be sent, and that the broker takes if it has the same cap. -/
structure HelloFits (rt : Runtime) (cfg : LoadedConfig) (hello : ClientFrame) : Prop where
  sent : hello.encodes ν rt cfg.maxFrameBytes.toNat = true
  name : isValidAlias hello.sender = true
  rooms : ∀ room ∈ hello.rooms.getD [], isValidRoom room = true
  count : ((hello.rooms.getD []).length : Int) ≤ cfg.maxRoomsPerPeer

/-- The configuration loads, with sound limits and a hello that fits. -/
def ConfigUsable (host : SessionHost) (text : Option (List Char)) (env : ProcessEnv ν)
    (persisted : Option PersistedIdentity) : Prop :=
  ∃ cfg, loadConfig host.rt text env = some cfg ∧
    (∀ n ∈ cfg.limits, 1 ≤ n) ∧ (∀ n ∈ cfg.optOuts, 0 ≤ n) ∧
    ∀ freshAlias, HelloFits ν host.rt cfg (helloFrame (sessionEnv host cfg persisted freshAlias) host.now
      (sessionClient (ν := ν) host cfg persisted))

/-! ### What is set -/

/-- A numeric setting: its field, its variable if it has one, and its default. -/
structure NumericSetting where
  key : String
  var : Option String := none
  fallback : Int

def limitSettings : List NumericSetting :=
  [{ key := "heartbeatMs", fallback := 15000 }, { key := "brokerSilenceMs", fallback := 45000 },
    { key := "maxRoomsPerPeer", fallback := 16 },
    { key := "transcriptRetentionDays", fallback := 7 },
    { key := "ledgerMaxBytes", fallback := 5242880 },
    { key := "watchdogSpikeBytes", fallback := 2097152 },
    { key := "watchdogMaxCalls", fallback := 64 },
    { key := "watchdogCompactionBytes", fallback := 1048576 },
    { key := "inboundBatchMaxHoldMs", fallback := 30000 },
    { key := "mailboxCap", var := some "MESH_MAILBOX_CAP", fallback := 100 },
    { key := "mailboxTtlMs", var := some "MESH_MAILBOX_TTL_MS", fallback := 3600000 },
    { key := "activityIdleMs", var := some "MESH_ACTIVITY_IDLE_MS", fallback := 120000 },
    { key := "activityStuckMs", var := some "MESH_ACTIVITY_STUCK_MS", fallback := 900000 }]

section Settings

/-- The value, where it is a number. -/
def numberOf : Option (Json ν) → Option ν
  | some (.num v) => some v
  | _ => none

variable (file : Members ν) (env : ProcessEnv ν)

/-- The positive number of a setting: that of its variable, or else that of the file. -/
def NumericSetting.inForce (s : NumericSetting) : Option ν :=
  (((s.var.bind env.text).map env.number).filter isPositive).orElse fun _ =>
    (numberOf (getOf file s.key)).filter isPositive

/-- The rooms that are configured, and not blank. -/
def configuredRooms : List String :=
  (((env.text "MESH_ROOMS").map commaList).getD (fileRooms file)).filter isNamed

def roomsPinned : Bool := (env.text "MESH_ROOMS").isSome || isTrue (getOf file) "roomsPinned"

/-- The rooms that are asked for: those of a pin, or of the identity, or of the configuration. -/
def askedRooms (persisted : Option PersistedIdentity) : List String :=
  let configured := configuredRooms file env
  let rooms :=
    if roomsPinned file env && configured ≠ [] then configured
    else
      match persisted with
      | some id => if id.rooms ≠ [] then id.rooms else if configured ≠ [] then configured else [defaultRoom]
      | none => if configured ≠ [] then configured else [defaultRoom]
  (dropRecordedProjectRoom rooms (persisted.bind fun id => id.projectRoom)).filter isNamed

/-- The alias that is asked for: that of the configuration, or of the identity. -/
def askedAlias (persisted : Option PersistedIdentity) : Option String :=
  ((env.text "MESH_ALIAS").orElse fun _ => fileText file "alias" isNamed).orElse fun _ =>
    persisted.map fun id => id.preferredAlias.getD id.name

variable (rt : Runtime)

/-- The mode that is set. -/
def roomModeSet : RoomMode :=
  match env.text "MESH_ROOM_MODE" with
  | some raw => normalizeRoomMode rt (some (rt.toLowerCase (trim raw)))
  | none => normalizeRoomMode rt ((getOf file "roomMode").bind asStr)

/-- The name of the project room, if one is set. -/
def projectRoomSet : Option String :=
  ((env.text "MESH_PROJECT_ROOM").bind fun raw =>
    normalizeProjectRoomName rt (some (rt.toLowerCase (trim raw)))).orElse fun _ =>
      normalizeProjectRoomName rt ((getOf file "projectRoomName").bind asStr)

/-- The capabilities in force. -/
def capsSet : List String :=
  ((env.get "MESH_CAPS").map fun raw =>
    normalizeCaps rt ((splitChars ',' raw.toList).map String.ofList)).getD
      ((normalizeCapItems rt [] (itemsOf (getOf file "caps"))).getD [])

/-- The broker token in force. -/
def tokenSet : Option String :=
  ((env.get "MESH_BROKER_TOKEN").filter isNamed).orElse fun _ => fileText file "brokerToken" isNamed

/-- The bytes a frame may have. -/
def frameBytesSet : Int :=
  ((envInt env "MESH_MAX_FRAME_BYTES").map clampFrameBytes).getD
    (clampFrameBytes (positiveInt (getOf file "maxFrameBytes") 65536))

/-- The rooms that are listed, blank ones too. -/
def listedRooms : List String := ((env.text "MESH_ROOMS").map commaList).getD (fileRooms file)

/-- What the rooms are resolved from. -/
def askedArgs (host : SessionHost) (persisted : Option PersistedIdentity) : ScopeArgs :=
  { roomMode := some (roomModeSet file env host.rt)
    rooms := dropRecordedProjectRoom
      (chooseInitialIdentity { rooms := listedRooms file env, roomsPinned := roomsPinned file env }
        persisted).rooms (persisted.bind fun id => id.projectRoom)
    stateDir := host.stateDir
    projectRoomName := projectRoomSet file env host.rt
    configuredRooms := some (listedRooms file env)
    maxRoomsPerPeer := some (positiveInt (getOf file "maxRoomsPerPeer") 16).toNat
    persistedRooms := persisted.any fun id => id.rooms ≠ []
    pinned := roomsPinned file env }

end Settings

/-- The rooms that are kept: in the default mode all of them, within the cap the project room,
the others and the default room, and over the cap the first of the others. -/
def ScopeArgs.kept (projectRoom : String) (args : ScopeArgs) : List String :=
  let others := args.others projectRoom
  if args.roomMode = some .default ∨ args.pinned then
    if args.base ≠ [] then args.base else [defaultRoom]
  else if args.asked projectRoom ≤ args.cap then
    projectRoom :: others ++ if 0 < args.defaults then [defaultRoom] else []
  else
    others.take args.cap ++
      if projectRoom ≠ defaultRoom ∧ 0 < args.defaults ∧ others.length < args.cap then [defaultRoom]
      else []

/-! ### Sizes -/

/-- The bytes of a string in JSON. -/
def stringBytes (s : String) : Nat := byteLength (Json.quote s.toList)

/-- The bytes of an array, of those of its items. -/
def arrayBytes (items : List Nat) : Nat := max 1 ((items.map (· + 1)).sum) + 1

variable (ν) in
/-- The bytes of a number in JSON. -/
def numberBytes (n : Int) : Nat := Json.bytes (.num (Number.ofInteger n) : Json ν)

variable (ν) in
/-- The bytes of the first hello, of those of what is set. -/
def helloBytes (host : SessionHost) (name : String) (rooms caps : List String)
    (reservations : List FileReservation) (token : Option String) : Nat :=
  85 + numberBytes ν 1 + numberBytes ν protoVersion + stringBytes (host.rt.makeMsgId 0) +
    stringBytes (host.rt.toISOString host.now) + stringBytes name +
    stringBytes host.clientVersion + arrayBytes (rooms.map stringBytes) +
    arrayBytes (caps.map stringBytes) +
    (if reservations = [] then 0
      else 16 + arrayBytes (reservations.map fun r => Json.bytes (r.json : Json ν))) +
    ((token.map fun t => 9 + stringBytes (host.rt.sha256 t)).getD 0)

/-- The rooms asked for suit the broker, in the default mode all of them and otherwise those
that are kept. -/
def RoomsFit (mode : RoomMode) (pinned : Bool) (projectRoom : String) (cap : Nat)
    (rooms : List String) : Prop :=
  if mode = .default ∨ pinned then
    (∀ room ∈ rooms, isValidRoom room = true) ∧ (Set.ofList rooms).size ≤ cap
  else
    ∀ room ∈ (rooms.filter fun room =>
      !isStaleOwnProjectRoom room projectRoom && room ≠ projectRoom && room ≠ defaultRoom).take cap,
      isValidRoom room = true

/-- How long the first hello is. -/
def askedBytes (host : SessionHost) (file : Members ν) (env : ProcessEnv ν)
    (persisted : Option PersistedIdentity) : Nat :=
  helloBytes ν host
    (normalizeAlias host.rt ((askedAlias file env persisted).getD (defaultAlias host.random)))
    (((askedArgs file env host persisted).kept ((projectRoomSet file env host.rt).getD
      (deriveProjectRoom host.rt host.realpath host.stateDir))).dedup)
    (capsSet file env host.rt) ((persisted.map fun id => id.reservations).getD [])
    (tokenSet file env)

/-- The settings are such that a session can start. -/
structure ConfigFits (host : SessionHost) (file : Members ν) (env : ProcessEnv ν)
    (persisted : Option PersistedIdentity) : Prop where
  /-- Each item of `caps` is a string, up to where enough of them are read. -/
  caps : ∃ (strs : List String) (rest : List (Json ν)),
    itemsOf (getOf file "caps") = strs.map .str ++ rest ∧
      (rest = [] ∨ maxCaps ≤ (normalizeCaps host.rt strs).length)
  /-- No limit in force is a fraction below one. -/
  limits : ∀ s ∈ limitSettings, ∀ v, s.inForce file env = some v → 1 ≤ FloorNumber.floor v
  name : ∀ name, askedAlias file env persisted = some name →
    isValidAlias (normalizeAlias host.rt name) = true
  rooms : RoomsFit (roomModeSet file env host.rt) (roomsPinned file env)
    ((projectRoomSet file env host.rt).getD
      (deriveProjectRoom host.rt host.realpath host.stateDir))
    (positiveInt (getOf file "maxRoomsPerPeer") 16).toNat (askedRooms file env persisted)
  /-- What is set is not more than one frame holds. -/
  size : askedBytes host file env persisted ≤ (frameBytesSet file env).toNat

/-! ### Numbers -/

section Numbers

variable (file : Members ν) (env : ProcessEnv ν)

def NumericSetting.value (s : NumericSetting) : Int :=
  (s.var.bind (envInt env)).getD (positiveInt (getOf file s.key) s.fallback)

theorem positiveInt_eq (value : Option (Json ν)) (fallback : Int) : positiveInt value fallback =
    (((numberOf value).filter isPositive).map FloorNumber.floor).getD fallback := by
  unfold positiveInt
  split
  · next v =>
      by_cases hpos : isPositive v = true
      · simp [numberOf, Option.filter, hpos]
      · simp [numberOf, Option.filter, hpos]
  · next hno =>
      have hnone : numberOf value = none := by
        unfold numberOf
        split
        · next v => exact absurd rfl (hno v)
        · rfl
      rw [hnone]
      rfl

theorem envInt_eq (key : String) : envInt env key =
    (((env.text key).map env.number).filter isPositive).map FloorNumber.floor := by
  unfold envInt
  cases env.text key with
  | none => rfl
  | some raw =>
      by_cases hpos : isPositive (env.number raw) = true
      · simp [hpos]
      · simp [hpos]

theorem NumericSetting.value_eq (s : NumericSetting) :
    s.value file env = ((s.inForce file env).map FloorNumber.floor).getD s.fallback := by
  have hvar : s.var.bind (envInt env) = (((s.var.bind env.text).map env.number).filter
      isPositive).map FloorNumber.floor := by
    cases s.var with
    | none => rfl
    | some var => exact envInt_eq env var
  unfold value inForce
  rw [positiveInt_eq, hvar]
  cases ((s.var.bind env.text).map env.number).filter isPositive with
  | none => rfl
  | some v => rfl

theorem NumericSetting.value_pos_iff (s : NumericSetting) (hfallback : 1 ≤ s.fallback) :
    1 ≤ s.value file env ↔ ∀ v, s.inForce file env = some v → 1 ≤ FloorNumber.floor v := by
  rw [s.value_eq]
  cases s.inForce file env with
  | none => simp [hfallback]
  | some v => simp

theorem limitSettings_fallback : ∀ s ∈ limitSettings, 1 ≤ s.fallback := by decide

theorem clampFrameBytes_pos (n : Int) : 1 ≤ clampFrameBytes n := by
  unfold clampFrameBytes hardMaxFrameBytes hardMinFrameBytes
  omega

omit file env in
theorem floor_nonneg {value : Option ν} {fallback : Int} (h : 0 ≤ fallback) :
    0 ≤ ((value.filter isPositive).map FloorNumber.floor).getD fallback := by
  cases hv : value.filter isPositive with
  | none => exact h
  | some v =>
      have hpos := (Option.filter_eq_some_iff.mp hv).2
      simp only [isPositive, Bool.and_eq_true, decide_eq_true_eq] at hpos
      exact hpos.1.2

end Numbers

/-! ### What is loaded -/

/-- The fields of a configuration that loads, as far as a start depends on them. -/
structure Loaded (rt : Runtime) (file : Members ν) (env : ProcessEnv ν) (cfg : LoadedConfig) :
    Prop where
  limits : cfg.limits = cfg.maxFrameBytes :: limitSettings.map fun s => s.value file env
  frameBytes : 1 ≤ cfg.maxFrameBytes
  optOuts : ∀ n ∈ cfg.optOuts, 0 ≤ n
  name : cfg.name = (env.text "MESH_ALIAS").orElse fun _ => fileText file "alias" isNamed
  rooms : cfg.rooms = ((env.text "MESH_ROOMS").map commaList).getD (fileRooms file)
  pinned : cfg.roomsPinned = roomsPinned file env
  mode : cfg.roomMode = roomModeSet file env rt
  project : cfg.projectRoomName = projectRoomSet file env rt
  cap : cfg.maxRoomsPerPeer = positiveInt (getOf file "maxRoomsPerPeer") 16
  bytes : cfg.maxFrameBytes = frameBytesSet file env
  caps : cfg.caps = capsSet file env rt
  token : cfg.brokerToken = tokenSet file env

theorem clampFrameBytes_getD (value : Option Int) (n : Int) :
    1 ≤ (value.map clampFrameBytes).getD (clampFrameBytes n) := by
  cases value with
  | none => exact clampFrameBytes_pos n
  | some m => exact clampFrameBytes_pos m

theorem loaded_of {rt : Runtime} {file : Members ν} {env : ProcessEnv ν} {cfg : LoadedConfig}
    (h : (ofFile rt file).map (withEnv rt env) = some cfg) : Loaded rt file env cfg := by
  obtain ⟨base, hbase, rfl⟩ := Option.map_eq_some_iff.mp h
  obtain ⟨caps, hcaps, rfl⟩ := Option.map_eq_some_iff.mp hbase
  refine ⟨rfl, clampFrameBytes_getD _ _, ?_, rfl, rfl, rfl, ?_, rfl, rfl, rfl, ?_, rfl⟩
  · intro n hn
    have hbatch : 0 ≤ (if isZero (getOf file "inboundBatchMs") then 0
        else positiveInt (getOf file "inboundBatchMs") 250) := by
      split
      · exact Int.le_refl 0
      · rw [positiveInt_eq]
        exact floor_nonneg (by decide)
    have hreservation : 0 ≤ (if isZero (getOf file "reservationTtlMs") then 0
        else positiveInt (getOf file "reservationTtlMs") 21600000) := by
      split
      · exact Int.le_refl 0
      · rw [positiveInt_eq]
        exact floor_nonneg (by decide)
    simp only [LoadedConfig.optOuts, List.mem_cons, List.not_mem_nil, or_false] at hn
    obtain rfl | rfl := hn
    · show 0 ≤ (if _ then (0 : Int) else (envInt env "MESH_RESERVATION_TTL_MS").getD _)
      split
      · exact Int.le_refl 0
      · rw [envInt_eq]
        exact floor_nonneg hreservation
    · unfold withEnv
      dsimp only
      split
      · split
        · next hfinite =>
            simp only [Bool.and_eq_true, decide_eq_true_eq] at hfinite
            exact hfinite.2
        · exact hbatch
      · exact hbatch
  · show ((env.text "MESH_ROOM_MODE").map _).getD _ = _
    unfold roomModeSet
    cases env.text "MESH_ROOM_MODE" with
    | none => rfl
    | some raw => rfl
  · unfold capsSet
    rw [hcaps]
    rfl

section Start

variable {rt : Runtime} {file : Members ν} {env : ProcessEnv ν} {cfg : LoadedConfig}
  {persisted : Option PersistedIdentity}

theorem Loaded.limits_iff (h : Loaded rt file env cfg) : (∀ n ∈ cfg.limits, 1 ≤ n) ↔
    ∀ s ∈ limitSettings, ∀ v, s.inForce file env = some v → 1 ≤ FloorNumber.floor v := by
  rw [h.limits, List.forall_mem_cons, List.forall_mem_map]
  constructor
  · intro hlimits s hs
    exact (s.value_pos_iff file env (limitSettings_fallback s hs)).mp (hlimits.2 s hs)
  · intro hsettings
    refine ⟨h.frameBytes, ?_⟩
    intro s hs
    exact (s.value_pos_iff file env (limitSettings_fallback s hs)).mpr (hsettings s hs)

theorem given_of_named {o : Option String} (h : ∀ s, o = some s → isNamed s = true) :
    given o = o := by
  cases o with
  | none => rfl
  | some s =>
      have hne : s ≠ "" := by
        intro hs
        have hnamed := h s rfl
        rw [hs] at hnamed
        exact absurd hnamed (by decide)
      simp [given, Option.filter, hne]

/-- An alias of a configuration is not blank. -/
theorem Loaded.named (h : Loaded rt file env cfg) {s : String} (hs : cfg.name = some s) :
    isNamed s = true := by
  rw [h.name] at hs
  cases halias : env.text "MESH_ALIAS" with
  | none =>
      rw [halias] at hs
      exact (Option.filter_eq_some_iff.mp hs).2
  | some name =>
      rw [halias] at hs
      obtain rfl := Option.some.inj hs
      exact (Option.filter_eq_some_iff.mp halias).2

theorem Loaded.askedAlias (h : Loaded rt file env cfg) :
    (chooseInitialIdentity cfg.identity persisted).name = askedAlias file env persisted := by
  show ((given cfg.name).orElse fun _ => _) = _
  rw [given_of_named fun _ => h.named, h.name]
  rfl

theorem Loaded.askedRooms (h : Loaded rt file env cfg) (stateDir : String) :
    (cfg.scopeArgs stateDir persisted).base = askedRooms file env persisted := by
  show (dropRecordedProjectRoom (chooseInitialIdentity ⟨cfg.name, cfg.rooms, cfg.roomsPinned⟩
    persisted).rooms _).filter isNamed = _
  rw [h.rooms, h.pinned]
  rfl

theorem Loaded.scopeArgs {host : SessionHost} (h : Loaded host.rt file env cfg) :
    cfg.scopeArgs host.stateDir persisted = askedArgs file env host persisted := by
  unfold LoadedConfig.scopeArgs askedArgs LoadedConfig.identity listedRooms
  rw [h.mode, h.rooms, h.pinned, h.project, h.cap]
  rfl

end Start

/-! ### The rooms of a scope -/

theorem isValidRoom_default : isValidRoom defaultRoom = true := by decide

/-- A set has no more elements than the list it is made of. -/
theorem size_ofList_le {α : Type} [DecidableEq α] (l : List α) : (Set.ofList l).size ≤ l.length :=
  (List.subperm_of_subset (Set.ofList l).nodup fun x hx => (Set.mem_ofList l x).mp hx).length_le

section Scope

variable {rt : Runtime} {realpath : String → Option String} {args : ScopeArgs} {mode : RoomMode}

/-- With the project room and the default room valid, only the others matter. -/
theorem joined_valid_iff (hmode : args.roomMode ≠ some .default) {projectRoom : String}
    (hproject : isValidRoom projectRoom = true) :
    (∀ room ∈ args.joined projectRoom, isValidRoom room = true) ↔
      ∀ room ∈ args.others projectRoom, isValidRoom room = true := by
  constructor
  · intro h room hroom
    obtain ⟨-, -, hp, hd⟩ := mem_args_others.mp hroom
    exact h room ((mem_joined hmode hp hd).mpr hroom)
  · intro h room hroom
    by_cases hp : room = projectRoom
    · rw [hp]
      exact hproject
    · by_cases hd : room = defaultRoom
      · rw [hd]
        exact isValidRoom_default
      · exact h room ((mem_joined hmode hp hd).mp hroom)

theorem trimmed_valid_iff (hmode : args.roomMode ≠ some .default) {projectRoom : String} :
    (∀ room ∈ args.trimmed projectRoom, isValidRoom room = true) ↔
      ∀ room ∈ args.others projectRoom, isValidRoom room = true := by
  constructor
  · intro h room hroom
    exact h room ((mem_trimmed hmode).mpr (.inl hroom))
  · intro h room hroom
    rcases (mem_trimmed hmode).mp hroom with hother | ⟨hd, -⟩
    · exact h room hother
    · rw [hd]
      exact isValidRoom_default

/-- **What the broker asks of the rooms of a scope, it asks of the rooms that were asked for.** -/
theorem scope_fits_iff (hmode : args.roomMode = some mode)
    (hproject : isValidRoom (args.project rt realpath) = true) (hcap : 1 ≤ args.cap) :
    (∀ room ∈ (resolveRoomScope rt realpath args).rooms, isValidRoom room = true) ∧
        (Set.ofList (resolveRoomScope rt realpath args).rooms).size ≤ args.cap ↔
      RoomsFit mode args.pinned (args.project rt realpath) args.cap args.base := by
  by_cases hlegacy : mode = .default ∨ args.pinned = true
  · have hrooms : (resolveRoomScope rt realpath args).rooms =
        if args.base ≠ [] then args.base else [defaultRoom] := by
      unfold resolveRoomScope
      rw [hmode, Option.getD_some, if_pos hlegacy]
    rw [RoomsFit, if_pos hlegacy, hrooms]
    by_cases hbase : args.base = []
    · rw [if_neg (not_not_intro hbase), hbase]
      constructor
      · intro _
        exact ⟨by simp, Nat.zero_le _⟩
      · intro _
        refine ⟨?_, hcap⟩
        intro room hroom
        rw [List.mem_singleton.mp hroom]
        exact isValidRoom_default
    · rw [if_pos hbase]
  · rw [RoomsFit, if_neg hlegacy]
    have hscoped : args.roomMode ≠ some .default := by
      rw [hmode]
      intro h
      exact hlegacy (.inl (Option.some.inj h))
    have hpin : args.pinned = false := by
      simpa using fun h => hlegacy (.inr h)
    show _ ↔ ∀ room ∈ (args.others (args.project rt realpath)).take args.cap, _
    by_cases hfit : args.asked (args.project rt realpath) ≤ args.cap
    · have hlength : (args.joined (args.project rt realpath)).length ≤ args.cap := by
        rw [length_joined _ hscoped]
        exact hfit
      have hothers : (args.others (args.project rt realpath)).length ≤ args.cap := by
        unfold ScopeArgs.asked at hfit
        omega
      rw [resolveRoomScope_within hscoped hpin hfit, List.take_of_length_le hothers,
        ← joined_valid_iff hscoped hproject]
      exact and_iff_left ((size_ofList_le _).trans hlength)
    · rw [resolveRoomScope_over hscoped hpin (Nat.lt_of_not_le hfit)]
      have hlength : (shedScope (args.project rt realpath) args).rooms.length ≤ args.cap := by
        rw [shed_rooms hcap]
        exact List.length_take_le _ _
      rw [and_iff_left ((size_ofList_le _).trans hlength)]
      by_cases hfull : args.cap ≤ (args.others (args.project rt realpath)).length
      · rw [shed_rooms_full hscoped hcap hfull]
      · rw [shed_rooms_spare hscoped hcap (Nat.lt_of_not_le hfull), trimmed_valid_iff hscoped,
          List.take_of_length_le (Nat.le_of_not_le hfull)]

/-- **Which rooms a scope comes to.** -/
theorem mem_scope_rooms (hmode : args.roomMode = some mode) (hcap : 1 ≤ args.cap) {room : String} :
    room ∈ (resolveRoomScope rt realpath args).rooms ↔
      room ∈ args.kept (args.project rt realpath) := by
  unfold ScopeArgs.kept
  dsimp only
  by_cases hlegacy : args.roomMode = some .default ∨ args.pinned = true
  · have happlies : args.roomMode.getD .both = .default ∨ args.pinned = true := by
      rw [hmode] at hlegacy ⊢
      exact hlegacy.imp_left Option.some.inj
    unfold resolveRoomScope
    rw [if_pos hlegacy, if_pos happlies]
  · rw [not_or, Bool.not_eq_true] at hlegacy
    obtain ⟨hscoped, hpin⟩ := hlegacy
    rw [if_neg (by simp [hscoped, hpin])]
    by_cases hfit : args.asked (args.project rt realpath) ≤ args.cap
    · rw [if_pos hfit, resolveRoomScope_within hscoped hpin hfit]
      show room ∈ args.joined (args.project rt realpath) ↔ _
      by_cases hp : room = args.project rt realpath
      · simp [hp, project_mem_joined]
      · by_cases hd : room = defaultRoom
        · have hcount := count_joined_default (args.project rt realpath) hscoped
          rw [if_neg (hd ▸ Ne.symm hp)] at hcount
          have hnot : defaultRoom ∉ args.others (args.project rt realpath) :=
            fun hc => (mem_args_others.mp hc).2.2.2 rfl
          have hmem : defaultRoom ∈ args.joined (args.project rt realpath) ↔ 0 < args.defaults := by
            rw [← hcount, List.count_pos_iff, List.mem_filter]
            simp [hd ▸ hp]
          rw [hd, hmem]
          split
          · next h => simp [h]
          · next h => simp [h, hnot, hd ▸ hp]
        · rw [mem_joined hscoped hp hd]
          split <;> simp [hp, hd]
    · rw [if_neg hfit, resolveRoomScope_over hscoped hpin (Nat.lt_of_not_le hfit),
        mem_shed hscoped hcap, List.mem_append]
      refine or_congr_right ?_
      split
      · next h => simp [h]
      · next h => simp [h]

end Scope

/-! ### The project room -/

/-- A character that may stand inside the name of a room. -/
def isRoomChar (c : Char) : Bool := isLowerOrDigit c || c == '.' || c == '-'

theorem isValidRoom_ofList {c : Char} {rest : List Char} (hc : isLowerOrDigit c = true)
    (hrest : ∀ d ∈ rest, isRoomChar d = true) (hlength : rest.length ≤ 63) :
    isValidRoom (String.ofList (c :: rest)) = true := by
  unfold isValidRoom
  rw [String.toList_ofList]
  have hall : (rest.all fun c => isLowerOrDigit c || c == '.' || c == '-') = true :=
    List.all_eq_true.mpr hrest
  simp [hc, hall, hlength]

theorem mem_dashed {c : Char} (l : List Char) : ∀ inRun, c ∈ dashed inRun l → isRoomChar c = true := by
  induction l with
  | nil =>
      intro _ h
      cases h
  | cons d rest ih =>
      intro inRun h
      rw [dashed] at h
      split at h
      · next hd =>
          rcases List.mem_cons.mp h with rfl | h
          · simp [isRoomChar, hd]
          · exact ih _ h
      · split at h
        · exact ih _ h
        · rcases List.mem_cons.mp h with rfl | h
          · decide
          · exact ih _ h

theorem withoutDashes_sublist (l : List Char) : (withoutDashes l).Sublist l := by
  have h := (List.dropWhile_sublist (fun c => c == '-') (l := l.reverse)).reverse
  rw [List.reverse_reverse] at h
  exact h

theorem slugify_chars (rt : Runtime) (raw : String) :
    (∀ c ∈ (slugifyProjectName rt raw).toList, isRoomChar c = true) ∧
      (slugifyProjectName rt raw).toList.length ≤ 24 := by
  unfold slugifyProjectName
  dsimp only
  split
  · have hx : "x".toList = ['x'] := rfl
    rw [hx]
    constructor
    · intro c hc
      obtain rfl := List.mem_singleton.mp hc
      rfl
    · exact Nat.le_of_ble_eq_true rfl
  · rw [String.toList_ofList]
    constructor
    · intro c hc
      have htake := List.mem_of_mem_take ((withoutDashes_sublist _).subset hc)
      have htext := (List.dropWhile_sublist _).subset ((withoutDashes_sublist _).subset htake)
      exact mem_dashed _ _ htext
    · exact (withoutDashes_sublist _).length_le.trans (List.length_take_le _ _)

theorem isRoomChar_hex {c : Char} (h : (c.isDigit || ('a' ≤ c && c ≤ 'f')) = true) :
    isRoomChar c = true := by
  have hlower : ('a' ≤ c && c ≤ 'f') = true → c.isLower = true := by
    intro hc
    simp only [Bool.and_eq_true, decide_eq_true_eq] at hc
    delta Char.isLower
    rw [Bool.and_eq_true, decide_eq_true_eq, decide_eq_true_eq]
    exact ⟨hc.1, UInt32.le_trans hc.2 (by decide)⟩
  unfold isRoomChar isLowerOrDigit
  cases hd : c.isDigit with
  | true => simp
  | false =>
      rw [hd, Bool.false_or] at h
      simp [hlower h]

theorem isValidRoom_named {slug : String} {digest : List Char}
    (hslug : ∀ c ∈ slug.toList, isRoomChar c = true) (hlength : slug.toList.length ≤ 24)
    (hdigest : ∀ c ∈ digest, isRoomChar c = true) (hsix : digest.length ≤ 6) :
    isValidRoom (projectRoomPrefix ++ slug ++ "." ++ String.ofList digest) = true := by
  have hlist : projectRoomPrefix ++ slug ++ "." ++ String.ofList digest =
      String.ofList ('p' :: (['r', 'o', 'j', '.'] ++ slug.toList ++ '.' :: digest)) := by
    rw [← String.toList_inj]
    simp [String.toList_append, projectRoomPrefix]
  rw [hlist]
  refine isValidRoom_ofList (by decide) ?_ ?_
  · intro c hc
    rcases List.mem_append.mp hc with hc | hc
    · rcases List.mem_append.mp hc with hc | hc
      · exact List.all_eq_true.mp (by decide : ['r', 'o', 'j', '.'].all isRoomChar = true) c hc
      · exact hslug c hc
    · rcases List.mem_cons.mp hc with rfl | hc
      · decide
      · exact hdigest c hc
  · simp only [List.length_append, List.length_cons, List.length_nil]
    omega

/-- A derived room is valid: a slug of at most 24 characters, and six hexadecimal ones. -/
theorem isValidRoom_derived {rt : Runtime} (hhex : ∀ s, isSha256Hex (rt.sha256 s) = true)
    (realpath : String → Option String) (stateDir : String) :
    isValidRoom (deriveProjectRoom rt realpath stateDir) = true := by
  unfold deriveProjectRoom
  dsimp only
  refine isValidRoom_named (slugify_chars rt _).1 (slugify_chars rt _).2 ?_
    (List.length_take_le _ _)
  intro c hc
  have hall := (Bool.and_eq_true_iff.mp (hhex (projectRootOf (canonicalStateDir realpath stateDir)))).2
  exact isRoomChar_hex (List.all_eq_true.mp hall c (List.mem_of_mem_take hc))

/-! ### Capabilities -/

/-- One turn of the loop of `normalizeCaps`, and whether it was the last. -/
def capStep (rt : Runtime) (acc : List String × Bool) (raw : String) : List String × Bool :=
  if acc.2 then acc
  else
    let cap := rt.toLowerCase (trim raw)
    if strLength cap = 0 ∨ strLength cap > maxCapChars ∨ isCapName cap = false then acc
    else
      let out := if cap ∈ acc.1 then acc.1 else acc.1 ++ [cap]
      (out, decide (out.length ≥ maxCaps))

theorem capStep_eq {rt : Runtime} {out : List String} (hout : out.length < maxCaps) (raw : String) :
    capStep rt (out, false) raw =
      (addCap rt out raw, decide (maxCaps ≤ (addCap rt out raw).length)) := by
  unfold capStep addCap
  rw [if_neg Bool.false_ne_true]
  dsimp only
  split
  · simp [Nat.not_le.mpr hout]
  · rfl

omit [FloorNumber ν] in
/-- The items are read where those that are looked at are strings. -/
theorem capItems_iff {rt : Runtime} (items : List (Json ν)) : ∀ out, out.length < maxCaps →
    ((normalizeCapItems rt out items).isSome ↔
      ∃ (strs : List String) (rest : List (Json ν)), items = strs.map .str ++ rest ∧
        (rest = [] ∨ maxCaps ≤ (strs.foldl (capStep rt) (out, false)).1.length)) := by
  induction items with
  | nil =>
      intro out _
      exact ⟨fun _ => ⟨[], [], rfl, .inl rfl⟩, fun _ => rfl⟩
  | cons item items ih =>
      intro out hout
      -- nothing has been read of the items yet
      have hfirst : ∀ {strs : List String} {rest : List (Json ν)},
          item :: items = strs.map .str ++ rest →
          (rest = [] ∨ maxCaps ≤ (strs.foldl (capStep rt) (out, false)).1.length) →
          ∃ raw strs', strs = raw :: strs' ∧ item = .str raw ∧ items = strs'.map .str ++ rest := by
        intro strs rest heq hrest
        cases strs with
        | nil =>
            rcases hrest with rfl | hfull
            · cases heq
            · exact absurd hfull (Nat.not_le.mpr hout)
        | cons raw strs' =>
            rw [List.map_cons, List.cons_append, List.cons.injEq] at heq
            exact ⟨raw, strs', rfl, heq.1, heq.2⟩
      cases item with
      | str raw =>
          rw [normalizeCapItems]
          split
          · next hfull =>
              refine ⟨fun _ => ⟨[raw], items, rfl, .inr ?_⟩, fun _ => rfl⟩
              rw [List.foldl_cons, capStep_eq hout]
              exact hfull
          · next hmore =>
              have hnext : capStep rt (out, false) raw = (addCap rt out raw, false) := by
                rw [capStep_eq hout, decide_eq_false hmore]
              rw [ih _ (Nat.lt_of_not_le hmore)]
              constructor
              · rintro ⟨strs, rest, rfl, hrest⟩
                refine ⟨raw :: strs, rest, rfl, ?_⟩
                rw [List.foldl_cons, hnext]
                exact hrest
              · rintro ⟨strs, rest, heq, hrest⟩
                obtain ⟨raw', strs', rfl, hitem, hitems⟩ := hfirst heq hrest
                obtain rfl := Json.str.inj hitem
                rw [List.foldl_cons, hnext] at hrest
                exact ⟨strs', rest, hitems, hrest⟩
      | _ =>
          refine ⟨fun h => (by cases h), ?_⟩
          rintro ⟨strs, rest, heq, hrest⟩
          obtain ⟨raw, strs', -, hitem, -⟩ := hfirst heq hrest
          cases hitem

/-! ### Aliases -/

theorem dropWhile_of_none {α : Type} {p : α → Bool} {l : List α} (h : ∀ x ∈ l, p x = false) :
    l.dropWhile p = l := by
  cases l with
  | nil => rfl
  | cons x rest => rw [List.dropWhile_cons_of_neg (by simp [h x (List.mem_cons_self ..)])]

theorem trim_of_none {s : String} (h : ∀ c ∈ s.toList, isTrimmed c = false) : trim s = s := by
  have hreverse : ∀ c ∈ s.toList.reverse, isTrimmed c = false :=
    fun c hc => h c (List.mem_reverse.mp hc)
  unfold trim
  rw [dropWhile_of_none h, dropWhile_of_none hreverse, List.reverse_reverse, String.ofList_toList]

/-- The characters of a valid alias. -/
theorem alias_chars {name : String} (h : isValidAlias name = true) :
    ∀ c ∈ name.toList, isLowerOrDigit c = true ∨ c = '-' := by
  unfold isValidAlias at h
  split at h
  · cases h
  · next first rest hlist =>
      simp only [Bool.and_eq_true, List.all_eq_true, Bool.or_eq_true, beq_iff_eq] at h
      intro c hc
      rw [hlist] at hc
      rcases List.mem_cons.mp hc with rfl | hc
      · simp [isLowerOrDigit, h.1.1]
      · exact h.1.2 c hc

/-- A valid alias is normal. -/
theorem normalizeAlias_valid {rt : Runtime}
    (hlower : ∀ s, isValidAlias s = true → rt.toLowerCase s = s) {name : String}
    (h : isValidAlias name = true) : normalizeAlias rt name = name := by
  have hkept : ∀ c ∈ name.toList, isTrimmed c = false := by
    intro c hc
    rcases alias_chars h c hc with hc | rfl
    · exact isTrimmed_of_lowerOrDigit hc
    · decide
  have hat : ∀ c ∈ name.toList, (c == '@') = false := by
    intro c hc
    rcases alias_chars h c hc with hc | rfl
    · cases hat : c == '@' with
      | false => rfl
      | true =>
          rw [beq_iff_eq.mp hat] at hc
          exact absurd hc (by decide)
    · decide
  unfold normalizeAlias
  rw [trim_of_none hkept, dropWhile_of_none hat, String.ofList_toList, hlower name h]

theorem hexDigit_lowerOrDigit : ∀ n < 16, isLowerOrDigit (Json.hexDigit n) = true := by decide

/-- A random alias is valid. -/
theorem isValidAlias_default (random : Fin 256 × Fin 256 × Fin 256) :
    isValidAlias (defaultAlias random) = true := by
  have hhex : ∀ b : Fin 256, ∀ c ∈ [Json.hexDigit (b / 16), Json.hexDigit (b % 16)],
      isLowerOrDigit c = true := by
    intro b c hc
    simp only [List.mem_cons, List.not_mem_nil, or_false] at hc
    obtain rfl | rfl := hc
    · exact hexDigit_lowerOrDigit _ (by omega)
    · exact hexDigit_lowerOrDigit _ (by omega)
  have hprefix : "agent-".toList = 'a' :: ['g', 'e', 'n', 't', '-'] := by decide
  unfold defaultAlias isValidAlias
  rw [String.toList_ofList, hprefix, List.append_assoc, List.append_assoc, List.cons_append]
  dsimp only
  rw [Bool.and_eq_true, Bool.and_eq_true]
  refine ⟨⟨by decide, ?_⟩, by simp⟩
  rw [List.all_eq_true]
  intro c hc
  rw [Bool.or_eq_true]
  rcases List.mem_append.mp hc with hc | hc
  · rw [← Bool.or_eq_true]
    exact List.all_eq_true.mp
      (by decide : ['g', 'e', 'n', 't', '-'].all (fun c => isLowerOrDigit c || c == '-') = true) c hc
  · refine .inl ?_
    rcases List.mem_append.mp hc with hc | hc
    · exact hhex _ c hc
    · rcases List.mem_append.mp hc with hc | hc
      · exact hhex _ c hc
      · exact hhex _ c hc

/-! ### The start -/

/-- The project room of a start is valid. -/
theorem Loaded.project_valid {rt : Runtime} {file : Members ν} {env : ProcessEnv ν}
    {cfg : LoadedConfig} (h : Loaded rt file env cfg)
    (hhex : ∀ s, isSha256Hex (rt.sha256 s) = true) (realpath : String → Option String)
    (stateDir : String) (persisted : Option PersistedIdentity) :
    isValidRoom ((cfg.scopeArgs stateDir persisted).project rt realpath) = true := by
  show isValidRoom (cfg.projectRoomName.getD _) = true
  cases hname : cfg.projectRoomName with
  | none => exact isValidRoom_derived hhex realpath stateDir
  | some name =>
      rw [h.project] at hname
      unfold projectRoomSet at hname
      cases hvar : ((env.text "MESH_PROJECT_ROOM").bind fun raw =>
          normalizeProjectRoomName rt (some (rt.toLowerCase (trim raw)))) with
      | none =>
          rw [hvar] at hname
          exact (Option.filter_eq_some_iff.mp hname).2
      | some set =>
          rw [hvar] at hname
          obtain rfl := Option.some.inj hname
          obtain ⟨raw, -, hset⟩ := Option.bind_eq_some_iff.mp hvar
          exact (Option.filter_eq_some_iff.mp hset).2

theorem Loaded.name_iff {host : SessionHost} {file : Members ν} {env : ProcessEnv ν}
    {cfg : LoadedConfig} {persisted : Option PersistedIdentity} (h : Loaded host.rt file env cfg)
    (hlower : ∀ s, isValidAlias s = true → host.rt.toLowerCase s = s) :
    isValidAlias (sessionClient (ν := ν) host cfg persisted).conn.name = true ↔
      ∀ name, PiMesh.askedAlias file env persisted = some name →
        isValidAlias (normalizeAlias host.rt name) = true := by
  show isValidAlias (normalizeAlias host.rt
    ((chooseInitialIdentity cfg.identity persisted).name.getD _)) = true ↔ _
  rw [h.askedAlias]
  have hdefault := isValidAlias_default host.random
  cases PiMesh.askedAlias file env persisted with
  | none =>
      rw [Option.getD_none, normalizeAlias_valid hlower hdefault]
      simp [hdefault]
  | some name => simp

/-! ### The size of the hello -/

theorem bytes_str (s : String) : Json.bytes (.str s : Json ν) = stringBytes s := rfl

theorem memberBytes_eq (k : String) (v : Json ν) :
    Json.memberBytes (k, v) = stringBytes k + Json.bytes v + 2 := rfl

theorem bytes_jsonStrs (l : List String) :
    Json.bytes (jsonStrs l : Json ν) = arrayBytes (l.map stringBytes) := by
  unfold jsonStrs arrayBytes
  rw [Json.bytes_arr, Json.itemsBytes, List.map_map, List.map_map]
  rfl

omit [FloorNumber ν] in
theorem nesting_items_of_le {n : Nat} (l : List (Json ν)) (h : ∀ v ∈ l, Json.nesting v ≤ n) :
    Json.nestingItems l ≤ n := by
  induction l with
  | nil => exact Nat.zero_le n
  | cons v rest ih =>
      rw [Json.nestingItems]
      exact Nat.max_le.mpr ⟨h v (by simp), ih fun w hw => h w (by simp [hw])⟩

omit [FloorNumber ν] in
theorem nesting_jsonStrs (l : List String) : Json.nesting (jsonStrs l : Json ν) ≤ 1 := by
  unfold jsonStrs
  rw [Json.nesting]
  have h : Json.nestingItems (l.map Json.str : List (Json ν)) ≤ 0 := by
    refine nesting_items_of_le _ fun v hv => ?_
    obtain ⟨s, -, rfl⟩ := List.mem_map.mp hv
    exact Nat.le_refl 0
  omega

omit [FloorNumber ν] in
theorem nesting_reservations (l : List FileReservation) :
    Json.nesting (.arr (l.map FileReservation.json) : Json ν) ≤ 2 := by
  rw [Json.nesting]
  have h : Json.nestingItems (l.map FileReservation.json : List (Json ν)) ≤ 1 := by
    refine nesting_items_of_le _ fun v hv => ?_
    obtain ⟨⟨pattern, reason, since⟩, -, rfl⟩ := List.mem_map.mp hv
    cases reason <;> cases since <;>
      simp [FileReservation.json, Json.nesting, Json.nestingMembers]
  omega

/-- No room is observed at first. -/
theorem not_observed (rooms : List String) (room : String) :
    (rooms.foldl (fun m room => m.set room MeshRole.member) (.empty : Map String MeshRole)).get? room
      ≠ some .observer := by
  have hfold : ∀ (l : List String) (m : Map String MeshRole), m.get? room ≠ some .observer →
      (l.foldl (fun m room => m.set room MeshRole.member) m).get? room ≠ some .observer := by
    intro l
    induction l with
    | nil => exact fun m h => h
    | cons r rest ih =>
        intro m h
        refine ih _ ?_
        rw [Map.get?_set]
        split
        · simp
        · exact h
  exact hfold rooms _ (by simp)

section Hello

variable (host : SessionHost) (cfg : LoadedConfig) (persisted : Option PersistedIdentity)
  (freshAlias : Nat → String)

/-- The members of the first hello. -/
theorem hello_members : ((helloFrame (sessionEnv host cfg persisted freshAlias) host.now
      (sessionClient (ν := ν) host cfg persisted)).members host.rt : Members ν) =
    [("v", jsonNat 1), ("type", .str "hello"), ("id", .str (host.rt.makeMsgId 0)),
      ("ts", .str (host.rt.toISOString host.now)),
      ("from", .str (sessionClient (ν := ν) host cfg persisted).conn.name),
      ("rooms", jsonStrs (sessionClient (ν := ν) host cfg persisted).joinedRooms.elems)] ++
    (if ((persisted.map fun id => id.reservations).getD []) = [] then []
      else [("reservations", .arr (((persisted.map fun id => id.reservations).getD []).map
        FileReservation.json))]) ++
    ((cfg.brokerToken.map fun t => ("token", .str (host.rt.sha256 t))).toList) ++
    [("clientVersion", .str host.clientVersion), ("caps", jsonStrs cfg.caps),
      ("proto", .num (Number.ofInteger protoVersion))] := by
  have hobserved : ((sessionClient (ν := ν) host cfg persisted).joinedRooms.elems.filter fun room =>
      (sessionClient (ν := ν) host cfg persisted).roomRoles.get? room = some .observer) = [] := by
    rw [List.filter_eq_nil_iff]
    intro room _
    exact decide_eq_false (not_observed _ room) ▸ Bool.false_ne_true
  have hown : (sessionClient (ν := ν) host cfg persisted).ownReservations =
      (persisted.map fun id => id.reservations).getD [] := rfl
  unfold helloFrame ClientFrame.members
  dsimp only
  rw [hobserved, hown]
  cases htoken : cfg.brokerToken <;> cases (persisted.map fun id => id.reservations).getD [] <;>
    simp [sessionEnv, htoken, sessionClient, MeshFrameType.text, ClientState.init]

theorem hello_nesting : Json.nesting (.obj ((helloFrame (sessionEnv host cfg persisted freshAlias)
    host.now (sessionClient (ν := ν) host cfg persisted)).members host.rt : Members ν)) ≤
      (Number.limits ν).stringifyNesting := by
  refine Nat.le_trans ?_ (Number.limits ν).shallow
  have hrooms := nesting_jsonStrs (ν := ν)
    (sessionClient (ν := ν) host cfg persisted).joinedRooms.elems
  have hcaps := nesting_jsonStrs (ν := ν) cfg.caps
  have hown := nesting_reservations (ν := ν) ((persisted.map fun id => id.reservations).getD [])
  rw [Json.nesting] at hown
  rw [hello_members, Json.nesting]
  cases cfg.brokerToken <;> split <;>
    simp only [jsonNat, Option.map_none, Option.map_some, Option.toList, List.cons_append,
      List.nil_append, List.append_nil, Json.nestingMembers, Json.nesting] <;>
    omega

theorem bytes_reservations (l : List FileReservation) :
    Json.bytes (.arr (l.map FileReservation.json) : Json ν) =
      arrayBytes (l.map fun r => Json.bytes (r.json : Json ν)) := by
  unfold arrayBytes
  rw [Json.bytes_arr, Json.itemsBytes, List.map_map, List.map_map]
  rfl

/-- The first hello can be sent exactly if it has a place in a frame. -/
theorem hello_encodes_iff (max : Nat) :
    (helloFrame (sessionEnv host cfg persisted freshAlias) host.now
        (sessionClient (ν := ν) host cfg persisted)).encodes ν host.rt max = true ↔
      helloBytes ν host (sessionClient (ν := ν) host cfg persisted).conn.name
        (sessionClient (ν := ν) host cfg persisted).joinedRooms.elems cfg.caps
        ((persisted.map fun id => id.reservations).getD []) cfg.brokerToken ≤ max := by
  have hnesting := hello_nesting (ν := ν) host cfg persisted freshAlias
  have hmembers := hello_members (ν := ν) host cfg persisted freshAlias
  generalize (helloFrame (sessionEnv host cfg persisted freshAlias) host.now
    (sessionClient (ν := ν) host cfg persisted)) = hello at hmembers hnesting ⊢
  have hbytes : byteLength (encodeLine (hello.members host.rt : Members ν)) =
      helloBytes ν host (sessionClient (ν := ν) host cfg persisted).conn.name
        (sessionClient (ν := ν) host cfg persisted).joinedRooms.elems cfg.caps
        ((persisted.map fun id => id.reservations).getD []) cfg.brokerToken := by
    have hne : (hello.members host.rt : Members ν) ≠ [] := by simp [ClientFrame.members]
    unfold encodeLine
    rw [Json.byteLength_append]
    show Json.bytes _ + 1 = _
    rw [Json.bytes_obj hne, hmembers]
    have hkeys : ["v", "type", "id", "ts", "from", "rooms", "reservations", "token",
        "clientVersion", "caps", "proto"].map stringBytes = [3, 6, 4, 4, 6, 7, 14, 7, 15, 6, 7] := by
      decide
    simp only [List.map_cons, List.map_nil, List.cons.injEq, and_true] at hkeys
    have htype : stringBytes "hello" = 7 := by decide
    unfold helloBytes Json.membersBytes
    cases cfg.brokerToken <;> split <;>
      simp only [memberBytes_eq, bytes_str, bytes_jsonStrs, bytes_reservations, hkeys, htype,
        numberBytes, jsonNat, Nat.cast_one, Option.map_none, Option.map_some, Option.getD_none,
        Option.getD_some, Option.toList, List.cons_append, List.nil_append, List.append_nil,
        List.map_cons, List.map_nil, List.sum_cons, List.sum_nil] <;>
      omega
  unfold ClientFrame.encodes encodeFrame
  rw [if_neg (Nat.not_lt.mpr hnesting), hbytes]
  split
  · next h => simpa using h
  · next h => simpa using h

end Hello

theorem arrayBytes_perm {l l' : List Nat} (h : l.Perm l') : arrayBytes l = arrayBytes l' := by
  unfold arrayBytes
  rw [(h.map (· + 1)).sum_nat]

/-- The first hello can be sent exactly if what is set has a place in a frame. -/
theorem Loaded.size_iff {host : SessionHost} {file : Members ν} {env : ProcessEnv ν}
    {cfg : LoadedConfig} {persisted : Option PersistedIdentity} (h : Loaded host.rt file env cfg)
    (hcap : 1 ≤ cfg.maxRoomsPerPeer) (freshAlias : Nat → String) :
    (helloFrame (sessionEnv host cfg persisted freshAlias) host.now
        (sessionClient (ν := ν) host cfg persisted)).encodes ν host.rt cfg.maxFrameBytes.toNat
        = true ↔
      askedBytes host file env persisted ≤ (frameBytesSet file env).toNat := by
  have hname : (sessionClient (ν := ν) host cfg persisted).conn.name = normalizeAlias host.rt
      ((PiMesh.askedAlias file env persisted).getD (defaultAlias host.random)) := by
    rw [← h.askedAlias]
    rfl
  -- the rooms of the client are those that are kept, each once
  have hperm : (sessionClient (ν := ν) host cfg persisted).joinedRooms.elems.Perm
      (((askedArgs file env host persisted).kept ((projectRoomSet file env host.rt).getD
        (deriveProjectRoom host.rt host.realpath host.stateDir))).dedup) := by
    refine (List.perm_ext_iff_of_nodup (Set.ofList _).nodup (List.nodup_dedup _)).mpr fun room => ?_
    have hargs : 1 ≤ (askedArgs file env host persisted).cap := by
      rw [← h.scopeArgs]
      show 1 ≤ cfg.maxRoomsPerPeer.toNat
      omega
    rw [Set.mem_ofList, List.mem_dedup, h.scopeArgs]
    exact mem_scope_rooms rfl hargs
  rw [hello_encodes_iff, hname, h.caps, h.token, h.bytes]
  unfold askedBytes helloBytes
  rw [arrayBytes_perm (hperm.map stringBytes)]

/-- The hello of a start, where the cap holds a room. -/
theorem Loaded.helloFits_iff {host : SessionHost} {file : Members ν} {env : ProcessEnv ν}
    {cfg : LoadedConfig} {persisted : Option PersistedIdentity} (h : Loaded host.rt file env cfg)
    (hcap : 1 ≤ cfg.maxRoomsPerPeer) (hhex : ∀ s, isSha256Hex (host.rt.sha256 s) = true)
    (hlower : ∀ s, isValidAlias s = true → host.rt.toLowerCase s = s) (freshAlias : Nat → String) :
    HelloFits ν host.rt cfg (helloFrame (sessionEnv host cfg persisted freshAlias) host.now
        (sessionClient (ν := ν) host cfg persisted)) ↔
      askedBytes host file env persisted ≤ (frameBytesSet file env).toNat ∧
      (∀ name, PiMesh.askedAlias file env persisted = some name →
        isValidAlias (normalizeAlias host.rt name) = true) ∧
      RoomsFit (roomModeSet file env host.rt) (PiMesh.roomsPinned file env)
        ((projectRoomSet file env host.rt).getD
          (deriveProjectRoom host.rt host.realpath host.stateDir))
        (positiveInt (getOf file "maxRoomsPerPeer") 16).toNat
        (PiMesh.askedRooms file env persisted) := by
  have hargs : 1 ≤ (cfg.scopeArgs host.stateDir persisted).cap := by
    show 1 ≤ cfg.maxRoomsPerPeer.toNat
    omega
  have hmode : (cfg.scopeArgs host.stateDir persisted).roomMode = some cfg.roomMode := rfl
  have hscope := scope_fits_iff hmode
    (h.project_valid hhex host.realpath host.stateDir persisted) hargs
  rw [h.askedRooms] at hscope
  -- the client's rooms are those of the scope, each once
  have hrooms : (∀ room ∈ (resolveRoomScope host.rt host.realpath
      (cfg.scopeArgs host.stateDir persisted)).rooms, isValidRoom room = true) ↔
      ∀ room ∈ (sessionClient (ν := ν) host cfg persisted).joinedRooms.elems,
        isValidRoom room = true :=
    forall_congr' fun room => imp_congr_left (Set.mem_ofList _ room).symm
  have hproject : (cfg.scopeArgs host.stateDir persisted).project host.rt host.realpath =
      (projectRoomSet file env host.rt).getD
        (deriveProjectRoom host.rt host.realpath host.stateDir) := by
    rw [← h.project]
    rfl
  have hcapeq : (cfg.scopeArgs host.stateDir persisted).cap =
      (positiveInt (getOf file "maxRoomsPerPeer") 16).toNat := by
    rw [← h.cap]
    rfl
  have hpinned : (cfg.scopeArgs host.stateDir persisted).pinned = PiMesh.roomsPinned file env :=
    h.pinned
  rw [hrooms, hproject, hpinned, h.mode] at hscope
  rw [← h.size_iff hcap freshAlias, ← h.name_iff hlower, ← hcapeq, ← hscope]
  constructor
  · intro hfits
    refine ⟨hfits.sent, hfits.name, hfits.rooms, ?_⟩
    have hcount : ((sessionClient (ν := ν) host cfg persisted).joinedRooms.elems.length : Int) ≤
        cfg.maxRoomsPerPeer := hfits.count
    show (sessionClient (ν := ν) host cfg persisted).joinedRooms.elems.length ≤
      cfg.maxRoomsPerPeer.toNat
    omega
  · rintro ⟨hsent, hname, hvalid, hsize⟩
    have hcount : (sessionClient (ν := ν) host cfg persisted).joinedRooms.elems.length ≤
        cfg.maxRoomsPerPeer.toNat := hsize
    refine ⟨hsent, hname, hvalid, ?_⟩
    show ((sessionClient (ν := ν) host cfg persisted).joinedRooms.elems.length : Int) ≤ _
    omega

/-- **A configuration is usable exactly if no limit is a fraction below one, its alias is valid,
its rooms fit, its capabilities can be read, and all of it has a place in one frame.** -/
theorem config_usable_iff (host : SessionHost)
    (hhex : ∀ s, isSha256Hex (host.rt.sha256 s) = true)
    (hlower : ∀ s, isValidAlias s = true → host.rt.toLowerCase s = s)
    (text : Option (List Char)) (env : ProcessEnv ν) (persisted : Option PersistedIdentity) :
    ConfigUsable host text env persisted ↔ ConfigFits host (fileConfig text) env persisted := by
  have hcaps : (normalizeCapItems host.rt []
      (itemsOf (getOf (fileConfig (ν := ν) text) "caps"))).isSome ↔ _ :=
    capItems_iff _ [] (by decide)
  constructor
  · rintro ⟨cfg, hload, hlimits, -, hhello⟩
    have hloaded := loaded_of hload
    have hcap := hlimits cfg.maxRoomsPerPeer (by simp [LoadedConfig.limits])
    obtain ⟨hsize, hname, hrooms⟩ :=
      (hloaded.helloFits_iff hcap hhex hlower fun _ => "").mp (hhello fun _ => "")
    refine ⟨hcaps.mp ?_, hloaded.limits_iff.mp hlimits, hname, hrooms, hsize⟩
    -- it loads, so the capabilities were read
    obtain ⟨base, hbase, -⟩ := Option.map_eq_some_iff.mp hload
    obtain ⟨caps, hread, -⟩ := Option.map_eq_some_iff.mp hbase
    exact Option.isSome_of_eq_some hread
  · intro h
    obtain ⟨caps, hread⟩ := Option.isSome_iff_exists.mp (hcaps.mpr h.caps)
    obtain ⟨cfg, hload⟩ : ∃ cfg, loadConfig host.rt text env = some cfg := by
      unfold loadConfig ofFile
      dsimp only
      rw [hread]
      exact ⟨_, rfl⟩
    have hloaded := loaded_of hload
    have hlimits := hloaded.limits_iff.mpr h.limits
    have hcap := hlimits cfg.maxRoomsPerPeer (by simp [LoadedConfig.limits])
    refine ⟨cfg, hload, hlimits, hloaded.optOuts, fun freshAlias => ?_⟩
    exact (hloaded.helloFits_iff hcap hhex hlower freshAlias).mpr ⟨h.size, h.name, h.rooms⟩

/-! ### Two files -/

/-- The integers and one half. -/
inductive HalfNumber where
  | int (n : Int)
  | half
deriving DecidableEq

def HalfNumber.toText : HalfNumber → List Char
  | int n => Number.toText n
  | half => ['0', '.', '5']

def HalfNumber.ofLiteral (l : List Char) : HalfNumber :=
  if l = ['0', '.', '5'] then half else int (Number.ofLiteral l)

theorem HalfNumber.toText_ne_half (n : Int) : Number.toText n ≠ ['0', '.', '5'] := by
  intro h
  have hread := Number.ofLiteral_toText n rfl
  rw [h] at hread
  rw [← hread] at h
  exact absurd h (by decide)

instance : FloorNumber HalfNumber where
  isFinite _ := true
  toInteger?
    | .int n => some n
    | .half => none
  ofInteger := .int
  ofLiteral := HalfNumber.ofLiteral
  toText := HalfNumber.toText
  isFinite_of_integer _ _ _ := rfl
  toText_literal x _ := by
    cases x with
    | int n => exact Number.toText_literal n rfl
    | half => decide
  ofLiteral_toText x _ := by
    cases x with
    | int n =>
        rw [HalfNumber.toText, HalfNumber.ofLiteral, if_neg (HalfNumber.toText_ne_half n)]
        exact congrArg HalfNumber.int (Number.ofLiteral_toText n rfl)
    | half => rfl
  limits := Number.limits Int
  floor
    | .int n => n
    | .half => 0

theorem fileConfig_stringify {members : Members ν} (hwf : Json.WellFormed (.obj members)) :
    fileConfig (some (Json.stringify (.obj members))) = Json.wireMembers members := by
  unfold fileConfig
  rw [Option.bind_some, Json.parse_stringify _ hwf]
  rfl

theorem toLower_of_valid {name : String} (h : isValidAlias name = true) :
    name.toList.map Char.toLower = name.toList := by
  refine (List.map_congr_left ?_).trans (List.map_id _)
  intro c hc
  have hnot : ¬ c.isUpper = true := by
    rcases alias_chars h c hc with hc | rfl
    · intro hupper
      unfold isLowerOrDigit at hc
      delta Char.isLower Char.isDigit at hc
      delta Char.isUpper at hupper
      simp only [Bool.or_eq_true, Bool.and_eq_true, decide_eq_true_eq, UInt32.le_iff_toNat_le]
        at hc hupper
      simp at hc hupper
      omega
    · decide
  delta Char.isUpper at hnot
  rw [decide_eq_true_eq] at hnot
  unfold Char.toLower
  rw [dif_neg hnot]
  rfl

theorem referenceRuntime_lower (s : String) (h : isValidAlias s = true) :
    referenceRuntime.toLowerCase s = s := by
  show String.ofList (s.toList.map Char.toLower) = s
  rw [toLower_of_valid h, String.ofList_toList]

def referenceHost : SessionHost where
  rt := referenceRuntime
  realpath _ := none
  stateDir := "/home/dev/app/.mesh"
  random := (0, 1, 2)
  clientVersion := ""
  now := 0

theorem referenceHost_hex (s : String) : isSha256Hex (referenceHost.rt.sha256 s) = true := by
  have hhex : isSha256Hex (referenceRuntime.sha256 "") = true := by decide +kernel
  exact hhex

/-- An environment without `MESH_*` variables. -/
def plainEnv : ProcessEnv HalfNumber := { get := fun _ => none, number := fun _ => .int 0 }

def plainMembers : Members HalfNumber :=
  [("alias", .str "@Bob"), ("rooms", .arr [.str "ops"]), ("caps", .arr [.str "gpu"]),
    ("maxRoomsPerPeer", .num (.int 2))]

theorem config_usable_plain :
    ConfigUsable referenceHost (some (Json.stringify (.obj plainMembers))) plainEnv none := by
  have hwf : Json.WellFormed (.obj plainMembers) := by
    simp [plainMembers, Json.WellFormed, Json.WellFormedMembers, Json.WellFormedItems]
  refine (config_usable_iff referenceHost referenceHost_hex referenceRuntime_lower _ plainEnv
    none).mpr ?_
  rw [fileConfig_stringify hwf]
  have hlimits : ∀ s ∈ limitSettings, (s.inForce (Json.wireMembers plainMembers) plainEnv).all
      (fun v => decide (1 ≤ FloorNumber.floor v)) = true := by decide +kernel
  refine ⟨⟨["gpu"], [], rfl, .inl rfl⟩, ?_, ?_, ?_, ?_⟩
  · intro s hs v hv
    have hfloor := hlimits s hs
    rw [hv] at hfloor
    exact of_decide_eq_true hfloor
  · intro name hname
    obtain rfl : "@Bob" = name := Option.some.inj hname
    decide +kernel
  · rw [RoomsFit, if_neg (by decide +kernel)]
    decide +kernel
  · decide +kernel

/-- A file with these members does not let a session start. -/
def Wedges (members : Members HalfNumber) : Prop :=
  ¬ ConfigUsable referenceHost (some (Json.stringify (.obj members))) plainEnv none

/-- A configuration that is usable is loaded from its file. -/
theorem Loaded.of_usable {members : Members HalfNumber} (hwf : Json.WellFormed (.obj members))
    (h : ConfigUsable referenceHost (some (Json.stringify (.obj members))) plainEnv none) :
    ∃ cfg, Loaded referenceRuntime (Json.wireMembers members) plainEnv cfg ∧
      1 ≤ cfg.maxRoomsPerPeer ∧ HelloFits HalfNumber referenceRuntime cfg
        (helloFrame (sessionEnv referenceHost cfg none fun _ => "") 0
          (sessionClient (ν := HalfNumber) referenceHost cfg none)) := by
  obtain ⟨cfg, hload, hlimits, -, hhello⟩ := h
  have hloaded := loaded_of hload
  rw [fileConfig_stringify hwf] at hloaded
  exact ⟨cfg, hloaded, hlimits _ (by simp [LoadedConfig.limits]), hhello fun _ => ""⟩

theorem wedges_limit : Wedges [("maxRoomsPerPeer", .num .half)] := by
  intro husable
  obtain ⟨cfg, hloaded, hcap, -⟩ :=
    Loaded.of_usable (by simp [Json.WellFormed, Json.WellFormedMembers]) husable
  rw [hloaded.cap] at hcap
  exact absurd hcap (by decide +kernel)

theorem wedges_alias : Wedges [("alias", .str "bob smith")] := by
  intro husable
  obtain ⟨cfg, hloaded, -, hhello⟩ :=
    Loaded.of_usable (by simp [Json.WellFormed, Json.WellFormedMembers]) husable
  have hname : isValidAlias (sessionClient (ν := HalfNumber) referenceHost cfg none).conn.name = true :=
    hhello.name
  rw [hloaded.name_iff referenceRuntime_lower] at hname
  have hname := hname "bob smith" rfl
  exact absurd hname (by decide +kernel)

theorem wedges_rooms {members : Members HalfNumber} (hwf : Json.WellFormed (.obj members))
    (hrooms : ¬ RoomsFit (roomModeSet (Json.wireMembers members) plainEnv referenceRuntime)
      (roomsPinned (Json.wireMembers members) plainEnv)
      ((projectRoomSet (Json.wireMembers members) plainEnv referenceRuntime).getD
        (deriveProjectRoom referenceRuntime referenceHost.realpath referenceHost.stateDir))
      (positiveInt (getOf (Json.wireMembers members) "maxRoomsPerPeer") 16).toNat
      (askedRooms (Json.wireMembers members) plainEnv none)) :
    Wedges members := by
  intro husable
  obtain ⟨cfg, hloaded, hcap, hhello⟩ := Loaded.of_usable hwf husable
  have hhello : HelloFits HalfNumber referenceHost.rt cfg
      (helloFrame (sessionEnv referenceHost cfg none fun _ => "") referenceHost.now (sessionClient (ν := HalfNumber) referenceHost cfg none)) := hhello
  rw [hloaded.helloFits_iff hcap referenceHost_hex referenceRuntime_lower] at hhello
  exact hrooms hhello.2.2

theorem wedges_caps : Wedges [("caps", .arr [.num (.int 1)])] := by
  rintro ⟨cfg, hload, -⟩
  unfold loadConfig at hload
  rw [fileConfig_stringify (by
    simp [Json.WellFormed, Json.WellFormedMembers, Json.WellFormedItems])] at hload
  cases hload

/-- Each of these files wedges a session: a limit below one, an alias with a blank, a capability
that is no string, a pinned room with a blank, and more rooms than the cap in the default mode. -/
theorem config_wedges :
    Wedges [("maxRoomsPerPeer", .num .half)] ∧
    Wedges [("alias", .str "bob smith")] ∧
    Wedges [("caps", .arr [.num (.int 1)])] ∧
    Wedges [("rooms", .arr [.str "ops "]), ("roomsPinned", .bool true)] ∧
    Wedges [("rooms", .arr [.str "ops", .str "dev"]), ("roomMode", .str "default"),
      ("maxRoomsPerPeer", .num (.int 1))] := by
  refine ⟨wedges_limit, wedges_alias, wedges_caps, wedges_rooms ?_ ?_, wedges_rooms ?_ ?_⟩
  · simp [Json.WellFormed, Json.WellFormedMembers, Json.WellFormedItems]
  · rw [RoomsFit, if_pos (by decide +kernel)]
    decide +kernel
  · simp [Json.WellFormed, Json.WellFormedMembers, Json.WellFormedItems]
  · rw [RoomsFit, if_pos (by decide +kernel)]
    decide +kernel

end PiMesh
