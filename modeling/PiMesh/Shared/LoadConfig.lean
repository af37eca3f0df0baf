/-
The configuration of a session, and the hello it leads to.

`loadConfig` takes the defaults, what `config.json` says and then the `MESH_*` variables, each
field by a rule of its own: numbers are rounded down, names of modes fall back, capabilities are
filtered, and aliases and rooms are taken as they are.  `session_start` chooses an alias and the
rooms from it and from the identity on disk, and the client says hello with them.

`config.json` holds any JSON or none at all.  One rule can throw: `normalizeCaps` trims the items
of `caps` without asking whether they are strings, outside of the `try` around the file.
-/
import PiMesh.Broker.PolicyFile
import PiMesh.Shared.ProjectRoom
import PiMesh.Client.Events
import PiMesh.Extension.Buffers

namespace PiMesh

open Js

def hardMinFrameBytes : Int := 1024
def hardMaxFrameBytes : Int := 1048576
def maxCtlAllowFrom : Nat := 32

variable {ν : Type} [FloorNumber ν]

/-- `process.env`, and what `Number` makes of its texts. -/
structure ProcessEnv (ν : Type) where
  get : String → Option String
  number : String → ν

/-- `raw !== undefined && raw.trim() !== ""`. -/
def ProcessEnv.text (env : ProcessEnv ν) (key : String) : Option String :=
  (env.get key).filter isNamed

/-- `env[key] === "1" || env[key] === "true"`. -/
def ProcessEnv.isOn (env : ProcessEnv ν) (key : String) : Bool :=
  env.get key = some "1" || env.get key = some "true"

/-- `env[key] === "0" || env[key] === "false"`. -/
def ProcessEnv.isOff (env : ProcessEnv ν) (key : String) : Bool :=
  env.get key = some "0" || env.get key = some "false"

/-! ### Numbers -/

/-- `Number.isFinite(v) && v > 0`. -/
def isPositive (v : ν) : Bool :=
  Number.isFinite v && decide (0 ≤ FloorNumber.floor v) && decide (Number.toInteger? v ≠ some 0)

/-- `positiveInt`. -/
def positiveInt (value : Option (Json ν)) (fallback : Int) : Int :=
  match value with
  | some (.num v) => if isPositive v then FloorNumber.floor v else fallback
  | _ => fallback

/-- `envInt`. -/
def envInt (env : ProcessEnv ν) (key : String) : Option Int :=
  match env.text key with
  | none => none
  | some raw => if isPositive (env.number raw) then some (FloorNumber.floor (env.number raw)) else none

/-- `clampFrameBytes` of a number that is finite. -/
def clampFrameBytes (n : Int) : Int := min hardMaxFrameBytes (max hardMinFrameBytes n)

/-- `value === 0`. -/
def isZero (value : Option (Json ν)) : Bool :=
  match value with
  | some (.num v) => Number.toInteger? v = some 0
  | _ => false

/-! ### Names -/

def RoomMode.ofText? : String → Option RoomMode
  | "default" => some .default
  | "project" => some .project
  | "both" => some .both
  | _ => none

/-- `normalizeRoomMode`. -/
def normalizeRoomMode (rt : Runtime) (raw : Option String) : RoomMode :=
  (raw.bind fun s => RoomMode.ofText? (rt.toLowerCase (trim s))).getD .both

/-- `normalizeProjectRoomName`. -/
def normalizeProjectRoomName (rt : Runtime) (raw : Option String) : Option String :=
  (raw.map fun s => rt.toLowerCase (trim s)).filter isValidRoom

/-- One turn of the loop of `normalizeCaps`. -/
def addCap (rt : Runtime) (out : List String) (raw : String) : List String :=
  let cap := rt.toLowerCase (trim raw)
  if strLength cap = 0 ∨ strLength cap > maxCapChars ∨ isCapName cap = false then out
  else if cap ∈ out then out else out ++ [cap]

/-- `normalizeCaps` of the items of an array; nothing where it throws. -/
def normalizeCapItems (rt : Runtime) : List String → List (Json ν) → Option (List String)
  | out, [] => some out
  | out, .str raw :: rest =>
      let next := addCap rt out raw
      if maxCaps ≤ next.length then some next else normalizeCapItems rt next rest
  -- `raw.trim` is no function
  | _, _ :: _ => none

/-- `normalizeCtlAllowFrom`. -/
def normalizeCtlAllowFrom (rt : Runtime) (items : List (Json ν)) : List String :=
  let step (out : List String) (raw : Json ν) : List String :=
    if maxCtlAllowFrom ≤ out.length then out
    else
      match raw with
      | .str s =>
          let name := String.ofList ((rt.toLowerCase (trim s)).toList.dropWhile fun c => c == '@')
          if isValidAlias name ∧ name ∉ out then out ++ [name] else out
      | _ => out
  items.foldl step []

/-! ### Endpoints -/

inductive MeshEndpoint where
  | unix (path : String)
  | tcp (host : String) (port : Nat)
  | tls (host : String) (port : Nat)
deriving DecidableEq

/-- What `.` does not match. -/
def isLineTerminator (c : Char) : Bool :=
  c.toNat == 10 || c.toNat == 13 || c.toNat == 0x2028 || c.toNat == 0x2029

def isHexOrColon (c : Char) : Bool :=
  c.isDigit || ('a' ≤ c && c ≤ 'f') || ('A' ≤ c && c ≤ 'F') || c == ':'

/-- `\[[0-9a-fA-F:]+\]|[^:]+`. -/
def isHost (host : List Char) : Bool :=
  (!host.isEmpty && host.all (· != ':')) ||
    match host with
    | '[' :: rest =>
        rest.getLast? = some ']' && !rest.dropLast.isEmpty && rest.dropLast.all isHexOrColon
    | _ => false

/-- `host.replace(/^\[|\]$/g, "")`. -/
def withoutBrackets (host : List Char) : List Char :=
  let rest := match host with
    | '[' :: rest => rest
    | _ => host
  if rest.getLast? = some ']' then rest.dropLast else rest

/-- A host and a port; the port is what follows the last colon. -/
def parseHostPort (rest : List Char) : Option (String × Nat) :=
  match rest.reverse.dropWhile (· != ':') with
  | [] => none
  | _ :: host =>
      let digits := (rest.reverse.takeWhile (· != ':')).reverse
      let port := Nat.ofDigitChars 10 digits 0
      if isHost host.reverse && isDigits digits && digits.length ≤ 5 && 0 < port && port ≤ 65535 then
        some (String.ofList (withoutBrackets host.reverse), port)
      else none

/-- `parseEndpoint`. -/
def parseEndpoint (url : String) : Option MeshEndpoint :=
  let after (scheme : String) : Option (List Char) :=
    if startsWithString (trim url) scheme then
      let rest := (trim url).toList.drop scheme.toList.length
      if !rest.isEmpty && rest.all (fun c => !isLineTerminator c) then some rest else none
    else none
  match after "unix://" with
  | some path => some (.unix (String.ofList path))
  | none =>
      match (after "tcp://").bind parseHostPort with
      | some (host, port) => some (.tcp host port)
      | none => ((after "tls://").bind parseHostPort).map fun e => .tls e.1 e.2

def isEndpoint (url : String) : Bool := (parseEndpoint url).isSome

/-! ### The configuration -/

inductive ContextVerbosity where
  | compact | full
deriving DecidableEq

/-- What `loadConfig` returns; a boolean the source leaves undefined is `false`. -/
structure LoadedConfig where
  /-- `alias`. -/
  name : Option String
  rooms : List String
  roomsPinned : Bool
  roomMode : RoomMode
  projectRoomName : Option String
  identityKey : Option String
  caps : List String
  ctlAllowFrom : List String
  maxFrameBytes : Int
  heartbeatMs : Int
  brokerSilenceMs : Int
  mailboxCap : Int
  mailboxTtlMs : Int
  maxRoomsPerPeer : Int
  transcript : Bool
  transcriptRetentionDays : Int
  ledgerMaxBytes : Int
  activityIdleMs : Int
  activityStuckMs : Int
  reservationTtlMs : Int
  watchdog : Bool
  watchdogSpikeBytes : Int
  watchdogMaxCalls : Int
  watchdogCompactionBytes : Int
  interruptReceipts : Bool := true
  contextVerbosity : ContextVerbosity
  inboundBroadcasts : InboundBroadcastPolicy
  inboundBatchMs : Int
  inboundBatchMaxHoldMs : Int
  listen : Option String
  brokerUrl : Option String
  brokerToken : Option String
  tlsCert : Option String
  tlsKey : Option String
  tlsCa : Option String
  tlsInsecure : Bool
  debug : Bool

/-- `fileCfg`, of what the file holds; nothing where it cannot be read. -/
def fileConfig (text : Option (List Char)) : Members ν :=
  match text.bind (Json.parse (ν := ν)) with
  | some (.obj members) => members
  | _ => []

/-- `rooms` of the file, where it is an array of strings. -/
def fileRooms (file : Members ν) : List String :=
  match getOf file "rooms" with
  | some (.arr items) => if items.all fun r => (asStr r).isSome then items.filterMap asStr else [defaultRoom]
  | _ => [defaultRoom]

/-- A string of the file, where it passes a test. -/
def fileText (file : Members ν) (key : String) (ok : String → Bool) : Option String :=
  ((getOf file key).bind asStr).filter ok

/-- `fileCfg.ctl?.allowFrom`, where it is an array. -/
def fileAllowFrom (file : Members ν) : List (Json ν) :=
  match getOf file "ctl" with
  | some (.obj ctl) => itemsOf (getOf ctl "allowFrom")
  | _ => []

/-- The configuration of the file; nothing where an item of `caps` is no string. -/
def ofFile (rt : Runtime) (file : Members ν) : Option LoadedConfig :=
  let get := getOf file
  (normalizeCapItems rt [] (itemsOf (get "caps"))).map fun caps =>
    { name := fileText file "alias" isNamed
      rooms := fileRooms file
      roomsPinned := isTrue get "roomsPinned"
      roomMode := normalizeRoomMode rt ((get "roomMode").bind asStr)
      projectRoomName := normalizeProjectRoomName rt ((get "projectRoomName").bind asStr)
      identityKey := (((get "identityKey").bind asStr).map trim).filter isIdentityKey
      caps
      ctlAllowFrom := normalizeCtlAllowFrom rt (fileAllowFrom file)
      maxFrameBytes := clampFrameBytes (positiveInt (get "maxFrameBytes") 65536)
      heartbeatMs := positiveInt (get "heartbeatMs") 15000
      brokerSilenceMs := positiveInt (get "brokerSilenceMs") 45000
      mailboxCap := positiveInt (get "mailboxCap") 100
      mailboxTtlMs := positiveInt (get "mailboxTtlMs") 3600000
      maxRoomsPerPeer := positiveInt (get "maxRoomsPerPeer") 16
      transcript := isTrue get "transcript"
      transcriptRetentionDays := positiveInt (get "transcriptRetentionDays") 7
      ledgerMaxBytes := positiveInt (get "ledgerMaxBytes") 5242880
      activityIdleMs := positiveInt (get "activityIdleMs") 120000
      activityStuckMs := positiveInt (get "activityStuckMs") 900000
      reservationTtlMs :=
        if isZero (get "reservationTtlMs") then 0 else positiveInt (get "reservationTtlMs") 21600000
      watchdog := (get "watchdog").bind asBool ≠ some false
      watchdogSpikeBytes := positiveInt (get "watchdogSpikeBytes") 2097152
      watchdogMaxCalls := positiveInt (get "watchdogMaxCalls") 64
      watchdogCompactionBytes := positiveInt (get "watchdogCompactionBytes") 1048576
      contextVerbosity :=
        if (get "contextVerbosity").bind asStr = some "full" then .full else .compact
      inboundBroadcasts :=
        if (get "inboundBroadcasts").bind asStr = some "deferred" then .deferred else .immediate
      inboundBatchMs := if isZero (get "inboundBatchMs") then 0 else positiveInt (get "inboundBatchMs") 250
      inboundBatchMaxHoldMs := positiveInt (get "inboundBatchMaxHoldMs") 30000
      listen := fileText file "listen" isEndpoint
      brokerUrl := fileText file "brokerUrl" isEndpoint
      brokerToken := fileText file "brokerToken" isNamed
      tlsCert := fileText file "tlsCert" (· ≠ "")
      tlsKey := fileText file "tlsKey" (· ≠ "")
      tlsCa := fileText file "tlsCa" (· ≠ "")
      tlsInsecure := isTrue get "tlsInsecure"
      debug := isTrue get "debug" }

/-- The pieces of a text between commas, trimmed, and without those that are empty. -/
def commaList (raw : String) : List String :=
  ((splitChars ',' raw.toList).map fun piece => trim (String.ofList piece)).filter (· ≠ "")

/-- The `MESH_*` variables over a configuration. -/
def withEnv (rt : Runtime) (env : ProcessEnv ν) (cfg : LoadedConfig) : LoadedConfig :=
  let given (key : String) (ok : String → Bool) (old : Option String) : Option String :=
    ((env.get key).filter ok).orElse fun _ => old
  let pieces (raw : String) : List String := (splitChars ',' raw.toList).map String.ofList
  let batch := (env.get "MESH_INBOUND_BATCH_MS").map env.number
  { cfg with
    listen := given "MESH_LISTEN" isEndpoint cfg.listen
    brokerUrl := given "MESH_BROKER_URL" isEndpoint cfg.brokerUrl
    brokerToken := given "MESH_BROKER_TOKEN" isNamed cfg.brokerToken
    tlsCert := given "MESH_TLS_CERT" (· ≠ "") cfg.tlsCert
    tlsKey := given "MESH_TLS_KEY" (· ≠ "") cfg.tlsKey
    tlsCa := given "MESH_TLS_CA" (· ≠ "") cfg.tlsCa
    tlsInsecure := env.isOn "MESH_TLS_INSECURE" || cfg.tlsInsecure
    name := (env.text "MESH_ALIAS").orElse fun _ => cfg.name
    identityKey := (((env.get "MESH_IDENTITY_KEY").map trim).filter isIdentityKey).orElse
      fun _ => cfg.identityKey
    rooms := ((env.text "MESH_ROOMS").map commaList).getD cfg.rooms
    roomsPinned := (env.text "MESH_ROOMS").isSome || cfg.roomsPinned
    roomMode := ((env.text "MESH_ROOM_MODE").map fun raw =>
      normalizeRoomMode rt (some (rt.toLowerCase (trim raw)))).getD cfg.roomMode
    projectRoomName := ((env.text "MESH_PROJECT_ROOM").bind fun raw =>
      normalizeProjectRoomName rt (some (rt.toLowerCase (trim raw)))).orElse fun _ => cfg.projectRoomName
    caps := ((env.get "MESH_CAPS").map fun raw => normalizeCaps rt (pieces raw)).getD cfg.caps
    ctlAllowFrom := ((env.get "MESH_CTL_ALLOW_FROM").map fun raw =>
      normalizeCtlAllowFrom rt ((pieces raw).map (Json.str (ν := ν)))).getD cfg.ctlAllowFrom
    maxFrameBytes := ((envInt env "MESH_MAX_FRAME_BYTES").map clampFrameBytes).getD cfg.maxFrameBytes
    mailboxCap := (envInt env "MESH_MAILBOX_CAP").getD cfg.mailboxCap
    mailboxTtlMs := (envInt env "MESH_MAILBOX_TTL_MS").getD cfg.mailboxTtlMs
    activityIdleMs := (envInt env "MESH_ACTIVITY_IDLE_MS").getD cfg.activityIdleMs
    activityStuckMs := (envInt env "MESH_ACTIVITY_STUCK_MS").getD cfg.activityStuckMs
    reservationTtlMs :=
      if env.get "MESH_RESERVATION_TTL_MS" = some "0" then 0
      else (envInt env "MESH_RESERVATION_TTL_MS").getD cfg.reservationTtlMs
    watchdog := !env.isOff "MESH_WATCHDOG" && cfg.watchdog
    interruptReceipts := !env.isOff "MESH_INTERRUPT_RECEIPTS" && cfg.interruptReceipts
    contextVerbosity := if env.isOn "MESH_CONTEXT_VERBOSE" then .full else cfg.contextVerbosity
    inboundBroadcasts :=
      if env.get "MESH_INBOUND_BROADCASTS" = some "immediate" then .immediate
      else if env.get "MESH_INBOUND_BROADCASTS" = some "deferred" then .deferred
      else cfg.inboundBroadcasts
    inboundBatchMs :=
      match batch with
      | some n =>
          if Number.isFinite n && decide (0 ≤ FloorNumber.floor n) then FloorNumber.floor n
          else cfg.inboundBatchMs
      | none => cfg.inboundBatchMs
    debug := env.isOn "MESH_DEBUG" || cfg.debug
    transcript := if (env.get "MESH_TRANSCRIPT").isSome then env.isOn "MESH_TRANSCRIPT" else cfg.transcript }

/-- `loadConfig`, of what `config.json` holds; nothing where it throws. -/
def loadConfig (rt : Runtime) (text : Option (List Char)) (env : ProcessEnv ν) : Option LoadedConfig :=
  (ofFile rt (fileConfig (ν := ν) text)).map (withEnv rt env)

/-! ### The start of a session -/

/-- What a session finds around it. -/
structure SessionHost where
  rt : Runtime
  realpath : String → Option String
  stateDir : String
  /-- `randomBytes(3)`. -/
  random : Fin 256 × Fin 256 × Fin 256
  clientVersion : String
  now : Int

/-- `defaultAlias`: the bytes in hexadecimal. -/
def defaultAlias (random : Fin 256 × Fin 256 × Fin 256) : String :=
  let hex (b : Fin 256) : List Char := [Json.hexDigit (b / 16), Json.hexDigit (b % 16)]
  String.ofList ("agent-".toList ++ hex random.1 ++ hex random.2.1 ++ hex random.2.2)

/-- What `chooseInitialIdentity` reads. -/
def LoadedConfig.identity (cfg : LoadedConfig) : IdentityConfig :=
  { name := cfg.name, rooms := cfg.rooms, roomsPinned := cfg.roomsPinned }

/-- The arguments of `resolveRoomScope`. -/
def LoadedConfig.scopeArgs (cfg : LoadedConfig) (stateDir : String)
    (persisted : Option PersistedIdentity) : ScopeArgs :=
  { roomMode := some cfg.roomMode
    rooms := dropRecordedProjectRoom (chooseInitialIdentity cfg.identity persisted).rooms
      (persisted.bind fun id => id.projectRoom)
    stateDir
    projectRoomName := cfg.projectRoomName
    configuredRooms := some cfg.rooms
    maxRoomsPerPeer := some cfg.maxRoomsPerPeer.toNat
    persistedRooms := persisted.any fun id => id.rooms ≠ []
    pinned := cfg.roomsPinned }

/-- The client `session_start` makes. -/
def sessionClient (host : SessionHost) (cfg : LoadedConfig) (persisted : Option PersistedIdentity) :
    ClientState ν :=
  let choice := chooseInitialIdentity cfg.identity persisted
  let scope := resolveRoomScope host.rt host.realpath (cfg.scopeArgs host.stateDir persisted)
  .init (normalizeAlias host.rt (choice.name.getD (defaultAlias host.random))) scope.rooms
    ((persisted.map fun id => id.reservations).getD [])

/-- Its options. -/
def sessionEnv (host : SessionHost) (cfg : LoadedConfig) (persisted : Option PersistedIdentity)
    (freshAlias : Nat → String) : ClientEnv :=
  { rt := host.rt
    maxFrameBytes := cfg.maxFrameBytes.toNat
    brokerToken := cfg.brokerToken
    caps := cfg.caps
    clientVersion := host.clientVersion
    projectRoom :=
      (resolveRoomScope host.rt host.realpath (cfg.scopeArgs host.stateDir persisted)).projectRoom
    freshAlias }

end PiMesh
