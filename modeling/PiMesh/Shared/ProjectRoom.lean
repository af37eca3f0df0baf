/-
The room of a project, and the rooms of a session.

A project room is named after the state directory: a slug of the directory's name and six
characters of a digest of its path.  `resolveRoomScope` adds it to the rooms a session asks
for, takes out the room the same project had at an earlier path, and sheds rooms where the
broker's cap does not hold them all.

Paths are those of POSIX.  `realpathSync` is a parameter, nothing where it throws.  Room names
are ASCII wherever their characters are counted, so counting characters will do.
-/
import PiMesh.Shared.Identity

namespace PiMesh

open Js

/-- `PROJECT_ROOM_PREFIX`. -/
def projectRoomPrefix : String := "proj."

def projectRoomSlugMax : Nat := 24
def projectRoomHashChars : Nat := 6
def defaultMaxRoomsPerPeer : Nat := 16

/-! ### Paths -/

/-- `path.basename`. -/
def basename (path : List Char) : List Char :=
  ((path.reverse.dropWhile (· == '/')).takeWhile (· != '/')).reverse

/-- `path.dirname`. -/
def dirname (path : List Char) : List Char :=
  let rooted := path.head? = some '/'
  match (path.reverse.dropWhile (· == '/')).dropWhile (· != '/') with
  | [] => if rooted then ['/'] else ['.']
  | _ :: parent =>
      if parent = [] then ['/']
      else if rooted ∧ parent.length = 1 then ['/', '/']
      else parent.reverse

/-- A path without the slashes and backslashes at its end. -/
def withoutSlashes (path : List Char) : List Char :=
  (path.reverse.dropWhile fun c => c == '/' || c == '\\').reverse

/-! ### The project room -/

/-- Each run of other characters becomes a dash; the flag says that this one has its dash. -/
def dashed : Bool → List Char → List Char
  | _, [] => []
  | inRun, c :: rest =>
      if isLowerOrDigit c then c :: dashed false rest
      else if inRun then dashed true rest
      else '-' :: dashed true rest

/-- Without the dashes at the end. -/
def withoutDashes (l : List Char) : List Char := (l.reverse.dropWhile (· == '-')).reverse

def slugifyProjectName (rt : Runtime) (raw : String) : String :=
  let text := (dashed false (rt.toLowerCase raw).toList).dropWhile (· == '-')
  let slug := withoutDashes ((withoutDashes text).take projectRoomSlugMax)
  if slug = [] then "x" else String.ofList slug

def projectRootOf (stateDir : String) : String :=
  let trimmed := withoutSlashes stateDir.toList
  String.ofList (if basename trimmed = ".mesh".toList then dirname trimmed else trimmed)

def canonicalStateDir (realpath : String → Option String) (stateDir : String) : String :=
  match realpath stateDir with
  | some path => path
  | none =>
      let trimmed := withoutSlashes stateDir.toList
      if trimmed = [] then stateDir else String.ofList trimmed

def deriveProjectRoom (rt : Runtime) (realpath : String → Option String) (stateDir : String) :
    String :=
  let root := projectRootOf (canonicalStateDir realpath stateDir)
  let digest := String.ofList ((rt.sha256 root).toList.take projectRoomHashChars)
  let name := String.ofList (basename root.toList)
  projectRoomPrefix ++ slugifyProjectName rt (if name = "" then root else name) ++ "." ++ digest

/-- `s.lastIndexOf(".")`. -/
def lastDot (l : List Char) : Option Nat :=
  (l.reverse.findIdx? (· == '.')).map fun i => l.length - 1 - i

/-- `projectRoom.slice(PROJECT_ROOM_PREFIX.length, projectRoom.lastIndexOf("."))`; an index of
`-1` cuts off the last character. -/
def slugOf (projectRoom : String) : String :=
  let l := projectRoom.toList
  String.ofList ((l.take ((lastDot l).getD (l.length - 1))).drop projectRoomPrefix.toList.length)

def isStaleOwnProjectRoom (room projectRoom : String) : Bool :=
  if room = projectRoom then false
  else startsWithString room (projectRoomPrefix ++ slugOf projectRoom ++ ".")

/-! ### The rooms of a session -/

inductive RoomMode where
  | default | project | both
deriving DecidableEq, Repr

/-- Why `roomMode` could not fully apply. -/
inductive Degraded where
  | roomCap | pinned
deriving DecidableEq, Repr

structure RoomScope where
  rooms : List String
  projectRoom : Option String := none
  broadcastRoom : String
  degraded : Option Degraded := none
deriving DecidableEq, Repr

/-- The arguments of `resolveRoomScope`. -/
structure ScopeArgs where
  roomMode : Option RoomMode := none
  rooms : List String
  stateDir : String
  projectRoomName : Option String := none
  configuredRooms : Option (List String) := none
  maxRoomsPerPeer : Option Nat := none
  persistedRooms : Bool := false
  pinned : Bool := false

/-- `legacyBroadcastRoom`. -/
def legacyBroadcastRoom (list : List String) : String :=
  if list.contains defaultRoom then defaultRoom else list.head?.getD defaultRoom

/-- The loop that sheds `default`; it runs at most once for each room. -/
def shedDefault (cap : Nat) : Nat → List String → List String
  | 0, list => list
  | fuel + 1, list =>
      if cap < list.length && list.contains defaultRoom then
        shedDefault cap fuel (list.erase defaultRoom)
      else list

namespace ScopeArgs

/-- `base`. -/
def base (args : ScopeArgs) : List String := args.rooms.filter isNamed

/-- `projectRoom`. -/
def project (rt : Runtime) (realpath : String → Option String) (args : ScopeArgs) : String :=
  args.projectRoomName.getD (deriveProjectRoom rt realpath args.stateDir)

/-- `rooms`, before the project room is added. -/
def wanted (projectRoom : String) (args : ScopeArgs) : List String :=
  let cleaned := args.base.filter fun room => !isStaleOwnProjectRoom room projectRoom
  let configured := args.configuredRooms.getD []
  let leftDefault := args.persistedRooms && !args.base.contains defaultRoom
  match args.roomMode.getD .both with
  | .both =>
      if !cleaned.contains defaultRoom && !leftDefault then cleaned ++ [defaultRoom] else cleaned
  | _ => if configured.contains defaultRoom then cleaned else cleaned.erase defaultRoom

/-- `rooms`, once it is. -/
def joined (projectRoom : String) (args : ScopeArgs) : List String :=
  let rooms := args.wanted projectRoom
  if rooms.contains projectRoom then rooms else rooms ++ [projectRoom]

/-- `cap`. -/
def cap (args : ScopeArgs) : Nat := args.maxRoomsPerPeer.getD defaultMaxRoomsPerPeer

end ScopeArgs

/-- `resolveRoomScope`. -/
def resolveRoomScope (rt : Runtime) (realpath : String → Option String) (args : ScopeArgs) :
    RoomScope :=
  let mode := args.roomMode.getD .both
  if mode = .default ∨ args.pinned then
    let rooms := if args.base ≠ [] then args.base else [defaultRoom]
    { rooms, broadcastRoom := legacyBroadcastRoom rooms,
      degraded := if args.pinned ∧ mode ≠ .default then some .pinned else none }
  else
    let projectRoom := args.project rt realpath
    let rooms := args.joined projectRoom
    if args.cap < rooms.length then
      let others := rooms.filter fun room => room ≠ projectRoom
      let trimmed := shedDefault args.cap others.length others
      { rooms := trimmed.take (max 1 args.cap), broadcastRoom := legacyBroadcastRoom trimmed,
        degraded := some .roomCap }
    else { rooms, projectRoom := some projectRoom, broadcastRoom := projectRoom }

/-! ### The start of a session -/

/-- What `session_start` reads of the configuration.  `loadConfig` accepts no other override, and
no other cap but the zero it makes of a fraction below one. -/
structure SessionConfig extends IdentityConfig where
  roomMode : RoomMode := .both
  projectRoomName : Option String := none
  maxRoomsPerPeer : Nat := defaultMaxRoomsPerPeer
  identityKey : Option String := none
  cap_pos : 0 < maxRoomsPerPeer := by decide
  name_valid : ∀ name, projectRoomName = some name → isValidRoom name = true := by decide

/-- `scope`, from the identity that was found. -/
def sessionScope (rt : Runtime) (realpath : String → Option String) (config : SessionConfig)
    (stateDir : String) (persisted : Option PersistedIdentity) : RoomScope :=
  let choice := chooseInitialIdentity config.toIdentityConfig persisted
  resolveRoomScope rt realpath
    { roomMode := some config.roomMode
      rooms := dropRecordedProjectRoom choice.rooms (persisted.bind fun id => id.projectRoom)
      stateDir
      projectRoomName := config.projectRoomName
      configuredRooms := some config.rooms
      maxRoomsPerPeer := some config.maxRoomsPerPeer
      persistedRooms := persisted.any fun id => id.rooms ≠ []
      pinned := config.roomsPinned }

/-- `persisted`: the session's own identity, or else one that was handed over. -/
def startIdentity (ν : Type) [Number ν] (rt : Runtime) (calls : FileCalls) (now : Int)
    (dir : StateDir) (sessionId : String) (key parentFile : Option String) :
    Option PersistedIdentity :=
  match MeshIdentity.load ν rt calls now dir sessionId key with
  | (_, some id) => some id
  | (dir, none) => (MeshIdentity.consumePending ν rt calls now dir parentFile none).2.map Prod.fst

/-- The rooms part of `session_start`. -/
def startScope (ν : Type) [Number ν] (rt : Runtime) (realpath : String → Option String)
    (config : SessionConfig) (stateDir : String) (calls : FileCalls) (now : Int) (dir : StateDir)
    (sessionId : String) (parentFile : Option String) : RoomScope :=
  sessionScope rt realpath config stateDir
    (startIdentity ν rt calls now dir sessionId config.identityKey parentFile)

end PiMesh
