/-
The start of a session in OpenCode.

`createSessionRuntime` loads the identity of the session and makes its client of it; of the
configuration it reads the rooms and whether they are pinned.  The Pi adapter leaves the choice to
`chooseInitialIdentity`.  What `identity.load` answers for a key is a parameter here.
-/
import PiMesh.Shared.LoadConfig

namespace PiMesh

open Js

/-- One turn of the loop of `initialRooms`. -/
def addRoom (out : List String) (room : String) : List String :=
  let value := trim room
  if value ≠ "" ∧ value ∉ out then out ++ [value] else out

/-- `initialRooms`; `configuredRooms` are those of the plugin's options. -/
def initialRooms (configuredRooms : List String) (cfg : IdentityConfig)
    (stored : Option PersistedIdentity) : List String :=
  let out := (cfg.rooms ++ configuredRooms).foldl addRoom []
  let fallback := if out ≠ [] then out else [defaultRoom]
  if cfg.roomsPinned && cfg.rooms ≠ [] then cfg.rooms
  else
    match stored with
    | some id => if id.rooms ≠ [] then id.rooms else fallback
    | none => fallback

/-- What a session starts from. -/
structure RuntimeStart where
  /-- The `alias` of the client's options. -/
  asked : Option String
  /-- `client.alias`, as the first hello has it. -/
  clientAlias : String
  preferredAlias : String
  rooms : List String
  initialReservations : Option (List FileReservation)
  identityKey : Option String
deriving DecidableEq

section Start

variable (rt : Runtime) (random : Fin 256 × Fin 256 × Fin 256)

/-- `new MeshClient(opts).alias`. -/
def clientAlias (asked : Option String) : String :=
  normalizeAlias rt (asked.getD (defaultAlias random))

/-- `createSessionRuntime`. -/
def createSessionRuntime (configuredRooms : List String)
    (load : Option String → Option PersistedIdentity) (cfg : IdentityConfig)
    (identityKey : Option String) : RuntimeStart :=
  let stored := load identityKey
  let asked := (stored.bind fun id => id.preferredAlias).orElse fun _ => stored.map fun id => id.name
  { asked
    clientAlias := clientAlias rt random asked
    preferredAlias := asked.getD (clientAlias rt random asked)
    rooms := initialRooms configuredRooms cfg stored
    initialReservations := (stored.map fun id => id.reservations).filter fun rs => rs ≠ []
    identityKey }

/-- The start that `chooseInitialIdentity` decides on, as `session_start` of the Pi adapter takes
it. -/
def chosenStart (load : Option String → Option PersistedIdentity) (cfg : IdentityConfig)
    (identityKey : Option String) : RuntimeStart :=
  let persisted := load identityKey
  let choice := chooseInitialIdentity cfg persisted
  { asked := choice.name
    clientAlias := clientAlias rt random choice.name
    preferredAlias := choice.preferredAlias.getD (clientAlias rt random choice.name)
    rooms := choice.rooms
    initialReservations := persisted.map fun id => id.reservations
    identityKey }

end Start

end PiMesh
