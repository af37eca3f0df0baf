/-
The identity of a session on disk.

One file of the state directory holds what a session wants back after a reload: its alias, the
alias it would rather have, its rooms and its reservations.  The name of the file is that of the
session or that of a slot which many sessions share; `identity-pending.json` hands an identity
over to a session that has no file yet.  Every system call can fail, and nothing is thrown.
-/
import PiMesh.Client.Frames
import PiMesh.Js.JsonPretty
import PiMesh.Lib.Files

namespace PiMesh

open Js

def identityFileName : String := "identity.json"
def identityPendingName : String := "identity-pending.json"
def identityVersion : Int := 1
def reservationTtlMs : Int := 86400000
def pendingTtlMs : Int := 900000

/-- `IDENTITY_KEY_REGEX`: a letter or digit, then up to 63 of those, dots, underscores and dashes. -/
def isIdentityKey (key : String) : Bool :=
  match key.toList with
  | [] => false
  | c :: rest =>
      c.isAlphanum && rest.length ≤ 63 &&
        rest.all (fun c => c.isAlphanum || c == '.' || c == '_' || c == '-')

/-! ### Identities -/

structure PersistedIdentity where
  sessionId : String
  /-- `alias`. -/
  name : String
  preferredAlias : Option String := none
  rooms : List String
  projectRoom : Option String := none
  reservations : List FileReservation
  updatedAt : String
deriving DecidableEq

/-- What `identityFromClient` reads of a client. -/
structure ClientIdentity where
  /-- `alias`. -/
  name : String
  rooms : List String
  reservations : List FileReservation := []
  projectRoomName : Option String := none
deriving DecidableEq

/-- `value !== undefined && value !== ""`. -/
def given (value : Option String) : Option String := value.filter fun s => s ≠ ""

def identityFromClient (rt : Runtime) (now : Int) (sessionId : String) (client : ClientIdentity)
    (preferredAlias : Option String) : PersistedIdentity :=
  { sessionId
    name := client.name
    preferredAlias := given preferredAlias
    rooms := client.rooms
    projectRoom := client.projectRoomName
    reservations := client.reservations
    updatedAt := rt.toISOString now }

/-- `freshReservations`: an age that is not known is no reason to drop one. -/
def freshReservations (rt : Runtime) (now : Int) (list : List FileReservation) :
    List FileReservation :=
  list.filter fun r =>
    match r.since.bind rt.dateParse with
    | none => true
    | some t => now - t < reservationTtlMs

/-- `dropRecordedProjectRoom`. -/
def dropRecordedProjectRoom (rooms : List String) (recordedProjectRoom : Option String) :
    List String :=
  match recordedProjectRoom with
  | none => rooms
  | some recorded => rooms.filter fun room => room ≠ recorded

/-! ### The first alias and rooms -/

/-- What `chooseInitialIdentity` reads of the configuration. -/
structure IdentityConfig where
  /-- `alias`. -/
  name : Option String := none
  rooms : List String := [defaultRoom]
  roomsPinned : Bool := false
deriving DecidableEq

inductive IdentityChoiceReason where
  | configAlias | preferred | persisted | fresh
deriving DecidableEq, Repr

structure IdentityChoice where
  /-- `alias`. -/
  name : Option String
  preferredAlias : Option String
  rooms : List String
  reason : IdentityChoiceReason
deriving DecidableEq

/-- `typeof room === "string" && room.trim() !== ""`. -/
def isNamed (room : String) : Bool := trim room ≠ ""

/-- `chooseInitialIdentity`. -/
def chooseInitialIdentity (config : IdentityConfig) (persisted : Option PersistedIdentity) :
    IdentityChoice :=
  let pinnedAlias := given config.name
  let preferredAlias :=
    pinnedAlias.orElse fun _ => persisted.map fun id => id.preferredAlias.getD id.name
  let reason : IdentityChoiceReason :=
    if pinnedAlias.isSome then .configAlias
    else
      match persisted with
      | none => .fresh
      | some id => if id.preferredAlias.isSome then .preferred else .persisted
  let configured := config.rooms.filter isNamed
  let fallback := if configured ≠ [] then configured else [defaultRoom]
  let rooms :=
    if config.roomsPinned && configured ≠ [] then configured
    else
      match persisted with
      | some id => if id.rooms ≠ [] then id.rooms else fallback
      | none => fallback
  ⟨preferredAlias, preferredAlias, rooms, reason⟩

section Text

variable {ν : Type} [Number ν]

/-- The object that is written; absent fields leave no member behind. -/
def PersistedIdentity.members (id : PersistedIdentity) : Members ν :=
  [("version", .num (Number.ofInteger identityVersion)), ("sessionId", .str id.sessionId),
    ("alias", .str id.name)] ++
  (id.preferredAlias.map fun s => ("preferredAlias", .str s)).toList ++
  [("rooms", jsonStrs id.rooms)] ++ (id.projectRoom.map fun s => ("projectRoom", .str s)).toList ++
  [("reservations", .arr (id.reservations.map FileReservation.json)), ("updatedAt", .str id.updatedAt)]

/-- The object of `savePending`. -/
def pendingMembers (id : PersistedIdentity) (history : Option (List String))
    (forParent : Option String) : Members ν :=
  id.members ++ (history.map fun l => ("history", jsonStrs l)).toList ++
    ((given forParent).map fun s => ("handoffFor", .str s)).toList

/-- `JSON.stringify(value, null, 2) + "\n"`. -/
def identityText (ms : Members ν) : List Char := Json.stringifyIndented 0 (.obj ms) ++ ['\n']

/-- A reservation that `isValidReservations` accepts; only the fields of its type are kept. -/
def FileReservation.ofJson : Json ν → Option FileReservation
  | .obj r =>
      match getOf r "pattern" with
      | some (.str pattern) =>
          some { pattern, reason := (getOf r "reason").bind asStr, since := (getOf r "since").bind asStr }
      | _ => none
  | _ => none

/-- The strings of an array. -/
def stringsOf : Option (Json ν) → List String
  | some (.arr items) => items.filterMap asStr
  | _ => []

def storedReservations (rt : Runtime) : Option (Json ν) → List FileReservation
  | some (.arr items) =>
      if isValidReservations rt (.arr items) then items.filterMap FileReservation.ofJson else []
  | _ => []

variable (ν) in
/-- `MeshIdentity.parse`; it has no case for `projectRoom`. -/
def parseIdentity (rt : Runtime) (now : Int) (raw : List Char) (sessionId : String)
    (ignoreSessionId : Bool) : Option PersistedIdentity :=
  match Json.parse (ν := ν) raw with
  | some (.obj ms) =>
      let get := getOf ms
      if !((get "version").any (isInt fun n => n = identityVersion)) then none
      else if !ignoreSessionId && !((get "sessionId").any (isStr fun s => s = sessionId)) then none
      else
        match get "alias" with
        | some (.str name) =>
            if name = "" then none
            else some
              { sessionId, name
                preferredAlias := given ((get "preferredAlias").bind asStr)
                rooms := stringsOf (get "rooms")
                reservations := freshReservations rt now (storedReservations rt (get "reservations"))
                updatedAt := ((get "updatedAt").bind asStr).getD (rt.toISOString now) }
        | _ => none
  | _ => none

end Text

/-! ### Files -/

/-- A system call on the state directory. -/
inductive FileCall where
  | read (name : String)
  | write (name : String)
  | rename (old new : String)
  | unlink (name : String)
deriving DecidableEq

/-- The system calls that succeed. -/
abbrev FileCalls := FileCall → Bool

abbrev StateDir := Files.Dir Char

def readFile (calls : FileCalls) (dir : StateDir) (name : String) : Option (List Char) :=
  if calls (.read name) then dir.get? name else none

/-- `renameSync`; nothing where it throws. -/
def renameFile (calls : FileCalls) (dir : StateDir) (old new : String) : Option StateDir :=
  if calls (.rename old new) then Files.rename dir old new else none

/-- `unlinkSync`; nothing where it throws. -/
def unlinkFile (calls : FileCalls) (dir : StateDir) (name : String) : Option StateDir :=
  if calls (.unlink name) && dir.has name then some (dir.delete name) else none

/-- A file is written beside its place and moved there; `false` where a call throws. -/
def replaceFile (calls : FileCalls) (dir : StateDir) (name : String) (text : List Char) :
    StateDir × Bool :=
  let tmp := name ++ ".tmp"
  if calls (.write tmp) then
    let dir := dir.set tmp text
    match renameFile calls dir tmp name with
    | some dir => (dir, true)
    | none => (dir, false)
  else (dir, false)

namespace MeshIdentity

/-- `pathFor`, under the state directory; nothing where it throws. -/
def pathFor (sessionId : String) (key : Option String) : Option String :=
  match given key with
  | some key => if isIdentityKey key then some ("identity-key-" ++ key ++ ".json") else none
  | none => some ("identity-" ++ sessionId ++ ".json")

/-- `save`, and whether it wrote. -/
def save (ν : Type) [Number ν] (calls : FileCalls) (dir : StateDir) (identity : PersistedIdentity)
    (key : Option String) : StateDir × Bool :=
  match pathFor identity.sessionId key with
  | none => (dir, false)
  | some target => replaceFile calls dir target (identityText (ν := ν) identity.members)

def load (ν : Type) [Number ν] (rt : Runtime) (calls : FileCalls) (now : Int) (dir : StateDir)
    (sessionId : String) (key : Option String) : StateDir × Option PersistedIdentity :=
  match given key with
  | some _ =>
      -- a slot was written by any session
      (dir, ((pathFor sessionId key).bind (readFile calls dir)).bind fun raw =>
        parseIdentity ν rt now raw sessionId true)
  | none =>
      if sessionId = "" then (dir, none)
      else
        match (pathFor sessionId none).bind (readFile calls dir) with
        | some raw => (dir, parseIdentity ν rt now raw sessionId false)
        | none =>
            match (readFile calls dir identityFileName).bind fun raw =>
              parseIdentity ν rt now raw sessionId false with
            | none => (dir, none)
            | some id =>
                let moved := (pathFor sessionId none).bind (renameFile calls dir identityFileName)
                (moved.getD dir, some id)

/-- `savePending`, and whether it wrote. -/
def savePending (ν : Type) [Number ν] (calls : FileCalls) (dir : StateDir)
    (identity : PersistedIdentity) (history : Option (List String)) (forParent : Option String) :
    StateDir × Bool :=
  replaceFile calls dir identityPendingName
    (identityText (ν := ν) (pendingMembers identity history forParent))

/-- `consumePending`; `clock` is what `Date.now()` returns. -/
def consumePending (ν : Type) [Number ν] (rt : Runtime) (calls : FileCalls) (clock : Int)
    (dir : StateDir) (parentFile : Option String) (now : Option Int) :
    StateDir × Option (PersistedIdentity × Option (List String)) :=
  let now := now.getD clock
  match readFile calls dir identityPendingName with
  | none => (dir, none)
  | some raw =>
      match Json.parse (ν := ν) raw with
      | some (.obj p) =>
          match getOf p "updatedAt" with
          | some (.str updatedAt) =>
              match (rt.dateParse updatedAt).filter fun t => 0 ≤ now - t && now - t ≤ pendingTtlMs with
              | none => ((unlinkFile calls dir identityPendingName).getD dir, none)
              | some _ =>
                  let forParent := given ((getOf p "handoffFor").bind asStr)
                  if forParent.any fun file => parentFile ≠ some file then (dir, none)
                  else
                    match parseIdentity ν rt clock raw "" true with
                    | none => (dir, none)
                    | some parsed =>
                        let history := (stringsOf (getOf p "history"))
                        match unlinkFile calls dir identityPendingName with
                        | none => (dir, none)
                        | some dir => (dir, some (parsed, if history = [] then none else some history))
          | _ => (dir, none)
      | _ => (dir, none)

/-- `consumePending` from where the file has been read, at a time `now`. -/
def takePending (ν : Type) [Number ν] (rt : Runtime) (calls : FileCalls) (clock now : Int)
    (raw : List Char) (dir : StateDir) (parentFile : Option String) :
    StateDir × Option (PersistedIdentity × Option (List String)) :=
  match Json.parse (ν := ν) raw with
  | some (.obj p) =>
      match getOf p "updatedAt" with
      | some (.str updatedAt) =>
          match (rt.dateParse updatedAt).filter fun t => 0 ≤ now - t && now - t ≤ pendingTtlMs with
          | none => ((unlinkFile calls dir identityPendingName).getD dir, none)
          | some _ =>
              let forParent := given ((getOf p "handoffFor").bind asStr)
              if forParent.any fun file => parentFile ≠ some file then (dir, none)
              else
                match parseIdentity ν rt clock raw "" true with
                | none => (dir, none)
                | some parsed =>
                    let history := (stringsOf (getOf p "history"))
                    match unlinkFile calls dir identityPendingName with
                    | none => (dir, none)
                    | some dir => (dir, some (parsed, if history = [] then none else some history))
      | _ => (dir, none)
  | _ => (dir, none)

theorem consumePending_eq (ν : Type) [Number ν] (rt : Runtime) (calls : FileCalls) (clock : Int)
    (dir : StateDir) (parentFile : Option String) (now : Option Int) :
    consumePending ν rt calls clock dir parentFile now =
      match readFile calls dir identityPendingName with
      | none => (dir, none)
      | some raw => takePending ν rt calls clock (now.getD clock) raw dir parentFile := rfl

/-- `clearPending`. -/
def clearPending (calls : FileCalls) (dir : StateDir) : StateDir :=
  (unlinkFile calls dir identityPendingName).getD dir

end MeshIdentity

end PiMesh
