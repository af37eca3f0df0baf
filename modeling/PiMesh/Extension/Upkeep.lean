/-
Keeping the saved identity up to date.

What changes the alias, the rooms or the reservations of a client is to end in
`saveIdentityOf`.  The tools and the commands call it when the request they await has
returned, and the listeners call it when a connection is ready, when an alias was changed
and when a random one was taken.  The timer of an auto-release calls it too, beside the
request that it does not await.

A session is a client with the rest of these operations: `tasks` are those that wait for
their request, and `timed` are the requests of the timers.  The rest of a task runs some
time after its request has returned; that no event comes in between is not used.
-/
import PiMesh.Client.Events
import PiMesh.Shared.Identity

namespace PiMesh

open Js

variable {ν : Type} [Number ν]

/-- What a session is started with. -/
structure UpkeepEnv where
  client : ClientEnv
  sessionId : String
  identityKey : Option String := none

/-- What a tool or a command does once its request has returned. -/
inductive UpkeepTask where
  /-- `execMeshReserve`, with the patterns that get a timer. -/
  | meshReserve (timed : List String)
  | meshRelease (paths : Option (List String))
  /-- `cmdJoin`, at its `rename`. -/
  | joinAs (room : Option String) (role : MeshRole)
  | cmdJoin
  | cmdLeave
  | cmdAlias
  /-- `tick` of the reclaim loop. -/
  | reclaim
deriving DecidableEq

structure UpkeepSession (ν : Type) where
  client : ClientState ν
  preferredAlias : String
  dir : StateDir
  /-- `reserveTimers`, by pattern. -/
  reserveTimers : Js.Set String := .empty
  tasks : Map CallId UpkeepTask := .empty
  timed : List CallId := []
  /-- A connection has been ready. -/
  ready : Bool := false

/-- A tool or a command that changes what is saved. -/
inductive UpkeepOp where
  | meshReserve (paths : List String) (reason : Option String) (autoRelease : Bool)
  | meshRelease (paths : Option (List String))
  | cmdJoin (room : Option String) (role : MeshRole) (asAlias : Option String)
  | cmdLeave (room : String)
  | cmdAlias (newAlias : String)
  /-- A tick of the reclaim loop that has passed its checks. -/
  | reclaim
deriving DecidableEq

inductive UpkeepEvent (ν : Type) where
  /-- Anything else that happens to the client. -/
  | client (e : ClientEvent ν)
  /-- A tool or a command is called; its request has this number. -/
  | start (c : CallId) (op : UpkeepOp)
  /-- The rest of a task; a further request has the second number. -/
  | resume (c next : CallId)
  /-- The timer of a pattern fires. -/
  | autoRelease (c : CallId) (pattern : String)

/-- What the listeners that save wait for. -/
inductive UpkeepNotice where
  | ready | renamed | aliasFallback
deriving DecidableEq

/-- `identityFromClient` reads these of a client. -/
def ClientState.identity (env : ClientEnv) (st : ClientState ν) : ClientIdentity where
  name := st.conn.name
  rooms := st.joinedRooms.elems
  reservations := st.ownReservations
  projectRoomName := env.projectRoom

/-- What a microtask of the client emits for them. -/
def Job.notice (env : ClientEnv) (st : ClientState ν) : Job ν → Option UpkeepNotice
  | .welcomed _ _ => if (flushOutbox env st).2 then some .ready else none
  | .dialed (.rename c) (.ok _) =>
      match st.conn.renames.get? c with
      | some (.dialing _ _ _) => some .renamed
      | _ => none
  | .dialed .connect (.ok _) =>
      match st.conn.connecting with
      | some ⟨_, _, .fallback _, _⟩ => some .aliasFallback
      | _ => none
  | _ => none

/-- What an event of the client emits for them. -/
def ClientState.notice (env : ClientEnv) (st : ClientState ν) : ClientEvent ν → Option UpkeepNotice
  | .microtask => st.jobs.head?.bind (Job.notice env st)
  | _ => none

/-- The methods that change what is saved. -/
def Op.isKept : Op → Bool
  | .reserve _ _ => true
  | .release _ => true
  | .join _ _ => true
  | .leave _ => true
  | .rename _ => true
  | .forgetRoom _ => true
  | _ => false

namespace UpkeepSession

/-- `saveIdentityOf`. -/
def save (env : UpkeepEnv) (calls : FileCalls) (now : Int) (s : UpkeepSession ν) :
    UpkeepSession ν :=
  let identity := identityFromClient env.client.rt now env.sessionId (s.client.identity env.client)
    (some s.preferredAlias)
  { s with dir := (MeshIdentity.save ν calls s.dir identity env.identityKey).1 }

/-- The listeners. -/
def listen (env : UpkeepEnv) (calls : FileCalls) (now : Int) (s : UpkeepSession ν) :
    Option UpkeepNotice → UpkeepSession ν
  | none => s
  | some .ready => { s with ready := true }.save env calls now
  | some .renamed => { s with preferredAlias := s.client.conn.name }.save env calls now
  | some .aliasFallback => s.save env calls now

/-- An event of the client, and what its listeners do. -/
def react (env : UpkeepEnv) (calls : FileCalls) (now : Int) (s : UpkeepSession ν)
    (e : ClientEvent ν) : UpkeepSession ν :=
  { s with client := clientStep env.client now s.client e }.listen env calls now
    (s.client.notice env.client e)

/-- A request whose number is not in use. -/
def isNew (s : UpkeepSession ν) (c : CallId) : Bool :=
  isNewCall s.client c && !s.tasks.has c && decide (c ∉ s.timed)

/-- A request with something left to do. -/
def request (env : UpkeepEnv) (now : Int) (s : UpkeepSession ν) (c : CallId) (op : Op)
    (task : UpkeepTask) : UpkeepSession ν :=
  { s with client := clientStep env.client now s.client (.call c op)
           tasks := s.tasks.set c task }

/-- A tool or a command, up to its first `await`. -/
def start (env : UpkeepEnv) (now : Int) (s : UpkeepSession ν) (c : CallId) :
    UpkeepOp → UpkeepSession ν
  | .meshReserve paths reason autoRelease =>
      if paths.isEmpty then s
      else s.request env now c (.reserve paths reason)
        (.meshReserve (if autoRelease then paths else []))
  | .meshRelease paths => s.request env now c (.release paths) (.meshRelease paths)
  | .cmdJoin room role (some name) => s.request env now c (.rename name) (.joinAs room role)
  | .cmdJoin (some room) role none => s.request env now c (.join room role) .cmdJoin
  | .cmdJoin none _ none => s
  | .cmdLeave room => s.request env now c (.leave room) .cmdLeave
  | .cmdAlias newAlias => s.request env now c (.rename newAlias) .cmdAlias
  | .reclaim => s.request env now c (.rename s.preferredAlias) .reclaim

/-- `armReserveTimers`. -/
def armReserveTimers (s : UpkeepSession ν) (patterns : List String) : UpkeepSession ν :=
  { s with reserveTimers := patterns.foldl Js.Set.add s.reserveTimers }

/-- `clearReserveTimers`. -/
def clearReserveTimers (s : UpkeepSession ν) (patterns : Option (List String)) : UpkeepSession ν :=
  match patterns with
  | none => { s with reserveTimers := .empty }
  | some ps => { s with reserveTimers := ps.foldl Js.Set.delete s.reserveTimers }

/-- The alias the user chose is kept. -/
def keepAlias (env : UpkeepEnv) (calls : FileCalls) (now : Int) (s : UpkeepSession ν) :
    CallResult ν → UpkeepSession ν
  | .renamed name false => { s with preferredAlias := name }.save env calls now
  | _ => s

/-- The rest of a tool or a command, with the outcome of its request. -/
def finish (env : UpkeepEnv) (calls : FileCalls) (now : Int) (s : UpkeepSession ν) (next : CallId) :
    UpkeepTask → CallResult ν → UpkeepSession ν
  | .meshReserve timed, .send (.delivered _ _ _ _ _) =>
      (s.armReserveTimers timed).save env calls now
  | .meshRelease paths, .released _ (.delivered _ _ _ _ _) =>
      (s.clearReserveTimers paths).save env calls now
  | .meshRelease paths, .released _ _ => s.clearReserveTimers paths
  | .joinAs (some room) role, r =>
      (s.keepAlias env calls now r).request env now next (.join room role) .cmdJoin
  | .joinAs none _, r => s.keepAlias env calls now r
  | .cmdJoin, .void => s.save env calls now
  | .cmdLeave, .void => s.save env calls now
  | .cmdAlias, r => s.keepAlias env calls now r
  | .reclaim, .renamed _ false => s.save env calls now
  | _, _ => s

/-- The callback of an auto-release timer. -/
def autoRelease (env : UpkeepEnv) (calls : FileCalls) (now : Int) (s : UpkeepSession ν)
    (c : CallId) (pattern : String) : UpkeepSession ν :=
  { s with reserveTimers := s.reserveTimers.delete pattern
           client := clientStep env.client now s.client (.call c (.release (some [pattern])))
           timed := s.timed ++ [c] }.save env calls now

/-- An event of the client that is not an operation of the session. -/
def isFree (s : UpkeepSession ν) : ClientEvent ν → Bool
  | .call c op => !op.isKept && s.isNew c
  | _ => true

/-- One event at a time `now`; nothing where it is not possible. -/
def step (env : UpkeepEnv) (calls : FileCalls) (now : Int) (s : UpkeepSession ν) :
    UpkeepEvent ν → Option (UpkeepSession ν)
  | .client e => if s.isFree e then some (s.react env calls now e) else none
  | .start c op => if s.isNew c then some (s.start env now c op) else none
  | .resume c next =>
      match s.tasks.get? c, s.client.results.get? c with
      | some task, some r =>
          let s := { s with tasks := s.tasks.delete c }
          if s.isNew next then some (s.finish env calls now next task r) else none
      | _, _ => none
  | .autoRelease c pattern =>
      -- a timer waits until no microtask is queued
      if s.client.jobs.isEmpty && s.reserveTimers.has pattern && s.isNew c then
        some (s.autoRelease env calls now c pattern)
      else none

/-- A new session. -/
def init (name : String) (rooms : List String) (reservations : List FileReservation)
    (preferredAlias : String) (dir : StateDir) : UpkeepSession ν :=
  { client := .init name rooms reservations, preferredAlias, dir }

end UpkeepSession

/-- A step at a time, with the system calls that succeed. -/
def UpkeepStep (env : UpkeepEnv) (s : UpkeepSession ν) (x : (Int × FileCalls) × UpkeepEvent ν)
    (s' : UpkeepSession ν) : Prop :=
  s.step env x.1.2 x.1.1 x.2 = some s'

end PiMesh
