/-
Handing an identity over, by many sessions of one state directory.

Every session stages its identity in the same file, through the same temporary file, and
removes it in a call of its own; so between two system calls of one session those of another
can come.  Each system call is a step here.  A session is a process: it is in the middle of
`savePending` or of `consumePending`, or in none.  The calls themselves succeed wherever the
directory lets them, and a file is written in one piece.

`saves` numbers the calls of `savePending` in the order in which they wrote.  The rest of the
record says which of them the two files hold, which are complete, which were taken and whose
time is over; no step of a session reads it.
-/
import PiMesh.Shared.Identity

namespace PiMesh

open Js

/-- The arguments of `savePending`; a client always has an alias. -/
structure Handoff where
  identity : PersistedIdentity
  history : Option (List String) := none
  forParent : Option String := none
  named : identity.name ≠ "" := by decide

namespace Handoff

/-- The parent's session file, where the handoff is bound to one. -/
def parent (h : Handoff) : Option String := given h.forParent

/-- What `savePending` writes. -/
def text (ν : Type) [Number ν] (h : Handoff) : List Char :=
  identityText (ν := ν) (pendingMembers h.identity h.history h.forParent)

/-- It is neither too old nor from the future. -/
def isFresh (rt : Runtime) (now : Int) (h : Handoff) : Bool :=
  (rt.dateParse h.identity.updatedAt).any fun t => 0 ≤ now - t && now - t ≤ pendingTtlMs

/-- The session with this parent may take it. -/
def admits (h : Handoff) (parentFile : Option String) : Bool :=
  h.parent.all fun file => parentFile = some file

end Handoff

def pendingTmpName : String := identityPendingName ++ ".tmp"

/-- Where a session is in one of the two calls that take several steps. -/
inductive HandoffPhase where
  /-- `savePending` has written the temporary file: `renameSync`. -/
  | saving (index : Nat)
  /-- `consumePending` has read this, which was this save. -/
  | consuming (index : Nat) (raw : List Char) (parentFile : Option String) (now : Int)

/-- What a call of `consumePending` returned, and what it had read. -/
structure Taking where
  index : Nat
  parentFile : Option String
  now : Int
  identity : PersistedIdentity
  history : Option (List String)

structure HandoffState where
  dir : StateDir := Map.empty
  phases : Map Nat HandoffPhase := Map.empty
  saves : List Handoff := []
  /-- The save whose text the temporary file holds. -/
  written : Option Nat := none
  /-- The save whose text the staging file holds. -/
  staged : Option Nat := none
  /-- The saves that have returned. -/
  completed : List Nat := []
  takings : List Taking := []
  /-- The saves that were taken, found too old, or replaced or cleared by their own parent. -/
  ended : List Nat := []

inductive HandoffEvent where
  /-- `savePending`, up to the temporary file. -/
  | write (session : Nat) (handoff : Handoff)
  /-- The rest of it. -/
  | publish (session : Nat) (now : Int)
  /-- `consumePending`, up to the reading of the file. -/
  | read (session : Nat) (parentFile : Option String) (now : Int)
  /-- The rest of it. -/
  | finish (session : Nat)
  /-- `clearPending` by a session with this file. -/
  | clear (sessionFile : Option String) (now : Int)

namespace HandoffState

/-- The handoff of the save. -/
def handoff? (st : HandoffState) (index : Option Nat) : Option Handoff :=
  index.bind fun i => st.saves[i]?

/-- The staged save, if the parent may end it or its time is over. -/
def released (rt : Runtime) (st : HandoffState) (parent : Option String) (now : Int) : List Nat :=
  if (st.handoff? st.staged).any fun h => h.parent = parent || !h.isFresh rt now then
    st.staged.toList
  else []

/-- A call of `consumePending` for the save returns. -/
def finished (rt : Runtime) (st : HandoffState) (session i : Nat) (parentFile : Option String)
    (now : Int) (r : StateDir × Option (PersistedIdentity × Option (List String))) :
    HandoffState :=
  let isOver := r.2.isSome || (st.handoff? (some i)).any fun h => !h.isFresh rt now
  { st with
    dir := r.1
    phases := st.phases.delete session
    staged := if r.1.has identityPendingName then st.staged else none
    takings := st.takings ++
      (r.2.map fun taken => ⟨i, parentFile, now, taken.1, taken.2⟩).toList
    ended := st.ended ++ if isOver then [i] else [] }

end HandoffState

open HandoffState in
/-- One system call of one session. -/
def handoffStep (ν : Type) [Number ν] (rt : Runtime) (st : HandoffState) :
    HandoffEvent → Option HandoffState
  | .write session h =>
      if st.phases.has session then none
      else some { st with
        dir := st.dir.set pendingTmpName (h.text ν)
        phases := st.phases.set session (.saving st.saves.length)
        saves := st.saves ++ [h]
        written := some st.saves.length }
  | .publish session now =>
      match st.phases.get? session with
      | some (.saving i) =>
          let st := { st with phases := st.phases.delete session, completed := st.completed ++ [i] }
          -- the rename throws where another session has moved the file already
          match renameFile (fun _ => true) st.dir pendingTmpName identityPendingName with
          | none => some st
          | some dir => some { st with
              dir
              staged := st.written
              written := none
              ended := st.ended ++
                released rt st ((st.handoff? (some i)).bind Handoff.parent) now }
      | _ => none
  | .read session parentFile now =>
      if st.phases.has session then none
      else
        match readFile (fun _ => true) st.dir identityPendingName with
        | none => some st
        | some raw => some { st with
            phases := st.phases.set session (.consuming (st.staged.getD 0) raw parentFile now) }
  | .finish session =>
      match st.phases.get? session with
      | some (.consuming i raw parentFile now) =>
          some (st.finished rt session i parentFile now
            (MeshIdentity.takePending ν rt (fun _ => true) now now raw st.dir parentFile))
      | _ => none
  | .clear sessionFile now =>
      some { st with
        dir := MeshIdentity.clearPending (fun _ => true) st.dir
        staged := none
        ended := st.ended ++ released rt st (given sessionFile) now }

end PiMesh
