/-
The ledger of a state directory, and the sessions that append to it.

`append` is one synchronous call, but the directory is shared: every other session of
the project can act between any two of its system calls.  The model cuts the call at
each of them, so a session stands before its `statSync`, before one of its
`existsSync`, before its `renameSync` or before its `appendFileSync`, and a run is any
interleaving.  Every system call may also throw, and `append` throws with it, but for
`statSync`: there `rotateIfNeeded` takes it that no file is there.
-/
import PiMesh.Lib.Files
import PiMesh.Protocol.Frames

namespace PiMesh

open Js Files

variable {ν : Type} [Number ν]

/-! ### Records -/

def ledgerSchema : String := "mesh.ledger.v1"
def ledgerFileName : String := "ledger.jsonl"

def forbiddenPersistedKeys : List String :=
  ["body", "task", "prompt", "output", "content", "message", "rationale", "text", "diff", "patch"]

mutual

/-- `hasForbiddenPersistedKey`: some object inside has a key of that name. -/
def hasForbiddenPersistedKey : Json ν → Bool
  | .arr items => hasForbiddenItem items
  | .obj members => hasForbiddenMember members
  | _ => false

def hasForbiddenItem : List (Json ν) → Bool
  | [] => false
  | v :: rest => hasForbiddenPersistedKey v || hasForbiddenItem rest

def hasForbiddenMember : List (String × Json ν) → Bool
  | [] => false
  | (k, v) :: rest =>
      forbiddenPersistedKeys.contains k || hasForbiddenPersistedKey v || hasForbiddenMember rest

end

/-- `{ schema, ...input, ts, bodyStored: false }`. -/
def ledgerRecord (input : Members ν) (ts : String) : Members ν :=
  let spread := input.foldl (fun ms e => withMember ms e.1 e.2) [("schema", .str ledgerSchema)]
  withMember (withMember spread "ts" (.str ts)) "bodyStored" (.bool false)

/-- The line `append` writes for a record. -/
def ledgerLine (record : Members ν) : List Char := encodeLine record

/-- The name of the `n`-th file rotated on a date. -/
def rotatedName (date : String) (n : Nat) : String := s!"ledger-{date}.jsonl.{n}"

/-- What `statSync` gives as the size of a file. -/
def fileSize (lines : List (List Char)) : Nat := (lines.map byteLength).sum

/-! ### Sessions -/

/-- The system call a session's `append` makes next. -/
inductive AppendAt (ν : Type) where
  | stat (record : Members ν)
  | probe (record : Members ν) (date : String) (n : Nat)
  | move (record : Members ν) (date : String) (n : Nat)
  | write (record : Members ν)

/-- A state directory and the calls of `append` under way in it, by session. -/
structure LedgerState (ν : Type) where
  dir : Dir (List Char)
  calls : Map Nat (AppendAt ν)

inductive LedgerEvent (ν : Type) where
  /-- The call, at a time. -/
  | append (input : Members ν) (ts : String)
  /-- `statSync`, and the date where the file is too long. -/
  | stat (date : String)
  | statThrows
  | probe
  | move
  | write
  /-- The next system call throws; before `statSync` that is `mkdirSync`. -/
  | throws

namespace LedgerState

/-- One system call of the `append` of session `p`; nothing where it is not its turn. -/
def step (maxBytes : Nat → Nat) (st : LedgerState ν) (p : Nat) (e : LedgerEvent ν) :
    Option (LedgerState ν) :=
  let next (c : AppendAt ν) : LedgerState ν := { st with calls := st.calls.set p c }
  match st.calls.get? p, e with
  | none, .append input ts =>
      let record := ledgerRecord input ts
      some (if hasForbiddenPersistedKey (.obj record) then st else next (.stat record))
  | some (.stat record), .stat date =>
      match st.dir.get? ledgerFileName with
      | none => some (next (.write record))
      | some lines =>
          if fileSize lines ≤ maxBytes p then some (next (.write record))
          else some (next (.probe record date 1))
  | some (.stat record), .statThrows => some (next (.write record))
  | some (.probe record date n), .probe =>
      if st.dir.has (rotatedName date n) then some (next (.probe record date (n + 1)))
      else some (next (.move record date n))
  | some (.move record date n), .move =>
      match rename st.dir ledgerFileName (rotatedName date n) with
      -- another session has moved the file: `renameSync` throws
      | none => some { st with calls := st.calls.delete p }
      | some dir => some { dir, calls := st.calls.set p (.write record) }
  | some (.write record), .write =>
      some { dir := append st.dir ledgerFileName (ledgerLine record), calls := st.calls.delete p }
  | some _, .throws => some { st with calls := st.calls.delete p }
  | _, _ => none

end LedgerState

/-- One step of one session on the directory they share. -/
def LedgerStep (maxBytes : Nat → Nat) (st : LedgerState ν) (e : Nat × LedgerEvent ν)
    (st' : LedgerState ν) : Prop :=
  st.step maxBytes e.1 e.2 = some st'

/-- A directory nobody is appending to. -/
def LedgerState.atRest (dir : Dir (List Char)) : LedgerState ν := { dir, calls := .empty }

end PiMesh
