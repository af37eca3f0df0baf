/-
`MeshLedger.append` as one call.

With nobody else in the directory and no system call failing, the call is a function of the
files.  Its input is any object a caller can build: the type the source declares for it is not
checked when the program runs, so a field may hold objects and arrays to any depth, and
`undefined` anywhere in them.  At some depth the stack of the engine is used up, by the scan
before the rotation or by `JSON.stringify` after it.
-/
import PiMesh.Extension.Ledger
import PiMesh.Js.Value

namespace PiMesh

open Js Files

variable {ν : Type}

/-- What a caller hands to `append`: an object, in which no key occurs twice. -/
structure LedgerInput (ν : Type) where
  members : List (String × Value ν)
  wellFormed : (Value.obj members).WellFormed

namespace MeshLedger

def failClosed : String := "mesh ledger fail-closed: forbidden persisted key (E25)"

def stackOverflow : String := "Maximum call stack size exceeded"

mutual

/-- `hasForbiddenPersistedKey`, on a value that may be `undefined` in places. -/
def hasForbiddenPersistedKey : Value ν → Bool
  | .arr items => hasForbiddenItem items
  | .obj members => hasForbiddenMember members
  | _ => false

def hasForbiddenItem : List (Value ν) → Bool
  | [] => false
  | v :: rest => hasForbiddenPersistedKey v || hasForbiddenItem rest

def hasForbiddenMember : List (String × Value ν) → Bool
  | [] => false
  | (k, v) :: rest =>
      forbiddenPersistedKeys.contains k || hasForbiddenPersistedKey v || hasForbiddenMember rest

end

/-- `{ schema, ...input, ts, bodyStored: false }`. -/
def record (input : List (String × Value ν)) (ts : String) : List (String × Value ν) :=
  let spread := input.foldl (fun ms e => setEntry e.1 e.2 ms) [("schema", .str ledgerSchema)]
  setEntry "bodyStored" (.bool false) (setEntry "ts" (.str ts) spread)

/-- The first `n` from a start whose rotated name no file has. -/
def freeIndex (dir : Dir (List Char)) (date : String) : Nat → Nat → Nat
  | 0, n => n
  | fuel + 1, n => if dir.has (rotatedName date n) then freeIndex dir date fuel (n + 1) else n

/-- `rotateIfNeeded`: the directory has no more rotated names than files. -/
def rotateIfNeeded (maxBytes : Nat) (dir : Dir (List Char)) (date : String) : Dir (List Char) :=
  match dir.get? ledgerFileName with
  | none => dir
  | some lines =>
      if fileSize lines ≤ maxBytes then dir
      else
        match rename dir ledgerFileName (rotatedName date (freeIndex dir date dir.size 1)) with
        | none => dir
        | some rotated => rotated

variable [Number ν]

/-- The scan comes to its end and finds nothing. -/
def scans (record : Value ν) : Bool :=
  !hasForbiddenPersistedKey record && decide (record.nesting ≤ (Number.limits ν).callNesting)

/-- `append`, at a time: the record or the error it throws, and the files it leaves. -/
def append (maxBytes : Nat) (dir : Dir (List Char)) (date ts : String) (input : LedgerInput ν) :
    Except String (List (String × Value ν)) × Dir (List Char) :=
  let record := record input.members ts
  if !scans (.obj record) then
    (.error (if hasForbiddenPersistedKey (.obj record) then failClosed else stackOverflow), dir)
  else
    let dir := rotateIfNeeded maxBytes dir date
    if (Number.limits ν).stringifyNesting < (Value.obj record).nesting then
      (.error stackOverflow, dir)
    else (.ok record, Files.append dir ledgerFileName (ledgerLine (Value.toMembers record)))

end MeshLedger

end PiMesh
