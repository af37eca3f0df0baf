/-
`mesh tail -f`, and the ledger it follows.

The follower keeps an offset in bytes, the text behind the last newline and nothing else of the
file.  The writers are seen from the reader: the bytes of one append stand behind each other, since
`write(2)` in append mode lets no other one between them, but they may become visible in pieces.
A rotation takes the file away, with whatever of an append is still under way; the next append
makes a new one.  Events of the watcher only say when `readNew` runs, and a run may have it run at
any time.
-/
import PiMesh.Cli.Ledger
import PiMesh.Lib.Utf8

namespace PiMesh

open Js LedgerCli MeshLedger

def cliTailBacklogMaxLines : Nat := 1000

variable {ν : Type} [Number ν]

/-! ### The follower -/

/-- `parseLines`: the records of the complete lines, and the text behind the last newline. -/
def parseLines (text carry : List Char) : List (Json ν) × List Char :=
  let parts := splitChars '\n' (carry ++ text)
  (parts.dropLast.filterMap readLine, parts.getLast?.getD [])

structure Follower where
  offset : Nat
  carry : List Char
  /-- What it said before it began to follow. -/
  opening : List String
  /-- What it has said since. -/
  streamed : List String := []
deriving DecidableEq

/-- A file that is shorter than the offset is another one: reread everything. -/
def Follower.rewound (f : Follower) (buf : List UInt8) : Follower :=
  if buf.length < f.offset then { f with offset := 0, carry := [] } else f

variable (ν)

/-- `cmdTailFollow`, up to its first event; `file` is what can be read at the path. -/
def startFollower (dir : String) (limit : Nat) (file : Option (List UInt8)) : Follower :=
  match file with
  | none => { offset := 0, carry := [], opening := [s!"(waiting for ledger.jsonl in {dir})"] }
  | some buf =>
      let parsed := parseLines (ν := ν) (Utf8.decode buf) []
      { offset := buf.length, carry := parsed.2, opening := (newest limit parsed.1).map shown }

/-- `readNew`. -/
def Follower.readNew (f : Follower) (file : Option (List UInt8)) : Follower :=
  match file with
  | none => f
  | some buf =>
      let f := f.rewound buf
      if buf.length = f.offset then f
      else
        let parsed := parseLines (ν := ν) (Utf8.decode (buf.drop f.offset)) f.carry
        { f with
          offset := buf.length, carry := parsed.2
          streamed := f.streamed ++ parsed.1.map shown }

/-! ### The ledger -/

structure FollowState where
  /-- What a reader sees of the ledger. -/
  file : Option (List UInt8) := none
  /-- What it does not see yet of the append under way. -/
  rest : List UInt8 := []
  /-- The records appended, the one under way included. -/
  appended : List (List (String × Value ν)) := []
  follower : Option Follower := none
  /-- How many records were complete when the follower started. -/
  skip : Nat := 0
  /-- The file was moved away after the follower last looked into it. -/
  turned : Bool := false

inductive FollowEvent where
  | append (input : LedgerInput ν) (ts : String)
  /-- The next `n` bytes of the append become visible. -/
  | reveal (n : Nat)
  | rotate
  | start (dir : String) (limitRaw : Option String)
  | read

variable {ν}

/-- What an event does, if it can happen. -/
def FollowState.next (st : FollowState ν) : FollowEvent ν → Option (FollowState ν)
  | .append input ts =>
      let record := record input.members ts
      if !scans (.obj record) ||
          (Number.limits ν).stringifyNesting < (Value.obj record).nesting then some st
      else if st.rest ≠ [] then none
      else some { st with
        file := some (st.file.getD [])
        rest := Utf8.encode (ledgerLine (Value.toMembers record))
        appended := st.appended ++ [record] }
  | .reveal n =>
      if st.rest = [] then none
      else some { st with
        file := some (st.file.getD [] ++ st.rest.take n), rest := st.rest.drop n }
  | .rotate =>
      if st.file.isNone then none
      else some { st with file := none, rest := [], turned := true }
  | .start dir limitRaw =>
      match st.follower, tailLimit cliTailBacklogMaxLines limitRaw with
      | none, .ok limit => some { st with
          follower := some (startFollower ν dir limit st.file)
          skip := st.appended.length - (if st.rest = [] then 0 else 1)
          turned := false }
      | _, _ => none
  | .read =>
      match st.follower with
      | none => none
      | some f => some { st with
          follower := some (f.readNew ν st.file), turned := st.turned && st.file.isNone }

end PiMesh
