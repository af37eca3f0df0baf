/-
`MeshLedger.read`: the newest records of the current file.

A line that cannot be parsed, that holds `null`, or that has another schema is passed over;
the file itself may be missing.
-/
import PiMesh.Extension.Append
import PiMesh.Protocol.Envelope

namespace PiMesh

open Js Files

variable {ν : Type}

/-- `l.slice(start)`. -/
def sliceFrom {α : Type} (start : Int) (l : List α) : List α :=
  if start < 0 then l.drop (l.length - start.natAbs) else l.drop start.natAbs

namespace MeshLedger

/-- The filter of `read`. -/
structure ReadFilter where
  /-- `from`. -/
  sender : Option String := none
  /-- `to`. -/
  recipient : Option String := none
  room : Option String := none
  event : Option String := none

/-- `want === undefined || r[key] === want`. -/
def fieldIs (members : List (String × Json ν)) (key : String) : Option String → Bool
  | none => true
  | some want => (getOf members key).bind asStr == some want

/-- A value of the file that `read` returns. -/
def selects (filter : ReadFilter) : Json ν → Bool
  | .obj r =>
      fieldIs r "schema" (some ledgerSchema) && fieldIs r "from" filter.sender &&
        fieldIs r "to" filter.recipient && fieldIs r "room" filter.room &&
        fieldIs r "event" filter.event
  | _ => false

variable [Number ν]

/-- What one line gives. -/
def readRecord (filter : ReadFilter) (line : List Char) : Option (Json ν) :=
  if trim (String.ofList line) = "" then none
  else
    match Json.parse line with
    | some r => if selects filter r then some r else none
    | none => none

/-- `read`. -/
def read (dir : Dir (List Char)) (limit : Int) (filter : ReadFilter) : List (Json ν) :=
  match dir.get? ledgerFileName with
  | none => []
  | some lines => sliceFrom (-limit) ((splitChars '\n' lines.flatten).filterMap (readRecord filter))

end MeshLedger

end PiMesh
