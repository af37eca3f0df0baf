/-
File reservations.

A pattern that ends in a slash reserves a directory with everything in it, any other one file.
Paths and patterns are compared in a normal form, and a reservation that is too old counts for
nobody.  `process.platform` is a parameter: on Windows the form is in lower case.
-/
import PiMesh.Client.Frames

namespace PiMesh

open Js

/-- `p.replace(/\\/g, "/")`. -/
def forwardSlashes (p : String) : List Char := p.toList.map fun c => if c = '\\' then '/' else c

/-- `out.replace(/^\.\//, "")`. -/
def withoutDot : List Char → List Char
  | '.' :: '/' :: rest => rest
  | l => l

def normalizePath (windows : Bool) (rt : Runtime) (p : String) : String :=
  let out := String.ofList (withoutDot (forwardSlashes p))
  if windows then rt.toLowerCase out else out

def pathMatchesReservation (windows : Bool) (rt : Runtime) (filePath pattern : String) : Bool :=
  let file := normalizePath windows rt filePath
  let pat := normalizePath windows rt pattern
  if endsWithString pat "/" then startsWithString file pat || file ++ "/" == pat
  else file == pat

def isReservationExpired (rt : Runtime) (reservation : FileReservation) (ttlMs now : Int) : Bool :=
  if ttlMs ≤ 0 then false
  else
    match reservation.since with
    | none => false
    | some since =>
        match rt.dateParse since with
        | none => false
        | some t => decide (now - t > ttlMs)

/-- `{ alias, reservation }`. -/
abbrev Conflict := String × FileReservation

def findConflict (windows : Bool) (rt : Runtime) (filePath : String)
    (reservationsByPeer : Map String (List FileReservation)) (selfAlias : String) (ttlMs now : Int) :
    Option Conflict :=
  reservationsByPeer.entries.findSome? fun (name, reservations) =>
    if name = selfAlias then none
    else
      (reservations.find? fun reservation =>
        !isReservationExpired rt reservation ttlMs now &&
          pathMatchesReservation windows rt filePath reservation.pattern).map fun r => (name, r)

/-- The tools of which `tool_call` looks at the path. -/
inductive FileTool where
  | edit | write | other
deriving DecidableEq, Repr

/-- `tool_call`: the lines of the reason, where the call is blocked. -/
def onToolCall (windows : Bool) (rt : Runtime) (online : Bool) (tool : FileTool)
    (path : Option String) (reservationsByPeer : Map String (List FileReservation))
    (selfAlias : String) (ttlMs now : Int) : Option (List String) :=
  if !online || tool == .other then none
  else
    match path.filter fun p => p ≠ "" with
    | none => none
    | some path =>
        (findConflict windows rt path reservationsByPeer selfAlias ttlMs now).map fun (holder, res) =>
          [path, s!"Reserved by: @{holder}"] ++
            ((res.reason.filter fun r => r ≠ "").map fun r => s!"Reason: \"{r}\"").toList ++
            (res.since.map fun s => s!"Since: {s}").toList ++
            ["", String.ofList (("Coordinate via mesh_send(\x7b to: \"").toList ++ holder.toList ++
              ("\", message: \"...\" \x7d) — or wait for mesh_release.").toList)]

end PiMesh
