/-
The five-field assignment contract and capability targets.

`validateTaskPackage` takes an arbitrary JSON value and either copies it, trimmed
and with the deadline rewritten as an ISO date, or says which of the five fields
was at fault.  `capTargetName` reads the capability out of a `cap:<name>` target.
-/
import PiMesh.Shared.Config

namespace PiMesh

open Js

structure MeshTaskPackage where
  task : String
  goalAcceptance : String
  paths : List String
  branch : String
  base : String
  replyTo : String
  deadline : String
  format : String
deriving DecidableEq

namespace TaskPackage

variable {ν : Type} [Number ν]

def exactKeys : List String := ["task", "goalAcceptance", "paths", "branchBase", "reply"]

/-- `text(value, field, max)`: a string of 1 to `max` characters once trimmed. -/
def text (value : Option (Json ν)) (max : Nat) : Option String :=
  match value with
  | some (.str s) =>
      let v := trim s
      if strLength v = 0 ∨ strLength v > max then none else some v
  | _ => none

def relativePath (value : Json ν) : Option String :=
  match text (some value) 256 with
  | none => none
  | some p =>
      if startsWithString p "/" || includesString p "\\" then none
      else if (splitChars '/' p.toList).any (fun part => part == "..".toList) then none
      else some p

def hasExactKeys (members : List (String × Json ν)) (keys : List String) : Bool :=
  members.length == keys.length && keys.all (fun k => (members.map Prod.fst).contains k)

/-- The paths in order, repetitions dropped; `none` at the first that is not relative. -/
def readPaths : List (Json ν) → List String → Option (List String)
  | [], acc => some acc
  | raw :: rest, acc =>
      match relativePath raw with
      | none => none
      | some p => readPaths rest (if acc.contains p then acc else acc ++ [p])

end TaskPackage

open TaskPackage in
/-- `validateTaskPackage`. -/
def validateTaskPackage {ν : Type} [Number ν] (rt : Runtime) (value : Json ν) :
    Except String MeshTaskPackage :=
  match value with
  | .obj members =>
      let get k := lookupEntry k members
      if ((Json.stringify value).map utf16Size).sum > maxTaskPackageBytes then
        .error "taskPackage exceeds 4096 bytes"
      else if !hasExactKeys members exactKeys then
        .error "taskPackage must have exactly: task, goalAcceptance, paths, branchBase, reply"
      else
        match text (get "task") 128 with
        | none => .error "task must match [A-Za-z0-9][A-Za-z0-9._:/-]\x7b0,127\x7d"
        | some task =>
        if !isTaskId task then .error "task must match [A-Za-z0-9][A-Za-z0-9._:/-]\x7b0,127\x7d"
        else
        match text (get "goalAcceptance") 1024 with
        | none => .error "goalAcceptance must be 1..1024 chars"
        | some goalAcceptance =>
        match get "paths" with
        | some (.arr items) =>
            if items.length = 0 ∨ items.length > maxTaskPaths then
              .error "paths must be an array of 1..32 entries"
            else
            match readPaths items [] with
            | none => .error "paths must be repo-relative (no absolute, no .., no backslash)"
            | some paths =>
            match get "branchBase" with
            | some (.obj bb) =>
                if !hasExactKeys bb ["branch", "base"] then
                  .error "branchBase must have exactly: branch, base"
                else
                match text (lookupEntry "branch" bb) 128, text (lookupEntry "base" bb) 256 with
                | none, _ => .error "branchBase.branch must be 1..128 chars"
                | _, none => .error "branchBase.base must be 1..256 chars"
                | some branch, some base =>
                match get "reply" with
                | some (.obj rep) =>
                    if !hasExactKeys rep ["to", "deadline", "format"] then
                      .error "reply must have exactly: to, deadline, format"
                    else
                    match text (lookupEntry "to" rep) 128 with
                    | none => .error "reply.to must be 1..128 chars"
                    | some replyTo =>
                    match (text (lookupEntry "deadline" rep) 64).bind rt.dateParse with
                    | none => .error "reply.deadline must be an ISO date-time"
                    | some ms =>
                    match text (lookupEntry "format" rep) 256 with
                    | none => .error "reply.format must be 1..256 chars"
                    | some format =>
                        .ok { task, goalAcceptance, paths, branch, base, replyTo,
                              deadline := rt.toISOString ms, format }
                | _ => .error "reply must have exactly: to, deadline, format"
            | _ => .error "branchBase must have exactly: branch, base"
        | _ => .error "paths must be an array of 1..32 entries"
  | _ => .error "taskPackage must be an object"

/-- `capTargetName`: the capability a `cap:<name>` target names. -/
def capTargetName (rt : Runtime) (target : String) : Option String :=
  let lower := rt.toLowerCase (trim target)
  if !startsWithString lower "cap:" then none
  else
    let name := trim (String.ofList (lower.toList.drop 4))
    if (normalizeCaps rt [name]).length = 1 then some name else none

/-- `checkCapSend`: the capability and its package, or the reason. -/
def checkCapSend {ν : Type} [Number ν] (rt : Runtime) (target : String) (pkg : Option (Json ν)) :
    Except String (String × MeshTaskPackage) :=
  match capTargetName rt target with
  | none => .error "not_a_cap_target"
  | some cap =>
      match pkg with
      | none => .error "task_package_required"
      | some value =>
          match validateTaskPackage rt value with
          | .error reason => .error s!"invalid_task_package: {reason}"
          | .ok pkg => .ok (cap, pkg)

end PiMesh
