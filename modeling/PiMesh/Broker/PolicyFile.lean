/-
`policy.json`.

A document that is missing or is no object gives the permissive default, and so does an
allow list without a rule in it; a rule's field that is not a string constrains nothing.
-/
import PiMesh.Broker.Policy
import PiMesh.Js.Text
import PiMesh.Protocol.Envelope

namespace PiMesh

open Js

/-- Numbers with `Math.floor`. -/
class FloorNumber (ν : Type) extends Number ν where
  /-- `Math.floor` of a finite number. -/
  floor : ν → Int

instance : FloorNumber Int := { (inferInstance : Number Int) with floor := id }

variable {ν : Type} [FloorNumber ν]

/-- The items of an array; anything else has none. -/
def itemsOf : Option (Json ν) → List (Json ν)
  | some (.arr items) => items
  | _ => []

/-- One item of `parseRules`. -/
def parseRule : Json ν → Option PolicyRule
  | .obj r => some
      { sender := (getOf r "from").bind asStr
        recipient := (getOf r "to").bind asStr
        room := (getOf r "room").bind asStr }
  | _ => none

def parseRules (value : Option (Json ν)) : List PolicyRule := (itemsOf value).filterMap parseRule

/-- `posInt` of `loadPolicy`; a number is positive when its floor is not negative and it is
not zero. -/
def posInt (value : Option (Json ν)) (d : ℚ) : ℚ :=
  match value with
  | some (.num v) =>
      if Number.isFinite v && decide (0 ≤ FloorNumber.floor v) &&
          decide (Number.toInteger? v ≠ some 0)
      then (FloorNumber.floor v : ℚ) else d
  | _ => d

/-- The policy an object describes. -/
def policyOf (p : Members ν) : MeshPolicy :=
  let allow := parseRules (getOf p "allow")
  let limits := fun key =>
    match getOf p "rateLimits" with
    | some (.obj rl) => getOf rl key
    | _ => none
  let defaults : RateLimits := {}
  { allow := if allow = [] then [⟨some "*", some "*", some "*"⟩] else allow
    deny := parseRules (getOf p "deny")
    forceAllowedFrom := (itemsOf (getOf p "forceAllowedFrom")).filterMap asStr
    forceDowngrade := isTrue (getOf p) "forceDowngrade"
    rateLimits :=
      { msgPerMin := posInt (limits "msgPerMin") defaults.msgPerMin
        urgentPerMin := posInt (limits "urgentPerMin") defaults.urgentPerMin
        forcePerMin := posInt (limits "forcePerMin") defaults.forcePerMin } }

variable (ν) in
/-- `loadPolicy`, of what the file holds; nothing where it cannot be read. -/
def loadPolicy (file : Option (List Char)) : MeshPolicy :=
  match file.bind (Json.parse (ν := ν)) with
  | some (.obj p) => policyOf p
  | _ => {}

end PiMesh
