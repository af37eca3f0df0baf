/-
`mesh send`, up to its call of `client.send`.

The validation table comes first: what it refuses is a usage error, and nothing is sent.  What
passes is handed to the client, the comma-separated options split by `csvParts`.
-/
import PiMesh.Cli.Lease
import PiMesh.Client.Requests

namespace PiMesh

open Js

def cliSendTimeoutMs : Int := 30000

/-- `s.replace(/^@/, "")`. -/
def stripAt (s : String) : String :=
  match s.toList with
  | '@' :: rest => String.ofList rest
  | _ => s

/-- `raw.split(",").map((p) => p.trim())`. -/
def csvPieces (raw : String) : List String :=
  (splitChars ',' raw.toList).map fun piece => trim (String.ofList piece)

/-- `csvParts`. -/
def csvParts (rt : Runtime) (raw : String) : List String :=
  ((csvPieces raw).map fun p => rt.toLowerCase (stripAt p)).filter fun p => p != ""

/-! ### The validation table -/

/-- `Validation`: nothing, or the usage error. -/
abbrev Validation := Except String Unit

def validateAlias (name : String) : Validation :=
  if isValidAlias name then .ok ()
  else .error s!"invalid alias \"{name}\" (expected /^[a-z][a-z0-9-]\x7b1,31\x7d$/)"

/-- An unsigned decimal literal as it is written; none for what is no number, or far too large. -/
def decimalValue (l : List Char) : Option Rat := do
  let (mantissa, exponent) ← decimalParts l
  if mantissa = 0 ∨ exponent < -(400 + l.length : Int) then some 0
  else if 308 < exponent then none
  else if 0 ≤ exponent then some (mkRat (mantissa * 10 ^ exponent.toNat) 1)
  else some (mkRat mantissa (10 ^ (-exponent).toNat))

/-- A positive number rounded to the nearest double, ties to even; none where that is infinite. -/
def nearestDouble (q : Rat) : Option Rat :=
  let log : Int := Nat.log2 q.num.natAbs - Nat.log2 q.den
  -- the exponent of the leading bit, and of the last of 53
  let lead := if q < (2 : Rat) ^ log then log - 1 else log
  let ulp := (2 : Rat) ^ max (lead - 52) (-1074)
  let units := q / ulp
  let below := units.floor
  let rest := units - below
  let rounded := if rest < 1 / 2 ∨ (rest = 1 / 2 ∧ below % 2 = 0) then below else below + 1
  let value := rounded * ulp
  if value < 2 ^ doubleExponent then some value else none

/-- `Number(raw)`, where it is finite. -/
def toNumber (raw : List Char) : Option Rat :=
  match (trim (String.ofList raw)).toList with
  | [] => some 0
  | '0' :: 'x' :: r | '0' :: 'X' :: r => (digitsIn 16 r).bind fun n => nearestDouble n
  | '0' :: 'o' :: r | '0' :: 'O' :: r => (digitsIn 8 r).bind fun n => nearestDouble n
  | '0' :: 'b' :: r | '0' :: 'B' :: r => (digitsIn 2 r).bind fun n => nearestDouble n
  | '+' :: r => (decimalValue r).bind nearestDouble
  | '-' :: r => ((decimalValue r).bind nearestDouble).map fun q => -q
  | r => (decimalValue r).bind nearestDouble

/-- `validateTimeoutMs`. -/
def validateTimeoutMs (raw : String) : Except String Int :=
  match toNumber raw.toList with
  | none => .error s!"invalid --timeout \"{raw}\" (not a number)"
  | some q =>
      if q.den ≠ 1 then .error s!"invalid --timeout \"{raw}\" (not an integer)"
      else if q.num < minAwaitReplyTimeoutMs ∨ q.num > maxAwaitReplyTimeoutMs then
        .error "--timeout out of bounds: 25..1800000 ms"
      else .ok q.num

example : validateTimeoutMs "25.5" = .error "invalid --timeout \"25.5\" (not an integer)" ∧
    validateTimeoutMs "1e400" = .error "invalid --timeout \"1e400\" (not a number)" ∧
    validateTimeoutMs "3e4" = .ok 30000 := by decide +kernel

def validateBody (body : String) : Validation :=
  let bytes := byteLength body.toList
  if bytes < 1 then .error "message body is empty"
  else if bytes > maxBodyBytes then .error s!"message body is {bytes}B (max 32768B)"
  else .ok ()

/-- The check of one ref. -/
def validateRef (p : String) : Validation :=
  if strLength p > maxRefChars then .error s!"ref too long: \"{p}\" (max 256 chars)"
  else if startsWithString p "/" || includesString p ".." || startsWithString p "\\" then
    .error s!"ref must be repo-relative: \"{p}\""
  else .ok ()

/-- The parts of a list of refs as they are written: trimmed, and not empty. -/
def refParts (raw : String) : List String := (csvPieces raw).filter fun p => p != ""

/-- `validateRefsCsv`. -/
def validateRefsCsv (raw : String) : Validation :=
  let parts := refParts raw
  if parts.length = 0 then .error "--refs is empty"
  else if parts.length > maxRefs then .error s!"too many refs: {parts.length} (max 8)"
  else parts.forM validateRef

/-- `validateReplyToCsv`. -/
def validateReplyToCsv (rt : Runtime) (raw : String) : Validation :=
  let parts := refParts raw
  if parts.length = 0 then .error "--reply-to is empty"
  else if parts.length > maxReplyTargets then
    .error s!"too many reply targets: {parts.length} (max 8)"
  else parts.forM fun p => validateAlias (rt.toLowerCase (stripAt p))

/-! ### The command -/

structure SendArgs where
  /-- `to`. -/
  recipient : Option String := none
  text : String
  room : Option String := none
  priority : Option String := none
  reason : Option String := none
  interrupt : Bool := false
  refsCsv : Option String := none
  replyToCsv : Option String := none
  broadcast : Bool := false
  awaitReply : Bool := false
  launch : Bool := false
  timeoutMs : Option String := none
  /-- `alias`. -/
  name : Option String := none
deriving DecidableEq

/-- `reason === undefined || reason === ""`. -/
def noReason (args : SendArgs) : Bool := args.reason.all String.isEmpty

/-- `cmdSend`: what it passes to `client.send`, or the usage error. -/
def cmdSend (rt : Runtime) (args : SendArgs) : Except String SendOpts := do
  validateBody args.text
  args.recipient.forM fun name => validateAlias (rt.toLowerCase (stripAt name))
  let priority := args.priority.bind MeshPriority.ofText?
  args.priority.forM fun text =>
    if priority.isNone then throw s!"invalid --priority \"{text}\" (normal|urgent|force)"
    else pure ()
  if priority = some .force && noReason args then
    throw "--priority force requires --reason (hashed, never persisted)"
  if args.interrupt && (decide (priority ≠ some .force) || noReason args) then
    throw "--interrupt requires --priority force and --reason (last-resort unblocking lever)"
  args.refsCsv.forM validateRefsCsv
  args.replyToCsv.forM (validateReplyToCsv rt)
  args.name.forM fun name => validateAlias (rt.toLowerCase (stripAt name))
  let timeout ← match args.timeoutMs with
    | none => pure cliSendTimeoutMs
    | some raw => validateTimeoutMs raw
  if args.awaitReply && args.launch then
    throw "--await and --launch are mutually exclusive"
  return {
    recipient := args.recipient
    message := args.text
    room := args.room
    priority
    reason := args.reason
    interrupt := args.interrupt
    refs := args.refsCsv.map (csvParts rt)
    replyTo := args.replyToCsv.map (csvParts rt)
    broadcast := args.broadcast
    awaitReply := args.awaitReply || args.launch
    block := if args.launch then some false else none
    timeoutMs := if args.launch then none else some timeout }

end PiMesh
