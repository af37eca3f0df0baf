/-
The lease trailer of a commit, from the printer to the hook.

`formatLeaseTrailer` prints a lease, `parseLeaseTrailer` reads one with a regular
expression, and the `commit-msg` hook takes it apart with `grep`, `cut` and `tr` and hands
the pieces to `pimesh lease verify`, which asks the broker.  Texts are lists of
characters.  The regular expression starts a line after any line terminator of JavaScript,
and `grep` after a newline only; so a text is cut at newlines first, and its lines at the
other terminators where the regular expression looks at them.

A commit message holds no NUL, which git refuses and `grep` would take for a binary file.
`lease verify` takes its numbers with `Number`, whose reading of a decimal text is exact
here.
-/
import PiMesh.Client.Control
import PiMesh.Broker.Broker

namespace PiMesh

open Js

/-! ### The trailer -/

structure LeaseRef where
  task : String
  leaseId : String
  epoch : Int
  fence : Int
deriving DecidableEq

def trailerKey : List Char := "Mesh-Lease:".toList

/-- `formatLeaseTrailer`. -/
def formatLeaseTrailer (ref : LeaseRef) : List Char :=
  trailerKey ++ ' ' :: ref.task.toList ++ '#' :: ref.leaseId.toList ++
    '#' :: integerText ref.epoch ++ ':' :: integerText ref.fence

/-- `[ \t]`. -/
def isTabOrSpace (c : Char) : Bool := c == ' ' || c == '\t'

/-- A line terminator of a regular expression other than the newline. -/
def isOtherTerminator (c : Char) : Bool :=
  c == '\r' || c == Char.ofNat 0x2028 || c == Char.ofNat 0x2029

/-- `\d{1,16}`, read as a number. -/
def shortNumber (l : List Char) : Option Int :=
  if isDigits l ∧ l.length ≤ 16 then some (Nat.ofDigitChars 10 l 0) else none

/-- What stands before the first `sep` and what after it, if there is one. -/
def cutAt (sep : Char) (l : List Char) : Option (List Char × List Char) :=
  match l.dropWhile (· != sep) with
  | [] => none
  | _ :: rest => some (l.takeWhile (· != sep), rest)

/-- The match of `TRAILER_RE` on one line. -/
def trailerOf (line : List Char) : Option LeaseRef := do
  let rest ← if trailerKey.isPrefixOf line then some (line.drop trailerKey.length) else none
  let (task, rest) ← cutAt '#' (rest.dropWhile isTabOrSpace)
  let (leaseId, rest) ← cutAt '#' rest
  let (epoch, rest) ← cutAt ':' rest
  let fence := rest.takeWhile Char.isDigit
  let epoch ← shortNumber epoch
  let fence' ← shortNumber fence
  if isTaskId (String.ofList task) ∧ lengthIn 1 128 (String.ofList leaseId) = true ∧
      (leaseId.all fun c => !isTrimmed c) ∧ (rest.drop fence.length).all isTabOrSpace then
    some { task := String.ofList task, leaseId := String.ofList leaseId, epoch, fence := fence' }
  else none

/-- The pieces of a line between the terminators a regular expression sees in it. -/
def splitTerminators : List Char → List (List Char)
  | [] => [[]]
  | c :: rest =>
      if isOtherTerminator c then [] :: splitTerminators rest
      else
        match splitTerminators rest with
        | [] => [[c]]
        | piece :: pieces => (c :: piece) :: pieces

/-- `parseLeaseTrailer`, on the lines between newlines: the first match. -/
def parseTrailerLines (lines : List (List Char)) : Option LeaseRef :=
  (lines.flatMap splitTerminators).findSome? trailerOf

/-- `parseLeaseTrailer`. -/
def parseLeaseTrailer (text : List Char) : Option LeaseRef :=
  parseTrailerLines (splitChars '\n' text)

/-! ### `lease verify` -/

def exitOk : Nat := 0
def exitMeshFailure : Nat := 1
def exitUsage : Nat := 2
def exitLeaseStale : Nat := 5

inductive FenceVerdict where
  | ok | stale | unavailable
deriving DecidableEq

/-- `fenceVerdict`. -/
def fenceVerdict (res : LeaseResult) (ref : LeaseRef) : FenceVerdict :=
  match res with
  | .error _ => .unavailable
  | .current lease =>
      if lease.leaseId ≠ ref.leaseId then .stale
      else if lease.epoch ≠ ref.epoch ∨ lease.fence ≠ ref.fence then .stale
      else .ok
  | _ => .stale

/-- `cmdLeaseVerify`, with what `leaseStatus` resolves to. -/
def cmdLeaseVerify (leaseStatus : String → LeaseResult) (args : LeaseRef) : Nat :=
  match fenceVerdict (leaseStatus args.task) args with
  | .ok => exitOk
  | .stale => exitLeaseStale
  | .unavailable => exitMeshFailure

/-- The value of digits in a base up to 16. -/
def digitsIn (base : Nat) (l : List Char) : Option Nat :=
  if l.isEmpty then none
  else l.foldl (fun acc c => do
    let n ← acc
    let d ← Json.hexValue c
    if d < base then some (n * base + d) else none) (some 0)

/-- An unsigned decimal literal: its digits without the point, and the power of ten. -/
def decimalParts (l : List Char) : Option (Nat × Int) := do
  let whole := l.takeWhile Char.isDigit
  let rest := l.drop whole.length
  let (fraction, rest) := match rest with
    | '.' :: r => (r.takeWhile Char.isDigit, r.dropWhile Char.isDigit)
    | r => ([], r)
  if whole.isEmpty ∧ fraction.isEmpty then none
  else
    let mantissa := Nat.ofDigitChars 10 (whole ++ fraction) 0
    match rest with
    | [] => some (mantissa, -fraction.length)
    | c :: r =>
        if c = 'e' ∨ c = 'E' then
          let (sign, digits) : Int × List Char := match r with
            | '-' :: ds => (-1, ds)
            | '+' :: ds => (1, ds)
            | ds => (1, ds)
          if isDigits digits then
            some (mantissa, sign * Nat.ofDigitChars 10 digits 0 - fraction.length)
          else none
        else none

/-- A finite double is below two to this power. -/
def doubleExponent : Nat := 1024

/-- The integer a decimal literal denotes; none where it is a fraction or no finite number. -/
def decimalInteger (l : List Char) : Option Int := do
  let (mantissa, exponent) ← decimalParts l
  if mantissa = 0 then some 0
  else if 308 < exponent then none
  else if 0 ≤ exponent then
    let n := mantissa * 10 ^ exponent.toNat
    if n < 2 ^ doubleExponent then some n else none
  else if mantissa % 10 ^ (-exponent).toNat = 0 then
    let n := mantissa / 10 ^ (-exponent).toNat
    if n < 2 ^ doubleExponent then some n else none
  else none

/-- `Number(raw)`, where it is an integer. -/
def numberInteger (raw : List Char) : Option Int :=
  match (trim (String.ofList raw)).toList with
  | [] => some 0
  | '0' :: 'x' :: r | '0' :: 'X' :: r => (digitsIn 16 r).map Int.ofNat
  | '0' :: 'o' :: r | '0' :: 'O' :: r => (digitsIn 8 r).map Int.ofNat
  | '0' :: 'b' :: r | '0' :: 'B' :: r => (digitsIn 2 r).map Int.ofNat
  | '+' :: r => decimalInteger r
  | '-' :: r => (decimalInteger r).map fun n => -n
  | r => decimalInteger r

/-- The values the hook passes to `pimesh lease verify`, each as it is written there. -/
structure VerifyArgs where
  task : List Char
  leaseId : List Char
  epoch : List Char
  fence : List Char
deriving DecidableEq

/-- `pimesh lease verify`: an option takes the next argument whatever it is. -/
def leaseVerify (leaseStatus : String → LeaseResult) (args : VerifyArgs) : Nat :=
  match numberInteger args.epoch, numberInteger args.fence with
  | some epoch, some fence =>
      if epoch < 1 ∨ fence < 1 then exitUsage
      else
        cmdLeaseVerify leaseStatus
          { task := String.ofList args.task, leaseId := String.ofList args.leaseId, epoch, fence }
  | _, _ => exitUsage

/-! ### The hook -/

/-- `cut -d'#' -f<n>`: a line without the delimiter is printed whole. -/
def cutField (n : Nat) (line : List Char) : List Char :=
  let fields := splitChars '#' line
  if fields.length ≤ 1 then line else fields.getD (n - 1) []

/-- `tr -d ' \t'`. -/
def deleteBlanks (l : List Char) : List Char := l.filter fun c => !isTabOrSpace c

/-- `${s%%:*}`. -/
def beforeFirstColon (l : List Char) : List Char := l.takeWhile (· != ':')

/-- `${s##*:}`. -/
def afterLastColon (l : List Char) : List Char := (l.reverse.takeWhile (· != ':')).reverse

/-- `grep -m1 '^Mesh-Lease:'`. -/
def grepTrailer (text : List Char) : Option (List Char) :=
  (splitChars '\n' text).find? fun line => trailerKey.isPrefixOf line

/-- What the hook takes out of the line it found. -/
def hookArgs (line : List Char) : VerifyArgs :=
  let ref := line.drop trailerKey.length
  let rest := deleteBlanks (cutField 3 ref)
  { task := deleteBlanks (cutField 1 ref), leaseId := deleteBlanks (cutField 2 ref),
    epoch := beforeFirstColon rest, fence := afterLastColon rest }

/-- The values the hook hands to `lease verify`; nothing where it does not get that far. -/
def hookVerifies (text : List Char) : Option VerifyArgs :=
  match grepTrailer text with
  | none => none
  | some line =>
      let args := hookArgs line
      if args.task = [] ∨ args.leaseId = [] ∨ args.epoch = [] ∨ args.fence = [] then none
      else some args

/-- The `commit-msg` hook where `pimesh` is installed: whether the commit is accepted. -/
def commitMsg (pimesh : VerifyArgs → Nat) (text : List Char) : Bool :=
  match grepTrailer text with
  | none => true
  | some _ =>
      match hookVerifies text with
      -- a malformed trailer
      | none => false
      -- 0 and a broker that is unavailable let the commit pass
      | some args => pimesh args != exitLeaseStale

/-! ### The broker's answer -/

section Answer

variable {ν : Type} [Number ν] [DecidableEq ν]

/-- What `handleLeaseStatus` answers about a task. -/
def statusOpts (env : Env) (task : Option String) : Option LeaseRecord → BuildFrameOpts ν
  | none => { type := .lease, status := some "not_held", task := task, body := some "not_held" }
  | some l => leaseOpts env "current" "current" l

/-- The lease answer made of these options, as the client reads it. -/
def answerOf (id ts : String) (o : BuildFrameOpts ν) : Inbound ν :=
  { type := .lease, id, ts, replyTo := some id, status := o.status, task := o.task, owner := o.owner,
    leaseId := o.leaseId, fence := o.fence.map Int.ofNat, epoch := o.epoch, paths := o.paths,
    expiresAt := o.expiresAt, body := o.body }

/-- What `leaseStatus` resolves to where a broker with this table answers. -/
def brokerStatus (ν : Type) [Number ν] [DecidableEq ν] (env : Env) (table : LeaseTable) (now : Int) (id : String)
    (task : String) : LeaseResult :=
  leaseResult (answerOf (ν := ν) id (env.rt.toISOString now)
    (statusOpts env (some task) (table.get (fun _ => now) task).1))

theorem handleLeaseStatus_answers (env : Env) (now : Int) (st : BrokerState ν) (peer : PeerRecord ν)
    (frame : MeshFrame ν) :
    handleLeaseStatus env now st peer frame =
      sendLease env now { st with leases := (st.leases.get (fun _ => now) (frame.task.getD "")).2 }
        peer.toRef frame.id
        (statusOpts env frame.task (st.leases.get (fun _ => now) (frame.task.getD "")).1) := by
  unfold handleLeaseStatus
  dsimp only
  split
  · next heq => rw [heq]; rfl
  · next heq => rw [heq]; rfl

end Answer

end PiMesh
