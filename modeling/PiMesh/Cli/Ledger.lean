/-
`mesh tail` and `mesh ledger`: the history, read from the current file and the rotated ones.

`readdirSync` lists the names of a directory in no order that is promised, so the listing is an
argument.  The pattern of the names lets digits only into a date, and what `Number` makes of the
digits behind the last dot is exact below 2 ^ 53, more files than a directory has.
-/
import PiMesh.Cli.Lease
import PiMesh.Extension.Append
import PiMesh.Js.Date
import Mathlib.Data.List.Sort

namespace PiMesh

open Js Files

def cliTailLines : Nat := 20
def cliLedgerMaxLimit : Nat := 200

/-- What a command writes, and its exit code. -/
structure CliRun where
  out : List String := []
  err : List String := []
  code : Nat
deriving DecidableEq

namespace LedgerCli

/-! ### Names -/

/-- `\d{4}-\d{2}-\d{2}`. -/
def isDatePart : List Char → Bool
  | [y₁, y₂, y₃, y₄, '-', m₁, m₂, '-', d₁, d₂] =>
      [y₁, y₂, y₃, y₄, m₁, m₂, d₁, d₂].all Char.isDigit
  | _ => false

/-- `(\.\d+)?`, up to the end. -/
def isNumberPart : List Char → Bool
  | [] => true
  | '.' :: digits => digits ≠ [] && digits.all Char.isDigit
  | _ => false

def namePart : List Char := "ledger-".toList
def kindPart : List Char := ".jsonl".toList

/-- `/^ledger-\d{4}-\d{2}-\d{2}\.jsonl(\.\d+)?$/`. -/
def isRotated (name : String) : Bool :=
  let l := name.toList
  l.take 7 == namePart && isDatePart ((l.drop 7).take 10) && (l.drop 17).take 6 == kindPart &&
    isNumberPart (l.drop 23)

/-- `Number(/\.(\d+)$/.exec(name)?.[1] ?? "-1")`. -/
def trailingNumber (name : String) : Int :=
  let back := name.toList.reverse
  match back.takeWhile Char.isDigit, back.dropWhile Char.isDigit with
  | [], _ => -1
  | digits, '.' :: _ => Nat.ofDigitChars 10 digits.reverse 0
  | _, _ => -1

/-- What `compare` says is at most zero. -/
def comesBefore (a b : String) : Prop :=
  if trailingNumber a ≠ trailingNumber b then trailingNumber a ≤ trailingNumber b else a ≤ b

instance (a b : String) : Decidable (comesBefore a b) := by
  unfold comesBefore
  infer_instance

variable {ν : Type}

/-- `ledgerFiles`. -/
def ledgerFiles (listing : List String) (dir : Dir (List Char)) : List String :=
  (listing.filter isRotated).insertionSort comesBefore ++
    if dir.has ledgerFileName then [ledgerFileName] else []

/-! ### Lines -/

variable [Number ν]

/-- What one line gives. -/
def readLine (line : List Char) : Option (Json ν) :=
  let t := trim (String.ofList line)
  if t = "" then none else Json.parse t.toList

/-- The lines of a file that cannot be read are skipped. -/
def readFile (dir : Dir (List Char)) (name : String) : List (Json ν) :=
  match dir.get? name with
  | none => []
  | some lines => (splitChars '\n' lines.flatten).filterMap readLine

def readLines (dir : Dir (List Char)) (files : List String) : List (Json ν) :=
  files.flatMap (readFile dir)

/-- `l.slice(-n)`, for a positive `n`. -/
def newest {α : Type} (n : Nat) (l : List α) : List α := l.drop (l.length - n)

/-- `JSON.stringify(l)`. -/
def shown (l : Json ν) : String := String.ofList (Json.stringify l)

/-! ### Commands -/

/-- `Number(limitRaw)`, if it is an integer within the bounds. -/
def limitOf (max : Nat) (limitRaw : String) : Option Nat :=
  (numberInteger limitRaw.toList).bind fun n =>
    if n < 1 ∨ n > max then none else some n.toNat

/-- The limit a command takes, or its usage error. -/
def tailLimit (max : Nat) (limitRaw : Option String) : Except String Nat :=
  match limitRaw with
  | none => .ok cliTailLines
  | some raw =>
      match limitOf max raw with
      | none => .error s!"invalid --limit \"{raw}\" (1..{max})"
      | some n => .ok n

variable (ν) in
def cmdTail (listing : List String) (dir : Dir (List Char)) (limitRaw : Option String) : CliRun :=
  match tailLimit cliLedgerMaxLimit limitRaw with
  | .error text => { err := [text], code := exitUsage }
  | .ok limit =>
      let files := ledgerFiles listing dir
      if files.length = 0 then { out := ["(no ledger)"], code := exitOk }
      else
        let lines : List (Json ν) := newest limit (readLines dir files)
        { out := (if lines.length = 0 then ["(no ledger)"] else []) ++ lines.map shown,
          code := exitOk }

structure LedgerFilters where
  limit : Int
  /-- `from`. -/
  sender : Option String := none
  /-- `to`. -/
  recipient : Option String := none
  room : Option String := none
  event : Option String := none

/-- `want === undefined || l[key] === want`; no field of `null` can be read. -/
def hasField (l : Json ν) (key : String) : Option String → Option Bool
  | none => some true
  | some want =>
      match l with
      | .null => none
      | .obj members => some ((getOf members key).bind asStr == some want)
      | _ => some false

/-- `matches`, or nothing where it throws. -/
def matchesFilters (l : Json ν) (f : LedgerFilters) : Option Bool := do
  if ← hasField l "from" f.sender then
    if ← hasField l "to" f.recipient then
      if ← hasField l "room" f.room then
        hasField l "event" f.event
      else return false
    else return false
  else return false

/-- The lines that match. -/
def select (f : LedgerFilters) : List (Json ν) → Option (List (Json ν))
  | [] => some []
  | l :: rest => do
      let keep ← matchesFilters l f
      let kept ← select f rest
      return if keep then l :: kept else kept

variable (ν) in
/-- `cmdLedger`, or nothing where it throws. -/
def cmdLedger (listing : List String) (dir : Dir (List Char)) (filters : LedgerFilters)
    (asJson : Bool) : Option CliRun :=
  if filters.limit < 1 ∨ filters.limit > cliLedgerMaxLimit then
    some { err := ["invalid --limit (1..200)"], code := exitUsage }
  else do
    let all : List (Json ν) ← select filters (readLines dir (ledgerFiles listing dir))
    let selected := newest filters.limit.toNat all
    if selected.length = 0 then
      return { out := if asJson then [] else ["(no matching ledger records)"], code := exitOk }
    else return { out := selected.map shown, code := exitOk }

end LedgerCli

end PiMesh
