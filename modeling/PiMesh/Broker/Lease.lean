/-
One-writer task leases with an epoch fence.

`LeaseTable` asks the clock anew for every liveness test, so a call takes a clock
`Nat → Int` that answers its first, second, third question; nothing relates one
answer to the next.  An expiry is kept as the instant its ISO text denotes.

The epoch file holds the last epoch in decimal.  `readEpoch` reads it the way
`Number.parseInt` does, and `nextEpoch` writes the successor back.
-/
import PiMesh.Protocol.Types
import Mathlib.Data.List.Sort

namespace PiMesh

open Js

structure LeaseRecord where
  leaseId : String
  task : String
  owner : String
  paths : List String
  fence : Nat
  epoch : Int
  grantedAt : String
  expiresAt : Int
deriving DecidableEq

inductive ClaimOutcome where
  | granted (lease : LeaseRecord) (reused : Bool)
  | held (holder : String)
  | invalid (reason : String)
deriving DecidableEq

inductive ReleaseOutcome where
  | released (lease : LeaseRecord)
  | notHeld
deriving DecidableEq

/-! ### The epoch file -/

/-- The number the digits at the front of a text denote, if there are any. -/
def leadingDigits (l : List Char) : Option Nat :=
  if (l.takeWhile Char.isDigit).isEmpty then none
  else some (Nat.ofDigitChars 10 (l.takeWhile Char.isDigit) 0)

/-- `Number.parseInt(raw, 10)`: a sign and the digits that follow, `none` for `NaN`. -/
def parseInt (raw : List Char) : Option Int :=
  match raw.dropWhile isTrimmed with
  | '-' :: r => (leadingDigits r).map fun n => -Int.ofNat n
  | '+' :: r => (leadingDigits r).map Int.ofNat
  | r => (leadingDigits r).map Int.ofNat

/-- `readEpoch`: the persisted epoch, 0 where the file is absent or holds no positive one. -/
def readEpoch (file : Option String) : Int :=
  match file with
  | none => 0
  | some content =>
      match parseInt (trim content).toList with
      | some n => if 0 < n then n else 0
      | none => 0

/-- The content `nextEpoch` writes. -/
def epochText (epoch : Int) : String := String.ofList (integerText epoch ++ ['\n'])

/-- `nextEpoch`: the epoch of a new broker, and what it leaves in the file. -/
def nextEpoch (file : Option String) (now : Int) : Int × String :=
  let next := max (readEpoch file + 1) now
  (next, epochText next)

/-! ### The table -/

structure LeaseTable where
  epoch : Int
  byTask : Map String LeaseRecord := Map.empty
  counter : Nat := 0

namespace LeaseTable

/-- `isLive`, with the clock reading it makes. -/
def isLive (now : Int) (lease : LeaseRecord) : Bool := now < lease.expiresAt

/-- `prune`: one clock reading per lease, in the order of the map. -/
def prune (t : LeaseTable) (clock : Nat → Int) : LeaseTable :=
  let dead := (t.byTask.entries.zipIdx.filter fun e => !isLive (clock e.2) e.1.2).map fun e => e.1.1
  { t with byTask := dead.foldl Map.delete t.byTask }

/-- `get`: an expired lease is dropped on sight. -/
def get (t : LeaseTable) (clock : Nat → Int) (task : String) : Option LeaseRecord × LeaseTable :=
  match t.byTask.get? task with
  | none => (none, t)
  | some lease =>
      if isLive (clock 0) lease then (some lease, t)
      else (none, { t with byTask := t.byTask.delete task })

/-- `claim`; `leaseId` and `grantedAt` are what `makeMsgId` and `nowIso` return. -/
def claim (t : LeaseTable) (clock : Nat → Int) (leaseId grantedAt : String) (task owner : String)
    (paths : List String) (ttlMs : Int) : ClaimOutcome × LeaseTable :=
  if trim task = "" then (.invalid "task is required", t)
  else if paths.length = 0 then (.invalid "paths is required", t)
  else if ttlMs < minLeaseTtlMs ∨ ttlMs > maxLeaseTtlMs then
    (.invalid "ttlMs must be 1000..86400000", t)
  else
    let pruned := t.prune clock
    match pruned.byTask.get? task with
    | some existing =>
        if existing.owner ≠ owner then (.held existing.owner, pruned)
        else (.granted existing true, pruned)
    | none =>
        let lease : LeaseRecord :=
          { leaseId, task, owner, paths, fence := pruned.counter + 1, epoch := t.epoch, grantedAt
            expiresAt := clock t.byTask.size + ttlMs }
        (.granted lease false,
          { pruned with byTask := pruned.byTask.set task lease, counter := pruned.counter + 1 })

def release (t : LeaseTable) (clock : Nat → Int) (task owner leaseId : String) :
    ReleaseOutcome × LeaseTable :=
  match t.get clock task with
  | (none, t') => (.notHeld, t')
  | (some lease, t') =>
      if lease.owner ≠ owner ∨ lease.leaseId ≠ leaseId then (.notHeld, t')
      else (.released lease, { t' with byTask := t'.byTask.delete task })

/-- `snapshot`: what is live, sorted by task. -/
def snapshot (rt : Runtime) (t : LeaseTable) (clock : Nat → Int) : List LeaseRecord × LeaseTable :=
  let t' := t.prune clock
  (t'.byTask.values.insertionSort fun a b => rt.localeCompare a.task b.task ≠ .gt, t')

/-- `verify`: is this the lease that holds the task? -/
def verify (t : LeaseTable) (clock : Nat → Int) (task owner : String) (epoch : Int) (fence : Nat) :
    Bool × LeaseTable :=
  match t.get clock task with
  | (none, t') => (false, t')
  | (some lease, t') =>
      (lease.owner == owner && lease.epoch == epoch && lease.fence == fence, t')

end LeaseTable

end PiMesh
