/-
Named bounds, patterns and the configuration the broker reads.

Every bound is the constant of `shared/config.ts` with the same name.  A pattern is
a test on the characters of a string; they are anchored at both ends and use ASCII
classes only, so counting characters and counting UTF-16 units agree on whatever
they accept.

`Runtime` gathers what the program takes from outside its own source: the digest of
`node:crypto`, the date and case tables of the engine, the collation order and the
stream of message ids.  Nothing is assumed of them here.
-/
import PiMesh.Js.Text

namespace PiMesh

/-- What the program calls and does not define. -/
structure Runtime where
  /-- `sha256(data)`, in hexadecimal. -/
  sha256 : String → String
  /-- `Date.parse(s)`, `none` for `NaN`. -/
  dateParse : String → Option Int
  /-- `new Date(ms).toISOString()`. -/
  toISOString : Int → String
  /-- `s.toLowerCase()`. -/
  toLowerCase : String → String
  /-- `a.localeCompare(b)`. -/
  localeCompare : String → String → Ordering
  /-- The ids `makeMsgId()` returns, in the order of the calls. -/
  makeMsgId : Nat → String

/-! ### Bounds -/

def maxBodyBytes : Nat := 32768
def maxFrameIdChars : Nat := 64
def maxRefs : Nat := 8
def maxRefChars : Nat := 256
def maxReplyTargets : Nat := 8
def maxPeersPerRoom : Nat := 64
def defaultRoom : String := "default"
def defaultMaxFrameBytes : Nat := 65536
def rateBucketWindowMs : Int := 60000
def protoVersion : Int := 2
def maxCaps : Nat := 16
def maxCapChars : Nat := 32
def maxTaskPackageBytes : Nat := 4096
def maxTaskPaths : Nat := 32
def minLeaseTtlMs : Int := 1000
def maxLeaseTtlMs : Int := 24 * 60 * 60 * 1000
def defaultLeaseTtlMs : Int := 6 * 60 * 60 * 1000
def ctlPendingTtlMs : Int := 60000
def maxCtlTargetChars : Nat := 128

/-! ### Patterns -/

def isLowerOrDigit (c : Char) : Bool := c.isLower || c.isDigit

/-- `ALIAS_REGEX`: `^[a-z][a-z0-9-]{1,31}$`. -/
def isValidAlias (name : String) : Bool :=
  match name.toList with
  | [] => false
  | c :: rest =>
      c.isLower && rest.all (fun c => isLowerOrDigit c || c == '-') &&
        (1 ≤ rest.length && rest.length ≤ 31)

/-- `ROOM_REGEX`: `^[a-z0-9][a-z0-9.-]{0,63}$`. -/
def isValidRoom (room : String) : Bool :=
  match room.toList with
  | [] => false
  | c :: rest =>
      isLowerOrDigit c && rest.all (fun c => isLowerOrDigit c || c == '.' || c == '-') &&
        rest.length ≤ 63

/-- `SHA256_HEX_REGEX`: `^[0-9a-f]{64}$`. -/
def isSha256Hex (s : String) : Bool :=
  s.toList.length == 64 && s.toList.all (fun c => c.isDigit || ('a' ≤ c && c ≤ 'f'))

/-- `CAP_REGEX`: `^[a-z0-9][a-z0-9._-]*$`. -/
def isCapName (s : String) : Bool :=
  match s.toList with
  | [] => false
  | c :: rest =>
      isLowerOrDigit c && rest.all (fun c => isLowerOrDigit c || c == '.' || c == '_' || c == '-')

/-- `CTL_TARGET_REGEX`: `^[A-Za-z0-9][A-Za-z0-9._:-]*$`. -/
def isCtlTarget (s : String) : Bool :=
  match s.toList with
  | [] => false
  | c :: rest =>
      c.isAlphanum && rest.all (fun c => c.isAlphanum || c == '.' || c == '_' || c == ':' || c == '-')

/-- `TASK_ID_REGEX`: a letter or digit, then up to 127 of those, dots, underscores,
colons, slashes and dashes. -/
def isTaskId (s : String) : Bool :=
  match s.toList with
  | [] => false
  | c :: rest =>
      c.isAlphanum && rest.length ≤ 127 &&
        rest.all (fun c => c.isAlphanum || c == '.' || c == '_' || c == ':' || c == '/' || c == '-')

/-- Consume characters one class at a time; what is left, if all of them match. -/
def matchClasses : List (Char → Bool) → List Char → Option (List Char)
  | [], l => some l
  | _ :: _, [] => none
  | p :: ps, c :: l => if p c then matchClasses ps l else none

/-- The zone at the end of an ISO date: `(Z|[+-]\d{2}:?\d{2})$`. -/
def isIsoZone : List Char → Bool
  | ['Z'] => true
  | [s, a, b, c, d] => (s == '+' || s == '-') && [a, b, c, d].all Char.isDigit
  | [s, a, b, ':', c, d] => (s == '+' || s == '-') && [a, b, c, d].all Char.isDigit
  | _ => false

/-- `ISO_8601_REGEX`. -/
def isIso8601 (s : String) : Bool :=
  let d := Char.isDigit
  let is (x : Char) : Char → Bool := fun c => c == x
  match matchClasses [d, d, d, d, is '-', d, d, is '-', d, d, is 'T', d, d, is ':', d, d, is ':', d, d]
      s.toList with
  | none => false
  | some rest =>
      match rest with
      | '.' :: frac =>
          !(frac.takeWhile Char.isDigit).isEmpty && isIsoZone (frac.dropWhile Char.isDigit)
      | _ => isIsoZone rest

/-! ### Capabilities -/

/-- `normalizeCaps`: lower-case, drop what is not a capability name, dedupe and bound. -/
def normalizeCaps (rt : Runtime) (input : List String) : List String :=
  -- the loop stops once `MAX_CAPS` names are in `out`; the flag says it did
  let step (acc : List String × Bool) (raw : String) : List String × Bool :=
    if acc.2 then acc
    else
      let cap := rt.toLowerCase (Js.trim raw)
      if Js.strLength cap = 0 ∨ Js.strLength cap > maxCapChars ∨ isCapName cap = false then acc
      else
        let out := if cap ∈ acc.1 then acc.1 else acc.1 ++ [cap]
        (out, decide (out.length ≥ maxCaps))
  (input.foldl step ([], false)).1

/-! ### Configuration -/

/-- The fields of `MeshConfig` the broker reads. -/
structure MeshConfig where
  maxFrameBytes : Nat := defaultMaxFrameBytes
  brokerSilenceMs : Int := 45000
  mailboxCap : Nat := 100
  mailboxTtlMs : Int := 3600000
  maxRoomsPerPeer : Nat := 16
  reservationTtlMs : Int := 21600000
  brokerToken : Option String := none
  /-- The TCP listener speaks TLS. -/
  tls : Bool := false

end PiMesh
