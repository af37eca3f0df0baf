/-
The guards in front of a send.

`MeshGuards` stops what the broker would refuse, or should: a message to oneself, one from an
observer, the same message twice within ten seconds, and more messages in a minute than the
broker allows.  The caps are fixed windows, one for each kind, and an urgent or forced message
draws on its own and on that of ordinary messages.
-/
import PiMesh.Broker.State
import PiMesh.Client.Frames
import PiMesh.Lib.Transition

namespace PiMesh

open Js

def duplicateWindowMs : Int := 10000
def loopGuardKeyword : String := "mesh_send("
def loopGuardWarning : String := "loopGuard:matched"

structure GuardRateLimits where
  msgPerMin : Int := 30
  urgentPerMin : Int := 15
  forcePerMin : Int := 1
deriving DecidableEq

/-- `GuardInput`. -/
structure GuardedSend where
  sender : String
  target : String
  room : String
  body : String
  priority : MeshPriority := .normal
  role : Option MeshRole := none
deriving DecidableEq

inductive GuardResult where
  | ok (warnings : List String)
  | refused (reason : String) (warnings : List String)
deriving DecidableEq

def GuardResult.isOk : GuardResult → Bool
  | .ok _ => true
  | .refused _ _ => false

structure SlidingWindow where
  count : Nat
  windowStart : Int
deriving DecidableEq

structure MeshGuards where
  recent : Map String Int := .empty
  windows : Map RateKind SlidingWindow := .empty

namespace MeshGuards

/-- `capacity`. -/
def capacity (limits : GuardRateLimits) : RateKind → Int
  | .msg => limits.msgPerMin
  | .urgent => limits.urgentPerMin
  | .force => limits.forcePerMin

/-- The window of a kind at a time: the one that is kept, unless it is over. -/
def windowAt (windows : Map RateKind SlidingWindow) (kind : RateKind) (now : Int) : SlidingWindow :=
  match windows.get? kind with
  | some w => if rateBucketWindowMs ≤ now - w.windowStart then ⟨0, now⟩ else w
  | none => ⟨0, now⟩

/-- `consumeWindow`. -/
def consumeWindow (limits : GuardRateLimits) (windows : Map RateKind SlidingWindow)
    (kind : RateKind) (now : Int) : Bool × Map RateKind SlidingWindow :=
  let w := windowAt windows kind now
  if capacity limits kind ≤ w.count then (false, windows.set kind w)
  else (true, windows.set kind { w with count := w.count + 1 })

/-- `consume`. -/
def consume (limits : GuardRateLimits) (windows : Map RateKind SlidingWindow) (kind : RateKind)
    (now : Int) : Bool × Map RateKind SlidingWindow :=
  if kind = .msg then consumeWindow limits windows .msg now
  else
    match consumeWindow limits windows kind now with
    | (false, windows) => (false, windows)
    | (true, windows) => consumeWindow limits windows .msg now

/-- `pruneRecent`. -/
def pruneRecent (recent : Map String Int) (now : Int) : Map String Int :=
  if recent.size < 256 then recent
  else
    let old := recent.entries.filter fun e => duplicateWindowMs ≤ now - e.2
    (old.map Prod.fst).foldl Map.delete recent

/-- The key of a message in `recent`. -/
def dupKey (rt : Runtime) (input : GuardedSend) : String :=
  normalizeAlias rt input.target ++ "|" ++ input.room ++ "|" ++ rt.sha256 input.body

/-- The name of a kind in a reason. -/
def kindText : RateKind → String
  | .msg => "msg"
  | .urgent => "urgent"
  | .force => "force"

/-- `checkSend`, where `now()` answers `now`. -/
def checkSend (rt : Runtime) (limits : GuardRateLimits) (g : MeshGuards) (now : Int)
    (input : GuardedSend) : GuardResult × MeshGuards :=
  if normalizeAlias rt input.target = normalizeAlias rt input.sender then
    (.refused "self_send" [], g)
  else if input.role = some .observer then (.refused "observer_readonly" [], g)
  else if (g.recent.get? (dupKey rt input)).any fun last => now - last < duplicateWindowMs then
    (.refused "duplicate_in_window" [], g)
  else
    match consume limits g.windows (rateKind input.priority) now with
    | (false, windows) =>
        (.refused ("rate_limited:" ++ kindText (rateKind input.priority)) [], { g with windows })
    | (true, windows) =>
        let recent := pruneRecent (g.recent.set (dupKey rt input) now) now
        (.ok (if includesString input.body loopGuardKeyword then [loopGuardWarning] else []),
          { recent, windows })

end MeshGuards

/-- One call, at a time. -/
def GuardsStep (rt : Runtime) (limits : GuardRateLimits) (g : MeshGuards) (x : Int × GuardedSend)
    (g' : MeshGuards) : Prop :=
  (g.checkSend rt limits x.1 x.2).2 = g'

end PiMesh
