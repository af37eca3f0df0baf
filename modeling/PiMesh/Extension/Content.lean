/-
What a session reads of its frames.

A frame becomes one text, compact or verbose; a burst becomes one message, which shows the
texts of its first twelve frames.  Whether a text ends in the full instruction how to reply
is for `ReplyHintTracker` to say, which remembers whom it has taught and when.

The host's time zone is the parameter `localTime`.  A frame keeps the number it arrived
under, so that two frames with one id can be told apart.
-/
import PiMesh.Extension.Inbound
import PiMesh.Client.Frames

namespace PiMesh

open Js

variable {ν : Type} [Number ν]

/-- A frame `inbound` was emitted for, with its `__replyChain` tag. -/
structure SessionFrame (ν : Type) where
  /-- How many came before it. -/
  no : Nat
  members : Members ν
  replyChain : Bool := false

/-- A member that is a text. -/
def textOf (frame : Members ν) (key : String) : Option String := (getOf frame key).bind asStr

/-- `FormatOpts`. -/
structure FormatOpts where
  replyChain : Bool := false
  verbose : Bool := false
  showReplyHint : Bool := true
  homeRoom : String := defaultRoom
deriving DecidableEq

/-! ### Hints -/

structure HintState where
  lastHintAt : Int
  count : Nat
deriving DecidableEq

def hintSilenceMs : Int := 1800000
def hintEvery : Nat := 20
def hintTrackerCap : Nat := 128

structure ReplyHintTracker where
  seen : Map String HintState := .empty

namespace ReplyHintTracker

/-- `shouldShow`. -/
def shouldShow (t : ReplyHintTracker) (now : Int) : Option String → Bool × ReplyHintTracker
  | none => (true, t)
  | some sender =>
      if sender = "" then (true, t)
      else
        match t.seen.get? sender with
        | none =>
            let seen := if hintTrackerCap ≤ t.seen.size then .empty else t.seen
            (true, ⟨seen.set sender ⟨now, 1⟩⟩)
        | some st =>
            let count := st.count + 1
            if hintSilenceMs ≤ now - st.lastHintAt ∨ count % hintEvery = 0 then
              (true, ⟨t.seen.set sender ⟨now, count⟩⟩)
            else (false, ⟨t.seen.set sender ⟨st.lastHintAt, count⟩⟩)

end ReplyHintTracker

/-! ### One frame -/

/-- `s.length > n ? s.slice(0, n - 1) + "…" : s`. -/
def clampText (s : String) (n : Nat) : String :=
  if strLength s > n then String.ofList (sliceFront (n - 1) s.toList) ++ "…" else s

/-- `taskPackageSummary`. -/
def taskPackageSummary (pkg : MeshTaskPackage) : String :=
  let more := if pkg.paths.length > 8 then s!" (+{pkg.paths.length - 8})" else ""
  "\n".intercalate
    ["[task " ++ clampText pkg.task 80 ++ "] " ++ clampText pkg.goalAcceptance 300,
      "paths: " ++ ", ".intercalate ((pkg.paths.take 8).map fun p => clampText p 80) ++ more,
      "branch: " ++ clampText pkg.branch 80 ++ " @ " ++ clampText pkg.base 80,
      "reply: " ++ clampText pkg.replyTo 60 ++ " by " ++ clampText pkg.deadline 40 ++ " — " ++
        clampText pkg.format 120]

/-- A task package as the interface types it. -/
def asTaskPackage (value : Json ν) : Option MeshTaskPackage := do
  let .obj pkg := value | none
  let .obj branchBase ← getOf pkg "branchBase" | none
  let .obj reply ← getOf pkg "reply" | none
  return { task := ← textOf pkg "task", goalAcceptance := ← textOf pkg "goalAcceptance",
           paths := ← (getOf pkg "paths").bind (asArr asStr), branch := ← textOf branchBase "branch",
           base := ← textOf branchBase "base", replyTo := ← textOf reply "to",
           deadline := ← textOf reply "deadline", format := ← textOf reply "format" }

/-- The lines of a task package, after the body. -/
def packageLines (frame : Members ν) : String :=
  match (getOf frame "taskPackage").bind asTaskPackage with
  | some pkg => "\n" ++ taskPackageSummary pkg
  | none => ""

/-- `replyTargets`, where there are any. -/
def designated (frame : Members ν) : Option (List String) :=
  ((getOf frame "replyTargets").bind (asArr asStr)).filter fun targets => !targets.isEmpty

/-- `frame.totalCount ?? "?"`. -/
def totalText (frame : Members ν) : String :=
  ((getOf frame "totalCount").bind coerceString).getD "?"

/-- `formatInboundContent` of a verbose session. -/
def formatVerbose (localTime : String → String) (frame : Members ν) (replyChain : Bool) : String :=
  let sender := (textOf frame "from").getD "?"
  let id := (textOf frame "id").getD "?"
  let body := (textOf frame "body").getD ""
  let fan := if isTrue (getOf frame) "broadcast" then ", broadcast"
    else if isTrue (getOf frame) "replyAll" then ", reply-all" else ""
  let lead := "[mesh] @" ++ sender ++ " (room " ++ (textOf frame "room").getD "default" ++ ", " ++
    (inboundPriority frame).text ++ fan ++ ", " ++ localTime ((textOf frame "ts").getD "") ++ ")"
  if frameType? frame = some .remind then
    let replyTo := (textOf frame "replyTo").getD id
    lead ++ " reminder: reply due for " ++ replyTo ++
      " — reply with the mesh_reply tool using msgId \"" ++ replyTo ++
      "\" (IGNORE this reminder if you ALREADY replied to this msgId)"
  else if frameType? frame = some .reply then
    lead ++ " reply to " ++ (textOf frame "replyTo").getD "?" ++ ": " ++ body ++
      (if replyChain then
        "\n↩ INFO ONLY (reply to a reply): reply ONLY if this is a question or " ++
          "new information — NEVER an acknowledgment; to react, use mesh_send (not mesh_reply)"
       else "\n↩ answer back with the mesh_reply tool using msgId \"" ++ id ++ "\"") ++
      (if isTrue (getOf frame) "replyAll" then " (this reply went to the whole room)" else "")
  else
    lead ++ " " ++ body ++ packageLines frame ++
      "\n↩ reply with the mesh_reply tool using msgId \"" ++ id ++ "\"" ++
      (match designated frame with
       | some targets => " (reply goes to @" ++ ", @".intercalate targets ++
           " — the sender designated these targets)"
       | none => "") ++
      (if isTrue (getOf frame) "broadcast" then
        " (broadcast to " ++ totalText frame ++
          " members — use replyAll to answer the room, or reply to just @" ++ sender ++ ")"
       else "")

/-- `formatCompact`. -/
def formatCompact (localTime : String → String) (frame : Members ν) (opts : FormatOpts) : String :=
  let room := (textOf frame "room").getD "default"
  let priority := inboundPriority frame
  let id := (textOf frame "id").getD "?"
  let body := (textOf frame "body").getD ""
  let lead := "[mesh] @" ++ (textOf frame "from").getD "?" ++
    (if room = opts.homeRoom then "" else " [" ++ room ++ "]") ++
    (if priority = .normal then "" else " " ++ priority.text) ++ " " ++
    localTime ((textOf frame "ts").getD "")
  if frameType? frame = some .remind then
    let replyTo := (textOf frame "replyTo").getD id
    lead ++ " reminder: reply due for " ++ replyTo ++ " — reply with mesh_reply using msgId \"" ++
      replyTo ++ "\" (IGNORE if you ALREADY replied to it)"
  else if frameType? frame = some .reply then
    let head := lead ++ " reply to " ++ (textOf frame "replyTo").getD "?" ++ ": " ++ body ++ " (" ++
      id ++ ")"
    if opts.replyChain then
      head ++ "\n↩ INFO ONLY (reply to a reply): react only if useful — via mesh_send, not mesh_reply"
    else
      head ++
        (if opts.showReplyHint then
          "\n↩ answer with the mesh_reply tool using msgId \"" ++ id ++ "\"" else "") ++
        (if isTrue (getOf frame) "replyAll" then " (went to the whole room)" else "")
  else
    lead ++ " " ++ body ++ " (" ++ id ++ ")" ++ packageLines frame ++
      (match designated frame with
       | some targets => " (reply→@" ++ ", @".intercalate targets ++ ")"
       | none => "") ++
      (if isTrue (getOf frame) "broadcast" then
        " (broadcast→" ++ totalText frame ++ ", replyAll answers the room)" else "") ++
      (if opts.showReplyHint then
        "\n↩ reply with the mesh_reply tool using msgId \"" ++ id ++ "\"" else "")

/-- `formatInboundContent`. -/
def formatInboundContent (localTime : String → String) (frame : Members ν) (opts : FormatOpts) :
    String :=
  if opts.verbose then formatVerbose localTime frame opts.replyChain
  else formatCompact localTime frame opts

/-! ### A burst -/

def batchMaxMessages : Nat := 12

/-- What a caller formats a frame with; it may ask the tracker. -/
abbrev FormatFor (ν : Type) := ReplyHintTracker → SessionFrame ν → FormatOpts × ReplyHintTracker

/-- `formatOptsFor`. -/
def formatOptsFor (verbose : Bool) (homeRoom : String) (now : Int) : FormatFor ν := fun t f =>
  let (showReplyHint, t) := t.shouldShow now (textOf f.members "from")
  ({ verbose, homeRoom, showReplyHint }, t)

structure BatchedInjection where
  content : String
  deliverAs : DeliverAs

/-- The loop of `buildBatchMessage`: the numbered texts, from `i + 1` on. -/
def batchParts (localTime : String → String) (formatFor : FormatFor ν) :
    Nat → ReplyHintTracker → List (SessionFrame ν) → List String × ReplyHintTracker
  | _, t, [] => ([], t)
  | i, t, f :: rest =>
      let (opts, t) := formatFor t f
      let body := formatInboundContent localTime f.members { opts with replyChain := f.replyChain }
      let (parts, t) := batchParts localTime formatFor (i + 1) t rest
      ((toString (i + 1) ++ ") " ++ body) :: parts, t)

/-- The first line of a batch. -/
def batchHeader (n : Nat) : String :=
  "[mesh batch — " ++ toString n ++ " message" ++ (if n > 1 then "s" else "") ++ "]"

/-- `buildBatchMessage`, under a first line of its own. -/
def buildBatchWith (header : Nat → String) (localTime : String → String) (formatFor : FormatFor ν)
    (t : ReplyHintTracker) (frames : List (SessionFrame ν)) : BatchedInjection × ReplyHintTracker :=
  let (parts, t) := batchParts localTime formatFor 0 t (frames.take batchMaxMessages)
  let overflow := frames.length - batchMaxMessages
  let more := if overflow > 0 then [s!"… (+{overflow} more — see mesh_history)"] else []
  let content := "\n".intercalate (header frames.length :: parts ++ more ++
    ["", "Treat each message independently. Urgent items first. Do NOT acknowledge them one by one."])
  let pressing := frames.any fun f =>
    decide (framePriority? f.members = some .urgent) || decide (frameType? f.members = some .reply)
  ({ content, deliverAs := if pressing then .steer else .followUp }, t)

def buildBatchMessage (localTime : String → String) (formatFor : FormatFor ν) (t : ReplyHintTracker)
    (frames : List (SessionFrame ν)) : BatchedInjection × ReplyHintTracker :=
  buildBatchWith batchHeader localTime formatFor t frames

/-- The first line `DeferredInbox.send` puts in the place of a batch's. -/
def deferredHeader (n : Nat) : String :=
  s!"[mesh deferred — {n} broadcast(s) not addressed to you]"

/-! ### What a message includes -/

/-- The text has the part in it. -/
def Includes (text part : String) : Prop := part.toList <:+: text.toList

instance (text part : String) : Decidable (Includes text part) :=
  inferInstanceAs (Decidable (part.toList <:+: text.toList))

/-- The message shows the frame's body. -/
def Shows (content : String) (frame : Members ν) : Prop :=
  Includes content ((textOf frame "body").getD "")

end PiMesh
