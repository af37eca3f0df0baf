/-
Mesh messages on the terminal.

A message becomes a list of lines, in a box where the theme has a background.  `visibleWidth` and
`wrapTextWithAnsi` belong to the library that draws, and the theme to the host: all three are
parameters.  `luminance` is kept exact, in units of 1 / 255000.
-/
import PiMesh.Client.Frames
import PiMesh.Lib.Regex

namespace PiMesh

open Js Regex

/-! ### Colors -/

/-- The colors of `ThemeColor` that are used. -/
inductive ThemeColor where
  | accent | success | warning | error | customMessageText | customMessageLabel | syntaxString
  | syntaxKeyword | syntaxNumber | syntaxType | syntaxFunction | syntaxComment | muted | dim
deriving DecidableEq, Repr

/-- `AGENT_COLORS`. -/
def agentColors : List ThemeColor :=
  [.accent, .success, .warning, .error, .customMessageText, .syntaxString, .syntaxKeyword,
    .syntaxNumber, .syntaxType, .syntaxFunction, .syntaxComment, .dim]

/-- The code units of a character. -/
def charCodes (c : Char) : List Nat :=
  let n := c.toNat
  if n < 0x10000 then [n] else [0xD800 + (n - 0x10000) / 0x400, 0xDC00 + (n - 0x10000) % 0x400]

def agentColor (name : String) : ThemeColor :=
  let h := (name.toList.flatMap charCodes).foldl (fun h code => (h * 31 + code) % 2 ^ 32) 0
  agentColors[h % agentColors.length]?.getD .accent

/-- `ALIAS_RE`. -/
def aliasRe : Pattern Char :=
  .seq (.lit ['@']) (.seq (.char fun c => c.isLower || c.isDigit)
    (.many fun c => c.isLower || c.isDigit || c == '-'))

structure RenderTheme where
  fg : ThemeColor → String → String
  /-- `bg("customMessageBg", text)`. -/
  bg : Option (String → String) := none
  bold : Option (String → String) := none
  fgAnsi : Option (ThemeColor → String) := none

def colorizeAliases (line : String) (theme : RenderTheme) : String :=
  String.ofList (aliasRe.replaceEach
    (fun m => (theme.fg (agentColor (String.ofList (m.drop 1))) (String.ofList m)).toList)
    line.toList)

def colorizeSender (name : String) (theme : RenderTheme) : String :=
  theme.fg (agentColor name) ("@" ++ name)

/-! ### ANSI codes -/

/-- `s.replace("38", "48")`. -/
def swapPlane : List Char → List Char
  | '3' :: '8' :: rest => '4' :: '8' :: rest
  | c :: rest => c :: swapPlane rest
  | [] => []

def ansiBackground (color : ThemeColor) (theme : RenderTheme) : Option String :=
  match theme.fgAnsi with
  | none => none
  | some fgAnsi =>
      let fg := fgAnsi color
      if includesString fg "38" then some (String.ofList (swapPlane fg.toList)) else none

/-- `XTERM_256`. -/
def xterm256 : List (Nat × Nat × Nat) :=
  let base := [(0, 0, 0), (128, 0, 0), (0, 128, 0), (128, 128, 0), (0, 0, 128), (128, 0, 128),
    (0, 128, 128), (192, 192, 192), (128, 128, 128), (255, 0, 0), (0, 255, 0), (255, 255, 0),
    (0, 0, 255), (255, 0, 255), (0, 255, 255), (255, 255, 255)]
  let levels := [0, 95, 135, 175, 215, 255]
  base ++ (levels.flatMap fun r => levels.flatMap fun g => levels.map fun b => (r, g, b)) ++
    (List.range 24).map fun i => (8 + 10 * i, 8 + 10 * i, 8 + 10 * i)

/-- `\x1b\[(?:38|48);`. -/
def ansiStart : List Char → Option (List Char)
  | '\x1b' :: '[' :: '3' :: '8' :: ';' :: rest => some rest
  | '\x1b' :: '[' :: '4' :: '8' :: ';' :: rest => some rest
  | _ => none

/-- `(\d{1,3})`, up to the character that ends it. -/
def colorNumber (stop : Char) (l : List Char) : Option (Nat × List Char) :=
  let digits := l.takeWhile Char.isDigit
  match l.dropWhile Char.isDigit with
  | c :: rest =>
      if c = stop ∧ 1 ≤ digits.length ∧ digits.length ≤ 3 then
        some (Nat.ofDigitChars 10 digits 0, rest)
      else none
  | [] => none

/-- The first match, wherever it begins. -/
def firstMatch {α : Type} (parse : List Char → Option α) : List Char → Option α
  | [] => parse []
  | c :: rest => (parse (c :: rest)).orElse fun _ => firstMatch parse rest

def indexedColor (l : List Char) : Option Nat := do
  match ← ansiStart l with
  | '5' :: ';' :: rest => return (← colorNumber 'm' rest).1
  | _ => none

def trueColor (l : List Char) : Option (Nat × Nat × Nat) := do
  match ← ansiStart l with
  | '2' :: ';' :: rest =>
      let (r, rest) ← colorNumber ';' rest
      let (g, rest) ← colorNumber ';' rest
      let (b, _) ← colorNumber 'm' rest
      return (r, g, b)
  | _ => none

def ansiToRgb (ansi : String) : Option (Nat × Nat × Nat) :=
  match firstMatch indexedColor ansi.toList with
  | some i => xterm256[i]?
  | none => firstMatch trueColor ansi.toList

def luminance (rgb : Nat × Nat × Nat) : Nat := 299 * rgb.1 + 587 * rgb.2.1 + 114 * rgb.2.2

/-! ### Boxes -/

/-- What the library measures and breaks. -/
structure Tui where
  visibleWidth : String → Nat
  wrapTextWithAnsi : String → Nat → List String

/-- `" ".repeat(n)`. -/
def spaces (n : Nat) : String := String.ofList (List.replicate n ' ')

section Render

variable (tui : Tui) (width : Nat) (theme : RenderTheme)

def padBg (bg : String → String) (line : String) : String :=
  bg (" " ++ line ++ spaces (width - tui.visibleWidth line - 1))

/-- `labelText`. -/
def labelText (label : String) : String :=
  match theme.bold with
  | some bold => bold label
  | none => label

def renderBox (contentLines : List String) (label : String) : List String :=
  match theme.bg with
  | none => contentLines
  | some bg =>
      let inner := max 1 (width - 2)
      let emptyLine := bg (spaces width)
      [emptyLine, padBg tui width bg (theme.fg .customMessageLabel (labelText theme label)),
          emptyLine] ++
        (contentLines.flatMap fun raw =>
          if raw = "" then [emptyLine]
          else (tui.wrapTextWithAnsi raw inner).map (padBg tui width bg)) ++
        [emptyLine]

/-- What `pushLine` adds. -/
def pushLine (line : String) : List String :=
  if trim line = "" then [""]
  else
    let colored := if startsWithString line "↩" then theme.fg .muted line else line
    tui.wrapTextWithAnsi (colorizeAliases colored theme) width

/-- What is read of `MeshInboundDetails`; a count that is no number is none. -/
structure MeshInboundDetails (ν : Type) where
  kind : Option String := none
  count : Option ν := none

/-- The header of a batch. -/
def batchTitle {ν : Type} [Number ν] (details : Option (MeshInboundDetails ν)) : Option String :=
  details.bind fun d =>
    if d.kind = some "mesh-batch" then
      d.count.map fun n => "▚ mesh batch — " ++ ((coerceString (.num n)).getD "") ++ " messages"
    else none

def renderMeshInbound {ν : Type} [Number ν] (content : String)
    (details : Option (MeshInboundDetails ν)) : List String :=
  let inner := ((batchTitle details).map (theme.fg .accent)).toList ++
    ((splitChars '\n' content.toList).map String.ofList).flatMap (pushLine tui width theme)
  renderBox tui width theme inner "[mesh-inbound]"

/-- What is read of `LiveEntryData`. -/
structure LiveEntryData where
  /-- `from`. -/
  sender : Option String := none
  room : Option String := none
  body : Option String := none
  /-- `at`, an ISO time. -/
  sent : Option String := none

/-- `s.replace(/\s+/g, " ").trim()`. -/
def oneLine (s : String) : String :=
  trim (String.ofList ((Pattern.plus isTrimmed).replaceAll [' '] s.toList))

def renderLiveEntry (data : Option LiveEntryData) : List String :=
  match data.bind fun d => d.sender.map fun sender => (d, sender) with
  | none => renderBox tui width theme [theme.fg .dim "[mesh]"] "[mesh-inbound]"
  | some (data, sender) =>
      let room := (data.room.map fun room => theme.fg .dim (" [" ++ room ++ "]")).getD ""
      let time := (data.sent.map fun t =>
        theme.fg .dim (" " ++ String.ofList ((t.toList.drop 11).take 8))).getD ""
      let body := oneLine (data.body.getD "")
      let head := "⇠ " ++ colorizeSender sender theme ++ room ++ time
      let inner := tui.wrapTextWithAnsi head width ++
        if body ≠ "" then tui.wrapTextWithAnsi (colorizeAliases body theme) width else []
      renderBox tui width theme inner "[mesh-live]"

/-! ### Verdicts -/

structure VerdictEntryData where
  head : Option String := none
  /-- Each with its `to` and `response`. -/
  answers : List (String × String) := []
  /-- Each with its `to` and `msgId`. -/
  missing : List (String × String) := []

/-- The code of the text on a background. -/
def verdictFg (bg : String) : String :=
  if (ansiToRgb bg).any fun rgb => luminance rgb > 127500 then "\x1b[38;5;232m"
  else "\x1b[38;5;255m"

def verdictLines (marker recipient text : String) : List String :=
  let color := agentColor recipient
  let parts := tui.wrapTextWithAnsi (marker ++ " @" ++ recipient ++ ": " ++ text) (max 1 width)
  match ansiBackground color theme with
  | none => parts.map (theme.fg color)
  | some bg => parts.map fun part =>
      bg ++ verdictFg bg ++ (part ++ spaces (width - tui.visibleWidth part)) ++ "\x1b[39m\x1b[49m"

/-- The entries, each behind the first one with `gap` before it. -/
def separated (gap : String) : List String → List String
  | [] => []
  | entry :: rest => entry :: rest.flatMap fun e => [gap, e]

/-- The text of the header. -/
def verdictHead (data : Option VerdictEntryData) : String :=
  let head := (data.bind fun d => d.head).getD "wait_all"
  if theme.bg.isSome then "▚ " ++ head else head

/-- `entries`. -/
def verdictEntries (data : Option VerdictEntryData) : List String :=
  let answers := (data.map fun d => d.answers).getD []
  let missing := (data.map fun d => d.missing).getD []
  (answers.flatMap fun a => verdictLines tui width theme "✓" a.1
      (String.ofList (sliceFront 240 (oneLine a.2).toList))) ++
    missing.flatMap fun m => verdictLines tui width theme "✗" m.1
      ("NOT ANSWERED (" ++ String.ofList (sliceFront 18 m.2.toList) ++ ")")

def renderVerdictEntry (data : Option VerdictEntryData) : List String :=
  let head := theme.fg .accent (verdictHead theme data)
  let entries := verdictEntries tui width theme data
  match theme.bg with
  | some bg =>
      let emptyLine := bg (spaces width)
      [emptyLine, bg (head ++ spaces (width - tui.visibleWidth head)), emptyLine] ++
        separated emptyLine entries ++ [emptyLine]
  | none => ["", head] ++ separated "" entries ++ [""]

end Render

end PiMesh
