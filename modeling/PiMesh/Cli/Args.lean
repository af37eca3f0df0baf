/-
The argument parser of the command line.

`parseArgs` reads the words of a command line from left to right.  An option may be
spelled with its long or its short name behind one dash or two; a value follows behind an
equals sign, which only two dashes allow, or is the next word, whatever that is.
-/
import PiMesh.Js.Map
import PiMesh.Js.Text

namespace PiMesh

open Js

inductive ArgKind where
  | flag | value | repeated
deriving DecidableEq, Repr

/-- What the parser reads of an `ArgSpec`; the other members are texts of the help. -/
structure ArgSpec where
  name : String
  kind : ArgKind
  short : Option String := none
deriving DecidableEq

structure ParsedArgs where
  flags : Js.Set String := Js.Set.empty
  /-- The last value wins. -/
  values : Map String String := Map.empty
  repeats : Map String (List String) := Map.empty
  positionals : List String := []

/-- An option the specification knows: by its long name, else by its short one. -/
def findSpec (specs : List ArgSpec) (name : String) : Option ArgSpec :=
  let byLong : Map String ArgSpec := specs.foldl (fun m s => m.set s.name s) Map.empty
  let byShort : Map String ArgSpec := specs.foldl (fun m s =>
    match s.short with
    | some short => m.set short s
    | none => m) Map.empty
  (byLong.get? name).or (byShort.get? name)

/-- The name a word gives, and the value behind its equals sign. -/
def readOption (a : String) : String × Option String :=
  if startsWithString a "--" then
    let body := a.toList.drop 2
    match body.dropWhile (· ≠ '=') with
    | [] => (String.ofList body, none)
    | _ :: value => (String.ofList (body.takeWhile (· ≠ '=')), some (String.ofList value))
  else (String.ofList (a.toList.drop 1), none)

/-- `values.set` and the list of all values. -/
def ParsedArgs.store (parsed : ParsedArgs) (name value : String) : ParsedArgs :=
  { parsed with
    values := parsed.values.set name value
    repeats := parsed.repeats.set name ((parsed.repeats.get? name).getD [] ++ [value]) }

/-- The loop of `parseArgs`, with the variables it changes. -/
def parseArgsFrom (specs : List ArgSpec) :
    List String → ParsedArgs → Bool → Bool → Except String (ParsedArgs × Bool)
  | [], parsed, help, _ => .ok (parsed, help)
  | a :: rest, parsed, help, noMoreOptions =>
      if noMoreOptions || a = "-" || !startsWithString a "-" then
        parseArgsFrom specs rest { parsed with positionals := parsed.positionals ++ [a] } help
          noMoreOptions
      else if a = "--" then parseArgsFrom specs rest parsed help true
      else if a = "--help" ∨ a = "-h" then parseArgsFrom specs rest parsed true noMoreOptions
      else
        let (name, inlineValue) := readOption a
        match findSpec specs name with
        | none => .error ("unknown option: " ++ a)
        | some spec =>
            if spec.kind = .flag then
              match inlineValue with
              | some _ => .error ("option --" ++ spec.name ++ " takes no value")
              | none =>
                  parseArgsFrom specs rest { parsed with flags := parsed.flags.add spec.name } help
                    noMoreOptions
            else
              match inlineValue, rest with
              | some value, rest =>
                  parseArgsFrom specs rest (parsed.store spec.name value) help noMoreOptions
              | none, value :: rest =>
                  parseArgsFrom specs rest (parsed.store spec.name value) help noMoreOptions
              | none, [] => .error ("option --" ++ spec.name ++ " requires a value")

/-- `parseArgs`: what was parsed and whether help was asked for, or the usage error. -/
def parseArgs (argv : List String) (specs : List ArgSpec) : Except String (ParsedArgs × Bool) :=
  parseArgsFrom specs argv {} false false

/-! ### What a command line says -/

/-- One thing a command line says. -/
inductive ArgItem where
  | flag (name : String)
  | value (name value : String)
  | operand (word : String)
  | help
deriving DecidableEq

namespace ArgItem

def value? (name : String) : ArgItem → Option String
  | .value n v => if n = name then some v else none
  | _ => none

def operand? : ArgItem → Option String
  | .operand w => some w
  | _ => none

end ArgItem

/-- The words of the table that give the option `n`: the last specification of that long
name, else the last of that short name. -/
def named (specs : List ArgSpec) (n : String) : Option ArgSpec :=
  (specs.reverse.find? fun s => s.name = n).or (specs.reverse.find? fun s => s.short = some n)

/-- `a` spells the name `n`, with the value `v` in the word itself if there is one. -/
inductive Writes (n : String) : Option String → String → Prop
  | long (h : '=' ∉ n.toList) : Writes n none ("--" ++ n)
  | inlined (h : '=' ∉ n.toList) (v : String) : Writes n (some v) ("--" ++ n ++ "=" ++ v)
  | short (h : n.toList.head? ≠ some '-') : Writes n none ("-" ++ n)

/-- A word that is read as an option. -/
def IsOption (a : String) : Prop :=
  startsWithString a "-" = true ∧ a ≠ "-" ∧ a ≠ "--" ∧ a ≠ "--help" ∧ a ≠ "-h"

instance (a : String) : Decidable (IsOption a) := inferInstanceAs (Decidable (_ ∧ _))

/-- A word that is read as an operand. -/
def IsOperand (a : String) : Prop := a = "-" ∨ startsWithString a "-" = false

instance (a : String) : Decidable (IsOperand a) := inferInstanceAs (Decidable (_ ∨ _))

/-- The words spell the items one by one, and more options may follow. -/
inductive Leads (specs : List ArgSpec) : List ArgItem → List String → Prop
  | nil : Leads specs [] []
  | operand {items : List ArgItem} {words : List String} (a : String) (ha : IsOperand a)
      (h : Leads specs items words) : Leads specs (.operand a :: items) (a :: words)
  | help {items : List ArgItem} {words : List String} (a : String) (ha : a = "--help" ∨ a = "-h")
      (h : Leads specs items words) : Leads specs (.help :: items) (a :: words)
  | flag {items : List ArgItem} {words : List String} (a n : String) (s : ArgSpec)
      (ha : IsOption a) (hn : Writes n none a) (hs : named specs n = some s)
      (hk : s.kind = .flag) (h : Leads specs items words) :
      Leads specs (.flag s.name :: items) (a :: words)
  | inlined {items : List ArgItem} {words : List String} (a n v : String) (s : ArgSpec)
      (ha : IsOption a) (hn : Writes n (some v) a) (hs : named specs n = some s)
      (hk : s.kind ≠ .flag) (h : Leads specs items words) :
      Leads specs (.value s.name v :: items) (a :: words)
  | separate {items : List ArgItem} {words : List String} (a n v : String) (s : ArgSpec)
      (ha : IsOption a) (hn : Writes n none a) (hs : named specs n = some s)
      (hk : s.kind ≠ .flag) (h : Leads specs items words) :
      Leads specs (.value s.name v :: items) (a :: v :: words)

/-- The words spell the items: options and operands, and operands only behind a `--`. -/
inductive Spells (specs : List ArgSpec) : List ArgItem → List String → Prop
  | openEnded {items : List ArgItem} {words : List String} (h : Leads specs items words) :
      Spells specs items words
  | ended {items : List ArgItem} {words : List String} (h : Leads specs items words)
      (operands : List String) :
      Spells specs (items ++ operands.map .operand) (words ++ "--" :: operands)

/-- The result holds what the items say, and nothing else. -/
structure Collects (items : List ArgItem) (parsed : ParsedArgs) (help : Bool) : Prop where
  flags : ∀ name, name ∈ parsed.flags.elems ↔ ArgItem.flag name ∈ items
  values : ∀ name, parsed.values.get? name = (items.filterMap (ArgItem.value? name)).getLast?
  repeats : ∀ name, (parsed.repeats.get? name).getD [] = items.filterMap (ArgItem.value? name)
  positionals : parsed.positionals = items.filterMap ArgItem.operand?
  help : help = true ↔ ArgItem.help ∈ items

/-- What is wrong with the word `a`, in front of the words `rest`. -/
inductive Offends (specs : List ArgSpec) (a : String) (rest : List String) : String → Prop
  | unknown (n : String) (v : Option String) (ha : IsOption a) (hn : Writes n v a)
      (hs : named specs n = none) : Offends specs a rest ("unknown option: " ++ a)
  | takesNone (n v : String) (s : ArgSpec) (ha : IsOption a) (hn : Writes n (some v) a)
      (hs : named specs n = some s) (hk : s.kind = .flag) :
      Offends specs a rest ("option --" ++ s.name ++ " takes no value")
  | missing (n : String) (s : ArgSpec) (ha : IsOption a) (hn : Writes n none a)
      (hs : named specs n = some s) (hk : s.kind ≠ .flag) (hrest : rest = []) :
      Offends specs a rest ("option --" ++ s.name ++ " requires a value")

end PiMesh
