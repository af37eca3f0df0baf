/-
A broker that computes.

`Runtime` leaves the engine's functions open.  This module fills them in as far as
plain functions can, so that the broker can be run on concrete input: dates between
1970 and 9999 in the one format `toISOString` produces, the case and order of ASCII
text, and message ids that count.  The digest is the exception, a constant: nothing
that is run on this runtime compares one.

A step is also a relation, so that what is proved of all runs applies to the ones that
are computed here.
-/
import PiMesh.Broker.Events
import PiMesh.Lib.Transition

namespace PiMesh

open Js Transition

namespace Reference

/-- `n` in decimal, with zeros in front up to `width` digits. -/
def padded (width n : Nat) : List Char :=
  let digits := Nat.toDigits 10 n
  List.replicate (width - digits.length) '0' ++ digits

/-- Year, month and day of a number of days since 1970-01-01. -/
def civilOfDays (days : Nat) : Nat × Nat × Nat :=
  -- eras of 400 years that start on 1 March
  let z := days + 719468
  let era := z / 146097
  let doe := z % 146097
  let yoe := (doe - doe / 1460 + doe / 36524 - doe / 146096) / 365
  let doy := doe - (365 * yoe + yoe / 4 - yoe / 100)
  let mp := (5 * doy + 2) / 153
  let day := doy - (153 * mp + 2) / 5 + 1
  let month := if mp < 10 then mp + 3 else mp - 9
  (yoe + era * 400 + (if month ≤ 2 then 1 else 0), month, day)

/-- The days from 1970-01-01 to a date. -/
def daysOfCivil (year month day : Nat) : Nat :=
  let y := if month ≤ 2 then year - 1 else year
  let yoe := y % 400
  let doy := (153 * (if month > 2 then month - 3 else month + 9) + 2) / 5 + day - 1
  y / 400 * 146097 + (yoe * 365 + yoe / 4 - yoe / 100 + doy) - 719468

def toISOString (ms : Int) : String :=
  let ms := ms.toNat
  let (year, month, day) := civilOfDays (ms / 86400000)
  let t := ms % 86400000
  String.ofList (padded 4 year ++ ['-'] ++ padded 2 month ++ ['-'] ++ padded 2 day ++ ['T'] ++
    padded 2 (t / 3600000) ++ [':'] ++ padded 2 (t / 60000 % 60) ++ [':'] ++
    padded 2 (t / 1000 % 60) ++ ['.'] ++ padded 3 (t % 1000) ++ ['Z'])

/-- `Date.parse` on what `toISOString` writes. -/
def dateParse (s : String) : Option Int :=
  match s.toList with
  | [y1, y2, y3, y4, '-', m1, m2, '-', d1, d2, 'T', h1, h2, ':', n1, n2, ':', s1, s2, '.',
      f1, f2, f3, 'Z'] =>
      if [y1, y2, y3, y4, m1, m2, d1, d2, h1, h2, n1, n2, s1, s2, f1, f2, f3].all Char.isDigit then
        let num (l : List Char) : Nat := Nat.ofDigitChars 10 l 0
        let days := daysOfCivil (num [y1, y2, y3, y4]) (num [m1, m2]) (num [d1, d2])
        some ((((days * 24 + num [h1, h2]) * 60 + num [n1, n2]) * 60 + num [s1, s2]) * 1000 +
          num [f1, f2, f3] : Nat)
      else none
  | _ => none

end Reference

def referenceRuntime : Runtime where
  sha256 _ := "e3b0c44298fc1c149afbf4c8996fb92427ae41e4649b934ca495991b7852b855"
  dateParse := Reference.dateParse
  toISOString := Reference.toISOString
  toLowerCase s := String.ofList (s.toList.map Char.toLower)
  localeCompare a b := compareOfLessAndEq a b
  makeMsgId n := String.ofList ("m_lqulw000_".toList ++ Reference.padded 8 n)

example : referenceRuntime.toISOString 1704067200000 = "2024-01-01T00:00:00.000Z" ∧
    referenceRuntime.dateParse "2024-01-01T00:00:00.000Z" = some 1704067200000 := by decide

/-! ### Runs -/

section Steps

variable {ν : Type} [Number ν] [DecidableEq ν]

/-- A labelled step of the broker: an event and the reading of the clock it sees. -/
def BrokerStep (env : Env) (st : BrokerState ν) (e : Int × Event) (st' : BrokerState ν) : Prop :=
  step env e.1 st e.2 = .ok st'

/-- What happened, each event with the state it met. -/
abbrev BrokerTrace (ν : Type) := List (BrokerState ν × Int × Event)

end Steps

/-- A broker on the computing runtime, with the default configuration. -/
def referenceEnv (policy : MeshPolicy) : Env := ⟨referenceRuntime, {}, policy⟩

/-- The line of a frame: what every frame has, and the members particular to it. -/
def frameLine (type : MeshFrameType) (id sender : String) (rest : Members Int) : List Char :=
  Json.stringify (.obj ([("v", .num 1), ("type", .str type.text), ("id", .str id),
    ("ts", .str "2024-01-01T00:00:00.000Z"), ("from", .str sender)] ++ rest))

/-- The frame of a line, if it is accepted. -/
def frameOf (text : List Char) : Option (MeshFrame Int) :=
  (parseFrameLine referenceRuntime text).toOption.bind fun ms => (castFrame ms).toOption

theorem toOption_eq_some {ε α : Type} {x : Except ε α} {a : α} (h : x.toOption = some a) :
    x = .ok a := by
  cases x with
  | error e => cases h
  | ok b => rw [Option.some.inj h]

/-- What can be checked on a computed frame is true of an accepted one. -/
theorem exists_frame {text : List Char} {check : MeshFrame Int → Bool}
    (h : (frameOf text).any check = true) :
    ∃ ms f, parseFrameLine referenceRuntime text = .ok ms ∧ castFrame ms = .ok f ∧
      check f = true := by
  obtain ⟨f, hf, hcheck⟩ := (Option.any_eq_true _ _).mp h
  obtain ⟨ms, hms, hcast⟩ := Option.bind_eq_some_iff.mp hf
  exact ⟨ms, f, toOption_eq_some hms, toOption_eq_some hcast, hcheck⟩

/-- Run a broker from its start; an exception ends the run. -/
def runBroker (env : Env) (events : List (Int × Event)) :
    Option (BrokerTrace Int × BrokerState Int) :=
  (execute (fun st (e : Int × Event) => step env e.1 st e.2) (BrokerState.init 1) events).toOption

/-- What can be checked on a computed run is true of a run. -/
theorem exists_run {env : Env} {events : List (Int × Event)}
    {check : BrokerTrace Int × BrokerState Int → Bool}
    (h : (runBroker env events).any check = true) :
    ∃ tr st, Run (BrokerStep env) (BrokerState.init 1) tr st ∧ tr.map Prod.snd = events ∧
      check (tr, st) = true := by
  obtain ⟨⟨tr, st⟩, hrun, hcheck⟩ := (Option.any_eq_true _ _).mp h
  obtain ⟨hr, hevents⟩ := Run.of_execute (toOption_eq_some hrun)
  exact ⟨tr, st, hr, hevents, hcheck⟩

end PiMesh
