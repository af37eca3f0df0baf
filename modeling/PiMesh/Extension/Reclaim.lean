/-
Taking the preferred alias back.

Both adapters try it again and again from a timer.  Pi's tick looks at the session first and
awaits the rename it starts; OpenCode's looks at the client only, and leaves the rename to
itself.  A session is a client with the timer's variables.  Calls of the timer and calls of the
host have different numbers, and what the host calls `rename` for itself is an event of the
client.
-/
import PiMesh.Client.Events

namespace PiMesh

open Js

variable {ν : Type} [Number ν]

inductive Adapter where
  | pi | openCode
deriving DecidableEq, Repr

structure ReclaimSession (ν : Type) where
  client : ClientState ν
  preferredAlias : String
  /-- `ticking`, with the call of `rename` that is awaited. -/
  ticking : Option CallId := none
  /-- The calls of `rename` the timer has made. -/
  automatic : List CallId := []

inductive ReclaimEvent (ν : Type) where
  /-- Anything that happens to the client, user-requested renames among it. -/
  | client (e : ClientEvent ν)
  /-- The user chooses an alias. -/
  | prefer (name : String)
  /-- The timer, with `isBusy()`; a rename it starts has this number. -/
  | tick (c : CallId) (busy : Bool)
  /-- The rest of `tick` after its `await`. -/
  | ticked

namespace ReclaimSession

/-- `client.rename(preferredAlias)`. -/
def rename (env : ClientEnv) (now : Int) (st : ReclaimSession ν) (c : CallId) : ReclaimSession ν :=
  { st with
    client := clientStep env now st.client (.call c (.rename st.preferredAlias))
    automatic := st.automatic ++ [c] }

/-- `tick` of `startAliasReclaim`. -/
def tick (env : ClientEnv) (now : Int) (st : ReclaimSession ν) (c : CallId) (busy : Bool) :
    ReclaimSession ν :=
  if st.ticking.isSome then st
  else if st.preferredAlias = "" then st
  else if st.client.conn.name = st.preferredAlias then st
  else if !st.client.conn.online then st
  else if busy then st
  else if st.client.book.pending.entries.size > 0 then st
  else { st.rename env now c with ticking := some c }

/-- The callback of `reclaimTimer`. -/
def reclaimTimer (env : ClientEnv) (now : Int) (st : ReclaimSession ν) (c : CallId) :
    ReclaimSession ν :=
  if !st.client.conn.online then st
  else if st.preferredAlias = st.client.conn.name then st
  else st.rename env now c

/-- The number is used by the timer. -/
def isTaken (st : ReclaimSession ν) : ClientEvent ν → Bool
  | .call c _ => decide (c ∈ st.automatic)
  | _ => false

/-- One event at a time `now`; nothing where it is not possible. -/
def step (adapter : Adapter) (env : ClientEnv) (now : Int) (st : ReclaimSession ν) :
    ReclaimEvent ν → Option (ReclaimSession ν)
  | .client e =>
      if st.isTaken e then none else some { st with client := clientStep env now st.client e }
  | .prefer name => some { st with preferredAlias := name }
  | .tick c busy =>
      -- a timer waits until no microtask is queued
      if st.client.jobs.isEmpty && isNewCall st.client c && decide (c ∉ st.automatic) then
        match adapter with
        | .pi => some (st.tick env now c busy)
        | .openCode => some (st.reclaimTimer env now c)
      else none
  | .ticked =>
      match st.ticking with
      | some c => if st.client.results.has c then some { st with ticking := none } else none
      | none => none

/-- A new session. -/
def init (name : String) (rooms : List String) (reservations : List FileReservation)
    (preferredAlias : String) : ReclaimSession ν :=
  { client := .init name rooms reservations, preferredAlias }

end ReclaimSession

def ReclaimStep (adapter : Adapter) (env : ClientEnv) (st : ReclaimSession ν)
    (e : Int × ReclaimEvent ν) (st' : ReclaimSession ν) : Prop :=
  st.step adapter env e.1 e.2 = some st'

end PiMesh
