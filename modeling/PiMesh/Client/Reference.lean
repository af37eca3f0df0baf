/-
A client that computes.

The reference runtime is enough to run a client on a list of events, with every state it
goes through.  The endpoint is given, so that `doConnect` creates its socket at once, and
the aliases `defaultAlias()` would make up count.
-/
import PiMesh.Client.Events
import PiMesh.Broker.Reference

namespace PiMesh

open Js Transition

/-- What a run of a client leaves behind. -/
abbrev ClientTrace (ν : Type) := List (ClientState ν × Int × ClientEvent ν)

section Trace

variable {ν : Type} [Number ν]

/-- The run of a client over a list of events. -/
def runClient (env : ClientEnv) : ClientState ν → List (Int × ClientEvent ν) →
    ClientTrace ν × ClientState ν
  | st, [] => ([], st)
  | st, e :: es =>
      let (tr, st') := runClient env (clientStep env e.1 st e.2) es
      ((st, e) :: tr, st')

theorem run_runClient (env : ClientEnv) (st : ClientState ν) (events : List (Int × ClientEvent ν)) :
    Run (ClientStep env) st (runClient env st events).1 (runClient env st events).2 := by
  induction events generalizing st with
  | nil => exact .nil
  | cons e es ih => exact .cons rfl (ih _)

end Trace

/-- A client with an endpoint of its own. -/
def referenceClient : ClientEnv where
  rt := referenceRuntime
  dial := .direct
  freshAlias n := String.ofList ("peer-".toList ++ Reference.padded 4 n)

/-- The ids it makes are distinct. -/
theorem makeMsgId_injective : Function.Injective referenceClient.rt.makeMsgId := by
  have hvalue : ∀ n, Nat.ofDigitChars 10 (Reference.padded 8 n) 0 = n := by
    intro n
    unfold Reference.padded
    dsimp only
    rw [Nat.ofDigitChars_append, Nat.ofDigitChars_replicate_zero, Nat.mul_zero,
      Nat.ofDigitChars_ten_toDigits]
  intro n m h
  have hlist : "m_lqulw000_".toList ++ Reference.padded 8 n =
      "m_lqulw000_".toList ++ Reference.padded 8 m := by
    have := congrArg String.toList h
    simpa [referenceClient, referenceRuntime] using this
  rw [← hvalue n, ← hvalue m, List.append_cancel_left hlist]

/-- A frame with nothing but its type and its id. -/
def inboundOf (type : MeshFrameType) (id : String) : Inbound Int :=
  { type, id, ts := "2024-01-01T00:00:00.000Z" }

/-- `alice`, who is in one room. -/
def aliceClient : ClientState Int := .init "alice" ["default"] []

/-- A call of `connect()` that is welcomed, on the socket with this number. -/
def connects (c : CallId) (sock : ClientSocketId) : List (Int × ClientEvent Int) :=
  [(1000, .call c .connect), (1001, .connected sock), (1002, .line sock (inboundOf .welcome "w")),
    (1002, .microtask), (1002, .microtask), (1002, .microtask), (1002, .microtask)]

end PiMesh
