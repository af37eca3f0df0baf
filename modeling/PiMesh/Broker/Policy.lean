/-
Declarative governance: deny rules, then the allow list, then force authorization.
-/
import PiMesh.Protocol.Types
import Mathlib.Algebra.Order.Ring.Rat

namespace PiMesh

open Js

/-- Any number of messages a minute; `loadPolicy` makes whole numbers only. -/
structure RateLimits where
  msgPerMin : ℚ := 30
  urgentPerMin : ℚ := 15
  forcePerMin : ℚ := 1
deriving DecidableEq

/-- A rule of `policy.json`; an absent field constrains nothing. -/
structure PolicyRule where
  sender : Option String := none
  recipient : Option String := none
  room : Option String := none
deriving DecidableEq

structure MeshPolicy where
  allow : List PolicyRule := [⟨some "*", some "*", some "*"⟩]
  deny : List PolicyRule := []
  forceAllowedFrom : List String := []
  /-- An unauthorized force becomes urgent instead of being denied. -/
  forceDowngrade : Bool := false
  rateLimits : RateLimits := {}
deriving DecidableEq

/-- `matchPattern`: `*` matches all, a trailing `*` a prefix, anything else itself. -/
def matchPattern (pattern : Option String) (value : String) : Bool :=
  match pattern with
  | none => true
  | some p =>
      if p = "*" then true
      else if endsWithString p "*" then p.toList.dropLast.isPrefixOf value.toList
      else p == value

structure PolicyContext where
  sender : String
  recipient : String
  room : String
  priority : MeshPriority
deriving DecidableEq

def ruleMatches (rule : PolicyRule) (ctx : PolicyContext) : Bool :=
  matchPattern rule.sender ctx.sender && matchPattern rule.recipient ctx.recipient &&
    matchPattern rule.room ctx.room

inductive PolicyDecision where
  | allow
  | downgrade
  | deny (code : MeshErrorCode)
deriving DecidableEq

/-- `evaluatePolicy`. -/
def evaluatePolicy (policy : MeshPolicy) (ctx : PolicyContext) : PolicyDecision :=
  if policy.deny.any (fun rule => ruleMatches rule ctx) then .deny .policyDenied
  else if !policy.allow.any (fun rule => ruleMatches rule ctx) then .deny .policyDenied
  else if ctx.priority = .force ∧ ctx.sender ∉ policy.forceAllowedFrom then
    if policy.forceDowngrade then .downgrade else .deny .policyDenied
  else .allow

/-- The decision refuses the message. -/
def PolicyDecision.isDeny : PolicyDecision → Bool
  | .deny _ => true
  | _ => false

/-- A force that is let through as it is comes from an authorized alias. -/
theorem evaluatePolicy_allow_force {policy : MeshPolicy} {ctx : PolicyContext}
    (h : evaluatePolicy policy ctx = .allow) (hf : ctx.priority = .force) :
    ctx.sender ∈ policy.forceAllowedFrom := by
  unfold evaluatePolicy at h
  split at h
  · simp at h
  · split at h
    · simp at h
    · split at h
      · split at h <;> simp at h
      · next hn =>
          by_contra hc
          exact hn ⟨hf, hc⟩

/-- Only a force is ever downgraded, and only where the policy says so. -/
theorem evaluatePolicy_downgrade {policy : MeshPolicy} {ctx : PolicyContext}
    (h : evaluatePolicy policy ctx = .downgrade) :
    ctx.priority = .force ∧ ctx.sender ∉ policy.forceAllowedFrom ∧
      policy.forceDowngrade = true := by
  unfold evaluatePolicy at h
  split at h
  · simp at h
  · split at h
    · simp at h
    · split at h
      · next hf =>
          split at h
          · next hd => exact ⟨hf.1, hf.2, hd⟩
          · simp at h
      · simp at h

end PiMesh
