/-
One alias, however it is written.

`normalizeAlias` trims, strips the `@`s in front and lowers the case, once each and in that order.
A blank behind the `@`s is therefore still there, and normalizing again takes it away, with the
`@`s behind it.  The tool normalizes what the model typed; the guards and the client normalize what
the tool has made of it.  They speak of one alias exactly if no blank stands behind the `@`s.
-/
import PiMesh.Extension.Guards
import PiMesh.Extension.Tools
import PiMesh.Js.LowerCase
import PiMesh.Broker.Reference
import PiMesh.Client.Reference

namespace PiMesh

open Js

/-! ### What the result speaks of -/

/-- What is left of an alias without the blanks around it and the `@`s in front. -/
def bareAlias (raw : String) : List Char := (trim raw).toList.dropWhile fun c => c == '@'

/-- A blank stands behind the `@`s. -/
def blankBehindAts (raw : String) : Bool := (bareAlias raw).head?.any isTrimmed

/-- A message to `raw`, and no capability. -/
structure SendsTo {ν : Type} [Number ν] (rt : Runtime) (raw : String) (p : MeshSendParams ν) :
    Prop where
  recipient : p.recipient = some raw
  direct : p.broadcast = false
  plain : capTargetName rt raw = none

/-- The tool, the guards and the client have the same alias for what was typed. -/
structure OneAlias (ν : Type) [Number ν] (rt : Runtime) (raw : String) : Prop where
  idempotent : normalizeAlias rt (normalizeAlias rt raw) = normalizeAlias rt raw
  /-- What the tool records and hands over is what `send` addresses. -/
  addressed : ∀ (tool : SendTool) (env : ClientEnv) (st : ClientState ν) p opts, env.rt = rt →
    SendsTo rt raw p → execMeshSend tool env st p = .ok opts → isCapSend rt opts = false →
      opts.recipient = some (normalizeAlias rt raw) ∧ sendTarget rt opts = opts.recipient
  /-- The guards tell a message to oneself by it. -/
  selfSend : ∀ limits (g : MeshGuards) now (input : GuardedSend),
    input.target = normalizeAlias rt raw →
      ((g.checkSend rt limits now input).1 = .refused "self_send" [] ↔
        normalizeAlias rt raw = normalizeAlias rt input.sender)
  /-- They remember a message under it. -/
  duplicate : ∀ input : GuardedSend, input.target = normalizeAlias rt raw →
    MeshGuards.dupKey rt input =
      normalizeAlias rt raw ++ "|" ++ input.room ++ "|" ++ rt.sha256 input.body

/-! ### Normal forms -/

section Ends

variable {p : Char → Bool} {l : List Char}

theorem dropWhile_eq_self (h : l.head?.any p = false) : l.dropWhile p = l := by
  cases l with
  | nil => rfl
  | cons c rest => exact List.dropWhile_cons_of_neg (by simpa using h)

theorem head_dropWhile (p : Char → Bool) (l : List Char) : (l.dropWhile p).head?.any p = false := by
  induction l with
  | nil => rfl
  | cons c rest ih =>
      by_cases hc : p c = true
      · rw [List.dropWhile_cons_of_pos hc]
        exact ih
      · rw [List.dropWhile_cons_of_neg hc]
        simpa using hc

theorem dropWhile_length_lt (h : l.head?.any p = true) : (l.dropWhile p).length < l.length := by
  cases l with
  | nil => simp at h
  | cons c rest =>
      rw [List.dropWhile_cons_of_pos (by simpa using h), List.length_cons]
      exact Nat.lt_succ_of_le (List.dropWhile_suffix p).length_le

end Ends

theorem trim_eq_self {s : String} (hhead : s.toList.head?.any isTrimmed = false)
    (hlast : s.toList.getLast?.any isTrimmed = false) : trim s = s := by
  unfold trim
  rw [dropWhile_eq_self hhead, dropWhile_eq_self (by rw [List.head?_reverse]; exact hlast),
    List.reverse_reverse, String.ofList_toList]

/-- A trimmed text is a part of the text. -/
theorem trim_part (s : String) : (trim s).toList <:+: s.toList := by
  have hback : ((s.toList.dropWhile isTrimmed).reverse.dropWhile isTrimmed).reverse
      <+: s.toList.dropWhile isTrimmed := by
    rw [← List.reverse_suffix, List.reverse_reverse]
    exact List.dropWhile_suffix isTrimmed
  unfold trim
  rw [String.toList_ofList]
  exact hback.isInfix.trans (List.dropWhile_suffix isTrimmed).isInfix

theorem trim_length_lt {s : String} (h : s.toList.head?.any isTrimmed = true) :
    (trim s).toList.length < s.toList.length := by
  unfold trim
  rw [String.toList_ofList, List.length_reverse]
  have hback := (List.dropWhile_suffix isTrimmed (l := (s.toList.dropWhile isTrimmed).reverse)).length_le
  rw [List.length_reverse] at hback
  exact Nat.lt_of_le_of_lt hback (dropWhile_length_lt h)

theorem caseless_of_trimmed (c : Char) (h : isTrimmed c = true) : isCaseless c = true := by
  simp [isCaseless, h]

theorem caseless_of_at (c : Char) (h : (c == '@') = true) : isCaseless c = true := by
  simp [isCaseless, h]

/-- What is left ends as the trimmed text does, with no blank. -/
theorem bareAlias_last (raw : String) : (bareAlias raw).getLast?.any isTrimmed = false := by
  have hends := (dropWhile_ends isTrimmed raw.toList).2
  have htrim : (trim raw).toList.reverse.dropWhile isTrimmed = (trim raw).toList.reverse := by
    unfold trim
    rw [String.toList_ofList]
    exact hends
  have hlast : (trim raw).toList.getLast?.any isTrimmed = false := by
    rw [← List.head?_reverse, ← htrim]
    exact head_dropWhile _ _
  unfold bareAlias
  obtain ⟨front, hfront⟩ := List.dropWhile_suffix (fun c => c == '@') (l := (trim raw).toList)
  generalize (trim raw).toList.dropWhile (fun c => c == '@') = bare at hfront
  rw [← hfront] at hlast
  cases bare with
  | nil => rfl
  | cons c rest =>
      rw [List.getLast?_append_cons] at hlast
      exact hlast

theorem normalizeAlias_eq (rt : Runtime) (raw : String) :
    normalizeAlias rt raw = rt.toLowerCase (String.ofList (bareAlias raw)) := rfl

section Normal

variable {rt : Runtime} (hlower : LowersCase rt.toLowerCase) {raw : String}
include hlower

/-- **Normalizing twice is normalizing once, unless a blank stands behind the `@`s.** -/
theorem normalizeAlias_again_iff :
    normalizeAlias rt (normalizeAlias rt raw) = normalizeAlias rt raw ↔
      blankBehindAts raw = false := by
  have hhead := hlower.head caseless_of_trimmed (String.ofList (bareAlias raw))
  rw [String.toList_ofList, ← normalizeAlias_eq] at hhead
  constructor
  · intro hsame
    by_contra hblank
    -- the blank goes, and lower case brings nothing back
    rw [Bool.not_eq_false] at hblank
    unfold blankBehindAts at hblank
    rw [hblank] at hhead
    have hless := trim_length_lt hhead
    have hinfix : bareAlias (normalizeAlias rt raw) <:+: (normalizeAlias rt raw).toList :=
      (List.dropWhile_suffix _).isInfix.trans (trim_part _)
    have hkept := hlower.settled _ _ hinfix
    rw [← normalizeAlias_eq, hsame] at hkept
    have hlength := congrArg (fun s => s.toList.length) hkept
    rw [String.toList_ofList] at hlength
    have hle : (bareAlias (normalizeAlias rt raw)).length ≤ (trim (normalizeAlias rt raw)).toList.length :=
      (List.dropWhile_suffix _).length_le
    omega
  · intro hnone
    unfold blankBehindAts at hnone
    have hlast := hlower.last caseless_of_trimmed (String.ofList (bareAlias raw))
    have hat := hlower.head caseless_of_at (String.ofList (bareAlias raw))
    rw [String.toList_ofList, ← normalizeAlias_eq] at hlast hat
    rw [bareAlias_last] at hlast
    have hbare : (bareAlias raw).head?.any (fun c => c == '@') = false := head_dropWhile _ _
    rw [hbare] at hat
    rw [hnone] at hhead
    have hagain : bareAlias (normalizeAlias rt raw) = (normalizeAlias rt raw).toList := by
      unfold bareAlias
      rw [trim_eq_self hhead hlast, dropWhile_eq_self hat]
    rw [normalizeAlias_eq rt (normalizeAlias rt raw), hagain, String.ofList_toList, normalizeAlias_eq,
      hlower.lower_lower]

end Normal

/-! ### The three of them -/

section Send

variable {ν : Type} [Number ν] {rt : Runtime} {raw : String}

/-- What the tool hands over is addressed to the normal form. -/
theorem execMeshSend_recipient {tool : SendTool} {env : ClientEnv} {st : ClientState ν}
    {p : MeshSendParams ν} {opts : SendOpts} (hp : SendsTo env.rt raw p)
    (h : execMeshSend tool env st p = .ok opts) :
    opts.recipient = some (normalizeAlias env.rt raw) ∧ opts.broadcast = false := by
  obtain ⟨hto, hdirect, hplain⟩ := hp
  unfold execMeshSend at h
  simp only [bind, Except.bind, pure, Except.pure, throw, throwThe, MonadExceptOf.throw, hto, hdirect,
    hplain, Option.bind_some, Bool.false_eq_true, ↓reduceIte] at h
  repeat' split at h
  all_goals first | (cases h; exact ⟨rfl, rfl⟩) | contradiction

theorem sendTarget_direct {opts : SendOpts} (h : isCapSend rt opts = false)
    (hdirect : opts.broadcast = false) :
    sendTarget rt opts = opts.recipient.map (normalizeAlias rt) := by
  unfold isCapSend at h
  rw [hdirect, Bool.not_false, Bool.true_and] at h
  have hnone : (opts.recipient.bind fun t => capTargetName rt t) = none := by simpa using h
  unfold sendTarget
  rw [hdirect]
  simp [hnone]

theorem checkSend_self (limits : GuardRateLimits) (g : MeshGuards) (now : Int) (input : GuardedSend) :
    (g.checkSend rt limits now input).1 = .refused "self_send" [] ↔
      normalizeAlias rt input.target = normalizeAlias rt input.sender := by
  have hrate : ∀ kind, "rate_limited:" ++ MeshGuards.kindText kind ≠ "self_send" := by
    intro kind
    cases kind <;> decide
  unfold MeshGuards.checkSend
  by_cases hself : normalizeAlias rt input.target = normalizeAlias rt input.sender
  · simp [hself]
  · rw [if_neg hself]
    constructor
    · intro h
      repeat' split at h
      all_goals simp_all
    · intro h
      exact absurd h hself

end Send

/-- **The tool, the guards and the client have the same alias exactly if no blank stands behind the
`@`s of what was typed.** -/
theorem one_alias_iff (ν : Type) [Number ν] {rt : Runtime} (hlower : LowersCase rt.toLowerCase)
    (raw : String) : OneAlias ν rt raw ↔ blankBehindAts raw = false := by
  constructor
  · intro h
    exact (normalizeAlias_again_iff hlower).mp h.idempotent
  · intro hnone
    have hagain := (normalizeAlias_again_iff hlower).mpr hnone
    refine ⟨hagain, ?_, ?_, ?_⟩
    · intro tool env st p opts henv hp hexec hcap
      rw [← henv] at hp hcap hagain ⊢
      obtain ⟨hto, hdirect⟩ := execMeshSend_recipient hp hexec
      refine ⟨hto, ?_⟩
      rw [sendTarget_direct hcap hdirect, hto, Option.map_some, hagain]
    · intro limits g now input htarget
      rw [checkSend_self, htarget, hagain]
    · intro input htarget
      unfold MeshGuards.dupKey
      rw [htarget, hagain]

/-- An alias as it is usually typed. -/
theorem one_alias_bob : OneAlias Int referenceRuntime " @Bob " :=
  (one_alias_iff Int asciiLower_lowersCase " @Bob ").mpr (by decide)

/-- A blank behind the `@`: the tool records one alias, and the client addresses another. -/
theorem one_alias_fails : normalizeAlias referenceRuntime "@ bob" = " bob" ∧
    normalizeAlias referenceRuntime " bob" = "bob" ∧ ¬ OneAlias Int referenceRuntime "@ bob" := by
  have hfirst : normalizeAlias referenceRuntime "@ bob" = " bob" := by decide
  have hsecond : normalizeAlias referenceRuntime " bob" = "bob" := by decide
  refine ⟨hfirst, hsecond, ?_⟩
  intro h
  have hsame := h.idempotent
  rw [hfirst, hsecond] at hsame
  exact absurd hsame (by decide)

end PiMesh
