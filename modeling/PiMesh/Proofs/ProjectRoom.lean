/-
The room of one project.

A state directory that is spelled with other separators at its end has the same room: where
`realpath` knows the directory it answers with one path, and where it does not the separators are
stripped before anything is derived.  Stripping again changes nothing, so the root of a path that
consists of separators is the empty one, whichever they are.  The room is one that can be joined,
and it is never taken for the room the project had at an earlier path.
-/
import PiMesh.Proofs.StartConfig

namespace PiMesh

open Js

/-! ### What the result speaks of -/

/-- `[\\/]`. -/
def isSeparator (c : Char) : Bool := c == '/' || c == '\\'

/-- Two spellings of a path, with any separators at the end. -/
def SameUpToEnd (a b : String) : Prop :=
  ∃ path ends ends' : List Char, a.toList = path ++ ends ∧ b.toList = path ++ ends' ∧
    ends.all isSeparator = true ∧ ends'.all isSeparator = true

/-- They name one directory: `realpath` has one answer for both, or throws for both. -/
structure SameDirectory (realpath : String → Option String) (a b : String) : Prop where
  spelling : SameUpToEnd a b
  answer : realpath a = realpath b

/-- The room of a state directory is one room. -/
structure OneRoom (rt : Runtime) (realpath : String → Option String) (stateDir : String) : Prop where
  valid : isValidRoom (deriveProjectRoom rt realpath stateDir) = true
  same : ∀ other, SameDirectory realpath stateDir other →
    deriveProjectRoom rt realpath other = deriveProjectRoom rt realpath stateDir
  fresh : ∀ other, SameDirectory realpath stateDir other →
    isStaleOwnProjectRoom (deriveProjectRoom rt realpath other)
      (deriveProjectRoom rt realpath stateDir) = false

/-! ### Separators -/

theorem withoutSlashes_append {path ends : List Char} (h : ends.all isSeparator = true) :
    withoutSlashes (path ++ ends) = withoutSlashes path := by
  unfold withoutSlashes
  rw [List.reverse_append, List.dropWhile_append_of_pos]
  intro c hc
  exact List.all_eq_true.mp h c (List.mem_reverse.mp hc)

theorem withoutSlashes_same {a b : String} (h : SameUpToEnd a b) :
    withoutSlashes a.toList = withoutSlashes b.toList := by
  obtain ⟨path, ends, ends', ha, hb, hends, hends'⟩ := h
  rw [ha, hb, withoutSlashes_append hends, withoutSlashes_append hends']

theorem withoutSlashes_again (path : List Char) :
    withoutSlashes (withoutSlashes path) = withoutSlashes path := by
  unfold withoutSlashes
  rw [List.reverse_reverse, List.dropWhile_idempotent]

/-- The root depends on what is in front of the separators alone. -/
theorem projectRootOf_same {a b : String} (h : withoutSlashes a.toList = withoutSlashes b.toList) :
    projectRootOf a = projectRootOf b := by
  unfold projectRootOf
  rw [h]

/-- Stripping first does not change the root. -/
theorem projectRootOf_canonical {realpath : String → Option String} {stateDir : String}
    (hfails : realpath stateDir = none) :
    projectRootOf (canonicalStateDir realpath stateDir) = projectRootOf stateDir := by
  unfold canonicalStateDir
  rw [hfails]
  by_cases htrimmed : withoutSlashes stateDir.toList = []
  · simp only [htrimmed, if_true]
  · simp only [htrimmed, if_false]
    apply projectRootOf_same
    rw [String.toList_ofList, withoutSlashes_again]

/-! ### The room -/

theorem projectRoot_same {realpath : String → Option String} {a b : String}
    (h : SameDirectory realpath a b) :
    projectRootOf (canonicalStateDir realpath a) = projectRootOf (canonicalStateDir realpath b) := by
  cases hb : realpath b with
  | some path =>
      have ha : realpath a = some path := h.answer.trans hb
      simp only [canonicalStateDir, ha, hb]
  | none =>
      rw [projectRootOf_canonical hb, projectRootOf_canonical (h.answer.trans hb)]
      exact projectRootOf_same (withoutSlashes_same h.spelling)

theorem deriveProjectRoom_same (rt : Runtime) {realpath : String → Option String} {a b : String}
    (h : SameDirectory realpath a b) :
    deriveProjectRoom rt realpath b = deriveProjectRoom rt realpath a := by
  unfold deriveProjectRoom
  rw [projectRoot_same h]

/-- **Every state directory has one room, which can be joined, however the end of its path is
spelled; and that room is never a stale one of the same project.** -/
theorem project_room_one {rt : Runtime} (hhex : ∀ s, isSha256Hex (rt.sha256 s) = true)
    (realpath : String → Option String) (stateDir : String) : OneRoom rt realpath stateDir where
  valid := isValidRoom_derived hhex realpath stateDir
  same _ h := deriveProjectRoom_same rt h
  fresh _ h := by
    rw [deriveProjectRoom_same rt h]
    exact not_stale_self

/-- The digest of one project's root. -/
def projectRuntime : Runtime :=
  { referenceRuntime with
    sha256 := fun s =>
      if s = "/srv/pi" then "822b81932e12de6ad609226439376fc0c0cddcbdadf5ea5a3545aa7bc52680fa"
      else referenceRuntime.sha256 s }

theorem projectRuntime_hex (s : String) : isSha256Hex (projectRuntime.sha256 s) = true := by
  have hfound : isSha256Hex "822b81932e12de6ad609226439376fc0c0cddcbdadf5ea5a3545aa7bc52680fa" = true := by
    decide +kernel
  have hother : isSha256Hex (referenceRuntime.sha256 s) = true := referenceHost_hex s
  show isSha256Hex (if s = "/srv/pi" then _ else _) = true
  by_cases h : s = "/srv/pi"
  · rw [if_pos h]
    exact hfound
  · rw [if_neg h]
    exact hother

/-- A state directory that does not exist yet, with and without a separator at the end. -/
theorem project_room_pi : OneRoom projectRuntime (fun _ => none) "/srv/pi/.mesh" ∧
    deriveProjectRoom projectRuntime (fun _ => none) "/srv/pi/.mesh" = "proj.pi.822b81" ∧
    deriveProjectRoom projectRuntime (fun _ => none) "/srv/pi/.mesh/" = "proj.pi.822b81" := by
  have hroom := project_room_one projectRuntime_hex (fun _ => none) "/srv/pi/.mesh"
  have hpi : deriveProjectRoom projectRuntime (fun _ => none) "/srv/pi/.mesh" = "proj.pi.822b81" := by
    decide +kernel
  have hend : SameUpToEnd "/srv/pi/.mesh" "/srv/pi/.mesh/" :=
    ⟨"/srv/pi/.mesh".toList, [], ['/'], by simp, rfl, rfl, rfl⟩
  exact ⟨hroom, hpi, (hroom.same _ ⟨hend, rfl⟩).trans hpi⟩

end PiMesh
