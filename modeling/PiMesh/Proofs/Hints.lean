/-
When a message goes without its reply hint.

The hint may be left out only where the reader has seen one.  An entry of the tracker
stands for such a hint: `Remembers` ties it to the message that carried it, to the time of
that message, and to how many messages of the sender came after it.
-/
import PiMesh.Extension.Content
import PiMesh.Lib.Transition

namespace PiMesh

open Js Transition

namespace ReplyHintTracker

/-- A call on the tracker: `shouldShow` for the sender of a message, or `reset`. -/
inductive HintEvent where
  | shouldShow (sender : Option String)
  | reset
deriving DecidableEq

/-- The tracker after a call; an event carries what `Date.now()` answers. -/
def step (t : ReplyHintTracker) : Int × HintEvent → ReplyHintTracker
  | (now, .shouldShow sender) => (t.shouldShow now sender).2
  | (_, .reset) => {}

def HintStep (t : ReplyHintTracker) (e : Int × HintEvent) (t' : ReplyHintTracker) : Prop :=
  t' = t.step e

/-- The call is for a message of this sender. -/
def isFrom (sender : String) (x : ReplyHintTracker × Int × HintEvent) : Bool :=
  x.2.2 = .shouldShow (some sender)

/-- The message carries the hint. -/
def hinted (x : ReplyHintTracker × Int × HintEvent) : Bool :=
  match x.2.2 with
  | .shouldShow sender => (x.1.shouldShow x.2.1 sender).1
  | .reset => false

/-- The call forgets what was shown: a reset, or a new sender where the tracker is full. -/
def clears (x : ReplyHintTracker × Int × HintEvent) : Bool :=
  match x.2.2 with
  | .reset => true
  | .shouldShow none => false
  | .shouldShow (some s) =>
      s ≠ "" && !x.1.seen.has s && decide (hintTrackerCap ≤ x.1.seen.size)

/-- After the hint that `x` gave to `sender`, at most `n` messages of `sender` went without
one, and no call has cleared the tracker. -/
structure Since (sender : String) (n : Nat) (x : ReplyHintTracker × Int × HintEvent)
    (after : List (ReplyHintTracker × Int × HintEvent)) : Prop where
  asked : isFrom sender x = true
  shown : hinted x = true
  kept : ∀ y ∈ after, clears y = false
  few : (after.filter (isFrom sender)).length ≤ n

/-- Each entry stands for a hint of the run. -/
def Remembers (tr : List (ReplyHintTracker × Int × HintEvent)) (t : ReplyHintTracker) : Prop :=
  ∀ sender st, t.seen.get? sender = some st → sender ≠ "" ∧
    ∃ before x after, tr = before ++ x :: after ∧ x.2.1 = st.lastHintAt ∧
      Since sender (st.count % hintEvery) x after

variable {tr : List (ReplyHintTracker × Int × HintEvent)} {t t' : ReplyHintTracker} {now : Int}
  {sender : String} {from_ : Option String}

theorem Since.kept_snoc {n : Nat} {x y : ReplyHintTracker × Int × HintEvent}
    {after : List (ReplyHintTracker × Int × HintEvent)} (h : Since sender n x after)
    (hy : clears y = false) : ∀ z ∈ after ++ [y], clears z = false := by
  intro z hz
  rcases List.mem_append.mp hz with hz | hz
  · exact h.kept z hz
  · rw [List.mem_singleton.mp hz]
    exact hy

/-- A call for another sender. -/
theorem Since.snoc {n : Nat} {x y : ReplyHintTracker × Int × HintEvent}
    {after : List (ReplyHintTracker × Int × HintEvent)} (h : Since sender n x after)
    (hy : clears y = false) (hother : isFrom sender y = false) :
    Since sender n x (after ++ [y]) where
  asked := h.asked
  shown := h.shown
  kept := h.kept_snoc hy
  few := by
    rw [List.filter_append, List.filter_singleton, hother]
    simpa using h.few

/-- A call for this sender. -/
theorem Since.snoc_self {n m : Nat} {x y : ReplyHintTracker × Int × HintEvent}
    {after : List (ReplyHintTracker × Int × HintEvent)} (h : Since sender n x after)
    (hy : clears y = false) (hm : n + 1 ≤ m) : Since sender m x (after ++ [y]) where
  asked := h.asked
  shown := h.shown
  kept := h.kept_snoc hy
  few := by
    have hfew := h.few
    have hone : ([y].filter (isFrom sender)).length ≤ 1 := List.length_filter_le _ _
    rw [List.filter_append, List.length_append]
    omega

theorem isFrom_iff (x : ReplyHintTracker × Int × HintEvent) :
    isFrom sender x = true ↔ x.2.2 = .shouldShow (some sender) := by
  simp [isFrom]

/-- An entry that a call leaves alone. -/
theorem Remembers.untouched {e : Int × HintEvent} (h : Remembers tr t) {st : HintState}
    (hget : t.seen.get? sender = some st) (he : clears (t, e) = false)
    (hother : e.2 ≠ .shouldShow (some sender)) : sender ≠ "" ∧
      ∃ before x after, tr ++ [(t, e)] = before ++ x :: after ∧ x.2.1 = st.lastHintAt ∧
        Since sender (st.count % hintEvery) x after := by
  obtain ⟨hne, before, x, after, htr, hat, hsince⟩ := h sender st hget
  have hfrom : isFrom sender (t, e) = false := by
    rw [Bool.eq_false_iff, ne_eq, isFrom_iff]
    exact hother
  exact ⟨hne, before, x, after ++ [(t, e)], by rw [htr]; simp, hat, hsince.snoc he hfrom⟩

/-- A sender that is not known, or has no name. -/
def IsUnknown (from_ : Option String) : Prop := from_ = none ∨ from_ = some ""

instance (from_ : Option String) : Decidable (IsUnknown from_) :=
  inferInstanceAs (Decidable (_ ∨ _))

theorem shouldShow_unknown (h : IsUnknown from_) : t.shouldShow now from_ = (true, t) := by
  rcases h with rfl | rfl
  · rfl
  · simp [shouldShow]

theorem exists_sender (h : ¬ IsUnknown from_) : ∃ a, a ≠ "" ∧ from_ = some a := by
  cases from_ with
  | none => exact absurd (.inl rfl) h
  | some a => exact ⟨a, fun heq => h (.inr (by rw [heq])), rfl⟩

/-- What a call for a message of `sender` does. -/
theorem shouldShow_cases (t : ReplyHintTracker) (now : Int) (hne : sender ≠ "") :
    (∃ seen, (seen = Map.empty ∨ seen = t.seen ∧ t.seen.size < hintTrackerCap) ∧
      t.seen.get? sender = none ∧ t.shouldShow now (some sender) = (true, ⟨seen.set sender ⟨now, 1⟩⟩)) ∨
    ∃ st, t.seen.get? sender = some st ∧
      (t.shouldShow now (some sender) = (true, ⟨t.seen.set sender ⟨now, st.count + 1⟩⟩) ∨
        now - st.lastHintAt < hintSilenceMs ∧ (st.count + 1) % hintEvery ≠ 0 ∧
          t.shouldShow now (some sender)
            = (false, ⟨t.seen.set sender ⟨st.lastHintAt, st.count + 1⟩⟩)) := by
  cases hget : t.seen.get? sender with
  | none =>
      left
      by_cases hcap : hintTrackerCap ≤ t.seen.size
      · exact ⟨_, .inl rfl, rfl, by simp [shouldShow, hne, hget, hcap]⟩
      · exact ⟨_, .inr ⟨rfl, by omega⟩, rfl, by simp [shouldShow, hne, hget, hcap]⟩
  | some st =>
      right
      refine ⟨st, rfl, ?_⟩
      by_cases hdue : hintSilenceMs ≤ now - st.lastHintAt ∨ (st.count + 1) % hintEvery = 0
      · left
        simp [shouldShow, hne, hget, hdue]
      · right
        obtain ⟨hrecent, hcount⟩ := not_or.mp hdue
        exact ⟨by omega, hcount, by simp [shouldShow, hne, hget, hdue]⟩

/-- **Every call keeps the entries true.** -/
theorem Remembers.step {e : Int × HintEvent} (h : Remembers tr t) (hstep : HintStep t e t') :
    Remembers (tr ++ [(t, e)]) t' := by
  obtain ⟨now, e⟩ := e
  subst hstep
  cases e with
  | reset =>
      intro sender st hget
      exact absurd hget (by simp [step, Map.get?, Map.empty, lookupEntry])
  | shouldShow from_ =>
      by_cases hunknown : IsUnknown from_
      · simp only [ReplyHintTracker.step, shouldShow_unknown hunknown]
        intro sender st hget
        have hne := (h sender st hget).1
        rcases hunknown with rfl | rfl
        · exact h.untouched hget rfl (by simp)
        · exact h.untouched hget (by simp [clears]) (by simpa using Ne.symm hne)
      obtain ⟨a, ha, rfl⟩ := exists_sender hunknown
      -- a hint that is given now
      have hshown : ∀ {seen : Map String HintState} {count : Nat}, (seen = Map.empty ∨
            seen = t.seen ∧ clears (t, now, .shouldShow (some a)) = false) →
          t.shouldShow now (some a) = (true, ⟨seen.set a ⟨now, count⟩⟩) →
          Remembers (tr ++ [(t, now, .shouldShow (some a))]) ⟨seen.set a ⟨now, count⟩⟩ := by
        intro seen count hseen heq sender st hget
        simp only [Map.get?_set] at hget
        by_cases hs : sender = a
        · rw [if_pos hs] at hget
          obtain rfl := Option.some.inj hget
          refine ⟨by rw [hs]; exact ha, tr, _, [], rfl, rfl, ?_, ?_, by simp, by simp⟩
          · rw [isFrom_iff, hs]
          · simp [hinted, heq]
        · rw [if_neg hs] at hget
          rcases hseen with rfl | ⟨rfl, hclear⟩
          · cases hget
          · exact h.untouched hget hclear (by simpa using Ne.symm hs)
      have hknown : ∀ st, t.seen.get? a = some st →
          clears (t, now, .shouldShow (some a)) = false := by
        intro st hst
        simp [clears, (Map.has_iff t.seen a).mpr ⟨st, hst⟩]
      rcases shouldShow_cases t now ha with ⟨seen, hseen, -, heq⟩ | ⟨st, hst, heq | ⟨-, hcount, heq⟩⟩
      · simp only [ReplyHintTracker.step, heq]
        refine hshown (hseen.imp_right fun hroom => ⟨hroom.1, ?_⟩) heq
        simp [clears, Nat.not_le.mpr hroom.2]
      · simp only [ReplyHintTracker.step, heq]
        exact hshown (.inr ⟨rfl, hknown st hst⟩) heq
      · simp only [ReplyHintTracker.step, heq]
        intro sender st' hget
        simp only [Map.get?_set] at hget
        by_cases hs : sender = a
        · rw [if_pos hs] at hget
          obtain rfl := Option.some.inj hget
          subst hs
          obtain ⟨hne, before, x, after, htr, hat, hsince⟩ := h sender st hst
          refine ⟨hne, before, x, after ++ [(t, now, .shouldShow (some sender))],
            by rw [htr]; simp, hat, hsince.snoc_self (hknown st hst) ?_⟩
          unfold hintEvery at hcount
          show st.count % 20 + 1 ≤ (st.count + 1) % 20
          omega
        · rw [if_neg hs] at hget
          exact h.untouched hget (hknown st hst) (by simpa using Ne.symm hs)

theorem remembers_run (hrun : Run HintStep {} tr t) : Remembers tr t := by
  refine hrun.along (Meets.trivial tr) ?_ fun _ _ _ _ _ _ h _ hstep => h.step hstep
  intro sender st hget
  exact absurd hget (by simp [Map.get?, Map.empty, lookupEntry])

theorem size_step (h : t.seen.size ≤ hintTrackerCap) {e : Int × HintEvent}
    (hstep : HintStep t e t') : t'.seen.size ≤ hintTrackerCap := by
  obtain ⟨now, e⟩ := e
  subst hstep
  cases e with
  | reset => exact Nat.zero_le _
  | shouldShow from_ =>
      by_cases hunknown : IsUnknown from_
      · simpa only [step, shouldShow_unknown hunknown] using h
      obtain ⟨a, ha, rfl⟩ := exists_sender hunknown
      have hkept : ∀ st st', t.seen.get? a = some st →
          (t.seen.set a st').size ≤ hintTrackerCap := by
        intro st st' hget
        rwa [Map.size_set, if_pos ((Map.has_iff _ _).mpr ⟨st, hget⟩)]
      rcases shouldShow_cases t now ha with ⟨seen, hseen, hnone, heq⟩ | ⟨st, hst, heq | ⟨-, -, heq⟩⟩
      · simp only [step, heq]
        rw [Map.size_set]
        rcases hseen with rfl | ⟨rfl, hlt⟩
        · split
          · exact Nat.zero_le _
          · exact Nat.le_of_lt_succ (by decide)
        · split
          · exact h
          · exact hlt
      · simpa only [step, heq] using hkept st _ hst
      · simpa only [step, heq] using hkept st _ hst

/-- **A message goes without its hint only where a message of the same sender carried one
less than the silence ago**, with no more than eighteen of its messages in between and
the tracker never cleared; and the tracker stays within its bound. -/
theorem hints_recur (hrun : Run HintStep {} tr t) :
    t.seen.size ≤ hintTrackerCap ∧
    ∀ before x after sender, tr = before ++ x :: after → isFrom sender x = true →
      hinted x = false → ∃ pre y mid, before = pre ++ y :: mid ∧
        x.2.1 - y.2.1 < hintSilenceMs ∧ Since sender (hintEvery - 2) y mid := by
  constructor
  · exact hrun.invariant (P := fun t => t.seen.size ≤ hintTrackerCap) (Meets.trivial tr)
      (Nat.zero_le _) fun _ _ _ h _ hstep => size_step h hstep
  intro before x after sender htr hfrom hplain
  obtain ⟨t, now, e⟩ := x
  have hbefore : Run HintStep {} before t := by
    rw [htr] at hrun
    obtain ⟨s, hleft, hright⟩ := hrun.split
    have hhead : t = s := hright.head.1
    rwa [hhead]
  rw [isFrom_iff] at hfrom
  obtain rfl : e = .shouldShow (some sender) := hfrom
  have hne : sender ≠ "" := by
    rintro rfl
    simp [hinted, shouldShow] at hplain
  rcases shouldShow_cases t now hne with ⟨seen, -, -, heq⟩ | ⟨st, hst, heq | ⟨hrecent, hcount, -⟩⟩
  · simp [hinted, heq] at hplain
  · simp [hinted, heq] at hplain
  obtain ⟨-, pre, y, mid, hmid, hat, hsince⟩ := remembers_run hbefore sender st hst
  refine ⟨pre, y, mid, hmid, by rw [hat]; exact hrecent, hsince.asked, hsince.shown, hsince.kept, ?_⟩
  refine hsince.few.trans ?_
  unfold hintEvery at hcount ⊢
  omega

theorem hints_recur_twice : ∃ (tr : List (ReplyHintTracker × Int × HintEvent))
    (t : ReplyHintTracker), Run HintStep {} tr t ∧ t.seen.size ≤ hintTrackerCap ∧
      tr.map hinted = [true, false] := by
  let t₀ : ReplyHintTracker := {}
  let t₁ := t₀.step (0, .shouldShow (some "bob"))
  have hfirst : Run HintStep t₀ ([] ++ [(t₀, 0, .shouldShow (some "bob"))]) t₁ := .snoc .nil rfl
  have hrun : Run HintStep t₀ (([] ++ [(t₀, 0, .shouldShow (some "bob"))]) ++
      [(t₁, 1, .shouldShow (some "bob"))]) (t₁.step (1, .shouldShow (some "bob"))) :=
    .snoc hfirst rfl
  exact ⟨_, _, hrun, (hints_recur hrun).1, rfl⟩

end ReplyHintTracker

end PiMesh
