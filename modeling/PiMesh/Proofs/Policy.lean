/-
What a policy file lets through.

A decision only reads three things of a policy: whether a deny rule matches, whether an
allow rule does, and whether the sender may force.  One policy is as strict as another when
these are ordered, and the decisions are then ordered too.  What is left for the loader is
which changes of a document order them: a change that leaves the allow list without a rule
does not, since an empty list stands for the permissive default.
-/
import PiMesh.Broker.PolicyFile
import PiMesh.Js.JsonRoundTrip

namespace PiMesh

open Js

/-- `allow` above `downgrade` above `deny`. -/
def PolicyDecision.rank : PolicyDecision → Nat
  | .deny _ => 0
  | .downgrade => 1
  | .allow => 2

/-! ### Decisions -/

section Decisions

variable {policy policy' : MeshPolicy} {ctx : PolicyContext}

/-- The deny rules and the allow list let the context through. -/
def PolicyPasses (policy : MeshPolicy) (ctx : PolicyContext) : Prop :=
  (∀ rule ∈ policy.deny, ruleMatches rule ctx = false) ∧
    ∃ rule ∈ policy.allow, ruleMatches rule ctx = true

theorem evaluatePolicy_passes (h : PolicyPasses policy ctx) :
    evaluatePolicy policy ctx =
      if ctx.priority = .force ∧ ctx.sender ∉ policy.forceAllowedFrom then
        if policy.forceDowngrade then .downgrade else .deny .policyDenied
      else .allow := by
  have hdeny : policy.deny.any (fun rule => ruleMatches rule ctx) = false := by
    rw [List.any_eq_false]
    intro rule hrule
    rw [h.1 rule hrule]
    exact Bool.false_ne_true
  have hallow : policy.allow.any (fun rule => ruleMatches rule ctx) = true := by
    rw [List.any_eq_true]
    exact h.2
  unfold evaluatePolicy
  rw [hdeny, hallow]
  rfl

theorem evaluatePolicy_not_passes (h : ¬ PolicyPasses policy ctx) :
    evaluatePolicy policy ctx = .deny .policyDenied := by
  unfold evaluatePolicy
  split
  · rfl
  · next hdeny =>
      rw [if_pos]
      rw [Bool.not_eq_true', List.any_eq_false]
      intro rule hrule hmatch
      refine h ⟨fun r hr => ?_, rule, hrule, hmatch⟩
      rw [Bool.not_eq_true, List.any_eq_false] at hdeny
      exact Bool.not_eq_true _ ▸ hdeny r hr

/-- One policy is as strict as another. -/
structure AsStrict (policy' policy : MeshPolicy) : Prop where
  deny : ∀ ctx, ∀ rule ∈ policy.deny, ruleMatches rule ctx = true →
    ∃ rule ∈ policy'.deny, ruleMatches rule ctx = true
  allow : ∀ ctx, ∀ rule ∈ policy'.allow, ruleMatches rule ctx = true →
    ∃ rule ∈ policy.allow, ruleMatches rule ctx = true
  force : ∀ name ∈ policy'.forceAllowedFrom, name ∈ policy.forceAllowedFrom
  downgrade : policy'.forceDowngrade = policy.forceDowngrade

theorem AsStrict.passes (h : AsStrict policy' policy) (hp : PolicyPasses policy' ctx) :
    PolicyPasses policy ctx := by
  refine ⟨fun rule hrule => ?_, ?_⟩
  · by_contra hc
    obtain ⟨rule', hrule', hmatch⟩ := h.deny ctx rule hrule (Bool.not_eq_false _ ▸ hc)
    exact Bool.false_ne_true ((hp.1 rule' hrule').symm.trans hmatch)
  · obtain ⟨rule, hrule, hmatch⟩ := hp.2
    exact h.allow ctx rule hrule hmatch

/-- Decisions follow the order of the policies. -/
theorem AsStrict.rank_le (h : AsStrict policy' policy) (ctx : PolicyContext) :
    (evaluatePolicy policy' ctx).rank ≤ (evaluatePolicy policy ctx).rank := by
  by_cases hp' : PolicyPasses policy' ctx
  swap
  · rw [evaluatePolicy_not_passes hp']
    exact Nat.zero_le _
  rw [evaluatePolicy_passes hp', evaluatePolicy_passes (h.passes hp'), h.downgrade]
  by_cases hforce : ctx.priority = .force ∧ ctx.sender ∉ policy.forceAllowedFrom
  · have hforce' : ctx.priority = .force ∧ ctx.sender ∉ policy'.forceAllowedFrom :=
      ⟨hforce.1, fun hc => hforce.2 (h.force _ hc)⟩
    rw [if_pos hforce, if_pos hforce']
  · rw [if_neg hforce]
    show _ ≤ 2
    split
    · split
      · exact Nat.le_succ 1
      · exact Nat.zero_le _
    · exact Nat.le_refl _

end Decisions

/-! ### Documents -/

section Documents

variable {ν : Type} [FloorNumber ν] {p q m m' : Members ν} {key : String}

/-- The documents differ under this key only. -/
def SameBut (key : String) (p q : Members ν) : Prop := ∀ other, other ≠ key → getOf q other = getOf p other

/-- One more field of the rule constrains it. -/
structure Narrower (m m' : Members ν) : Prop where
  change : ∃ key ∈ ["from", "to", "room"], (getOf m key).bind asStr = none ∧
    (∃ s, getOf m' key = some (.str s)) ∧ SameBut key m m'

/-- A field of the rule is there, but is no string any more. -/
structure Mistyped (m m' : Members ν) : Prop where
  change : ∃ key ∈ ["from", "to", "room"], (∃ s, getOf m key = some (.str s)) ∧
    (∃ v, getOf m' key = some v ∧ asStr v = none) ∧ SameBut key m m'

/-- The changes of a document that never allow more. -/
inductive Tightened (p q : Members ν) : Prop
  /-- One allow rule fewer, and a rule is left. -/
  | allowFewer {l r : List (Json ν)} {x : Json ν} (hp : itemsOf (getOf p "allow") = l ++ x :: r)
      (hq : itemsOf (getOf q "allow") = l ++ r) (hleft : parseRules (getOf q "allow") ≠ [])
      (hsame : SameBut "allow" p q)
  | denyMore {l r : List (Json ν)} {x : Json ν} (hp : itemsOf (getOf p "deny") = l ++ r)
      (hq : itemsOf (getOf q "deny") = l ++ x :: r) (hsame : SameBut "deny" p q)
  | forceFewer {l r : List (Json ν)} {x : Json ν}
      (hp : itemsOf (getOf p "forceAllowedFrom") = l ++ x :: r)
      (hq : itemsOf (getOf q "forceAllowedFrom") = l ++ r) (hsame : SameBut "forceAllowedFrom" p q)
  | allowNarrower {l r : List (Json ν)} {m m' : Members ν} (hm : Narrower m m')
      (hp : itemsOf (getOf p "allow") = l ++ .obj m :: r)
      (hq : itemsOf (getOf q "allow") = l ++ .obj m' :: r) (hsame : SameBut "allow" p q)
  | denyMistyped {l r : List (Json ν)} {m m' : Members ν} (hm : Mistyped m m')
      (hp : itemsOf (getOf p "deny") = l ++ .obj m :: r)
      (hq : itemsOf (getOf q "deny") = l ++ .obj m' :: r) (hsame : SameBut "deny" p q)

/-- The fields of a rule that a document leaves to it. -/
theorem ruleMatches_mono {rule rule' : PolicyRule} {ctx : PolicyContext}
    (hsender : rule.sender = none ∨ rule.sender = rule'.sender)
    (hrecipient : rule.recipient = none ∨ rule.recipient = rule'.recipient)
    (hroom : rule.room = none ∨ rule.room = rule'.room) (h : ruleMatches rule' ctx = true) :
    ruleMatches rule ctx = true := by
  unfold ruleMatches at h ⊢
  obtain ⟨hpair, hr⟩ := Bool.and_eq_true_iff.mp h
  obtain ⟨hs, ht⟩ := Bool.and_eq_true_iff.mp hpair
  have hfield : ∀ {a b : Option String} {v : String}, (a = none ∨ a = b) → matchPattern b v = true →
      matchPattern a v = true := by
    intro a b v hab hb
    rcases hab with rfl | rfl
    · rfl
    · exact hb
  rw [hfield hsender hs, hfield hrecipient ht, hfield hroom hr]
  rfl

/-- A rule of which a field goes matches whatever it matched. -/
theorem parseRule_mono {key : String} (hnone : (getOf m key).bind asStr = none) (hsame : SameBut key m m') {ctx : PolicyContext}
    {rule' : PolicyRule} (hrule' : parseRule (.obj m') = some rule') (h : ruleMatches rule' ctx = true) :
    ∃ rule, parseRule (.obj m) = some rule ∧ ruleMatches rule ctx = true := by
  obtain rfl := Option.some.inj hrule'
  refine ⟨_, rfl, ruleMatches_mono ?_ ?_ ?_ h⟩
  · by_cases hk : "from" = key
    · exact .inl (by rw [hk]; exact hnone)
    · exact .inr (by rw [hsame _ hk])
  · by_cases hk : "to" = key
    · exact .inl (by rw [hk]; exact hnone)
    · exact .inr (by rw [hsame _ hk])
  · by_cases hk : "room" = key
    · exact .inl (by rw [hk]; exact hnone)
    · exact .inr (by rw [hsame _ hk])

/-- The rules of a list with one item changed. -/
theorem parseRules_mono {v v' : Option (Json ν)} {l r : List (Json ν)} {x x' : Json ν}
    (hv : itemsOf v = l ++ x :: r) (hv' : itemsOf v' = l ++ x' :: r) {ctx : PolicyContext}
    (hx : ∀ rule', parseRule x' = some rule' → ruleMatches rule' ctx = true →
      ∃ rule, parseRule x = some rule ∧ ruleMatches rule ctx = true)
    (h : ∃ rule ∈ parseRules v', ruleMatches rule ctx = true) :
    ∃ rule ∈ parseRules v, ruleMatches rule ctx = true := by
  obtain ⟨rule', hrule', hmatch⟩ := h
  unfold parseRules at hrule' ⊢
  rw [hv'] at hrule'
  rw [hv]
  obtain ⟨item, hitem, hparsed⟩ := List.mem_filterMap.mp hrule'
  rcases List.mem_append.mp hitem with hitem | hitem
  · exact ⟨rule', List.mem_filterMap.mpr ⟨item, List.mem_append_left _ hitem, hparsed⟩, hmatch⟩
  · rcases List.mem_cons.mp hitem with rfl | hitem
    · obtain ⟨rule, hrule, hmatch⟩ := hx rule' hparsed hmatch
      exact ⟨rule, List.mem_filterMap.mpr ⟨x, by simp, hrule⟩, hmatch⟩
    · exact ⟨rule', List.mem_filterMap.mpr ⟨item, by simp [hitem], hparsed⟩, hmatch⟩

theorem mem_parseRules_of_subset {v v' : Option (Json ν)} (h : ∀ x ∈ itemsOf v, x ∈ itemsOf v')
    {rule : PolicyRule} (hrule : rule ∈ parseRules v) : rule ∈ parseRules v' := by
  obtain ⟨item, hitem, hparsed⟩ := List.mem_filterMap.mp hrule
  exact List.mem_filterMap.mpr ⟨item, h item hitem, hparsed⟩

/-- The allow list of a document with a rule in it. -/
theorem policyOf_allow (h : parseRules (getOf p "allow") ≠ []) :
    (policyOf p).allow = parseRules (getOf p "allow") := if_neg h

theorem policyOf_allow_congr (h : getOf q "allow" = getOf p "allow") :
    (policyOf q).allow = (policyOf p).allow := by
  unfold policyOf
  rw [h]

theorem policyOf_deny_congr (h : getOf q "deny" = getOf p "deny") :
    (policyOf q).deny = (policyOf p).deny := by
  unfold policyOf
  rw [h]

theorem policyOf_force_congr (h : getOf q "forceAllowedFrom" = getOf p "forceAllowedFrom") :
    (policyOf q).forceAllowedFrom = (policyOf p).forceAllowedFrom := by
  unfold policyOf
  rw [h]

theorem policyOf_downgrade_congr (h : getOf q "forceDowngrade" = getOf p "forceDowngrade") :
    (policyOf q).forceDowngrade = (policyOf p).forceDowngrade := by
  unfold policyOf isTrue
  rw [h]

/-! Documents that differ in one list are compared on it alone. -/

theorem asStrict_allow (hsame : SameBut "allow" p q)
    (h : ∀ ctx, ∀ rule ∈ (policyOf q).allow, ruleMatches rule ctx = true →
      ∃ rule ∈ (policyOf p).allow, ruleMatches rule ctx = true) :
    AsStrict (policyOf q) (policyOf p) := by
  have hdeny := policyOf_deny_congr (hsame "deny" (by decide))
  have hforce := policyOf_force_congr (hsame "forceAllowedFrom" (by decide))
  exact ⟨fun ctx rule hrule hmatch => ⟨rule, hdeny ▸ hrule, hmatch⟩, h, fun name hname => hforce ▸ hname,
    policyOf_downgrade_congr (hsame _ (by decide))⟩

theorem asStrict_deny (hsame : SameBut "deny" p q)
    (h : ∀ ctx, ∀ rule ∈ (policyOf p).deny, ruleMatches rule ctx = true →
      ∃ rule ∈ (policyOf q).deny, ruleMatches rule ctx = true) :
    AsStrict (policyOf q) (policyOf p) := by
  have hallow := policyOf_allow_congr (hsame "allow" (by decide))
  have hforce := policyOf_force_congr (hsame "forceAllowedFrom" (by decide))
  exact ⟨h, fun ctx rule hrule hmatch => ⟨rule, hallow ▸ hrule, hmatch⟩, fun name hname => hforce ▸ hname,
    policyOf_downgrade_congr (hsame _ (by decide))⟩

theorem asStrict_force (hsame : SameBut "forceAllowedFrom" p q)
    (h : ∀ name ∈ (policyOf q).forceAllowedFrom, name ∈ (policyOf p).forceAllowedFrom) :
    AsStrict (policyOf q) (policyOf p) := by
  have hallow := policyOf_allow_congr (hsame "allow" (by decide))
  have hdeny := policyOf_deny_congr (hsame "deny" (by decide))
  exact ⟨fun ctx rule hrule hmatch => ⟨rule, hdeny ▸ hrule, hmatch⟩,
    fun ctx rule hrule hmatch => ⟨rule, hallow ▸ hrule, hmatch⟩, h,
    policyOf_downgrade_congr (hsame _ (by decide))⟩

theorem mem_without {l r : List (Json ν)} {x y : Json ν} (h : y ∈ l ++ r) : y ∈ l ++ x :: r := by
  rcases List.mem_append.mp h with h | h
  · exact List.mem_append_left _ h
  · exact List.mem_append_right _ (List.mem_cons_of_mem _ h)

theorem parseRules_obj {v : Option (Json ν)} {l r : List (Json ν)} {m : Members ν}
    (h : itemsOf v = l ++ .obj m :: r) : parseRules v ≠ [] := by
  have hmem : Json.obj m ∈ itemsOf v := by
    rw [h]
    simp
  exact List.ne_nil_of_mem (List.mem_filterMap.mpr ⟨_, hmem, rfl⟩)

/-- A tightened document makes a policy that is as strict. -/
theorem Tightened.asStrict (h : Tightened p q) : AsStrict (policyOf q) (policyOf p) := by
  cases h with
  | allowFewer hp hq hleft hsame =>
      have hsub : ∀ y ∈ itemsOf (getOf q "allow"), y ∈ itemsOf (getOf p "allow") := by
        intro y hy
        rw [hp]
        exact mem_without (hq ▸ hy)
      have hmore : parseRules (getOf p "allow") ≠ [] := by
        obtain ⟨rule, hrule⟩ := List.exists_mem_of_ne_nil _ hleft
        exact List.ne_nil_of_mem (mem_parseRules_of_subset hsub hrule)
      refine asStrict_allow hsame fun ctx rule hrule hmatch => ⟨rule, ?_, hmatch⟩
      rw [policyOf_allow hleft] at hrule
      rw [policyOf_allow hmore]
      exact mem_parseRules_of_subset hsub hrule
  | denyMore hp hq hsame =>
      have hsub : ∀ y ∈ itemsOf (getOf p "deny"), y ∈ itemsOf (getOf q "deny") := by
        intro y hy
        rw [hq]
        exact mem_without (hp ▸ hy)
      exact asStrict_deny hsame fun ctx rule hrule hmatch =>
        ⟨rule, mem_parseRules_of_subset hsub hrule, hmatch⟩
  | forceFewer hp hq hsame =>
      refine asStrict_force hsame fun name hname => ?_
      obtain ⟨item, hitem, hstr⟩ := List.mem_filterMap.mp hname
      refine List.mem_filterMap.mpr ⟨item, ?_, hstr⟩
      rw [hp]
      exact mem_without (hq ▸ hitem)
  | allowNarrower hm hp hq hsame =>
      obtain ⟨key, -, hnone, -, hbut⟩ := hm.change
      refine asStrict_allow hsame fun ctx rule hin hmatch => ?_
      rw [policyOf_allow (parseRules_obj hq)] at hin
      rw [policyOf_allow (parseRules_obj hp)]
      exact parseRules_mono hp hq (fun _ hparsed hm => parseRule_mono hnone hbut hparsed hm)
        ⟨rule, hin, hmatch⟩
  | denyMistyped hm hp hq hsame =>
      obtain ⟨key, -, -, ⟨v, hv, hstr⟩, hbut⟩ := hm.change
      refine asStrict_deny hsame fun ctx rule hin hmatch => ?_
      have hnone := (congrArg (fun o => o.bind asStr) hv).trans hstr
      exact parseRules_mono hq hp (fun _ hparsed hm => parseRule_mono hnone
        (fun other hne => (hbut other hne).symm) hparsed hm) ⟨rule, hin, hmatch⟩

theorem loadPolicy_obj {text : List Char} (h : Json.parse text = some (.obj p)) :
    loadPolicy ν (some text) = policyOf p := by
  unfold loadPolicy
  rw [Option.bind_some, h]

/-- **A tightened document allows no more.** -/
theorem policy_monotone {text text' : List Char} (hp : Json.parse text = some (.obj p))
    (hq : Json.parse text' = some (.obj q)) (h : Tightened p q) (ctx : PolicyContext) :
    (evaluatePolicy (loadPolicy ν (some text')) ctx).rank ≤
      (evaluatePolicy (loadPolicy ν (some text)) ctx).rank := by
  rw [loadPolicy_obj hp, loadPolicy_obj hq]
  exact h.asStrict.rank_le ctx

/-- A rule about `alice`. -/
def aboutAlice : Members Int := [("from", .str "alice")]

/-- A document with one list of rules. -/
def ruleDocument (key : String) (rules : List (Members Int)) : Members Int :=
  [(key, .arr (rules.map .obj))]

theorem sameBut_ruleDocument (key : String) (rules rules' : List (Members Int)) :
    SameBut key (ruleDocument key rules) (ruleDocument key rules') := by
  intro other hne
  simp [getOf, lookupEntry, ruleDocument, hne.symm]

def fromBob : PolicyContext := ⟨"bob", "carol", "default", .normal⟩

/-- One of two allow rules is taken away. -/
theorem policy_monotone_fewer :
    (evaluatePolicy (loadPolicy Int (some (Json.stringify (.obj (ruleDocument "allow" [aboutAlice])))))
        fromBob).rank ≤
      (evaluatePolicy (loadPolicy Int (some (Json.stringify (.obj
        (ruleDocument "allow" [aboutAlice, []]))))) fromBob).rank := by
  refine policy_monotone (p := ruleDocument "allow" [aboutAlice, []])
    (q := ruleDocument "allow" [aboutAlice]) ?_ ?_ ?_ fromBob
  · refine (Json.parse_stringify _ ?_).trans rfl
    simp [Json.WellFormed, Json.WellFormedMembers, Json.WellFormedItems, ruleDocument, aboutAlice]
  · refine (Json.parse_stringify _ ?_).trans rfl
    simp [Json.WellFormed, Json.WellFormedMembers, Json.WellFormedItems, ruleDocument, aboutAlice]
  · exact .allowFewer (l := [.obj aboutAlice]) (r := []) (x := .obj []) rfl rfl (by decide)
      (sameBut_ruleDocument _ _ _)

/-- The document `q` allows the context and `p` does not. -/
def Widens (p q : Members Int) (ctx : PolicyContext) : Prop :=
  evaluatePolicy (loadPolicy Int (some (Json.stringify (.obj p)))) ctx = .deny .policyDenied ∧
    evaluatePolicy (loadPolicy Int (some (Json.stringify (.obj q)))) ctx = .allow

/-- The last allow rule is taken away; its field is mistyped; a deny rule gets a field. -/
theorem stricter_document_widens :
    (SameBut "allow" (ruleDocument "allow" [aboutAlice]) (ruleDocument "allow" []) ∧
      Widens (ruleDocument "allow" [aboutAlice]) (ruleDocument "allow" []) fromBob) ∧
    (Mistyped aboutAlice [("from", .bool true)] ∧
      Widens (ruleDocument "allow" [aboutAlice]) (ruleDocument "allow" [[("from", .bool true)]]) fromBob) ∧
    (Narrower [] aboutAlice ∧
      Widens (ruleDocument "deny" [[]]) (ruleDocument "deny" [aboutAlice]) fromBob) := by
  have hload : ∀ p : Members Int, Json.WellFormed (.obj p) → Json.wire (.obj p) = .obj p →
      loadPolicy Int (some (Json.stringify (.obj p))) = policyOf p := fun p hwf hwire =>
    loadPolicy_obj ((Json.parse_stringify _ hwf).trans (congrArg some hwire))
  have hwidens : ∀ {p q : Members Int}, Json.WellFormed (.obj p) → Json.wire (.obj p) = .obj p →
      Json.WellFormed (.obj q) → Json.wire (.obj q) = .obj q →
      evaluatePolicy (policyOf p) fromBob = .deny .policyDenied →
      evaluatePolicy (policyOf q) fromBob = .allow → Widens p q fromBob := by
    intro p q hp hwp hq hwq hdeny hallow
    unfold Widens
    rw [hload p hp hwp, hload q hq hwq]
    exact ⟨hdeny, hallow⟩
  refine ⟨⟨sameBut_ruleDocument _ _ _, hwidens ?_ rfl ?_ rfl (by decide) (by decide)⟩,
    ⟨⟨"from", by decide, ⟨_, rfl⟩, ⟨_, rfl, rfl⟩, ?_⟩,
      hwidens ?_ rfl ?_ rfl (by decide) (by decide)⟩,
    ⟨⟨"from", by decide, rfl, ⟨_, rfl⟩, ?_⟩, hwidens ?_ rfl ?_ rfl (by decide) (by decide)⟩⟩
  case refine_3 | refine_6 =>
    intro other hne
    simp [getOf, lookupEntry, aboutAlice, hne.symm]
  all_goals
    simp [Json.WellFormed, Json.WellFormedMembers, Json.WellFormedItems, ruleDocument, aboutAlice]

end Documents

/-! ### Force -/

section Force

/-- A pattern that ends in `*`, and a value that starts as it does. -/
def wildcardMatches (pattern value : String) : Bool :=
  endsWithString pattern "*" && pattern.toList.dropLast.isPrefixOf value.toList

theorem endsWithString_star (value : String) (h : value = "*") :
    endsWithString value "*" = true ∧ value.toList.dropLast = [] := by
  subst h
  exact ⟨by decide, by decide⟩

/-- A pattern matches itself, and what a wildcard in it covers. -/
theorem matchPattern_iff (pattern value : String) :
    matchPattern (some pattern) value = true ↔
      wildcardMatches pattern value = true ∨ pattern = value := by
  show (if pattern = "*" then true else if endsWithString pattern "*" = true then
      pattern.toList.dropLast.isPrefixOf value.toList else pattern == value) = true ↔ _
  unfold wildcardMatches
  by_cases hall : pattern = "*"
  · obtain ⟨hends, hfront⟩ := endsWithString_star pattern hall
    rw [if_pos hall, hends, hfront]
    exact iff_of_true rfl (.inl rfl)
  rw [if_neg hall]
  by_cases hends : endsWithString pattern "*" = true
  · rw [if_pos hends, hends, Bool.true_and]
    refine ⟨.inl, fun h => h.elim id ?_⟩
    rintro rfl
    rw [List.isPrefixOf_iff_prefix]
    exact List.dropLast_prefix _
  · rw [if_neg hends, Bool.eq_false_iff.mpr hends, Bool.false_and, beq_iff_eq]
    exact (or_iff_right Bool.false_ne_true).symm

/-- **Force follows the wildcards only where the sender is listed by its own name.** -/
theorem force_follows_patterns (policy : MeshPolicy) (ctx : PolicyContext)
    (hpasses : PolicyPasses policy ctx) (hforce : ctx.priority = .force) :
    (evaluatePolicy policy ctx = .allow ↔
        ∃ entry ∈ policy.forceAllowedFrom, matchPattern (some entry) ctx.sender = true) ↔
      ((∃ entry ∈ policy.forceAllowedFrom, wildcardMatches entry ctx.sender = true) →
        ctx.sender ∈ policy.forceAllowedFrom) := by
  have hdecision : evaluatePolicy policy ctx = .allow ↔ ctx.sender ∈ policy.forceAllowedFrom := by
    rw [evaluatePolicy_passes hpasses]
    by_cases hlisted : ctx.sender ∈ policy.forceAllowedFrom
    · rw [if_neg fun hc => hc.2 hlisted]
      exact iff_of_true rfl hlisted
    · rw [if_pos ⟨hforce, hlisted⟩]
      refine iff_of_false ?_ hlisted
      split
      · nofun
      · nofun
  rw [hdecision]
  constructor
  · rintro h ⟨entry, hentry, hwild⟩
    exact h.mpr ⟨entry, hentry, (matchPattern_iff _ _).mpr (.inl hwild)⟩
  · intro h
    constructor
    · intro hlisted
      exact ⟨ctx.sender, hlisted, (matchPattern_iff _ _).mpr (.inr rfl)⟩
    · rintro ⟨entry, hentry, hmatch⟩
      rcases (matchPattern_iff _ _).mp hmatch with hwild | rfl
      · exact h ⟨entry, hentry, hwild⟩
      · exact hentry

/-- The policy of the documented example. -/
def operatorPolicy : MeshPolicy := { forceAllowedFrom := ["lead", "operator-*"] }

theorem passes_operatorPolicy (sender : String) :
    PolicyPasses operatorPolicy ⟨sender, "bob", "default", .force⟩ :=
  ⟨nofun, ⟨some "*", some "*", some "*"⟩, List.mem_singleton.mpr rfl, rfl⟩

/-- `lead` is listed by its name. -/
theorem force_follows_patterns_lead :
    evaluatePolicy operatorPolicy ⟨"lead", "bob", "default", .force⟩ = .allow ↔
      ∃ entry ∈ operatorPolicy.forceAllowedFrom, matchPattern (some entry) "lead" = true :=
  (force_follows_patterns operatorPolicy ⟨"lead", "bob", "default", .force⟩
    (passes_operatorPolicy "lead") rfl).mpr fun _ => List.mem_cons_self

/-- `operator-1` is not. -/
theorem operator_not_authorized :
    PolicyPasses operatorPolicy ⟨"operator-1", "bob", "default", .force⟩ ∧
      (∃ entry ∈ operatorPolicy.forceAllowedFrom, matchPattern (some entry) "operator-1" = true) ∧
      evaluatePolicy operatorPolicy ⟨"operator-1", "bob", "default", .force⟩ = .deny .policyDenied :=
  ⟨passes_operatorPolicy _, ⟨"operator-*", by decide, by decide⟩, by decide⟩

end Force

end PiMesh
