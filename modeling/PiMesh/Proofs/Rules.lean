/-
What a validation rule can see.

Two facts about the list of rules let a verdict be carried over from one frame to
another.  A rule does not see the difference between a value and what its JSON text
reads back as.  And a rule looks only at the members it names, so two frames that agree
on those get the same verdict from it; what remains to be looked at after a rewrite are
the rules that name a member the rewrite touched.
-/
import PiMesh.Js.JsonRoundTrip
import PiMesh.Proofs.Cast

namespace PiMesh

open Js Json

variable {ν : Type} [Number ν]

/-! ### Values on the wire -/

/-- A test that does not see the difference between a value and its text. -/
def WireInv (test : Json ν → Bool) : Prop := ∀ v, test (wire v) = test v

theorem wireInv_isStr (p : String → Bool) : WireInv (isStr p : Json ν → Bool) := by
  intro v
  cases v with
  | num x =>
      rw [wire]
      split <;> rfl
  | _ => rfl

theorem wireInv_isInt (p : Int → Bool) : WireInv (isInt p : Json ν → Bool) := by
  intro v
  cases v with
  | num x =>
      rw [wire]
      split
      · rfl
      · next hx =>
          -- only a finite number can be an integer
          cases hn : Number.toInteger? x with
          | none => simp [isInt, hn]
          | some n => exact absurd (Number.isFinite_of_integer x n hn) hx
  | _ => rfl

theorem wireInv_isBool : WireInv (isBool : Json ν → Bool) := by
  intro v
  cases v with
  | num x =>
      rw [wire]
      split <;> rfl
  | _ => rfl

theorem wireInv_isReasonHash : WireInv (isReasonHash : Json ν → Bool) := wireInv_isStr _

theorem all_map_wire {test : Json ν → Bool} (h : WireInv test) (items : List (Json ν)) :
    (wireItems items).all test = items.all test := by
  rw [wireItems_eq_map, List.all_map]
  congr 1
  funext v
  exact h v

theorem length_wireItems (items : List (Json ν)) : (wireItems items).length = items.length := by
  rw [wireItems_eq_map, List.length_map]

theorem wireInv_isArr (lo hi : Nat) {p : Json ν → Bool} (hp : WireInv p) : WireInv (isArr lo hi p) := by
  intro v
  cases v with
  | num x =>
      rw [wire]
      split <;> rfl
  | arr items => simp only [wire, isArr, length_wireItems, all_map_wire hp]
  | _ => rfl

theorem getOf_wireMembers (ms : Members ν) (k : String) :
    getOf (wireMembers ms) k = (getOf ms k).map wire := lookupEntry_wireMembers k ms

theorem wireInv_isValidReservation (rt : Runtime) : WireInv (isValidReservation rt : Json ν → Bool) := by
  intro v
  cases v with
  | num x =>
      rw [wire]
      split <;> rfl
  | obj r =>
      simp only [wire, isValidReservation, getOf_wireMembers]
      cases getOf r "pattern" <;> cases getOf r "reason" <;> cases getOf r "since" <;>
        simp [wireInv_isStr _ _]
  | _ => rfl

theorem wireInv_isValidReservations (rt : Runtime) :
    WireInv (isValidReservations rt : Json ν → Bool) := by
  intro v
  cases v with
  | num x =>
      rw [wire]
      split <;> rfl
  | arr items => exact all_map_wire (wireInv_isValidReservation rt) items
  | _ => rfl

theorem wireInv_isValidCaps : WireInv (isValidCaps : Json ν → Bool) :=
  wireInv_isArr _ _ (wireInv_isStr _)

theorem wireInv_isValidProto : WireInv (isValidProto : Json ν → Bool) := wireInv_isInt _

theorem all_map_option_wire {test : Json ν → Bool} (h : WireInv test) (o : Option (Json ν)) :
    (o.map wire).all test = o.all test := by
  cases o with
  | none => rfl
  | some v => exact h v

theorem isValidPeerEntry_wire (v : Json ν) : isValidPeerEntry (wire v) = isValidPeerEntry v := by
  cases v with
  | num x =>
      rw [wire]
      split <;> rfl
  | obj p =>
      simp only [wire, isValidPeerEntry, getOf_wireMembers, all_map_option_wire wireInv_isValidCaps,
        all_map_option_wire wireInv_isValidProto]
  | _ => rfl

/-! ### Task packages -/

theorem text_wire (o : Option (Json ν)) (max : Nat) :
    TaskPackage.text (o.map wire) max = TaskPackage.text o max := by
  cases o with
  | none => rfl
  | some v =>
      cases v with
      | num x =>
          rw [Option.map_some, wire]
          split <;> rfl
      | _ => rfl

theorem relativePath_wire (v : Json ν) :
    TaskPackage.relativePath (wire v) = TaskPackage.relativePath v := by
  unfold TaskPackage.relativePath
  rw [← text_wire (some v)]
  rfl

theorem readPaths_wire (items : List (Json ν)) (acc : List String) :
    TaskPackage.readPaths (wireItems items) acc = TaskPackage.readPaths items acc := by
  induction items generalizing acc with
  | nil => rfl
  | cons v vs ih =>
      rw [wireItems, TaskPackage.readPaths, TaskPackage.readPaths, relativePath_wire]
      cases TaskPackage.relativePath v with
      | none => rfl
      | some p => exact ih _

theorem length_wireMembers (ms : Members ν) : (wireMembers ms).length = ms.length := by
  rw [← List.length_map Prod.fst, keys_wireMembers, List.length_map]

theorem hasExactKeys_wire (ms : Members ν) (keys : List String) :
    TaskPackage.hasExactKeys (wireMembers ms) keys = TaskPackage.hasExactKeys ms keys := by
  unfold TaskPackage.hasExactKeys
  rw [length_wireMembers, keys_wireMembers]

/-- What a text carries over of an array or an object that a rule takes apart. -/
theorem wire_num_cases (x : ν) : wire (.num x) = .num x ∨ wire (.num x) = (.null : Json ν) := by
  rw [wire]
  split
  · exact .inl rfl
  · exact .inr rfl

theorem validateTaskPackage_wire (rt : Runtime) (v : Json ν) :
    validateTaskPackage rt (wire v) = validateTaskPackage rt v := by
  cases v with
  | num x =>
      rcases wire_num_cases x with h | h
      · rw [h]
      · rw [h]
        rfl
  | obj members =>
      have hsize : stringify (.obj (wireMembers members)) = stringify (.obj members) :=
        stringify_wire (.obj members)
      simp only [wire, validateTaskPackage, hsize, hasExactKeys_wire, lookupEntry_wireMembers, text_wire]
      cases lookupEntry "paths" members with
      | none => rfl
      | some paths =>
          cases paths with
          | num x => rcases wire_num_cases x with h | h <;> simp only [Option.map_some, h]
          | arr items =>
              simp only [Option.map_some, wire, length_wireItems, readPaths_wire]
              cases lookupEntry "branchBase" members with
              | none => rfl
              | some bb =>
                  cases bb with
                  | num x => rcases wire_num_cases x with h | h <;> simp only [Option.map_some, h]
                  | obj bb =>
                      simp only [Option.map_some, wire, hasExactKeys_wire, lookupEntry_wireMembers,
                        text_wire]
                      cases lookupEntry "reply" members with
                      | none => rfl
                      | some rep =>
                          cases rep with
                          | num x => rcases wire_num_cases x with h | h <;> simp only [Option.map_some, h]
                          | obj rep =>
                              simp only [Option.map_some, wire, hasExactKeys_wire,
                                lookupEntry_wireMembers, text_wire]
                          | _ => rfl
                  | _ => rfl
          | _ => rfl
  | _ => rfl

/-! ### Rules on the wire -/

/-- The lookup of the members as a text carries them over. -/
def wireGet (get : Get ν) : Get ν := fun k => (get k).map wire

/-- A rule that gives the same verdict on what comes back. -/
def RuleWireInv (rule : Rule ν) : Prop := ∀ get, rule (wireGet get) = rule get

section RulesOnTheWire

variable {key : String} {test : Json ν → Bool} {code : MeshErrorCode} {detail : String}

theorem optional_wire (h : WireInv test) : RuleWireInv (optional key test code detail) := by
  intro get
  unfold optional wireGet
  cases get key with
  | none => rfl
  | some v => simp only [Option.map_some, h v]

theorem required_wire (h : WireInv test) : RuleWireInv (required key test code detail) := by
  intro get
  unfold required wireGet
  cases get key with
  | none => rfl
  | some v => simp only [Option.map_some, h v]

theorem isText_wire (get : Get ν) (key s : String) : isText (wireGet get) key s = isText get key s := by
  unfold isText wireGet
  cases get key with
  | none => rfl
  | some v =>
      cases v with
      | num x => rcases wire_num_cases x with h | h <;> simp only [Option.map_some, h]
      | _ => rfl

theorem isTrue_wire (get : Get ν) (key : String) : isTrue (wireGet get) key = isTrue get key := by
  unfold isTrue wireGet
  cases get key with
  | none => rfl
  | some v =>
      cases v with
      | num x => rcases wire_num_cases x with h | h <;> simp only [Option.map_some, h]
      | _ => rfl

theorem isSome_wire (get : Get ν) (key : String) : (wireGet get key).isSome = (get key).isSome :=
  Option.isSome_map

theorem isNone_wire (get : Get ν) (key : String) : (wireGet get key).isNone = (get key).isNone := by
  unfold wireGet
  cases get key <;> rfl

theorem any_wire (get : Get ν) (key : String) (h : WireInv test) :
    (wireGet get key).any test = (get key).any test := by
  unfold wireGet
  cases get key with
  | none => rfl
  | some v => exact h v

theorem whenType_wire {types : List MeshFrameType} {rule : Rule ν} (h : RuleWireInv rule) :
    RuleWireInv (whenType types rule) := by
  intro get
  have htext : ∀ s, get "type" = some (.str s) → wireGet get "type" = some (.str s) := by
    intro s hs
    simp [wireGet, hs, wire]
  unfold whenType
  cases hg : get "type" with
  | none => simp [wireGet, hg]
  | some v =>
      cases v with
      | str s => rw [htext s hg]; simp only [h get]
      | num x => rcases wire_num_cases x with hx | hx <;> simp [wireGet, hg, hx]
      | null => simp [wireGet, hg, wire]
      | bool b => simp [wireGet, hg, wire]
      | arr items => simp [wireGet, hg, wire]
      | obj members => simp [wireGet, hg, wire]

theorem bodyRule_wire (rt : Runtime) (maxBody : Nat) : RuleWireInv (bodyRule rt maxBody : Rule ν) := by
  intro get
  unfold bodyRule
  cases hb : get "body" with
  | none => simp only [wireGet, hb, Option.map_none, Option.isSome_map]
  | some v =>
      cases v with
      | num x => rcases wire_num_cases x with hx | hx <;> simp only [wireGet, hb, Option.map_some, hx]
      | str body =>
          have hbody : wireGet get "body" = some (.str body) := by simp [wireGet, hb, wire]
          simp only [hbody]
          cases hh : get "bodyHash" with
          | none => simp only [wireGet, hh, Option.map_none]
          | some w =>
              cases w with
              | num x =>
                  rcases wire_num_cases x with hx | hx <;> simp only [wireGet, hh, Option.map_some, hx]
              | _ => simp only [wireGet, hh, Option.map_some, wire]
      | _ => simp only [wireGet, hb, Option.map_some, wire]

theorem forceRule_wire : RuleWireInv (forceRule : Rule ν) := by
  intro get
  unfold forceRule
  rw [isText_wire, required_wire wireInv_isReasonHash get]

theorem interruptRule_wire : RuleWireInv (interruptRule : Rule ν) := by
  intro get
  unfold interruptRule
  rw [isTrue_wire, isText_wire, optional_wire wireInv_isReasonHash get]

theorem replyTargetsRule_wire : RuleWireInv (replyTargetsRule : Rule ν) := by
  intro get
  unfold replyTargetsRule
  simp only [isText_wire, isSome_wire]
  cases hg : get "replyTargets" with
  | none => simp only [wireGet, hg, Option.map_none]
  | some v =>
      cases v with
      | num x => rcases wire_num_cases x with hx | hx <;> simp only [wireGet, hg, Option.map_some, hx]
      | arr items =>
          simp only [wireGet, hg, Option.map_some, wire, length_wireItems,
            all_map_wire (wireInv_isStr _)]
      | _ => simp only [wireGet, hg, Option.map_some, wire]

theorem refsRule_wire : RuleWireInv (refsRule : Rule ν) := by
  intro get
  unfold refsRule
  cases hg : get "refs" with
  | none => simp only [wireGet, hg, Option.map_none]
  | some v =>
      cases v with
      | num x => rcases wire_num_cases x with hx | hx <;> simp only [wireGet, hg, Option.map_some, hx]
      | arr items =>
          simp only [wireGet, hg, Option.map_some, wire, length_wireItems,
            all_map_wire (wireInv_isStr _)]
      | _ => simp only [wireGet, hg, Option.map_some, wire]

theorem tokenRule_wire : RuleWireInv (tokenRule : Rule ν) := by
  intro get
  unfold tokenRule
  simp only [isText_wire]
  cases hg : get "token" with
  | none => simp only [wireGet, hg, Option.map_none]
  | some v => simp only [wireGet, hg, Option.map_some, wireInv_isStr _ v]

theorem taskPackageRule_wire (rt : Runtime) : RuleWireInv (taskPackageRule rt : Rule ν) := by
  intro get
  unfold taskPackageRule
  cases hg : get "taskPackage" with
  | none => simp only [wireGet, hg, Option.map_none]
  | some v => simp only [wireGet, hg, Option.map_some, validateTaskPackage_wire]

theorem peersRule_wire : RuleWireInv (peersRule : Rule ν) := by
  intro get
  unfold peersRule
  cases hg : get "peers" with
  | none => simp only [wireGet, hg, Option.map_none]
  | some v =>
      cases v with
      | num x => rcases wire_num_cases x with hx | hx <;> simp only [wireGet, hg, Option.map_some, hx]
      | arr items =>
          simp only [wireGet, hg, Option.map_some, wire, wireItems_eq_map, List.findSome?_map,
            Function.comp_def, isValidPeerEntry_wire]
      | _ => simp only [wireGet, hg, Option.map_some, wire]

theorem rolesRule_wire : RuleWireInv (rolesRule : Rule ν) := by
  have hall : ∀ ms : Members ν, (wireMembers ms).all (fun e =>
      isStr (fun s => (MeshRole.ofText? s).isSome) e.2)
      = ms.all fun e => isStr (fun s => (MeshRole.ofText? s).isSome) e.2 := by
    intro ms
    induction ms with
    | nil => rfl
    | cons m rest ih =>
        rw [wireMembers, List.all_cons, List.all_cons, ih]
        simp only [wireInv_isStr _ m.2]
  intro get
  unfold rolesRule
  cases hg : get "roles" with
  | none => simp only [wireGet, hg, Option.map_none]
  | some v =>
      cases v with
      | num x => rcases wire_num_cases x with hx | hx <;> simp only [wireGet, hg, Option.map_some, hx]
      | obj entries => simp only [wireGet, hg, Option.map_some, wire, hall]
      | _ => simp only [wireGet, hg, Option.map_some, wire]

theorem hasBody_wire (get : Get ν) : hasBody (wireGet get) = hasBody get := by
  unfold hasBody wireGet
  cases get "body" with
  | none => rfl
  | some v =>
      cases v with
      | num x => rcases wire_num_cases x with h | h <;> simp only [Option.map_some, h]
      | _ => rfl

theorem ctlRule_wire (rt : Runtime) : RuleWireInv (ctlRule rt : Rule ν) := by
  refine whenType_wire ?_
  intro get
  simp only [isText_wire, isNone_wire, any_wire get "reasonHash" wireInv_isReasonHash,
    any_wire get "to" (wireInv_isStr _), hasBody_wire]

theorem ctlAckRule_wire : RuleWireInv (ctlAckRule : Rule ν) := by
  refine whenType_wire ?_
  intro get
  simp only [isNone_wire, required_wire (wireInv_isStr _) get]

/-- The two flags that are only looked at where they are `true`. -/
theorem flag_wire {key : String} {bad : Option Reject} {yes : Rule ν}
    (hyes : RuleWireInv yes) : RuleWireInv (fun get : Get ν =>
      match get key with
      | none => none
      | some (.bool true) => yes get
      | some (.bool false) => none
      | some _ => bad) := by
  intro get
  cases hg : get key with
  | none => simp only [wireGet, hg, Option.map_none]
  | some v =>
      cases v with
      | num x => rcases wire_num_cases x with hx | hx <;> simp only [wireGet, hg, Option.map_some, hx]
      | bool b =>
          cases b with
          | true =>
              have h := hyes get
              simp only [wireGet, hg, Option.map_some, wire] at h ⊢
              exact h
          | false => simp only [wireGet, hg, Option.map_some, wire]
      | _ => simp only [wireGet, hg, Option.map_some, wire]

theorem broadcastRule_wire : RuleWireInv (broadcastRule : Rule ν) := by
  refine flag_wire ?_
  intro get
  simp only [isSome_wire, required_wire (wireInv_isStr _) get]

theorem replyAllRule_wire : RuleWireInv (replyAllRule : Rule ν) := by
  refine flag_wire ?_
  intro get
  simp only [isSome_wire, isText_wire]

/-- No rule sees the difference between a frame and what its line reads back as. -/
theorem frameRules_wire (rt : Runtime) (maxBody : Nat) :
    ∀ rule ∈ (frameRules rt maxBody : List (Rule ν)), RuleWireInv rule := by
  have hstr : ∀ p : String → Bool, WireInv (isStr p : Json ν → Bool) := wireInv_isStr
  have hint : ∀ p : Int → Bool, WireInv (isInt p : Json ν → Bool) := wireInv_isInt
  simp only [frameRules, List.forall_mem_cons, List.not_mem_nil, false_implies, implies_true, and_true]
  exact ⟨required_wire (hint _), required_wire (hstr _), required_wire (hstr _),
    required_wire (hstr _), optional_wire (hstr _), optional_wire (hstr _), optional_wire (hstr _),
    bodyRule_wire rt maxBody, optional_wire (hstr _), optional_wire (hstr _), forceRule_wire,
    interruptRule_wire, whenType_wire (required_wire (hstr _)), optional_wire (hstr _),
    replyTargetsRule_wire, refsRule_wire, optional_wire (wireInv_isValidReservations rt),
    tokenRule_wire, optional_wire (hstr _), taskPackageRule_wire rt, optional_wire (hstr _),
    optional_wire (hstr _), optional_wire (hstr _), optional_wire (wireInv_isArr _ _ (hstr _)),
    optional_wire (hint _), optional_wire (hstr _), optional_wire (hint _), optional_wire (hint _),
    optional_wire (hstr _), optional_wire (hstr _), optional_wire wireInv_isValidCaps,
    optional_wire wireInv_isValidProto, peersRule_wire, rolesRule_wire, optional_wire (hstr _),
    optional_wire (hstr _), optional_wire wireInv_isBool, ctlRule_wire rt, ctlAckRule_wire,
    broadcastRule_wire, replyAllRule_wire, whenType_wire (required_wire (hstr _)),
    whenType_wire (required_wire (hstr _)), optional_wire (hint _), optional_wire (hint _),
    whenType_wire (required_wire (hstr _)), whenType_wire (required_wire (hstr _)),
    whenType_wire (optional_wire (hstr _)), whenType_wire (required_wire (hstr _)),
    optional_wire (hstr _)⟩

theorem passes_wire_iff {rt : Runtime} {maxBody : Nat} {ms : Members ν} :
    Passes rt maxBody (wireMembers ms) ↔ Passes rt maxBody ms := by
  have hget : getOf (wireMembers ms) = wireGet (getOf ms) := funext (getOf_wireMembers ms)
  unfold Passes
  rw [hget]
  constructor
  · intro h rule hrule
    rw [← frameRules_wire rt maxBody rule hrule]
    exact h rule hrule
  · intro h rule hrule
    rw [frameRules_wire rt maxBody rule hrule]
    exact h rule hrule

end RulesOnTheWire

/-! ### The members a rule names -/

/-- A rule looks at nothing but the members in the list. -/
def ReadsOnly (rule : Rule ν) (keys : List String) : Prop :=
  ∀ get get' : Get ν, (∀ k ∈ keys, get' k = get k) → rule get' = rule get

/-- The members each rule names, in the order of the rules. -/
def frameKeys : List (List String) :=
  [["v"], ["type"], ["id"], ["ts"], ["from"], ["to"], ["room"], ["body", "bodyHash"], ["priority"],
    ["role"], ["priority", "reasonHash"], ["interrupt", "priority", "reasonHash"],
    ["type", "replyTo"], ["replyTo"], ["replyTargets", "type", "to"], ["refs"], ["reservations"],
    ["token", "type"], ["clientVersion"], ["taskPackage"], ["routedCap"], ["routedTo"], ["task"],
    ["paths"], ["ttlMs"], ["leaseId"], ["fence"], ["epoch"], ["owner"], ["expiresAt"], ["caps"],
    ["proto"], ["peers"], ["roles"], ["action"], ["target"], ["settled"],
    ["type", "action", "target", "reasonHash", "to", "body"], ["type", "replyTo", "status"],
    ["broadcast", "to", "room"], ["replyAll", "to", "type"], ["type", "reads"], ["type", "to"],
    ["deliveredCount"], ["totalCount"], ["type", "status"], ["type", "from"], ["type", "status"],
    ["type", "code"], ["expiresAt"]]

section Reads

variable {key : String} {test : Json ν → Bool} {code : MeshErrorCode} {detail : String}

theorem readsOnly_optional : ReadsOnly (optional key test code detail) [key] := by
  intro get get' h
  simp [optional, h key (by simp)]

theorem readsOnly_required : ReadsOnly (required key test code detail) [key] := by
  intro get get' h
  simp [required, h key (by simp)]

theorem isText_congr {get get' : Get ν} (s : String) (h : get' key = get key) :
    isText get' key s = isText get key s := by
  unfold isText
  rw [h]

theorem readsOnly_whenType {types : List MeshFrameType} {rule : Rule ν} {keys : List String}
    (hrule : ReadsOnly rule keys) : ReadsOnly (whenType types rule) ("type" :: keys) := by
  intro get get' h
  have hinner : rule get' = rule get :=
    hrule get get' fun k hk => h k (List.mem_cons_of_mem _ hk)
  simp [whenType, h "type" (by simp), hinner]

/-- **Each rule looks at the members listed for it and at no other.** -/
theorem frameRules_read (rt : Runtime) (maxBody : Nat) :
    List.Forall₂ ReadsOnly (frameRules rt maxBody : List (Rule ν)) frameKeys := by
  have hbody : ReadsOnly (bodyRule rt maxBody : Rule ν) ["body", "bodyHash"] := by
    intro get get' h
    simp [bodyRule, h "body" (by simp), h "bodyHash" (by simp)]
  have hforce : ReadsOnly (forceRule : Rule ν) ["priority", "reasonHash"] := by
    intro get get' h
    have hhash : ∀ k ∈ ["reasonHash"], get' k = get k := by simpa using h "reasonHash" (by simp)
    unfold forceRule
    rw [isText_congr _ (h "priority" (by simp)), readsOnly_required get get' hhash]
  have hinterrupt : ReadsOnly (interruptRule : Rule ν) ["interrupt", "priority", "reasonHash"] := by
    intro get get' h
    simp [interruptRule, isTrue, isText, optional, h "interrupt" (by simp), h "priority" (by simp),
      h "reasonHash" (by simp)]
  have htargets : ReadsOnly (replyTargetsRule : Rule ν) ["replyTargets", "type", "to"] := by
    intro get get' h
    simp [replyTargetsRule, isText, h "replyTargets" (by simp), h "type" (by simp), h "to" (by simp)]
  have hrefs : ReadsOnly (refsRule : Rule ν) ["refs"] := by
    intro get get' h
    simp [refsRule, h "refs" (by simp)]
  have htoken : ReadsOnly (tokenRule : Rule ν) ["token", "type"] := by
    intro get get' h
    simp [tokenRule, isText, h "token" (by simp), h "type" (by simp)]
  have htask : ReadsOnly (taskPackageRule rt : Rule ν) ["taskPackage"] := by
    intro get get' h
    simp [taskPackageRule, h "taskPackage" (by simp)]
  have hpeers : ReadsOnly (peersRule : Rule ν) ["peers"] := by
    intro get get' h
    simp [peersRule, h "peers" (by simp)]
  have hroles : ReadsOnly (rolesRule : Rule ν) ["roles"] := by
    intro get get' h
    simp [rolesRule, h "roles" (by simp)]
  have hctl : ReadsOnly (ctlRule rt : Rule ν)
      ["type", "action", "target", "reasonHash", "to", "body"] := by
    refine readsOnly_whenType ?_
    intro get get' h
    simp [isText, hasBody, h "action" (by simp), h "target" (by simp), h "reasonHash" (by simp),
      h "to" (by simp), h "body" (by simp)]
  have hctlAck : ReadsOnly (ctlAckRule : Rule ν) ["type", "replyTo", "status"] := by
    refine readsOnly_whenType ?_
    intro get get' h
    simp [required, h "replyTo" (by simp), h "status" (by simp)]
  have hbroadcast : ReadsOnly (broadcastRule : Rule ν) ["broadcast", "to", "room"] := by
    intro get get' h
    simp [broadcastRule, required, h "broadcast" (by simp), h "to" (by simp), h "room" (by simp)]
  have hreplyAll : ReadsOnly (replyAllRule : Rule ν) ["replyAll", "to", "type"] := by
    intro get get' h
    simp [replyAllRule, isText, h "replyAll" (by simp), h "to" (by simp), h "type" (by simp)]
  have hopt := @readsOnly_optional ν
  have hreq := @readsOnly_required ν
  unfold frameRules frameKeys
  refine .cons hreq (.cons hreq (.cons hreq (.cons hreq (.cons hopt (.cons hopt (.cons hopt
    (.cons hbody (.cons hopt (.cons hopt (.cons hforce (.cons hinterrupt
    (.cons (readsOnly_whenType hreq) (.cons hopt (.cons htargets (.cons hrefs (.cons hopt
    (.cons htoken (.cons hopt (.cons htask (.cons hopt (.cons hopt (.cons hopt (.cons hopt
    (.cons hopt (.cons hopt (.cons hopt (.cons hopt (.cons hopt (.cons hopt (.cons hopt (.cons hopt
    (.cons hpeers (.cons hroles (.cons hopt (.cons hopt (.cons hopt (.cons hctl (.cons hctlAck
    (.cons hbroadcast (.cons hreplyAll (.cons (readsOnly_whenType hreq)
    (.cons (readsOnly_whenType hreq) (.cons hopt (.cons hopt (.cons (readsOnly_whenType hreq)
    (.cons (readsOnly_whenType hreq) (.cons (readsOnly_whenType hopt)
    (.cons (readsOnly_whenType hreq) (.cons hopt .nil)))))))))))))))))))))))))))))))))))))))))))))))))

end Reads

/-- The rules that name one of these members, by their place in the list. -/
def touched (changed : List String) : List Nat :=
  (List.range frameKeys.length).filter fun i =>
    (frameKeys[i]?.getD []).any fun k => decide (k ∈ changed)

/-- A rewritten frame passes when the rules that name a rewritten member let it pass. -/
theorem passes_of_touched {rt : Runtime} {maxBody : Nat} {ms ms' : Members ν}
    (h : Passes rt maxBody ms) (changed : List String)
    (hsame : ∀ k, k ∉ changed → getOf ms' k = getOf ms k)
    (htouched : ∀ i ∈ touched changed, ∀ rule, (frameRules rt maxBody)[i]? = some rule →
      rule (getOf ms') = none) : Passes rt maxBody ms' := by
  intro rule hrule
  obtain ⟨i, hi⟩ := List.mem_iff_getElem?.mp hrule
  have hread : List.Forall₂ ReadsOnly (frameRules rt maxBody : List (Rule ν)) frameKeys :=
    frameRules_read rt maxBody
  obtain ⟨hlt, hget⟩ := List.getElem?_eq_some_iff.mp hi
  have hlt' : i < frameKeys.length := by rw [← hread.length_eq]; exact hlt
  have hone : ReadsOnly rule frameKeys[i] := by
    have := hread.get hlt hlt'
    simpa [hget] using this
  by_cases hti : i ∈ touched changed
  · exact htouched i hti rule hi
  · -- none of its members was rewritten
    have hnone : ∀ k ∈ frameKeys[i], k ∉ changed := by
      intro k hk hc
      refine hti (List.mem_filter.mpr ⟨List.mem_range.mpr hlt', ?_⟩)
      rw [List.getElem?_eq_getElem hlt', Option.getD_some, List.any_eq_true]
      exact ⟨k, hk, by simpa using hc⟩
    rw [hone (getOf ms) (getOf ms') fun k hk => hsame k (hnone k hk)]
    exact h rule hrule

end PiMesh
