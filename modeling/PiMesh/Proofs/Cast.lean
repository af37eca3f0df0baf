/-
The typed view of an accepted frame.

`castFrame` fails exactly where a handler would meet a member of the wrong type.  The
first half of this module says what its fields are in terms of the object; the second
half that the rules of `validateFrame` leave no such member, so the cast of an accepted
frame succeeds.
-/
import PiMesh.Protocol.Envelope

namespace PiMesh

open Js

variable {ν : Type} [Number ν]

/-! ### What the fields are -/

theorem bind_eq_ok {ε α β : Type} {x : Except ε α} {k : α → Except ε β} {b : β} :
    (x >>= k) = .ok b ↔ ∃ a, x = .ok a ∧ k a = .ok b := by
  cases x with
  | error e => simp [bind, Except.bind]
  | ok a => simp [bind, Except.bind]

theorem useMember_eq_ok {α : Type} {get : Get ν} {key : String} {conv : Json ν → Option α}
    {o : Option α} :
    useMember get key conv = .ok o ↔
      (get key = none ∧ o = none) ∨ ∃ v a, get key = some v ∧ conv v = some a ∧ o = some a := by
  unfold useMember
  cases hg : get key with
  | none => simp [eq_comm]
  | some v =>
      cases hc : conv v with
      | none => simp [hc]
      | some a => simp [hc, eq_comm]

theorem needMember_eq_ok {α : Type} {get : Get ν} {key : String} {conv : Json ν → Option α}
    {a : α} : needMember get key conv = .ok a ↔ (get key).bind conv = some a := by
  unfold needMember
  cases (get key).bind conv <;> simp

/-- An optional member as a field: absent, or the converted value. -/
def Reads {α : Type} (get : Get ν) (key : String) (conv : Json ν → Option α) (o : Option α) : Prop :=
  (get key = none ∧ o = none) ∨ ∃ v a, get key = some v ∧ conv v = some a ∧ o = some a

theorem Reads.bind {α : Type} {get : Get ν} {key : String} {conv : Json ν → Option α} {o : Option α}
    (h : Reads get key conv o) : (get key).bind conv = o := by
  rcases h with ⟨h, rfl⟩ | ⟨v, a, h, hc, rfl⟩
  · rw [h]; rfl
  · rw [h]; exact hc

/-- The fields a cast frame shares with the object it views. -/
structure Views (ms : Members ν) (f : MeshFrame ν) : Prop where
  raw : f.raw = ms
  type : (getOf ms "type").bind (fun v => (asStr v).bind MeshFrameType.ofText?) = some f.type
  id : (getOf ms "id").bind asStr = some f.id
  sender : Reads (getOf ms) "from" asStr f.sender
  recipient : Reads (getOf ms) "to" asStr f.recipient
  room : Reads (getOf ms) "room" asStr f.room
  replyTo : Reads (getOf ms) "replyTo" asStr f.replyTo
  replyTargets : Reads (getOf ms) "replyTargets" (asArr asStr) f.replyTargets
  priority : Reads (getOf ms) "priority" (fun v => (asStr v).bind MeshPriority.ofText?) f.priority
  action : Reads (getOf ms) "action" (fun v => (asStr v).bind CtlAction.ofText?) f.action
  roles : Reads (getOf ms) "roles" asRoles f.roles
  reservations : Reads (getOf ms) "reservations" (asArr asReservation) f.reservations
  broadcast : Reads (getOf ms) "broadcast" asBool f.broadcast
  replyAll : Reads (getOf ms) "replyAll" asBool f.replyAll
  status : f.status = getOf ms "status"
  rooms : f.rooms = getOf ms "rooms"

theorem castFrame_views {ms : Members ν} {f : MeshFrame ν} (h : castFrame ms = .ok f) :
    Views ms f := by
  unfold castFrame at h
  simp only [bind_eq_ok, useMember_eq_ok, needMember_eq_ok] at h
  obtain ⟨type, htype, id, hid, sender, hsender, recipient, hrecipient, room, hroom, replyTo, hreplyTo,
    replyTargets, hreplyTargets, priority, hpriority, task, -, paths, -, ttlMs, -, leaseId, -,
    action, haction, role, -, roles, hroles, reservations, hreservations, broadcast, hbroadcast, replyAll,
    hreplyAll, token, -, clientVersion, -, caps, -, proto, -, hf⟩ := h
  obtain rfl := Except.ok.inj hf
  exact ⟨rfl, htype, hid, hsender, hrecipient, hroom, hreplyTo, hreplyTargets, hpriority, haction,
    hroles, hreservations, hbroadcast, hreplyAll, rfl, rfl⟩

/-! ### Accepted frames -/

/-- No rule objects to the object. -/
def Passes (rt : Runtime) (maxBody : Nat) (ms : Members ν) : Prop :=
  ∀ rule ∈ frameRules rt maxBody, rule (getOf ms) = none

theorem validateFrame_eq_ok {rt : Runtime} {maxBody : Nat} {v : Json ν} {ms : Members ν} :
    validateFrame rt maxBody v = .ok ms ↔ v = .obj ms ∧ Passes rt maxBody ms := by
  constructor
  · intro h
    unfold validateFrame at h
    split at h
    · next ms' =>
        split at h
        · cases h
        · next hrules =>
            obtain rfl := Except.ok.inj h
            exact ⟨rfl, List.findSome?_eq_none_iff.mp hrules⟩
    · cases h
  · rintro ⟨rfl, hpass⟩
    have hrules : (frameRules rt maxBody).findSome? (fun rule => rule (getOf ms)) = none :=
      List.findSome?_eq_none_iff.mpr hpass
    simp only [validateFrame, hrules]

theorem parseFrameLine_eq_ok {rt : Runtime} {text : List Char} {ms : Members ν} :
    parseFrameLine rt text = .ok ms ↔ Json.parse text = some (.obj ms) ∧ Passes rt maxBodyBytes ms := by
  unfold parseFrameLine
  cases (Json.parse text : Option (Json ν)) with
  | none => simp
  | some v => simp only [validateFrame_eq_ok, Option.some.injEq]

section Passes

variable {rt : Runtime} {maxBody : Nat} {ms : Members ν}

/-- The rule at a place of the list. -/
theorem Passes.rule (h : Passes rt maxBody ms) (i : Nat) {rule : Rule ν}
    (hr : (frameRules rt maxBody)[i]? = some rule) : rule (getOf ms) = none :=
  h rule (List.mem_of_getElem? hr)

theorem of_optional {get : Get ν} {key : String} {test : Json ν → Bool} {code : MeshErrorCode}
    {detail : String} (h : optional key test code detail get = none) {v : Json ν}
    (hv : get key = some v) : test v = true := by
  unfold optional at h
  rw [hv] at h
  by_contra hc
  simp [hc] at h

theorem of_required {get : Get ν} {key : String} {test : Json ν → Bool} {code : MeshErrorCode}
    {detail : String} (h : required key test code detail get = none) :
    ∃ v, get key = some v ∧ test v = true := by
  unfold required at h
  split at h
  · cases h
  · next v hv =>
      refine ⟨v, hv, ?_⟩
      by_contra hc
      simp [hc] at h

/-- A member converts when every value the rules let through does. -/
theorem useMember_ok {α : Type} {get : Get ν} {key : String} {conv : Json ν → Option α}
    (h : ∀ v, get key = some v → (conv v).isSome = true) : ∃ o, useMember get key conv = .ok o := by
  unfold useMember
  cases hg : get key with
  | none => exact ⟨none, rfl⟩
  | some v =>
      obtain ⟨a, ha⟩ := Option.isSome_iff_exists.mp (h v hg)
      exact ⟨some a, by simp [ha]⟩

theorem needMember_ok {α : Type} {get : Get ν} {key : String} {conv : Json ν → Option α}
    (h : ∃ v, get key = some v ∧ (conv v).isSome = true) : ∃ a, needMember get key conv = .ok a := by
  obtain ⟨v, hv, hc⟩ := h
  obtain ⟨a, ha⟩ := Option.isSome_iff_exists.mp hc
  exact ⟨a, needMember_eq_ok.mpr (by rw [hv]; exact ha)⟩

theorem asStr_isSome {p : String → Bool} {v : Json ν} (h : isStr p v = true) :
    (asStr v).isSome = true := by
  cases v <;> simp_all [isStr, asStr]

theorem asStr_bind_isSome {α : Type} {conv : String → Option α} {v : Json ν}
    (h : isStr (fun s => (conv s).isSome) v = true) : ((asStr v).bind conv).isSome = true := by
  cases v <;> simp_all [isStr, asStr]

theorem asInt_isSome {p : Int → Bool} {v : Json ν} (h : isInt p v = true) :
    (asInt v).isSome = true := by
  cases v with
  | num x =>
      simp only [isInt] at h
      split at h
      · next n hn => simp [asInt, hn]
      · cases h
  | _ => simp [isInt] at h

theorem mapM_isSome {α β : Type} {conv : α → Option β} {l : List α}
    (h : ∀ a ∈ l, (conv a).isSome = true) : (l.mapM conv).isSome = true := by
  induction l with
  | nil => rfl
  | cons a rest ih =>
      obtain ⟨b, hb⟩ := Option.isSome_iff_exists.mp (h a (by simp))
      obtain ⟨bs, hbs⟩ := Option.isSome_iff_exists.mp (ih fun x hx => h x (List.mem_cons_of_mem _ hx))
      simp [List.mapM_cons, hb, hbs]

theorem asArr_isSome {α : Type} {conv : Json ν → Option α} {items : List (Json ν)}
    (h : ∀ v ∈ items, (conv v).isSome = true) : (asArr conv (.arr items)).isSome = true :=
  mapM_isSome h

theorem asArr_isSome_of_isArr {α : Type} {conv : Json ν → Option α} {lo hi : Nat}
    {p : Json ν → Bool} {v : Json ν} (h : isArr lo hi p v = true)
    (hp : ∀ v, p v = true → (conv v).isSome = true) : (asArr conv v).isSome = true := by
  cases v with
  | arr items =>
      simp only [isArr, Bool.and_eq_true, List.all_eq_true] at h
      exact asArr_isSome fun v hv => hp v (h.2 v hv)
  | _ => simp [isArr] at h

theorem asReservation_isSome {v : Json ν} (h : isValidReservation rt v = true) :
    (asReservation v).isSome = true := by
  cases v with
  | obj r =>
      simp only [isValidReservation, Bool.and_eq_true] at h
      have hsince : (getOf r "since").all (isStr fun _ => true) = true := by
        cases hs : getOf r "since" with
        | none => rfl
        | some w =>
            have hw := h.2
            rw [hs] at hw
            cases w <;> simp_all [isStr]
      simp [asReservation, hsince]
  | _ => simp [isValidReservation] at h

theorem replyTargets_isSome {get : Get ν} (h : replyTargetsRule get = none) {v : Json ν}
    (hv : get "replyTargets" = some v) : (asArr asStr v).isSome = true := by
  unfold replyTargetsRule at h
  rw [hv] at h
  cases v with
  | arr items =>
      simp only at h
      split at h
      · cases h
      · split at h
        · cases h
        · next hall =>
            simp only [Bool.not_eq_true', Bool.not_eq_false, List.all_eq_true] at hall
            exact asArr_isSome fun v hv => asStr_isSome (hall v hv)
  | _ => simp at h

theorem roles_isSome {get : Get ν} (h : rolesRule get = none) {v : Json ν}
    (hv : get "roles" = some v) : (asRoles v).isSome = true := by
  unfold rolesRule at h
  rw [hv] at h
  cases v with
  | obj entries =>
      simp only at h
      split at h
      · next hall =>
          rw [List.all_eq_true] at hall
          refine mapM_isSome fun e he => ?_
          rw [Option.isSome_map]
          exact asStr_bind_isSome (hall e he)
      · cases h
  | _ => simp at h

theorem asReservations_isSome {v : Json ν} (h : isValidReservations rt v = true) :
    (asArr asReservation v).isSome = true := by
  cases v with
  | arr items =>
      simp only [isValidReservations, List.all_eq_true] at h
      exact asArr_isSome fun r hr => asReservation_isSome (h r hr)
  | _ => simp [isValidReservations] at h

theorem broadcast_isSome {get : Get ν} (h : broadcastRule get = none) {v : Json ν}
    (hv : get "broadcast" = some v) : (asBool v).isSome = true := by
  unfold broadcastRule at h
  rw [hv] at h
  cases v <;> simp_all [asBool]

theorem replyAll_isSome {get : Get ν} (h : replyAllRule get = none) {v : Json ν}
    (hv : get "replyAll" = some v) : (asBool v).isSome = true := by
  unfold replyAllRule at h
  rw [hv] at h
  cases v <;> simp_all [asBool]

theorem token_isSome {get : Get ν} (h : tokenRule get = none) {v : Json ν}
    (hv : get "token" = some v) : (asStr v).isSome = true := by
  unfold tokenRule at h
  rw [hv] at h
  simp only at h
  split at h
  · cases h
  · split at h
    · next hstr => exact asStr_isSome hstr
    · cases h

/-- **The cast of an accepted frame succeeds**: the rules leave no member at a type a
handler does not expect. -/
theorem castFrame_of_passes (h : Passes rt maxBody ms) : ∃ f, castFrame ms = .ok f := by
  have hopt : ∀ (i : Nat) {key : String} {test : Json ν → Bool} {code : MeshErrorCode}
      {detail : String}, (frameRules rt maxBody)[i]? = some (optional key test code detail) →
      ∀ v, getOf ms key = some v → test v = true :=
    fun i _ _ _ _ hr _ hv => of_optional (h.rule i hr) hv
  have hstr : ∀ (i : Nat) {key : String} {p : String → Bool} {code : MeshErrorCode}
      {detail : String}, (frameRules rt maxBody)[i]? = some (optional key (isStr p) code detail) →
      ∃ o, useMember (getOf ms) key asStr = .ok o :=
    fun i _ _ _ _ hr => useMember_ok fun v hv => asStr_isSome (hopt i hr v hv)
  have hname : ∀ (i : Nat) {key : String} {α : Type} {conv : String → Option α}
      {code : MeshErrorCode} {detail : String},
      (frameRules rt maxBody)[i]? = some (optional key (isStr fun s => (conv s).isSome) code detail) →
      ∃ o, useMember (getOf ms) key (fun v => (asStr v).bind conv) = .ok o :=
    fun i _ _ _ _ _ hr => useMember_ok fun v hv => asStr_bind_isSome (hopt i hr v hv)
  have hint : ∀ (i : Nat) {key : String} {p : Int → Bool} {code : MeshErrorCode}
      {detail : String}, (frameRules rt maxBody)[i]? = some (optional key (isInt p) code detail) →
      ∃ o, useMember (getOf ms) key asInt = .ok o :=
    fun i _ _ _ _ hr => useMember_ok fun v hv => asInt_isSome (hopt i hr v hv)
  obtain ⟨type, htype⟩ : ∃ t, needMember (getOf ms) "type"
      (fun v => (asStr v).bind MeshFrameType.ofText?) = .ok t := by
    obtain ⟨v, hv, ht⟩ := of_required (h.rule 1 rfl)
    exact needMember_ok ⟨v, hv, asStr_bind_isSome ht⟩
  obtain ⟨id, hid⟩ : ∃ t, needMember (getOf ms) "id" asStr = .ok t := by
    obtain ⟨v, hv, ht⟩ := of_required (h.rule 2 rfl)
    exact needMember_ok ⟨v, hv, asStr_isSome ht⟩
  obtain ⟨sender, hsender⟩ := hstr 4 rfl
  obtain ⟨recipient, hrecipient⟩ := hstr 5 rfl
  obtain ⟨room, hroom⟩ := hstr 6 rfl
  obtain ⟨replyTo, hreplyTo⟩ := hstr 13 rfl
  obtain ⟨replyTargets, hreplyTargets⟩ : ∃ o, useMember (getOf ms) "replyTargets" (asArr asStr)
      = .ok o := useMember_ok fun v hv => replyTargets_isSome (h.rule 14 rfl) hv
  obtain ⟨priority, hpriority⟩ := hname 8 rfl
  obtain ⟨task, htask⟩ := hstr 22 rfl
  obtain ⟨paths, hpaths⟩ : ∃ o, useMember (getOf ms) "paths" (asArr asStr) = .ok o :=
    useMember_ok fun v hv => asArr_isSome_of_isArr (hopt 23 rfl v hv) fun _ => asStr_isSome
  obtain ⟨ttlMs, httlMs⟩ := hint 24 rfl
  obtain ⟨leaseId, hleaseId⟩ := hstr 25 rfl
  obtain ⟨action, haction⟩ := hname 34 rfl
  obtain ⟨role, hrole⟩ := hname 9 rfl
  obtain ⟨roles, hroles⟩ : ∃ o, useMember (getOf ms) "roles" asRoles = .ok o :=
    useMember_ok fun v hv => roles_isSome (h.rule 33 rfl) hv
  obtain ⟨reservations, hreservations⟩ : ∃ o, useMember (getOf ms) "reservations"
      (asArr asReservation) = .ok o :=
    useMember_ok fun v hv => asReservations_isSome (hopt 16 rfl v hv)
  obtain ⟨broadcast, hbroadcast⟩ : ∃ o, useMember (getOf ms) "broadcast" asBool = .ok o :=
    useMember_ok fun v hv => broadcast_isSome (h.rule 39 rfl) hv
  obtain ⟨replyAll, hreplyAll⟩ : ∃ o, useMember (getOf ms) "replyAll" asBool = .ok o :=
    useMember_ok fun v hv => replyAll_isSome (h.rule 40 rfl) hv
  obtain ⟨token, htoken⟩ : ∃ o, useMember (getOf ms) "token" asStr = .ok o :=
    useMember_ok fun v hv => token_isSome (h.rule 17 rfl) hv
  obtain ⟨clientVersion, hclientVersion⟩ := hstr 18 rfl
  obtain ⟨caps, hcaps⟩ : ∃ o, useMember (getOf ms) "caps" (asArr asStr) = .ok o :=
    useMember_ok fun v hv => asArr_isSome_of_isArr (hopt 30 rfl v hv) fun _ => asStr_isSome
  obtain ⟨proto, hproto⟩ := hint 31 rfl
  unfold castFrame
  simp only [htype, hid, hsender, hrecipient, hroom, hreplyTo, hreplyTargets, hpriority, htask,
    hpaths, httlMs, hleaseId, haction, hrole, hroles, hreservations, hbroadcast, hreplyAll, htoken,
    hclientVersion, hcaps, hproto]
  exact ⟨_, rfl⟩

end Passes

end PiMesh
