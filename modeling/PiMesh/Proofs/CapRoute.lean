/-
Whom a capability route chooses.

`routeCapMsg` filters the members of a room, sorts what is left by score and alias, and
takes the first.  What it chooses is stated here without any order: `Best` speaks of the
peers that pass the filters and of nothing else, so the answer cannot depend on the order
in which the members joined.  The scores are fractions with one huge constant for a peer
that is blocked; `load` says what they stand for, and agrees with them as long as no peer
has been busy for longer than that constant.

A record's capabilities are those its hello asked for, and a hello of an older protocol
gets none.  So the protocol is not checked when a message is routed.
-/
import PiMesh.Broker.Reference
import PiMesh.Proofs.Deliveries
import Mathlib.Algebra.Order.Monoid.WithTop
import Mathlib.Tactic.NormNum
import Mathlib.Data.String.Basic

namespace PiMesh

open Js Transition BrokerState

variable {ν : Type}

/-! ### The first of a sorted list -/

/-- The head of a sorted list is before every other element, where the relation is total
and transitive on the elements. -/
theorem head_insertionSort {α : Type} (r : α → α → Prop) [DecidableRel r] {l : List α}
    (htotal : ∀ a ∈ l, ∀ b ∈ l, r a b ∨ r b a)
    (htrans : ∀ a ∈ l, ∀ b ∈ l, ∀ c ∈ l, r a b → r b c → r a c) {h : α} {t : List α}
    (hsort : l.insertionSort r = h :: t) : ∀ c ∈ l, c = h ∨ r h c := by
  induction l generalizing h t with
  | nil => intro c hc; cases hc
  | cons a l ih =>
      rw [List.insertionSort_cons] at hsort
      cases hl : l.insertionSort r with
      | nil =>
          rw [hl] at hsort
          obtain ⟨rfl, -⟩ := List.cons.inj hsort
          have hnil : l = [] := List.length_eq_zero_iff.mp (by
            rw [← List.length_insertionSort r l, hl]
            rfl)
          intro c hc
          exact .inl (by simpa [hnil] using hc)
      | cons b t' =>
          have hb : b ∈ l := (List.mem_insertionSort r).mp (hl ▸ List.mem_cons_self)
          have hfirst := ih (fun a ha b hb => htotal a (.tail _ ha) b (.tail _ hb))
            (fun a ha b hb c hc => htrans a (.tail _ ha) b (.tail _ hb) c (.tail _ hc)) hl
          rw [hl, List.orderedInsert_cons] at hsort
          by_cases hab : r a b
          · rw [if_pos hab] at hsort
            obtain ⟨rfl, -⟩ := List.cons.inj hsort
            intro c hc
            rcases List.mem_cons.mp hc with rfl | hc
            · exact .inl rfl
            · rcases hfirst c hc with rfl | hbc
              · exact .inr hab
              · exact .inr (htrans a List.mem_cons_self b (.tail _ hb) c (.tail _ hc) hab hbc)
          · rw [if_neg hab] at hsort
            obtain ⟨rfl, -⟩ := List.cons.inj hsort
            intro c hc
            rcases List.mem_cons.mp hc with rfl | hc
            · exact .inr ((htotal c List.mem_cons_self b (.tail _ hb)).resolve_left hab)
            · exact hfirst c hc

/-! ### Loads -/

/-- How busy a peer is: not at all, for so many milliseconds, or beyond any number. -/
def load (rt : Runtime) (now : Int) (p : PeerRecord ν) : WithTop ℚ :=
  match p.activity with
  | none => 0
  | some act =>
      match act.state with
      | .idle => 0
      | .busy =>
          match rt.dateParse act.since with
          | some since => ((max 1 (now - since) : Int) : ℚ)
          | none => 1
      | _ => ⊤

/-- `Number.MAX_SAFE_INTEGER / 2`. -/
def blockedScore : ℚ := 9007199254740991 / 2

/-- The peer has not been busy for longer than a blocked peer counts. -/
def BusyBounded (rt : Runtime) (now : Int) (p : PeerRecord ν) : Prop :=
  ∀ act since, p.activity = some act → act.state = .busy → rt.dateParse act.since = some since →
    ((now - since : Int) : ℚ) < blockedScore

section Load

variable {env : Env} {now : Int} {p q : PeerRecord ν}

theorem busyScore_eq : busyScore env now p = (load env.rt now p).untopD blockedScore := by
  unfold busyScore load
  cases p.activity with
  | none => rfl
  | some act =>
      simp only
      cases act.state with
      | busy =>
          simp only
          cases env.rt.dateParse act.since <;> rfl
      | idle => rfl
      | rateLimited => rfl
      | blocked => rfl

theorem load_lt (h : BusyBounded env.rt now p) {x : ℚ} (hx : load env.rt now p = x) :
    x < blockedScore := by
  have hone : (1 : ℚ) < blockedScore := by norm_num [blockedScore]
  have hzero : (0 : ℚ) < blockedScore := by norm_num [blockedScore]
  unfold load at hx
  split at hx
  · exact WithTop.coe_injective hx ▸ hzero
  · next act hact =>
      split at hx
      · exact WithTop.coe_injective hx ▸ hzero
      · next hbusy =>
          split at hx
          · next since hsince =>
              rw [← WithTop.coe_injective hx]
              rcases max_choice (1 : Int) (now - since) with hm | hm
              · rw [hm]
                exact_mod_cast hone
              · rw [hm]
                exact h act since hact hbusy hsince
          · exact WithTop.coe_injective hx ▸ hone
      · cases hx

theorem busyScore_lt_iff (hp : BusyBounded env.rt now p) (hq : BusyBounded env.rt now q) :
    busyScore env now p < busyScore env now q ↔ load env.rt now p < load env.rt now q := by
  rw [busyScore_eq, busyScore_eq]
  cases hx : load env.rt now p with
  | top =>
      cases hy : load env.rt now q with
      | top => simp
      | coe y => simpa using (load_lt hq hy).le
  | coe x =>
      cases hy : load env.rt now q with
      | top => simpa using load_lt hp hx
      | coe y => simp

theorem busyScore_eq_iff (hp : BusyBounded env.rt now p) (hq : BusyBounded env.rt now q) :
    busyScore env now p = busyScore env now q ↔ load env.rt now p = load env.rt now q := by
  have h₁ := busyScore_lt_iff hp hq
  have h₂ := busyScore_lt_iff hq hp
  constructor
  · intro h
    refine le_antisymm (not_lt.mp fun hc => ?_) (not_lt.mp fun hc => ?_)
    · exact absurd (h₂.mpr hc) (by rw [h]; exact lt_irrefl _)
    · exact absurd (h₁.mpr hc) (by rw [h]; exact lt_irrefl _)
  · intro h
    rw [busyScore_eq, busyScore_eq, h]

end Load

/-! ### Capabilities and protocols -/

theorem effectiveCaps_proto {proto : Option Int} {caps : Option (List String)} {cap : String}
    (h : cap ∈ effectiveCaps proto caps) : 2 ≤ proto.getD 1 := by
  unfold effectiveCaps at h
  cases proto with
  | none => cases h
  | some n =>
      show 2 ≤ n
      by_cases hn : n < protoVersion
      · simp only [hn, if_true] at h
        cases h
      · exact not_lt.mp hn

variable [Number ν] [DecidableEq ν]

/-- In every reachable state a peer with a capability speaks protocol 2 or later. -/
theorem caps_proto {env : Env} {epoch : Int} {tr : BrokerTrace ν} {st : BrokerState ν}
    (hrun : Run (BrokerStep env) (BrokerState.init epoch) tr st) {name cap : String}
    {p : PeerRecord ν} (hp : st.peers.get? name = some p) (hcap : cap ∈ p.caps) : 2 ≤ p.proto := by
  refine hrun.along (P := fun _ st => ∀ name p, st.peers.get? name = some p →
    ∀ cap ∈ p.caps, 2 ≤ p.proto) (Meets.trivial tr) ?_ ?_ name p hp cap hcap
  · intro _ _ h
    cases h
  · intro tr s e s' hr _ hs _ hstep name p hp cap hcap
    rcases record_step (linked_run hr) hstep hp with ⟨p₀, hp₀, hsame⟩ | ⟨_, f, _, _, _, hcaps, hproto⟩
    · rw [hsame.proto]
      rw [hsame.caps] at hcap
      exact hs name p₀ hp₀ cap hcap
    · rw [hproto]
      rw [hcaps] at hcap
      exact effectiveCaps_proto hcap

/-! ### The choice -/

namespace Origin

/-- The room a message is for. -/
def room (o : Origin ν) : RoomKey ν := .ofString o.frame.roomId

/-- Another peer that is online, in the room's member set. -/
def Present (o : Origin ν) (p : PeerRecord ν) : Prop :=
  o.met.online p.name = some p ∧ p.name ≠ o.sender.name ∧ InRoom o.met.rooms p.name o.room

/-- Another peer that is online, a member of the room, and advertises the capability. -/
structure Capable (o : Origin ν) (cap : String) (p : PeerRecord ν) : Prop where
  online : o.met.online p.name = some p
  other : p.name ≠ o.sender.name
  role : p.rooms.get? o.room = some .member
  caps : cap ∈ p.caps
  proto : 2 ≤ p.proto

/-- A capable peer the policy does not deny this sender. -/
structure Eligible (env : Env) (o : Origin ν) (cap : String) (p : PeerRecord ν) : Prop
    extends Capable o cap p where
  policy : (decisionFor env o.sender.name o.frame p.name).isDeny = false

/-- The eligible peer with the least load, and the first alias among those. -/
structure Best (env : Env) (o : Origin ν) (cap : String) (p : PeerRecord ν) : Prop
    extends Eligible env o cap p where
  least : ∀ q, Eligible env o cap q → q ≠ p →
    load env.rt o.now p < load env.rt o.now q ∨
      (load env.rt o.now p = load env.rt o.now q ∧ env.rt.localeCompare p.name q.name = .lt)

/-- The token is taken from the sender's bucket. -/
def rated (env : Env) (o : Origin ν) : Bool × BrokerState ν :=
  takeRate env o.now o.met o.sender.name (rateKind o.frame.prio)

/-- The message as it is passed on to the peer chosen for the capability. -/
def capFrame (env : Env) (o : Origin ν) (cap : String) (p : PeerRecord ν) :
    Members ν × Option String :=
  routed (decisionFor env o.sender.name o.frame p.name) o.frame.prio
    (capRouted o.frame cap p.name)

/-- The message is written to the peer, and its callback tells the sender who got it. -/
def capRelayed (env : Env) (o : Origin ν) (cap : String) (p : PeerRecord ν) : BrokerState ν :=
  relay env o.now (o.rated env).2 p.toRef (o.capFrame env cap p).1
    (.direct o.sender.toRef p.toRef o.frame.id (o.capFrame env cap p).2 (some p.name))

/-- The message is refused, after the token was taken. -/
def capRefused (env : Env) (o : Origin ν) (code : MeshErrorCode) : BrokerState ν :=
  refuse env o.now (o.rated env).2 o.sender.socket code o.frame.id

end Origin

/-- What the routes rely on of `localeCompare`, for the aliases it is called with. -/
structure OrdersAliases (rt : Runtime) : Prop where
  swap : ∀ a b, isValidAlias a = true → isValidAlias b = true →
    rt.localeCompare b a = (rt.localeCompare a b).swap
  trans : ∀ a b c, isValidAlias a = true → isValidAlias b = true → isValidAlias c = true →
    rt.localeCompare a b = .lt → rt.localeCompare b c = .lt → rt.localeCompare a c = .lt
  eq : ∀ a b, isValidAlias a = true → isValidAlias b = true → rt.localeCompare a b = .eq → a = b

/-! ### What the filters let through -/

namespace Origin

/-- The line is a message for whoever has the capability, from a member of its room. -/
structure AsksCap (env : Env) (o : Origin ν) (cap : String) : Prop where
  connected : o.pre.isConnected o.sock = true
  accepted : Accepted env o.text o.frame
  authed : PiMesh.authed o.pre o.sock o.frame = some o.peer
  type : o.frame.type = .msg
  direct : o.frame.broadcast ≠ some true
  target : ∃ name, o.frame.recipient = some name ∧ capTargetName env.rt name = some cap
  role : o.sender.rooms.get? o.room = some .member

/-- `onlinePeers`. -/
def others (o : Origin ν) : List (PeerRecord ν) :=
  match o.met.rooms.get? o.room with
  | none => []
  | some members => (members.elems.filter fun name => name ≠ o.sender.name).filterMap o.met.online

/-- `capable`. -/
def capable (o : Origin ν) (cap : String) : List (PeerRecord ν) :=
  o.others.filter (isCapable o.room cap)

/-- `candidates`. -/
def candidates (env : Env) (o : Origin ν) (cap : String) : List (PeerRecord ν) :=
  (o.capable cap).filter fun p => !(decisionFor env o.sender.name o.frame p.name).isDeny

end Origin

section Filters

variable {env : Env} {epoch : Int} {tr : BrokerTrace ν} {o : Origin ν} {cap : String}
  {p : PeerRecord ν}

/-- Another peer's record is untouched by the sender having been seen. -/
theorem met_other (hname : p.name ≠ o.sender.name) (h : o.met.online p.name = some p) :
    o.pre.peers.get? p.name = some p := by
  have hget := (online_eq_some h).1
  rwa [Origin.met, BrokerState.updatePeer, Map.get?_set, if_neg hname] at hget

theorem mem_others (hkeyed : Keyed o.pre) : p ∈ o.others ↔ o.Present p := by
  have hmet : ∀ name q, o.met.online name = some q → q.name = name := by
    intro name q hq
    have hget := (online_eq_some hq).1
    rw [Origin.met, BrokerState.updatePeer, Map.get?_set] at hget
    by_cases hn : name = o.sender.name
    · rw [if_pos hn] at hget
      rw [hn, Option.some.inj hget]
    · rw [if_neg hn] at hget
      exact hkeyed name q hget
  unfold Origin.others Origin.Present InRoom
  cases hm : o.met.rooms.get? o.room with
  | none => simp
  | some members =>
      simp only [List.mem_filterMap, List.mem_filter, decide_eq_true_eq]
      constructor
      · rintro ⟨name, ⟨hin, hne⟩, hon⟩
        obtain rfl := hmet name p hon
        exact ⟨hon, hne, members, rfl, hin⟩
      · rintro ⟨hon, hne, members', heq, hin⟩
        obtain rfl := Option.some.inj heq
        exact ⟨p.name, ⟨hin, hne⟩, hon⟩

theorem mem_capable (hrun : Run (BrokerStep env) (BrokerState.init epoch) tr o.pre) :
    p ∈ o.capable cap ↔ o.Capable cap p := by
  have hst := linked_run hrun
  unfold Origin.capable
  rw [List.mem_filter, mem_others hst.keyed]
  simp only [isCapable, Bool.and_eq_true, beq_iff_eq, List.contains_iff_mem]
  constructor
  · rintro ⟨⟨hon, hne, -⟩, hrole, hcap⟩
    exact ⟨hon, hne, hrole, hcap, caps_proto hrun (met_other hne hon) hcap⟩
  · rintro ⟨hon, hne, hrole, hcap, -⟩
    -- a record with the room is in the room's set
    have hin : InRoom o.met.rooms p.name o.room :=
      hst.linked p.name p (met_other hne hon) o.room ((Map.has_iff _ _).mpr ⟨_, hrole⟩)
    exact ⟨⟨hon, hne, hin⟩, hrole, hcap⟩

theorem mem_candidates (hrun : Run (BrokerStep env) (BrokerState.init epoch) tr o.pre) :
    p ∈ o.candidates env cap ↔ o.Eligible env cap p := by
  unfold Origin.candidates
  rw [List.mem_filter, mem_capable hrun]
  constructor
  · rintro ⟨hcap, hdeny⟩
    exact ⟨hcap, by simpa using hdeny⟩
  · rintro ⟨hcap, hdeny⟩
    exact ⟨hcap, by simpa using hdeny⟩

end Filters

/-! ### The order -/

section Order

variable {env : Env} {epoch : Int} {tr : BrokerTrace ν} {o : Origin ν} {cap : String}
  {p q : PeerRecord ν}

/-- The comparison `candidates` are sorted with: not after, by score and then by alias. -/
def notAfter (env : Env) (now : Int) (a b : PeerRecord ν) : Prop :=
  busyScore env now a < busyScore env now b ∨
    (busyScore env now a = busyScore env now b ∧ env.rt.localeCompare a.name b.name ≠ .gt)

instance : DecidableRel (notAfter (ν := ν) env o.now) :=
  fun _ _ => inferInstanceAs (Decidable (_ ∨ _))

theorem notAfter_total (hrt : OrdersAliases env.rt) (hp : isValidAlias p.name = true)
    (hq : isValidAlias q.name = true) : notAfter env o.now p q ∨ notAfter env o.now q p := by
  rcases lt_trichotomy (busyScore env o.now p) (busyScore env o.now q) with h | h | h
  · exact .inl (.inl h)
  · have hswap := hrt.swap p.name q.name hp hq
    by_cases hgt : env.rt.localeCompare p.name q.name = .gt
    · refine .inr (.inr ⟨h.symm, ?_⟩)
      rw [hswap, hgt]
      decide
    · exact .inl (.inr ⟨h, hgt⟩)
  · exact .inr (.inl h)

theorem notAfter_names (hrt : OrdersAliases env.rt) {a b c : String} (ha : isValidAlias a = true)
    (hb : isValidAlias b = true) (hc : isValidAlias c = true)
    (hab : env.rt.localeCompare a b ≠ .gt) (hbc : env.rt.localeCompare b c ≠ .gt) :
    env.rt.localeCompare a c ≠ .gt := by
  cases h₁ : env.rt.localeCompare a b with
  | gt => exact absurd h₁ hab
  | eq => rwa [hrt.eq a b ha hb h₁]
  | lt =>
      cases h₂ : env.rt.localeCompare b c with
      | gt => exact absurd h₂ hbc
      | eq => rw [← hrt.eq b c hb hc h₂, h₁]; decide
      | lt => rw [hrt.trans a b c ha hb hc h₁ h₂]; decide

theorem notAfter_trans (hrt : OrdersAliases env.rt) {r : PeerRecord ν}
    (hp : isValidAlias p.name = true) (hq : isValidAlias q.name = true)
    (hr : isValidAlias r.name = true) (hpq : notAfter env o.now p q)
    (hqr : notAfter env o.now q r) : notAfter env o.now p r := by
  rcases hpq with h₁ | ⟨h₁, hn₁⟩
  · rcases hqr with h₂ | ⟨h₂, -⟩
    · exact .inl (h₁.trans h₂)
    · exact .inl (h₁.trans_eq h₂)
  · rcases hqr with h₂ | ⟨h₂, hn₂⟩
    · exact .inl (h₁.trans_lt h₂)
    · exact .inr ⟨h₁.trans h₂, notAfter_names hrt hp hq hr hn₁ hn₂⟩

theorem eligible_valid (hrun : Run (BrokerStep env) (BrokerState.init epoch) tr o.pre)
    (h : o.Eligible env cap p) : isValidAlias p.name = true :=
  names_valid hrun (met_other h.other h.online)

/-- Eligible peers of one alias are one peer. -/
theorem eligible_eq (hp : o.Eligible env cap p) (hq : o.Eligible env cap q)
    (hname : p.name = q.name) : p = q := by
  have hon := hp.online
  rw [hname, hq.online] at hon
  exact (Option.some.inj hon).symm

/-- The head of the sorted candidates is the best peer. -/
theorem best_of_head (hrun : Run (BrokerStep env) (BrokerState.init epoch) tr o.pre)
    (hrt : OrdersAliases env.rt)
    (hbusy : ∀ name q, o.pre.peers.get? name = some q → BusyBounded env.rt o.now q)
    {rest : List (PeerRecord ν)}
    (hsort : (o.candidates env cap).insertionSort (notAfter env o.now) = p :: rest) :
    o.Best env cap p := by
  have hmem : ∀ {q}, q ∈ o.candidates env cap → o.Eligible env cap q :=
    fun h => (mem_candidates hrun).mp h
  have hp : o.Eligible env cap p :=
    hmem ((List.mem_insertionSort _).mp (hsort ▸ List.mem_cons_self))
  have hbounded : ∀ {q}, o.Eligible env cap q → BusyBounded env.rt o.now q :=
    fun h => hbusy _ _ (met_other h.other h.online)
  refine ⟨hp, ?_⟩
  intro q hq hne
  have hfirst := head_insertionSort (notAfter env o.now)
    (fun a ha b hb => notAfter_total hrt (eligible_valid hrun (hmem ha))
      (eligible_valid hrun (hmem hb)))
    (fun a ha b hb c hc => notAfter_trans hrt (eligible_valid hrun (hmem ha))
      (eligible_valid hrun (hmem hb)) (eligible_valid hrun (hmem hc)))
    hsort q ((mem_candidates hrun).mpr hq)
  rcases hfirst.resolve_left hne with h | ⟨h, hname⟩
  · exact .inl ((busyScore_lt_iff (hbounded hp) (hbounded hq)).mp h)
  · refine .inr ⟨(busyScore_eq_iff (hbounded hp) (hbounded hq)).mp h, ?_⟩
    cases hc : env.rt.localeCompare p.name q.name with
    | lt => rfl
    | gt => exact absurd hc hname
    | eq =>
        have heq := hrt.eq _ _ (eligible_valid hrun hp) (eligible_valid hrun hq) hc
        exact absurd (eligible_eq hp hq heq).symm hne

/-- No two peers are best. -/
theorem best_unique (hrun : Run (BrokerStep env) (BrokerState.init epoch) tr o.pre)
    (hrt : OrdersAliases env.rt) (hp : o.Best env cap p) (hq : o.Best env cap q) : q = p := by
  by_contra hne
  have hswap := hrt.swap p.name q.name (eligible_valid hrun hp.toEligible)
    (eligible_valid hrun hq.toEligible)
  rcases hp.least q hq.toEligible hne with h | ⟨h, hn⟩
  · rcases hq.least p hp.toEligible (Ne.symm hne) with h' | ⟨h', -⟩
    · exact lt_asymm h h'
    · exact h.ne h'.symm
  · rcases hq.least p hp.toEligible (Ne.symm hne) with h' | ⟨-, hn'⟩
    · exact h'.ne h.symm
    · rw [hswap, hn] at hn'
      cases hn'

end Order

/-! ### The route -/

section Route

variable {env : Env} {epoch : Int} {tr : BrokerTrace ν} {o : Origin ν} {cap : String}
  {st' : BrokerState ν}

/-- What a refusal for want of an eligible peer says. -/
structure Origin.Explains (o : Origin ν) (cap : String) (code : MeshErrorCode) : Prop where
  denied : code = .policyDenied ↔ ∃ p, o.Capable cap p
  unsupported : code = .capsUnsupported ↔ (∃ p, o.Present p) ∧ ∀ p, o.Present p → p.caps = []
  otherwise : code = .policyDenied ∨ code = .capsUnsupported ∨ code = .noCapablePeer

theorem present_of_capable (hrun : Run (BrokerStep env) (BrokerState.init epoch) tr o.pre)
    {p : PeerRecord ν} (h : o.Capable cap p) : o.Present p :=
  (mem_others (linked_run hrun).keyed).mp (List.mem_filter.mp ((mem_capable hrun).mpr h)).1

/-- The code of a refusal, as the three flags of `routeCapMsg` choose it. -/
def Origin.capCode (o : Origin ν) (cap : String) : MeshErrorCode :=
  if !(o.capable cap).isEmpty then .policyDenied
  else if o.others.isEmpty then .noCapablePeer
  else if o.others.all (fun p => p.caps.isEmpty) then .capsUnsupported
  else .noCapablePeer

theorem explains_code (hrun : Run (BrokerStep env) (BrokerState.init epoch) tr o.pre) :
    o.Explains cap (o.capCode cap) := by
  have hothers : ∀ p, p ∈ o.others ↔ o.Present p := fun p => mem_others (linked_run hrun).keyed
  have hcapable : ∀ p, p ∈ o.capable cap ↔ o.Capable cap p := fun p => mem_capable hrun
  unfold Origin.capCode
  cases hc : o.capable cap with
  | cons p rest =>
      have hp : o.Capable cap p := (hcapable p).mp (hc ▸ List.mem_cons_self)
      refine ⟨⟨fun _ => ⟨p, hp⟩, fun _ => rfl⟩, ⟨fun h => (by cases h), ?_⟩, .inl rfl⟩
      rintro ⟨-, hnone⟩
      have hcaps := hp.caps
      rw [hnone p (present_of_capable hrun hp)] at hcaps
      cases hcaps
  | nil =>
      have hno : ¬∃ p, o.Capable cap p := by
        rintro ⟨p, hp⟩
        have hin := (hcapable p).mpr hp
        rw [hc] at hin
        cases hin
      show o.Explains cap (if o.others.isEmpty then .noCapablePeer
        else if o.others.all (fun p => p.caps.isEmpty) then .capsUnsupported else .noCapablePeer)
      cases ho : o.others with
      | nil =>
          refine ⟨⟨fun h => (by cases h), fun h => absurd h hno⟩, ⟨fun h => (by cases h), ?_⟩,
            .inr (.inr rfl)⟩
          rintro ⟨⟨p, hp⟩, -⟩
          have hin := (hothers p).mpr hp
          rw [ho] at hin
          cases hin
      | cons q rest =>
          have hq : o.Present q := (hothers q).mp (ho ▸ List.mem_cons_self)
          rw [← ho]
          have hne : o.others.isEmpty = false := by rw [ho]; rfl
          by_cases hall : o.others.all (fun p => p.caps.isEmpty) = true
          · rw [hne, if_neg (by decide), if_pos hall]
            refine ⟨⟨fun h => (by cases h), fun h => absurd h hno⟩, ⟨fun _ => ⟨⟨q, hq⟩, ?_⟩,
              fun _ => rfl⟩, .inr (.inl rfl)⟩
            intro p hp
            exact List.isEmpty_iff.mp (List.all_eq_true.mp hall p ((hothers p).mpr hp))
          · rw [hne, if_neg (by decide), if_neg hall]
            refine ⟨⟨fun h => (by cases h), fun h => absurd h hno⟩, ⟨fun h => (by cases h), ?_⟩,
              .inr (.inr rfl)⟩
            rintro ⟨-, hnone⟩
            refine absurd (List.all_eq_true.mpr ?_) hall
            intro p hp
            rw [hnone p ((hothers p).mp hp)]
            rfl

/-- What a line that asks for a capability leads to. -/
theorem step_cap (h : o.AsksCap env cap)
    (hstep : BrokerStep env o.pre (o.now, .line o.sock o.text) st') :
    Aside (routeCapMsg env o.now o.met o.sender o.frame cap o.frame.roomId) st' := by
  have htype := h.type
  rcases step_authed h.accepted h.authed (by rw [htype]; decide) hstep with ⟨-, hc⟩ | ⟨s, -, hs, ha⟩
  · rw [h.connected] at hc
    cases hc
  · obtain ⟨name, hto, hcap⟩ := h.target
    have hrole : o.sender.rooms.get? (.ofString (o.frame.room.getD defaultRoom)) = some .member :=
      h.role
    have hroute : routeMsg env o.now o.met o.sender o.frame
        = routeCapMsg env o.now o.met o.sender o.frame cap o.frame.roomId := by
      unfold routeMsg
      rw [if_neg h.direct, hto]
      simp only [hrole, hcap]
      rfl
    simp only [dispatchPeer, htype] at hs
    rw [← hroute]
    exact Except.ok.inj hs ▸ ha

/-- What is done with the sorted candidates. -/
def Origin.capSettled (env : Env) (o : Origin ν) (cap : String) :
    List (PeerRecord ν) → BrokerState ν
  | [] => o.capRefused env (o.capCode cap)
  | p :: _ =>
      if (decisionFor env o.sender.name o.frame p.name).isDeny then o.capRefused env .policyDenied
      else o.capRelayed env cap p

/-- A capability route, once its sender's token is taken. -/
theorem routeCapMsg_eq (hrun : Run (BrokerStep env) (BrokerState.init epoch) tr o.pre)
    (h : o.AsksCap env cap) :
    routeCapMsg env o.now o.met o.sender o.frame cap o.frame.roomId =
      if (o.rated env).1 = false then o.capRefused env .rateLimited
      else o.capSettled env cap ((o.candidates env cap).insertionSort (notAfter env o.now)) := by
  -- the sender is in the room, so the room is there
  have hsender : InRoom o.pre.rooms o.peer.name o.room := by
    have hst := linked_run hrun
    refine hst.linked o.peer.name o.peer (authed_sender hst.keyed h.authed).2 o.room ?_
    exact (Map.has_iff _ _).mpr ⟨_, h.role⟩
  obtain ⟨members, hmembers, -⟩ := hsender
  have hothers : o.others
      = (members.elems.filter fun name => name ≠ o.sender.name).filterMap o.met.online := by
    unfold Origin.others
    rw [show o.met.rooms.get? o.room = some members from hmembers]
  have hroom : (o.rated env).2.rooms.get? (.ofString o.frame.roomId) = some members := hmembers
  have hrated : takeRate env o.now o.met o.sender.name (rateKind (o.frame.priority.getD .normal))
      = ((o.rated env).1, (o.rated env).2) := rfl
  unfold routeCapMsg
  simp only [hrated, hroom]
  cases (o.rated env).1 with
  | false => rfl
  | true =>
      simp only [Bool.not_true, Bool.false_eq_true, if_false]
      unfold Origin.capSettled Origin.capCode Origin.candidates Origin.capable
      rw [hothers]
      rfl

/-- **A capability route goes to the best peer, whatever the order of the members.**  The
sender's rate limit comes first.  Past it the message goes to the eligible peer with the least
load and, among those, the first alias; where nobody is eligible, the refusal says why. -/
theorem cap_route_chooses (hrun : Run (BrokerStep env) (BrokerState.init epoch) tr o.pre)
    (hrt : OrdersAliases env.rt)
    (hbusy : ∀ name p, o.pre.peers.get? name = some p → BusyBounded env.rt o.now p)
    (h : o.AsksCap env cap)
    (hstep : BrokerStep env o.pre (o.now, .line o.sock o.text) st') :
    ∃ s, Aside s st' ∧
      ((o.rated env).1 = false ∧ s = o.capRefused env .rateLimited ∨
        (o.rated env).1 = true ∧
          ((∃ p, o.Best env cap p ∧ (∀ q, o.Best env cap q → q = p) ∧
              s = o.capRelayed env cap p) ∨
            (∀ p, ¬o.Eligible env cap p) ∧
              ∃ code, o.Explains cap code ∧ s = o.capRefused env code)) := by
  refine ⟨_, step_cap h hstep, ?_⟩
  rw [routeCapMsg_eq hrun h]
  by_cases hrate : (o.rated env).1 = false
  · rw [if_pos hrate]
    exact .inl ⟨hrate, rfl⟩
  · rw [if_neg hrate]
    refine .inr ⟨by simpa using hrate, ?_⟩
    cases hsort : (o.candidates env cap).insertionSort (notAfter env o.now) with
    | nil =>
        refine .inr ⟨?_, o.capCode cap, explains_code hrun, rfl⟩
        intro p hp
        have hin := (List.mem_insertionSort (notAfter env o.now)).mpr ((mem_candidates hrun).mpr hp)
        rw [hsort] at hin
        cases hin
    | cons p rest =>
        have hbest := best_of_head hrun hrt hbusy hsort
        refine .inl ⟨p, hbest, fun q hq => best_unique hrun hrt hbest hq, ?_⟩
        show (if (decisionFor env o.sender.name o.frame p.name).isDeny = true then _ else _) = _
        rw [if_neg (by rw [hbest.policy]; decide)]

end Route

/-! ### Three routes -/

theorem ordersAliases_reference : OrdersAliases referenceRuntime where
  swap a b _ _ := by
    show compareOfLessAndEq b a = (compareOfLessAndEq a b).swap
    unfold compareOfLessAndEq
    rcases lt_trichotomy a b with h | rfl | h
    · simp [h, h.ne', h.not_gt]
    · simp
    · simp [h, h.ne', h.not_gt]
  trans a b c _ _ _ hab hbc := by
    have h₁ : a < b := compareOfLessAndEq_eq_lt.mp hab
    have h₂ : b < c := compareOfLessAndEq_eq_lt.mp hbc
    exact compareOfLessAndEq_eq_lt.mpr (h₁.trans h₂)
  eq a b _ _ h := (compareOfLessAndEq_eq_eq le_refl not_le).mp h

/-- The line as it meets the state, if an authenticated peer sent it. -/
def originOf (env : Env) (st : BrokerState ν) (now : Int) (sock : SocketId) (text : List Char) :
    Option (Origin ν) :=
  (heard env (st, now, .line sock text)).map fun r => ⟨st, now, sock, text, r.2, r.1⟩

/-- A test for `AsksCap`, past what `originOf` has looked at. -/
def asksCap (env : Env) (o : Origin ν) (cap : String) : Bool :=
  decide (o.frame.type = .msg ∧ o.frame.broadcast ≠ some true ∧
    o.frame.recipient.bind (capTargetName env.rt) = some cap ∧
    o.sender.rooms.get? o.room = some .member)

theorem asksCap_of_test {env : Env} {st : BrokerState ν} {now : Int} {sock : SocketId}
    {text : List Char} {o : Origin ν} {cap : String} (ho : originOf env st now sock text = some o)
    (h : asksCap env o cap = true) :
    o.AsksCap env cap ∧ o.pre = st ∧ o.now = now ∧ o.sock = sock ∧ o.text = text := by
  obtain ⟨⟨a, f⟩, hheard, rfl⟩ := Option.map_eq_some_iff.mp ho
  obtain ⟨_, _, he, hconn, hacc, hauth⟩ := heard_eq_some hheard
  obtain ⟨rfl, rfl⟩ := Event.line.inj he
  obtain ⟨htype, hdirect, hto, hrole⟩ := of_decide_eq_true h
  obtain ⟨name, hname, hcap⟩ := Option.bind_eq_some_iff.mp hto
  exact ⟨⟨hconn, hacc, hauth, htype, hdirect, ⟨name, hname, hcap⟩, hrole⟩, rfl, rfl, rfl, rfl⟩

/-- Alice, ada and bob say hello; ada and bob can review. -/
def reviewers : List (Int × Event) :=
  let review := [("caps", .arr [.str "review"]), ("proto", .num 2)]
  [(1000, .connect 0 false none), (1001, .line 0 (frameLine .hello "m_1" "alice" [])),
    (1002, .connect 1 false none), (1003, .line 1 (frameLine .hello "m_2" "ada" review)),
    (1004, .connect 2 false none), (1005, .line 2 (frameLine .hello "m_3" "bob" review))]

/-- Alice asks for a review. -/
def aliceAsks (id : String) : List Char :=
  frameLine .msg id "alice"
    [("to", .str "cap:review"), ("room", .str "default"), ("body", .str "hi")]

theorem cap_route_chooses_ada : ∃ (tr : BrokerTrace Int) (o : Origin Int) (st' s : BrokerState Int)
    (p : PeerRecord Int), tr.map Prod.snd = reviewers ∧ o.AsksCap (referenceEnv {}) "review" ∧
      BrokerStep (referenceEnv {}) o.pre (o.now, .line o.sock o.text) st' ∧ Aside s st' ∧
      o.Best (referenceEnv {}) "review" p ∧ s = o.capRelayed (referenceEnv {}) "review" p := by
  have h : ((runBroker (referenceEnv {}) reviewers).any fun r =>
      r.2.peers.values.all (fun p => p.activity.isNone) &&
      (originOf (referenceEnv {}) r.2 2000 0 (aliceAsks "m_4")).any fun o =>
        asksCap (referenceEnv {}) o "review" && ((o.rated (referenceEnv {})).1 &&
        (!(o.candidates (referenceEnv {}) "review").isEmpty &&
        (step (referenceEnv {}) 2000 r.2 (.line 0 (aliceAsks "m_4"))).toOption.isSome))) = true := by
    decide +kernel
  obtain ⟨tr, st, hrun, htr, hcheck⟩ := exists_run h
  simp only [Bool.and_eq_true, Option.any_eq_true, List.all_eq_true, Option.isNone_iff_eq_none,
    Bool.not_eq_true', Option.isSome_iff_exists] at hcheck
  obtain ⟨hidle, o, ho, hasks, hrate, hsome, st', hstep⟩ := hcheck
  obtain ⟨hcap, rfl, hnow, hsock, htext⟩ := asksCap_of_test ho hasks
  have hbusy : ∀ name p, o.pre.peers.get? name = some p →
      BusyBounded (referenceEnv {}).rt o.now p := by
    intro name p hp act since hact
    rw [hidle p ((Map.mem_values_iff _ _).mpr ⟨name, hp⟩)] at hact
    cases hact
  have hstep' : BrokerStep (referenceEnv {}) o.pre (o.now, .line o.sock o.text) st' := by
    rw [hnow, hsock, htext]
    exact toOption_eq_some hstep
  obtain ⟨s, hs, hout⟩ := cap_route_chooses hrun ordersAliases_reference hbusy hcap hstep'
  rcases hout with ⟨hfalse, -⟩ | ⟨-, ⟨p, hbest, -, heq⟩ | ⟨hnone, -⟩⟩
  · rw [hrate] at hfalse
    cases hfalse
  · exact ⟨tr, o, st', s, p, htr, hcap, hstep', hs, hbest, heq⟩
  · cases hc : o.candidates (referenceEnv {}) "review" with
    | nil =>
        rw [hc] at hsome
        cases hsome
    | cons p rest => exact absurd ((mem_candidates hrun).mp (hc ▸ List.mem_cons_self)) (hnone p)

/-- A second message in a minute that allows one is refused for the rate, though nobody
else is there; and ada, who turned busy in this millisecond, has been busy for no time at all
but is passed over for bob. -/
theorem route_limited_and_clamped :
    (∃ (tr : BrokerTrace Int) (o : Origin Int) (st' : BrokerState Int),
      Run (BrokerStep (referenceEnv { rateLimits := { msgPerMin := 1 } })) (BrokerState.init 1) tr
        o.pre ∧
      o.AsksCap (referenceEnv { rateLimits := { msgPerMin := 1 } }) "review" ∧
      BrokerStep (referenceEnv { rateLimits := { msgPerMin := 1 } }) o.pre
        (o.now, .line o.sock o.text) st' ∧
      (∀ p, ¬o.Present p) ∧
      ∃ w ∈ st'.writes.drop o.pre.writes.length, w.socket = o.sock ∧
        getOf w.frame "code" = some (.str MeshErrorCode.rateLimited.text)) ∧
    ∃ (tr : BrokerTrace Int) (o : Origin Int) (st' : BrokerState Int) (ada bob : PeerRecord Int),
      Run (BrokerStep (referenceEnv {})) (BrokerState.init 1) tr o.pre ∧
      o.AsksCap (referenceEnv {}) "review" ∧
      BrokerStep (referenceEnv {}) o.pre (o.now, .line o.sock o.text) st' ∧
      o.Eligible (referenceEnv {}) "review" ada ∧ o.Eligible (referenceEnv {}) "review" bob ∧
      (∃ act, ada.activity = some act ∧ act.state = .busy ∧
        referenceRuntime.dateParse act.since = some o.now) ∧
      bob.activity = none ∧ referenceRuntime.localeCompare ada.name bob.name = .lt ∧
      ∃ w ∈ st'.writes.drop o.pre.writes.length, w.delivers?.map Prod.fst = some bob.name := by
  constructor
  · have h : ((runBroker (referenceEnv { rateLimits := { msgPerMin := 1 } })
        (reviewers.take 2 ++ [(2000, .line 0 (aliceAsks "m_2"))])).any fun r =>
        (originOf (referenceEnv { rateLimits := { msgPerMin := 1 } }) r.2 2000 0
          (aliceAsks "m_3")).any fun o =>
        asksCap (referenceEnv { rateLimits := { msgPerMin := 1 } }) o "review" &&
        (o.others.isEmpty &&
        (step (referenceEnv { rateLimits := { msgPerMin := 1 } }) 2000 r.2
          (.line 0 (aliceAsks "m_3"))).toOption.any fun st' =>
          (st'.writes.drop r.2.writes.length).any fun w => decide (w.socket = 0 ∧
            getOf w.frame "code" = some (.str MeshErrorCode.rateLimited.text)))) = true := by
      decide +kernel
    obtain ⟨tr, st, hrun, -, hcheck⟩ := exists_run h
    simp only [Bool.and_eq_true, Option.any_eq_true, List.any_eq_true, decide_eq_true_eq] at hcheck
    obtain ⟨o, ho, hasks, hnone, st', hstep, w, hw, hsock', hcode⟩ := hcheck
    obtain ⟨hcap, rfl, hnow, hsock, htext⟩ := asksCap_of_test ho hasks
    refine ⟨tr, o, st', hrun, hcap, ?_, ?_, w, hw, by rw [hsock]; exact hsock', hcode⟩
    · rw [hnow, hsock, htext]
      exact toOption_eq_some hstep
    · intro p hp
      have hin := (mem_others (linked_run hrun).keyed).mpr hp
      rw [List.isEmpty_iff.mp hnone] at hin
      cases hin
  · have h : ((runBroker (referenceEnv {})
        (reviewers ++ [(2000, .line 1 (frameLine .activity "m_4" "ada"
          [("status", .str "busy")]))])).any fun r =>
        (originOf (referenceEnv {}) r.2 2000 0 (aliceAsks "m_5")).any fun o =>
        asksCap (referenceEnv {}) o "review" &&
        ((o.candidates (referenceEnv {}) "review").any fun ada =>
          (ada.activity.any fun act => decide (act.state = .busy ∧
            referenceRuntime.dateParse act.since = some 2000)) &&
          (o.candidates (referenceEnv {}) "review").any fun bob => bob.activity.isNone &&
            (decide (referenceRuntime.localeCompare ada.name bob.name = .lt) &&
            (step (referenceEnv {}) 2000 r.2 (.line 0 (aliceAsks "m_5"))).toOption.any fun st' =>
              (st'.writes.drop r.2.writes.length).any fun w =>
                decide (w.delivers?.map Prod.fst = some bob.name)))) = true := by
      decide +kernel
    obtain ⟨tr, st, hrun, -, hcheck⟩ := exists_run h
    simp only [Bool.and_eq_true, Option.any_eq_true, List.any_eq_true, decide_eq_true_eq,
      Option.isNone_iff_eq_none] at hcheck
    obtain ⟨o, ho, hasks, ada, hada, ⟨act, hact, hbusy, hsince⟩, bob, hbob, hidle, hlt, st', hstep,
      w, hw, hname⟩ := hcheck
    obtain ⟨hcap, rfl, hnow, hsock, htext⟩ := asksCap_of_test ho hasks
    refine ⟨tr, o, st', ada, bob, hrun, hcap, ?_, (mem_candidates hrun).mp hada,
      (mem_candidates hrun).mp hbob, ⟨act, hact, hbusy, by rw [hnow]; exact hsince⟩, hidle, hlt,
      w, hw, hname⟩
    rw [hnow, hsock, htext]
    exact toOption_eq_some hstep

end PiMesh
