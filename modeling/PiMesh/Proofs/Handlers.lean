/-
Every handler is a chain of effects, and what it passes on went through its gates.

`Route` says why a frame may be on its way to an alias: one constructor for each place
of the source that relays, with the tests the code made there, read against the state
in which the frame arrived.  A handler's lemma shows that it is a chain whose relays and
stored messages all have a route.  Inside a fan-out the tables may shrink between two
writes, because a failed write closes a record; since they only shrink, a test that
passed later would have passed at the start.
-/
import PiMesh.Proofs.Effects

namespace PiMesh

open Js Transition Relation BrokerState

variable {ν : Type} [Number ν] [DecidableEq ν]

/-- The room a frame is tagged with. -/
def MeshFrame.roomId (f : MeshFrame ν) : String := f.room.getD defaultRoom

def MeshFrame.prio (f : MeshFrame ν) : MeshPriority := f.priority.getD .normal

/-- The decision the policy takes on a frame for one recipient. -/
def decisionFor (env : Env) (sender : String) (f : MeshFrame ν) (recipient : String) :
    PolicyDecision :=
  evaluatePolicy env.policy ⟨sender, recipient, f.roomId, f.prio⟩

/-- A frame rewritten for the peer that was chosen for a capability. -/
def capRouted (f : MeshFrame ν) (cap name : String) : Members ν :=
  withMember (withMember (withMember f.raw "to" (.str name)) "routedCap" (.str cap)) "routedTo"
    (.str name)

/-- Whom a reply goes to: the room, the designated targets, or the one recipient. -/
inductive Addressed (st : BrokerState ν) (a : PeerRecord ν) (f : MeshFrame ν) (name : String) : Prop
  | all (hall : f.replyAll = some true) (hne : name ≠ a.name) (members : Js.Set String)
      (hroom : st.rooms.get? (.ofString f.roomId) = some members) (hin : name ∈ members.elems)
  | targets (hall : f.replyAll ≠ some true) (hne : name ≠ a.name) (targets : List String)
      (htargets : f.replyTargets = some targets) (hin : name ∈ targets)
  | one (hall : f.replyAll ≠ some true) (htargets : f.replyTargets = none)
      (hto : f.recipient = some name)

/-- Why a frame `f` of the record `a` may be passed on to an alias, and in which form. -/
inductive Route (env : Env) (st : BrokerState ν) (a : PeerRecord ν) (f : MeshFrame ν) :
    Members ν → String → Prop
  | direct (target : String) (htype : f.type = .msg) (hbroadcast : f.broadcast ≠ some true)
      (hto : f.recipient = some target) (hcap : capTargetName env.rt target = none)
      (hrole : a.rooms.get? (.ofString f.roomId) = some .member)
      (hin : ∀ t, st.online target = some t → t.rooms.has (.ofString f.roomId) = true)
      (hpolicy : (decisionFor env a.name f target).isDeny = false) :
      Route env st a f (routed (decisionFor env a.name f target) f.prio f.raw).1 target
  | cap (t : PeerRecord ν) (cap target : String) (htype : f.type = .msg)
      (hbroadcast : f.broadcast ≠ some true) (hto : f.recipient = some target)
      (hcap : capTargetName env.rt target = some cap)
      (hrole : a.rooms.get? (.ofString f.roomId) = some .member)
      (honline : st.online t.name = some t) (hne : t.name ≠ a.name)
      (hin : t.rooms.get? (.ofString f.roomId) = some .member) (hcaps : cap ∈ t.caps)
      (hpolicy : (decisionFor env a.name f t.name).isDeny = false) :
      Route env st a f
        (routed (decisionFor env a.name f t.name) f.prio (capRouted f cap t.name)).1 t.name
  | broadcast (name : String) (members : Js.Set String) (htype : f.type = .msg)
      (hbroadcast : f.broadcast = some true)
      (hrole : a.rooms.get? (.ofString f.roomId) = some .member)
      (hroom : st.rooms.get? (.ofString f.roomId) = some members) (hin : name ∈ members.elems)
      (hne : name ≠ a.name) (hpolicy : (decisionFor env a.name f "*").isDeny = false) :
      Route env st a f f.raw name
  | reply (t : PeerRecord ν) (htype : f.type = .reply) (honline : st.online t.name = some t)
      (hwho : Addressed st a f t.name) :
      Route env st a f f.raw t.name
  | silent (t : PeerRecord ν) (htype : f.type = .remind ∨ f.type = .read)
      (honline : st.online t.name = some t) (hto : f.recipient = some t.name) :
      Route env st a f f.raw t.name
  | ctl (t : PeerRecord ν) (htype : f.type = .ctl) (hto : f.recipient = some t.name)
      (hrole : a.rooms.get? (.ofString f.roomId) = some .member)
      (honline : st.online t.name = some t) (hin : t.rooms.has (.ofString f.roomId) = true)
      (hpolicy : evaluatePolicy env.policy ⟨a.name, t.name, f.roomId, ctlPriority f.action⟩
        = .allow) :
      Route env st a f f.raw t.name
  | ctlAck (t : PeerRecord ν) (htype : f.type = .ctlAck) (hto : f.recipient = some t.name)
      (honline : st.online t.name = some t) (pending : PendingCtl)
      (hpending : f.replyTo.bind st.pendingCtl.get? = some pending)
      (hfrom : pending.recipient = a.name) (hsender : pending.sender = t.name)
      (haction : pending.action = f.action) :
      Route env st a f f.raw t.name

/-! ### Rewritten frames -/

theorem getOf_withMember (ms : Members ν) (k k' : String) (v : Json ν) :
    getOf (withMember ms k v) k' = if k' = k then some v else getOf ms k' :=
  lookupEntry_setEntry k k' v ms

theorem getOf_withoutMember (ms : Members ν) (k k' : String) :
    getOf (withoutMember ms k) k' = if k' = k then none else getOf ms k' :=
  lookupEntry_filter_ne k k' ms

/-- A decision that lets a frame through touches its priority and its interrupt flag only. -/
theorem getOf_routed (decision : PolicyDecision) (priority : MeshPriority) (ms : Members ν)
    {k : String} (h : k ≠ "priority" ∧ k ≠ "interrupt") :
    getOf (routed decision priority ms).1 k = getOf ms k := by
  cases decision with
  | allow => rfl
  | deny code => rfl
  | downgrade => simp [routed, getOf_withoutMember, getOf_withMember, h.1, h.2]

theorem getOf_capRouted (f : MeshFrame ν) (cap name : String) {k : String}
    (h : k ≠ "to" ∧ k ≠ "routedCap" ∧ k ≠ "routedTo") :
    getOf (capRouted f cap name) k = getOf f.raw k := by
  simp [capRouted, getOf_withMember, h.1, h.2.1, h.2.2]

/-- The members a form of a frame may differ in. -/
def rewrittenKeys : List String := ["priority", "interrupt", "to", "routedCap", "routedTo"]

theorem Route.keeps {env : Env} {st : BrokerState ν} {a : PeerRecord ν} {f : MeshFrame ν}
    {out : Members ν} {name : String} (h : Route env st a f out name) {k : String}
    (hk : k ∉ rewrittenKeys) : getOf out k = getOf f.raw k := by
  simp only [rewrittenKeys, List.mem_cons, List.not_mem_nil, not_or, or_false] at hk
  obtain ⟨hpriority, hinterrupt, hcap⟩ := hk
  cases h with
  | direct => exact getOf_routed _ _ _ ⟨hpriority, hinterrupt⟩
  | cap => rw [getOf_routed _ _ _ ⟨hpriority, hinterrupt⟩, getOf_capRouted f _ _ hcap]
  | broadcast => rfl
  | reply => rfl
  | silent => rfl
  | ctl => rfl
  | ctlAck => rfl

/-- Every form a frame is passed on in is still from its sender and has its id. -/
theorem Route.carries {env : Env} {st : BrokerState ν} {a : PeerRecord ν} {f : MeshFrame ν}
    {out : Members ν} {name : String} (h : Route env st a f out name) {sender id : String}
    (hraw : Carries f.raw sender id) : Carries out sender id := by
  unfold Carries
  rw [h.keeps (by decide), h.keeps (by decide)]
  exact hraw

/-! ### Permits for routes -/

/-- A copy of a fan-out. -/
def WriteCallback.IsCopy : WriteCallback ν → Prop
  | .replyCopy _ _ => True
  | .broadcastCopy _ _ => True
  | _ => False

/-- A frame type of control traffic. -/
def MeshFrameType.IsControl (type : MeshFrameType) : Prop := type = .ctl ∨ type = .ctlAck

/-- A frame is passed on under a callback that goes with its type. -/
structure Suits (P : Permits ν) (f : MeshFrame ν) (cb : WriteCallback ν) : Prop where
  copy : cb.IsCopy → P.groups
  stores : cb.Stores → f.type = .msg
  control : cb.IsControl → f.type.IsControl

/-- Whatever has a route may be passed on to who is online, and a message stored for who is
online or known; copies of a fan-out only where fan-outs may change. -/
structure RoutePermits (P : Permits ν) (env : Env) (st : BrokerState ν) (a : PeerRecord ν)
    (f : MeshFrame ν) : Prop where
  relay : ∀ (t : PeerRef) out cb, Route env st a f out t.name → cb.target? = some t →
    Suits P f cb → st.peers.has t.name = true → P.relay t out cb
  store : ∀ name out group, Route env st a f out name → f.type = .msg →
    (group ≠ none → P.groups) → (st.peers.has name = true ∨ st.knownAliases.has name = true) →
    P.store name out group
  touch : ¬ P.touch
  control : f.type.IsControl → P.control

/-- Records are stored under their own names. -/
def Keyed (st : BrokerState ν) : Prop := ∀ name p, st.peers.get? name = some p → p.name = name

section Handlers

variable {env : Env} {now : Int} {P : Permits ν} {st : BrokerState ν} {a : PeerRecord ν}
  {f : MeshFrame ν}

theorem Keyed.online (h : Keyed st) {name : String} {p : PeerRecord ν}
    (hp : st.online name = some p) : p.name = name := h name p (online_eq_some hp).1

theorem has_of_online {name : String} {p : PeerRecord ν} (h : st.online name = some p) :
    st.peers.has name = true := (Map.has_iff _ _).mpr ⟨p, (online_eq_some h).1⟩

/-- A record that is online is the one its alias has. -/
theorem isCurrent_of_online (hkeyed : Keyed st) {name : String} {p : PeerRecord ν}
    (h : st.online name = some p) : st.isCurrent p.toRef = true := by
  obtain rfl : p.name = name := hkeyed.online h
  unfold BrokerState.isCurrent
  rw [show p.toRef.name = p.name from rfl, (online_eq_some h).1]
  exact beq_self_eq_true p.ref

theorem callbackPermitted_direct (hP : RoutePermits P env st a f) (hraw : Carries f.raw a.name f.id)
    (htype : f.type = .msg) {t : PeerRef} {out : Members ν} (hroute : Route env st a f out t.name)
    (hhas : st.peers.has t.name = true) (i r : Option String) :
    CallbackPermitted P out (.direct a.toRef t f.id i r) where
  copy _ _ h := by cases h
  direct _ _ _ _ _ h := by
    cases h
    exact ⟨hP.store _ _ none hroute htype (by simp) (.inl hhas), .inl (hroute.carries hraw)⟩
  groups h := by
    obtain ⟨g, t, h | h⟩ := h <;> cases h
  control h := h.elim

theorem callbackPermitted_plain {out : Members ν} {cb : WriteCallback ν} (h : ¬ cb.IsCopy)
    (hd : ∀ s t id i r, cb ≠ .direct s t id i r) (hcontrol : cb.IsControl → P.control) :
    CallbackPermitted P out cb where
  copy _ _ hc := by subst hc; exact absurd trivial h
  direct _ _ _ _ _ hc := absurd hc (hd _ _ _ _ _)
  groups hc := by
    obtain ⟨g, t, rfl | rfl⟩ := hc
    · exact absurd trivial h
    · exact absurd trivial h
  control := hcontrol

/-- Pass a frame on under a direct callback. -/
theorem relayDirect_chain {s : BrokerState ν} (hP : RoutePermits P env st a f)
    (hraw : Carries f.raw a.name f.id) (htype : f.type = .msg) {t : PeerRecord ν} {name : String}
    {out : Members ν} (hroute : Route env st a f out t.toRef.name) (hkeyed : Keyed st)
    (ht : st.online name = some t) (hpeers : s.peers = st.peers) (i r : Option String) :
    Chain env now P s (relay env now s t.toRef out (.direct a.toRef t.toRef f.id i r)) := by
  obtain rfl : t.name = name := hkeyed.online ht
  have hhas : st.peers.has t.toRef.name = true := has_of_online ht
  refine relay_chain (hP.relay t.toRef out _ hroute rfl ⟨fun h => h.elim, fun _ => htype,
    fun h => h.elim⟩ hhas) (callbackPermitted_direct hP hraw htype hroute hhas i r) ?_
  intro _ t' ht'
  obtain rfl := Option.some.inj ht'
  unfold BrokerState.isCurrent
  rw [hpeers]
  exact isCurrent_of_online hkeyed ht

/-! ### Messages -/

theorem routeDirect_chain (hP : RoutePermits P env st a f) (hraw : Carries f.raw a.name f.id)
    (hkeyed : Keyed st) (htype : f.type = .msg) (hb : f.broadcast ≠ some true) {target : String}
    (hto : f.recipient = some target) (hcap : capTargetName env.rt target = none)
    (hrole : a.rooms.get? (.ofString f.roomId) = some .member) :
    Chain env now P st (routeDirect env now st a f f.roomId target) := by
  unfold routeDirect
  simp only
  split
  · exact refuse_chain _ _ _
  · next hfound =>
    split
    · exact refuse_chain _ _ _
    · next hroom =>
        refine (aside_takeRate env now st a.name (rateKind f.prio)).chain.trans ?_
        split
        · exact refuse_chain _ _ _
        · have hin : ∀ t, st.online target = some t → t.rooms.has (.ofString f.roomId) = true := by
            intro t ht
            simpa [ht] using hroom
          have hroute : (decisionFor env a.name f target).isDeny = false →
              Route env st a f (routed (decisionFor env a.name f target) f.prio f.raw).1 target :=
            .direct target htype hb hto hcap hrole hin
          split
          · exact refuse_chain _ _ _
          · next hdec =>
              have hallow : (decisionFor env a.name f target).isDeny = false := by
                cases hd : decisionFor env a.name f target with
                | allow => rfl
                | downgrade => rfl
                | deny code => exact absurd hd (hdec code)
              cases hon : st.online target with
              | some t =>
                  simp only
                  have hname : t.toRef.name = target := hkeyed.online hon
                  refine relayDirect_chain hP hraw htype ?_ hkeyed hon ?_ _ _
                  · rw [hname]
                    exact hroute hallow
                  · rfl
              | none =>
                  simp only
                  have hknown : st.knownAliases.has target = true := by simpa [hon] using hfound
                  have hpermit := hP.store _ _ none (hroute hallow) htype (by simp) (.inr hknown)
                  have hoff : (takeRate env now st a.name (rateKind f.prio)).2.online target = none := hon
                  refine (ReflTransGen.single (Act.enqueue target _ none hpermit (.inl hoff))).trans
                    ((aside_addRelayed _ 1).chain.trans (sendQueuedAck_chain _ _ _ _ _ _ (.inl ?_)))
                  exact logged_enqueue env now _ target none ((hroute hallow).carries hraw)

theorem not_isDeny_of {decision : PolicyDecision} (h : ∀ code, decision ≠ .deny code) :
    decision.isDeny = false := by
  cases decision with
  | allow => rfl
  | downgrade => rfl
  | deny code => exact absurd rfl (h code)

theorem routeCapMsg_chain (hP : RoutePermits P env st a f) (hraw : Carries f.raw a.name f.id)
    (hkeyed : Keyed st) (htype : f.type = .msg) (hb : f.broadcast ≠ some true)
    {target cap : String} (hto : f.recipient = some target)
    (hcap : capTargetName env.rt target = some cap)
    (hrole : a.rooms.get? (.ofString f.roomId) = some .member) :
    Chain env now P st (routeCapMsg env now st a f cap f.roomId) := by
  have haside := aside_takeRate env now st a.name (rateKind f.prio)
  unfold routeCapMsg
  refine haside.chain.trans ?_
  simp only
  split
  · exact refuse_chain _ _ _
  · split
    · exact refuse_chain _ _ _
    · next members hmembers =>
        split
        · exact refuse_chain _ _ _
        · next chosen rest hsort =>
            -- the chosen peer is one of the candidates, so it passed every filter
            have hmem := (List.mem_insertionSort _).mp (hsort ▸ List.mem_cons_self)
            obtain ⟨hcapable, hdeny⟩ := List.mem_filter.mp hmem
            obtain ⟨honline, hable⟩ := List.mem_filter.mp hcapable
            obtain ⟨name, hname, hon⟩ := List.mem_filterMap.mp honline
            obtain ⟨-, hne⟩ := List.mem_filter.mp hname
            have hon' : st.online name = some chosen := haside.dwindles.online hon
            obtain rfl : chosen.name = name := hkeyed.online hon'
            simp only [isCapable, Bool.and_eq_true, beq_iff_eq, List.contains_iff_mem] at hable
            split
            · exact refuse_chain _ _ _
            · have hpolicy : (decisionFor env a.name f chosen.name).isDeny = false :=
                (Bool.not_eq_true' _).mp hdeny
              refine relayDirect_chain hP hraw htype ?_ hkeyed hon' ?_ _ _
              · exact .cap chosen cap target htype hb hto hcap hrole hon' (by simpa using hne) hable.1
                  hable.2 hpolicy
              · rfl

theorem broadcastOne_chain {s : BrokerState ν} (hP : RoutePermits P env st a f) (hgroups : P.groups)
    (g : Nat) (hkeyed : Keyed st) (hdw : Dwindles st s) (hknown : s.knownAliases = st.knownAliases)
    {name : String} {members : Js.Set String}
    (htype : f.type = .msg) (hb : f.broadcast = some true)
    (hrole : a.rooms.get? (.ofString f.roomId) = some .member)
    (hroom : st.rooms.get? (.ofString f.roomId) = some members) (hin : name ∈ members.elems)
    (hne : name ≠ a.name) (hpolicy : (decisionFor env a.name f "*").isDeny = false) :
    Chain env now P s (broadcastOne env now g (.ofString f.roomId) f.raw s name) := by
  have hroute : Route env st a f f.raw name :=
    .broadcast name members htype hb hrole hroom hin hne hpolicy
  unfold broadcastOne
  split
  · exact .refl
  · refine (modifyGroup_chain hgroups g Group.count).trans ?_
    simp only
    split
    · next t ht =>
        have hname : t.toRef.name = name := hkeyed.online (hdw.online ht)
        have hroute' : Route env st a f f.raw t.toRef.name := by rw [hname]; exact hroute
        have hhas : st.peers.has t.toRef.name = true := by
          rw [hname]
          exact has_of_online (hdw.online ht)
        refine (modifyGroup_chain hgroups g Group.await).trans (relay_chain ?_ ?_ ?_)
        · exact hP.relay _ _ _ hroute' rfl ⟨fun _ => hgroups, fun _ => htype, fun h => h.elim⟩ hhas
        · refine ⟨fun g' t' h => ?_, (by intro s t id i r h; cases h), fun _ => hgroups,
            fun h => h.elim⟩
          cases h
          exact hP.store _ _ _ hroute' htype (fun _ => hgroups) (.inl hhas)
        · intro _ t' ht'
          obtain rfl := Option.some.inj ht'
          have hkeyed' : Keyed s := fun n p hp => hkeyed n p (hdw.peers n p hp)
          exact isCurrent_of_online hkeyed' ht
    · next hoff =>
        split
        · next hhas =>
            have hhas' : st.knownAliases.has name = true := by rw [← hknown]; exact hhas
            exact .single (.enqueue name f.raw (some g)
              (hP.store _ _ _ hroute htype (fun _ => hgroups) (.inr hhas')) (.inl hoff))
        · exact .refl

theorem routeBroadcast_chain (hP : RoutePermits P env st a f) (hgroups : P.groups)
    (hkeyed : Keyed st) (htype : f.type = .msg) (hb : f.broadcast = some true) :
    Chain env now P st (routeBroadcast env now st a f f.roomId) := by
  unfold routeBroadcast
  simp only
  split
  · exact refuse_chain _ _ _
  · exact refuse_chain _ _ _
  · next hrole =>
      split
      · exact refuse_chain _ _ _
      · next hsize =>
          have haside := aside_takeRate env now st a.name (rateKind f.prio)
          refine haside.chain.trans ?_
          split
          · exact refuse_chain _ _ _
          · split
            · exact refuse_chain _ _ _
            · next hdec =>
                have hpolicy : (decisionFor env a.name f "*").isDeny = false := not_isDeny_of hdec
                cases hroom : st.rooms.get? (.ofString f.roomId) with
                | none =>
                    rw [hroom] at hsize
                    exact absurd (Nat.zero_le 1) hsize
                | some members =>
                    refine chain_foldl_from (openGroup_chain hgroups .broadcast a.toRef f.id)
                      fun s hs name hname => ?_
                    obtain ⟨hin, hne⟩ := List.mem_filter.mp hname
                    have hdw : Dwindles st s := haside.dwindles.trans (dwindles_of_chain hP.touch hs)
                    have hknown : s.knownAliases = st.knownAliases :=
                      (knownAliases_of_chain hs).trans haside.knownAliases
                    exact broadcastOne_chain hP hgroups _ hkeyed hdw hknown htype hb hrole hroom hin
                      (by simpa using hne) hpolicy

theorem routeMsg_chain (hP : RoutePermits P env st a f) (hraw : Carries f.raw a.name f.id)
    (hgroups : f.broadcast = some true → P.groups) (hkeyed : Keyed st) (htype : f.type = .msg) :
    Chain env now P st (routeMsg env now st a f) := by
  unfold routeMsg
  simp only
  split
  · next hb => exact routeBroadcast_chain hP (hgroups hb) hkeyed htype hb
  · next hb =>
      split
      · exact refuse_chain _ _ _
      · next target hto =>
          split
          · exact refuse_chain _ _ _
          · exact refuse_chain _ _ _
          · next hrole =>
              split
              · next cap hcap => exact routeCapMsg_chain hP hraw hkeyed htype hb hto hcap hrole
              · next hcap => exact routeDirect_chain hP hraw hkeyed htype hb hto hcap hrole

/-! ### Replies, reminders and receipts -/

theorem replyFan_chain {s : BrokerState ν} (hP : RoutePermits P env st a f) (hgroups : P.groups)
    (hdw : Dwindles st s) (names : List String)
    (hkeyed : Keyed st) (hroute : ∀ name ∈ names, name ≠ a.name → ∀ t, st.online name = some t →
      Route env st a f f.raw t.name) :
    Chain env now P s (replyFan env now s a f names) := by
  unfold replyFan
  refine chain_foldl_from (openGroup_chain hgroups .reply a.toRef f.id) fun s' hs name hname => ?_
  obtain ⟨hin, hne⟩ := List.mem_filter.mp hname
  have hdw' : Dwindles st s' := hdw.trans (dwindles_of_chain hP.touch hs)
  unfold replyOne
  split
  · exact .refl
  · next t ht =>
      have hr : Route env st a f f.raw t.toRef.name :=
        hroute name hin (by simpa using hne) t (hdw'.online ht)
      have hhas : st.peers.has t.toRef.name = true := by
        rw [show t.toRef.name = name from hkeyed.online (hdw'.online ht)]
        exact has_of_online (hdw'.online ht)
      refine (modifyGroup_chain hgroups _ Group.count).trans
        ((modifyGroup_chain hgroups _ Group.await).trans (relay_chain ?_ ?_ fun h => h.elim))
      · exact hP.relay _ _ _ hr rfl ⟨fun _ => hgroups, fun h => h.elim, fun h => h.elim⟩ hhas
      · exact ⟨(by intro g t h; cases h), (by intro s t id i r h; cases h), fun _ => hgroups,
          fun h => h.elim⟩

theorem routeOnlineOnly_chain {s : BrokerState ν} (hP : RoutePermits P env st a f)
    (hdw : Dwindles st s) (silentDrop : Bool) (hkeyed : Keyed st)
    (hroute : ∀ name t, f.recipient = some name → st.online name = some t →
      Route env st a f f.raw t.name) :
    Chain env now P s (routeOnlineOnly env now s a f silentDrop) := by
  unfold routeOnlineOnly
  split
  · next t ht =>
      obtain ⟨name, hto, ht⟩ := Option.bind_eq_some_iff.mp ht
      have hhas : st.peers.has t.toRef.name = true := by
        rw [show t.toRef.name = name from hkeyed.online (hdw.online ht)]
        exact has_of_online (hdw.online ht)
      refine relay_chain (hP.relay _ _ _ (hroute name t hto (hdw.online ht)) rfl
        ⟨fun h => h.elim, fun h => h.elim, fun h => h.elim⟩ hhas)
        (callbackPermitted_plain (fun h => h.elim) (by intros; simp) fun h => h.elim) fun h => h.elim
  · split
    · exact .refl
    · exact sendAck_chain _ _ _ _ _ _ (by simp)

theorem routeReply_chain (hP : RoutePermits P env st a f) (hgroups : P.groups) (hkeyed : Keyed st)
    (htype : f.type = .reply) : Chain env now P st (routeReply env now st a f) := by
  have haside := aside_takeRate env now st a.name .msg
  unfold routeReply
  refine haside.chain.trans ?_
  simp only
  split
  · exact sendError_chain _ _ _
  · split
    · next hall =>
        unfold routeReplyAll
        simp only
        split
        · exact sendAck_chain _ _ _ _ _ _ (by simp)
        · refine replyFan_chain hP hgroups haside.dwindles _ hkeyed fun name hin hne t ht => ?_
          obtain rfl : t.name = name := hkeyed.online ht
          rw [haside.rooms] at hin
          cases hroom : st.rooms.get? (.ofString f.roomId) with
          | none =>
              rw [show f.room.getD defaultRoom = f.roomId from rfl, hroom] at hin
              cases hin
          | some members =>
              rw [show f.room.getD defaultRoom = f.roomId from rfl, hroom] at hin
              exact .reply t htype ht (.all hall hne members hroom hin)
    · next hall =>
        split
        · next targets htargets =>
            refine replyFan_chain hP hgroups haside.dwindles _ hkeyed fun name hin hne t ht => ?_
            obtain rfl : t.name = name := hkeyed.online ht
            exact .reply t htype ht (.targets hall hne targets htargets hin)
        · next htargets =>
            refine routeOnlineOnly_chain hP haside.dwindles false hkeyed fun name t hto ht => ?_
            obtain rfl : t.name = name := hkeyed.online ht
            exact .reply t htype ht (.one hall htargets hto)

theorem routeSilent_chain (hP : RoutePermits P env st a f) (hkeyed : Keyed st)
    (htype : f.type = .remind ∨ f.type = .read) :
    Chain env now P st (routeOnlineOnly env now st a f true) := by
  refine routeOnlineOnly_chain hP (.of_same rfl rfl rfl) true hkeyed fun name t hto ht => ?_
  obtain rfl : t.name = name := hkeyed.online ht
  exact .silent t htype ht hto

/-! ### Control -/

theorem handleCtl_chain (hP : RoutePermits P env st a f) (hkeyed : Keyed st)
    (htype : f.type = .ctl) : Chain env now P st (handleCtl env now st a f) := by
  unfold handleCtl
  split
  · exact sendError_chain _ _ _
  · next target hto =>
      simp only
      split
      · exact refuse_chain _ _ _
      · exact refuse_chain _ _ _
      · next hrole =>
          split
          · exact sendError_chain _ _ _
          · next t ht =>
              obtain rfl : t.name = target := hkeyed.online ht
              split
              · exact refuse_chain _ _ _
              · next hin =>
                  split
                  · exact refuse_chain _ _ _
                  · next hallow =>
                      have hhas : t.rooms.has (.ofString f.roomId) = true := by
                        rw [Bool.not_eq_true', Bool.not_eq_false] at hin
                        exact hin
                      have hroute : Route env st a f f.raw t.toRef.name :=
                        .ctl t htype hto hrole ht hhas (not_not.mp hallow)
                      refine (aside_takeRate env now st a.name
                        (rateKind (ctlPriority f.action))).chain.trans ?_
                      split
                      · exact refuse_chain _ _ _
                      · refine ReflTransGen.head (.control (hP.control (.inl htype)) _)
                          (relay_chain ?_ ?_ fun h => h.elim)
                        · exact hP.relay _ _ _ hroute rfl
                            ⟨fun h => h.elim, fun h => h.elim, fun _ => .inl htype⟩ (has_of_online ht)
                        · exact callbackPermitted_plain (fun h => h.elim) (by intros; simp)
                            fun _ => hP.control (.inl htype)

theorem handleCtlAck_chain (hP : RoutePermits P env st a f) (hkeyed : Keyed st)
    (htype : f.type = .ctlAck) : Chain env now P st (handleCtlAck env now st a f) := by
  unfold handleCtlAck
  split
  · exact .refl
  · next replyTo hreply =>
      split
      · exact .refl
      · next pending hpending =>
          split
          · exact .refl
          · next hwho =>
              split
              · exact .refl
              · next haction =>
                  refine ReflTransGen.head
                    (.control (hP.control (.inr htype)) (st.pendingCtl.delete replyTo)) ?_
                  simp only
                  split
                  · exact .refl
                  · next t ht =>
                      obtain ⟨name, hto, ht⟩ := Option.bind_eq_some_iff.mp ht
                      have ht' : st.online name = some t := ht
                      obtain rfl : t.name = name := hkeyed.online ht'
                      simp only [ne_eq, not_or, not_not] at hwho haction
                      have hroute : Route env st a f f.raw t.toRef.name := by
                        refine .ctlAck t htype hto ht' pending (by rw [hreply]; exact hpending)
                          hwho.1 ?_ haction
                        rw [hto] at hwho
                        exact Option.some.inj hwho.2
                      exact relay_chain (hP.relay _ _ _ hroute rfl
                          ⟨fun h => h.elim, fun h => h.elim, fun _ => .inr htype⟩ (has_of_online ht'))
                        (callbackPermitted_plain (fun h => h.elim) (by intros; simp)
                          fun _ => hP.control (.inr htype)) fun h => h.elim

end Handlers

end PiMesh
