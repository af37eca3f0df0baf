/-
Controls and their acknowledgements.

`pendingCtl` binds an acknowledgement to the control it answers: the entry is made when
a control has passed every gate, and a `ctl_ack` is passed on only if it takes an entry
out.  `acceptedCtl` says of an event which control it let through, `Write.ack?` says of a
write which control it acknowledges, and the ledger of the two is the invariant: the
acknowledgements written and the entries still there are, as a collection, part of the
controls let through.

The table is keyed by the id alone, which its sender chooses.  The last part follows one
entry from the control to its answer and says what may remove it in between.
-/
import PiMesh.Proofs.Deliveries
import Mathlib.Data.List.Perm.Subperm

namespace PiMesh

open Js Transition Relation BrokerState

variable {ν : Type} [Number ν] [DecidableEq ν]

/-- A control: who asked whom for what, under which id. -/
structure Control where
  sender : String
  recipient : String
  id : String
  action : Option CtlAction
deriving DecidableEq

/-- The control a frame of `a` is, if it passes the gates of `handleCtl`: membership, role,
a target that is online and in the room, policy and rate. -/
def ctlGranted (env : Env) (now : Int) (st : BrokerState ν) (a : PeerRecord ν) (f : MeshFrame ν) :
    Option Control :=
  match f.recipient with
  | none => none
  | some target =>
      let key : RoomKey ν := .ofString f.roomId
      if f.type = .ctl ∧ a.rooms.get? key = some .member ∧
          ((st.online target).any fun t => t.rooms.has key) = true ∧
          evaluatePolicy env.policy ⟨a.name, target, f.roomId, ctlPriority f.action⟩ = .allow ∧
          (takeRate env now st a.name (rateKind (ctlPriority f.action))).1 = true then
        some ⟨a.name, target, f.id, f.action⟩
      else none

/-- The control an event let through. -/
def acceptedCtl (env : Env) (x : BrokerState ν × Int × Event) : Option Control :=
  (heard env x).bind fun h =>
    ctlGranted env x.2.1 (x.1.updatePeer (h.1.seen x.2.1)) (h.1.seen x.2.1) h.2

/-- The control a frame of `a` says it answers. -/
def ctlAnswered (a : PeerRecord ν) (f : MeshFrame ν) : Option Control :=
  if f.type = .ctlAck then
    match f.recipient, f.replyTo with
    | some sender, some id => some ⟨sender, a.name, id, f.action⟩
    | _, _ => none
  else none

/-- The control an event says it answers. -/
def answeredCtl (env : Env) (x : BrokerState ν × Int × Event) : Option Control :=
  (heard env x).bind fun h => ctlAnswered h.1 h.2

/-- A control that is let through can be handed over: its frame can be encoded and the
socket of who it is for can be written to. -/
def handsOver (env : Env) (x : BrokerState ν × Int × Event) : Bool :=
  (heard env x).all fun h => (h.2.recipient.bind x.1.online).all fun t =>
    (encodeFrame h.2.raw env.cfg.maxFrameBytes).isSome && x.1.isOpen t.socket

/-- The action a frame names. -/
def actionOf (frame : Members ν) : Option CtlAction :=
  (getOf frame "action").bind fun v => (asStr v).bind CtlAction.ofText?

/-- The control a written `ctl_ack` acknowledges: it was written to who asked, and is from
who was asked. -/
def Write.ack? (w : Write ν) : Option Control :=
  if frameType? w.frame = some .ctlAck then
    match w.callback.target?, (getOf w.frame "from").bind asStr,
        (getOf w.frame "replyTo").bind asStr with
    | some t, some sender, some id => some ⟨t.name, sender, id, actionOf w.frame⟩
    | _, _, _ => none
  else none

/-- The acknowledgements among the writes. -/
def acks (writes : List (Write ν)) : List Control := writes.filterMap Write.ack?

/-- The controls that wait for an answer. -/
def outstanding (pendingCtl : Map String PendingCtl) : List Control :=
  pendingCtl.entries.map fun e => ⟨e.2.sender, e.2.recipient, e.1, e.2.action⟩

/-! ### What leaves controls alone -/

/-- No `ctl_ack` is written and no entry changes. -/
structure Uncontrolled (st st' : BrokerState ν) : Prop where
  acks : acks st'.writes = acks st.writes
  pendingCtl : st'.pendingCtl = st.pendingCtl

/-- No `ctl_ack` may be passed on and no entry changed. -/
structure Permits.Uncontrolled (P : Permits ν) : Prop where
  relay : ∀ t out cb, P.relay t out cb → frameType? out ≠ some .ctlAck
  control : ¬ P.control

section Effects

variable {env : Env} {now : Int} {P : Permits ν} {st st' st'' : BrokerState ν}

namespace Uncontrolled

theorem of_same (hw : st'.writes = st.writes) (hp : st'.pendingCtl = st.pendingCtl) :
    Uncontrolled st st' := ⟨by rw [hw], hp⟩

theorem aside (h : Aside st st') : Uncontrolled st st' := .of_same h.writes h.pendingCtl

theorem trans (h : Uncontrolled st st') (h' : Uncontrolled st' st'') : Uncontrolled st st'' :=
  ⟨h'.acks.trans h.acks, h'.pendingCtl.trans h.pendingCtl⟩

/-- A write of another frame. -/
theorem attempt (sock : SocketId) {frame : Members ν} (maxBytes : Nat) (cb : WriteCallback ν)
    (h : frameType? frame ≠ some .ctlAck) :
    Uncontrolled st (attempt st sock frame maxBytes cb).1 := by
  obtain ⟨status, -, heq⟩ := attempt_eq st sock frame maxBytes cb
  rw [heq]
  refine ⟨?_, rfl⟩
  unfold PiMesh.acks
  rw [List.filterMap_append]
  simp [Write.ack?, h]

end Uncontrolled

theorem isOwn_ne_ctlAck {opts : BuildFrameOpts ν} (h : opts.type.isOwn = true) (rt : Runtime)
    (stamp : Stamp) : frameType? (buildFrame rt stamp opts) ≠ some .ctlAck := by
  rw [frameType?_buildFrame]
  intro hc
  rw [Option.some.inj hc] at h
  cases h

theorem mailboxFrame_ne_ctlAck (rt : Runtime) (m : StoredMsg ν) :
    frameType? (mailboxFrame rt m) ≠ some .ctlAck := by
  rw [frameType?_mailboxFrame]
  simp

theorem uncontrolled_notices (hc : Chain env now noticesOnly st st') : Uncontrolled st st' := by
  induction hc with
  | refl => exact .of_same rfl rfl
  | tail _ hact ih =>
      refine ih.trans ?_
      cases hact with
      | own sock stamp opts maxBytes cb _ htype => exact .attempt _ _ _ (isOwn_ne_ctlAck htype _ _)
      | close => exact .of_same (aside_destroy _ _).writes (aside_destroy _ _).pendingCtl
      | aside h => exact .aside h
      | touch p p' hP => exact hP.elim
      | groups hP => exact hP.elim
      | drop => exact .of_same rfl rfl
      | control hP => exact hP.elim
      | relay target frame cb hP => exact hP.elim
      | flush peer m hP => exact hP.elim
      | enqueue name frame group hP => exact hP.elim

theorem uncontrolled_of_chain (hP : P.Uncontrolled) (hc : Chain env now P st st') :
    Uncontrolled st st' := by
  induction hc with
  | refl => exact .of_same rfl rfl
  | @tail b c _ hact ih =>
      refine ih.trans ?_
      cases hact with
      | own sock stamp opts maxBytes cb _ htype => exact .attempt _ _ _ (isOwn_ne_ctlAck htype _ _)
      | close => exact .of_same (aside_destroy _ _).writes (aside_destroy _ _).pendingCtl
      | aside h => exact .aside h
      | touch => exact .of_same rfl rfl
      | groups => exact .of_same rfl rfl
      | drop => exact .of_same rfl rfl
      | control h => exact absurd h hP.control
      | relay target frame cb h => exact .attempt _ _ _ (hP.relay target frame cb h)
      | flush peer m => exact .attempt _ _ _ (mailboxFrame_ne_ctlAck _ _)
      | enqueue name frame group =>
          have hstore : Uncontrolled b (b.storeMsg env now name frame group) := .of_same rfl rfl
          exact hstore.trans (uncontrolled_notices (notifyDropped_chain trivial _))

theorem ownOnly_uncontrolled : (ownOnly : Permits ν).Uncontrolled :=
  ⟨fun _ _ _ h => h.elim, fun h => h⟩

/-- Settling a write does not change what it acknowledges. -/
theorem acks_settleWrite (st : BrokerState ν) (i : Nat) (status : WriteStatus) :
    acks (st.settleWrite i status).writes = acks st.writes := by
  unfold acks BrokerState.settleWrite
  generalize st.writes = ws
  induction ws generalizing i with
  | nil => simp
  | cons w rest ih =>
      cases i with
      | zero =>
          simp only [List.modify_zero_cons, List.filterMap_cons]
          rfl
      | succ n =>
          simp only [List.modify_succ_cons, List.filterMap_cons, ih]

/-! ### The two handlers -/

/-- The table once a control has been let through: old entries out, the new one in. -/
def notedCtl (now : Int) (pendingCtl : Map String PendingCtl) (c : Control) :
    Map String PendingCtl :=
  (((pendingCtl.entries.filter fun e => decide (now - e.2.since > ctlPendingTtlMs)).map
    Prod.fst).foldl Map.delete pendingCtl).set c.id ⟨c.sender, c.recipient, c.action, now⟩

theorem ctlGranted_eq_some {a : PeerRecord ν} {f : MeshFrame ν} {c : Control}
    (h : ctlGranted env now st a f = some c) :
    f.type = .ctl ∧ c = ⟨a.name, c.recipient, f.id, f.action⟩ ∧ f.recipient = some c.recipient := by
  unfold ctlGranted at h
  split at h
  · cases h
  · next target hto =>
      simp only at h
      split at h
      · next hgates =>
          obtain rfl := Option.some.inj h
          exact ⟨hgates.1, rfl, hto⟩
      · cases h

/-- A control that does not pass the gates changes no entry. -/
theorem handleCtl_refused {a : PeerRecord ν} {f : MeshFrame ν} (htype : f.type = .ctl)
    (h : ctlGranted env now st a f = none) : Uncontrolled st (handleCtl env now st a f) := by
  have hrefuse : ∀ (s : BrokerState ν) code,
      Uncontrolled s (refuse env now s a.socket code f.id) :=
    fun s code => uncontrolled_of_chain ownOnly_uncontrolled (refuse_chain _ _ _)
  have herror : ∀ (s : BrokerState ν) code,
      Uncontrolled s (sendError env now s a.socket code (some f.id)) :=
    fun s code => uncontrolled_of_chain ownOnly_uncontrolled (sendError_chain _ _ _)
  unfold handleCtl
  unfold ctlGranted at h
  split
  · exact herror _ _
  · next target hto =>
      simp only [hto] at h
      simp only
      split
      · exact hrefuse _ _
      · exact hrefuse _ _
      · next hrole =>
          split
          · exact herror _ _
          · next t ht =>
              split
              · exact hrefuse _ _
              · next hin =>
                  split
                  · exact hrefuse _ _
                  · next hallow =>
                      refine Uncontrolled.trans (.aside (aside_takeRate env now st a.name
                        (rateKind (ctlPriority f.action)))) ?_
                      split
                      · exact hrefuse _ _
                      · next hrate =>
                          -- every gate is open, so the control was let through
                          rw [if_pos] at h
                          · cases h
                          · refine ⟨htype, hrole, ?_, not_not.mp hallow, by simpa using hrate⟩
                            simpa [ht, MeshFrame.roomId] using hin

/-- A control that does is noted and passed on. -/
theorem handleCtl_granted {a : PeerRecord ν} {f : MeshFrame ν} {c : Control}
    (h : ctlGranted env now st a f = some c) :
    ∃ t, st.online c.recipient = some t ∧ handleCtl env now st a f = relay env now
      { (takeRate env now st a.name (rateKind (ctlPriority f.action))).2 with
        pendingCtl := notedCtl now st.pendingCtl c } t.toRef f.raw (.ctl a.toRef t.toRef f.id) := by
  unfold ctlGranted at h
  split at h
  · cases h
  · next target hto =>
      simp only at h
      split at h
      · next hgates =>
          obtain ⟨-, hrole, hany, hallow, hrate⟩ := hgates
          obtain rfl := Option.some.inj h
          obtain ⟨t, ht, hin⟩ := (Option.any_eq_true _ _).mp hany
          refine ⟨t, ht, ?_⟩
          unfold handleCtl
          unfold MeshFrame.roomId at *
          simp only [hto, hrole, ht, hin, hallow, hrate, Bool.not_true, Bool.false_eq_true, if_false,
            ne_eq, not_true_eq_false]
          rfl
      · cases h

/-- A control whose write failed is forgotten. -/
theorem ctlFailed_effect (env : Env) (now : Int) (st : BrokerState ν) (frame : Members ν)
    (sender target : PeerRef) (id : String) :
    Uncontrolled { st with pendingCtl := st.pendingCtl.delete id }
      (runCallback env now st frame false (.ctl sender target id)) := by
  simp only [runCallback, Bool.false_eq_true, if_false]
  have hclose : ∀ s : BrokerState ν, Chain env now ownOnly s
      (sendError env now (closeIfCurrent env now s target) sender.socket .unreachable (some id)) :=
    fun s => (closeIfCurrent_chain target).trans (sendError_chain _ _ _)
  exact uncontrolled_of_chain ownOnly_uncontrolled (hclose _)

/-- A control that is passed on: its entry stays if it could be handed over. -/
theorem relayCtl_effect (env : Env) (now : Int) (st : BrokerState ν) {frame : Members ν}
    (hframe : frameType? frame ≠ some .ctlAck)
    (sender target : PeerRef) (id : String) :
    acks (relay env now st target frame (.ctl sender target id)).writes = acks st.writes ∧
      (relay env now st target frame (.ctl sender target id)).pendingCtl =
        if (encodeFrame frame env.cfg.maxFrameBytes).isSome && st.isOpen target.socket then
          st.pendingCtl else st.pendingCtl.delete id := by
  have hwrite : Uncontrolled st (attempt st target.socket frame env.cfg.maxFrameBytes
      (.ctl sender target id)).1 := .attempt _ _ _ hframe
  have hok : (attempt st target.socket frame env.cfg.maxFrameBytes (.ctl sender target id)).2
      = ((encodeFrame frame env.cfg.maxFrameBytes).isSome && st.isOpen target.socket) := by
    unfold attempt
    split
    · next h => exact h.symm
    · next h => simpa using h
  unfold relay
  cases ha : attempt st target.socket frame env.cfg.maxFrameBytes (.ctl sender target id) with
  | mk s ok =>
      rw [ha] at hwrite hok
      simp only at hok
      rw [← hok]
      cases ok with
      | true => exact ⟨hwrite.acks, hwrite.pendingCtl⟩
      | false =>
          have hrest := ctlFailed_effect env now s frame sender target id
          refine ⟨hrest.acks.trans hwrite.acks, ?_⟩
          show (runCallback env now s frame false (.ctl sender target id)).pendingCtl
            = st.pendingCtl.delete id
          rw [hrest.pendingCtl]
          show s.pendingCtl.delete id = _
          rw [hwrite.pendingCtl]

/-- What an acknowledgement is, read off its frame. -/
structure Answers (f : MeshFrame ν) (name : String) : Prop where
  type : frameType? f.raw = some .ctlAck
  sender : (getOf f.raw "from").bind asStr = some name
  replyTo : (getOf f.raw "replyTo").bind asStr = f.replyTo
  action : actionOf f.raw = f.action

theorem answers_of_accepted {text : List Char} {f : MeshFrame ν} {name : String}
    (hacc : Accepted env text f) (htype : f.type = .ctlAck) (hsender : f.sender = some name) :
    Answers f name := by
  obtain ⟨ms, -, hcast⟩ := hacc
  have hv := castFrame_views hcast
  refine ⟨?_, ?_, ?_, ?_⟩
  · rw [← htype, ← hv.type, hv.raw]
    rfl
  · rw [hv.raw, ← hsender]
    exact hv.sender.bind
  · rw [hv.raw]
    exact hv.replyTo.bind
  · rw [hv.raw]
    exact hv.action.bind

theorem ctlAnswered_eq_some {a : PeerRecord ν} {f : MeshFrame ν} {c : Control}
    (h : ctlAnswered a f = some c) :
    f.type = .ctlAck ∧ f.recipient = some c.sender ∧ f.replyTo = some c.id ∧
      c.recipient = a.name ∧ c.action = f.action := by
  unfold ctlAnswered at h
  split at h
  · next htype =>
      split at h
      · next sender id hto hreply =>
          obtain rfl := Option.some.inj h
          exact ⟨htype, hto, hreply, rfl, rfl⟩
      · cases h
  · cases h

/-- An acknowledgement that answers no entry is dropped. -/
theorem handleCtlAck_dropped {a : PeerRecord ν} {f : MeshFrame ν} (htype : f.type = .ctlAck)
    (h : ∀ c since, ctlAnswered a f = some c →
      st.pendingCtl.get? c.id ≠ some ⟨c.sender, c.recipient, c.action, since⟩) :
    handleCtlAck env now st a f = st := by
  unfold handleCtlAck
  split
  · rfl
  · next id hreply =>
      split
      · rfl
      · next pending hpending =>
          split
          · rfl
          · next hwho =>
              split
              · rfl
              · next haction =>
                  -- every check is passed, so the entry was answered
                  simp only [ne_eq, not_or, not_not] at hwho haction
                  have hc : ctlAnswered a f = some ⟨pending.sender, a.name, id, f.action⟩ := by
                    simp [ctlAnswered, htype, hreply, ← hwho.2]
                  refine absurd ?_ (h _ pending.since hc)
                  rw [hpending, ← hwho.1, ← haction]

/-- One that does takes the entry out, and is written if who asked is online. -/
theorem handleCtlAck_matched (env : Env) (now : Int) {a : PeerRecord ν} {f : MeshFrame ν}
    {c : Control} {since : Int} (hf : Answers f a.name) (hkeyed : Keyed st)
    (hc : ctlAnswered a f = some c)
    (hentry : st.pendingCtl.get? c.id = some ⟨c.sender, c.recipient, c.action, since⟩) :
    (handleCtlAck env now st a f).pendingCtl = st.pendingCtl.delete c.id ∧
      acks (handleCtlAck env now st a f).writes = acks st.writes ++
        if (st.online c.sender).isSome then [c] else [] := by
  obtain ⟨-, hto, hreply, hrecipient, haction⟩ := ctlAnswered_eq_some hc
  unfold handleCtlAck
  simp only [hreply, hentry, hrecipient, hto, haction, ne_eq, not_true_eq_false, or_self, if_false,
    Option.bind_some]
  cases hon : st.online c.sender with
  | none =>
      have hon' : { st with pendingCtl := st.pendingCtl.delete c.id }.online c.sender = none := hon
      rw [hon']
      simp
  | some t =>
      have hon' : { st with pendingCtl := st.pendingCtl.delete c.id }.online c.sender = some t := hon
      have hname : t.toRef.name = c.sender := hkeyed.online hon
      have hrelay : ∀ s : BrokerState ν, relay env now s t.toRef f.raw (.ctlAck t.toRef)
          = (attempt s t.toRef.socket f.raw env.cfg.maxFrameBytes (.ctlAck t.toRef)).1 := by
        intro s
        unfold relay
        cases hat : attempt s t.toRef.socket f.raw env.cfg.maxFrameBytes (.ctlAck t.toRef) with
        | mk s' ok => cases ok <;> rfl
      rw [hon']
      simp only [hrelay, Option.isSome_some, if_true]
      obtain ⟨status, -, heq⟩ := attempt_eq { st with pendingCtl := st.pendingCtl.delete c.id }
        t.toRef.socket f.raw env.cfg.maxFrameBytes (.ctlAck t.toRef)
      rw [heq]
      refine ⟨rfl, ?_⟩
      unfold acks
      rw [List.filterMap_append]
      simp [Write.ack?, hf.type, hf.sender, hf.replyTo, hreply, hf.action, ← hrecipient, ← haction,
        WriteCallback.target?, hname]

end Effects

/-! ### Steps -/

/-- What an event does to the controls. -/
inductive Handles (env : Env) (st : BrokerState ν) (e : Int × Event) (st' : BrokerState ν) : Prop
  | idle (hnone : acceptedCtl env (st, e) = none) (h : Uncontrolled st st')
  /-- A control is let through; where its write fails at once, its entry goes again. -/
  | granted (c : Control) (hc : acceptedCtl env (st, e) = some c)
      (hacks : acks st'.writes = acks st.writes)
      (hpending : st'.pendingCtl = if handsOver env (st, e) then notedCtl e.1 st.pendingCtl c
        else (notedCtl e.1 st.pendingCtl c).delete c.id)
  /-- The write of a control fails later. -/
  | failed (i : Nat) (w : Write ν) (sender target : PeerRef) (id : String)
      (hnone : acceptedCtl env (st, e) = none)
      (he : e.2 = .written i false ∨ e.2 = .writeTimeout i) (hw : st.writes[i]? = some w)
      (hstatus : w.status = .pending) (hcb : w.callback = .ctl sender target id)
      (hacks : acks st'.writes = acks st.writes)
      (hpending : st'.pendingCtl = st.pendingCtl.delete id)
  /-- An acknowledgement answers an entry. -/
  | answered (c : Control) (since : Int) (hnone : acceptedCtl env (st, e) = none)
      (hc : answeredCtl env (st, e) = some c)
      (hentry : st.pendingCtl.get? c.id = some ⟨c.sender, c.recipient, c.action, since⟩)
      (hacks : acks st'.writes = acks st.writes ++
        if (st.online c.sender).isSome then [c] else [])
      (hpending : st'.pendingCtl = st.pendingCtl.delete c.id)

section Steps

variable {env : Env} {now : Int} {st st' : BrokerState ν} {sock : SocketId} {text : List Char}
  {f : MeshFrame ν} {a : PeerRecord ν}

/-- The permits of a handler of other frames. -/
def noControl : Permits ν :=
  { anything with touch := False, control := False,
                  relay := fun _ out _ => frameType? out ≠ some .ctlAck }

theorem noControl_uncontrolled : (noControl : Permits ν).Uncontrolled :=
  ⟨fun _ _ _ h => h, fun h => h⟩

theorem noControl_permits (hacc : Accepted env text f) (hne : ¬ f.type.IsControl) :
    RoutePermits noControl env st a f := by
  refine ⟨fun t out cb hr _ _ _ => ?_, fun _ _ _ _ _ _ _ => trivial, fun h => h, hne⟩
  show frameType? out ≠ some .ctlAck
  rw [hr.frameType hacc]
  exact fun hc => hne (.inr (Option.some.inj hc))

theorem handles_granted {e : Int × Event} {c : Control} (hkeyed : Keyed st)
    (hc : acceptedCtl env (st, e) = some c) (hstep : BrokerStep env st e st') :
    Handles env st e st' := by
  obtain ⟨⟨a, f⟩, hheard, hg⟩ := Option.bind_eq_some_iff.mp hc
  obtain ⟨sock, text, he, hconn, hacc, hauth⟩ := heard_eq_some hheard
  obtain ⟨now, e⟩ := e
  obtain rfl : e = .line sock text := he
  replace hg : ctlGranted env now (st.updatePeer (a.seen now)) (a.seen now) f = some c := hg
  obtain ⟨htype, hceq, hto⟩ := ctlGranted_eq_some hg
  rcases step_authed hacc hauth (by rw [htype]; simp) hstep with ⟨-, hn⟩ | ⟨s, -, hs, haside⟩
  · rw [hn] at hconn
    cases hconn
  · simp only [dispatchPeer, htype] at hs
    obtain rfl := Except.ok.inj hs
    obtain ⟨t, ht, heq⟩ := handleCtl_granted hg
    have hframe : frameType? f.raw ≠ some .ctlAck := by
      rw [frameType?_raw hacc, htype]
      simp
    rw [heq] at haside
    obtain ⟨hacks, hpending⟩ := relayCtl_effect env now
      { (takeRate env now (st.updatePeer (a.seen now)) (a.seen now).name
        (rateKind (ctlPriority f.action))).2 with pendingCtl := notedCtl now st.pendingCtl c }
      hframe (a.seen now).toRef t.toRef f.id
    refine .granted c hc ?_ ?_
    · rw [haside.writes]
      exact hacks
    · rw [haside.pendingCtl]
      refine hpending.trans ?_
      -- who it is for has the same socket before and after its sender was seen
      have hon : (st.online c.recipient).map PeerRecord.toRef = some t.toRef := by
        rw [← online_seen (authed_sender hkeyed hauth).2 now, ht]
        rfl
      obtain ⟨t', ht', href⟩ := Option.map_eq_some_iff.mp hon
      have hover : handsOver env (st, now, .line sock text)
          = ((encodeFrame f.raw env.cfg.maxFrameBytes).isSome && st.isOpen t.toRef.socket) := by
        simp [handsOver, hheard, hto, ht', ← href]
        rfl
      rw [hover, hceq]
      rfl

/-- An answer to an entry takes it out, and is written if who asked is online. -/
theorem step_answers {e : Int × Event} {c : Control} {since : Int} (hkeyed : Keyed st)
    (hc : answeredCtl env (st, e) = some c)
    (hentry : st.pendingCtl.get? c.id = some ⟨c.sender, c.recipient, c.action, since⟩)
    (hstep : BrokerStep env st e st') :
    st'.pendingCtl = st.pendingCtl.delete c.id ∧
      acks st'.writes = acks st.writes ++ if (st.online c.sender).isSome then [c] else [] := by
  obtain ⟨⟨a, f⟩, hheard, hans⟩ := Option.bind_eq_some_iff.mp hc
  obtain ⟨sock, text, he, hconn, hacc, hauth⟩ := heard_eq_some hheard
  obtain ⟨now, e⟩ := e
  obtain rfl : e = .line sock text := he
  have htype : f.type = .ctlAck := (ctlAnswered_eq_some hans).1
  obtain ⟨hsender, hpeer⟩ := authed_sender hkeyed hauth
  rcases step_authed hacc hauth (by rw [htype]; simp) hstep with ⟨-, hn⟩ | ⟨s, -, hs, haside⟩
  · rw [hn] at hconn
    cases hconn
  · simp only [dispatchPeer, htype] at hs
    obtain rfl := Except.ok.inj hs
    have hf : Answers f (a.seen now).name := answers_of_accepted hacc htype hsender
    have hseen : ctlAnswered (a.seen now) f = some c := hans
    obtain ⟨hpending, hacks⟩ := handleCtlAck_matched env now hf
      (keyed_updatePeer hkeyed (a.seen now)) hseen hentry
    have hon : ((st.updatePeer (a.seen now)).online c.sender).isSome
        = (st.online c.sender).isSome := by
      rw [← Option.isSome_map (f := PeerRecord.toRef), online_seen hpeer, Option.isSome_map]
    refine ⟨?_, ?_⟩
    · rw [haside.pendingCtl]
      exact hpending
    · rw [haside.writes, hacks, hon]
      rfl

theorem handles_ctlAck (hkeyed : Keyed st) (hacc : Accepted env text f)
    (hauth : authed st sock f = some a) (htype : f.type = .ctlAck)
    (hnone : acceptedCtl env (st, now, .line sock text) = none)
    (hstep : BrokerStep env st (now, .line sock text) st') :
    Handles env st (now, .line sock text) st' := by
  rcases step_authed hacc hauth (by rw [htype]; simp) hstep with ⟨rfl, -⟩ | ⟨s, hconn, hs, haside⟩
  · exact .idle hnone (.of_same rfl rfl)
  · by_cases hm : ∃ c since, ctlAnswered a f = some c ∧
        st.pendingCtl.get? c.id = some ⟨c.sender, c.recipient, c.action, since⟩
    · obtain ⟨c, since, hc, hentry⟩ := hm
      have hanswered : answeredCtl env (st, now, .line sock text) = some c := by
        unfold answeredCtl
        rw [heard_line now hconn hacc hauth]
        exact hc
      obtain ⟨hpending, hacks⟩ := step_answers hkeyed hanswered hentry hstep
      exact .answered c since hnone hanswered hentry hacks hpending
    · simp only [dispatchPeer, htype] at hs
      obtain rfl := Except.ok.inj hs
      have hdropped : handleCtlAck env now (st.updatePeer (a.seen now)) (a.seen now) f
          = st.updatePeer (a.seen now) :=
        handleCtlAck_dropped htype fun c since hc hentry => hm ⟨c, since, hc, hentry⟩
      rw [hdropped] at haside
      refine .idle hnone (Uncontrolled.trans ?_ (.aside haside))
      exact .of_same rfl rfl

theorem uncontrolled_welcome (env : Env) (now : Int) (st : BrokerState ν) (peer : PeerRecord ν)
    (id : String) : Uncontrolled st (welcome env now st peer id) := by
  have hP : (flushOnly peer.toRef
      (flushMailbox st.mail env.cfg peer.name now).1 : Permits ν).Uncontrolled :=
    ⟨fun _ _ _ h => h.elim, fun h => h⟩
  have hmail : Uncontrolled st (st.setMail (flushMailbox st.mail env.cfg peer.name now).2.2) :=
    .of_same rfl rfl
  exact hmail.trans (uncontrolled_of_chain hP (welcome_chain peer id))

/-- A write settled: only the failure of a control's write touches an entry. -/
theorem handles_written {e : Event} {i : Nat} {ok : Bool} {w : Write ν} {st₁ s : BrokerState ν}
    (hnone : acceptedCtl env (st, now, e) = none)
    (hevent : (e = .written i ok ∧ st₁ = st) ∨
      (e = .writeTimeout i ∧ ok = false ∧ st₁ = st.destroy w.socket))
    (hw : st.writes[i]? = some w) (hstatus : w.status = .pending) (hs : Uncontrolled st s) :
    Handles env st (now, e) (runCallback env now s w.frame ok w.callback) := by
  have hother : ¬ w.callback.IsControl →
      Handles env st (now, e) (runCallback env now s w.frame ok w.callback) := by
    intro hcb
    have hch : Chain env now noControl s (runCallback env now s w.frame ok w.callback) :=
      runCallback_chain ok ⟨fun _ _ _ => trivial, fun _ _ _ _ _ _ => ⟨trivial, .inr trivial⟩,
        fun _ => trivial, fun h => absurd h hcb⟩ fun _ _ _ _ => .inr trivial
    exact .idle hnone (hs.trans (uncontrolled_of_chain noControl_uncontrolled hch))
  cases hcb : w.callback with
  | ctl sender target id =>
      cases ok with
      | true => exact .idle hnone (hs.trans (.aside (aside_addRelayed _ _)))
      | false =>
          have hfail := ctlFailed_effect env now s w.frame sender target id
          refine .failed i w sender target id hnone ?_ hw hstatus hcb ?_ ?_
          · rcases hevent with ⟨he, -⟩ | ⟨he, -, -⟩
            · exact .inl he
            · exact .inr he
          · exact hfail.acks.trans hs.acks
          · rw [hfail.pendingCtl]
            show s.pendingCtl.delete id = _
            rw [hs.pendingCtl]
  | ctlAck t =>
      cases ok with
      | true => exact .idle hnone (hs.trans (.aside (aside_addRelayed _ _)))
      | false => exact .idle hnone hs
  | _ =>
      rw [hcb] at hother
      exact hother fun h => h

/-- **One step.** -/
theorem step_handles {e : Int × Event} (hkeyed : Keyed st) (hstep : BrokerStep env st e st') :
    Handles env st e st' := by
  cases hc : acceptedCtl env (st, e) with
  | some c => exact handles_granted hkeyed hc hstep
  | none =>
      obtain ⟨now, e⟩ := e
      have hown : ∀ {s : BrokerState ν}, Uncontrolled st s → Chain env now ownOnly s st' →
          Handles env st (now, e) st' := fun hs hch =>
        .idle hc (hs.trans (uncontrolled_of_chain ownOnly_uncontrolled hch))
      cases step_shape hkeyed hstep with
      | quiet hch => exact hown (.of_same rfl rfl) hch
      | connected => exact .idle hc (.of_same rfl rfl)
      | @routed sock text _ f a hacc hauth hrouted hch =>
          by_cases hack : f.type = .ctlAck
          · exact handles_ctlAck hkeyed hacc hauth hack hc hstep
          · by_cases hctl : f.type = .ctl
            · rcases step_authed hacc hauth (by rw [hctl]; simp) hstep with
                ⟨rfl, -⟩ | ⟨s, hconn, hs, haside⟩
              · exact .idle hc (.of_same rfl rfl)
              · have hrefused : ctlGranted env now (st.updatePeer (a.seen now)) (a.seen now) f
                    = none := by
                  rw [← hc]
                  unfold acceptedCtl
                  rw [heard_line now hconn hacc hauth]
                  rfl
                simp only [dispatchPeer, hctl] at hs
                obtain rfl := Except.ok.inj hs
                refine .idle hc (Uncontrolled.trans ?_
                  ((handleCtl_refused hctl hrefused).trans (.aside haside)))
                exact .of_same rfl rfl
            · have hne : ¬ f.type.IsControl := fun h => h.elim hctl hack
              have hch := hch noControl (noControl_permits hacc hne) fun _ => trivial
              refine .idle hc (Uncontrolled.trans ?_
                (uncontrolled_of_chain noControl_uncontrolled hch))
              exact .of_same rfl rfl
      | joined f a _ _ room rooms peer _ hch =>
          refine hown ?_ hch
          exact .of_same rfl rfl
      | joinRefused f a _ _ room code rooms peer _ hch =>
          refine hown ?_ hch
          exact .of_same rfl rfl
      | left f a _ _ room rooms peer _ hch =>
          refine hown ?_ hch
          exact .of_same rfl rfl
      | @welcomed sock _ f name _ _ requested taken rooms peer =>
          refine .idle hc (Uncontrolled.trans ?_ (.aside (aside_clearTimer _ _)))
          refine Uncontrolled.trans ?_ (uncontrolled_welcome env now _ peer f.id)
          exact .of_same rfl rfl
      | @roomRefused sock _ f name _ _ requested taken code rooms peer =>
          obtain ⟨w, -, hcb, -, heq⟩ := refuseRooms_eq env now
            { helloState env now st sock name f taken with rooms } sock peer code f.id
          refine .idle hc (Uncontrolled.trans ?_ (.aside (aside_clearTimer _ _)))
          rw [heq]
          refine Uncontrolled.trans ?_ (.aside (aside_destroy _ _))
          refine ⟨?_, rfl⟩
          show acks (st.writes ++ [w]) = acks st.writes
          unfold acks
          rw [List.filterMap_append]
          simp [Write.ack?, hcb, WriteCallback.target?]
      | @written _ i ok w st₁ hevent hw hpending =>
          have haside : Aside st st₁ := by
            rcases hevent with ⟨-, rfl⟩ | ⟨-, -, rfl⟩
            · exact .refl _
            · exact aside_destroy _ _
          have hsettled : Uncontrolled st (st₁.settleWrite i (if ok then .ok else .failed)) :=
            ⟨by rw [acks_settleWrite, haside.writes], haside.pendingCtl⟩
          exact handles_written hc hevent hw hpending hsettled
      | @settled g =>
          have hch : Chain env now noControl st (handleSettled env now st g) :=
            handleSettled_chain trivial (fun _ _ => trivial) g
          exact .idle hc (uncontrolled_of_chain noControl_uncontrolled hch)
      | swept hch =>
          have hsilent : Uncontrolled st (st.silence env now) := .aside (aside_silence env now st)
          refine hown (hsilent.trans ?_) hch
          exact .of_same rfl rfl
      | purged =>
          refine .idle hc (Uncontrolled.trans ?_ (uncontrolled_notices handlePurge_chain))
          exact .of_same rfl rfl

end Steps

/-! ### The ledger -/

/-- The controls a run let through. -/
def accepted (env : Env) (tr : BrokerTrace ν) : List Control := tr.filterMap (acceptedCtl env)

theorem outstanding_delete (m : Map String PendingCtl) (id : String) :
    (outstanding (m.delete id)).Sublist (outstanding m) :=
  List.filter_sublist.map _

theorem outstanding_foldl_delete (ids : List String) (m : Map String PendingCtl) :
    (outstanding (ids.foldl Map.delete m)).Sublist (outstanding m) := by
  induction ids generalizing m with
  | nil => exact .refl _
  | cons id rest ih => exact (ih _).trans (outstanding_delete m id)

/-- Taking an entry out leaves the others. -/
theorem outstanding_perm {m : Map String PendingCtl} {id : String} {pending : PendingCtl}
    (h : m.get? id = some pending) :
    (outstanding m).Perm (⟨pending.sender, pending.recipient, id, pending.action⟩ ::
      outstanding (m.delete id)) := by
  unfold outstanding
  exact (Map.entries_perm h).map _

theorem outstanding_noted (now : Int) (m : Map String PendingCtl) (c : Control) :
    (outstanding (notedCtl now m c)).Subperm (c :: outstanding m) := by
  unfold notedCtl
  generalize ((m.entries.filter _).map Prod.fst) = ids
  have hset := outstanding_perm
    (Map.get?_set_self (ids.foldl Map.delete m) c.id ⟨c.sender, c.recipient, c.action, now⟩)
  rw [Map.delete_set_self] at hset
  refine hset.subperm.trans ((List.subperm_cons c).mpr ?_)
  exact ((outstanding_delete _ _).trans (outstanding_foldl_delete ids m)).subperm

section Ledger

variable {env : Env} {epoch : Int} {tr : BrokerTrace ν} {st st' : BrokerState ν}

/-- The acknowledgements written and the controls that wait for one are, as a collection,
part of the controls let through. -/
def Covered (env : Env) (tr : BrokerTrace ν) (st : BrokerState ν) : Prop :=
  (acks st.writes ++ outstanding st.pendingCtl).Subperm (accepted env tr)

theorem accepted_snoc (env : Env) (tr : BrokerTrace ν) (x : BrokerState ν × Int × Event) :
    accepted env (tr ++ [x]) = accepted env tr ++ (acceptedCtl env x).toList := by
  unfold accepted
  rw [List.filterMap_append]
  cases h : acceptedCtl env x <;> simp [h]

/-- Entries may go, and an entry that goes may be acknowledged. -/
theorem Covered.of_sublist {c : Option Control} {as : List Control} (h : Covered env tr st)
    (hacks : acks st'.writes = acks st.writes ++ as)
    (hpending : (as ++ outstanding st'.pendingCtl).Subperm (c.toList ++ outstanding st.pendingCtl))
    {e : Int × Event} (hc : acceptedCtl env (st, e) = c) : Covered env (tr ++ [(st, e)]) st' := by
  unfold Covered at h ⊢
  rw [accepted_snoc, hc, hacks, List.append_assoc]
  have hgrow : (acks st.writes ++ (as ++ outstanding st'.pendingCtl)).Subperm
      (acks st.writes ++ (c.toList ++ outstanding st.pendingCtl)) :=
    (List.subperm_append_left _).mpr hpending
  have hmove : (acks st.writes ++ (c.toList ++ outstanding st.pendingCtl)).Perm
      (acks st.writes ++ outstanding st.pendingCtl ++ c.toList) := by
    rw [List.append_assoc]
    exact List.perm_append_comm.append_left _
  exact (hgrow.trans hmove.subperm).trans ((List.subperm_append_right _).mpr h)

theorem covered_step {e : Int × Event} (hkeyed : Keyed st) (h : Covered env tr st)
    (hstep : BrokerStep env st e st') : Covered env (tr ++ [(st, e)]) st' := by
  cases step_handles hkeyed hstep with
  | idle hnone hu =>
      have hacks : acks st'.writes = acks st.writes ++ [] := by rw [hu.acks, List.append_nil]
      refine h.of_sublist hacks ?_ hnone
      rw [hu.pendingCtl]
      exact .refl _
  | granted c hc hacks hpending =>
      have hsame : acks st'.writes = acks st.writes ++ [] := by rw [hacks, List.append_nil]
      refine h.of_sublist hsame ?_ hc
      show (outstanding st'.pendingCtl).Subperm (c :: outstanding st.pendingCtl)
      rw [hpending]
      split
      · exact outstanding_noted _ _ _
      · exact (outstanding_delete _ _).subperm.trans (outstanding_noted _ _ _)
  | failed i w sender target id hnone _ _ _ _ hacks hpending =>
      have hsame : acks st'.writes = acks st.writes ++ [] := by rw [hacks, List.append_nil]
      refine h.of_sublist hsame ?_ hnone
      rw [hpending]
      exact (outstanding_delete _ _).subperm
  | answered c since hnone _ hentry hacks hpending =>
      refine h.of_sublist hacks ?_ hnone
      rw [hpending]
      refine List.Subperm.trans ?_ (outstanding_perm hentry).symm.subperm
      split
      · exact .refl _
      · exact .cons_self

theorem covered_run (hrun : Run (BrokerStep env) (BrokerState.init epoch) tr st) :
    Covered env tr st := by
  refine hrun.along (P := fun tr st => Covered env tr st) (Meets.trivial tr) ?_ ?_
  · exact .refl _
  · intro tr s e s' hr _ hs _ hstep
    exact covered_step (linked_run hr).keyed hs hstep

/-- A `ctl_ack` that was written names who asked, who answers, and the id. -/
theorem ack?_of_ctlAck (hrun : Run (BrokerStep env) (BrokerState.init epoch) tr st) {w : Write ν}
    (hw : w ∈ st.writes) (ht : frameType? w.frame = some .ctlAck) : ∃ c, w.ack? = some c := by
  have hsrc := (contents_run hrun).writes w hw
  cases hsrc with
  | own sock stamp opts cb status _ htype => exact absurd ht (isOwn_ne_ctlAck htype _ _)
  | flushed peer m status => exact absurd ht (mailboxFrame_ne_ctlAck _ _)
  | relayed target frame cb status hcb hs =>
      obtain ⟨o, hmet, hreach⟩ := hs
      have htype : o.frame.type = .ctlAck :=
        Option.some.inj ((hreach.frameType hmet.accepted).symm.trans ht)
      have hans := answers_of_accepted hmet.accepted htype (authed_sender hmet.keyed hmet.authed).1
      generalize target.name = name at hreach
      cases hreach with
      | ctlAck t _ _ _ pending hpending =>
          obtain ⟨id, hid, -⟩ := Option.bind_eq_some_iff.mp hpending
          refine ⟨⟨target.name, o.peer.name, id, actionOf o.frame.raw⟩, ?_⟩
          simp [Write.ack?, ht, hcb, hans.sender, hans.replyTo, hid]
      | direct _ h => rw [h] at htype; cases htype
      | cap _ _ _ h => rw [h] at htype; cases htype
      | broadcast _ _ h => rw [h] at htype; cases htype
      | reply _ h => rw [h] at htype; cases htype
      | silent _ h => rcases h with h | h <;> (rw [h] at htype; cases htype)
      | ctl _ h => rw [h] at htype; cases htype

/-- **Acknowledgements are bound.**  Every `ctl_ack` the broker has written acknowledges a
control of the run that passed every gate: it goes to who asked, comes from who was asked,
and has the id and the action asked for; and no pair of peers has more acknowledgements of
an id than it had such controls. -/
theorem acks_bound (hrun : Run (BrokerStep env) (BrokerState.init epoch) tr st) :
    (∀ w ∈ st.writes, frameType? w.frame = some .ctlAck →
      ∃ c ∈ accepted env tr, w.ack? = some c) ∧
    ∀ asker asked id,
      (acks st.writes).countP (fun c => c.sender = asker ∧ c.recipient = asked ∧ c.id = id) ≤
        (accepted env tr).countP (fun c => c.sender = asker ∧ c.recipient = asked ∧ c.id = id) := by
  have hcov : (acks st.writes).Subperm (accepted env tr) :=
    (List.sublist_append_left _ _).subperm.trans (covered_run hrun)
  refine ⟨fun w hw ht => ?_, fun asker asked id => hcov.countP_le _⟩
  obtain ⟨c, hc⟩ := ack?_of_ctlAck hrun hw ht
  exact ⟨c, hcov.subset (List.mem_filterMap.mpr ⟨w, hw, hc⟩), hc⟩

end Ledger

/-! ### One entry, from the control to its answer -/

/-- The write of a control under this id fails. -/
def failsCtl (id : String) (x : BrokerState ν × Int × Event) : Bool :=
  let failed (i : Nat) : Bool := (x.1.writes[i]?).any fun w => decide (w.status = .pending) &&
    match w.callback with
    | .ctl _ _ id' => id' == id
    | _ => false
  match x.2.2 with
  | .written i false => failed i
  | .writeTimeout i => failed i
  | _ => false

/-- The event takes the id of `c` over, or takes its entry out: another control is let
through under the id, or one that cannot be handed over, or the write of one fails. -/
def disturbs (env : Env) (c : Control) (x : BrokerState ν × Int × Event) : Bool :=
  failsCtl c.id x || (acceptedCtl env x).any fun c' =>
    decide (c'.id = c.id) && !(decide (c' = c) && handsOver env x)

/-- A run that ends with the answer to a control: `c` was let through and is answered for the
first time, in time and while who asked is online. -/
structure Exchange (env : Env) (epoch : Int) (c : Control) (before : BrokerTrace ν)
    (ask : BrokerState ν × Int × Event) (between : BrokerTrace ν)
    (answer : BrokerState ν × Int × Event) (st : BrokerState ν) : Prop where
  run : Run (BrokerStep env) (BrokerState.init epoch) (before ++ ask :: (between ++ [answer])) st
  asked : acceptedCtl env ask = some c
  first : ∀ x ∈ between, answeredCtl env x ≠ some c
  forward : ∀ x ∈ between, ask.2.1 ≤ x.2.1 ∧ x.2.1 ≤ answer.2.1
  inTime : answer.2.1 ≤ ask.2.1 + ctlPendingTtlMs
  answered : answeredCtl env answer = some c
  online : (answer.1.online c.sender).isSome = true

section Exchange

variable {env : Env} {epoch : Int} {c : Control} {t₀ : Int} {st st' : BrokerState ν}
  {e : Int × Event}

/-- The control waits for its answer since `t₀` or later. -/
def Noted (c : Control) (t₀ : Int) (st : BrokerState ν) : Prop :=
  ∃ since, t₀ ≤ since ∧
    st.pendingCtl.get? c.id = some ⟨c.sender, c.recipient, c.action, since⟩

theorem failsCtl_of {i : Nat} {w : Write ν} {sender target : PeerRef} {id : String}
    (he : e.2 = .written i false ∨ e.2 = .writeTimeout i) (hw : st.writes[i]? = some w)
    (hstatus : w.status = .pending) (hcb : w.callback = .ctl sender target id) :
    failsCtl id (st, e) = true := by
  unfold failsCtl
  rcases he with he | he
  · simp [he, hw, hstatus, hcb]
  · simp [he, hw, hstatus, hcb]

/-- Letting another control through leaves an entry that is not old. -/
theorem notedCtl_other {m : Map String PendingCtl} {c' : Control} {pending : PendingCtl}
    {id : String} {now : Int} (hne : id ≠ c'.id) (h : m.get? id = some pending)
    (hfresh : now - pending.since ≤ ctlPendingTtlMs) :
    (notedCtl now m c').get? id = some pending := by
  unfold notedCtl
  rw [Map.get?_set_ne _ _ hne, Map.get?_foldl_delete, if_neg, h]
  intro hmem
  obtain ⟨⟨k, p⟩, hp, hk⟩ := List.mem_map.mp hmem
  obtain ⟨hin, hold⟩ := List.mem_filter.mp hp
  obtain rfl : k = id := hk
  rw [(m.mem_entries_iff k p).mp hin] at h
  obtain rfl := Option.some.inj h
  simp only [decide_eq_true_eq] at hold
  omega

/-- **One step** that does not disturb the control keeps its entry, or answers it. -/
theorem noted_step (hkeyed : Keyed st) (h : Noted c t₀ st) (hok : disturbs env c (st, e) = false)
    (hstart : t₀ ≤ e.1) (htime : e.1 ≤ t₀ + ctlPendingTtlMs)
    (hfirst : answeredCtl env (st, e) ≠ some c) (hstep : BrokerStep env st e st') :
    Noted c t₀ st' := by
  obtain ⟨since, hsince, hentry⟩ := h
  simp only [disturbs, Bool.or_eq_false_iff] at hok
  cases step_handles hkeyed hstep with
  | idle hnone hu => exact ⟨since, hsince, by rw [hu.pendingCtl]; exact hentry⟩
  | granted c' hc' _ hpending =>
      rw [hc', Option.any_some] at hok
      by_cases hid : c'.id = c.id
      · -- the same control again: the entry is written anew
        have hsame : c' = c ∧ handsOver env (st, e) = true := by simpa [hid] using hok.2
        obtain ⟨rfl, hover⟩ := hsame
        refine ⟨e.1, hstart, ?_⟩
        rw [hpending, if_pos hover]
        exact Map.get?_set_self _ _ _
      · have hkept : (notedCtl e.1 st.pendingCtl c').get? c.id
            = some ⟨c.sender, c.recipient, c.action, since⟩ := by
          apply notedCtl_other (fun hc => hid hc.symm) hentry
          show e.1 - since ≤ ctlPendingTtlMs
          omega
        refine ⟨since, hsince, ?_⟩
        rw [hpending]
        split
        · exact hkept
        · rw [Map.get?_delete_ne _ fun hc => hid hc.symm]
          exact hkept
  | failed i w sender target id _ he hw hstatus hcb _ hpending =>
      have hid : c.id ≠ id := by
        rintro rfl
        have hfails := failsCtl_of he hw hstatus hcb
        rw [hok.1] at hfails
        cases hfails
      refine ⟨since, hsince, ?_⟩
      rw [hpending, Map.get?_delete_ne _ hid]
      exact hentry
  | answered c' since' _ hc' hentry' _ hpending =>
      have hid : c.id ≠ c'.id := by
        intro hid
        rw [← hid, hentry] at hentry'
        injection hentry' with hentry'
        injection hentry' with hs hr ha
        apply hfirst
        rw [hc', show c' = c from by cases c; cases c'; simp_all]
      refine ⟨since, hsince, ?_⟩
      rw [hpending, Map.get?_delete_ne _ hid]
      exact hentry

/-- The entry is there when the answer comes. -/
theorem noted_between {between : BrokerTrace ν} {s₀ : BrokerState ν} {answered : Int}
    (hkeyed : ∀ tr₁ s, Run (BrokerStep env) s₀ tr₁ s → Keyed s)
    (hrun : Run (BrokerStep env) s₀ between st) (h : Noted c t₀ s₀)
    (hok : ∀ x ∈ between, disturbs env c x = false)
    (hfirst : ∀ x ∈ between, answeredCtl env x ≠ some c)
    (hforward : ∀ x ∈ between, t₀ ≤ x.2.1 ∧ x.2.1 ≤ answered)
    (htime : answered ≤ t₀ + ctlPendingTtlMs) : Noted c t₀ st := by
  refine hrun.along (P := fun _ st => Noted c t₀ st)
    (C := fun s e => disturbs env c (s, e) = false ∧ answeredCtl env (s, e) ≠ some c ∧
      t₀ ≤ e.1 ∧ e.1 ≤ answered)
    (fun x hx => ⟨hok x hx, hfirst x hx, hforward x hx⟩) h ?_
  intro tr s e s' hr _ hs hc hstep
  obtain ⟨hdisturb, hne, hstart, hend⟩ := hc
  exact noted_step (hkeyed tr s hr) hs hdisturb hstart (by omega) hne hstep

/-- **The answer is passed on** when nothing disturbs the control. -/
theorem Exchange.passed {before between : BrokerTrace ν} {ask answer : BrokerState ν × Int × Event}
    (h : Exchange env epoch c before ask between answer st)
    (hok : ∀ x ∈ ask :: between, disturbs env c x = false) :
    acks st.writes = acks answer.1.writes ++ [c] := by
  obtain ⟨s₁, hbefore, hrest⟩ := h.run.split
  obtain ⟨hask, s₂, hstep, hrest⟩ := hrest.head
  obtain ⟨s₃, hbetween, hlast⟩ := hrest.split
  obtain ⟨hanswer, st', hfinal, hend⟩ := hlast.head
  obtain rfl := hend.eq_of_nil
  -- the control is noted
  have hnoted : Noted c ask.2.1 s₂ := by
    have hkeyed : Keyed ask.1 := by
      rw [hask]
      exact (linked_run hbefore).keyed
    have hover : handsOver env ask = true := by
      have := hok ask List.mem_cons_self
      simpa [disturbs, h.asked] using (Bool.or_eq_false_iff.mp this).2
    cases step_handles hkeyed hstep with
    | granted c' hc' _ hpending =>
        obtain rfl := Option.some.inj (h.asked.symm.trans hc')
        refine ⟨ask.2.1, le_refl _, ?_⟩
        rw [hpending, if_pos hover]
        exact Map.get?_set_self _ _ _
    | idle hnone => cases hnone.symm.trans h.asked
    | failed i w sender target id hnone => cases hnone.symm.trans h.asked
    | answered c' since hnone => cases hnone.symm.trans h.asked
  -- and stays noted
  have hkeyed : ∀ tr₁ s, Run (BrokerStep env) s₂ tr₁ s → Keyed s := by
    intro tr₁ s hr
    have hall : Run (BrokerStep env) s₁ (ask :: tr₁) s := by
      have hcons := hr.cons hstep
      rw [← hask]
      exact hcons
    exact (linked_run (hbefore.append hall)).keyed
  have hkept : Noted c ask.2.1 s₃ :=
    noted_between hkeyed hbetween hnoted (fun x hx => hok x (List.mem_cons_of_mem _ hx)) h.first
      h.forward h.inTime
  rw [← hanswer] at hkept
  obtain ⟨since, -, hentry⟩ := hkept
  have hkeyed' : Keyed answer.1 := by
    rw [hanswer]
    exact hkeyed between s₃ hbetween
  rw [(step_answers hkeyed' h.answered hentry hfinal).2, if_pos h.online]

/-- **The answer to a control is passed on in both runs**, whatever else differs between
them, when in each nothing takes the id over or takes the entry out. -/
theorem ack_passed_in_both {before₁ between₁ before₂ between₂ : BrokerTrace ν}
    {ask₁ answer₁ ask₂ answer₂ : BrokerState ν × Int × Event} {st₁ st₂ : BrokerState ν}
    (h₁ : Exchange env epoch c before₁ ask₁ between₁ answer₁ st₁)
    (h₂ : Exchange env epoch c before₂ ask₂ between₂ answer₂ st₂)
    (hok₁ : ∀ x ∈ ask₁ :: between₁, disturbs env c x = false)
    (hok₂ : ∀ x ∈ ask₂ :: between₂, disturbs env c x = false) :
    acks st₁.writes = acks answer₁.1.writes ++ [c] ∧
      acks st₂.writes = acks answer₂.1.writes ++ [c] :=
  ⟨h₁.passed hok₁, h₂.passed hok₂⟩

/-! ### Alice's control and carol's -/

/-- The test for `Exchange`, the control being the event after the first `n`. -/
def exchanged (env : Env) (c : Control) (n : Nat) (tr : BrokerTrace ν) : Bool :=
  match tr.drop n with
  | [] => false
  | ask :: rest => rest.getLast?.any fun answer =>
      decide (acceptedCtl env ask = some c ∧ answeredCtl env answer = some c ∧
        answer.2.1 ≤ ask.2.1 + ctlPendingTtlMs) && (answer.1.online c.sender).isSome &&
      rest.dropLast.all fun x => decide (answeredCtl env x ≠ some c ∧ ask.2.1 ≤ x.2.1 ∧
        x.2.1 ≤ answer.2.1)

theorem exchange_of_test {tr : BrokerTrace ν} {n : Nat} (h : exchanged env c n tr = true)
    (hrun : Run (BrokerStep env) (BrokerState.init epoch) tr st) :
    ∃ ask between answer, tr = tr.take n ++ ask :: (between ++ [answer]) ∧
      Exchange env epoch c (tr.take n) ask between answer st := by
  unfold exchanged at h
  split at h
  · cases h
  · next ask rest hdrop =>
      obtain ⟨answer, hlast, hcheck⟩ := (Option.any_eq_true _ _).mp h
      simp only [Bool.and_eq_true, decide_eq_true_eq, List.all_eq_true] at hcheck
      obtain ⟨⟨⟨hasked, hanswered, htime⟩, hon⟩, hbetween⟩ := hcheck
      have htr : tr = tr.take n ++ ask :: (rest.dropLast ++ [answer]) := by
        rw [List.dropLast_append_getLast? answer hlast, ← hdrop, List.take_append_drop]
      refine ⟨ask, rest.dropLast, answer, htr, ?_, hasked, ?_, ?_, htime, hanswered, hon⟩
      · rw [← htr]
        exact hrun
      · exact fun x hx => (hbetween x hx).1
      · exact fun x hx => (hbetween x hx).2

end Exchange

/-- Alice, bob and carol are in the default room. -/
def threePeers : List (Int × Event) :=
  [(1000, .connect 0 false none), (1001, .line 0 (frameLine .hello "m_1" "alice" [])),
    (1002, .connect 1 false none), (1003, .line 1 (frameLine .hello "m_2" "bob" [])),
    (1004, .connect 2 false none), (1005, .line 2 (frameLine .hello "m_3" "carol" []))]

/-- A control for bob. -/
def stopBob (sender : String) : List Char :=
  frameLine .ctl "m_4" sender [("to", .str "bob"), ("room", .str "default"),
    ("action", .str "job_stop"), ("target", .str "job_1")]

/-- Alice asks bob to stop a job; something happens; bob has stopped it. -/
def stopJob (between : List (Int × Event)) : List (Int × Event) :=
  threePeers ++ (1006, .line 0 (stopBob "alice")) :: (between ++
    [(1008, .line 1 (frameLine .ctlAck "m_5" "bob" [("to", .str "alice"), ("replyTo", .str "m_4"),
      ("action", .str "job_stop"), ("status", .str "stopped")]))])

/-- What alice asked. -/
def aliceStopsBob : Control := ⟨"alice", "bob", "m_4", some .jobStop⟩

/-- The run in which nothing happens between the control and its answer. -/
theorem stopJob_run : ∃ (tr : BrokerTrace Int) (st : BrokerState Int),
    Run (BrokerStep (referenceEnv {})) (BrokerState.init 1) tr st ∧
    tr.map Prod.snd = stopJob [] ∧ exchanged (referenceEnv {}) aliceStopsBob 6 tr = true ∧
    (∀ x ∈ tr, disturbs (referenceEnv {}) aliceStopsBob x = false) ∧
    accepted (referenceEnv {}) tr = [aliceStopsBob] ∧ acks st.writes = [aliceStopsBob] := by
  have h : ((runBroker (referenceEnv {}) (stopJob [])).any fun r =>
      exchanged (referenceEnv {}) aliceStopsBob 6 r.1 &&
        ((r.1.all fun x => !disturbs (referenceEnv {}) aliceStopsBob x) &&
          (decide (accepted (referenceEnv {}) r.1 = [aliceStopsBob]) &&
            decide (acks r.2.writes = [aliceStopsBob])))) = true := by decide +kernel
  obtain ⟨tr, st, hrun, htr, hcheck⟩ := exists_run h
  simp only [Bool.and_eq_true, List.all_eq_true, Bool.not_eq_true', decide_eq_true_eq] at hcheck
  exact ⟨tr, st, hrun, htr, hcheck⟩

theorem acks_bound_stopped : ∃ (tr : BrokerTrace Int) (st : BrokerState Int),
    tr.map Prod.snd = stopJob [] ∧ accepted (referenceEnv {}) tr = [aliceStopsBob] ∧
    acks st.writes = [aliceStopsBob] ∧
    (acks st.writes).countP (fun c => c.sender = "alice" ∧ c.recipient = "bob" ∧ c.id = "m_4") ≤
      (accepted (referenceEnv {}) tr).countP
        (fun c => c.sender = "alice" ∧ c.recipient = "bob" ∧ c.id = "m_4") := by
  obtain ⟨tr, st, hrun, htr, -, -, haccepted, hacks⟩ := stopJob_run
  exact ⟨tr, st, htr, haccepted, hacks, (acks_bound hrun).2 "alice" "bob" "m_4"⟩

theorem ack_passed_in_both_stopped :
    ∃ (before between : BrokerTrace Int) (ask answer : BrokerState Int × Int × Event)
      (st : BrokerState Int),
      (before ++ ask :: (between ++ [answer])).map Prod.snd = stopJob [] ∧
      Exchange (referenceEnv {}) 1 aliceStopsBob before ask between answer st ∧
      acks st.writes = acks answer.1.writes ++ [aliceStopsBob] := by
  obtain ⟨tr, st, hrun, htr, hexchanged, hclear, -⟩ := stopJob_run
  obtain ⟨ask, between, answer, heq, hex⟩ := exchange_of_test hexchanged hrun
  have hok : ∀ x ∈ ask :: between, disturbs (referenceEnv {}) aliceStopsBob x = false := by
    intro x hx
    apply hclear
    rw [heq, ← List.cons_append, ← List.append_assoc]
    exact List.mem_append_left _ (List.mem_append_right _ hx)
  refine ⟨tr.take 6, between, ask, answer, st, by rw [← heq]; exact htr, hex, ?_⟩
  exact (ack_passed_in_both hex hex hok hok).1

/-- Two runs that differ in a control of carol's only, which has the id of alice's: with it
bob's answer to alice is dropped. -/
theorem carol_takes_the_id :
    ∃ (before₁ between₁ before₂ between₂ : BrokerTrace Int)
      (ask₁ answer₁ ask₂ answer₂ : BrokerState Int × Int × Event) (st₁ st₂ : BrokerState Int),
      (before₁ ++ ask₁ :: (between₁ ++ [answer₁])).map Prod.snd = stopJob [] ∧
      (before₂ ++ ask₂ :: (between₂ ++ [answer₂])).map Prod.snd
        = stopJob [(1007, .line 2 (stopBob "carol"))] ∧
      Exchange (referenceEnv {}) 1 aliceStopsBob before₁ ask₁ between₁ answer₁ st₁ ∧
      Exchange (referenceEnv {}) 1 aliceStopsBob before₂ ask₂ between₂ answer₂ st₂ ∧
      acks st₁.writes = [aliceStopsBob] ∧ acks st₂.writes = [] := by
  have h₂ : ((runBroker (referenceEnv {}) (stopJob [(1007, .line 2 (stopBob "carol"))])).any
      fun r => exchanged (referenceEnv {}) aliceStopsBob 6 r.1 &&
        decide (acks r.2.writes = [])) = true := by decide +kernel
  obtain ⟨tr₁, st₁, hrun₁, htr₁, hexchanged₁, -, -, hacks₁⟩ := stopJob_run
  obtain ⟨tr₂, st₂, hrun₂, htr₂, hcheck₂⟩ := exists_run h₂
  simp only [Bool.and_eq_true, decide_eq_true_eq] at hcheck₂
  obtain ⟨ask₁, between₁, answer₁, heq₁, hex₁⟩ := exchange_of_test hexchanged₁ hrun₁
  obtain ⟨ask₂, between₂, answer₂, heq₂, hex₂⟩ := exchange_of_test hcheck₂.1 hrun₂
  refine ⟨tr₁.take 6, between₁, tr₂.take 6, between₂, ask₁, answer₁, ask₂, answer₂, st₁, st₂, ?_,
    ?_, hex₁, hex₂, hacks₁, hcheck₂.2⟩
  · rw [← heq₁]
    exact htr₁
  · rw [← heq₂]
    exact htr₂

end PiMesh
