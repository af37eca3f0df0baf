/-
Who gets a message, and who was asked.

A delivery is a peer's frame that was written to an alias or waits in its mailbox.  Every
delivery has an origin in the run (`Proofs/Provenance.lean`); what the handlers checked
there is in the route.  The two results here are what the checks amount to: the policy has
not denied the recipient, and the sender was a member of the room the recipient is in.
Both fail on the paths that make no such check, so both come with the condition that the
frames taking these paths would have passed it.
-/
import PiMesh.Broker.Reference
import PiMesh.Proofs.Forms
import PiMesh.Proofs.Provenance

namespace PiMesh

open Js Transition BrokerState

variable {ν : Type} [Number ν] [DecidableEq ν]

/-- What a write delivers: the alias it is for, and the frame as it was passed on. -/
def Write.delivers? (w : Write ν) : Option (String × Members ν) :=
  match w.callback with
  | .flushed peer m => some (peer.name, m.frame)
  | cb => cb.target?.map fun t => (t.name, w.frame)

/-- A peer's frame that was written to `name` or waits for it. -/
inductive Delivered (st : BrokerState ν) (name : String) : Members ν → Prop
  | written (w : Write ν) (hw : w ∈ st.writes) (out : Members ν)
      (h : w.delivers? = some (name, out)) : Delivered st name out
  | stored (m : StoredMsg ν) (h : (name, m) ∈ storedIn st.mailbox) : Delivered st name m.frame

/-- A condition on the frames the broker takes from authenticated peers, each with the state
it meets. -/
def EachFrame (env : Env) (Q : Origin ν → Prop) (st : BrokerState ν) (e : Int × Event) : Prop :=
  ∀ sock text f a, e.2 = .line sock text → Accepted env text f → authed st sock f = some a →
    Q ⟨st, e.1, sock, text, f, a⟩

/-! ### What an event brings -/

/-- The frame an event brings, with the peer whose connection it came over. -/
def heard (env : Env) (x : BrokerState ν × Int × Event) : Option (PeerRecord ν × MeshFrame ν) :=
  match x.2.2 with
  | .line sock text =>
      if x.1.isConnected sock then
        match parseFrameLine env.rt text with
        | .error _ => none
        | .ok ms =>
            match castFrame ms with
            | .error _ => none
            | .ok f => (authed x.1 sock f).map fun a => (a, f)
      else none
  | _ => none

section Heard

variable {env : Env} {now : Int} {st st' : BrokerState ν} {sock : SocketId} {text : List Char}
  {f : MeshFrame ν} {a : PeerRecord ν}

theorem heard_eq_some {e : Int × Event} (h : heard env (st, e) = some (a, f)) :
    ∃ sock text, e.2 = .line sock text ∧ st.isConnected sock = true ∧ Accepted env text f ∧
      authed st sock f = some a := by
  obtain ⟨now, e⟩ := e
  unfold heard at h
  split at h
  · next sock text he =>
      split at h
      · next hconn =>
          split at h
          · cases h
          · next ms hms =>
              split at h
              · cases h
              · next f' hcast =>
                  obtain ⟨a', ha, heq⟩ := Option.map_eq_some_iff.mp h
                  obtain ⟨rfl, rfl⟩ := Prod.mk.inj heq
                  exact ⟨sock, text, he, hconn, ⟨ms, hms, hcast⟩, ha⟩
      · cases h
  · cases h

theorem heard_line (now : Int) (hconn : st.isConnected sock = true) (hacc : Accepted env text f)
    (hauth : authed st sock f = some a) : heard env (st, now, .line sock text) = some (a, f) := by
  obtain ⟨ms, hms, hcast⟩ := hacc
  simp [heard, hconn, hms, hcast, hauth]

theorem frameType?_raw (hacc : Accepted env text f) : frameType? f.raw = some f.type := by
  obtain ⟨ms, -, hcast⟩ := hacc
  have hv := castFrame_views hcast
  rw [← hv.type, hv.raw]
  rfl

/-- A frame of an authenticated peer is handled, and then perhaps the deadline disarmed. -/
theorem step_authed (hacc : Accepted env text f) (hauth : authed st sock f = some a)
    (htype : f.type ≠ .hello) (hstep : BrokerStep env st (now, .line sock text) st') :
    st' = st ∧ st.isConnected sock = false ∨
    ∃ s, st.isConnected sock = true ∧
      dispatchPeer env now (st.updatePeer (a.seen now)) sock (a.seen now) f = .ok s ∧
      Aside s st' := by
  unfold BrokerStep at hstep
  simp only [step] at hstep
  split at hstep
  · next hconn =>
      rw [handleLine_accepted hacc] at hstep
      unfold handleFrame at hstep
      obtain ⟨s, hs, hend⟩ := bind_eq_ok.mp hstep
      refine .inr ⟨s, hconn, ?_, ?_⟩
      · unfold dispatch at hs
        rw [hauth] at hs
        simp only [htype, if_false] at hs
        exact hs
      · split at hend
        · obtain rfl := Except.ok.inj hend
          exact aside_clearTimer _ _
        · obtain rfl := Except.ok.inj hend
          exact .refl _
  · next hconn => exact .inl ⟨(Except.ok.inj hstep).symm, by simpa using hconn⟩

/-- That a peer was seen changes nothing about who is online where. -/
theorem online_seen {a : PeerRecord ν} (ha : st.peers.get? a.name = some a) (now : Int)
    (name : String) : ((st.updatePeer (a.seen now)).online name).map PeerRecord.toRef
      = (st.online name).map PeerRecord.toRef := by
  have hget : (st.updatePeer (a.seen now)).peers.get? name
      = if name = a.name then some (a.seen now) else st.peers.get? name :=
    Map.get?_set _ _ _ _
  unfold BrokerState.online
  rw [hget]
  by_cases hn : name = a.name
  · rw [if_pos hn, hn, ha]
    show (if (a.helloDone && !st.isDestroyed a.socket) = true then some (a.seen now) else none).map
        PeerRecord.toRef
      = (if (a.helloDone && !st.isDestroyed a.socket) = true then some a else none).map
        PeerRecord.toRef
    split <;> rfl
  · rw [if_neg hn]
    rfl

end Heard

/-! ### Deliveries and their origins -/

section Deliveries

variable {env : Env} {epoch : Int} {tr : BrokerTrace ν} {st : BrokerState ν} {o : Origin ν}
  {out : Members ν} {name : String}

theorem Origin.Met.holds {Q : Origin ν → Prop} (h : o.Met env tr)
    (hok : Meets (EachFrame env Q) tr) : Q o :=
  hok _ h.mem _ _ _ _ rfl h.accepted h.authed

/-- The sender of an origin is who its frame is from. -/
theorem Origin.Met.carries (h : o.Met env tr) : Carries o.frame.raw o.sender.name o.frame.id :=
  accepted_carries h.accepted (authed_sender h.keyed h.authed).1

theorem getOf_mailboxFrame (rt : Runtime) (m : StoredMsg ν) {k : String}
    (h : k ≠ "type" ∧ k ≠ "queuedAt") : getOf (mailboxFrame rt m) k = getOf m.frame k := by
  simp [mailboxFrame, getOf_withMember, h.1, h.2]

theorem frameType?_mailboxFrame (rt : Runtime) (m : StoredMsg ν) :
    frameType? (mailboxFrame rt m) = some .mailbox := by
  have hget : getOf (mailboxFrame rt m) "type" = some (.str MeshFrameType.mailbox.text) := by
    simp [mailboxFrame, getOf_withMember]
  simp [frameType?, hget, asStr]

theorem frameType?_buildFrame (rt : Runtime) (stamp : Stamp) (opts : BuildFrameOpts ν) :
    frameType? (buildFrame rt stamp opts) = some opts.type := by
  have hget : getOf (buildFrame rt stamp opts) "type" = some (.str opts.type.text) := by
    simp [buildFrame, getOf, lookupEntry]
  simp [frameType?, hget, asStr]

theorem delivers?_of_target {w : Write ν} {t : PeerRef} (h : w.callback.target? = some t) :
    w.delivers? = some (t.name, w.frame) := by
  unfold Write.delivers?
  cases hcb : w.callback with
  | flushed peer m =>
      rw [hcb] at h
      cases h
  | _ =>
      rw [hcb] at h
      simp [h]

theorem delivers?_of_isOwn {w : Write ν} (h : w.callback.IsOwn) : w.delivers? = none := by
  unfold Write.delivers?
  cases hcb : w.callback with
  | ignore => rfl
  | sendTo peer => rfl
  | _ =>
      rw [hcb] at h
      exact h.elim

/-- **Every delivery was sent**: some line of the run was passed on to this alias in this form. -/
theorem delivered_sent (hrun : Run (BrokerStep env) (BrokerState.init epoch) tr st)
    (h : Delivered st name out) : Sent env tr out name := by
  have hc := contents_run hrun
  cases h with
  | written w hw _ hd =>
      have hsrc := hc.writes w hw
      cases hsrc with
      | own sock stamp opts cb status hcb =>
          rw [delivers?_of_isOwn hcb] at hd
          cases hd
      | relayed target frame cb status hcb hs =>
          rw [delivers?_of_target hcb] at hd
          obtain ⟨rfl, rfl⟩ := Prod.mk.inj (Option.some.inj hd)
          exact hs
      | flushed peer m status hs =>
          obtain ⟨rfl, rfl⟩ := Prod.mk.inj (Option.some.inj hd)
          exact hs
  | stored m hm => exact (hc.stored _ hm).1

theorem Origin.Reaches.isRouted (h : o.Reaches env out name) : o.frame.type.isRouted = true := by
  cases h with
  | direct _ ht => rw [ht]; rfl
  | cap _ _ _ ht => rw [ht]; rfl
  | broadcast _ _ ht => rw [ht]; rfl
  | reply _ ht => rw [ht]; rfl
  | silent _ ht =>
      rcases ht with ht | ht
      · rw [ht]; rfl
      · rw [ht]; rfl
  | ctl _ ht => rw [ht]; rfl
  | ctlAck _ ht => rw [ht]; rfl

/-- **Every write of a type the broker does not make itself is a delivery**, and a frame
that waited in a mailbox was a message. -/
theorem delivered_of_write (hrun : Run (BrokerStep env) (BrokerState.init epoch) tr st)
    {w : Write ν} (hw : w ∈ st.writes) {t : MeshFrameType} (ht : frameType? w.frame = some t)
    (hown : t.isOwn = false) :
    ∃ name out, w.delivers? = some (name, out) ∧ Delivered st name out ∧
      frameType? out = some (if t = .mailbox then .msg else t) ∧
      ∀ k, k ≠ "type" ∧ k ≠ "queuedAt" → getOf w.frame k = getOf out k := by
  have hsrc := (contents_run hrun).writes w hw
  cases hsrc with
  | own sock stamp opts cb status hcb htype =>
      rw [frameType?_buildFrame] at ht
      obtain rfl := Option.some.inj ht
      rw [htype] at hown
      cases hown
  | relayed target frame cb status hcb hs =>
      have hd := delivers?_of_target (w := ⟨target.socket, frame, cb, status⟩) hcb
      obtain ⟨o, hmet, hreach⟩ := hs
      have hne : t ≠ .mailbox := by
        rintro rfl
        have htype := Option.some.inj ((hreach.frameType hmet.accepted).symm.trans ht)
        have hrouted := hreach.isRouted
        rw [htype] at hrouted
        cases hrouted
      exact ⟨_, _, hd, .written _ hw _ hd, by rw [if_neg hne]; exact ht, fun _ _ => rfl⟩
  | flushed peer m status hs hmsg =>
      rw [frameType?_mailboxFrame] at ht
      obtain rfl := Option.some.inj ht
      exact ⟨_, _, rfl, .written _ hw _ rfl, hmsg, fun k hk => getOf_mailboxFrame _ _ hk⟩

/-- What the handlers pass on is one of the forms of the frame. -/
theorem Origin.Met.form (h : o.Met env tr) (hreach : o.Reaches env out name) :
    Form env.rt o.frame false out := by
  cases hreach with
  | direct _ htype => exact .direct _ htype
  | cap t cap target htype hb hto hcap _ honline =>
      refine .capable target cap t.name _ htype hb hto hcap ?_
      have hget := (online_eq_some honline).1
      simp only [Origin.met, BrokerState.updatePeer, Map.get?_set] at hget
      split at hget
      · next hn =>
          rw [hn]
          exact h.named _ _ (authed_sender h.keyed h.authed).2
      · exact h.named _ _ hget
  | broadcast => exact .verbatim
  | reply => exact .verbatim
  | silent => exact .verbatim
  | ctl => exact .verbatim
  | ctlAck => exact .verbatim

/-- **Every write of a type the broker does not make itself is a form of a frame it
accepted**, the mailbox form where it waited. -/
theorem written_form (hrun : Run (BrokerStep env) (BrokerState.init epoch) tr st)
    {w : Write ν} (hw : w ∈ st.writes) {t : MeshFrameType} (ht : frameType? w.frame = some t)
    (hown : t.isOwn = false) :
    ∃ (o : Origin ν) (stored : Bool), o.Met env tr ∧ Form env.rt o.frame stored w.frame := by
  have hsrc := (contents_run hrun).writes w hw
  cases hsrc with
  | own sock stamp opts cb status hcb htype =>
      rw [frameType?_buildFrame] at ht
      obtain rfl := Option.some.inj ht
      rw [htype] at hown
      cases hown
  | relayed target frame cb status hcb hs =>
      obtain ⟨o, hmet, hreach⟩ := hs
      exact ⟨o, false, hmet, hmet.form hreach⟩
  | flushed peer m status hs hmsg =>
      obtain ⟨o, hmet, hreach⟩ := hs
      have htype : o.frame.type = .msg :=
        Option.some.inj ((hreach.frameType hmet.accepted).symm.trans hmsg)
      exact ⟨o, true, hmet, .stored htype (hmet.form hreach) m.ref m.enqueuedAt⟩

/-! ### The policy -/

/-- A broadcast the policy lets through for the whole room is not denied to any member. -/
def StarDecides (env : Env) (o : Origin ν) : Prop :=
  o.frame.type = .msg → o.frame.broadcast = some true →
    (decisionFor env o.sender.name o.frame "*").isDeny = false →
    ∀ members, o.pre.rooms.get? (.ofString o.frame.roomId) = some members →
      ∀ name ∈ members.elems, name ≠ o.sender.name →
        (decisionFor env o.sender.name o.frame name).isDeny = false

/-- A message of the run, passed on to `name` in this form, that the policy does not deny
to `name`. -/
def Cleared (env : Env) (tr : BrokerTrace ν) (name : String) (out : Members ν) : Prop :=
  ∃ o : Origin ν, o.Met env tr ∧ o.Reaches env out name ∧ o.frame.type = .msg ∧
    (evaluatePolicy env.policy ⟨o.sender.name, name, o.frame.roomId, o.frame.prio⟩).isDeny = false

/-- What the handlers of a message asked the policy. -/
theorem Origin.Reaches.cleared (h : o.Reaches env out name) (htype : o.frame.type = .msg)
    (hstar : StarDecides env o) : (decisionFor env o.sender.name o.frame name).isDeny = false := by
  cases h with
  | direct _ _ _ _ _ _ _ hpolicy => exact hpolicy
  | cap _ _ _ _ _ _ _ _ _ _ _ _ hpolicy => exact hpolicy
  | broadcast _ members _ hb _ hroom hin hne hpolicy =>
      exact hstar htype hb hpolicy members hroom name hin hne
  | reply _ ht => cases htype.symm.trans ht
  | silent _ ht =>
      rcases ht with ht | ht
      · cases htype.symm.trans ht
      · cases htype.symm.trans ht
  | ctl _ ht => cases htype.symm.trans ht
  | ctlAck _ ht => cases htype.symm.trans ht

/-- **Where the answer for the whole room speaks for each member, the policy is enforced on
every delivery**: no message that it denies to an alias is ever written to that alias or
stored for it. -/
theorem policy_enforced (hrun : Run (BrokerStep env) (BrokerState.init epoch) tr st)
    (hok : Meets (EachFrame env (StarDecides env)) tr) :
    (∀ w ∈ st.writes, frameType? w.frame = some .msg ∨ frameType? w.frame = some .mailbox →
      ∃ name out, w.delivers? = some (name, out) ∧ Cleared env tr name out) ∧
    (∀ e ∈ storedIn st.mailbox, Cleared env tr e.1 e.2.frame) := by
  have hcleared : ∀ name out, Delivered st name out → frameType? out = some .msg →
      Cleared env tr name out := by
    intro name out hd hmsg
    obtain ⟨o, hmet, hreach⟩ := delivered_sent hrun hd
    have htype : o.frame.type = .msg :=
      Option.some.inj ((hreach.frameType hmet.accepted).symm.trans hmsg)
    exact ⟨o, hmet, hreach, htype, hreach.cleared htype (hmet.holds hok)⟩
  constructor
  · intro w hw htype
    have hout : ∃ name out, w.delivers? = some (name, out) ∧ Delivered st name out ∧
        frameType? out = some .msg := by
      rcases htype with ht | ht
      · obtain ⟨name, out, hd, hdel, hmsg, -⟩ := delivered_of_write hrun hw ht rfl
        exact ⟨name, out, hd, hdel, hmsg⟩
      · obtain ⟨name, out, hd, hdel, hmsg, -⟩ := delivered_of_write hrun hw ht rfl
        exact ⟨name, out, hd, hdel, hmsg⟩
    obtain ⟨name, out, hd, hdel, hmsg⟩ := hout
    exact ⟨name, out, hd, hcleared name out hdel hmsg⟩
  · intro e he
    exact hcleared _ _ (.stored e.2 he) ((contents_run hrun).stored e he).2

/-! ### Rooms -/

/-- The room of the frame admits the sender as a member, and the recipient is in it. -/
def Origin.Gate (o : Origin ν) (t : PeerRecord ν) : Prop :=
  o.sender.rooms.get? (.ofString o.frame.roomId) = some .member ∧
    t.rooms.has (.ofString o.frame.roomId) = true

/-- What the handlers do not check: a reply or a reminder goes from a member of its room to
records in it, and a broadcast finds no record that left the room it is listed in. -/
structure RoomGated (o : Origin ν) : Prop where
  reply : o.frame.type = .reply → ∀ t, o.met.online t.name = some t →
    Addressed o.met o.sender o.frame t.name → o.Gate t
  remind : o.frame.type = .remind → ∀ t, o.met.online t.name = some t →
    o.frame.recipient = some t.name → o.Gate t
  broadcast : o.frame.type = .msg → o.frame.broadcast = some true →
    o.sender.rooms.get? (.ofString o.frame.roomId) = some .member →
    ∀ members t, o.met.rooms.get? (.ofString o.frame.roomId) = some members →
      t.name ∈ members.elems → t.name ≠ o.sender.name → o.met.online t.name = some t →
      t.rooms.has (.ofString o.frame.roomId) = true

/-- A frame of the run, passed on to `name` in this form: its sender was a member of its
room, and the recipient, if it was online, was in that room. -/
def Admitted (env : Env) (tr : BrokerTrace ν) (name : String) (out : Members ν) : Prop :=
  ∃ o : Origin ν, o.Met env tr ∧ o.Reaches env out name ∧
    o.sender.rooms.get? (.ofString o.frame.roomId) = some .member ∧
    ∀ t, o.met.online name = some t → t.rooms.has (.ofString o.frame.roomId) = true

/-- The frame types that carry a body or an order into a room. -/
def roomTypes : List MeshFrameType := [.msg, .mailbox, .reply, .remind, .ctl]

/-- What the handlers asked the room. -/
theorem Origin.Reaches.admitted (h : o.Reaches env out name) (htype : o.frame.type ∈ roomTypes)
    (hgated : RoomGated o) (hkeyed : Keyed o.met) :
    o.sender.rooms.get? (.ofString o.frame.roomId) = some .member ∧
      ∀ t, o.met.online name = some t → t.rooms.has (.ofString o.frame.roomId) = true := by
  cases h with
  | direct _ _ _ _ _ hrole hin => exact ⟨hrole, hin⟩
  | cap t _ _ _ _ _ _ hrole honline _ hin =>
      refine ⟨hrole, fun t' ht' => ?_⟩
      obtain rfl := Option.some.inj (honline.symm.trans ht')
      simp [Map.has, hin]
  | broadcast _ members ht hb hrole hroom hin hne =>
      refine ⟨hrole, fun t' ht' => ?_⟩
      obtain rfl := hkeyed.online ht'
      exact hgated.broadcast ht hb hrole members t' hroom hin hne ht'
  | reply t ht honline hwho =>
      obtain ⟨hrole, hin⟩ := hgated.reply ht t honline hwho
      refine ⟨hrole, fun t' ht' => ?_⟩
      obtain rfl := Option.some.inj (honline.symm.trans ht')
      exact hin
  | silent t ht honline hto =>
      have hremind : o.frame.type = .remind := by
        rcases ht with ht | ht
        · exact ht
        · rw [ht] at htype
          simp [roomTypes] at htype
      obtain ⟨hrole, hin⟩ := hgated.remind hremind t honline hto
      refine ⟨hrole, fun t' ht' => ?_⟩
      obtain rfl := Option.some.inj (honline.symm.trans ht')
      exact hin
  | ctl t _ _ hrole honline hin =>
      refine ⟨hrole, fun t' ht' => ?_⟩
      obtain rfl := Option.some.inj (honline.symm.trans ht')
      exact hin
  | ctlAck t ht =>
      rw [ht] at htype
      simp [roomTypes] at htype

theorem Origin.Met.keyed_met (h : o.Met env tr) : Keyed o.met := keyed_updatePeer h.keyed _

/-- **Where replies and reminders stay within their room, rooms are closed and observers
read only**: whatever was written or stored for a peer was sent by a member of its room, and
no online recipient was outside it. -/
theorem rooms_closed (hrun : Run (BrokerStep env) (BrokerState.init epoch) tr st)
    (hok : Meets (EachFrame env RoomGated) tr) :
    (∀ w ∈ st.writes, ∀ t ∈ roomTypes, frameType? w.frame = some t →
      ∃ name out, w.delivers? = some (name, out) ∧ Admitted env tr name out) ∧
    (∀ e ∈ storedIn st.mailbox, Admitted env tr e.1 e.2.frame) := by
  have hadmitted : ∀ name out t, Delivered st name out → frameType? out = some t →
      t ∈ roomTypes → Admitted env tr name out := by
    intro name out t hd ht hin
    obtain ⟨o, hmet, hreach⟩ := delivered_sent hrun hd
    obtain rfl := Option.some.inj ((hreach.frameType hmet.accepted).symm.trans ht)
    exact ⟨o, hmet, hreach, hreach.admitted hin (hmet.holds hok) hmet.keyed_met⟩
  constructor
  · intro w hw t hin ht
    have hown : t.isOwn = false := by
      simp only [roomTypes, List.mem_cons, List.not_mem_nil, or_false] at hin
      rcases hin with rfl | rfl | rfl | rfl | rfl <;> rfl
    obtain ⟨name, out, hd, hdel, hout, -⟩ := delivered_of_write hrun hw ht hown
    refine ⟨name, out, hd, hadmitted name out _ hdel hout ?_⟩
    split
    · simp [roomTypes]
    · exact hin
  · intro e he
    have hmsg := ((contents_run hrun).stored e he).2
    exact hadmitted _ _ _ (.stored e.2 he) hmsg (by simp [roomTypes])

end Deliveries

/-! ### Runs that are computed -/

/-- A test for `EachFrame`. -/
def eachFrame (env : Env) (q : Origin ν → Bool) (st : BrokerState ν) (e : Int × Event) : Bool :=
  match e.2 with
  | .line sock text =>
      match parseFrameLine env.rt text with
      | .error _ => true
      | .ok ms =>
          match castFrame ms with
          | .error _ => true
          | .ok f => (authed st sock f).all fun a => q ⟨st, e.1, sock, text, f, a⟩
  | _ => true

theorem eachFrame_of_test {env : Env} {q : Origin ν → Bool} {Q : Origin ν → Prop}
    {st : BrokerState ν} {e : Int × Event} (hq : ∀ o, q o = true → Q o)
    (h : eachFrame env q st e = true) : EachFrame env Q st e := by
  intro sock text f a he hacc hauth
  obtain ⟨ms, hms, hcast⟩ := hacc
  simp only [eachFrame, he, hms, hcast, hauth, Option.all_some] at h
  exact hq _ h

/-- Alice and bob are in the default room; then a line of alice arrives. -/
def aliceWrites (text : List Char) : List (Int × Event) :=
  [(1000, .connect 0 false none), (1001, .line 0 (frameLine .hello "m_1" "alice" [])),
    (1002, .connect 1 false none), (1003, .line 1 (frameLine .hello "m_2" "bob" [])),
    (1004, .line 0 text)]

/-- A broadcast of alice. -/
def aliceToAll (rest : Members Int) : List Char :=
  frameLine .msg "m_3" "alice"
    ([("room", .str "default"), ("broadcast", .bool true), ("body", .str "hi")] ++ rest)

/-- A write of this type was made for `name`. -/
def WroteTo (st : BrokerState ν) (name : String) (t : MeshFrameType) : Prop :=
  ∃ w ∈ st.writes, w.delivers?.map Prod.fst = some name ∧ frameType? w.frame = some t

instance (st : BrokerState ν) (name : String) (t : MeshFrameType) :
    Decidable (WroteTo st name t) := inferInstanceAs (Decidable (∃ w ∈ st.writes, _ ∧ _))

/-- The test for `StarDecides`. -/
def starDecides (env : Env) (o : Origin ν) : Bool :=
  (o.pre.rooms.get? (.ofString o.frame.roomId)).all fun members => members.elems.all fun name =>
    decide (name = o.sender.name) || !(decisionFor env o.sender.name o.frame name).isDeny

theorem starDecides_of_test {env : Env} {o : Origin ν} (h : starDecides env o = true) :
    StarDecides env o := by
  intro _ _ _ members hroom name hin hne
  simp only [starDecides, hroom, Option.all_some, List.all_eq_true, Bool.or_eq_true,
    decide_eq_true_eq, Bool.not_eq_true'] at h
  exact (h name hin).resolve_left hne

/-- Alice may not write to `name`. -/
def aliceMayNot (name : String) : MeshPolicy := { deny := [⟨some "alice", some name, none⟩] }

theorem policy_enforced_broadcast : ∃ (tr : BrokerTrace Int) (st : BrokerState Int),
    tr.map Prod.snd = aliceWrites (aliceToAll []) ∧
    ∃ w ∈ st.writes, ∃ out, w.delivers? = some ("bob", out) ∧
      Cleared (referenceEnv (aliceMayNot "carol")) tr "bob" out := by
  have h : ((runBroker (referenceEnv (aliceMayNot "carol")) (aliceWrites (aliceToAll []))).any
      fun r => decide (WroteTo r.2 "bob" .msg) && r.1.all fun x =>
        eachFrame (referenceEnv (aliceMayNot "carol"))
          (starDecides (referenceEnv (aliceMayNot "carol"))) x.1 x.2) = true := by decide +kernel
  obtain ⟨tr, st, hrun, htr, hcheck⟩ := exists_run h
  simp only [Bool.and_eq_true, decide_eq_true_eq, List.all_eq_true] at hcheck
  obtain ⟨⟨w, hw, hname, htype⟩, hok⟩ := hcheck
  obtain ⟨name, out, hd, hcleared⟩ := (policy_enforced hrun fun x hx =>
    eachFrame_of_test (fun _ => starDecides_of_test) (hok x hx)).1 w hw (.inl htype)
  rw [hd] at hname
  obtain rfl := Option.some.inj hname
  exact ⟨tr, st, htr, w, hw, out, hd, hcleared⟩

/-- The policy denies alice to bob, and a broadcast of hers is written to him. -/
theorem broadcast_ignores_denial : ∃ (tr : BrokerTrace Int) (st : BrokerState Int),
    Run (BrokerStep (referenceEnv (aliceMayNot "bob"))) (BrokerState.init 1) tr st ∧
    tr.map Prod.snd = aliceWrites (aliceToAll []) ∧
    (evaluatePolicy (aliceMayNot "bob") ⟨"alice", "bob", "default", .normal⟩).isDeny = true ∧
    ∃ w ∈ st.writes, w.delivers?.map Prod.fst = some "bob" ∧ frameType? w.frame = some .msg ∧
      getOf w.frame "from" = some (.str "alice") ∧ getOf w.frame "room" = some (.str "default") ∧
      getOf w.frame "priority" = none := by
  have h : ((runBroker (referenceEnv (aliceMayNot "bob")) (aliceWrites (aliceToAll []))).any
      fun r => decide (∃ w ∈ r.2.writes, w.delivers?.map Prod.fst = some "bob" ∧
        frameType? w.frame = some .msg ∧ getOf w.frame "from" = some (.str "alice") ∧
        getOf w.frame "room" = some (.str "default") ∧ getOf w.frame "priority" = none)) = true := by
    decide +kernel
  obtain ⟨tr, st, hrun, htr, hcheck⟩ := exists_run h
  exact ⟨tr, st, hrun, htr, by decide, of_decide_eq_true hcheck⟩

/-- A test for `RoomGated`: nothing unchecked is passed on, or everybody is in the room. -/
def roomGated (o : Origin ν) : Bool :=
  decide (o.frame.type ≠ .reply ∧ o.frame.type ≠ .remind ∧ o.frame.broadcast ≠ some true) ||
    decide (o.sender.rooms.get? (.ofString o.frame.roomId) = some .member) &&
      o.met.peers.values.all fun t => t.rooms.has (.ofString o.frame.roomId)

theorem roomGated_of_test {o : Origin ν} (h : roomGated o = true) : RoomGated o := by
  simp only [roomGated, Bool.or_eq_true, Bool.and_eq_true, decide_eq_true_eq, List.all_eq_true] at h
  rcases h with ⟨hreply, hremind, hb⟩ | ⟨hrole, hall⟩
  · exact ⟨fun h => absurd h hreply, fun h => absurd h hremind, fun _ h => absurd h hb⟩
  · have hin : ∀ t, o.met.online t.name = some t →
        t.rooms.has (.ofString o.frame.roomId) = true := by
      intro t ht
      exact hall t ((Map.mem_values_iff _ _).mpr ⟨_, (online_eq_some ht).1⟩)
    exact ⟨fun _ t ht _ => ⟨hrole, hin t ht⟩, fun _ t ht _ => ⟨hrole, hin t ht⟩,
      fun _ _ _ _ t _ _ _ ht => hin t ht⟩

/-- A reply of alice to bob, tagged with a room. -/
def aliceReplies (room : String) : List Char :=
  frameLine .reply "m_3" "alice"
    [("to", .str "bob"), ("room", .str room), ("replyTo", .str "m_0"), ("body", .str "hi")]

theorem rooms_closed_reply : ∃ (tr : BrokerTrace Int) (st : BrokerState Int),
    tr.map Prod.snd = aliceWrites (aliceReplies "default") ∧
    ∃ w ∈ st.writes, ∃ out, w.delivers? = some ("bob", out) ∧
      Admitted (referenceEnv {}) tr "bob" out := by
  have h : ((runBroker (referenceEnv {}) (aliceWrites (aliceReplies "default"))).any fun r =>
      decide (WroteTo r.2 "bob" .reply) &&
      r.1.all fun x => eachFrame (referenceEnv {}) roomGated x.1 x.2) = true := by decide +kernel
  obtain ⟨tr, st, hrun, htr, hcheck⟩ := exists_run h
  simp only [Bool.and_eq_true, decide_eq_true_eq, List.all_eq_true] at hcheck
  obtain ⟨⟨w, hw, hname, htype⟩, hok⟩ := hcheck
  obtain ⟨name, out, hd, hadmitted⟩ := (rooms_closed hrun fun x hx =>
    eachFrame_of_test (fun _ => roomGated_of_test) (hok x hx)).1 w hw .reply (by decide) htype
  rw [hd] at hname
  obtain rfl := Option.some.inj hname
  exact ⟨tr, st, htr, w, hw, out, hd, hadmitted⟩

/-- Neither alice nor bob is in `ops`, and her reply tagged with it is written to him. -/
theorem reply_enters_room : ∃ (tr : BrokerTrace Int) (st : BrokerState Int),
    Run (BrokerStep (referenceEnv {})) (BrokerState.init 1) tr st ∧
    tr.map Prod.snd = aliceWrites (aliceReplies "ops") ∧
    (∀ x ∈ tr, ∀ p ∈ x.1.peers.values, p.rooms.has (.ofString "ops") = false) ∧
    ∃ w ∈ st.writes, w.delivers?.map Prod.fst = some "bob" ∧ frameType? w.frame = some .reply ∧
      getOf w.frame "from" = some (.str "alice") ∧ getOf w.frame "room" = some (.str "ops") := by
  have h : ((runBroker (referenceEnv {}) (aliceWrites (aliceReplies "ops"))).any fun r =>
      (r.1.all fun x => x.1.peers.values.all fun p => !p.rooms.has (.ofString "ops")) &&
      decide (∃ w ∈ r.2.writes, w.delivers?.map Prod.fst = some "bob" ∧
        frameType? w.frame = some .reply ∧ getOf w.frame "from" = some (.str "alice") ∧
        getOf w.frame "room" = some (.str "ops"))) = true := by
    decide +kernel
  obtain ⟨tr, st, hrun, htr, hcheck⟩ := exists_run h
  simp only [Bool.and_eq_true, List.all_eq_true, Bool.not_eq_true', decide_eq_true_eq] at hcheck
  exact ⟨tr, st, hrun, htr, hcheck.1, hcheck.2⟩

end PiMesh
