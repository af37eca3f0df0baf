/-
Who may force.

A forced frame aborts the turn of the agent that receives it, so the policy names the
aliases that may send one.  The broker asks the policy where it routes a message to one
recipient, and rewrites what it downgrades; a reply, a reminder and the copies of a
broadcast are passed on as they came.  Where none of these carries a force its sender may
not use, every force that reaches a peer is authorized, and so is every abort of a turn.
-/
import PiMesh.Extension.Inbound
import PiMesh.Proofs.Deliveries

namespace PiMesh

open Js Json Transition BrokerState

variable {ν : Type} [Number ν] [DecidableEq ν]

/-- The frame types a client hands to its session. -/
def inboundTypes : List MeshFrameType := [.msg, .mailbox, .remind, .reply]

/-- A force its sender may not use is in no reply, no reminder, and no broadcast that the
policy would downgrade. -/
def ForceChecked (env : Env) (o : Origin ν) : Prop :=
  o.frame.prio = .force → o.sender.name ∉ env.policy.forceAllowedFrom →
    o.frame.type ≠ .reply ∧ o.frame.type ≠ .remind ∧
      (o.frame.type = .msg → o.frame.broadcast = some true →
        decisionFor env o.sender.name o.frame "*" ≠ .downgrade)

/-- What is left of a force its sender may not use. -/
structure Downgraded (env : Env) (out : Members ν) : Prop where
  policy : env.policy.forceDowngrade = true
  priority : getOf out "priority" = some (.str "urgent")
  interrupt : getOf out "interrupt" = none

/-- The frame says it is from an alias that may force. -/
def FromAuthorized (env : Env) (frame : Members ν) : Prop :=
  ∃ name, getOf frame "from" = some (.str name) ∧ name ∈ env.policy.forceAllowedFrom

section Force

variable {env : Env} {epoch : Int} {tr : BrokerTrace ν} {st : BrokerState ν} {o : Origin ν}
  {out : Members ν} {name : String}

theorem framePriority?_raw (h : o.Met env tr) : framePriority? o.frame.raw = o.frame.priority := by
  obtain ⟨ms, -, hcast⟩ := h.accepted
  have hv := castFrame_views hcast
  rw [hv.raw]
  exact hv.priority.bind

/-- A force the policy decided on for one recipient. -/
theorem routed_force {recipient : String} {raw : Members ν}
    (hpolicy : (decisionFor env o.sender.name o.frame recipient).isDeny = false)
    (hforce : o.frame.prio = .force) :
    o.sender.name ∈ env.policy.forceAllowedFrom ∨
      Downgraded env (routed (decisionFor env o.sender.name o.frame recipient) o.frame.prio raw).1 := by
  cases hd : decisionFor env o.sender.name o.frame recipient with
  | allow => exact .inl (evaluatePolicy_allow_force hd hforce)
  | downgrade =>
      refine .inr ⟨(evaluatePolicy_downgrade hd).2.2, ?_, ?_⟩
      · simp [routed, getOf_withoutMember, getOf_withMember]
      · simp [routed, getOf_withoutMember]
  | deny code =>
      rw [hd] at hpolicy
      cases hpolicy

/-- **A force that is passed on is authorized or downgraded.** -/
theorem Origin.Reaches.force (h : o.Reaches env out name) (hchecked : ForceChecked env o)
    (htype : o.frame.type = .msg ∨ o.frame.type = .reply ∨ o.frame.type = .remind)
    (hforce : o.frame.prio = .force) :
    o.sender.name ∈ env.policy.forceAllowedFrom ∨ Downgraded env out := by
  by_cases hmay : o.sender.name ∈ env.policy.forceAllowedFrom
  · exact .inl hmay
  · obtain ⟨hreply, hremind, hstar⟩ := hchecked hforce hmay
    cases h with
    | direct _ _ _ _ _ _ _ hpolicy => exact routed_force hpolicy hforce
    | cap _ _ _ _ _ _ _ _ _ _ _ _ hpolicy => exact routed_force hpolicy hforce
    | broadcast _ _ ht hb _ _ _ _ hpolicy =>
        cases hd : decisionFor env o.sender.name o.frame "*" with
        | allow => exact .inl (evaluatePolicy_allow_force hd hforce)
        | downgrade => exact absurd hd (hstar ht hb)
        | deny code =>
            rw [hd] at hpolicy
            cases hpolicy
    | reply _ ht => exact absurd ht hreply
    | silent _ ht =>
        rcases ht with ht | ht
        · exact absurd ht hremind
        · rw [ht] at htype
          simp at htype
    | ctl _ ht =>
        rw [ht] at htype
        simp at htype
    | ctlAck _ ht =>
        rw [ht] at htype
        simp at htype

/-- A frame that is passed on with priority force was sent with it. -/
theorem Origin.Reaches.prio_eq_force (h : o.Reaches env out name) (hmet : o.Met env tr)
    (hout : framePriority? out = some .force) : o.frame.prio = .force := by
  have hraw : framePriority? o.frame.raw = some .force → o.frame.prio = .force := by
    intro hp
    rw [framePriority?_raw hmet] at hp
    simp [MeshFrame.prio, hp]
  -- a downgraded form is urgent; every other one has the priority it came with
  have hrouted : ∀ {decision : PolicyDecision} {raw : Members ν},
      getOf raw "priority" = getOf o.frame.raw "priority" →
      framePriority? (routed decision o.frame.prio raw).1 = some .force → o.frame.prio = .force := by
    intro decision raw hsame hp
    cases decision with
    | allow | deny code =>
        refine hraw ?_
        rw [← hp]
        simp only [framePriority?, routed, hsame]
    | downgrade =>
        simp [framePriority?, routed, getOf_withoutMember, getOf_withMember, asStr,
          MeshPriority.ofText?, MeshPriority.all, MeshPriority.text] at hp
  cases h with
  | direct => exact hrouted rfl hout
  | cap _ cap => exact hrouted (getOf_capRouted _ _ _ (by decide)) hout
  | broadcast => exact hraw hout
  | reply => exact hraw hout
  | silent => exact hraw hout
  | ctl => exact hraw hout
  | ctlAck => exact hraw hout

theorem Origin.Reaches.from_eq (h : o.Reaches env out name) (hmet : o.Met env tr) :
    getOf out "from" = some (.str o.sender.name) := by
  have hfrom := (h.carries hmet.carries).1
  obtain ⟨v, hv, hstr⟩ := Option.bind_eq_some_iff.mp hfrom
  cases v with
  | str s =>
      obtain rfl := Option.some.inj hstr
      exact hv
  | _ => cases hstr

/-- A delivered force is from an alias that may use it. -/
theorem delivered_force (hrun : Run (BrokerStep env) (BrokerState.init epoch) tr st)
    (hok : Meets (EachFrame env (ForceChecked env)) tr) (hd : Delivered st name out)
    (htype : frameType? out = some .msg ∨ frameType? out = some .reply ∨
      frameType? out = some .remind) :
    ∃ o : Origin ν, o.Met env tr ∧ o.Reaches env out name ∧
      (o.frame.prio = .force → o.sender.name ∉ env.policy.forceAllowedFrom → Downgraded env out) ∧
      (framePriority? out = some .force → FromAuthorized env out) := by
  obtain ⟨o, hmet, hreach⟩ := delivered_sent hrun hd
  have htype' : o.frame.type = .msg ∨ o.frame.type = .reply ∨ o.frame.type = .remind := by
    rw [hreach.frameType hmet.accepted] at htype
    simpa using htype
  have hforce := hreach.force (hmet.holds hok) htype'
  refine ⟨o, hmet, hreach, fun hp hmay => (hforce hp).resolve_left hmay, fun hp => ?_⟩
  rcases hforce (hreach.prio_eq_force hmet hp) with hmay | hdown
  · exact ⟨o.sender.name, hreach.from_eq hmet, hmay⟩
  · rw [framePriority?, hdown.priority] at hp
    simp [asStr, MeshPriority.ofText?, MeshPriority.all, MeshPriority.text] at hp

/-- What an inbound frame was before it perhaps waited in a mailbox. -/
theorem inbound_out {t : MeshFrameType} (hin : t ∈ inboundTypes)
    (hout : frameType? out = some (if t = .mailbox then .msg else t)) :
    frameType? out = some .msg ∨ frameType? out = some .reply ∨ frameType? out = some .remind := by
  rw [hout]
  simp only [inboundTypes, List.mem_cons, List.not_mem_nil, or_false] at hin
  rcases hin with rfl | rfl | rfl | rfl
  · exact .inl rfl
  · exact .inl rfl
  · exact .inr (.inr rfl)
  · exact .inr (.inl rfl)

/-- A recipient reads type, priority and sender as they were written. -/
theorem received_eq (hrun : Run (BrokerStep env) (BrokerState.init epoch) tr st) {w : Write ν}
    (hw : w ∈ st.writes) {t : MeshFrameType} (ht : frameType? w.frame = some t)
    (hown : t.isOwn = false) {recv : Members ν}
    (hrecv : parseFrameLine env.rt (stringify (.obj w.frame)) = .ok recv) :
    recv = wireMembers w.frame := by
  obtain ⟨o, stored, hmet, hform⟩ := written_form hrun hw ht hown
  obtain ⟨ms, hms, hcast⟩ := hmet.accepted
  have hraw : o.frame.raw = ms := (castFrame_views hcast).raw
  have hwf : WellFormed (.obj w.frame) := by
    refine hform.wellFormed ?_
    rw [hraw]
    exact parse_wellFormed (parseFrameLine_eq_ok.mp hms).1
  have hparse := (parseFrameLine_eq_ok.mp hrecv).1
  rw [parse_stringify _ hwf, wire] at hparse
  simpa using hparse.symm

theorem asStr_wire (v : Json ν) : asStr (wire v) = asStr v := by
  cases v with
  | num x =>
      rw [wire]
      split <;> rfl
  | _ => rfl

theorem framePriority?_wire (ms : Members ν) : framePriority? (wireMembers ms) = framePriority? ms := by
  unfold framePriority?
  rw [getOf_wireMembers]
  cases getOf ms "priority" with
  | none => rfl
  | some v => simp [asStr_wire]

/-- **Where no force goes round the policy, every force is authorized**: one that is written
or stored is from an alias that may force, one its sender may not use arrives as urgent
without its interrupt, and no session aborts a turn for anybody else. -/
theorem force_authorized (hrun : Run (BrokerStep env) (BrokerState.init epoch) tr st)
    (hok : Meets (EachFrame env (ForceChecked env)) tr) :
    (∀ w ∈ st.writes, ∀ t ∈ inboundTypes, frameType? w.frame = some t →
      framePriority? w.frame = some .force → FromAuthorized env w.frame) ∧
    (∀ e ∈ storedIn st.mailbox, framePriority? e.2.frame = some .force →
      FromAuthorized env e.2.frame) ∧
    (∀ name out, Delivered st name out → ∀ t ∈ inboundTypes, frameType? out = some t →
      ∃ o : Origin ν, o.Met env tr ∧ o.Reaches env out name ∧
        (o.frame.prio = .force → o.sender.name ∉ env.policy.forceAllowedFrom →
          Downgraded env out)) ∧
    (∀ w ∈ st.writes, ∀ t ∈ inboundTypes, frameType? w.frame = some t → ∀ recv : Members ν,
      parseFrameLine env.rt (stringify (.obj w.frame)) = .ok recv → ∀ ctx replyChain,
      (injectInbound ctx recv replyChain).aborts = true → FromAuthorized env recv) := by
  have hnotOwn : ∀ t ∈ inboundTypes, t.isOwn = false := by decide
  have hwritten : ∀ w ∈ st.writes, ∀ t ∈ inboundTypes, frameType? w.frame = some t →
      framePriority? w.frame = some .force → FromAuthorized env w.frame := by
    intro w hw t hin ht hp
    obtain ⟨name, out, -, hdel, hout, hsame⟩ := delivered_of_write hrun hw ht (hnotOwn t hin)
    have hpriority : framePriority? w.frame = framePriority? out := by
      unfold framePriority?
      rw [hsame "priority" (by decide)]
    obtain ⟨o, -, -, -, hauth⟩ := delivered_force hrun hok hdel (inbound_out hin hout)
    obtain ⟨a, ha, hmay⟩ := hauth (by rw [← hpriority]; exact hp)
    exact ⟨a, by rw [hsame "from" (by decide)]; exact ha, hmay⟩
  refine ⟨hwritten, ?_, ?_, ?_⟩
  · intro e he hp
    have hstored := ((contents_run hrun).stored e he).2
    obtain ⟨o, -, -, -, hauth⟩ := delivered_force hrun hok (.stored e.2 he) (.inl hstored)
    exact hauth hp
  · intro name out hdel t hin ht
    have hne : t ≠ .mailbox := by
      rintro rfl
      obtain ⟨o, hmet, hreach⟩ := delivered_sent hrun hdel
      have htype := Option.some.inj ((hreach.frameType hmet.accepted).symm.trans ht)
      have hrouted := hreach.isRouted
      rw [htype] at hrouted
      cases hrouted
    obtain ⟨o, hmet, hreach, hdown, -⟩ := delivered_force hrun hok hdel
      (inbound_out hin (by rw [if_neg hne]; exact ht))
    exact ⟨o, hmet, hreach, hdown⟩
  · intro w hw t hin ht recv hrecv ctx replyChain habort
    obtain rfl := received_eq hrun hw ht (hnotOwn t hin) hrecv
    have hforce := (injectInbound_aborts habort).1
    have hp : framePriority? w.frame = some .force := by
      rw [inboundPriority, framePriority?_wire] at hforce
      cases hf : framePriority? w.frame with
      | none =>
          rw [hf] at hforce
          cases hforce
      | some p =>
          rw [hf] at hforce
          exact congrArg some hforce
    obtain ⟨a, ha, hmay⟩ := hwritten w hw t hin ht hp
    refine ⟨a, ?_, hmay⟩
    rw [getOf_wireMembers, ha]
    rfl

end Force

/-! ### Runs that are computed -/

instance (env : Env) (o : Origin ν) : Decidable (ForceChecked env o) :=
  inferInstanceAs (Decidable (_ → _ → _ ∧ _ ∧ _))

/-- The hash a forced frame must carry. -/
def forced : Members Int :=
  [("priority", .str "force"),
    ("reasonHash", .str "e3b0c44298fc1c149afbf4c8996fb92427ae41e4649b934ca495991b7852b855")]

/-- Alice may force. -/
def aliceForces : MeshPolicy := { forceAllowedFrom := ["alice"] }

theorem force_authorized_direct : ∃ (tr : BrokerTrace Int) (st : BrokerState Int),
    tr.map Prod.snd = aliceWrites (aliceToBob forced) ∧
    ∃ w ∈ st.writes, framePriority? w.frame = some .force ∧
      FromAuthorized (referenceEnv aliceForces) w.frame := by
  have h : ((runBroker (referenceEnv aliceForces) (aliceWrites (aliceToBob forced))).any fun r =>
      decide (∃ w ∈ r.2.writes, frameType? w.frame = some .msg ∧
        framePriority? w.frame = some .force) &&
      r.1.all fun x => eachFrame (referenceEnv aliceForces)
        (fun o => decide (ForceChecked (referenceEnv aliceForces) o)) x.1 x.2) = true := by
    decide +kernel
  obtain ⟨tr, st, hrun, htr, hcheck⟩ := exists_run h
  simp only [Bool.and_eq_true, decide_eq_true_eq, List.all_eq_true] at hcheck
  obtain ⟨⟨w, hw, htype, hp⟩, hok⟩ := hcheck
  refine ⟨tr, st, htr, w, hw, hp, ?_⟩
  exact (force_authorized hrun fun x hx => eachFrame_of_test (fun _ => of_decide_eq_true)
    (hok x hx)).1 w hw .msg (by decide) htype hp

/-- A host with a running turn. -/
def busyHost : SessionContext := { canAbort := true, isIdle := some fun _ => false }

/-- Nobody may force, and a forced reply of alice makes bob's session abort its turn. -/
theorem reply_forces : ∃ (tr : BrokerTrace Int) (st : BrokerState Int) (w : Write Int)
    (recv : Members Int),
    Run (BrokerStep (referenceEnv {})) (BrokerState.init 1) tr st ∧
    tr.map Prod.snd = aliceWrites (frameLine .reply "m_3" "alice"
      ([("to", .str "bob"), ("replyTo", .str "m_0"), ("body", .str "hi")] ++ forced)) ∧
    "alice" ∉ (referenceEnv {}).policy.forceAllowedFrom ∧
    w ∈ st.writes ∧ w.delivers?.map Prod.fst = some "bob" ∧
    framePriority? w.frame = some .force ∧ getOf w.frame "from" = some (.str "alice") ∧
    parseFrameLine referenceRuntime (stringify (.obj w.frame)) = .ok recv ∧
    (injectInbound (some busyHost) recv false).aborts = true := by
  have h : ((runBroker (referenceEnv {}) (aliceWrites (frameLine .reply "m_3" "alice"
      ([("to", .str "bob"), ("replyTo", .str "m_0"), ("body", .str "hi")] ++ forced)))).any fun r =>
      decide (∃ w ∈ r.2.writes, w.delivers?.map Prod.fst = some "bob" ∧
        framePriority? w.frame = some .force ∧ getOf w.frame "from" = some (.str "alice") ∧
        ((parseFrameLine referenceRuntime (stringify (.obj w.frame)) :
          Except Reject (Members Int)).toOption.any fun recv =>
            (injectInbound (some busyHost) recv false).aborts) = true)) = true := by
    decide +kernel
  obtain ⟨tr, st, hrun, htr, hcheck⟩ := exists_run h
  obtain ⟨w, hw, hname, hp, hfrom, hany⟩ := of_decide_eq_true hcheck
  obtain ⟨recv, hrecv, habort⟩ := (Option.any_eq_true _ _).mp hany
  exact ⟨tr, st, w, recv, hrun, htr, by decide, hw, hname, hp, hfrom, toOption_eq_some hrecv, habort⟩

end PiMesh
