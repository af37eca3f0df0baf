/-
What an alias can send through a broker.

The buckets of `Proofs/Rates.lean` bound the calls of `checkRate`; here they bound the frames.
Every line of an authenticated peer either leaves the buckets alone, and then nothing of it
reaches a peer or a mailbox that an alias is charged for, or it makes one call of `checkRate`
for the alias the line is from, and then nothing of it does unless the call is accepted.  The
buckets outlive the connection, so the bound is one on the alias, however often it comes back.
-/
import PiMesh.Proofs.Aloof
import PiMesh.Proofs.Rates
import PiMesh.Proofs.Steps

namespace PiMesh

open Js Transition BrokerState

variable {ν : Type} [Number ν] [DecidableEq ν]

/-- The bucket a frame is charged to. -/
def chargeOf (frame : MeshFrame ν) : Option RateKind :=
  match frame.type with
  | .msg => some (rateKind (frame.priority.getD .normal))
  | .reply => some .msg
  | .ctl => some (rateKind (ctlPriority frame.action))
  | _ => none

/-- What a line of an alias does to the buckets, and when it is heard. -/
inductive Billed (env : Env) (now : Int) (name : String) (frame : MeshFrame ν)
    (st st' : BrokerState ν) : Prop
  | free (hrates : st'.rates = st.rates) (hnone : Unheard st st')
  | billed (kind : RateKind) (hkind : chargeOf frame = some kind)
      (hrates : st'.rates = (checkRate st.rates name kind env.policy.rateLimits now now).2)
      (hrefused : (checkRate st.rates name kind env.policy.rateLimits now now).1 = false →
        Unheard st st')

section Bills

variable {env : Env} {now : Int} {name : String} {frame : MeshFrame ν} {st s st' : BrokerState ν}

theorem Billed.of_aloof (h : Aloof st st') : Billed env now name frame st st' :=
  .free h.rates h.toUnheard

/-- What comes before the call and touches nothing may be left out. -/
theorem Billed.after (h : Aloof st s) (hb : Billed env now name frame s st') :
    Billed env now name frame st st' := by
  cases hb with
  | free hrates hnone =>
      exact .free (hrates.trans h.rates)
        ⟨hnone.queued.trans h.queued, hnone.metered.trans h.metered⟩
  | billed kind hkind hrates hrefused =>
      rw [h.rates] at hrates hrefused
      refine .billed kind hkind hrates ?_
      intro hno
      exact ⟨(hrefused hno).queued.trans h.queued, (hrefused hno).metered.trans h.metered⟩

theorem Billed.before (hb : Billed env now name frame st s) (h : Aloof s st') :
    Billed env now name frame st st' := by
  cases hb with
  | free hrates hnone =>
      exact .free (h.rates.trans hrates)
        ⟨h.queued.trans hnone.queued, h.metered.trans hnone.metered⟩
  | billed kind hkind hrates hrefused =>
      refine .billed kind hkind (h.rates.trans hrates) ?_
      intro hno
      exact ⟨h.queued.trans (hrefused hno).queued, h.metered.trans (hrefused hno).metered⟩

/-- A frame that may be passed on is billed, and touches no lease. -/
structure Routed (env : Env) (now : Int) (name : String) (frame : MeshFrame ν)
    (st st' : BrokerState ν) : Prop where
  billed : Billed env now name frame st st'
  leases : st'.leases = st.leases

theorem Routed.of_aloof (h : Aloof st st') : Routed env now name frame st st' :=
  ⟨.of_aloof h, h.leases⟩

/-- One call: a refusal says nothing to anybody else. -/
theorem routed_of_take {kind : RateKind} (hkind : chargeOf frame = some kind)
    (hno : Aloof (takeRate env now st name kind).2 s)
    (hyes : Bystander (takeRate env now st name kind).2 st') :
    Routed env now name frame st (if !(takeRate env now st name kind).1 then s else st') := by
  have hunheard : Unheard st (takeRate env now st name kind).2 := ⟨rfl, rfl⟩
  by_cases hallowed : (takeRate env now st name kind).1 = true
  · rw [if_neg (by simp [hallowed])]
    refine ⟨.billed kind hkind hyes.rates ?_, hyes.leases⟩
    intro hrefused
    rw [show (takeRate env now st name kind).1 = _ from hrefused] at hallowed
    cases hallowed
  · rw [if_pos (by simp [hallowed])]
    refine ⟨.billed kind hkind hno.rates ?_, hno.leases⟩
    intro _
    exact ⟨hno.queued.trans hunheard.queued, hno.metered.trans hunheard.metered⟩

/-! ### Messages -/

theorem broadcastOne_bystander (g : Nat) (key : RoomKey ν) (raw : Members ν) (member : String) :
    Bystander st (broadcastOne env now g key raw st member) := by
  have hgroup : ∀ (s : BrokerState ν) f, Bystander s (s.modifyGroup g f) := fun _ _ => ⟨rfl, rfl⟩
  unfold broadcastOne
  split
  · exact .refl st
  · dsimp only
    split
    · exact ((hgroup st _).trans (hgroup _ _)).trans (relay_bystander _ raw _)
    · refine (hgroup st Group.count).trans ?_
      split
      · exact enqueue_bystander member raw (some g)
      · exact .refl _

theorem routeBroadcast_routed {sender : PeerRecord ν} (htype : frame.type = .msg) (room : String) :
    Routed env now sender.name frame st (routeBroadcast env now st sender frame room) := by
  unfold routeBroadcast
  dsimp only
  split
  · exact .of_aloof (refuse_aloof _ _ _)
  · exact .of_aloof (refuse_aloof _ _ _)
  · split
    · exact .of_aloof (refuse_aloof _ _ _)
    · refine routed_of_take (by simp [chargeOf, htype]) (refuse_aloof _ _ _) ?_
      split
      · exact (refuse_aloof _ _ _).toBystander
      · have hopen : ∀ s : BrokerState ν, Bystander s (s.openGroup .broadcast sender.toRef frame.id) :=
          fun _ => ⟨rfl, rfl⟩
        exact (hopen _).trans
          (Bystander.foldl (fun s member => broadcastOne_bystander _ _ _ member) _ _)

theorem routeDirect_routed {sender : PeerRecord ν} (htype : frame.type = .msg)
    (room target : String) :
    Routed env now sender.name frame st (routeDirect env now st sender frame room target) := by
  unfold routeDirect
  dsimp only
  split
  · exact .of_aloof (refuse_aloof _ _ _)
  · split
    · exact .of_aloof (refuse_aloof _ _ _)
    · refine routed_of_take (by simp [chargeOf, htype]) (refuse_aloof _ _ _) ?_
      split
      · exact (refuse_aloof _ _ _).toBystander
      · split
        · exact relay_bystander _ _ _
        · have hrelayed : ∀ s : BrokerState ν, Bystander s (s.addRelayed 1) := fun _ => ⟨rfl, rfl⟩
          exact ((enqueue_bystander target _ none).trans (hrelayed _)).trans
            (sendAck_aloof _ _ _ _ _ _ _).toBystander

theorem routeCapMsg_routed {sender : PeerRecord ν} (htype : frame.type = .msg) (cap room : String) :
    Routed env now sender.name frame st (routeCapMsg env now st sender frame cap room) := by
  unfold routeCapMsg
  dsimp only
  refine routed_of_take (by simp [chargeOf, htype]) (refuse_aloof _ _ _) ?_
  split
  · exact (refuse_aloof _ _ _).toBystander
  · split
    · exact (refuse_aloof _ _ _).toBystander
    · split
      · exact (refuse_aloof _ _ _).toBystander
      · exact relay_bystander _ _ _

theorem routeMsg_routed {sender : PeerRecord ν} (htype : frame.type = .msg) :
    Routed env now sender.name frame st (routeMsg env now st sender frame) := by
  unfold routeMsg
  dsimp only
  split
  · exact routeBroadcast_routed htype _
  · split
    · exact .of_aloof (refuse_aloof _ _ _)
    · next target _ =>
        split
        · exact .of_aloof (refuse_aloof _ _ _)
        · exact .of_aloof (refuse_aloof _ _ _)
        · split
          · next cap _ => exact routeCapMsg_routed htype cap _
          · exact routeDirect_routed htype _ target

/-! ### Replies and controls -/

theorem replyFan_bystander {sender : PeerRecord ν} (names : List String) :
    Bystander st (replyFan env now st sender frame names) := by
  unfold replyFan
  have hopen : Bystander st (st.openGroup .reply sender.toRef frame.id) := ⟨rfl, rfl⟩
  refine hopen.trans (Bystander.foldl (fun s member => ?_) _ _)
  unfold replyOne
  split
  · exact .refl s
  · have hgroup : ∀ (s : BrokerState ν) g f, Bystander s (s.modifyGroup g f) := fun _ _ _ => ⟨rfl, rfl⟩
    exact ((hgroup s _ _).trans (hgroup _ _ _)).trans (relay_bystander _ _ _)

theorem routeOnlineOnly_bystander {sender : PeerRecord ν} (silentDrop : Bool) :
    Bystander st (routeOnlineOnly env now st sender frame silentDrop) := by
  unfold routeOnlineOnly
  split
  · exact relay_bystander _ _ _
  · split
    · exact .refl st
    · exact (sendAck_aloof _ _ _ _ _ _ _).toBystander

/-- A reminder or a receipt is free. -/
theorem routeOnlineOnly_aloof {sender : PeerRecord ν} :
    Aloof st (routeOnlineOnly env now st sender frame true) := by
  unfold routeOnlineOnly
  split
  · next t _ => exact relay_aloof rfl fun s => closeIfCurrent_aloof t.toRef
  · exact .refl st

theorem routeReply_routed {sender : PeerRecord ν} (htype : frame.type = .reply) :
    Routed env now sender.name frame st (routeReply env now st sender frame) := by
  unfold routeReply
  dsimp only
  refine routed_of_take (by simp [chargeOf, htype]) (sendError_aloof _ _ _) ?_
  split
  · unfold routeReplyAll
    dsimp only
    split
    · exact (sendAck_aloof _ _ _ _ _ _ _).toBystander
    · exact replyFan_bystander _
  · split
    · exact replyFan_bystander _
    · exact routeOnlineOnly_bystander false

theorem handleCtl_routed {sender : PeerRecord ν} (htype : frame.type = .ctl) :
    Routed env now sender.name frame st (handleCtl env now st sender frame) := by
  unfold handleCtl
  split
  · exact .of_aloof (sendError_aloof _ _ _)
  · dsimp only
    split
    · exact .of_aloof (refuse_aloof _ _ _)
    · exact .of_aloof (refuse_aloof _ _ _)
    · split
      · exact .of_aloof (sendError_aloof _ _ _)
      · split
        · exact .of_aloof (refuse_aloof _ _ _)
        · split
          · exact .of_aloof (refuse_aloof _ _ _)
          · refine routed_of_take (by simp [chargeOf, htype]) (refuse_aloof _ _ _) ?_
            refine Bystander.trans ?_ (relay_bystander _ _ _)
            exact ⟨rfl, rfl⟩

/-- An acknowledgement of a control is free. -/
theorem handleCtlAck_aloof {sender : PeerRecord ν} :
    Aloof st (handleCtlAck env now st sender frame) := by
  unfold handleCtlAck
  split
  · exact .refl st
  · next replyTo _ =>
      split
      · exact .refl st
      · split
        · exact .refl st
        · split
          · exact .refl st
          · have hforget : Aloof st { st with pendingCtl := st.pendingCtl.delete replyTo } :=
              ⟨⟨rfl, rfl⟩, rfl, rfl⟩
            dsimp only
            split
            · exact hforget
            · exact hforget.trans (relay_aloof rfl fun s => .refl s)

/-! ### Lines -/

/-- The leases are no matter of the buckets. -/
theorem Billed.of_leases {leases : LeaseTable} {ids : Nat}
    (h : Aloof { st with leases, ids } st') : Billed env now name frame st st' :=
  .free h.rates ⟨h.queued, h.metered⟩

/-- Whatever the type of the frame, the line is billed as one. -/
theorem dispatchPeer_billed {sock : SocketId} {peer : PeerRecord ν}
    (h : dispatchPeer env now st sock peer frame = .ok st') :
    Billed env now peer.name frame st st' := by
  unfold dispatchPeer at h
  split at h
  · obtain rfl := Except.ok.inj h
    by_cases hin : inItsRoom peer frame = true
    · exact .of_leases (handleClaim_aloof hin)
    · exact .of_aloof (handleClaim_outside (by simpa using hin))
  · obtain rfl := Except.ok.inj h
    by_cases hin : inItsRoom peer frame = true
    · exact .of_leases (handleRelease_aloof hin)
    · exact .of_aloof (handleRelease_outside (by simpa using hin))
  · obtain rfl := Except.ok.inj h
    exact .of_leases (handleLeaseStatus_aloof peer frame)
  · next htype =>
      obtain rfl := Except.ok.inj h
      exact (routeMsg_routed htype).billed
  · obtain rfl := Except.ok.inj h
    exact .of_aloof (handleReserve_aloof _ frame)
  · next htype =>
      obtain rfl := Except.ok.inj h
      exact (routeReply_routed htype).billed
  · obtain rfl := Except.ok.inj h
    exact .of_aloof routeOnlineOnly_aloof
  · obtain rfl := Except.ok.inj h
    exact .of_aloof routeOnlineOnly_aloof
  · next htype =>
      obtain rfl := Except.ok.inj h
      exact (handleCtl_routed htype).billed
  · obtain rfl := Except.ok.inj h
    exact .of_aloof handleCtlAck_aloof
  · obtain rfl := Except.ok.inj h
    exact .of_aloof (handleActivity_aloof peer frame)
  · obtain rfl := Except.ok.inj h
    exact .of_aloof (sendTo_aloof _ _)
  · obtain rfl := Except.ok.inj h
    exact .of_aloof (sendTo_aloof _ _)
  · exact .of_aloof (handleJoin_aloof h)
  · obtain rfl := Except.ok.inj h
    exact .of_aloof (handleLeave_aloof sock peer frame)
  · obtain rfl := Except.ok.inj h
    exact .of_aloof (sendError_aloof _ _ _)

end Bills

/-! ### Steps -/

/-- Who speaks in a line, and what. -/
def speaker (env : Env) (st : BrokerState ν) : Event → Option (PeerRecord ν × MeshFrame ν)
  | .line sock text =>
      if st.isConnected sock then
        (parseFrameLine env.rt text).toOption.bind fun ms =>
          (castFrame ms).toOption.bind fun f => (authed st sock f).map (·, f)
      else none
  | _ => none

section Steps

variable {env : Env} {now : Int} {st st' : BrokerState ν}

/-- What follows the handler of a frame. -/
theorem handleFrame_end {sock : SocketId} {f : MeshFrame ν}
    (h : handleFrame env now st sock f = .ok st') :
    ∃ s, dispatch env now st sock f = .ok s ∧ Aloof s st' := by
  unfold handleFrame at h
  obtain ⟨s, hs, h⟩ := bind_eq_ok.mp h
  refine ⟨s, hs, ?_⟩
  by_cases hdone : ((authed s sock f).isSome || decide (f.type = .hello)) = true
  · rw [if_pos hdone] at h
    rw [← Except.ok.inj h]
    exact deadline_aloof sock
  · rw [if_neg hdone] at h
    rw [← Except.ok.inj h]
    exact .refl s

theorem handleFrame_billed {sock : SocketId} {f : MeshFrame ν} {a : PeerRecord ν}
    (hauth : authed st sock f = some a) (h : handleFrame env now st sock f = .ok st') :
    Billed env now a.name f st st' := by
  obtain ⟨s, hs, hend⟩ := handleFrame_end h
  refine Billed.before ?_ hend
  unfold dispatch at hs
  rw [hauth] at hs
  dsimp only at hs
  by_cases hhello : f.type = .hello
  · rw [if_pos hhello] at hs
    rw [← Except.ok.inj hs]
    exact .of_aloof (sendError_aloof _ _ _)
  · rw [if_neg hhello] at hs
    have hbilled := dispatchPeer_billed hs
    exact hbilled.after (updatePeer_aloof _)

/-- A line of nobody. -/
theorem handleFrame_aloof {sock : SocketId} {f : MeshFrame ν} (hauth : authed st sock f = none)
    (h : handleFrame env now st sock f = .ok st') : Aloof st st' := by
  obtain ⟨s, hs, hend⟩ := handleFrame_end h
  refine Aloof.trans ?_ hend
  unfold dispatch at hs
  rw [hauth] at hs
  dsimp only at hs
  by_cases hhello : f.type = .hello
  · rw [if_pos hhello] at hs
    exact handleHello_aloof hs
  · rw [if_neg hhello] at hs
    rw [← Except.ok.inj hs]
    exact sendError_aloof _ _ _

theorem handleFrame_of_speaker {e : Event} {a : PeerRecord ν} {f : MeshFrame ν}
    (hspeaks : speaker env st e = some (a, f)) (h : step env now st e = .ok st') :
    ∃ sock, authed st sock f = some a ∧ handleFrame env now st sock f = .ok st' := by
  unfold speaker at hspeaks
  split at hspeaks
  · next sock text =>
      by_cases hconn : st.isConnected sock = true
      · rw [if_pos hconn] at hspeaks
        obtain ⟨ms, hms, hspeaks⟩ := Option.bind_eq_some_iff.mp hspeaks
        obtain ⟨f', hf, hspeaks⟩ := Option.bind_eq_some_iff.mp hspeaks
        obtain ⟨a', hauth, heq⟩ := Option.map_eq_some_iff.mp hspeaks
        obtain ⟨rfl, rfl⟩ := Prod.mk.inj heq
        simp only [step, if_pos hconn, handleLine, toOption_eq_some hms, toOption_eq_some hf] at h
        exact ⟨sock, hauth, h⟩
      · rw [if_neg hconn] at hspeaks
        cases hspeaks
  · cases hspeaks

theorem handleWritten_bystander (i : Nat) (ok : Bool) : Bystander st (handleWritten env now st i ok) := by
  unfold handleWritten
  split
  · split
    · have hsettle : Bystander st (st.settleWrite i (if ok then .ok else .failed)) := ⟨rfl, rfl⟩
      exact hsettle.trans (runCallback_bystander _ ok _)
    · exact .refl st
  · exact .refl st

theorem handleSettled_bystander (g : Nat) : Bystander st (handleSettled env now st g) := by
  unfold handleSettled
  split
  · next gr _ =>
      by_cases hready : gr.waiting = 0 ∧ gr.acked = false
      · rw [if_pos hready]
        have hanswer : Bystander st (st.modifyGroup g Group.answer) := ⟨rfl, rfl⟩
        have hrelayed : ∀ (s : BrokerState ν) n, Bystander s (s.addRelayed n) := fun _ _ => ⟨rfl, rfl⟩
        refine hanswer.trans ?_
        dsimp only
        split
        · split
          · exact (sendAck_aloof _ _ _ _ _ _ _).toBystander
          · exact (sendAck_aloof _ _ _ _ _ _ _).toBystander
        · exact (hrelayed _ _).trans (sendAck_aloof _ _ _ _ _ _ _).toBystander
      · rw [if_neg hready]
        exact .refl st
  · exact .refl st

theorem expireReservations_bystander (p : PeerRecord ν) :
    Bystander st (expireReservations env now st p) := by
  unfold expireReservations
  dsimp only
  have hkept : Bystander st (if st.isCurrent p.toRef then st.updatePeer { p with
      reservations := p.reservations.filter (isCurrentReservation env now) } else st) := by
    split
    · exact (updatePeer_aloof _).toBystander
    · exact .refl st
  split
  · exact hkept.trans (broadcastReservations_aloof _ _).toBystander
  · exact hkept

theorem handleSweep_bystander : Bystander st (handleSweep env now st) := by
  have hsilent : Bystander st (st.silence env now) := by
    unfold BrokerState.silence
    exact Bystander.foldl (fun s (p : PeerRecord ν) => (destroy_aloof p.socket).toBystander) _ st
  have hpruned : Bystander st (pruneStaleKnownAliases now (st.silence env now)) :=
    hsilent.trans ⟨rfl, rfl⟩
  show Bystander st (if env.cfg.reservationTtlMs > 0 then _ else _)
  split
  · exact hpruned.trans (Bystander.foldl (fun s p => expireReservations_bystander p) _ _)
  · exact hpruned

theorem handleClose_bystander (sock : SocketId) : Bystander st (handleClose env now st sock) := by
  unfold handleClose
  have hclosed : Bystander st (st.modifySocket sock fun s =>
      { s with destroyed := true, closed := true, helloTimer := false }) :=
    (modifySocket_aloof sock _).toBystander
  exact hclosed.trans
    (Bystander.foldl (fun s (p : PeerRecord ν) => (closePeer_aloof p.name).toBystander) _ _)

/-- **One step**: a line of a peer is billed to its alias, and any other leaves the buckets and
the leases alone and is not heard. -/
theorem step_billed {e : Event} (h : step env now st e = .ok st') :
    (∃ a f, speaker env st e = some (a, f) ∧ Billed env now a.name f st st') ∨
      (speaker env st e = none ∧ Bystander st st' ∧
        ∀ sock text, e = .line sock text → Unheard st st') := by
  have hother : (∀ sock text, e ≠ .line sock text) → speaker env st e = none →
      Bystander st st' → (∃ a f, speaker env st e = some (a, f) ∧ Billed env now a.name f st st') ∨
        (speaker env st e = none ∧ Bystander st st' ∧
          ∀ sock text, e = .line sock text → Unheard st st') :=
    fun hline hnone hbystander =>
      .inr ⟨hnone, hbystander, fun sock text heq => absurd heq (hline sock text)⟩
  cases e with
  | line sock text =>
      have hquiet : speaker env st (.line sock text) = none → Aloof st st' →
          (∃ a f, speaker env st (.line sock text) = some (a, f) ∧ Billed env now a.name f st st') ∨
            (speaker env st (.line sock text) = none ∧ Bystander st st' ∧
              ∀ sock' text', Event.line sock text = .line sock' text' → Unheard st st') :=
        fun hnone haloof => .inr ⟨hnone, haloof.toBystander, fun _ _ _ => haloof.toUnheard⟩
      by_cases hconn : st.isConnected sock = true
      · simp only [step, if_pos hconn, handleLine] at h
        unfold speaker at hquiet ⊢
        simp only [if_pos hconn] at hquiet ⊢
        cases hparse : (parseFrameLine env.rt text : Except Reject (Members ν)) with
        | error r =>
            rw [hparse] at h hquiet
            obtain rfl := Except.ok.inj h
            exact hquiet rfl (sendError_aloof _ _ _)
        | ok ms =>
            rw [hparse] at h hquiet
            obtain ⟨f, hcast, h⟩ := bind_eq_ok.mp h
            simp only [Except.toOption, Option.bind_some, hcast] at hquiet ⊢
            cases hauth : authed st sock f with
            | some a => exact .inl ⟨a, f, rfl, handleFrame_billed hauth h⟩
            | none =>
                rw [hauth] at hquiet
                exact hquiet rfl (handleFrame_aloof hauth h)
      · simp only [step, if_neg hconn] at h
        obtain rfl := Except.ok.inj h
        exact hquiet (by simp [speaker, hconn]) (.refl st)
  | connect sock tokenRequired remoteAddress =>
      refine hother (by simp) rfl ?_
      simp only [step] at h
      split at h
      · obtain rfl := Except.ok.inj h
        exact .refl st
      · obtain rfl := Except.ok.inj h
        exact ⟨rfl, rfl⟩
  | oversized sock =>
      refine hother (by simp) rfl ?_
      simp only [step] at h
      split at h
      · obtain rfl := Except.ok.inj h
        exact ((sendError_aloof _ _ _).trans (destroy_aloof sock)).toBystander
      · obtain rfl := Except.ok.inj h
        exact .refl st
  | helloTimeout sock =>
      refine hother (by simp) rfl ?_
      simp only [step] at h
      split at h
      · obtain rfl := Except.ok.inj h
        exact (((deadline_aloof sock).trans (sendError_aloof _ _ _)).trans
          (destroy_aloof sock)).toBystander
      · obtain rfl := Except.ok.inj h
        exact .refl st
  | halfClosed sock =>
      obtain rfl := Except.ok.inj h
      exact hother (by simp) rfl (modifySocket_aloof sock _).toBystander
  | lost sock =>
      obtain rfl := Except.ok.inj h
      exact hother (by simp) rfl (destroy_aloof sock).toBystander
  | close sock =>
      refine hother (by simp) rfl ?_
      simp only [step] at h
      split at h
      · obtain rfl := Except.ok.inj h
        exact handleClose_bystander sock
      · obtain rfl := Except.ok.inj h
        exact .refl st
  | written i ok =>
      obtain rfl := Except.ok.inj h
      exact hother (by simp) rfl (handleWritten_bystander i ok)
  | writeTimeout i =>
      refine hother (by simp) rfl ?_
      obtain rfl := Except.ok.inj h
      unfold handleWriteTimeout
      split
      · split
        · exact (destroy_aloof _).toBystander.trans (handleWritten_bystander i false)
        · exact .refl st
      · exact .refl st
  | settled g =>
      obtain rfl := Except.ok.inj h
      exact hother (by simp) rfl (handleSettled_bystander g)
  | sweep =>
      obtain rfl := Except.ok.inj h
      exact hother (by simp) rfl handleSweep_bystander
  | purge =>
      simp only [step] at h
      split at h
      · obtain rfl := Except.ok.inj h
        refine hother (by simp) rfl ?_
        unfold handlePurge
        have hmail : Bystander st (st.setMail (purgeAllExpired st.mail env.cfg now).2) := ⟨rfl, rfl⟩
        exact hmail.trans (notifyDropped_aloof _).toBystander
      · cases h

end Steps

/-! ### Runs -/

/-- The alias and the bucket a step is charged to. -/
def chargedTo (env : Env) (x : BrokerState ν × Int × Event) : Option (String × RateKind) :=
  (speaker env x.1 x.2.2).bind fun s => (chargeOf s.2).map (s.1.name, ·)

/-- A step in which a message, a reply or a control is written to a peer or stored. -/
def isHeard (env : Env) (x : BrokerState ν × Int × Event) : Bool :=
  match step env x.2.1 x.1 x.2.2 with
  | .ok st' => decide (st'.queued.length ≠ x.1.queued.length) ||
      decide ((metered st'.writes).length ≠ (metered x.1.writes).length)
  | .error _ => false

/-- What an alias is heard with, charged to one bucket. -/
def heardAs (env : Env) (name : String) (kind : RateKind) (x : BrokerState ν × Int × Event) : Bool :=
  chargedTo env x == some (name, kind) && isHeard env x

/-- What an alias is heard with. -/
def heardFrom (env : Env) (name : String) (x : BrokerState ν × Int × Event) : Bool :=
  (chargedTo env x).any (fun c => c.1 = name) && isHeard env x

/-- The calls of `checkRate` a run makes after these: one for a step, or none. -/
inductive Bills (env : Env) : List RateCall → BrokerTrace ν → List RateCall → Prop
  | nil {calls : List RateCall} : Bills env calls [] []
  | free {calls cs : List RateCall} {x : BrokerState ν × Int × Event} {tr : BrokerTrace ν}
      (hnone : (chargedTo env x).isSome = true → isHeard env x = false)
      (h : Bills env calls tr cs) : Bills env calls (x :: tr) cs
  | billed {calls cs : List RateCall} {x : BrokerState ν × Int × Event} {tr : BrokerTrace ν}
      (c : RateCall) (hcharge : chargedTo env x = some (c.name, c.kind)) (hnow : c.now = x.2.1)
      (hheard : isHeard env x = true → accepts env.policy.rateLimits calls c = true)
      (h : Bills env (calls ++ [c]) tr cs) : Bills env calls (x :: tr) (c :: cs)

section Runs

variable {env : Env} {epoch : Int} {tr before window : BrokerTrace ν} {st st' : BrokerState ν}
  {calls cs : List RateCall} {name : String} {kind : RateKind}

theorem not_heard_of_unheard {x : BrokerState ν × Int × Event} (hstep : BrokerStep env x.1 x.2 st')
    (h : Unheard x.1 st') : isHeard env x = false := by
  unfold isHeard
  rw [show step env x.2.1 x.1 x.2.2 = .ok st' from hstep]
  simp [h.queued, h.metered]

/-- A line that is nobody's is not heard. -/
theorem charged_of_heard {x : BrokerState ν × Int × Event} (hstep : BrokerStep env x.1 x.2 st')
    {sock : SocketId} {text : List Char} (hline : x.2.2 = .line sock text)
    (hheard : isHeard env x = true) : (chargedTo env x).isSome = true := by
  rcases step_billed hstep with ⟨a, f, hspeaks, hbilled⟩ | ⟨-, -, hquiet⟩
  · cases hbilled with
    | free _ hnone =>
        rw [not_heard_of_unheard hstep hnone] at hheard
        cases hheard
    | billed kind hkind =>
        unfold chargedTo
        rw [hspeaks]
        simp [hkind]
  · rw [not_heard_of_unheard hstep (hquiet sock text hline)] at hheard
    cases hheard

/-- **The bills of a run.** -/
theorem bills_of_run (hrun : Run (BrokerStep env) st tr st')
    (hrates : st.rates = ratesAfter env.policy.rateLimits calls) :
    ∃ cs, Bills env calls tr cs ∧ st'.rates = ratesAfter env.policy.rateLimits (calls ++ cs) := by
  induction tr generalizing st calls with
  | nil =>
      rw [hrun.eq_of_nil]
      exact ⟨[], .nil, by rw [List.append_nil]; exact hrates⟩
  | cons x rest ih =>
      obtain ⟨hx, s, hstep, hrest⟩ := hrun.head
      subst hx
      have hfree : s.rates = x.1.rates → ((chargedTo env x).isSome = true → isHeard env x = false) →
          ∃ cs, Bills env calls (x :: rest) cs ∧
            st'.rates = ratesAfter env.policy.rateLimits (calls ++ cs) := by
        intro hsame hnone
        obtain ⟨cs, hbills, hend⟩ := ih hrest (hsame.trans hrates)
        exact ⟨cs, .free hnone hbills, hend⟩
      rcases step_billed hstep with ⟨a, f, hspeaks, hbilled⟩ | ⟨hspeaks, hbystander, -⟩
      · cases hbilled with
        | free hsame hnone => exact hfree hsame fun _ => not_heard_of_unheard hstep hnone
        | billed kind hkind hcall hrefused =>
            let c : RateCall := ⟨a.name, kind, x.2.1, x.2.1⟩
            have hnext : s.rates = ratesAfter env.policy.rateLimits (calls ++ [c]) := by
              rw [ratesAfter_snoc, hcall, hrates]
            obtain ⟨cs, hbills, hend⟩ := ih hrest hnext
            refine ⟨c :: cs, .billed c ?_ rfl ?_ hbills, ?_⟩
            · unfold chargedTo
              rw [hspeaks]
              simp [hkind, c]
            · intro hheard
              by_contra hno
              have hdenied : (checkRate x.1.rates a.name kind env.policy.rateLimits x.2.1 x.2.1).1 =
                  false := by
                rw [hrates]
                simpa [accepts, c] using hno
              rw [not_heard_of_unheard hstep (hrefused hdenied)] at hheard
              cases hheard
            · rw [hend, List.append_assoc]
              rfl
      · refine hfree hbystander.rates ?_
        intro hcharged
        unfold chargedTo at hcharged
        rw [hspeaks] at hcharged
        cases hcharged

/-- Each step in which an alias is heard has a call that was accepted. -/
theorem heardAs_le (h : Bills env calls window cs) (name : String) (kind : RateKind) :
    window.countP (heardAs env name kind) ≤
      (acceptedIn env.policy.rateLimits calls cs).countP (fun c => c.name = name ∧ c.kind = kind) := by
  induction h with
  | nil => exact Nat.le_refl _
  | @free calls cs x tr hnone h ih =>
      rw [List.countP_cons_of_neg]
      · exact ih
      · unfold heardAs
        intro hheard
        obtain ⟨hcharge, hheard⟩ := Bool.and_eq_true_iff.mp hheard
        rw [hnone (by rw [beq_iff_eq.mp hcharge]; rfl)] at hheard
        cases hheard
  | @billed calls cs x tr c hcharge hnow hheard h ih =>
      unfold acceptedIn
      by_cases hyes : heardAs env name kind x = true
      · obtain ⟨hwho, hh⟩ := Bool.and_eq_true_iff.mp hyes
        rw [hcharge, beq_iff_eq] at hwho
        obtain ⟨rfl, rfl⟩ := Prod.mk.inj (Option.some.inj hwho)
        rw [List.countP_cons_of_pos hyes, if_pos (hheard hh), List.countP_cons_of_pos (by simp)]
        omega
      · rw [List.countP_cons_of_neg hyes]
        split
        · exact ih.trans (List.sublist_cons_self _ _).countP_le
        · exact ih

theorem heardFrom_le (h : Bills env calls window cs) (name : String) :
    window.countP (heardFrom env name) ≤
      (acceptedIn env.policy.rateLimits calls cs).countP (fun c => c.name = name) := by
  induction h with
  | nil => exact Nat.le_refl _
  | @free calls cs x tr hnone h ih =>
      rw [List.countP_cons_of_neg]
      · exact ih
      · unfold heardFrom
        intro hheard
        obtain ⟨hcharge, hheard⟩ := Bool.and_eq_true_iff.mp hheard
        obtain ⟨c, hc, -⟩ := (Option.any_eq_true _ _).mp hcharge
        rw [hnone (by rw [hc]; rfl)] at hheard
        cases hheard
  | @billed calls cs x tr c hcharge hnow hheard h ih =>
      unfold acceptedIn
      by_cases hyes : heardFrom env name x = true
      · obtain ⟨hwho, hh⟩ := Bool.and_eq_true_iff.mp hyes
        rw [hcharge, Option.any_some, decide_eq_true_iff] at hwho
        obtain rfl : c.name = name := hwho
        rw [List.countP_cons_of_pos hyes, if_pos (hheard hh), List.countP_cons_of_pos (by simp)]
        omega
      · rw [List.countP_cons_of_neg hyes]
        split
        · exact ih.trans (List.sublist_cons_self _ _).countP_le
        · exact ih

/-- The calls of a window are made within its readings of the clock. -/
theorem now_of_bills (h : Bills env calls window cs) {lo hi : Int}
    (hclock : ∀ x ∈ window, lo ≤ x.2.1 ∧ x.2.1 ≤ hi) : ∀ c ∈ cs, lo ≤ c.now ∧ c.now ≤ hi := by
  induction h with
  | nil => exact fun _ hc => absurd hc List.not_mem_nil
  | free _ _ ih => exact ih fun x hx => hclock x (List.mem_cons_of_mem _ hx)
  | billed c _ hnow _ _ ih =>
      rw [List.forall_mem_cons, hnow]
      exact ⟨hclock _ List.mem_cons_self, ih fun x hx => hclock x (List.mem_cons_of_mem _ hx)⟩

theorem le_latest (t : Int) (l : List RateCall) : t ≤ latest t l := by
  induction l generalizing t with
  | nil => exact le_refl t
  | cons c rest ih => exact (le_max_left t c.now).trans (ih (max t c.now))

theorem latest_le_max {t hi : Int} {l : List RateCall} (h : ∀ c ∈ l, c.now ≤ hi) :
    latest t l ≤ max t hi := by
  induction l generalizing t with
  | nil => exact le_max_left t hi
  | cons c rest ih =>
      rw [List.forall_mem_cons] at h
      refine (ih h.2 : latest (max t c.now) rest ≤ _).trans ?_
      exact max_le (max_le (le_max_left t hi) (h.1.trans (le_max_right t hi))) (le_max_right t hi)

/-- What a window takes from a bucket, by the time between its ends. -/
theorem drawn_between {limits : RateLimits} (h : limits.Positive) (calls : List RateCall)
    (name : String) (kind : RateKind) {lo hi : Int} (hle : lo ≤ hi)
    (hclock : ∀ c ∈ cs, lo ≤ c.now ∧ c.now ≤ hi) :
    ((visitsOf limits name kind calls cs).countP Prod.snd : ℚ) ≤
      limits.capacity kind * (1 + (hi - lo) / rateBucketWindowMs) := by
  have hcap := (h.capacity kind).le
  have hwindow : (0 : ℚ) < rateBucketWindowMs := by
    show (0 : ℚ) < ((60000 : Int) : ℚ)
    norm_num
  induction cs generalizing calls with
  | nil =>
      have hspan : (0 : ℚ) ≤ (hi - lo) / rateBucketWindowMs := by
        refine div_nonneg ?_ hwindow.le
        exact_mod_cast sub_nonneg.mpr hle
      have hbound := mul_nonneg hcap (by linarith : (0 : ℚ) ≤ 1 + (hi - lo) / rateBucketWindowMs)
      simpa [visitsOf] using hbound
  | cons c rest ih =>
      rw [List.forall_mem_cons] at hclock
      by_cases hn : c.name = name
      · subst hn
        refine (drawn_le h calls c rest kind).trans (mul_le_mul_of_nonneg_left ?_ hcap)
        have hstart := le_latest c.now (callsOf c.name calls)
        have hgrow : latest (latest c.now (callsOf c.name calls)) (callsOf c.name rest) ≤
            max (latest c.now (callsOf c.name calls)) hi :=
          latest_le_max fun x hx => (hclock.2 x (List.mem_filter.mp hx).1).2
        have hspan : advance calls c rest ≤ hi - lo := by
          unfold advance
          have hlo := hclock.1.1
          omega
        have hcast : (advance calls c rest : ℚ) ≤ hi - lo := by exact_mod_cast hspan
        have hshare := div_le_div_of_nonneg_right hcast hwindow.le
        linarith
      · have hskip : visitsOf limits name kind calls (c :: rest) =
            visitsOf limits name kind (calls ++ [c]) rest := if_neg hn
        rw [hskip]
        exact ih (calls ++ [c]) hclock.2

/-- **An alias is heard no more often than its buckets allow**: between two readings of the clock,
in the whole of a run and over all its connections, the lines of which a message, a reply or a
control is written to a peer or stored are at most the capacity of their bucket and what that
gains in the time, and at most what the bucket of the messages allows all together; and of a line
that is charged to nobody none of these is. -/
theorem messages_throttled (h : env.policy.rateLimits.Positive)
    (hrun : Run (BrokerStep env) (BrokerState.init epoch) (before ++ window) st) (name : String)
    {lo hi : Int} (hle : lo ≤ hi) (hclock : ∀ x ∈ window, lo ≤ x.2.1 ∧ x.2.1 ≤ hi) :
    (∀ kind, (window.countP (heardAs env name kind) : ℚ) ≤
      env.policy.rateLimits.capacity kind * (1 + (hi - lo) / rateBucketWindowMs)) ∧
    (window.countP (heardFrom env name) : ℚ) ≤
      env.policy.rateLimits.capacity .msg * (1 + (hi - lo) / rateBucketWindowMs) ∧
    ∀ x ∈ window, ∀ sock text, x.2.2 = .line sock text → chargedTo env x = none →
      isHeard env x = false := by
  obtain ⟨s, hleft, hright⟩ := hrun.split
  have hempty : (BrokerState.init epoch : BrokerState ν).rates =
      ratesAfter env.policy.rateLimits [] := rfl
  obtain ⟨calls, -, hrates⟩ := bills_of_run hleft hempty
  obtain ⟨cs, hbills, -⟩ := bills_of_run hright hrates
  have hnow := now_of_bills hbills hclock
  refine ⟨?_, ?_, ?_⟩
  · intro kind
    refine le_trans ?_ (drawn_between h ([] ++ calls) name kind hle hnow)
    exact_mod_cast (heardAs_le hbills name kind).trans (acceptedIn_le _ _ _ _ _)
  · refine le_trans ?_ (drawn_between h ([] ++ calls) name .msg hle hnow)
    exact_mod_cast (heardFrom_le hbills name).trans (accepted_together_le _ _ _ _)
  · intro x hx sock text hline hnone
    obtain ⟨tr₁, tr₂, htr, hreached⟩ := hright.of_mem hx
    rw [htr] at hright
    obtain ⟨s₁, -, hrest⟩ := hright.split
    obtain ⟨hx₁, s₂, hstep, -⟩ := hrest.head
    by_contra hheard
    have hcharged := charged_of_heard hstep hline (by simpa using hheard)
    rw [hnone] at hcharged
    cases hcharged

end Runs

/-- A limit of one message a minute. -/
def oneAMinute : MeshPolicy :=
  { rateLimits := { msgPerMin := 1, urgentPerMin := 1, forcePerMin := 1 } }

/-- Alice writes to bob twice in a second, coming back on a new connection in between. -/
def aliceInsists : List (Int × Event) :=
  let line (id : String) := frameLine .msg id "alice"
    [("to", .str "bob"), ("room", .str "default"), ("body", .str "hi")]
  [(1000, .connect 0 false none), (1001, .line 0 (frameLine .hello "m_1" "bob" [])),
    (1002, .connect 1 false none), (1003, .line 1 (frameLine .hello "m_2" "alice" [])),
    (1004, .line 1 (line "m_3")), (1005, .lost 1), (1006, .close 1),
    (1007, .connect 2 false none), (1008, .line 2 (frameLine .hello "m_4" "alice" [])),
    (1009, .line 2 (line "m_5"))]

theorem messages_throttled_insists : ∃ (tr : BrokerTrace Int) (st : BrokerState Int),
    Run (BrokerStep (referenceEnv oneAMinute)) (BrokerState.init 1) tr st ∧
    tr.map Prod.snd = aliceInsists ∧
    tr.countP (heardFrom (referenceEnv oneAMinute) "alice") = 1 ∧
    (tr.countP (heardFrom (referenceEnv oneAMinute) "alice") : ℚ) ≤
      (referenceEnv oneAMinute).policy.rateLimits.capacity .msg *
        (1 + ((1009 : Int) - (1000 : Int)) / rateBucketWindowMs) := by
  have h : ((runBroker (referenceEnv oneAMinute) aliceInsists).any fun r =>
      (r.1.all fun x => decide (1000 ≤ x.2.1 ∧ x.2.1 ≤ 1009)) &&
        r.1.countP (heardFrom (referenceEnv oneAMinute) "alice") == 1) = true := by decide +kernel
  obtain ⟨tr, st, hrun, htr, hcheck⟩ := exists_run h
  simp only [Bool.and_eq_true, List.all_eq_true, beq_iff_eq] at hcheck
  obtain ⟨hclock, hone⟩ := hcheck
  have hpositive : (referenceEnv oneAMinute).policy.rateLimits.Positive :=
    ⟨by decide, by decide, by decide⟩
  refine ⟨tr, st, hrun, htr, hone, ?_⟩
  exact (messages_throttled hpositive (show Run _ _ ([] ++ tr) st from hrun) "alice"
    (by decide : (1000 : Int) ≤ 1009) fun x hx => of_decide_eq_true (hclock x hx)).2.1

end PiMesh
