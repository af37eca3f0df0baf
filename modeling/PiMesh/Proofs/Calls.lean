/-
What a step does to calls.

A call that waits for an acknowledgement goes on when it is there and not before, a result
stays as it is, and a call that has returned never comes back.  The frame of a round trip
that waits for the connection is the one its call is about.
-/
import PiMesh.Proofs.Waits

namespace PiMesh

open Js Transition

variable {ν : Type} [Number ν]

/-- A call that waits for an acknowledgement goes on when it is there and not before; a frame
that waits for the connection is the one its call is about. -/
structure CallsKeep (e : ClientEvent ν) (st st' : ClientState ν) : Prop where
  stays : ∀ c s, st.calls.get? c = some s → st'.calls.get? c = some s ∨ s.ackId = none ∨
    e = .microtask ∧ ∃ ack rest, st.jobs = .acked c ack :: rest
  came : ∀ c s, st'.calls.get? c = some s → st.calls.get? c = some s ∨
    ∀ use frame, s = .tripConnect use frame → use.fits frame
  results : ∀ c r, st.results.get? c = some r → st'.results.get? c = some r

/-- The calls and the results are as they were. -/
def SameCalls (st st' : ClientState ν) : Prop := st'.calls = st.calls ∧ st'.results = st.results

/-- A call may move: it waits for no acknowledgement, or it has its own. -/
def MayMove (e : ClientEvent ν) (st : ClientState ν) (c : CallId) : Prop :=
  ∀ s, st.calls.get? c = some s → s.ackId = none ∨
    e = .microtask ∧ ∃ ack rest, st.jobs = .acked c ack :: rest

section Step

variable {env : ClientEnv} {now : Int} {e : ClientEvent ν} {st st₁ st' : ClientState ν} {c : CallId}

theorem SameCalls.trans {st'' : ClientState ν} (h : SameCalls st st') (h' : SameCalls st' st'') :
    SameCalls st st'' := ⟨h'.1.trans h.1, h'.2.trans h.2⟩

theorem Booked.sameCalls (h : Booked st st') : SameCalls st st' := ⟨h.calls, h.results⟩

namespace CallsKeep

theorem of_same (h : SameCalls st st') : CallsKeep e st st' := by
  refine ⟨?_, ?_, ?_⟩
  · intro c s hs
    rw [h.1]
    exact .inl hs
  · intro c s hs
    rw [h.1] at hs
    exact .inl hs
  · intro c r hr
    rw [h.2]
    exact hr

theorem finish (h : CallsKeep e st st') (hc : MayMove e st c) (r : CallResult ν) :
    CallsKeep e st (st'.finish c r) := by
  have hcalls : ∀ c', (st'.finish c r).calls.get? c' = if c' = c then none else st'.calls.get? c' :=
    fun c' => Map.get?_delete _ _ _
  refine ⟨?_, ?_, fun c' r' hr' => finish_keeps_results st' c r (h.results c' r' hr')⟩
  · intro c' s hs
    rw [hcalls]
    by_cases heq : c' = c
    · rw [heq] at hs ⊢
      exact .inr (hc s hs)
    · rw [if_neg heq]
      exact h.stays c' s hs
  · intro c' s hs
    rw [hcalls] at hs
    split at hs
    · cases hs
    · exact h.came c' s hs

theorem setStage {s : Stage} (h : CallsKeep e st st') (hc : MayMove e st c)
    (hs : ∀ use frame, s = .tripConnect use frame → use.fits frame) :
    CallsKeep e st (st'.setStage c s) := by
  have hcalls : ∀ c', (st'.setStage c s).calls.get? c' =
      if c' = c then some s else st'.calls.get? c' := fun c' => Map.get?_set _ _ _ _
  refine ⟨?_, ?_, h.results⟩
  · intro c' s' hs'
    rw [hcalls]
    by_cases heq : c' = c
    · rw [heq] at hs' ⊢
      exact .inr (hc s' hs')
    · rw [if_neg heq]
      exact h.stays c' s' hs'
  · intro c' s' hs'
    rw [hcalls] at hs'
    split at hs'
    · obtain rfl := Option.some.inj hs'
      exact .inr hs
    · exact h.came c' s' hs'

theorem after {st'' : ClientState ν} (h : CallsKeep e st st') (hsame : SameCalls st' st'') :
    CallsKeep e st st'' := by
  refine ⟨?_, ?_, ?_⟩
  · rw [hsame.1]
    exact h.stays
  · rw [hsame.1]
    exact h.came
  · rw [hsame.2]
    exact h.results

end CallsKeep

/-- A call with another stage than these may move. -/
theorem mayMove_of_stage {s : Stage} (hs : st.calls.get? c = some s) (hid : s.ackId = none) :
    MayMove e st c := by
  intro s' hs'
  rw [hs] at hs'
  obtain rfl := Option.some.inj hs'
  exact .inl hid

/-- A new call, or one that has waited for the connection. -/
theorem Enters.mayMove (h : Enters st c e st₁) : MayMove e st c ∧ SameCalls st st₁ := by
  cases h with
  | calls hnew =>
      simp only [isNewCall, Bool.and_eq_true, Bool.not_eq_true'] at hnew
      refine ⟨?_, rfl, rfl⟩
      intro s hs
      simp [Map.has, hs] at hnew
  | resumes hjobs hj hstage hs =>
      rename_i s
      refine ⟨mayMove_of_stage hstage ?_, rfl, rfl⟩
      cases s with
      | sendAck | replyAck | tripAck => cases hs
      | _ => rfl

theorem newCall_mayMove (hnew : isNewCall st c = true) : MayMove e st c := by
  intro s hs
  simp [isNewCall, Map.has, hs] at hnew

theorem status_mayMove {id : String} (h : Waits env.rt st.desk)
    (hw : st.statusWaiters.get? id = some c) : MayMove e st c := by
  intro s hs
  rcases h.status id c hw with ⟨id', hs'⟩ | hr
  · rw [show st.desk.calls.get? c = some s from hs] at hs'
    rw [Option.some.inj hs']
    exact .inl rfl
  · exact absurd hr (not_has_of_none (h.apart c s hs))

theorem issue_calls {frame : ClientFrame} {s : Stage} {r : CallResult ν} (hsame : SameCalls st st₁)
    (hc : MayMove e st c) (hs : ∀ use frame, s ≠ .tripConnect use frame) :
    CallsKeep e st (match writeOrQueue env st₁ frame with
      | some st => st.setStage c s
      | none => st₁.finish c r) := by
  split
  · next st' hw =>
    obtain ⟨outbox, sent, rfl⟩ := writeOrQueue_eq hw
    have hsame : CallsKeep e st { st₁ with outbox, sent } := .of_same hsame
    exact hsame.setStage hc fun use frame heq => absurd heq (hs use frame)
  · exact (CallsKeep.of_same hsame).finish hc r

theorem written_calls (env : ClientEnv) (st : ClientState ν) (frame : ClientFrame) :
    SameCalls st ((writeOrQueue env st frame).getD st) := by
  cases hw : writeOrQueue env st frame with
  | none => exact ⟨rfl, rfl⟩
  | some st' =>
      obtain ⟨outbox, sent, rfl⟩ := writeOrQueue_eq hw
      exact ⟨rfl, rfl⟩

theorem sendRemind_calls (env : ClientEnv) (now : Int) (st : ClientState ν) (msgId : String) :
    SameCalls st (sendRemind env now st msgId) := by
  unfold sendRemind
  split
  · exact ⟨rfl, rfl⟩
  · split
    · exact ⟨rfl, rfl⟩
    · exact written_calls env st _

theorem endWaitAll_calls (start : Int) (targets : List String) (status : WaitAllStatus)
    (hsame : SameCalls st st₁) (hc : MayMove e st c) :
    CallsKeep e st (endWaitAll env now st₁ c start targets status) := by
  refine CallsKeep.finish ?_ hc _
  exact .of_same hsame

theorem tickWaitAll_calls (start deadline : Int) (targets : List String) (signal : Bool)
    (hsame : SameCalls st st₁) (hc : MayMove e st c) :
    CallsKeep e st (tickWaitAll env now st₁ c start deadline targets signal) := by
  unfold tickWaitAll
  split
  · exact endWaitAll_calls _ _ _ hsame hc
  · split
    · exact endWaitAll_calls _ _ _ hsame hc
    · exact (CallsKeep.of_same hsame).setStage hc (by simp)

theorem onStatus_calls (frame : Inbound ν) (hsame : SameCalls st st₁)
    (hc : ∀ c, st₁.statusWaiters.get? frame.id = some c → MayMove e st c) :
    CallsKeep e st (onStatus st₁ frame) := by
  unfold onStatus
  split
  · next c hw =>
    have hsame : CallsKeep e st { st₁ with statusWaiters := st₁.statusWaiters.delete frame.id } :=
      .of_same hsame
    exact hsame.finish (hc c hw) _
  · exact .of_same hsame

theorem onFrame_calls (frame : Inbound ν) (h : Waits env.rt st.desk) (hsame : SameCalls st st₁)
    (hstatus : st₁.statusWaiters = st.statusWaiters) :
    CallsKeep e st (onFrame env now st₁ frame) := by
  have hc : ∀ c, st₁.statusWaiters.get? frame.id = some c → MayMove e st c := by
    intro c hw
    rw [hstatus] at hw
    exact status_mayMove h hw
  by_cases hack : frame.type = .ack
  · rw [onFrame, hack]
    show CallsKeep e st (onAck st₁ frame)
    unfold onAck
    split
    · exact .of_same hsame
    · split
      · refine .of_same (hsame.trans ?_)
        exact ((setPending_booked st₁ _).trans (setMission_booked _ frame.id _)).sameCalls
      · exact .of_same hsame
  · by_cases hres : frame.type = .statusRes
    · rw [onFrame, hres]
      exact onStatus_calls frame hsame hc
    · by_cases herror : frame.type = .error
      · rw [onFrame, herror]
        show CallsKeep e st (onError st₁ frame)
        unfold onError
        dsimp only
        split
        · exact onStatus_calls frame hsame hc
        · exact onStatus_calls frame hsame hc
      · exact .of_same (hsame.trans (onFrame_booked env now st₁ frame hack hres herror).sameCalls)

theorem handleAcked_calls {ack : Ack} {rest : List (Job ν)} (hjobs : st.jobs = .acked c ack :: rest) :
    CallsKeep .microtask st (handleAcked st.pop c ack) := by
  have hc : MayMove .microtask st c := fun s _ => .inr ⟨rfl, ack, rest, hjobs⟩
  have hpop : CallsKeep .microtask st st.pop := .of_same ⟨rfl, rfl⟩
  have hfinish : ∀ (st' : ClientState ν) r, SameCalls st st' →
      CallsKeep .microtask st (st'.finish c r) :=
    fun st' r hsame => (CallsKeep.of_same hsame).finish hc r
  unfold handleAcked
  split
  · next plan id hs =>
    unfold sendAcked
    split
    · dsimp only
      split
      · exact hfinish _ _ (failMission_booked st.pop id _).sameCalls
      · exact hfinish _ _ ⟨rfl, rfl⟩
    · split
      · exact hfinish _ _ ⟨rfl, rfl⟩
      · split
        · exact hfinish _ _ (watch_booked st.pop id _).sameCalls
        · extract_lets st₁
          have hst₁ : SameCalls st st₁ := by
            show SameCalls st (if _ then _ else _)
            split
            · exact (setPending_booked _ _).sameCalls
            · exact ⟨rfl, rfl⟩
          exact ((CallsKeep.of_same hst₁).setStage hc (by simp)).after (watch_booked _ id _).sameCalls
  · unfold replyAcked
    split
    · exact hfinish _ _ ⟨rfl, rfl⟩
    · split
      · exact hfinish _ _ ⟨rfl, rfl⟩
      · exact hfinish _ _ ⟨rfl, rfl⟩
  · unfold tripAcked
    split
    · split
      · exact hfinish _ _ ⟨rfl, rfl⟩
      · exact hfinish _ _ ⟨rfl, rfl⟩
    · split
      · exact hfinish _ _ ⟨rfl, rfl⟩
      · exact hfinish _ _ ⟨rfl, rfl⟩
    · split
      · exact hfinish _ _ ⟨rfl, rfl⟩
      · exact hfinish _ _ ⟨rfl, rfl⟩
    · split
      · dsimp only
        split
        · exact hfinish _ _ ⟨rfl, rfl⟩
        · exact hfinish _ _ ⟨rfl, rfl⟩
      · exact hfinish _ _ ⟨rfl, rfl⟩
  · exact hpop

theorem handleResolved_calls (w : Watcher) (id : String) (r : Resolution ν)
    (hsame : SameCalls st st₁) : CallsKeep e st (handleResolved st₁ w id r) := by
  unfold handleResolved
  split
  · exact .of_same (hsame.trans (launchResolved_booked st₁ id r).sameCalls)
  · split
    · rename_i c _ plan id' hs
      rw [hsame.1] at hs
      have hc : MayMove e st c := mayMove_of_stage hs rfl
      have hfinish : ∀ (st' : ClientState ν) r, SameCalls st st' →
          CallsKeep e st (st'.finish c r) := fun st' r hsame => (CallsKeep.of_same hsame).finish hc r
      unfold sendResolved
      dsimp only
      split
      · exact hfinish _ _ hsame
      · exact hfinish _ _ (hsame.trans (expireMission_booked (st₁.dropTarget id) id).sameCalls)
      · exact hfinish _ _ hsame
      · exact hfinish _ _ hsame
    · exact .of_same hsame

theorem loseRequests_calls (h : Waits env.rt st.desk) : CallsKeep e st (loseRequests st) := by
  have hfold : ∀ (cs : List CallId) (st' : ClientState ν), CallsKeep e st st' →
      (∀ c ∈ cs, MayMove e st c) →
      CallsKeep e st (cs.foldl (fun st c => st.finish c (.snapshot [] [] none)) st') := by
    intro cs
    induction cs with
    | nil =>
        intro st' hk _
        exact hk
    | cons c rest ih =>
        intro st' hk hcs
        exact ih _ (hk.finish (hcs c (List.mem_cons_self ..)) _)
          fun c' hc' => hcs c' (List.mem_cons_of_mem _ hc')
  have hdone := hfold st.statusWaiters.values
    (st.push (st.ackWaiters.values.map fun c =>
      .acked c { code := some (some .internal), status := some "connection_lost" })) (.of_same ⟨rfl, rfl⟩) (by
      intro c hc
      obtain ⟨id, hid⟩ := (Map.mem_values_iff _ _).mp hc
      exact status_mayMove h hid)
  exact hdone.after ⟨rfl, rfl⟩

/-- What an act does to the calls. -/
theorem act_calls (h : Waits env.rt st.desk) (hact : DeskAct env now st e st') : CallsKeep e st st' := by
  have hnone : ∀ s : Stage, s.isWait = true → (∀ use frame, s ≠ .tripConnect use frame) →
      ∀ use frame, s = .tripConnect use frame → use.fits frame :=
    fun s _ hnot use frame heq => absurd heq (hnot use frame)
  cases hact with
  | rest => exact .of_same ⟨rfl, rfl⟩
  | hello => exact .of_same ⟨rfl, rfl⟩
  | mute => exact .of_same ⟨rfl, rfl⟩
  | beat =>
      unfold handleHeartbeat
      split
      · split
        · exact .of_same ⟨rfl, rfl⟩
        · exact .of_same ⟨rfl, rfl⟩
      · exact .of_same ⟨rfl, rfl⟩
  | refuse hnew hr => exact (CallsKeep.of_same ⟨rfl, rfl⟩).finish (newCall_mayMove hnew) _
  | giveUp hjobs hj hstage hr =>
      rename_i c j rest s r
      have hpop : CallsKeep .microtask st st.pop := .of_same ⟨rfl, rfl⟩
      refine hpop.finish (mayMove_of_stage hstage ?_) _
      cases s with
      | sendAck | replyAck | tripAck => cases hr
      | _ => rfl
  | wait hnew hs hnot => exact (CallsKeep.of_same ⟨rfl, rfl⟩).setStage (newCall_mayMove hnew) (hnone _ hs hnot)
  | waitTrip henters hid hfits =>
      obtain ⟨hc, hsame⟩ := henters.mayMove
      refine CallsKeep.setStage (.of_same hsame) hc ?_
      intro use frame heq
      cases heq
      exact hfits
  | send henters hplan =>
      obtain ⟨hc, hsame⟩ := henters.mayMove
      rename_i c st₁ plan
      unfold issueSend
      extract_lets frame st₂ st₃ st₄
      have hst₃ : SameCalls st st₃ := by
        show SameCalls st (if plan.awaitReply then registerMission st₂ now plan frame.id else st₂)
        split
        · exact hsame.trans (registerMission_booked now st₂ plan frame.id).sameCalls
        · exact hsame
      exact issue_calls hst₃ hc (by simp)
  | reply henters =>
      obtain ⟨hc, hsame⟩ := henters.mayMove
      unfold issueReply
      split
      · exact (CallsKeep.of_same hsame).finish hc _
      · exact issue_calls hsame hc (by simp)
  | trip henters hready =>
      obtain ⟨hc, hsame⟩ := henters.mayMove
      rcases hready with ⟨rfl, -, -⟩ | ⟨rfl, -⟩
      · exact issue_calls hsame hc (by simp)
      · exact issue_calls hsame hc (by simp)
  | tripFailed henters hready =>
      obtain ⟨hc, hsame⟩ := henters.mayMove
      rcases hready with ⟨rfl, -, -⟩ | ⟨rfl, -⟩
      · exact (CallsKeep.setStage (.of_same hsame) hc (by simp)).after ⟨rfl, rfl⟩
      · exact (CallsKeep.setStage (.of_same hsame) hc (by simp)).after ⟨rfl, rfl⟩
  | status hnew hon =>
      unfold startStatus
      split
      · exact (CallsKeep.of_same ⟨rfl, rfl⟩).finish (newCall_mayMove hnew) _
      · exact issue_calls ⟨rfl, rfl⟩ (newCall_mayMove hnew) (by simp)
  | detach henters hde =>
      obtain ⟨hc, hsame⟩ := henters.mayMove
      exact (CallsKeep.setStage (.of_same hsame) hc (by simp)).after (setPending_booked _ _).sameCalls
  | closing hnew =>
      exact CallsKeep.setStage (.of_same (setPending_booked st _).sameCalls) (newCall_mayMove hnew) (by simp)
  | close hnew =>
      exact CallsKeep.finish (.of_same (setPending_booked st _).sameCalls) (newCall_mayMove hnew) _
  | waitAll hnew =>
      unfold startWaitAll
      dsimp only
      split
      · exact endWaitAll_calls _ _ _ ⟨rfl, rfl⟩ (newCall_mayMove hnew)
      · exact tickWaitAll_calls _ _ _ _ ⟨rfl, rfl⟩ (newCall_mayMove hnew)
  | cancelAll hnew =>
      exact CallsKeep.finish (.of_same (cancelAllAwaited_booked st).sameCalls) (newCall_mayMove hnew) _
  | notice hnew hframe =>
      refine CallsKeep.finish ?_ (newCall_mayMove hnew) _
      refine .of_same ?_
      unfold sendNotice
      split
      · show SameCalls st.useId _
        exact written_calls env st.useId _
      · exact ⟨rfl, rfl⟩
  | abort =>
      unfold handleAbort
      dsimp only
      split
      · split
        · exact .of_same (setPending_booked _ _).sameCalls
        · exact .of_same ⟨rfl, rfl⟩
      · next hs =>
        have hs : st.calls.get? _ = some _ := hs
        exact endWaitAll_calls _ _ _ ⟨rfl, rfl⟩ (mayMove_of_stage hs rfl)
      · exact .of_same ⟨rfl, rfl⟩
  | acked hjobs => exact handleAcked_calls hjobs
  | resolved hjobs => exact handleResolved_calls _ _ _ ⟨rfl, rfl⟩
  | lost hloses => exact loseRequests_calls h
  | flush hjobs =>
      obtain ⟨outbox, sent, heq⟩ := flushFrames_eq env (min st.outbox.length outboxFlushCap) st
      show CallsKeep _ st (flushFrames env _ st).1
      rw [heq]
      exact .of_same ⟨rfl, rfl⟩
  | line hread => exact onFrame_calls _ h ⟨rfl, rfl⟩ rfl
  | ackTimeout hjobs =>
      unfold handleAckTimeout
      split
      · exact .of_same ⟨rfl, rfl⟩
      · exact .of_same ⟨rfl, rfl⟩
  | statusTimeout hjobs =>
      rename_i id
      unfold handleStatusTimeout
      split
      · next c hw =>
        have hidle : CallsKeep (.statusTimeout id) st { st.idle with
            statusWaiters := st.statusWaiters.delete id } := .of_same ⟨rfl, rfl⟩
        exact hidle.finish (status_mayMove h hw) _
      · exact .of_same ⟨rfl, rfl⟩
  | expire hjobs => exact .of_same (setPending_booked st.idle _).sameCalls
  | remind hjobs =>
      refine .of_same ?_
      unfold handleRemind
      dsimp only
      split
      · refine SameCalls.trans ?_ (sendRemind_calls env now _ _)
        exact ⟨rfl, rfl⟩
      · exact ⟨rfl, rfl⟩
  | tick hjobs =>
      unfold handleTick
      split
      · next start deadline targets signal hs =>
        have hs : st.calls.get? _ = some _ := hs
        exact tickWaitAll_calls _ _ _ _ ⟨rfl, rfl⟩ (mayMove_of_stage hs rfl)
      · exact .of_same ⟨rfl, rfl⟩

/-! ### Jobs stay until they run -/

/-- A job that is queued stays queued, unless it is the one that runs. -/
def JobsStay (e : ClientEvent ν) (st st' : ClientState ν) : Prop :=
  ∀ j ∈ st.jobs, j ∈ st'.jobs ∨ e = .microtask ∧ st.jobs.head? = some j

theorem JobsStay.of_append (h : ∃ js, st'.jobs = st.jobs ++ js) : JobsStay e st st' := by
  obtain ⟨js, hjs⟩ := h
  intro j hj
  rw [hjs]
  exact .inl (List.mem_append_left _ hj)

theorem JobsStay.of_pop (h : ∃ js, st'.jobs = st.pop.jobs ++ js) : JobsStay .microtask st st' := by
  obtain ⟨js, hjs⟩ := h
  intro j hj
  cases hjobs : st.jobs with
  | nil =>
      rw [hjobs] at hj
      cases hj
  | cons j' rest =>
      rw [hjobs] at hj
      rcases List.mem_cons.mp hj with heq | hj
      · rw [heq]
        exact .inr ⟨rfl, rfl⟩
      · refine .inl ?_
        rw [hjs]
        show j ∈ st.jobs.tail ++ js
        rw [hjobs]
        exact List.mem_append_left _ hj

theorem Booked.appends (h : Booked st st') : ∃ js, st'.jobs = st.jobs ++ js := by
  obtain ⟨js, hjs, -⟩ := h.jobs
  exact ⟨js, hjs⟩

theorem Paper.appends (h : Paper st st') : ∃ js, st'.jobs = st.jobs ++ js := by
  obtain ⟨js, hjs, -⟩ := h.jobs
  exact ⟨js, hjs⟩

theorem appends_refl (st : ClientState ν) : ∃ js, st.jobs = st.jobs ++ js := ⟨[], by simp⟩

theorem issue_jobs {frame : ClientFrame} {s : Stage} {r : CallResult ν}
    (hjobs : ∃ js, st₁.jobs = st.jobs ++ js) :
    ∃ js, (match writeOrQueue env st₁ frame with
      | some st => st.setStage c s
      | none => st₁.finish c r).jobs = st.jobs ++ js := by
  split
  · next st' hw =>
    obtain ⟨outbox, sent, rfl⟩ := writeOrQueue_eq hw
    exact hjobs
  · exact hjobs

theorem written_jobs (env : ClientEnv) (st : ClientState ν) (frame : ClientFrame) :
    ((writeOrQueue env st frame).getD st).jobs = st.jobs := by
  cases hw : writeOrQueue env st frame with
  | none => rfl
  | some st' =>
      obtain ⟨outbox, sent, rfl⟩ := writeOrQueue_eq hw
      rfl

/-- A call that starts or goes on leaves the other jobs alone. -/
theorem Enters.jobsStay (h : Enters st c e st₁) (hjobs : ∃ js, st'.jobs = st₁.jobs ++ js) :
    JobsStay e st st' := by
  cases h with
  | calls hnew => exact .of_append hjobs
  | resumes hq hj hstage hs => exact .of_pop hjobs

theorem issueSend_jobs (plan : SendPlan) :
    ∃ js, (issueSend env now st c plan).jobs = st.jobs ++ js := by
  unfold issueSend
  extract_lets frame st₁ st₂ st₃
  refine issue_jobs ?_
  show ∃ js, (if plan.awaitReply then registerMission st₁ now plan frame.id else st₁).jobs = _
  split
  · exact (registerMission_booked now st₁ plan frame.id).appends
  · exact appends_refl st₁

theorem issueReply_jobs (plan : ReplyPlan) :
    ∃ js, (issueReply env now st c plan).jobs = st.jobs ++ js := by
  unfold issueReply
  split
  · exact appends_refl st
  · exact issue_jobs (appends_refl st)

theorem TripReady.jobs {st₂ : ClientState ν} {use : TripUse} {frame : ClientFrame}
    (h : TripReady env st₁ c use frame st₂) : st₂.jobs = st₁.jobs := by
  rcases h with ⟨rfl, -, -⟩ | ⟨rfl, -⟩
  · rfl
  · rfl

/-- What an act does to the jobs. -/
theorem act_jobs (hact : DeskAct env now st e st') : JobsStay e st st' := by
  cases hact with
  | rest => exact .of_append (appends_refl st)
  | hello => exact .of_append (appends_refl st)
  | mute => exact .of_append (appends_refl st)
  | beat =>
      refine .of_append ?_
      unfold handleHeartbeat
      split
      · split
        · exact appends_refl st
        · exact appends_refl st
      · exact appends_refl st
  | refuse hnew hr => exact .of_append (appends_refl st)
  | giveUp hjobs hj hstage hr => exact .of_pop (appends_refl st.pop)
  | wait hnew hs hnot => exact .of_append (appends_refl st)
  | waitTrip henters hid hfits => exact henters.jobsStay (appends_refl _)
  | send henters hplan => exact henters.jobsStay (issueSend_jobs _)
  | reply henters => exact henters.jobsStay (issueReply_jobs _)
  | trip henters hready =>
      refine henters.jobsStay ?_
      refine issue_jobs ⟨[], ?_⟩
      rw [List.append_nil]
      exact hready.jobs
  | tripFailed henters hready =>
      rename_i c st₁ st₂ use frame code
      refine henters.jobsStay ⟨[.acked c (.failed code)], ?_⟩
      rw [← hready.jobs]
      rfl
  | status hnew hon =>
      refine .of_append ?_
      unfold startStatus
      split
      · exact appends_refl st
      · exact issue_jobs (appends_refl st)
  | detach henters hde => exact henters.jobsStay (setPending_booked _ _).appends
  | closing hnew => exact .of_append (setPending_booked st _).appends
  | close hnew => exact .of_append (setPending_booked st _).appends
  | waitAll hnew => exact .of_append (startWaitAll_paper env now st _ _ _).appends
  | cancelAll hnew => exact .of_append (cancelAllAwaited_booked st).appends
  | notice hnew hframe =>
      refine .of_append ⟨[], ?_⟩
      rw [List.append_nil]
      show (sendNotice env st _).jobs = st.jobs
      unfold sendNotice
      split
      · exact written_jobs env st.useId _
      · rfl
  | abort => exact .of_append (handleAbort_paper env now st _).appends
  | acked hjobs => exact .of_pop (handleAcked_paper st.pop _ _).appends
  | resolved hjobs => exact .of_pop (handleResolved_paper st.pop _ _ _).appends
  | lost hloses => exact .of_append (loseRequests_paper st).appends
  | flush hjobs =>
      refine .of_append ⟨[], ?_⟩
      obtain ⟨outbox, sent, heq⟩ := flushFrames_eq env (min st.outbox.length outboxFlushCap) st
      show (flushFrames env _ st).1.jobs = _
      rw [heq, List.append_nil]
  | line hread => exact .of_append (onFrame_paper env now _ _).appends
  | ackTimeout hjobs => exact .of_append (handleAckTimeout_paper st.idle _).appends
  | statusTimeout hjobs => exact .of_append (handleStatusTimeout_paper st.idle _).appends
  | expire hjobs => exact .of_append (setPending_booked st.idle _).appends
  | remind hjobs =>
      refine .of_append ⟨[], ?_⟩
      rw [List.append_nil]
      unfold handleRemind
      dsimp only
      split
      · unfold sendRemind
        split
        · rfl
        · split
          · rfl
          · exact written_jobs env _ _
      · rfl
  | tick hjobs => exact .of_append (handleTick_paper env now st.idle _).appends

/-- What a step does to the jobs that are not about the connection. -/
theorem clientStep_jobs {j : Job ν} (hj : j ∈ st.jobs) (hlink : j.isLink = false) (e : ClientEvent ν) :
    j ∈ (clientStep env now st e).jobs ∨ e = .microtask ∧ st.jobs.head? = some j := by
  obtain ⟨st₁, hact, hdesk⟩ := clientStep_act env now st e
  rcases act_jobs hact j hj with hj | hran
  · refine .inl ?_
    have hmem : j ∈ st₁.desk.jobs := List.mem_filter.mpr ⟨hj, by simp [hlink]⟩
    rw [← hdesk] at hmem
    exact List.mem_of_mem_filter hmem
  · exact .inr hran

/-! ### Steps -/

/-- The frames that wait for the connection are what their calls are about. -/
def Fits (st : ClientState ν) : Prop :=
  ∀ c use frame, st.calls.get? c = some (.tripConnect use frame) → use.fits frame

theorem CallsKeep.fits (h : CallsKeep e st st') (hfits : Fits st) : Fits st' := by
  intro c use frame hs
  rcases h.came c _ hs with hs | hnew
  · exact hfits c use frame hs
  · exact hnew use frame rfl

/-- What a step does to the calls. -/
theorem clientStep_calls (h : Waits env.rt st.desk) (e : ClientEvent ν) :
    CallsKeep e st (clientStep env now st e) := by
  obtain ⟨st₁, hact, hdesk⟩ := clientStep_act env now st e
  exact (act_calls h hact).after ⟨congrArg Desk.calls hdesk, congrArg Desk.results hdesk⟩

end Step

end PiMesh
