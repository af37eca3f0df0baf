/-
What a step does to missions.

An entry of `PendingReplies` goes in one way, whoever asks for it: `resolve` takes it out and
hands its promise a resolution.  Cancelling, expiring, answering and giving all entries up
are `resolve` for the ids that have an entry, and the lemmas here say so; the parts of the
book a frame or a request leaves alone are listed beside them.
-/
import PiMesh.Proofs.Closing

namespace PiMesh

open Js Transition

variable {ν : Type} [Number ν]

/-! ### Parts -/

section Parts

variable (st : ClientState ν) (frame : Inbound ν) (id : String)

theorem noteInboundFrom_parts : ∃ last, noteInboundFrom st frame =
    { st with book := { st.book with lastInboundFrom := last } } := by
  unfold noteInboundFrom
  split
  · exact ⟨_, rfl⟩
  · exact ⟨st.book.lastInboundFrom, rfl⟩

theorem keepInbound_parts : ∃ inbox, keepInbound st frame = { st with inbox } := by
  unfold keepInbound
  split
  · exact ⟨st.inbox, rfl⟩
  · exact ⟨_, rfl⟩

theorem settle_parts (r : Resolution ν) : ∃ settled js, st.settle id r =
    { st with book := { st.book with settled }, jobs := st.jobs ++ js } := by
  unfold ClientState.settle
  split
  · exact ⟨st.book.settled, _, rfl⟩
  · exact ⟨st.book.settled.set id r, [], by rw [List.append_nil]⟩

theorem setMission_parts (f : Mission → Mission) : ∃ missions, st.setMission id f =
    { st with book := { st.book with awaitedMissions := missions } } := by
  unfold ClientState.setMission
  split
  · exact ⟨_, rfl⟩
  · exact ⟨st.book.awaitedMissions, rfl⟩

theorem watch_parts (w : Watcher) : ∃ js, st.watch id w =
    { st with book := { st.book with watchers := st.book.watchers.set id w },
              jobs := st.jobs ++ js } := by
  unfold ClientState.watch
  dsimp only
  split
  · exact ⟨_, rfl⟩
  · exact ⟨[], by rw [List.append_nil]⟩

end Parts

/-! ### Resolving an entry -/

/-- The entry goes, and its promise is resolved. -/
def ClientState.resolve (st : ClientState ν) (id : String) (r : Resolution ν) : ClientState ν :=
  ({ st with book := { st.book with pending := st.book.pending.drop id } } : ClientState ν).settle id r

section Resolve

variable (st : ClientState ν) (id : String)

theorem setPending_cancel (reason : CancelReason) :
    st.setPending (st.book.pending.cancel id reason) =
      if st.book.pending.has id then st.resolve id (.error reason) else st := by
  unfold PendingReplies.cancel
  split
  · rfl
  · rfl

theorem setPending_expire :
    st.setPending (st.book.pending.expire id) =
      if st.book.pending.has id then st.resolve id .expired else st := by
  unfold PendingReplies.expire
  split
  · rfl
  · rfl

theorem setPending_parts (r : PendingReplies × Resolved ν) : ∃ settled js, st.setPending r =
    { st with book := { st.book with pending := r.1, settled }, jobs := st.jobs ++ js } := by
  have hfold : ∀ (l : Resolved ν) (st : ClientState ν), ∃ settled js,
      l.foldl (fun st e => st.settle e.1 e.2) st =
        { st with book := { st.book with settled }, jobs := st.jobs ++ js } := by
    intro l
    induction l with
    | nil =>
        intro st
        exact ⟨st.book.settled, [], by rw [List.append_nil]; rfl⟩
    | cons e rest ih =>
        intro st
        obtain ⟨settled, js, hsettle⟩ := settle_parts st e.1 e.2
        obtain ⟨settled', js', hrest⟩ := ih (st.settle e.1 e.2)
        refine ⟨settled', js ++ js', ?_⟩
        rw [List.foldl_cons, hrest, hsettle, ← List.append_assoc]
  exact hfold r.2 { st with book := { st.book with pending := r.1 } }

/-- The mission a plan is for. -/
def SendPlan.mission (plan : SendPlan) (now : Int) : Mission :=
  { recipient := plan.recipient.getD "*", room := plan.room, sentAt := now }

theorem registerMission_parts (now : Int) (plan : SendPlan) :
    ∃ settled js, registerMission st now plan id =
      { st with
        book := { st.book with
          awaitTargets := st.book.awaitTargets.set id (plan.recipient.getD "*", plan.room)
          awaitedMissions :=
            pruneMap missionCap (st.book.awaitedMissions.set id (plan.mission now))
          pending := (st.book.pending.register (ν := ν) now id (now + plan.timeoutMs) plan.launch).1
          settled }
        jobs := st.jobs ++ js } := by
  unfold registerMission
  extract_lets recipient mission book book'
  obtain ⟨settled, js, hparts⟩ := setPending_parts ({ st with book := book' } : ClientState ν)
    (book'.pending.register now id (now + plan.timeoutMs) plan.launch)
  have hbook : book' = { st.book with
      awaitTargets := st.book.awaitTargets.set id (plan.recipient.getD "*", plan.room)
      awaitedMissions := pruneMap missionCap (st.book.awaitedMissions.set id (plan.mission now)) } := rfl
  refine ⟨settled, js, hparts.trans ?_⟩
  rw [hbook]

theorem registerMission_missions (now : Int) (plan : SendPlan) :
    (registerMission st now plan id).book.awaitedMissions =
      pruneMap missionCap (st.book.awaitedMissions.set id (plan.mission now)) := by
  obtain ⟨settled, js, hparts⟩ := registerMission_parts st id now plan
  rw [hparts]

theorem registerMission_targets (now : Int) (plan : SendPlan) :
    (registerMission st now plan id).book.awaitTargets =
      st.book.awaitTargets.set id (plan.recipient.getD "*", plan.room) := by
  obtain ⟨settled, js, hparts⟩ := registerMission_parts st id now plan
  rw [hparts]

theorem registerMission_reported (now : Int) (plan : SendPlan) :
    (registerMission st now plan id).book.reportedMissions = st.book.reportedMissions := by
  obtain ⟨settled, js, hparts⟩ := registerMission_parts st id now plan
  rw [hparts]

theorem has_drop_iff (p : PendingReplies) (id' : String) :
    (p.drop id).has id' = true ↔ id' ≠ id ∧ p.has id' = true := by
  show (p.entries.delete id).has id' = true ↔ id' ≠ id ∧ p.entries.has id' = true
  unfold Map.has
  rw [Map.get?_delete]
  by_cases heq : id' = id
  · simp [heq]
  · simp [heq]

theorem has_register_iff (p : PendingReplies) (now expiresAt : Int) (launch : Bool) (id' : String) :
    (p.register (ν := ν) now id expiresAt launch).1.has id' = true ↔ id' = id ∨ p.has id' = true := by
  have hcancel : ∀ id', (p.cancel (ν := ν) id .superseded).1.has id' = true → p.has id' = true := by
    intro id' h
    unfold PendingReplies.cancel at h
    split at h
    · exact ((has_drop_iff id p id').mp h).2
    · exact h
  have hother : ∀ id', id' ≠ id → p.has id' = true → (p.cancel (ν := ν) id .superseded).1.has id' = true := by
    intro id' hne h
    unfold PendingReplies.cancel
    split
    · exact (has_drop_iff id p id').mpr ⟨hne, h⟩
    · exact h
  show ((p.cancel (ν := ν) id .superseded).1.entries.set id _).has id' = true ↔ _
  rw [Map.has, Map.get?_set]
  by_cases heq : id' = id
  · simp [heq]
  · simp only [heq, if_false, false_or]
    exact ⟨hcancel id', hother id' heq⟩

theorem resolve_parts (r : Resolution ν) : ∃ settled js, st.resolve id r =
    { st with book := { st.book with pending := st.book.pending.drop id, settled },
              jobs := st.jobs ++ js } :=
  settle_parts ({ st with book := { st.book with pending := st.book.pending.drop id } } :
    ClientState ν) id r

end Resolve

/-! ### Sending -/

/-- `send` after its registration: the call waits for its acknowledgement, or has thrown. -/
theorem issueSend_cases (env : ClientEnv) (now : Int) (st : ClientState ν) (c : CallId) (plan : SendPlan) :
    ∃ st₂, st₂ = (if plan.awaitReply then
        registerMission st.useId now plan (env.rt.makeMsgId st.ids) else st.useId) ∧
      ((∃ outbox sent, issueSend env now st c plan =
          ({ waitAck st₂ (env.rt.makeMsgId st.ids) c with outbox, sent } : ClientState ν).setStage c
            (.sendAck plan (env.rt.makeMsgId st.ids))) ∨
        (sendFrame env now st plan).encodes ν env.rt env.maxFrameBytes = false ∧
        issueSend env now st c plan =
          (waitAck st₂ (env.rt.makeMsgId st.ids) c).finish c (.rejected .frameSize)) := by
  refine ⟨_, rfl, ?_⟩
  unfold issueSend
  extract_lets frame st₁ st₂ st₃
  cases hw : writeOrQueue env st₃ frame with
  | some st₄ =>
      obtain ⟨outbox, sent, rfl⟩ := writeOrQueue_eq hw
      exact .inl ⟨outbox, sent, rfl⟩
  | none =>
      refine .inr ⟨?_, rfl⟩
      unfold writeOrQueue at hw
      split at hw
      · split at hw
        · cases hw
        · next hencodes => simpa using hencodes
      · split at hw
        · cases hw
        · cases hw

theorem get?_pruneMap {κ α : Type} [DecidableEq κ] (cap : Nat) (m : Map κ α) (k : κ) :
    (pruneMap cap m).get? k = if k ∈ m.keys.take (m.size - cap) then none else m.get? k := by
  unfold pruneMap
  exact Map.get?_foldl_delete ..

/-- Only the oldest of what was there before a new entry are pruned. -/
theorem pruned_old {κ α : Type} [DecidableEq κ] {cap : Nat} (hcap : 0 < cap) {m : Map κ α} {k k' : κ}
    {v : α} (hnew : m.get? k = none) (h : k' ∈ (m.set k v).keys.take ((m.set k v).size - cap)) :
    k' ∈ m.keys.take (m.size + 1 - cap) := by
  have hkeys : (m.set k v).keys = m.keys ++ [k] := by
    have hset : (m.set k v).keys = if k ∈ m.keys then m.keys else m.keys ++ [k] :=
      keys_setEntry k v m.entries
    rwa [if_neg ((Map.get?_eq_none_iff m k).mp hnew)] at hset
  have hsize : (m.set k v).size = m.size + 1 := by
    rw [Map.size_set, if_neg (not_has_of_none hnew)]
  rw [hkeys, hsize, List.take_append_of_le_length] at h
  · exact h
  · rw [Map.length_keys]
    omega

/-! ### Answers -/

section Answers

variable {env : ClientEnv} {now : Int} {st : ClientState ν} {frame : Inbound ν} {id : String}

/-- An answer to this mission wakes the session. -/
def ClientState.wakes (st : ClientState ν) (id : String) : Bool :=
  st.book.pending.isLaunch id && decide (st.book.waitAllInFlight = 0)

/-- An answer to a live mission resolves its promise. -/
theorem onReply_live (hreceipt : frame.receipt = false) (hid : frame.replyTo = some id)
    (hlive : st.book.pending.has id = true) :
    onReply env now st frame = onMatchedReply env now
      ((noteInboundFrom st frame).resolve id (.reply frame)) frame id (st.wakes id) := by
  obtain ⟨last, hlast⟩ := noteInboundFrom_parts st frame
  unfold onReply
  rw [hlast]
  simp only [hreceipt, hid, PendingReplies.handleReply, hlive, if_true, Bool.false_eq_true, if_false]
  rfl

/-- An answer to no live mission. -/
theorem onReply_orphan (hreceipt : frame.receipt = false) (hid : frame.replyTo = some id)
    (hdead : st.book.pending.has id = false) :
    onReply env now st frame = onOrphanReply env now
      { noteInboundFrom st frame with
        book := { (noteInboundFrom st frame).book with pending := st.book.pending.unmatched } } frame := by
  obtain ⟨last, hlast⟩ := noteInboundFrom_parts st frame
  unfold onReply
  rw [hlast]
  simp only [hreceipt, hid, PendingReplies.handleReply, hdead, Bool.false_eq_true, if_false]
  rfl

/-- An answer to no message. -/
theorem onReply_nameless (hreceipt : frame.receipt = false) (hid : frame.replyTo = none) :
    onReply env now st frame = onOrphanReply env now (noteInboundFrom st frame) frame := by
  unfold onReply
  simp only [hreceipt, hid, Bool.false_eq_true, if_false]

/-- An orphan is remembered or dropped, and no mission hears of it. -/
theorem onOrphanReply_parts (env : ClientEnv) (now : Int) (st : ClientState ν) (frame : Inbound ν) :
    ∃ pending handled inbox out, onOrphanReply env now st frame =
      { st with book := { st.book with pending, handledReplyTargets := handled }, inbox,
                emitted := st.emitted ++ out } ∧
      pending.entries = st.book.pending.entries := by
  unfold onOrphanReply
  split
  · obtain ⟨inbox, hinbox⟩ := keepInbound_parts st frame
    rw [hinbox]
    exact ⟨st.book.pending, st.book.handledReplyTargets, inbox, _, rfl, rfl⟩
  · next id _ =>
    dsimp only
    split
    · exact ⟨st.book.pending.unmatched, st.book.handledReplyTargets, st.inbox, [], by simp, rfl⟩
    · obtain ⟨inbox, hinbox⟩ := keepInbound_parts (ν := ν)
        { st with book := markReplyHandled env now st.book id (frame.body.getD "") } frame
      rw [hinbox]
      exact ⟨st.book.pending, _, inbox, _, rfl, rfl⟩

end Answers

/-! ### What missions do not see -/

/-- The promise of a mission, for the one who awaits it. -/
def Job.resolution? : Job ν → Option (Watcher × String × Resolution ν)
  | .resolved w id r => some (w, id, r)
  | _ => none

def ClientState.resolutions (st : ClientState ν) : List (Watcher × String × Resolution ν) :=
  st.jobs.filterMap Job.resolution?

/-- The stages of a call that belong to a message or to a `waitAll`. -/
def Stage.tracks : Stage → Bool
  | .sendAck _ _ => true
  | .sendReply _ _ => true
  | .waitAll _ _ _ _ => true
  | _ => false

def ClientState.tracked (st : ClientState ν) (c : CallId) : Option Stage :=
  (st.calls.get? c).filter Stage.tracks

/-- The results that tell of answers. -/
def CallResult.reports : CallResult ν → Bool
  | .send (.reply _ _ _) => true
  | .verdict _ => true
  | _ => false

def ClientState.report (st : ClientState ν) (c : CallId) : Option (CallResult ν) :=
  (st.results.get? c).filter CallResult.reports

/-- Nothing about missions changed. -/
structure Apart (st st' : ClientState ν) : Prop where
  book : st'.book = st.book
  emitted : st'.emitted = st.emitted
  resolutions : st'.resolutions = st.resolutions
  tracked : ∀ c, st'.tracked c = st.tracked c
  report : ∀ c, st'.report c = st.report c
  ids : st.ids ≤ st'.ids

namespace Apart

variable {st st' st'' : ClientState ν}

theorem refl (st : ClientState ν) : Apart st st :=
  ⟨rfl, rfl, rfl, fun _ => rfl, fun _ => rfl, Nat.le_refl _⟩

theorem trans (h : Apart st st') (h' : Apart st' st'') : Apart st st'' :=
  ⟨h'.book.trans h.book, h'.emitted.trans h.emitted, h'.resolutions.trans h.resolutions,
    fun c => (h'.tracked c).trans (h.tracked c), fun c => (h'.report c).trans (h.report c),
    Nat.le_trans h.ids h'.ids⟩

/-- What the desk does not show, missions do not see. -/
theorem of_desk (h : st'.desk = st.desk) : Apart st st' := by
  have hjobs : ∀ st : ClientState ν, st.resolutions = st.desk.jobs.filterMap Job.resolution? := by
    intro st
    show _ = (st.jobs.filter fun j => !j.isLink).filterMap Job.resolution?
    rw [List.filterMap_filter]
    unfold ClientState.resolutions
    congr 1
    funext j
    cases j with
    | resolved => rfl
    | acked => rfl
    | _ => rfl
  have hcalls : st'.calls = st.calls := congrArg Desk.calls h
  have hresults : st'.results = st.results := congrArg Desk.results h
  have hids : st'.ids = st.ids := congrArg Desk.ids h
  refine ⟨congrArg Desk.book h, congrArg Desk.emitted h, ?_, ?_, ?_, ?_⟩
  · rw [hjobs, hjobs, h]
  · intro c
    unfold ClientState.tracked
    rw [hcalls]
  · intro c
    unfold ClientState.report
    rw [hresults]
  · rw [hids]

theorem pop {j : Job ν} {rest : List (Job ν)} (hjobs : st.jobs = j :: rest)
    (hj : j.resolution? = none) : Apart st st.pop := by
  refine ⟨rfl, rfl, ?_, fun _ => rfl, fun _ => rfl, Nat.le_refl _⟩
  show st.jobs.tail.filterMap Job.resolution? = st.jobs.filterMap Job.resolution?
  rw [hjobs, List.filterMap_cons_none hj]
  rfl

theorem push (st : ClientState ν) {js : List (Job ν)} (h : ∀ j ∈ js, j.resolution? = none) :
    Apart st (st.push js) := by
  refine ⟨rfl, rfl, ?_, fun _ => rfl, fun _ => rfl, Nat.le_refl _⟩
  show (st.jobs ++ js).filterMap Job.resolution? = st.jobs.filterMap Job.resolution?
  rw [List.filterMap_append, List.filterMap_eq_nil_iff.mpr h, List.append_nil]

theorem finish {c : CallId} {r : CallResult ν} (hc : st.tracked c = none)
    (hr : r.reports = false) : Apart st (st.finish c r) := by
  refine ⟨rfl, rfl, rfl, ?_, ?_, Nat.le_refl _⟩
  · intro c'
    show ((st.calls.delete c).get? c').filter Stage.tracks = _
    rw [Map.get?_delete]
    by_cases heq : c' = c
    · rw [if_pos heq, heq, hc]
      rfl
    · rw [if_neg heq]
      rfl
  · intro c'
    show ((if st.results.has c then st.results else st.results.set c r).get? c').filter _ = _
    split
    · rfl
    · next hnone =>
      rw [Map.get?_set]
      by_cases heq : c' = c
      · have hget : st.results.get? c = none := by simpa [Map.has] using hnone
        rw [if_pos heq, heq]
        unfold ClientState.report
        rw [hget]
        simp [hr]
      · rw [if_neg heq]
        rfl

theorem setStage {c : CallId} {s : Stage} (hc : st.tracked c = none) (hs : s.tracks = false) :
    Apart st (st.setStage c s) := by
  refine ⟨rfl, rfl, rfl, ?_, fun _ => rfl, Nat.le_refl _⟩
  intro c'
  show ((st.calls.set c s).get? c').filter Stage.tracks = _
  rw [Map.get?_set]
  by_cases heq : c' = c
  · rw [if_pos heq, heq, hc]
    simp [hs]
  · rw [if_neg heq]
    rfl

end Apart

theorem tracked_of_new {st : ClientState ν} {c : CallId} (hnew : isNewCall st c = true) :
    st.tracked c = none := by
  simp only [isNewCall, Bool.and_eq_true, Bool.not_eq_true'] at hnew
  have hget : st.calls.get? c = none := by simpa [Map.has] using hnew.1.1
  unfold ClientState.tracked
  rw [hget]
  rfl

theorem tracked_of_stage {st : ClientState ν} {c : CallId} {s : Stage}
    (hs : st.calls.get? c = some s) (ht : s.tracks = false) : st.tracked c = none := by
  unfold ClientState.tracked
  rw [hs]
  simp [ht]

theorem Enters.apart {st st₁ : ClientState ν} {c : CallId} {e : ClientEvent ν}
    (h : Enters st c e st₁) : st₁.tracked c = none ∧ Apart st st₁ := by
  cases h with
  | calls hnew => exact ⟨tracked_of_new hnew, .refl st⟩
  | resumes hjobs hj hstage hs =>
      rename_i j rest s
      refine ⟨?_, .pop hjobs ?_⟩
      · refine tracked_of_stage hstage ?_
        cases s with
        | sendAck | sendReply | waitAll => cases hs
        | _ => rfl
      · cases j with
        | resolved => cases hj
        | _ => rfl

/-! ### Acts -/

/-- A chunk of this socket is being read. -/
def ClientState.reads (st : ClientState ν) (sock : ClientSocketId) : ClientState ν :=
  { st with reading := some sock }

/-- The signal of a call was aborted. -/
def ClientState.abort (st : ClientState ν) (c : CallId) : ClientState ν :=
  { st with aborted := st.aborted.add c }

/-- A frame is passed on to the session. -/
def ClientState.passes (st : ClientState ν) (frame : Inbound ν) (matched : Option Bool)
    (last : Map String LastInbound) : ClientState ν :=
  { st with book := { st.book with lastInboundFrom := last },
            emitted := st.emitted ++ [.inbound frame matched] }

/-- What a step does to missions. -/
inductive MissionAct (env : ClientEnv) (now : Int) (st : ClientState ν) :
    ClientEvent ν → ClientState ν → Prop
  | other {e : ClientEvent ν} : MissionAct env now st e st
  | send {e : ClientEvent ν} {c : CallId} {st₁ : ClientState ν} {plan : SendPlan}
      (henters : Enters st c e st₁) (hplan : Planned env st c plan e) :
      MissionAct env now st e (issueSend env now st₁ c plan)
  /-- A rename, or a close, gives all missions up. -/
  | giveUp {e : ClientEvent ν} {reason : CancelReason}
      (hwhy : reason = .renamed ∧ detaches env st e = true ∨
        reason = .shuttingDown ∧ ∃ c, e = .call c .close) :
      MissionAct env now st e (st.setPending (st.book.pending.cancelAll reason))
  | cancelAll {c : CallId} (hnew : isNewCall st c = true) :
      MissionAct env now st (.call c .cancelAllAwaited) (cancelAllAwaited st)
  | waitAll {c : CallId} {timeoutMs : Int} {signal : Bool} (hnew : isNewCall st c = true) :
      MissionAct env now st (.call c (.waitAll timeoutMs signal))
        (startWaitAll env now st c timeoutMs signal)
  | tick {c : CallId} {start deadline : Int} {targets : List String} {signal : Bool}
      (hs : st.calls.get? c = some (.waitAll start deadline targets signal)) :
      MissionAct env now st (.tick c) (tickWaitAll env now st.idle c start deadline targets signal)
  | abortSend {c : CallId} {plan : SendPlan} {id : String}
      (hs : st.calls.get? c = some (.sendReply plan id)) (hsignal : plan.signal = true) :
      MissionAct env now st (.abort c)
        ((st.abort c).setPending (st.book.pending.cancel id .cancelled))
  | abortWait {c : CallId} {start deadline : Int} {targets : List String}
      (hs : st.calls.get? c = some (.waitAll start deadline targets true)) :
      MissionAct env now st (.abort c) (endWaitAll env now (st.abort c) c start targets .cancelled)
  | acked {c : CallId} {plan : SendPlan} {id : String} {ack : Ack} {rest : List (Job ν)}
      (hjobs : st.jobs = .acked c ack :: rest) (hs : st.calls.get? c = some (.sendAck plan id)) :
      MissionAct env now st .microtask (sendAcked st.pop c plan id ack)
  | resolved {w : Watcher} {id : String} {r : Resolution ν} {rest : List (Job ν)}
      (hjobs : st.jobs = .resolved w id r :: rest) :
      MissionAct env now st .microtask (handleResolved st.pop w id r)
  | expire {id : String} (hlive : st.book.pending.has id = true) :
      MissionAct env now st (.expire id) (st.idle.resolve id .expired)
  | remind {id : String} :
      MissionAct env now st (.remind id)
        { st.idle with book := { st.book with pending := (st.book.pending.remind id).1 } }
  | reply {sock : ClientSocketId} {frame : Inbound ν} (hlistens : st.listens sock = true)
      (htype : frame.type = .reply) (hreceipt : frame.receipt = false) :
      MissionAct env now st (.line sock frame) (onReply env now (st.reads sock) frame)
  /-- News that a message was dropped. -/
  | dropped {sock : ClientSocketId} {frame : Inbound ν} (hlistens : st.listens sock = true)
      (htype : frame.type = .ack) (hwaiter : st.ackWaiters.get? frame.id = none)
      (hstatus : frame.status = some "dropped_offline") :
      MissionAct env now st (.line sock frame) (onAck (st.reads sock) frame)
  /-- A message, a reminder or a receipt. -/
  | passes {sock : ClientSocketId} {frame : Inbound ν} (matched : Option Bool)
      (last : Map String LastInbound) (hlistens : st.listens sock = true)
      (htype : frame.type = .reply → frame.receipt = true) :
      MissionAct env now st (.line sock frame) (st.passes frame matched last)

/-- An act leads to a state in which missions are as in this one. -/
def MissionActs (env : ClientEnv) (now : Int) (st : ClientState ν) (e : ClientEvent ν)
    (st' : ClientState ν) : Prop :=
  ∃ st₁, MissionAct env now st e st₁ ∧ Apart st₁ st'

section Step

variable {env : ClientEnv} {now : Int} {st st₁ st' : ClientState ν} {e : ClientEvent ν} {c : CallId}

theorem MissionAct.acts (h : MissionAct env now st e st') : MissionActs env now st e st' :=
  ⟨st', h, .refl st'⟩

theorem Apart.acts (h : Apart st st') : MissionActs env now st e st' := ⟨st, .other, h⟩

theorem MissionActs.after (h : MissionActs env now st e st₁) (h' : Apart st₁ st') :
    MissionActs env now st e st' := by
  obtain ⟨st₂, hact, haside⟩ := h
  exact ⟨st₂, hact, haside.trans h'⟩

theorem tracked_of_status {id : String} (h : Waits env.rt st.desk)
    (hw : st.statusWaiters.get? id = some c) : st.tracked c = none := by
  rcases h.status id c hw with ⟨id', hs⟩ | hres
  · exact tracked_of_stage hs rfl
  · unfold ClientState.tracked
    cases hs : st.calls.get? c with
    | none => rfl
    | some s =>
        have hnone := h.apart c s hs
        exact absurd hres (not_has_of_none hnone)

/-- Writing touches no mission. -/
theorem writeOrQueue_aside {frame : ClientFrame} (h : writeOrQueue env st frame = some st') :
    Apart st st' := by
  obtain ⟨outbox, sent, rfl⟩ := writeOrQueue_eq h
  exact ⟨rfl, rfl, rfl, fun _ => rfl, fun _ => rfl, Nat.le_refl _⟩

theorem getD_aside (frame : ClientFrame) : Apart st ((writeOrQueue env st frame).getD st) := by
  cases hw : writeOrQueue env st frame with
  | none => exact .refl st
  | some st' => exact writeOrQueue_aside hw

/-- A request that is no send goes out, or throws. -/
theorem issue_aside {frame : ClientFrame} {s : Stage} {r : CallResult ν} (hc : st.tracked c = none)
    (hs : s.tracks = false) (hr : r.reports = false) :
    Apart st (match writeOrQueue env st frame with
      | some st => st.setStage c s
      | none => st.finish c r) := by
  split
  · next st' hw =>
    have haside := writeOrQueue_aside hw
    exact haside.trans (.setStage ((haside.tracked c).trans hc) hs)
  · exact .finish hc hr

theorem sendTrip_aside (use : TripUse) (frame : ClientFrame) (hc : st.tracked c = none) :
    Apart st (sendTrip env st c use frame) := by
  have hask : Apart st (waitAck st frame.id c) :=
    ⟨rfl, rfl, rfl, fun _ => rfl, fun _ => rfl, Nat.le_refl _⟩
  have hissue : Apart (waitAck st frame.id c) (sendTrip env st c use frame) := issue_aside hc rfl rfl
  exact hask.trans hissue

theorem issueReply_aside (plan : ReplyPlan) (hc : st.tracked c = none) :
    Apart st (issueReply env now st c plan) := by
  unfold issueReply
  split
  · exact .finish hc rfl
  · next recipient targets _ =>
    extract_lets frame
    have hask : Apart st (waitAck st.useId frame.id c) :=
      ⟨rfl, rfl, rfl, fun _ => rfl, fun _ => rfl, Nat.le_succ _⟩
    exact hask.trans (issue_aside hc rfl rfl)

theorem startStatus_aside (room : Option String) (hc : st.tracked c = none) :
    Apart st (startStatus env now st c room) := by
  unfold startStatus
  split
  · exact .finish hc rfl
  · extract_lets bare frame st₀ st₁
    have hst₁ : Apart st st₁ := ⟨rfl, rfl, rfl, fun _ => rfl, fun _ => rfl, Nat.le_succ _⟩
    exact hst₁.trans (issue_aside ((hst₁.tracked c).trans hc) rfl rfl)

/-- What a call returns without a connection tells of no answer. -/
theorem refuses_reports {op : Op} {r : CallResult ν} (hr : op.refuses env st = some r) :
    r.reports = false := by
  unfold Op.refuses at hr
  split at hr
  · split at hr
    · next opts result hplan =>
      obtain rfl := Option.some.inj hr
      have hfail := planSend_error hplan
      cases result with
      | reply => cases hfail
      | _ => rfl
    · cases hr
  · split at hr
    · next msgId body opts result hplan =>
      obtain rfl := Option.some.inj hr
      have hfail := planReply_error hplan
      cases result with
      | reply => cases hfail
      | _ => rfl
    · cases hr
  · split at hr
    · obtain rfl := Option.some.inj hr
      rfl
    · obtain rfl := Option.some.inj hr
      rfl
    · cases hr
  · split at hr
    · obtain rfl := Option.some.inj hr
      rfl
    · cases hr
  · split at hr
    · cases hr
    · obtain rfl := Option.some.inj hr
      rfl
  · dsimp only at hr
    split at hr
    · obtain rfl := Option.some.inj hr
      rfl
    · split at hr
      · obtain rfl := Option.some.inj hr
        rfl
      · cases hr
  · obtain rfl := Option.some.inj hr
    rfl
  · cases hr

theorem mayReturn_aside {s : Stage} {r : CallResult ν} (hr : s.mayReturn r)
    (hs : st.calls.get? c = some s) : st.tracked c = none ∧ r.reports = false := by
  cases s with
  | connect =>
      rcases hr with ⟨info, rfl⟩ | ⟨err, rfl⟩
      · exact ⟨tracked_of_stage hs rfl, rfl⟩
      · exact ⟨tracked_of_stage hs rfl, rfl⟩
  | rename =>
      rcases hr with ⟨name, rfl⟩ | ⟨err, rfl⟩
      · exact ⟨tracked_of_stage hs rfl, rfl⟩
      · exact ⟨tracked_of_stage hs rfl, rfl⟩
  | sendConnect | replyConnect | reserveConnect | releaseConnect | closing =>
      obtain rfl := hr
      exact ⟨tracked_of_stage hs rfl, rfl⟩
  | sendAck | sendReply | replyAck | tripConnect | tripAck | status | waitAll => cases hr

/-- Resolving a promise is the same whatever else changed. -/
theorem settle_aside (h : Apart st st') (id : String) (r : Resolution ν) :
    Apart (st.settle id r) (st'.settle id r) := by
  unfold ClientState.settle
  rw [h.book]
  split
  · refine ⟨h.book, h.emitted, ?_, h.tracked, h.report, h.ids⟩
    show (st'.jobs ++ _).filterMap Job.resolution? = (st.jobs ++ _).filterMap Job.resolution?
    rw [List.filterMap_append, List.filterMap_append]
    exact congrArg (· ++ _) h.resolutions
  · exact ⟨rfl, h.emitted, h.resolutions, h.tracked, h.report, h.ids⟩

theorem setPending_aside (h : Apart st st') (r : PendingReplies × Resolved ν) :
    Apart (st.setPending r) (st'.setPending r) := by
  have hfold : ∀ (l : Resolved ν) (st st' : ClientState ν), Apart st st' →
      Apart (l.foldl (fun st e => st.settle e.1 e.2) st) (l.foldl (fun st e => st.settle e.1 e.2) st') := by
    intro l
    induction l with
    | nil =>
        intro st st' h
        exact h
    | cons e rest ih =>
        intro st st' h
        exact ih _ _ (settle_aside h e.1 e.2)
  refine hfold r.2 _ _ ⟨?_, h.emitted, h.resolutions, h.tracked, h.report, h.ids⟩
  show ({ st'.book with pending := r.1 } : Book ν) = { st.book with pending := r.1 }
  rw [h.book]

theorem Booked.tracked (h : Booked st st') (c : CallId) : st'.tracked c = st.tracked c := by
  unfold ClientState.tracked
  rw [h.calls]

theorem loseRequests_aside (h : Waits env.rt st.desk) : Apart st (loseRequests st) := by
  have hpush : Apart st (st.push (st.ackWaiters.values.map fun c =>
      .acked c { code := some (some .internal), status := some "connection_lost" })) := by
    refine .push st ?_
    intro j hj
    obtain ⟨c, -, rfl⟩ := List.mem_map.mp hj
    rfl
  have hfold : ∀ (cs : List CallId) (st : ClientState ν), (∀ c ∈ cs, st.tracked c = none) →
      Apart st (cs.foldl (fun st c => st.finish c (.snapshot [] [] none)) st) := by
    intro cs
    induction cs with
    | nil =>
        intro st _
        exact .refl st
    | cons c rest ih =>
        intro st hcs
        have hfinish : Apart st (st.finish c (.snapshot [] [] none)) := .finish (hcs c (by simp)) rfl
        refine hfinish.trans (ih _ ?_)
        intro c' hc'
        rw [hfinish.tracked]
        exact hcs c' (List.mem_cons_of_mem _ hc')
  have hcs : ∀ c ∈ st.statusWaiters.values, st.tracked c = none := by
    intro c hc
    obtain ⟨id, hw⟩ := (Map.mem_values_iff _ _).mp hc
    exact tracked_of_status h hw
  have hstep : Apart st (st.statusWaiters.values.foldl
      (fun st c => st.finish c (.snapshot [] [] none)) (st.push (st.ackWaiters.values.map fun c =>
        .acked c { code := some (some .internal), status := some "connection_lost" }))) :=
    hpush.trans (hfold _ _ hcs)
  exact ⟨hstep.book, hstep.emitted, hstep.resolutions, hstep.tracked, hstep.report, hstep.ids⟩

theorem TripReady.apart {use : TripUse} {frame : ClientFrame} (h : TripReady env st c use frame st') :
    Apart st st' := by
  rcases h with ⟨rfl, -, -⟩ | ⟨rfl, -⟩
  · exact ⟨rfl, rfl, rfl, fun _ => rfl, fun _ => rfl, Nat.le_succ _⟩
  · exact .refl _

theorem tripAcked_aside (use : TripUse) (id : String) (ack : Ack) (hc : st.tracked c = none) :
    Apart st (tripAcked st c use id ack) := by
  have hown : ∀ next, Apart st (setOwnReservations st next) :=
    fun _ => ⟨rfl, rfl, rfl, fun _ => rfl, fun _ => rfl, Nat.le_refl _⟩
  have hrooms : ∀ rooms roles, Apart st { st with joinedRooms := rooms, roomRoles := roles } :=
    fun _ _ => ⟨rfl, rfl, rfl, fun _ => rfl, fun _ => rfl, Nat.le_refl _⟩
  unfold tripAcked
  cases use with
  | reserve merged | release merged releasing =>
      dsimp only
      split
      · exact .finish hc rfl
      · exact (hown merged).trans (.finish hc rfl)
  | join room role =>
      dsimp only
      split
      · exact .finish hc rfl
      · exact (hrooms _ _).trans (.finish hc rfl)
  | leave room =>
      dsimp only
      split
      · split
        · exact (hrooms _ st.roomRoles).trans (.finish hc rfl)
        · exact .finish hc rfl
      · exact (hrooms _ _).trans (.finish hc rfl)

theorem replyAcked_aside (id : String) (ack : Ack) (hc : st.tracked c = none) :
    Apart st (replyAcked st c id ack) := by
  unfold replyAcked
  split
  · exact .finish hc rfl
  · split
    · exact .finish hc rfl
    · exact .finish hc rfl

theorem handleAcked_missions {ack : Ack} {rest : List (Job ν)}
    (hjobs : st.jobs = .acked c ack :: rest) :
    MissionActs env now st .microtask (handleAcked st.pop c ack) := by
  have hpop : Apart st st.pop := .pop hjobs rfl
  unfold handleAcked
  split
  · next plan id hs => exact (MissionAct.acked hjobs hs).acts
  · next id hs =>
    have hs : st.calls.get? c = some (.replyAck id) := hs
    exact (hpop.trans (replyAcked_aside id ack (tracked_of_stage hs rfl))).acts
  · next use id hs =>
    have hs : st.calls.get? c = some (.tripAck use id) := hs
    exact (hpop.trans (tripAcked_aside use id ack (tracked_of_stage hs rfl))).acts
  · exact hpop.acts

theorem handleAbort_missions : MissionActs env now st (.abort c) (handleAbort env now st c) := by
  have habort : Apart st (st.abort c) :=
    ⟨rfl, rfl, rfl, fun _ => rfl, fun _ => rfl, Nat.le_refl _⟩
  unfold handleAbort
  dsimp only
  split
  · next plan id hs =>
    split
    · next hsignal => exact (MissionAct.abortSend hs hsignal).acts
    · exact habort.acts
  · next start deadline targets hs => exact (MissionAct.abortWait hs).acts
  · exact habort.acts

theorem handleRemind_missions (id : String) :
    MissionActs env now st (.remind id) (handleRemind env now st.idle id) := by
  have hact : MissionActs env now st (.remind id)
      { st.idle with book := { st.book with pending := (st.book.pending.remind id).1 } } :=
    MissionAct.remind.acts
  unfold handleRemind
  dsimp only
  split
  · refine hact.after ?_
    unfold sendRemind
    split
    · exact .refl _
    · split
      · exact .refl _
      · exact getD_aside _
  · exact hact

theorem handleTick_missions : MissionActs env now st (.tick c) (handleTick env now st.idle c) := by
  unfold handleTick
  split
  · next start deadline targets signal hs =>
    have hs : st.calls.get? c = some (.waitAll start deadline targets signal) := hs
    exact (MissionAct.tick hs).acts
  · have hidle : Apart st st.idle := .of_desk rfl
    exact hidle.acts

/-- A step that reads no line. -/
theorem act_missions (h : Waits env.rt st.desk) (hact : DeskAct env now st e st')
    (hline : ∀ sock frame, e ≠ .line sock frame) : MissionActs env now st e st' := by
  have hids : ∀ n, st.ids ≤ n → Apart st { st with ids := n } :=
    fun n hn => ⟨rfl, rfl, rfl, fun _ => rfl, fun _ => rfl, hn⟩
  cases hact with
  | rest => exact MissionAct.other.acts
  | hello hs hdial hended =>
      exact Apart.acts ⟨rfl, rfl, rfl, fun _ => rfl, fun _ => rfl, Nat.le_succ _⟩
  | mute => exact (hids _ (Nat.le_succ _)).acts
  | beat =>
      refine Apart.acts ?_
      unfold handleHeartbeat
      split
      · split
        · exact ⟨rfl, rfl, rfl, fun _ => rfl, fun _ => rfl, Nat.le_succ _⟩
        · exact .of_desk rfl
      · exact .of_desk rfl
  | refuse hnew hr => exact (Apart.finish (tracked_of_new hnew) (refuses_reports hr)).acts
  | giveUp hjobs hj hstage hr =>
      rename_i c j rest s r
      obtain ⟨hc, hreports⟩ := mayReturn_aside hr hstage
      have hpop : Apart st st.pop := by
        refine .pop hjobs ?_
        cases j with
        | resolved => cases hj
        | _ => rfl
      exact (hpop.trans (.finish hc hreports)).acts
  | wait hnew hs hnot =>
      rename_i c op s
      refine (Apart.setStage (tracked_of_new hnew) ?_).acts
      cases s with
      | sendAck | sendReply | waitAll => cases hs
      | _ => rfl
  | waitTrip henters hid hfits =>
      rename_i c st₁ use frame
      obtain ⟨hc, haside⟩ := henters.apart
      have huse : Apart st₁ st₁.useId := ⟨rfl, rfl, rfl, fun _ => rfl, fun _ => rfl, Nat.le_succ _⟩
      exact ((haside.trans huse).trans (.setStage hc rfl)).acts
  | send henters hplan => exact (MissionAct.send henters hplan).acts
  | reply henters =>
      obtain ⟨hc, haside⟩ := henters.apart
      exact (haside.trans (issueReply_aside _ hc)).acts
  | trip henters hready =>
      obtain ⟨hc, haside⟩ := henters.apart
      have hready := hready.apart
      exact ((haside.trans hready).trans (sendTrip_aside _ _ ((hready.tracked _).trans hc))).acts
  | tripFailed henters hready =>
      obtain ⟨hc, haside⟩ := henters.apart
      have hready := hready.apart
      refine (((haside.trans hready).trans (.setStage ((hready.tracked _).trans hc) rfl)).trans
        (.push _ ?_)).acts
      intro j hj
      rw [List.mem_singleton] at hj
      rw [hj]
      rfl
  | status hnew hon =>
      exact (startStatus_aside _ (tracked_of_new hnew)).acts
  | detach henters hde =>
      rename_i c st₁
      obtain ⟨hc, haside⟩ := henters.apart
      refine ⟨_, .giveUp (.inl ⟨rfl, hde⟩), ?_⟩
      rw [← haside.book]
      exact setPending_aside (haside.trans (.setStage hc rfl)) _
  | closing hnew =>
      refine ⟨_, .giveUp (.inr ⟨rfl, _, rfl⟩), .setStage ?_ rfl⟩
      rw [(setPending_booked st _).tracked]
      exact tracked_of_new hnew
  | close hnew =>
      refine ⟨_, .giveUp (.inr ⟨rfl, _, rfl⟩), .finish ?_ rfl⟩
      rw [(setPending_booked st _).tracked]
      exact tracked_of_new hnew
  | waitAll hnew => exact (MissionAct.waitAll hnew).acts
  | cancelAll hnew =>
      refine ⟨_, .cancelAll hnew, .finish ?_ rfl⟩
      rw [(cancelAllAwaited_booked st).tracked]
      exact tracked_of_new hnew
  | notice hnew hframe =>
      rename_i c op frame
      have hnotice : Apart st (sendNotice env st frame) := by
        unfold sendNotice
        split
        · exact (hids _ (Nat.le_succ _)).trans (getD_aside _)
        · exact .refl st
      exact (hnotice.trans (.finish ((hnotice.tracked _).trans (tracked_of_new hnew)) rfl)).acts
  | abort => exact handleAbort_missions
  | acked hjobs => exact handleAcked_missions hjobs
  | resolved hjobs => exact (MissionAct.resolved hjobs).acts
  | lost hloses => exact (loseRequests_aside h).acts
  | flush hjobs =>
      obtain ⟨outbox, sent, heq⟩ := flushFrames_eq env (min st.outbox.length outboxFlushCap) st
      refine Apart.acts ?_
      show Apart st (flushFrames env _ st).1
      rw [heq]
      exact ⟨rfl, rfl, rfl, fun _ => rfl, fun _ => rfl, Nat.le_refl _⟩
  | line hread => exact absurd rfl (hline _ _)
  | ackTimeout hjobs =>
      rename_i id
      refine Apart.acts ?_
      unfold handleAckTimeout
      split
      · next c _ =>
        have hdrop : Apart st { st.idle with ackWaiters := st.ackWaiters.delete id } :=
          ⟨rfl, rfl, rfl, fun _ => rfl, fun _ => rfl, Nat.le_refl _⟩
        refine hdrop.trans (.push _ ?_)
        intro j hj
        rw [List.mem_singleton] at hj
        rw [hj]
        rfl
      · exact .of_desk rfl
  | statusTimeout hjobs =>
      rename_i id
      refine Apart.acts ?_
      unfold handleStatusTimeout
      split
      · next c hw =>
        have hdrop : Apart st { st.idle with statusWaiters := st.statusWaiters.delete id } :=
          ⟨rfl, rfl, rfl, fun _ => rfl, fun _ => rfl, Nat.le_refl _⟩
        have hc : st.tracked c = none := tracked_of_status h hw
        exact hdrop.trans (.finish hc rfl)
      · exact .of_desk rfl
  | expire hjobs =>
      rename_i id
      show MissionActs env now st (.expire id) (st.idle.setPending (st.idle.book.pending.expire id))
      rw [setPending_expire]
      split
      · next hlive =>
        have hlive : st.book.pending.has id = true := hlive
        exact (MissionAct.expire hlive).acts
      · have hidle : Apart st st.idle := .of_desk rfl
        exact hidle.acts
  | remind hjobs => exact handleRemind_missions _
  | tick hjobs => exact handleTick_missions

/-! ### Lines -/

theorem clientStep_listens {sock : ClientSocketId} (h : st.listens sock = true) (frame : Inbound ν) :
    clientStep env now st (.line sock frame) = onFrame env now (st.reads sock) frame := by
  unfold ClientState.listens at h
  rw [Option.any_eq_true] at h
  obtain ⟨s, hs, hopen⟩ := h
  rw [Bool.and_eq_true, Bool.not_eq_true'] at hopen
  show handleClientLine env now st sock frame = _
  unfold handleClientLine
  rw [hs]
  dsimp only
  rw [if_neg (by rw [hopen.1]; simp), if_pos hopen.2]
  rfl

/-- A line that does not reach `onFrame` is about the connection. -/
theorem clientStep_deaf {sock : ClientSocketId} (h : st.listens sock = false) (frame : Inbound ν) :
    Apart st (clientStep env now st (.line sock frame)) := by
  show Apart st (handleClientLine env now st sock frame)
  unfold handleClientLine
  split
  · next s hs =>
    split
    · exact .refl st
    · next hreads =>
      have hread : Apart st (st.reads sock) := .of_desk rfl
      have hsettled : s.settled = false := by
        cases hset : s.settled with
        | false => rfl
        | true =>
            unfold ClientState.listens at h
            rw [hs, Option.any_some, hset, Bool.and_true, Bool.not_eq_false'] at h
            exact absurd h hreads
      dsimp only
      rw [if_neg (by simp [hsettled])]
      split
      · refine Apart.of_desk (desk_eq rfl ?_)
        simp [acceptWelcome, seedPeers, ClientState.push, ClientState.setConn]
      · split
        · exact hread.trans (.of_desk (failHandshake_link (st.reads sock) sock _).desk)
        · exact hread
  · exact .refl st

theorem onStatus_aside (frame : Inbound ν) (h : Waits env.rt st.desk) : Apart st (onStatus st frame) := by
  unfold onStatus
  split
  · next c hw =>
    have hdrop : Apart st { st with statusWaiters := st.statusWaiters.delete frame.id } :=
      ⟨rfl, rfl, rfl, fun _ => rfl, fun _ => rfl, Nat.le_refl _⟩
    have hc : st.tracked c = none := tracked_of_status h hw
    exact hdrop.trans (.finish hc rfl)
  · exact .refl st

/-- A waiter gets its acknowledgement. -/
theorem answer_aside (id : String) (ack : Ack) :
    Apart st (ClientState.push { st with ackWaiters := st.ackWaiters.delete id } [.acked c ack]) := by
  have hdrop : Apart st { st with ackWaiters := st.ackWaiters.delete id } :=
    ⟨rfl, rfl, rfl, fun _ => rfl, fun _ => rfl, Nat.le_refl _⟩
  refine hdrop.trans (.push _ ?_)
  intro j hj
  rw [List.mem_singleton] at hj
  rw [hj]
  rfl

theorem onError_aside (frame : Inbound ν) (h : Waits env.rt st.desk) : Apart st (onError st frame) := by
  unfold onError
  dsimp only
  split
  · next c hw =>
    exact (answer_aside frame.id frame.toAck).trans (onStatus_aside frame (h.answer hw frame.toAck))
  · exact onStatus_aside frame h

theorem passes_aside (frame : Inbound ν) (matched : Option Bool) :
    Apart (st.passes frame matched st.book.lastInboundFrom) ((keepInbound st frame).emit (.inbound frame matched)) := by
  obtain ⟨inbox, hinbox⟩ := keepInbound_parts st frame
  rw [hinbox]
  exact ⟨rfl, rfl, rfl, fun _ => rfl, fun _ => rfl, Nat.le_refl _⟩

theorem onFrame_missions {sock : ClientSocketId} (hlistens : st.listens sock = true) (frame : Inbound ν)
    (h : Waits env.rt st.desk) :
    MissionActs env now st (.line sock frame) (onFrame env now (st.reads sock) frame) := by
  have hread : Apart st (st.reads sock) := .of_desk rfl
  have hrest : ∀ st' : ClientState ν, Apart (st.reads sock) st' →
      MissionActs env now st (.line sock frame) st' := fun _ haside => (hread.trans haside).acts
  have hkept (htype : frame.type ≠ .reply) : MissionActs env now st (.line sock frame)
      ((noteInboundFrom (keepInbound (st.reads sock) frame) frame).emit (.inbound frame none)) := by
    obtain ⟨inbox, hinbox⟩ := keepInbound_parts (st.reads sock) frame
    obtain ⟨last, hlast⟩ := noteInboundFrom_parts (keepInbound (st.reads sock) frame) frame
    rw [hlast, hinbox]
    exact ⟨_, .passes none last hlistens (fun h => absurd h htype),
      rfl, rfl, rfl, fun _ => rfl, fun _ => rfl, Nat.le_refl _⟩
  unfold onFrame
  split
  · next htype =>
    unfold onAck
    split
    · exact hrest _ (answer_aside frame.id frame.toAck)
    · next hw =>
      split
      · next hstatus =>
        have hact : MissionActs env now st (.line sock frame) (onAck (st.reads sock) frame) :=
          (MissionAct.dropped hlistens htype hw hstatus).acts
        unfold onAck at hact
        rw [hw] at hact
        dsimp only at hact
        rw [if_pos hstatus] at hact
        exact hact
      · exact hrest _ (.refl _)
  · unfold onStatusRes
    dsimp only
    refine hrest _ (Apart.trans ?_ (onStatus_aside frame h))
    exact ⟨rfl, rfl, rfl, fun _ => rfl, fun _ => rfl, Nat.le_refl _⟩
  · next htype => exact hkept (by simp [htype])
  · next htype => exact hkept (by simp [htype])
  · refine hrest _ ?_
    unfold onReserve
    split
    · exact ⟨rfl, rfl, rfl, fun _ => rfl, fun _ => rfl, Nat.le_refl _⟩
    · exact .refl _
  · next htype =>
    exact ⟨_, .passes none st.book.lastInboundFrom hlistens (by simp [htype]),
      rfl, rfl, rfl, fun _ => rfl, fun _ => rfl, Nat.le_refl _⟩
  · next htype =>
    by_cases hreceipt : frame.receipt = true
    · have heq : onReply env now (st.reads sock) frame =
          (keepInbound (st.reads sock) frame).emit (.inbound frame (some false)) := by
        unfold onReply
        rw [if_pos hreceipt]
      rw [heq]
      have haside : Apart (st.passes frame (some false) st.book.lastInboundFrom)
          ((st.reads sock).passes frame (some false) st.book.lastInboundFrom) :=
        ⟨rfl, rfl, rfl, fun _ => rfl, fun _ => rfl, Nat.le_refl _⟩
      exact ⟨_, .passes (some false) st.book.lastInboundFrom hlistens (fun _ => hreceipt), haside.trans (passes_aside frame _)⟩
    · exact (MissionAct.reply hlistens htype (by simpa using hreceipt)).acts
  · refine hrest _ ?_
    unfold onActivity
    split
    · exact ⟨rfl, rfl, rfl, fun _ => rfl, fun _ => rfl, Nat.le_refl _⟩
    · exact .refl _
  · refine hrest _ ?_
    unfold onPresence
    split
    · split
      · unfold onOffline
        extract_lets peerRooms st₁
        split
        · exact ⟨rfl, rfl, rfl, fun _ => rfl, fun _ => rfl, Nat.le_refl _⟩
        · exact ⟨rfl, rfl, rfl, fun _ => rfl, fun _ => rfl, Nat.le_refl _⟩
      · split
        · unfold onOnline
          split
          · exact ⟨rfl, rfl, rfl, fun _ => rfl, fun _ => rfl, Nat.le_refl _⟩
          · exact .refl _
        · exact .refl _
    · exact .refl _
  · exact hrest _ (onError_aside frame h)
  · exact hrest _ (.refl _)

/-- A step does one of these things to missions. -/
theorem clientStep_missions (h : Waits env.rt st.desk) (e : ClientEvent ν) :
    MissionActs env now st e (clientStep env now st e) := by
  by_cases hline : ∃ sock frame, e = .line sock frame
  · obtain ⟨sock, frame, rfl⟩ := hline
    cases hlistens : st.listens sock with
    | true =>
        rw [clientStep_listens hlistens]
        exact onFrame_missions hlistens frame h
    | false => exact (clientStep_deaf hlistens frame).acts
  · obtain ⟨st₁, hact, hdesk⟩ := clientStep_act env now st e
    refine (act_missions h hact ?_).after (.of_desk hdesk)
    intro sock frame heq
    exact hline ⟨sock, frame, heq⟩

end Step

end PiMesh
