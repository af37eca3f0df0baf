/-
Every refusal and its caller.

The four maps of waiters share one branch for errors, which looks an id up in three of them.
What it does to a request is settled by where the id is: an id has one owner, so an error
finds at most one waiter.  `OneUse` says so for every state of a client.  A request that waits
for an acknowledgement then returns with the code of its error, after the microtask that is
queued for it; a control request returns with it at once; a lease request is not found.

What the broker can refuse a request with is read off its handlers: they answer a query for
a lease and a status request without an error on every path.
-/
import PiMesh.Client.Control
import PiMesh.Proofs.Calls
import PiMesh.Proofs.Known

namespace PiMesh

open Js Transition

variable {ν : Type} [Number ν]

/-! ### Ids and what they are for -/

/-- The id is a call's, or it has not been made. -/
def Claimed (rt : Runtime) (st : ClientState ν) (id : String) : Prop :=
  (∃ c, Owns st.desk c id) ∨ ¬ Made rt st.ids id

/-- The ids of calls are new or were a call's before, and no status request is added. -/
structure Files (rt : Runtime) (st st' : ClientState ν) : Prop where
  ids : st.ids ≤ st'.ids
  owns : ∀ c id, Owns st'.desk c id → Claimed rt st id
  status : ∀ id, st'.statusWaiters.has id = true → st.statusWaiters.has id = true

section Files

variable {env : ClientEnv} {now : Int} {rt : Runtime} {st st₁ st' : ClientState ν} {c : CallId}
  {id : String}

/-- The tables of waiters and calls. -/
def ClientState.tables (st : ClientState ν) := (st.calls, st.ackWaiters, st.statusWaiters)

namespace Files

theorem after (h : Files rt st st₁) (htables : st'.tables = st₁.tables) (hids : st₁.ids ≤ st'.ids) :
    Files rt st st' := by
  simp only [ClientState.tables, Prod.mk.injEq] at htables
  obtain ⟨hcalls, hack, hstatus⟩ := htables
  refine ⟨Nat.le_trans h.ids hids, ?_, ?_⟩
  · intro c id ho
    refine h.owns c id ?_
    unfold Owns at ho ⊢
    show (∃ s, st₁.calls.get? c = some s ∧ _) ∨ st₁.ackWaiters.get? id = some c
    rw [← hcalls, ← hack]
    exact ho
  · intro id hid
    rw [hstatus] at hid
    exact h.status id hid

theorem refl (rt : Runtime) (st : ClientState ν) : Files rt st st :=
  ⟨Nat.le_refl _, fun c _ ho => .inl ⟨c, ho⟩, fun _ hid => hid⟩

theorem of_same (htables : st'.tables = st.tables) (hids : st.ids ≤ st'.ids) : Files rt st st' :=
  (refl rt st).after htables hids

theorem booked (h : Files rt st st₁) (hb : Booked st₁ st') : Files rt st st' := by
  refine h.after ?_ (Nat.le_of_eq hb.ids.symm)
  simp only [ClientState.tables, hb.calls, hb.ackWaiters, hb.statusWaiters]

theorem finish (h : Files rt st st₁) (c : CallId) (r : CallResult ν) :
    Files rt st (st₁.finish c r) := by
  refine ⟨h.ids, ?_, h.status⟩
  intro c' id ho
  refine h.owns c' id ?_
  rcases ho with ⟨s, hs, hid⟩ | ho
  · have hs : (st₁.calls.delete c).get? c' = some s := hs
    rw [Map.get?_delete] at hs
    split at hs
    · cases hs
    · exact .inl ⟨s, hs, hid⟩
  · exact .inr ho

theorem finishAfter {r : CallResult ν} (h : Files rt st st₁) (htables : st'.tables = st₁.tables)
    (hids : st₁.ids ≤ st'.ids) : Files rt st (st'.finish c r) := (h.after htables hids).finish c r

theorem setStage {s : Stage} (h : Files rt st st₁) (hs : ∀ id, s.ownId = some id → Claimed rt st id) :
    Files rt st (st₁.setStage c s) := by
  refine ⟨h.ids, ?_, h.status⟩
  intro c' id ho
  rcases ho with ⟨s', hs', hid⟩ | ho
  · have hs' : (st₁.calls.set c s).get? c' = some s' := hs'
    rw [Map.get?_set] at hs'
    split at hs'
    · obtain rfl := Option.some.inj hs'
      exact hs id hid
    · exact h.owns c' id (.inl ⟨s', hs', hid⟩)
  · exact h.owns c' id (.inr ho)

/-- A stage that made no frame. -/
theorem wait {s : Stage} (h : Files rt st st₁) (hs : s.ownId = none) :
    Files rt st (st₁.setStage c s) := by
  refine h.setStage ?_
  intro id hid
  rw [hs] at hid
  cases hid

theorem ask (h : Files rt st st₁) (hid : Claimed rt st id) : Files rt st (waitAck st₁ id c) := by
  refine ⟨h.ids, ?_, h.status⟩
  intro c' id' ho
  rcases ho with ho | ho
  · exact h.owns c' id' (.inl ho)
  · have ho : (st₁.ackWaiters.set id c).get? id' = some c' := ho
    rw [Map.get?_set] at ho
    split at ho
    · next heq =>
      rw [heq]
      exact hid
    · exact h.owns c' id' (.inr ho)

/-- Fewer waiters wait. -/
theorem fewer (h : Files rt st st₁) (hcalls : st'.calls = st₁.calls) (hids : st'.ids = st₁.ids)
    (hack : ∀ id c, st'.ackWaiters.get? id = some c → st₁.ackWaiters.get? id = some c)
    (hstatus : ∀ id, st'.statusWaiters.has id = true → st₁.statusWaiters.has id = true) :
    Files rt st st' := by
  refine ⟨by rw [hids]; exact h.ids, ?_, fun id hid => h.status id (hstatus id hid)⟩
  intro c' id' ho
  rcases ho with ⟨s, hs, hid⟩ | ho
  · have hs : st'.calls.get? c' = some s := hs
    rw [hcalls] at hs
    exact h.owns c' id' (.inl ⟨s, hs, hid⟩)
  · exact h.owns c' id' (.inr (hack id' c' ho))

/-- A request goes out. -/
theorem issue {s : Stage} {frame : ClientFrame} {r : CallResult ν} (h : Files rt st st₁)
    (hid : Claimed rt st id) (hs : s.ownId = some id) :
    Files rt st (match writeOrQueue env (waitAck st₁ id c) frame with
      | some st => st.setStage c s
      | none => (waitAck st₁ id c).finish c r) := by
  have hask : Files rt st (waitAck st₁ id c) := h.ask hid
  split
  · next st₂ hw =>
    obtain ⟨outbox, sent, rfl⟩ := writeOrQueue_eq hw
    refine setStage (hask.after rfl (Nat.le_refl _)) ?_
    intro id' hid'
    rw [hs] at hid'
    obtain rfl := Option.some.inj hid'
    exact hid
  · exact hask.finish c r

end Files

theorem get?_delete_imp {κ α : Type} [DecidableEq κ] {m : Map κ α} {k k' : κ} {v : α}
    (h : (m.delete k).get? k' = some v) : m.get? k' = some v := by
  rw [Map.get?_delete] at h
  split at h
  · cases h
  · exact h

theorem has_delete_imp {κ α : Type} [DecidableEq κ] {m : Map κ α} {k k' : κ}
    (h : (m.delete k).has k' = true) : m.has k' = true := by
  obtain ⟨v, hv⟩ := (Map.has_iff _ _).mp h
  exact (Map.has_iff _ _).mpr ⟨v, get?_delete_imp hv⟩

theorem claimed_new (hinj : Function.Injective rt.makeMsgId) (st : ClientState ν) :
    Claimed rt st (rt.makeMsgId st.ids) := .inr (not_made hinj st.ids)

/-- A frame is written, or not, and nobody waits for it. -/
theorem Files.write (h : Files rt st st₁) (frame : ClientFrame) :
    Files rt st ((writeOrQueue env st₁ frame).getD st₁) := by
  cases hw : writeOrQueue env st₁ frame with
  | none => exact h
  | some st' =>
      obtain ⟨outbox, sent, rfl⟩ := writeOrQueue_eq hw
      exact h.after rfl (Nat.le_refl _)

theorem Enters.files (rt : Runtime) {e : ClientEvent ν} (h : Enters st c e st₁) :
    Files rt st st₁ ∧ st₁.ids = st.ids ∧ st₁.tables = st.tables := by
  cases h with
  | calls hnew => exact ⟨.refl rt st, rfl, rfl⟩
  | resumes hjobs hj hstage hs => exact ⟨.of_same rfl (Nat.le_refl _), rfl, rfl⟩

/-! ### What a step files -/

/-- Ids of calls are new or were a call's before; a status request takes a new one that is
no call's. -/
structure Filing (rt : Runtime) (st st' : ClientState ν) : Prop where
  ids : st.ids ≤ st'.ids
  owns : ∀ c id, Owns st'.desk c id → Claimed rt st id
  status : ∀ id, st'.statusWaiters.has id = true → st.statusWaiters.has id = true ∨
    ¬ Made rt st.ids id ∧ Made rt st'.ids id ∧ ∀ c, ¬ Owns st'.desk c id

theorem Files.filing (h : Files rt st st') : Filing rt st st' :=
  ⟨h.ids, h.owns, fun id hid => .inl (h.status id hid)⟩

theorem TripReady.files {use : TripUse} {frame : ClientFrame} {e : ClientEvent ν}
    {st₂ : ClientState ν} (hinj : Function.Injective env.rt.makeMsgId) (henters : Enters st c e st₁)
    (h : TripReady env st₁ c use frame st₂) :
    Files env.rt st st₂ ∧ Claimed env.rt st frame.id := by
  obtain ⟨hfiles, hids, htables⟩ := henters.files env.rt
  rcases h with ⟨rfl, hid, -⟩ | ⟨rfl, hs⟩
  · refine ⟨hfiles.after rfl (Nat.le_succ _), ?_⟩
    rw [hid, hids]
    exact claimed_new hinj st
  · refine ⟨hfiles, .inl ⟨c, .inl ⟨.tripConnect use frame, ?_, rfl⟩⟩⟩
    have hcalls : st₂.calls = st.calls := congrArg Prod.fst htables
    show st.calls.get? c = _
    rw [← hcalls]
    exact hs

theorem issueSend_files (hinj : Function.Injective env.rt.makeMsgId) (plan : SendPlan)
    (h : Files env.rt st st₁) (hids : st₁.ids = st.ids) :
    Files env.rt st (issueSend env now st₁ c plan) := by
  unfold issueSend
  extract_lets frame st₂ st₃ st₄
  have hid : Claimed env.rt st frame.id := by
    show Claimed env.rt st (env.rt.makeMsgId st₁.ids)
    rw [hids]
    exact claimed_new hinj st
  have h₂ : Files env.rt st st₂ := h.after rfl (Nat.le_succ _)
  have h₃ : Files env.rt st st₃ := by
    show Files env.rt st (if plan.awaitReply then registerMission st₂ now plan frame.id else st₂)
    split
    · exact h₂.booked (registerMission_booked now st₂ plan frame.id)
    · exact h₂
  exact h₃.issue hid rfl

theorem issueReply_files (hinj : Function.Injective env.rt.makeMsgId) (plan : ReplyPlan)
    (h : Files env.rt st st₁) (hids : st₁.ids = st.ids) :
    Files env.rt st (issueReply env now st₁ c plan) := by
  unfold issueReply
  split
  · exact h.finish c _
  · have hused : Files env.rt st st₁.useId := h.after rfl (Nat.le_succ _)
    refine hused.issue ?_ rfl
    rw [hids]
    exact claimed_new hinj st

theorem startStatus_filing (hinj : Function.Injective env.rt.makeMsgId) (room : Option String)
    (hwaits : Waits env.rt st.desk) : Filing env.rt st (startStatus env now st c room) := by
  unfold startStatus
  split
  · exact ((Files.refl env.rt st).finish c _).filing
  · extract_lets src frame src' st₁
    have hstatus : ∀ id, st₁.statusWaiters.has id = true → st.statusWaiters.has id = true ∨
        id = env.rt.makeMsgId st.ids := by
      intro id hid
      obtain ⟨c', hc'⟩ := (Map.has_iff _ _).mp hid
      have hc' : (st.statusWaiters.set frame.id c).get? id = some c' := hc'
      rw [Map.get?_set] at hc'
      split at hc'
      · next heq => exact .inr heq
      · exact .inl ((Map.has_iff _ _).mpr ⟨c', hc'⟩)
    -- the stage names the frame, but it is not one that waits for an acknowledgement
    have hdone : ∀ st' : ClientState ν, st'.statusWaiters = st₁.statusWaiters →
        st'.ids = st₁.ids → (∀ c' id, Owns st'.desk c' id → ∃ c, Owns st.desk c id) →
        Filing env.rt st st' := by
      intro st' hsame hids howns
      refine ⟨by rw [hids]; exact Nat.le_succ _, fun c' id ho => .inl (howns c' id ho), ?_⟩
      intro id hid
      rw [hsame] at hid
      rcases hstatus id hid with hid | rfl
      · exact .inl hid
      · refine .inr ⟨not_made hinj _, ?_, ?_⟩
        · rw [hids]
          exact ⟨st.ids, Nat.lt_succ_self _, rfl⟩
        · intro c' ho
          obtain ⟨c₀, ho⟩ := howns c' _ ho
          have hmade : Made env.rt st.ids (env.rt.makeMsgId st.ids) := by
            rcases ho with ⟨s, hs, hid⟩ | ho
            · exact hwaits.stages c₀ s _ hs hid
            · exact hwaits.made _ c₀ ho
          exact not_made hinj _ hmade
    split
    · next st₂ hw =>
      obtain ⟨outbox, sent, rfl⟩ := writeOrQueue_eq hw
      refine hdone _ rfl rfl ?_
      intro c' id ho
      rcases ho with ⟨s, hs, hid⟩ | ho
      · have hs : (st.calls.set c (.status frame.id)).get? c' = some s := hs
        rw [Map.get?_set] at hs
        split at hs
        · obtain rfl := Option.some.inj hs
          cases hid
        · exact ⟨c', .inl ⟨s, hs, hid⟩⟩
      · exact ⟨c', .inr ho⟩
    · refine hdone _ rfl rfl ?_
      intro c' id ho
      rcases ho with ⟨s, hs, hid⟩ | ho
      · exact ⟨c', .inl ⟨s, get?_delete_imp hs, hid⟩⟩
      · exact ⟨c', .inr ho⟩

theorem onStatus_files (frame : Inbound ν) (h : Files rt st st₁) : Files rt st (onStatus st₁ frame) := by
  unfold onStatus
  split
  · refine Files.finish ?_ _ _
    exact h.fewer rfl rfl (fun _ _ hw => hw) fun _ hid => has_delete_imp hid
  · exact h

theorem onFrame_files (frame : Inbound ν) (h : Files rt st st₁) :
    Files rt st (onFrame env now st₁ frame) := by
  by_cases hack : frame.type = .ack
  · rw [onFrame, hack]
    show Files rt st (onAck st₁ frame)
    unfold onAck
    split
    · exact h.fewer rfl rfl (fun _ _ hw => get?_delete_imp hw) fun _ hid => hid
    · split
      · have hsettled := h.booked (setPending_booked st₁ (st₁.book.pending.cancel frame.id .droppedOffline))
        exact (hsettled.booked (setMission_booked _ frame.id _)).after rfl (Nat.le_refl _)
      · exact h
  · by_cases hres : frame.type = .statusRes
    · rw [onFrame, hres]
      exact onStatus_files frame (h.after rfl (Nat.le_refl _))
    · by_cases herror : frame.type = .error
      · rw [onFrame, herror]
        show Files rt st (onError st₁ frame)
        unfold onError
        dsimp only
        split
        · exact onStatus_files frame
            (h.fewer rfl rfl (fun _ _ hw => get?_delete_imp hw) fun _ hid => hid)
        · exact onStatus_files frame h
      · exact h.booked (onFrame_booked env now st₁ frame hack hres herror)

theorem handleAcked_files (ack : Ack) (h : Files rt st st₁) :
    Files rt st (handleAcked st₁ c ack) := by
  unfold handleAcked
  split
  · next plan id hs =>
    unfold sendAcked
    split
    · dsimp only
      split
      · exact (h.booked (failMission_booked st₁ id _)).finish c _
      · exact h.finish c _
    · split
      · exact h.finish c _
      · split
        · exact (h.booked (watch_booked st₁ id _)).finish c _
        · extract_lets st₂
          have h₂ : Files rt st st₂ := by
            show Files rt st (if _ then _ else _)
            split
            · exact h.booked (setPending_booked _ _)
            · exact h
          have hown : Claimed rt st id := h.owns c id (.inl ⟨_, hs, rfl⟩)
          refine Files.booked (h₂.setStage ?_) (watch_booked _ id _)
          intro id' hid'
          obtain rfl := Option.some.inj hid'
          exact hown
  · unfold replyAcked
    split
    · exact h.finish c _
    · split
      · exact h.finish c _
      · exact h.finish c _
  · unfold tripAcked
    split
    · split
      · exact h.finish c _
      · exact h.finishAfter rfl (Nat.le_refl _)
    · split
      · exact h.finish c _
      · exact h.finishAfter rfl (Nat.le_refl _)
    · split
      · exact h.finish c _
      · exact h.finishAfter rfl (Nat.le_refl _)
    · split
      · dsimp only
        split
        · exact h.finishAfter rfl (Nat.le_refl _)
        · exact h.finish c _
      · exact h.finishAfter rfl (Nat.le_refl _)
  · exact h

theorem handleResolved_files (w : Watcher) (id : String) (r : Resolution ν) (h : Files rt st st₁) :
    Files rt st (handleResolved st₁ w id r) := by
  unfold handleResolved
  split
  · exact h.booked (launchResolved_booked st₁ id r)
  · split
    · unfold sendResolved
      have hdrop : Files rt st (st₁.dropTarget id) := h.booked (dropTarget_booked st₁ id)
      dsimp only
      split
      · exact hdrop.finish _ _
      · exact (hdrop.booked (expireMission_booked _ id)).finish _ _
      · exact hdrop.finishAfter rfl (Nat.le_refl _)
      · exact hdrop.finish _ _
    · exact h

theorem loseRequests_files : Files rt st (loseRequests st) := by
  have hfold : ∀ (cs : List CallId) (st' : ClientState ν), Files rt st st' →
      Files rt st (cs.foldl (fun st c => st.finish c (.snapshot [] [] none)) st') := by
    intro cs
    induction cs with
    | nil =>
        intro st' h
        exact h
    | cons c rest ih =>
        intro st' h
        exact ih _ (h.finish c _)
  unfold loseRequests
  extract_lets lost st₁ st₂
  have h₁ : Files rt st st₁ := .of_same rfl (Nat.le_refl _)
  refine (hfold st₁.statusWaiters.values st₁ h₁).fewer rfl rfl ?_ ?_
  · intro id c hw
    cases hw
  · intro id hid
    cases hid

theorem waitAll_files (start deadline : Int) (targets : List String) (signal : Bool)
    (h : Files rt st st₁) : Files rt st (tickWaitAll env now st₁ c start deadline targets signal) := by
  have hend : ∀ status, Files rt st (endWaitAll env now st₁ c start targets status) := by
    intro status
    exact h.finishAfter rfl (Nat.le_refl _)
  unfold tickWaitAll
  split
  · exact hend _
  · split
    · exact hend _
    · exact h.wait rfl

/-- What an act files. -/
theorem act_filing (hinj : Function.Injective env.rt.makeMsgId) (hwaits : Waits env.rt st.desk)
    {e : ClientEvent ν} (hact : DeskAct env now st e st') : Filing env.rt st st' := by
  have hrefl := Files.refl env.rt st
  have hsame : ∀ {st' : ClientState ν}, st'.tables = st.tables → st.ids ≤ st'.ids →
      Files env.rt st st' := fun htables hids => .of_same htables hids
  cases hact with
  | rest => exact hrefl.filing
  | hello | mute =>
      refine Files.filing ?_
      exact hsame rfl (Nat.le_succ _)
  | beat =>
      refine Files.filing ?_
      unfold handleHeartbeat
      split
      · split
        · exact hsame rfl (Nat.le_succ _)
        · exact hsame rfl (Nat.le_refl _)
      · exact hsame rfl (Nat.le_refl _)
  | refuse hnew hr => exact (hrefl.finish _ _).filing
  | giveUp hjobs hj hstage hr =>
      refine Files.filing ?_
      exact hrefl.finishAfter rfl (Nat.le_refl _)
  | wait hnew hs hnot =>
      rename_i c op s
      have hown : s.ownId = none := by
        cases s with
        | tripConnect use frame => exact absurd rfl (hnot use frame)
        | sendAck | replyAck | tripAck | sendReply => cases hs
        | _ => rfl
      exact (hrefl.wait hown).filing
  | waitTrip henters hid hfits =>
      obtain ⟨hfiles, hids, -⟩ := henters.files env.rt
      refine Files.filing (Files.setStage ?_ ?_)
      · exact hfiles.after rfl (Nat.le_succ _)
      intro id hid'
      obtain rfl := Option.some.inj hid'
      rw [hid, hids]
      exact claimed_new hinj st
  | send henters hplan =>
      obtain ⟨hfiles, hids, -⟩ := henters.files env.rt
      exact (issueSend_files hinj _ hfiles hids).filing
  | reply henters =>
      obtain ⟨hfiles, hids, -⟩ := henters.files env.rt
      exact (issueReply_files hinj _ hfiles hids).filing
  | trip henters hready =>
      obtain ⟨hfiles, hid⟩ := hready.files hinj henters
      exact (hfiles.issue hid rfl).filing
  | tripFailed henters hready =>
      obtain ⟨hfiles, hid⟩ := hready.files hinj henters
      refine Files.filing ?_
      refine Files.after (hfiles.setStage ?_) rfl (Nat.le_refl _)
      intro id hid'
      obtain rfl := Option.some.inj hid'
      exact hid
  | status hnew hon => exact startStatus_filing hinj _ hwaits
  | detach henters hde =>
      obtain ⟨hfiles, -, -⟩ := henters.files env.rt
      exact ((hfiles.wait rfl).booked (setPending_booked _ _)).filing
  | closing hnew => exact ((hrefl.booked (setPending_booked st _)).wait rfl).filing
  | close hnew => exact ((hrefl.booked (setPending_booked st _)).finish _ _).filing
  | waitAll hnew =>
      refine Files.filing ?_
      unfold startWaitAll
      dsimp only
      split
      · exact hrefl.finishAfter rfl (Nat.le_refl _)
      · refine waitAll_files _ _ _ _ ?_
        exact hsame rfl (Nat.le_refl _)
  | cancelAll hnew => exact ((hrefl.booked (cancelAllAwaited_booked st)).finish _ _).filing
  | notice hnew hframe =>
      refine (Files.finish ?_ _ _).filing
      unfold sendNotice
      split
      · have hid : Files env.rt st st.useId := hsame rfl (Nat.le_succ _)
        exact hid.write _
      · exact hrefl
  | abort =>
      refine Files.filing ?_
      unfold handleAbort
      dsimp only
      split
      · split
        · refine Files.booked ?_ (setPending_booked _ _)
          exact hsame rfl (Nat.le_refl _)
        · exact hsame rfl (Nat.le_refl _)
      · exact hrefl.finishAfter rfl (Nat.le_refl _)
      · exact hsame rfl (Nat.le_refl _)
  | acked hjobs =>
      refine Files.filing (handleAcked_files _ ?_)
      exact hsame rfl (Nat.le_refl _)
  | resolved hjobs =>
      refine Files.filing (handleResolved_files _ _ _ ?_)
      exact hsame rfl (Nat.le_refl _)
  | lost hloses => exact loseRequests_files.filing
  | flush hjobs =>
      obtain ⟨outbox, sent, heq⟩ := flushFrames_eq env (min st.outbox.length outboxFlushCap) st
      show Filing env.rt st (flushFrames env _ st).1
      rw [heq]
      refine Files.filing ?_
      exact hsame rfl (Nat.le_refl _)
  | line hread =>
      refine Files.filing (onFrame_files _ ?_)
      exact hsame rfl (Nat.le_refl _)
  | ackTimeout hjobs =>
      refine Files.filing ?_
      unfold handleAckTimeout
      split
      · exact hrefl.fewer rfl rfl (fun _ _ hw => get?_delete_imp hw) fun _ hid => hid
      · exact hsame rfl (Nat.le_refl _)
  | statusTimeout hjobs =>
      refine Files.filing ?_
      unfold handleStatusTimeout
      split
      · refine Files.finish ?_ _ _
        exact hrefl.fewer rfl rfl (fun _ _ hw => hw) fun _ hid => has_delete_imp hid
      · exact hsame rfl (Nat.le_refl _)
  | expire hjobs =>
      have hidle : Files env.rt st st.idle := hsame rfl (Nat.le_refl _)
      exact (hidle.booked (setPending_booked st.idle _)).filing
  | remind hjobs =>
      refine Files.filing ?_
      unfold handleRemind
      dsimp only
      split
      · unfold sendRemind
        split
        · exact hsame rfl (Nat.le_refl _)
        · split
          · exact hsame rfl (Nat.le_refl _)
          · refine Files.write ?_ _
            exact hsame rfl (Nat.le_refl _)
      · exact hsame rfl (Nat.le_refl _)
  | tick hjobs =>
      refine Files.filing ?_
      unfold handleTick
      split
      · refine waitAll_files _ _ _ _ ?_
        exact hsame rfl (Nat.le_refl _)
      · exact hsame rfl (Nat.le_refl _)

/-- What a step of the client files. -/
theorem clientStep_filing (hinj : Function.Injective env.rt.makeMsgId)
    (hwaits : Waits env.rt st.desk) (e : ClientEvent ν) :
    Filing env.rt st (clientStep env now st e) := by
  obtain ⟨st₁, hact, hdesk⟩ := clientStep_act env now st e
  have hfiling := act_filing hinj hwaits hact
  have hids : (clientStep env now st e).ids = st₁.ids := congrArg Desk.ids hdesk
  have hstatus : (clientStep env now st e).statusWaiters = st₁.statusWaiters :=
    congrArg Desk.statusWaiters hdesk
  refine ⟨by rw [hids]; exact hfiling.ids, ?_, ?_⟩
  · rw [hdesk]
    exact hfiling.owns
  · rw [hdesk, hids, hstatus]
    exact hfiling.status

end Files

/-! ### An id has one use -/

/-- Neither a call nor a status request has this id. -/
def Elsewhere (st : ClientState ν) (id : String) : Prop :=
  (∀ c, ¬ Owns st.desk c id) ∧ st.statusWaiters.has id = false

/-- An id is of a call, a status request, a control request or a lease request; a control
request that waits has not returned, and no other request is of its call. -/
structure OneUse (rt : Runtime) (m : MeshClient ν) : Prop where
  waits : Waits rt m.base.desk
  status : ∀ id, m.base.statusWaiters.has id = true →
    Made rt m.base.ids id ∧ ∀ c, ¬ Owns m.base.desk c id
  ctl : ∀ id, m.ctlWaiters.has id = true → Made rt m.base.ids id ∧ Elsewhere m.base id
  lease : ∀ id, m.leaseWaiters.has id = true →
    Made rt m.base.ids id ∧ Elsewhere m.base id ∧ m.ctlWaiters.has id = false
  waiting : ∀ id w, m.ctlWaiters.get? id = some w → m.answers.get? w.call = none
  once : ∀ id id' w w', m.ctlWaiters.get? id = some w → m.ctlWaiters.get? id' = some w' →
    w.call = w'.call → id = id'
  apart : ∀ id id' w w', m.ctlWaiters.get? id = some w → m.leaseWaiters.get? id' = some w' →
    w.call ≠ w'.1
  kinds : ∀ id w, m.leaseWaiters.get? id = some w →
    w.2 = .claim ∨ w.2 = .release ∨ w.2 = .leaseStatus

section OneUse

variable {env : ClientEnv} {now : Int} {rt : Runtime} {m : MeshClient ν} {st st' : ClientState ν}
  {c : CallId} {id : String}

/-- An id that was made and is used elsewhere stays so. -/
theorem Filing.elsewhere (h : Filing rt st st') (hmade : Made rt st.ids id) (hid : Elsewhere st id) :
    Elsewhere st' id := by
  refine ⟨?_, ?_⟩
  · intro c ho
    rcases h.owns c id ho with ⟨c', ho⟩ | hnew
    · exact hid.1 c' ho
    · exact hnew hmade
  · cases hhas : st'.statusWaiters.has id with
    | false => rfl
    | true =>
        rcases h.status id hhas with hold | ⟨hnew, -⟩
        · rw [hid.2] at hold
          cases hold
        · exact absurd hmade hnew

theorem get?_answer (m : MeshClient ν) (c c' : CallId) (r : PlaneResult) :
    (m.answer c r).answers.get? c' =
      if c' = c ∧ m.answers.get? c = none then some r else m.answers.get? c' := by
  show (if m.answers.has c then m.answers else m.answers.set c r).get? c' = _
  cases hc : m.answers.get? c with
  | some r' => simp [Map.has, hc]
  | none =>
      rw [if_neg (by simp [Map.has, hc]), Map.get?_set]
      simp

namespace OneUse

/-- A step of the client of the other modules. -/
theorem base (h : OneUse rt m) (hf : Filing rt m.base st') (hw : Waits rt st'.desk) :
    OneUse rt { m with base := st' } := by
  have hmono : ∀ {id}, Made rt m.base.ids id → Made rt st'.ids id := fun hmade => hmade.mono hf.ids
  refine ⟨hw, ?_, ?_, ?_, h.waiting, h.once, h.apart, h.kinds⟩
  · intro id hid
    rcases hf.status id hid with hold | ⟨-, hmade, howns⟩
    · obtain ⟨hmade, howns⟩ := h.status id hold
      refine ⟨hmono hmade, ?_⟩
      intro c ho
      rcases hf.owns c id ho with ⟨c', ho⟩ | hnew
      · exact howns c' ho
      · exact hnew hmade
    · exact ⟨hmade, howns⟩
  · intro id hid
    obtain ⟨hmade, helse⟩ := h.ctl id hid
    exact ⟨hmono hmade, hf.elsewhere hmade helse⟩
  · intro id hid
    obtain ⟨hmade, helse, hctl⟩ := h.lease id hid
    exact ⟨hmono hmade, hf.elsewhere hmade helse, hctl⟩

/-- Something that is nobody's request changes. -/
theorem same (h : OneUse rt m) (htables : st'.tables = m.base.tables)
    (hrest : (st'.results, st'.jobs) = (m.base.results, m.base.jobs)) (hids : m.base.ids ≤ st'.ids) :
    OneUse rt { m with base := st' } := by
  refine h.base (Files.of_same htables hids).filing ?_
  simp only [ClientState.tables, Prod.mk.injEq] at htables hrest
  obtain ⟨hcalls, hack, hstatus⟩ := htables
  obtain ⟨hresults, hjobs⟩ := hrest
  refine h.waits.congr hcalls hresults hack hstatus hids ?_
  rw [acked_desk, acked_desk, hjobs]

/-- A control request is settled. -/
theorem settle {w : CtlWaiter} (h : OneUse rt m) (hw : m.ctlWaiters.get? id = some w)
    (r : PlaneResult) : OneUse rt ((m.dropCtl id).answer w.call r) := by
  have hold : ∀ {id' w'}, (m.ctlWaiters.delete id).get? id' = some w' →
      id' ≠ id ∧ m.ctlWaiters.get? id' = some w' := by
    intro id' w' hw'
    rw [Map.get?_delete] at hw'
    split at hw'
    · cases hw'
    · exact ⟨‹_›, hw'⟩
  refine ⟨h.waits, h.status, ?_, ?_, ?_, ?_, ?_, h.kinds⟩
  · exact fun id' hid => h.ctl id' (has_delete_imp hid)
  · intro id' hid
    obtain ⟨hmade, helse, hctl⟩ := h.lease id' hid
    refine ⟨hmade, helse, ?_⟩
    cases hhas : (m.ctlWaiters.delete id).has id' with
    | false => exact hhas
    | true =>
        rw [has_delete_imp hhas] at hctl
        cases hctl
  · intro id' w' hw'
    obtain ⟨hne, hw'⟩ := hold hw'
    have hcall : w'.call ≠ w.call := fun heq => hne (h.once id' id w' w hw' hw heq)
    rw [get?_answer, if_neg (fun hc => hcall hc.1)]
    exact h.waiting id' w' hw'
  · intro id₁ id₂ w₁ w₂ h₁ h₂
    exact h.once id₁ id₂ w₁ w₂ (hold h₁).2 (hold h₂).2
  · intro id₁ id₂ w₁ w₂ h₁ h₂
    exact h.apart id₁ id₂ w₁ w₂ (hold h₁).2 h₂

/-- A call that is not a control request returns. -/
theorem returns (h : OneUse rt m) (hc : ∀ id w, m.ctlWaiters.get? id = some w → w.call ≠ c)
    (r : PlaneResult) : OneUse rt (m.answer c r) := by
  refine ⟨h.waits, h.status, h.ctl, h.lease, ?_, h.once, h.apart, h.kinds⟩
  intro id w hw
  rw [get?_answer, if_neg (fun heq => hc id w hw heq.1)]
  exact h.waiting id w hw

/-- A lease request waits no longer. -/
theorem dropLease (h : OneUse rt m) (id : String) : OneUse rt (m.dropLease id) := by
  refine ⟨h.waits, h.status, h.ctl, ?_, h.waiting, h.once, ?_, ?_⟩
  · exact fun id' hid => h.lease id' (has_delete_imp hid)
  · exact fun id₁ id₂ w₁ w₂ h₁ h₂ => h.apart id₁ id₂ w₁ w₂ h₁ (get?_delete_imp h₂)
  · exact fun id' w hw => h.kinds id' w (get?_delete_imp hw)

end OneUse

/-- A new call is nobody's. -/
theorem isNew_apart (hnew : m.isNew c = true) :
    m.answers.get? c = none ∧ (∀ id w, m.ctlWaiters.get? id = some w → w.call ≠ c) ∧
      ∀ id w, m.leaseWaiters.get? id = some w → w.1 ≠ c := by
  unfold MeshClient.isNew at hnew
  simp only [Bool.and_eq_true, Bool.not_eq_true', List.all_eq_true, bne_iff_ne] at hnew
  obtain ⟨⟨hanswer, hctl⟩, hlease⟩ := hnew
  refine ⟨by simpa [Map.has] using hanswer, ?_, ?_⟩
  · exact fun id w hw => hctl w ((Map.mem_values_iff _ _).mpr ⟨id, hw⟩)
  · exact fun id w hw => hlease w ((Map.mem_values_iff _ _).mpr ⟨id, hw⟩)

theorem not_has_of_not_made {α : Type} {t : Map String α} (hinj : Function.Injective rt.makeMsgId)
    (h : ∀ id, t.has id = true → Made rt st.ids id) : t.has (rt.makeMsgId st.ids) = false := by
  cases hhas : t.has (rt.makeMsgId st.ids) with
  | false => rfl
  | true => exact absurd (h _ hhas) (not_made hinj st.ids)

/-- The next id is nobody's. -/
theorem elsewhere_new (hinj : Function.Injective rt.makeMsgId) (h : OneUse rt m) :
    Elsewhere m.base (rt.makeMsgId m.base.ids) := by
  refine ⟨?_, not_has_of_not_made hinj fun id hid => (h.status id hid).1⟩
  intro c ho
  refine not_made hinj m.base.ids ?_
  rcases ho with ⟨s, hs, hid⟩ | ho
  · exact h.waits.stages c s _ hs hid
  · exact h.waits.made _ c ho

/-- A control request is filed under a new id. -/
theorem OneUse.fileCtl (hinj : Function.Injective rt.makeMsgId) (h : OneUse rt m)
    (hnew : m.isNew c = true) {w : CtlWaiter} (hw : w.call = c) :
    OneUse rt { m with
      base := m.base.useId, ctlWaiters := m.ctlWaiters.set (rt.makeMsgId m.base.ids) w } := by
  obtain ⟨hanswer, hctl, hlease⟩ := isNew_apart hnew
  have hnone : m.leaseWaiters.has (rt.makeMsgId m.base.ids) = false :=
    not_has_of_not_made hinj fun id hid => (h.lease id hid).1
  have hused : OneUse rt { m with base := m.base.useId } := h.same rfl rfl (Nat.le_succ _)
  have hset : ∀ {id' w'}, (m.ctlWaiters.set (rt.makeMsgId m.base.ids) w).get? id' = some w' →
      id' = rt.makeMsgId m.base.ids ∧ w' = w ∨ m.ctlWaiters.get? id' = some w' := by
    intro id' w' hw'
    rw [Map.get?_set] at hw'
    split at hw'
    · exact .inl ⟨‹_›, (Option.some.inj hw').symm⟩
    · exact .inr hw'
  refine ⟨hused.waits, hused.status, ?_, ?_, ?_, ?_, ?_, h.kinds⟩
  · intro id' hid
    obtain ⟨w', hw'⟩ := (Map.has_iff _ _).mp hid
    rcases hset hw' with ⟨rfl, -⟩ | hw'
    · exact ⟨⟨m.base.ids, Nat.lt_succ_self _, rfl⟩, elsewhere_new hinj h⟩
    · exact hused.ctl id' ((Map.has_iff _ _).mpr ⟨w', hw'⟩)
  · intro id' hid
    obtain ⟨hmade, helse, hno⟩ := hused.lease id' hid
    refine ⟨hmade, helse, ?_⟩
    cases hhas : (m.ctlWaiters.set (rt.makeMsgId m.base.ids) w).has id' with
    | false => rfl
    | true =>
        obtain ⟨w', hw'⟩ := (Map.has_iff _ _).mp hhas
        rcases hset hw' with ⟨rfl, -⟩ | hw'
        · rw [hnone] at hid
          cases hid
        · rw [(Map.has_iff _ _).mpr ⟨w', hw'⟩] at hno
          cases hno
  · intro id' w' hw'
    rcases hset hw' with ⟨-, rfl⟩ | hw'
    · rw [hw]
      exact hanswer
    · exact h.waiting id' w' hw'
  · intro id₁ id₂ w₁ w₂ h₁ h₂ heq
    rcases hset h₁ with ⟨hid₁, hw₁⟩ | hold₁
    · rcases hset h₂ with ⟨hid₂, -⟩ | hold₂
      · rw [hid₁, hid₂]
      · rw [hw₁, hw] at heq
        exact absurd heq.symm (hctl id₂ w₂ hold₂)
    · rcases hset h₂ with ⟨-, hw₂⟩ | hold₂
      · rw [hw₂, hw] at heq
        exact absurd heq (hctl id₁ w₁ hold₁)
      · exact h.once id₁ id₂ w₁ w₂ hold₁ hold₂ heq
  · intro id₁ id₂ w₁ w₂ h₁ h₂
    rcases hset h₁ with ⟨-, rfl⟩ | h₁
    · rw [hw]
      exact fun heq => hlease id₂ w₂ h₂ heq.symm
    · exact h.apart id₁ id₂ w₁ w₂ h₁ h₂

/-- A lease request is filed under an id that was just made. -/
theorem OneUse.fileLease (hinj : Function.Injective rt.makeMsgId) (h : OneUse rt m)
    (hnew : m.isNew c = true) {kind : MeshFrameType}
    (hkind : kind = .claim ∨ kind = .release ∨ kind = .leaseStatus) :
    OneUse rt { m with
      base := m.base.useId
      leaseWaiters := m.leaseWaiters.set (rt.makeMsgId m.base.ids) (c, kind) } := by
  obtain ⟨-, hctl, -⟩ := isNew_apart hnew
  have hused : OneUse rt { m with base := m.base.useId } := h.same rfl rfl (Nat.le_succ _)
  have hset : ∀ {id' w'}, (m.leaseWaiters.set (rt.makeMsgId m.base.ids) (c, kind)).get? id' = some w' →
      id' = rt.makeMsgId m.base.ids ∧ w' = (c, kind) ∨ m.leaseWaiters.get? id' = some w' := by
    intro id' w' hw'
    rw [Map.get?_set] at hw'
    split at hw'
    · exact .inl ⟨‹_›, (Option.some.inj hw').symm⟩
    · exact .inr hw'
  refine ⟨hused.waits, hused.status, hused.ctl, ?_, h.waiting, h.once, ?_, ?_⟩
  · intro id' hid
    obtain ⟨w', hw'⟩ := (Map.has_iff _ _).mp hid
    rcases hset hw' with ⟨rfl, -⟩ | hw'
    · exact ⟨⟨m.base.ids, Nat.lt_succ_self _, rfl⟩, elsewhere_new hinj h,
        not_has_of_not_made hinj fun id hid => (h.ctl id hid).1⟩
    · exact hused.lease id' ((Map.has_iff _ _).mpr ⟨w', hw'⟩)
  · intro id₁ id₂ w₁ w₂ h₁ h₂
    rcases hset h₂ with ⟨-, rfl⟩ | h₂
    · exact hctl id₁ w₁ h₁
    · exact h.apart id₁ id₂ w₁ w₂ h₁ h₂
  · intro id' w' hw'
    rcases hset hw' with ⟨-, rfl⟩ | hw'
    · exact hkind
    · exact h.kinds id' w' hw'

end OneUse

/-! ### Steps keep the ids apart -/

section Steps

variable {env : ClientEnv} {now : Int} {rt : Runtime} {m m' : MeshClient ν} {c : CallId} {id : String}

theorem settleCtl_oneUse (key : String) (frame : Inbound ν) (h : OneUse rt m) :
    OneUse rt (settleCtl m key frame) := by
  unfold settleCtl
  split
  · next w hw => exact h.settle hw _
  · exact h

theorem onLease_oneUse (frame : Inbound ν) (h : OneUse rt m) : OneUse rt (onLease m frame) := by
  unfold onLease
  dsimp only
  split
  · next w hw =>
    refine (h.dropLease _).returns ?_ _
    exact fun id' w' hw' => h.apart id' _ w' w hw' hw
  · exact h

theorem onPlaneFrame_oneUse (frame : Inbound ν) (h : OneUse rt m) :
    OneUse rt (onPlaneFrame m frame) := by
  unfold onPlaneFrame
  split
  · exact onLease_oneUse frame h
  · unfold onCtlAck
    split
    · exact settleCtl_oneUse _ frame h
    · exact h
  · exact settleCtl_oneUse _ frame h
  · exact h

theorem control_oneUse (hinj : Function.Injective env.rt.makeMsgId) (opts : ControlOpts)
    (hnew : m.isNew c = true) (h : OneUse env.rt m) :
    OneUse env.rt (control env now m c opts) := by
  unfold control
  split
  · exact h.returns (isNew_apart hnew).2.1 _
  · extract_lets frame waiter m₁
    have h₁ : OneUse env.rt m₁ := h.fileCtl hinj hnew rfl
    split
    · exact h₁
    · split
      · exact h₁.same rfl rfl (Nat.le_refl _)
      · exact h₁.settle (Map.get?_set_self _ _ _) _

theorem sendCtlAck_oneUse (ack : CtlAckOpts) (h : OneUse env.rt m) :
    OneUse env.rt (sendCtlAck env now m ack) := by
  unfold sendCtlAck
  split
  · exact h
  · dsimp only
    split
    · exact h.same rfl rfl (Nat.le_succ _)
    · exact h.same rfl rfl (Nat.le_succ _)

/-- The type of the frame of a lease request. -/
theorem leaseFrame_type (env : ClientEnv) (now : Int) (st : ClientState ν) (ask : LeaseAsk) :
    (leaseFrame env now st ask).type = .claim ∨ (leaseFrame env now st ask).type = .release ∨
      (leaseFrame env now st ask).type = .leaseStatus := by
  cases ask with
  | claim => exact .inl rfl
  | release => exact .inr (.inl rfl)
  | status => exact .inr (.inr rfl)

theorem leaseFrame_id (env : ClientEnv) (now : Int) (st : ClientState ν) (ask : LeaseAsk) :
    (leaseFrame env now st ask).id = env.rt.makeMsgId st.ids := by
  cases ask with
  | claim | release | status => rfl

theorem askLease_oneUse (hinj : Function.Injective env.rt.makeMsgId) (ask : LeaseAsk)
    (hnew : m.isNew c = true) (h : OneUse env.rt m) : OneUse env.rt (askLease env now m c ask) := by
  have hc := (isNew_apart hnew).2.1
  have hused : OneUse env.rt { m with base := m.base.useId } := h.same rfl rfl (Nat.le_succ _)
  have huse := h.fileLease hinj hnew (leaseFrame_type env now m.base ask)
  rw [← leaseFrame_id env now m.base ask] at huse
  unfold askLease requestLease
  split
  · exact hused.returns hc _
  · split
    · exact hused.returns hc _
    · dsimp only
      split
      · exact huse.same rfl rfl (Nat.le_refl _)
      · exact huse.returns hc _

theorem whenIdle_oneUse {f : MeshClient ν → MeshClient ν} (hf : ∀ m, OneUse rt m → OneUse rt (f m))
    (h : OneUse rt m) : OneUse rt (whenIdle m f) := by
  unfold whenIdle
  split
  · exact hf _ (h.same rfl rfl (Nat.le_refl _))
  · exact h

theorem meshStep_oneUse (hinj : Function.Injective env.rt.makeMsgId) (e : MeshEvent ν)
    (h : OneUse env.rt m) : OneUse env.rt (meshStep env now m e) := by
  cases e with
  | base e =>
      have hbase : OneUse env.rt { m with base := clientStep env now m.base e } :=
        h.base (clientStep_filing hinj h.waits e) (clientStep_waits hinj e h.waits)
      show OneUse env.rt (handleBase env now m e)
      unfold handleBase
      dsimp only
      split
      · split
        · exact onPlaneFrame_oneUse _ hbase
        · exact hbase
      · exact hbase
  | control c opts =>
      unfold meshStep
      dsimp only
      split
      · next hnew => exact control_oneUse hinj opts hnew h
      · exact h
  | sendCtlAck ack => exact sendCtlAck_oneUse ack h
  | askLease c ask =>
      unfold meshStep
      dsimp only
      split
      · next hnew => exact askLease_oneUse hinj ask hnew h
      · exact h
  | ctlTimeout id =>
      show OneUse env.rt (whenIdle m fun m => handleCtlTimeout m id)
      refine whenIdle_oneUse (fun m h => ?_) h
      unfold handleCtlTimeout
      split
      · next w hw => exact h.settle hw _
      · exact h
  | ctlWriteFailed id message =>
      show OneUse env.rt (whenIdle m fun m => handleCtlWriteFailed m id message)
      refine whenIdle_oneUse (fun m h => ?_) h
      unfold handleCtlWriteFailed
      split
      · next w hw => exact h.settle hw _
      · exact h
  | leaseTimeout id =>
      show OneUse env.rt (whenIdle m fun m => handleLeaseTimeout m id)
      refine whenIdle_oneUse (fun m h => ?_) h
      unfold handleLeaseTimeout
      split
      · next w hw =>
        refine (h.dropLease _).returns ?_ _
        exact fun id' w' hw' => h.apart id' _ w' w hw' hw
      · exact h

theorem oneUse_init (rt : Runtime) (name : String) (rooms : List String)
    (reservations : List FileReservation) :
    OneUse rt (MeshClient.init name rooms reservations : MeshClient ν) := by
  have hctl : ∀ id w, (Map.empty : Map String CtlWaiter).get? id ≠ some w := by
    intro id w hw
    cases hw
  have hlease : ∀ id w, (Map.empty : Map String (CallId × MeshFrameType)).get? id ≠ some w := by
    intro id w hw
    cases hw
  refine ⟨waits_init rt name rooms reservations, ?_, ?_, ?_, ?_, ?_, ?_, ?_⟩
  · intro id hid
    cases hid
  · intro id hid
    cases hid
  · intro id hid
    cases hid
  · exact fun id w hw => absurd hw (hctl id w)
  · exact fun id id' w w' hw => absurd hw (hctl id w)
  · exact fun id id' w w' hw => absurd hw (hctl id w)
  · exact fun id w hw => absurd hw (hlease id w)

/-- In every run. -/
theorem oneUse_run (hinj : Function.Injective env.rt.makeMsgId) {name : String} {rooms : List String}
    {reservations : List FileReservation} {tr : List (MeshClient ν × Int × MeshEvent ν)}
    (hrun : Run (MeshStep env) (MeshClient.init name rooms reservations) tr m) : OneUse env.rt m := by
  refine hrun.invariant (P := fun m => OneUse env.rt m) (Meets.trivial tr) (oneUse_init _ _ _ _) ?_
  intro m e m' h _ hstep
  have hstep : meshStep env e.1 m e.2 = m' := hstep
  rw [← hstep]
  exact meshStep_oneUse hinj e.2 h

end Steps

end PiMesh
