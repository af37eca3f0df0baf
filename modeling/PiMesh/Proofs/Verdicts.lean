/-
What a `waitAll` reports.

The targets of a `waitAll` are fixed when it is called, its lists are made when it ends, and
a mission may go in between: it is given up, its send is aborted, or it is pruned when the
book is full.  Where no step takes a mission from a `waitAll` that still lists it, the two
lists of every verdict are a partition of its targets.  That a mission is reported once rests
on `reportedMissions`: a later call leaves out what is in it, unless `awaitTargets` still
names it, and it forgets the older half of its entries when it is full.
-/
import PiMesh.Proofs.Missions

namespace PiMesh

open Js Transition

variable {ν : Type} [Number ν]

/-! ### Waiting and reporting -/

def Stage.isWaitAll : Stage → Bool
  | .waitAll _ _ _ _ => true
  | _ => false

def ClientState.waiting (st : ClientState ν) (c : CallId) : Option Stage :=
  (st.calls.get? c).filter Stage.isWaitAll

def CallResult.verdict? : CallResult ν → Option WaitAllSummary
  | .verdict s => some s
  | _ => none

def ClientState.verdict? (st : ClientState ν) (c : CallId) : Option WaitAllSummary :=
  (st.results.get? c).bind CallResult.verdict?

/-- A `waitAll` that has not returned lists this mission. -/
def Awaited (st : ClientState ν) (id : String) : Prop :=
  ∃ c start deadline targets signal,
    st.calls.get? c = some (.waitAll start deadline targets signal) ∧ id ∈ targets

/-- The step registers a mission. -/
def Issues (env : ClientEnv) (st : ClientState ν) (e : ClientEvent ν) : Prop :=
  ∃ c plan, Planned env st c plan e ∧ plan.awaitReply = true

/-- No mission goes that a `waitAll` lists, and none that `awaitTargets` goes on naming: not
where all missions are given up, not with an aborted send, not to make room for another. -/
structure SparesTargets (env : ClientEnv) (st : ClientState ν) (e : ClientEvent ν) : Prop where
  givenUp : ∀ c, e = .call c .cancelAllAwaited →
    ∀ id, st.book.awaitTargets.has id = true → ¬ Awaited st id
  aborted : ∀ c id rest, e = .microtask →
    st.jobs = .resolved (.call c) id (.error .cancelled) :: rest → ¬ Awaited st id
  pruned : Issues env st e → ∀ id ∈ st.book.awaitedMissions.keys.take
    (st.book.awaitedMissions.size + 1 - missionCap),
    ¬ Awaited st id ∧ st.book.awaitTargets.has id = false

section Parts

variable {st st' : ClientState ν} {c : CallId}

theorem waiting_eq (st : ClientState ν) (c : CallId) :
    st.waiting c = (st.tracked c).filter Stage.isWaitAll := by
  unfold ClientState.waiting ClientState.tracked
  rw [Option.filter_filter]
  congr 1
  funext s
  cases s with
  | waitAll => rfl
  | _ => simp [Stage.isWaitAll]

theorem verdict?_eq (st : ClientState ν) (c : CallId) :
    st.verdict? c = (st.report c).bind CallResult.verdict? := by
  unfold ClientState.verdict? ClientState.report
  cases st.results.get? c with
  | none => rfl
  | some r =>
      cases r with
      | verdict s => rfl
      | send r =>
          cases r with
          | _ => rfl
      | _ => rfl

theorem awaited_iff (st : ClientState ν) (id : String) : Awaited st id ↔
    ∃ c start deadline targets signal,
      st.waiting c = some (.waitAll start deadline targets signal) ∧ id ∈ targets := by
  unfold Awaited ClientState.waiting
  simp only [Option.filter_eq_some_iff]
  constructor
  · rintro ⟨c, start, deadline, targets, signal, hs, hid⟩
    exact ⟨c, start, deadline, targets, signal, ⟨hs, rfl⟩, hid⟩
  · rintro ⟨c, start, deadline, targets, signal, ⟨hs, _⟩, hid⟩
    exact ⟨c, start, deadline, targets, signal, hs, hid⟩

/-- Nobody waits otherwise, and no verdict was given. -/
structure SameWaits (st st' : ClientState ν) : Prop where
  waiting : ∀ c, st'.waiting c = st.waiting c
  verdict : ∀ c, st'.verdict? c = st.verdict? c

namespace SameWaits

theorem refl (st : ClientState ν) : SameWaits st st := ⟨fun _ => rfl, fun _ => rfl⟩

theorem trans {st'' : ClientState ν} (h : SameWaits st st') (h' : SameWaits st' st'') :
    SameWaits st st'' :=
  ⟨fun c => (h'.waiting c).trans (h.waiting c), fun c => (h'.verdict c).trans (h.verdict c)⟩

theorem of_same (hcalls : st'.calls = st.calls) (hresults : st'.results = st.results) :
    SameWaits st st' := by
  refine ⟨fun c => ?_, fun c => ?_⟩
  · unfold ClientState.waiting
    rw [hcalls]
  · unfold ClientState.verdict?
    rw [hresults]

theorem of_aside (h : Apart st st') : SameWaits st st' := by
  refine ⟨fun c => ?_, fun c => ?_⟩
  · rw [waiting_eq, waiting_eq, h.tracked]
  · rw [verdict?_eq, verdict?_eq, h.report]

theorem finish {r : CallResult ν} (hc : st.waiting c = none) (hr : r.verdict? = none) :
    SameWaits st (st.finish c r) := by
  refine ⟨fun c' => ?_, fun c' => ?_⟩
  · show ((st.calls.delete c).get? c').filter Stage.isWaitAll = _
    rw [Map.get?_delete]
    by_cases heq : c' = c
    · rw [if_pos heq, heq, hc]
      rfl
    · rw [if_neg heq]
      rfl
  · show ((if st.results.has c then st.results else st.results.set c r).get? c').bind _ = _
    split
    · rfl
    · next hnone =>
      rw [Map.get?_set]
      by_cases heq : c' = c
      · have hget : st.results.get? c = none := by simpa [Map.has] using hnone
        rw [if_pos heq, heq]
        unfold ClientState.verdict?
        rw [hget, Option.bind_some, hr]
        rfl
      · rw [if_neg heq]
        rfl

theorem setStage {s : Stage} (hc : st.waiting c = none) (hs : s.isWaitAll = false) :
    SameWaits st (st.setStage c s) := by
  refine ⟨fun c' => ?_, fun _ => rfl⟩
  show ((st.calls.set c s).get? c').filter Stage.isWaitAll = _
  rw [Map.get?_set]
  by_cases heq : c' = c
  · rw [if_pos heq, heq, hc]
    simp [hs]
  · rw [if_neg heq]
    rfl

theorem booked (h : Booked st st') : SameWaits st st' := of_same h.calls h.results

end SameWaits

theorem waiting_of_stage {s : Stage} (hs : st.calls.get? c = some s) (hw : s.isWaitAll = false) :
    st.waiting c = none := by
  unfold ClientState.waiting
  rw [hs]
  simp [hw]

theorem waiting_of_untracked (h : st.tracked c = none) : st.waiting c = none := by
  rw [waiting_eq, h]
  rfl

end Parts

/-! ### What a step does to missions and targets -/

/-- An answer is never without its text. -/
def Sound (missions : Map String Mission) : Prop :=
  ∀ id m, missions.get? id = some m → m.answered = true → m.response.isSome = true

/-- The tables of missions after a step that gives no verdict. -/
structure Shifts (env : ClientEnv) (e : ClientEvent ν) (st st' : ClientState ν) : Prop where
  ids : st.ids ≤ st'.ids
  waits : SameWaits st st'
  reported : st'.book.reportedMissions = st.book.reportedMissions
  targets : ∀ id, st'.book.awaitTargets.has id = true →
    st.book.awaitTargets.has id = true ∨ st'.book.awaitedMissions.has id = true
  fresh : ∀ id, st'.book.awaitedMissions.has id = true →
    st.book.awaitedMissions.has id = true ∨ env.rt.makeMsgId st.ids = id ∧ st.ids < st'.ids
  kept : SparesTargets env st e → ∀ id, st.book.awaitedMissions.has id = true →
    Awaited st id ∨ st'.book.awaitTargets.has id = true → st'.book.awaitedMissions.has id = true
  sound : Sound st.book.awaitedMissions → Sound st'.book.awaitedMissions

section Step

variable {env : ClientEnv} {now : Int} {st st' : ClientState ν} {e : ClientEvent ν} {c : CallId}

/-- No mission comes or goes. -/
theorem Shifts.of_missions (hids : st.ids ≤ st'.ids) (hwaits : SameWaits st st')
    (hreported : st'.book.reportedMissions = st.book.reportedMissions)
    (htargets : ∀ id, st'.book.awaitTargets.has id = true → st.book.awaitTargets.has id = true)
    (hmissions : ∀ id, st'.book.awaitedMissions.has id = st.book.awaitedMissions.has id)
    (hsound : Sound st.book.awaitedMissions → Sound st'.book.awaitedMissions) :
    Shifts env e st st' := by
  refine ⟨hids, hwaits, hreported, fun id h => .inl (htargets id h), ?_, ?_, hsound⟩
  · intro id h
    rw [hmissions] at h
    exact .inl h
  · intro _ id h _
    rw [hmissions]
    exact h

theorem Shifts.of_same (hids : st.ids ≤ st'.ids) (hwaits : SameWaits st st')
    (hreported : st'.book.reportedMissions = st.book.reportedMissions)
    (htargets : st'.book.awaitTargets = st.book.awaitTargets)
    (hmissions : st'.book.awaitedMissions = st.book.awaitedMissions) : Shifts env e st st' := by
  refine .of_missions hids hwaits hreported ?_ ?_ ?_
  · intro id h
    rwa [htargets] at h
  · intro id
    rw [hmissions]
  · intro h
    rw [hmissions]
    exact h

theorem Shifts.andThen (h : Shifts env e st st') {st'' : ClientState ν} (hbook : st''.book = st'.book)
    (hids : st'.ids ≤ st''.ids) (hwaits : SameWaits st' st'') : Shifts env e st st'' := by
  refine ⟨Nat.le_trans h.ids hids, h.waits.trans hwaits, ?_, ?_, ?_, ?_, ?_⟩
  · rw [hbook]
    exact h.reported
  · rw [hbook]
    exact h.targets
  · rw [hbook]
    intro id hid
    rcases h.fresh id hid with hold | ⟨hmade, hlt⟩
    · exact .inl hold
    · exact .inr ⟨hmade, Nat.lt_of_lt_of_le hlt hids⟩
  · rw [hbook]
    exact h.kept
  · rw [hbook]
    exact h.sound

theorem has_setMission (st : ClientState ν) (id : String) (f : Mission → Mission) (id' : String) :
    (st.setMission id f).book.awaitedMissions.has id' = st.book.awaitedMissions.has id' := by
  unfold ClientState.setMission
  split
  · next m hm =>
    show (st.book.awaitedMissions.set id (f m)).has id' = _
    unfold Map.has
    rw [Map.get?_set]
    by_cases heq : id' = id
    · rw [if_pos heq, heq, hm]
      rfl
    · rw [if_neg heq]
  · rfl

theorem setMission_sound {id : String} {f : Mission → Mission}
    (hf : ∀ m : Mission, (m.answered = true → m.response.isSome = true) →
      (f m).answered = true → (f m).response.isSome = true)
    (h : Sound st.book.awaitedMissions) : Sound (st.setMission id f).book.awaitedMissions := by
  unfold ClientState.setMission
  split
  · next m hm =>
    intro id' m' hm'
    have hm' : (st.book.awaitedMissions.set id (f m)).get? id' = some m' := hm'
    rw [Map.get?_set] at hm'
    split at hm'
    · obtain rfl := Option.some.inj hm'
      exact hf m (h id m hm)
    · exact h id' m' hm'
  · exact h

theorem has_delete_of_has {κ α : Type} [DecidableEq κ] {m : Map κ α} {k k' : κ}
    (h : (m.delete k).has k' = true) : m.has k' = true := by
  unfold Map.has at h ⊢
  rw [Map.get?_delete] at h
  split at h
  · cases h
  · exact h

/-- A mission is relabelled, and its target may go. -/
theorem setMission_shifts {st₁ : ClientState ν} {id : String} {f : Mission → Mission}
    (hf : ∀ m : Mission, (m.answered = true → m.response.isSome = true) →
      (f m).answered = true → (f m).response.isSome = true)
    (hids : st.ids ≤ st₁.ids) (hwaits : SameWaits st st₁)
    (hreported : st₁.book.reportedMissions = st.book.reportedMissions)
    (htargets : ∀ id, st₁.book.awaitTargets.has id = true → st.book.awaitTargets.has id = true)
    (hmissions : st₁.book.awaitedMissions = st.book.awaitedMissions) :
    Shifts env e st (st₁.setMission id f) := by
  obtain ⟨missions, hparts⟩ := setMission_parts st₁ id f
  have hwaits' : SameWaits st₁ (st₁.setMission id f) := .booked (setMission_booked st₁ id f)
  refine .of_missions ?_ (hwaits.trans hwaits') ?_ ?_ ?_ ?_
  · rw [hparts]
    exact hids
  · rw [hparts]
    exact hreported
  · rw [hparts]
    exact htargets
  · intro id'
    rw [has_setMission, hmissions]
  · intro hsound
    rw [← hmissions] at hsound
    exact setMission_sound hf hsound

theorem setPending_tables (st : ClientState ν) (r : PendingReplies × Resolved ν) :
    SameWaits st (st.setPending r) ∧ (st.setPending r).ids = st.ids ∧
    (st.setPending r).book.reportedMissions = st.book.reportedMissions ∧
    (st.setPending r).book.awaitTargets = st.book.awaitTargets ∧
    (st.setPending r).book.awaitedMissions = st.book.awaitedMissions := by
  obtain ⟨settled, js, hparts⟩ := setPending_parts st r
  refine ⟨.booked (setPending_booked st r), ?_⟩
  rw [hparts]
  exact ⟨rfl, rfl, rfl, rfl⟩

theorem failMission_shifts {st₁ : ClientState ν} (hst : st₁.book = st.book) (hids : st₁.ids = st.ids)
    (hwaits : SameWaits st st₁) (id : String) (code : Option MeshErrorCode) :
    Shifts env e st (failMission st₁ id code) := by
  obtain ⟨hwaits', hids', hreported, htargets, hmissions⟩ :=
    setPending_tables st₁ (st₁.book.pending.cancel id (.refused code))
  unfold failMission
  refine setMission_shifts ?_ ?_ ?_ ?_ ?_ ?_
  · intro m _ _
    rfl
  · show st.ids ≤ (st₁.setPending _).ids
    rw [hids', hids]
  · exact (hwaits.trans hwaits').trans (.of_same rfl rfl)
  · show (st₁.setPending _).book.reportedMissions = _
    rw [hreported, hst]
  · intro id' h
    have h := has_delete_of_has h
    rwa [htargets, hst] at h
  · show (st₁.setPending _).book.awaitedMissions = _
    rw [hmissions, hst]

/-- A new mission, and the oldest go to make room for it. -/
theorem register_shifts {st₁ : ClientState ν} {id : String} (now : Int) (plan : SendPlan)
    (hfree : st.book.awaitedMissions.get? id = none) (hid : env.rt.makeMsgId st.ids = id)
    (hissues : Issues env st e) (hwaits : SameWaits st st₁) (hids : st.ids < st₁.ids)
    (hreported : st₁.book.reportedMissions = st.book.reportedMissions)
    (htargets : st₁.book.awaitTargets =
      st.book.awaitTargets.set id (plan.recipient.getD "*", plan.room))
    (hmissions : st₁.book.awaitedMissions =
      pruneMap missionCap (st.book.awaitedMissions.set id (plan.mission now))) :
    Shifts env e st st₁ := by
  have hpruned : ∀ id', id' ∈ (st.book.awaitedMissions.set id (plan.mission now)).keys.take
      ((st.book.awaitedMissions.set id (plan.mission now)).size - missionCap) →
      id' ∈ st.book.awaitedMissions.keys.take (st.book.awaitedMissions.size + 1 - missionCap) :=
    fun id' h => pruned_old (by decide) hfree h
  refine ⟨Nat.le_of_lt hids, hwaits, hreported, ?_, ?_, ?_, ?_⟩
  · intro id' hid'
    rw [htargets, Map.has, Map.get?_set] at hid'
    by_cases heq : id' = id
    · right
      rw [hmissions, Map.has, get?_pruneMap, if_neg, Map.get?_set, if_pos heq]
      · rfl
      · intro hold
        obtain ⟨m, hm⟩ := (Map.mem_keys_iff _ _).mp (List.mem_of_mem_take (hpruned id' hold))
        rw [heq, hfree] at hm
        cases hm
    · rw [if_neg heq] at hid'
      exact .inl hid'
  · intro id' hid'
    rw [hmissions, Map.has, get?_pruneMap] at hid'
    split at hid'
    · cases hid'
    · rw [Map.get?_set] at hid'
      split at hid'
      · next heq => exact .inr ⟨hid.trans heq.symm, hids⟩
      · exact .inl hid'
  · intro hspares id' hid' hwanted
    have hne : id' ≠ id := by
      rintro rfl
      exact not_has_of_none hfree hid'
    rw [hmissions, Map.has, get?_pruneMap, if_neg, Map.get?_set_ne _ _ hne]
    · exact hid'
    · intro hold
      obtain ⟨hnot, htarget⟩ := hspares.pruned hissues id' (hpruned id' hold)
      rcases hwanted with hawaited | htarget'
      · exact hnot hawaited
      · rw [htargets, Map.has, Map.get?_set_ne _ _ hne] at htarget'
        have htarget' : st.book.awaitTargets.has id' = true := htarget'
        rw [htarget] at htarget'
        cases htarget'
  · intro hsound id' m hm hanswered
    rw [hmissions, get?_pruneMap] at hm
    split at hm
    · cases hm
    · rw [Map.get?_set] at hm
      split at hm
      · obtain rfl := Option.some.inj hm
        cases hanswered
      · exact hsound id' m hm hanswered

theorem issueSend_shifts {st₁ : ClientState ν} (hinj : Function.Injective env.rt.makeMsgId)
    (hmade : ∀ id, st.book.awaitedMissions.has id = true → Made env.rt st.ids id)
    (hst : st₁.book = st.book) (hids : st₁.ids = st.ids) (hwaits : SameWaits st st₁)
    (hc : st₁.waiting c = none) {plan : SendPlan} (hissues : plan.awaitReply = true → Issues env st e) :
    Shifts env e st (issueSend env now st₁ c plan) := by
  have hfree : st.book.awaitedMissions.get? (env.rt.makeMsgId st.ids) = none := by
    cases hget : st.book.awaitedMissions.get? (env.rt.makeMsgId st.ids) with
    | none => rfl
    | some m => exact absurd (hmade _ ((Map.has_iff _ _).mpr ⟨m, hget⟩)) (not_made hinj st.ids)
  obtain ⟨st₂, hst₂, hcases⟩ := issueSend_cases env now st₁ c plan
  have huse : SameWaits st₁ st₁.useId := .of_same rfl rfl
  have hregister : Shifts env e st st₂ ∧ SameWaits st₁ st₂ := by
    rw [hst₂]
    split
    · next hawait =>
      have hbooked := registerMission_booked now st₁.useId plan (env.rt.makeMsgId st₁.ids)
      have hwaits' := huse.trans (.booked hbooked)
      refine ⟨register_shifts now plan hfree rfl (hissues hawait) (hwaits.trans hwaits')
        ?_ ?_ ?_ ?_, hwaits'⟩
      · rw [hbooked.ids, ← hids]
        exact Nat.lt_succ_self _
      · rw [registerMission_reported, ← hst]
        rfl
      · rw [registerMission_targets, ← hst, ← hids]
        rfl
      · rw [registerMission_missions, ← hst, ← hids]
        rfl
    · refine ⟨.of_same ?_ (hwaits.trans huse) ?_ ?_ ?_, huse⟩
      · rw [← hids]
        exact Nat.le_succ _
      · rw [← hst]
        rfl
      · rw [← hst]
        rfl
      · rw [← hst]
        rfl
  obtain ⟨hshifts, hsame⟩ := hregister
  have hc₂ : st₂.waiting c = none := (hsame.waiting c).trans hc
  rcases hcases with ⟨outbox, sent, heq⟩ | ⟨-, heq⟩
  · rw [heq]
    refine hshifts.andThen rfl (Nat.le_refl _) ?_
    have hwrite : SameWaits st₂
        ({ waitAck st₂ (env.rt.makeMsgId st₁.ids) c with outbox, sent } : ClientState ν) :=
      .of_same rfl rfl
    exact hwrite.trans (.setStage hc₂ rfl)
  · rw [heq]
    refine hshifts.andThen rfl (Nat.le_refl _) ?_
    have hask : SameWaits st₂ (waitAck st₂ (env.rt.makeMsgId st₁.ids) c) := .of_same rfl rfl
    exact hask.trans (.finish hc₂ rfl)

theorem sendAcked_shifts {plan : SendPlan} {id : String} (ack : Ack) {st₁ : ClientState ν}
    (hst : st₁.book = st.book) (hids : st₁.ids = st.ids) (hwaits : SameWaits st st₁)
    (hc : st₁.waiting c = none) : Shifts env e st (sendAcked st₁ c plan id ack) := by
  have hsame : Shifts env e st st₁ := by
    refine .of_same (Nat.le_of_eq hids.symm) hwaits ?_ ?_ ?_
    · rw [hst]
    · rw [hst]
    · rw [hst]
  have hfinish : ∀ (st₂ : ClientState ν) (r : SendResult), Shifts env e st st₂ →
      SameWaits st₁ st₂ → Shifts env e st (st₂.finish c (.send r)) := by
    intro st₂ r h hw
    exact h.andThen rfl (Nat.le_refl _) (.finish ((hw.waiting c).trans hc) rfl)
  have hwatch : ∀ (st₂ : ClientState ν) (w : Watcher), Shifts env e st st₂ →
      Shifts env e st (st₂.watch id w) := by
    intro st₂ w h
    obtain ⟨js, hparts⟩ := watch_parts st₂ id w
    rw [hparts]
    exact ⟨h.ids, h.waits.trans (.of_same rfl rfl), h.reported, h.targets, h.fresh, h.kept, h.sound⟩
  unfold sendAcked
  split
  · dsimp only
    split
    · exact hfinish _ _ (failMission_shifts hst hids hwaits id _) (.booked (failMission_booked st₁ id _))
    · exact hfinish _ _ hsame (.refl st₁)
  · split
    · exact hfinish _ _ hsame (.refl st₁)
    · split
      · exact hfinish _ _ (hwatch st₁ .launch hsame) (.booked (watch_booked st₁ id _))
      · dsimp only
        refine hwatch _ _ ?_
        split
        · obtain ⟨hwaits', hids', hreported, htargets, hmissions⟩ :=
            setPending_tables st₁ (st₁.book.pending.cancel id .cancelled)
          have hcancel : Shifts env e st (st₁.setPending (st₁.book.pending.cancel id .cancelled)) := by
            refine .of_same ?_ (hwaits.trans hwaits') ?_ ?_ ?_
            · rw [hids', hids]
            · rw [hreported, hst]
            · rw [htargets, hst]
            · rw [hmissions, hst]
          exact hcancel.andThen rfl (Nat.le_refl _) (.setStage ((hwaits'.waiting c).trans hc) rfl)
        · exact hsame.andThen rfl (Nat.le_refl _) (.setStage hc rfl)

/-- A promise of a mission is handled: only the mission of an aborted send goes. -/
theorem handleResolved_shifts {w : Watcher} {id : String} {r : Resolution ν} {rest : List (Job ν)}
    (hjobs : st.jobs = .resolved w id r :: rest) :
    Shifts env .microtask st (handleResolved st.pop w id r) := by
  have hpop : SameWaits st st.pop := .of_same rfl rfl
  have hsame : Shifts env .microtask st st.pop := .of_same (Nat.le_refl _) hpop rfl rfl rfl
  have hdrop : Shifts env .microtask st (st.pop.dropTarget id) :=
    .of_missions (Nat.le_refl _) (hpop.trans (.of_same rfl rfl)) rfl
      (fun id' h => has_delete_of_has h) (fun _ => rfl) (fun h => h)
  have hexpire : Shifts env .microtask st (expireMission (st.pop.dropTarget id) id) := by
    have hset : Shifts env .microtask st ((st.pop.dropTarget id).setMission id fun m =>
        { m with status := .expired }) :=
      setMission_shifts (fun m hm h => hm h) (Nat.le_refl _) (hpop.trans (.of_same rfl rfl)) rfl
        (fun id' h => has_delete_of_has h) rfl
    exact hset.andThen rfl (Nat.le_refl _) (.of_same rfl rfl)
  unfold handleResolved
  split
  · unfold launchResolved
    dsimp only
    split
    · exact hexpire
    · exact hdrop
  · next c =>
    split
    · next plan id' hs =>
      have hc : st.waiting c = none := waiting_of_stage hs rfl
      have hfinish : ∀ (st₂ : ClientState ν) (r : SendResult), Shifts env .microtask st st₂ →
          Shifts env .microtask st (st₂.finish c (.send r)) := by
        intro st₂ r h
        exact h.andThen rfl (Nat.le_refl _) (.finish ((h.waits.waiting c).trans hc) rfl)
      unfold sendResolved
      dsimp only
      split
      · exact hfinish _ _ hdrop
      · exact hfinish _ _ hexpire
      · refine hfinish _ _ ⟨Nat.le_refl _, hpop.trans (.of_same rfl rfl), rfl, ?_, ?_, ?_, ?_⟩
        · intro id' h
          exact .inl (has_delete_of_has h)
        · intro id' h
          exact .inl (has_delete_of_has h)
        · intro hspares id' hid' hwanted
          have hne : id' ≠ id := by
            rintro rfl
            rcases hwanted with hawaited | htarget
            · exact hspares.aborted c id' rest rfl hjobs hawaited
            · have htarget : (st.book.awaitTargets.delete id').has id' = true := htarget
              rw [Map.has, Map.get?_delete_self] at htarget
              cases htarget
          show (st.book.awaitedMissions.delete id).has id' = true
          rw [Map.has, Map.get?_delete_ne _ hne]
          exact hid'
        · intro hsound id' m hm
          have hm : (st.book.awaitedMissions.delete id).get? id' = some m := hm
          rw [Map.get?_delete] at hm
          split at hm
          · cases hm
          · exact hsound id' m hm
      · exact hfinish _ _ hdrop
    · exact hsame

/-- The missions of `awaitTargets` are deleted, and nothing else about missions changes. -/
theorem cancelAllAwaited_tables (st : ClientState ν) :
    (cancelAllAwaited st).book.awaitedMissions =
      st.book.awaitTargets.keys.foldl Map.delete st.book.awaitedMissions ∧
    (cancelAllAwaited st).book.reportedMissions = st.book.reportedMissions ∧
    (cancelAllAwaited st).book.awaitTargets = .empty := by
  have hfold : ∀ (ids : List String) (st : ClientState ν),
      (ids.foldl (fun st id => (st.dropMission id).setPending (st.book.pending.cancel id .cancelled))
        st).book.awaitedMissions = ids.foldl Map.delete st.book.awaitedMissions ∧
      (ids.foldl (fun st id => (st.dropMission id).setPending (st.book.pending.cancel id .cancelled))
        st).book.reportedMissions = st.book.reportedMissions := by
    intro ids
    induction ids with
    | nil =>
        intro st
        exact ⟨rfl, rfl⟩
    | cons id rest ih =>
        intro st
        obtain ⟨hmissions, hreported⟩ :=
          ih ((st.dropMission id).setPending (st.book.pending.cancel id .cancelled))
        obtain ⟨-, -, hreported', -, hmissions'⟩ :=
          setPending_tables (st.dropMission id) (st.book.pending.cancel id .cancelled)
        rw [List.foldl_cons, List.foldl_cons, hmissions, hreported, hmissions', hreported']
        exact ⟨rfl, rfl⟩
  obtain ⟨hmissions, hreported⟩ := hfold st.book.awaitTargets.keys st
  exact ⟨hmissions, hreported, rfl⟩

theorem cancelAllAwaited_shifts :
    Shifts env (.call c .cancelAllAwaited) st (cancelAllAwaited st) := by
  obtain ⟨hmissions, hreported, htargets⟩ := cancelAllAwaited_tables st
  have hbooked := cancelAllAwaited_booked st
  refine ⟨Nat.le_of_eq hbooked.ids.symm, .booked hbooked, hreported, ?_, ?_, ?_, ?_⟩
  · intro id h
    rw [htargets] at h
    cases h
  · intro id h
    rw [hmissions, Map.has, Map.get?_foldl_delete] at h
    split at h
    · cases h
    · exact .inl h
  · intro hspares id hid hwanted
    rcases hwanted with hawaited | h
    · rw [hmissions, Map.has, Map.get?_foldl_delete, if_neg]
      · exact hid
      · intro hkey
        refine hspares.givenUp c rfl id ?_ hawaited
        exact (Map.has_iff _ _).mpr ((Map.mem_keys_iff _ _).mp hkey)
    · rw [htargets] at h
      cases h
  · intro hsound id m hm
    rw [hmissions, Map.get?_foldl_delete] at hm
    split at hm
    · cases hm
    · exact hsound id m hm

theorem onOrphanReply_shifts {st₁ : ClientState ν} {frame : Inbound ν} (hids : st₁.ids = st.ids)
    (hwaits : SameWaits st st₁) (hreported : st₁.book.reportedMissions = st.book.reportedMissions)
    (htargets : st₁.book.awaitTargets = st.book.awaitTargets)
    (hmissions : st₁.book.awaitedMissions = st.book.awaitedMissions) :
    Shifts env e st (onOrphanReply env now st₁ frame) := by
  obtain ⟨pending, handled, inbox, out, hparts, -⟩ := onOrphanReply_parts env now st₁ frame
  rw [hparts]
  exact .of_same (Nat.le_of_eq hids.symm) (hwaits.trans (.of_same rfl rfl)) hreported htargets hmissions

/-- An answer relabels its mission, if it has one. -/
theorem onReply_shifts {frame : Inbound ν} {sock : ClientSocketId} (hreceipt : frame.receipt = false) :
    Shifts env e st (onReply env now (st.reads sock) frame) := by
  obtain ⟨last, hlast⟩ := noteInboundFrom_parts (st.reads sock) frame
  have hnote : SameWaits st (noteInboundFrom (st.reads sock) frame) := by
    rw [hlast]
    exact .of_same rfl rfl
  cases hid : frame.replyTo with
  | none =>
      rw [onReply_nameless hreceipt hid]
      rw [hlast] at hnote ⊢
      exact onOrphanReply_shifts rfl hnote rfl rfl rfl
  | some id =>
      by_cases hlive : st.book.pending.has id = true
      · have heq : onReply env now (st.reads sock) frame = onMatchedReply env now
            ((noteInboundFrom (st.reads sock) frame).resolve id (.reply frame)) frame id
            ((st.reads sock).wakes id) := onReply_live hreceipt hid hlive
        rw [heq]
        have hresolve : SameWaits st ((noteInboundFrom (st.reads sock) frame).resolve id (.reply frame)) := by
          refine hnote.trans ?_
          obtain ⟨settled, js, hparts⟩ :=
            resolve_parts (noteInboundFrom (st.reads sock) frame) id (.reply frame)
          rw [hparts]
          exact .of_same rfl rfl
        obtain ⟨settled, js, hparts⟩ :=
          resolve_parts (noteInboundFrom (st.reads sock) frame) id (.reply frame)
        rw [hparts, hlast] at hresolve ⊢
        unfold onMatchedReply
        extract_lets body book book' st₁ st₂
        have hst₁ : SameWaits st st₁ := hresolve.trans (.of_same rfl rfl)
        have hst₂ : Shifts env e st st₂ := by
          show Shifts env e st (st₁.setMission id _)
          exact setMission_shifts (fun _ _ _ => rfl) (Nat.le_refl _) hst₁ rfl (fun _ h => h) rfl
        split
        · obtain ⟨inbox, hinbox⟩ := keepInbound_parts st₂ frame
          rw [hinbox]
          exact hst₂.andThen rfl (Nat.le_refl _) (.of_same rfl rfl)
        · exact hst₂.andThen rfl (Nat.le_refl _) (.of_same rfl rfl)
      · have hdead : st.book.pending.has id = false := by simpa using hlive
        have heq : onReply env now (st.reads sock) frame = onOrphanReply env now
            { noteInboundFrom (st.reads sock) frame with
              book := { (noteInboundFrom (st.reads sock) frame).book with
                          pending := st.book.pending.unmatched } } frame :=
          onReply_orphan hreceipt hid hdead
        rw [heq]
        rw [hlast] at hnote ⊢
        exact onOrphanReply_shifts rfl (hnote.trans (.of_same rfl rfl)) rfl rfl rfl

/-- The news that a message was dropped. -/
theorem onAck_shifts {frame : Inbound ν} {sock : ClientSocketId}
    (hwaiter : st.ackWaiters.get? frame.id = none) (hstatus : frame.status = some "dropped_offline") :
    Shifts env e st (onAck (st.reads sock) frame) := by
  unfold onAck
  rw [show (st.reads sock).ackWaiters.get? frame.id = none from hwaiter]
  dsimp only
  rw [if_pos hstatus]
  obtain ⟨hwaits, hids, hreported, htargets, hmissions⟩ := setPending_tables (st.reads sock)
    ((st.reads sock).book.pending.cancel frame.id .droppedOffline)
  have hreads : SameWaits st (st.reads sock) := .of_same rfl rfl
  have hset : Shifts env e st (((st.reads sock).setPending
      ((st.reads sock).book.pending.cancel frame.id .droppedOffline)).setMission frame.id fun m =>
        { m with status := .failed, response := some CancelReason.droppedOffline.text }) := by
    refine setMission_shifts (fun _ _ _ => rfl) ?_ (hreads.trans hwaits) hreported ?_ hmissions
    · rw [hids]
      exact Nat.le_refl _
    · intro id h
      rwa [htargets] at h
  exact hset.andThen rfl (Nat.le_refl _) (.of_same rfl rfl)

/-! ### The steps of a `waitAll` -/

/-- Who it is that ends, and what it was to report on: a call that is made, or one that
waits. -/
def Reporting (env : ClientEnv) (now : Int) (st : ClientState ν) (e : ClientEvent ν) (c : CallId)
    (targets : List String) : Prop :=
  (isNewCall st c = true ∧ (∃ timeoutMs signal, e = .call c (.waitAll timeoutMs signal)) ∧
    targets = waitAllTargets env now st.book) ∨
  ∃ start deadline signal, st.calls.get? c = some (.waitAll start deadline targets signal)

def allAnswered (book : Book ν) (targets : List String) : Bool :=
  targets.all fun id => (book.awaitedMissions.get? id).any fun m => m.answered

/-- The step gives a verdict on these targets, other than that it was cancelled. -/
def Concludes (env : ClientEnv) (now : Int) (st : ClientState ν) (e : ClientEvent ν)
    (targets : List String) : Prop :=
  (∃ c timeoutMs signal, e = .call c (.waitAll timeoutMs signal) ∧
    targets = waitAllTargets env now st.book ∧ allAnswered st.book targets = true) ∨
  ∃ c start deadline signal, e = .tick c ∧
    st.calls.get? c = some (.waitAll start deadline targets signal) ∧
    (allAnswered st.book targets = true ∨ deadline ≤ now)

/-- What a step does as far as verdicts go. -/
inductive Outcome (env : ClientEnv) (now : Int) (st : ClientState ν) (e : ClientEvent ν)
    (st' : ClientState ν) : Prop
  | shifts (h : Shifts env e st st')
  /-- A `waitAll` begins to wait. -/
  | opens {c : CallId} {timeoutMs : Int} {signal : Bool} (start deadline : Int) (hnew : isNewCall st c = true)
      (he : e = .call c (.waitAll timeoutMs signal))
      (hself : st'.waiting c = some (.waitAll start deadline (waitAllTargets env now st.book) signal))
      (hothers : ∀ c', c' ≠ c → st'.waiting c' = st.waiting c')
      (hverdicts : ∀ c', st'.verdict? c' = st.verdict? c')
      (hids : st.ids ≤ st'.ids)
      (htables : (st'.book.awaitTargets, st'.book.awaitedMissions, st'.book.reportedMissions) =
        (st.book.awaitTargets, st.book.awaitedMissions, st.book.reportedMissions))
  /-- A `waitAll` gives its verdict. -/
  | ends {c : CallId} {start : Int} {targets : List String} {status : WaitAllStatus} {book : Book ν}
      (hwho : Reporting env now st e c targets)
      (hdone : status = .complete → allAnswered st.book targets = true)
      (hends : status ≠ .cancelled → Concludes env now st e targets)
      (hbook : book.awaitedMissions = st.book.awaitedMissions)
      (hself : st'.waiting c = none) (hothers : ∀ c', c' ≠ c → st'.waiting c' = st.waiting c')
      (hverdict : st'.verdict? c = some (summarize env now book start status targets))
      (hverdicts : ∀ c', c' ≠ c → st'.verdict? c' = st.verdict? c')
      (hids : st.ids ≤ st'.ids)
      (htables : (st'.book.awaitTargets, st'.book.awaitedMissions) =
        (st.book.awaitTargets, st.book.awaitedMissions))
      (hreported : st'.book.reportedMissions =
        if status = .cancelled then st.book.reportedMissions
        else (reportMissions st.book targets).reportedMissions)

theorem endWaitAll_verdict {start : Int} {targets : List String} {status : WaitAllStatus}
    (hnone : st.results.get? c = none) :
    ∃ book : Book ν, (endWaitAll env now st c start targets status).verdict? c =
      some (summarize env now book start status targets) := by
  unfold endWaitAll
  extract_lets book₀ book₁ book₂
  refine ⟨book₂, ?_⟩
  show ((if st.results.has c then st.results else st.results.set c _).get? c).bind _ = _
  rw [if_neg (not_has_of_none hnone), Map.get?_set_self]
  rfl

/-- The state of a `waitAll` at its end is the state before the step, as far as it reads it. -/
theorem endWaitAll_outcome (st₁ : ClientState ν) {start : Int} {inFlight : Nat} {targets : List String}
    {status : WaitAllStatus} (hbook : st₁.book = { st.book with waitAllInFlight := inFlight })
    (hcalls : st₁.calls = st.calls) (hresults : st₁.results = st.results) (hids : st₁.ids = st.ids)
    (hwho : Reporting env now st e c targets) (hnone : st.results.get? c = none)
    (hdone : status = .complete → allAnswered st.book targets = true)
    (hends : status ≠ .cancelled → Concludes env now st e targets) :
    Outcome env now st e (endWaitAll env now st₁ c start targets status) := by
  unfold endWaitAll
  extract_lets book₀ book₁ book₂
  have hmissions : book₂.awaitedMissions = st.book.awaitedMissions ∧
      book₂.awaitTargets = st.book.awaitTargets := by
    show (if status = .cancelled then _ else _ : Book ν).awaitedMissions = _ ∧
      (if status = .cancelled then _ else _ : Book ν).awaitTargets = _
    split
    · exact ⟨by rw [show book₁.awaitedMissions = st₁.book.awaitedMissions from rfl, hbook],
        by rw [show book₁.awaitTargets = st₁.book.awaitTargets from rfl, hbook]⟩
    · exact ⟨by rw [show (reportMissions book₁ targets).awaitedMissions = st₁.book.awaitedMissions from rfl, hbook],
        by rw [show (reportMissions book₁ targets).awaitTargets = st₁.book.awaitTargets from rfl, hbook]⟩
  have hnone₁ : st₁.results.has c = false := by
    rw [hresults, Map.has, hnone]
    rfl
  have hverdict : ∀ start, (ClientState.finish { st₁ with book := book₂ } c
      (.verdict (summarize env now book₂ start status targets))).verdict? c =
        some (summarize env now book₂ start status targets) := by
    intro start
    show ((if st₁.results.has c then st₁.results else st₁.results.set c _).get? c).bind _ = _
    rw [if_neg (by simp [hnone₁]), Map.get?_set_self]
    rfl
  refine .ends hwho hdone hends hmissions.1 ?_ ?_ (hverdict start) ?_ (Nat.le_of_eq hids.symm) ?_ ?_
  · show ((st₁.calls.delete c).get? c).filter Stage.isWaitAll = none
    rw [Map.get?_delete_self]
    rfl
  · intro c' hne
    show ((st₁.calls.delete c).get? c').filter Stage.isWaitAll = _
    rw [Map.get?_delete_ne _ hne, hcalls]
    rfl
  · intro c' hne
    show ((if st₁.results.has c then st₁.results else st₁.results.set c _).get? c').bind _ = _
    rw [if_neg (by simp [hnone₁]), Map.get?_set_ne _ _ hne, hresults]
    rfl
  · show (book₂.awaitTargets, book₂.awaitedMissions) = _
    rw [hmissions.1, hmissions.2]
  · show (if status = .cancelled then book₁ else reportMissions book₁ targets).reportedMissions = _
    split
    · show st₁.book.reportedMissions = _
      rw [hbook]
    · show (reportMissions { st₁.book with waitAllInFlight := _ } targets).reportedMissions = _
      rw [hbook]
      rfl

theorem tickWaitAll_outcome (st₁ : ClientState ν) {start deadline : Int} {inFlight : Nat}
    {targets : List String} {signal : Bool}
    (hbook : st₁.book = { st.book with waitAllInFlight := inFlight })
    (hcalls : st₁.calls = st.calls) (hresults : st₁.results = st.results) (hids : st₁.ids = st.ids)
    (hwho : Reporting env now st e c targets) (hnone : st.results.get? c = none)
    (hends : allAnswered st.book targets = true ∨ deadline ≤ now → Concludes env now st e targets)
    (hwait : Outcome env now st e (st₁.setStage c (.waitAll start deadline targets signal))) :
    Outcome env now st e (tickWaitAll env now st₁ c start deadline targets signal) := by
  unfold tickWaitAll
  split
  · next hall =>
    have hall : allAnswered st.book targets = true := by
      rw [hbook] at hall
      exact hall
    exact endWaitAll_outcome st₁ hbook hcalls hresults hids hwho hnone (fun _ => hall)
      fun _ => hends (.inl hall)
  · split
    · next hlate =>
      exact endWaitAll_outcome st₁ hbook hcalls hresults hids hwho hnone (by simp)
        fun _ => hends (.inr hlate)
    · exact hwait

theorem Outcome.after {st'' : ClientState ν} (h : Outcome env now st e st') (haside : Apart st' st'') :
    Outcome env now st e st'' := by
  have hsame : SameWaits st' st'' := .of_aside haside
  cases h with
  | shifts h => exact .shifts (h.andThen haside.book haside.ids hsame)
  | opens start deadline hnew he hself hothers hverdicts hids htables =>
      refine .opens start deadline hnew he ((hsame.waiting _).trans hself) ?_ ?_
        (Nat.le_trans hids haside.ids) (by rw [haside.book]; exact htables)
      · intro c' hne
        exact (hsame.waiting c').trans (hothers c' hne)
      · intro c'
        exact (hsame.verdict c').trans (hverdicts c')
  | ends hwho hdone hends hbook hself hothers hverdict hverdicts hids htables hreported =>
      refine .ends hwho hdone hends hbook ((hsame.waiting _).trans hself) ?_
        ((hsame.verdict _).trans hverdict) ?_ (Nat.le_trans hids haside.ids)
        (by rw [haside.book]; exact htables) (by rw [haside.book]; exact hreported)
      · intro c' hne
        exact (hsame.waiting c').trans (hothers c' hne)
      · intro c' hne
        exact (hsame.verdict c').trans (hverdicts c' hne)

/-- Whatever happens, it is one of the three. -/
theorem act_outcome (hinj : Function.Injective env.rt.makeMsgId) (hwaits : Waits env.rt st.desk)
    (hmade : ∀ id, st.book.awaitedMissions.has id = true → Made env.rt st.ids id)
    (hact : MissionAct env now st e st') : Outcome env now st e st' := by
  cases hact with
  | other => exact .shifts (.of_same (Nat.le_refl _) (.refl st) rfl rfl rfl)
  | send henters hplan =>
      rename_i c st₁ plan
      obtain ⟨hc, haside⟩ := henters.apart
      have hids : st₁.ids = st.ids := by
        cases henters with
        | calls => rfl
        | resumes => rfl
      exact .shifts (issueSend_shifts hinj hmade haside.book hids (.of_aside haside)
        (waiting_of_untracked hc) fun hawait => ⟨c, plan, hplan, hawait⟩)
  | giveUp hwhy =>
      rename_i reason
      obtain ⟨hsame, hids, hreported, htargets, hmissions⟩ :=
        setPending_tables st (st.book.pending.cancelAll reason)
      exact .shifts (.of_same (Nat.le_of_eq hids.symm) hsame hreported htargets hmissions)
  | cancelAll hnew => exact .shifts cancelAllAwaited_shifts
  | waitAll hnew =>
      rename_i c timeoutMs signal
      have hnone : st.results.get? c = none := by
        simp only [isNewCall, Bool.and_eq_true, Bool.not_eq_true'] at hnew
        simpa [Map.has] using hnew.1.2
      have hwho : Reporting env now st (.call c (.waitAll timeoutMs signal)) c
          (waitAllTargets env now st.book) := .inl ⟨hnew, ⟨timeoutMs, signal, rfl⟩, rfl⟩
      unfold startWaitAll
      extract_lets targets book st₁
      split
      · exact endWaitAll_outcome st₁ rfl rfl rfl rfl hwho hnone (by simp) (by simp)
      · refine tickWaitAll_outcome st₁ rfl rfl rfl rfl hwho hnone ?_ ?_
        · rintro (hall | hlate)
          · exact .inl ⟨c, timeoutMs, signal, rfl, rfl, hall⟩
          · omega
        refine .opens now (now + max 25 timeoutMs) hnew rfl ?_ ?_ (fun _ => rfl) (Nat.le_refl _) rfl
        · show ((st.calls.set c _).get? c).filter Stage.isWaitAll = _
          rw [Map.get?_set_self]
          rfl
        · intro c' hne
          show ((st.calls.set c _).get? c').filter Stage.isWaitAll = _
          rw [Map.get?_set_ne _ _ hne]
          rfl
  | tick hs =>
      rename_i c start deadline targets signal
      have hnone : st.results.get? c = none := hwaits.apart c _ hs
      refine tickWaitAll_outcome st.idle rfl rfl rfl rfl (.inr ⟨start, deadline, signal, hs⟩) hnone
        (fun h => .inr ⟨c, start, deadline, signal, rfl, hs, h⟩) ?_
      refine .shifts (.of_same (Nat.le_refl _) ⟨?_, fun _ => rfl⟩ rfl rfl rfl)
      intro c'
      show ((st.calls.set c _).get? c').filter Stage.isWaitAll = _
      rw [Map.set_of_get? hs]
      rfl
  | abortSend hs hsignal =>
      rename_i c plan id
      obtain ⟨hsame, hids, hreported, htargets, hmissions⟩ :=
        setPending_tables (st.abort c) (st.book.pending.cancel id .cancelled)
      have habort : SameWaits st (st.abort c) := .of_same rfl rfl
      exact .shifts (.of_same (Nat.le_of_eq hids.symm) (habort.trans hsame) hreported htargets hmissions)
  | abortWait hs =>
      rename_i c start deadline targets
      exact endWaitAll_outcome (st.abort c) rfl rfl rfl rfl (.inr ⟨start, deadline, true, hs⟩)
        (hwaits.apart c _ hs) (by simp) (by simp)
  | acked hjobs hs =>
      have hpop : SameWaits st st.pop := .of_same rfl rfl
      exact .shifts (sendAcked_shifts _ rfl rfl hpop (waiting_of_stage hs rfl))
  | resolved hjobs => exact .shifts (handleResolved_shifts hjobs)
  | expire hlive =>
      rename_i id
      obtain ⟨settled, js, hparts⟩ := resolve_parts st.idle id .expired
      rw [hparts]
      exact .shifts (.of_same (Nat.le_refl _) (.of_same rfl rfl) rfl rfl rfl)
  | remind => exact .shifts (.of_same (Nat.le_refl _) (.of_same rfl rfl) rfl rfl rfl)
  | reply hlistens htype hreceipt => exact .shifts (onReply_shifts hreceipt)
  | dropped hlistens htype hwaiter hstatus => exact .shifts (onAck_shifts hwaiter hstatus)
  | passes matched last hlistens htype =>
      exact .shifts (.of_same (Nat.le_refl _) (.of_same rfl rfl) rfl rfl rfl)

end Step

/-! ### Summaries -/

/-- The ids a summary lists. -/
def WaitAllSummary.answeredIds (s : WaitAllSummary) : List String := s.answers.map fun a => a.1
def WaitAllSummary.missingIds (s : WaitAllSummary) : List String := s.missing.map fun a => a.msgId

/-- Every target is in exactly one of the two lists, and nothing else is. -/
structure Partition (s : WaitAllSummary) (targets : List String) : Prop where
  total : s.total = s.answers.length + s.missing.length
  nodup : targets.Nodup
  perm : (s.answeredIds ++ s.missingIds).Perm targets

section Summaries

variable {env : ClientEnv} {now start : Int} {book : Book ν} {status : WaitAllStatus}
  {targets : List String}

theorem summarize_perm (env : ClientEnv) (now start : Int) (status : WaitAllStatus) (h : ∀ id ∈ targets, book.awaitedMissions.has id = true) :
    ((summarize env now book start status targets).answeredIds ++
      (summarize env now book start status targets).missingIds).Perm targets := by
  induction targets with
  | nil => exact .nil
  | cons id rest ih =>
      have ih := ih fun id' hid' => h id' (List.mem_cons_of_mem _ hid')
      obtain ⟨m, hm⟩ := (Map.has_iff _ _).mp (h id (by simp))
      unfold WaitAllSummary.answeredIds WaitAllSummary.missingIds summarize at ih ⊢
      simp only [List.filterMap_cons, hm, Option.map_some] at ih ⊢
      by_cases hanswered : m.answered = true
      · cases hresponse : m.response with
        | some response =>
            simp only [hanswered, if_true, hresponse, Option.map_some, List.map_cons,
              List.filter_cons, Option.isSome_some, Bool.and_self, Bool.not_true, Bool.false_eq_true,
              if_false, List.cons_append]
            exact ih.cons id
        | none =>
            simp only [hanswered, if_true, hresponse, Option.map_none, List.filter_cons,
              Option.isSome_none, Bool.and_false, Bool.not_false, List.map_cons]
            exact List.perm_middle.trans (ih.cons id)
      · simp only [hanswered, Bool.false_eq_true, if_false, List.filter_cons, Bool.false_and,
          Bool.not_false, if_true, List.map_cons]
        exact List.perm_middle.trans (ih.cons id)

theorem summarize_partition (hnodup : targets.Nodup)
    (h : ∀ id ∈ targets, book.awaitedMissions.has id = true) :
    Partition (summarize env now book start status targets) targets := by
  have hperm := summarize_perm env now start status h
  refine ⟨?_, hnodup, hperm⟩
  have hlength := hperm.length_eq
  rw [List.length_append, WaitAllSummary.answeredIds, WaitAllSummary.missingIds, List.length_map,
    List.length_map] at hlength
  rw [hlength]
  rfl

/-- Who is listed as answered was a target whose mission is answered. -/
theorem mem_answeredIds {id : String}
    (h : id ∈ (summarize env now book start status targets).answeredIds) :
    id ∈ targets ∧ ∃ m, book.awaitedMissions.get? id = some m ∧ m.answered = true := by
  unfold WaitAllSummary.answeredIds summarize at h
  simp only [List.mem_map, List.mem_filterMap] at h
  obtain ⟨answer, ⟨known, ⟨id', hid', hknown⟩, hanswer⟩, rfl⟩ := h
  cases hget : book.awaitedMissions.get? id' with
  | none => simp [hget] at hknown
  | some m =>
      rw [hget, Option.map_some, Option.some.injEq] at hknown
      subst hknown
      dsimp only at hanswer
      split at hanswer
      · next hanswered =>
        cases hresponse : m.response with
        | none => simp [hresponse] at hanswer
        | some response =>
            rw [hresponse, Option.map_some, Option.some.injEq] at hanswer
            subst hanswer
            exact ⟨hid', m, hget, hanswered⟩
      · cases hanswer

theorem summarize_missing (hsound : Sound book.awaitedMissions)
    (hall : allAnswered book targets = true) :
    (summarize env now book start status targets).missing = [] := by
  unfold summarize
  simp only [List.map_eq_nil_iff, List.filter_eq_nil_iff, List.mem_filterMap]
  rintro known ⟨id, hid, hknown⟩
  unfold allAnswered at hall
  rw [List.all_eq_true] at hall
  have hany := hall id hid
  rw [Option.any_eq_true] at hany
  obtain ⟨m, hm, hanswered⟩ := hany
  rw [hm, Option.map_some, Option.some.injEq] at hknown
  subst hknown
  simp [hanswered, hsound id m hm hanswered]

end Summaries

/-! ### Every run: a partition -/

/-- The call of a `waitAll`, with the targets it fixes. -/
def Called (env : ClientEnv) (x : ClientState ν × Int × ClientEvent ν) (c : CallId)
    (targets : List String) : Prop :=
  isNewCall x.1 c = true ∧ (∃ timeoutMs signal, x.2.2 = .call c (.waitAll timeoutMs signal)) ∧
    targets = waitAllTargets env x.2.1 x.1.book

/-- What holds of missions, of those who wait and of every verdict. -/
structure Ledgered (env : ClientEnv) (tr : ClientTrace ν) (st : ClientState ν) : Prop where
  made : ∀ id, st.book.awaitedMissions.has id = true → Made env.rt st.ids id
  sound : Sound st.book.awaitedMissions
  named : ∀ id, st.book.awaitTargets.has id = true → st.book.awaitedMissions.has id = true
  listed : ∀ c start deadline targets signal,
    st.waiting c = some (.waitAll start deadline targets signal) →
    (∀ id ∈ targets, st.book.awaitedMissions.has id = true) ∧ ∃ x ∈ tr, Called env x c targets
  verdicts : ∀ c s, st.verdict? c = some s → ∃ x ∈ tr, ∃ targets, Called env x c targets ∧
    Partition s targets ∧ (s.status = .complete → s.missing = [])

section Runs

variable {env : ClientEnv} {now : Int} {name : String} {rooms : List String}
  {reservations : List FileReservation} {tr : ClientTrace ν} {st st' : ClientState ν}
  {e : Int × ClientEvent ν}

theorem nodup_waitAllTargets (env : ClientEnv) (now : Int) (book : Book ν) :
    (waitAllTargets env now book).Nodup := by
  unfold waitAllTargets
  exact (Js.Set.ofList _).nodup

theorem mem_waitAllTargets {book : Book ν} {id : String} (h : id ∈ waitAllTargets env now book) :
    book.awaitTargets.has id = true ∨
      book.awaitedMissions.has id = true ∧ id ∉ book.reportedMissions.elems := by
  unfold waitAllTargets at h
  rw [Js.Set.mem_ofList, List.mem_append] at h
  rcases h with h | h
  · exact .inl ((Map.has_iff _ _).mpr ((Map.mem_keys_iff _ _).mp h))
  · obtain ⟨⟨id', m⟩, hentry, rfl⟩ := List.mem_map.mp h
    rw [List.mem_filter, Map.mem_entries_iff] at hentry
    simp only [Bool.and_eq_true, Bool.not_eq_true'] at hentry
    refine .inr ⟨(Map.has_iff _ _).mpr ⟨m, hentry.1⟩, ?_⟩
    intro hmem
    have hhas : book.reportedMissions.has id' = true := (Js.Set.has_iff _ _).mpr hmem
    rw [hentry.2.1.2] at hhas
    cases hhas

theorem Ledgered.targets_known (h : Ledgered env tr st) (now : Int) :
    ∀ id ∈ waitAllTargets env now st.book, st.book.awaitedMissions.has id = true := by
  intro id hid
  rcases mem_waitAllTargets hid with htarget | ⟨hhas, -⟩
  · exact h.named id htarget
  · exact hhas

/-- The targets of a verdict have missions, and were fixed by its call. -/
theorem Ledgered.reporting {c : CallId} {targets : List String} (h : Ledgered env tr st)
    (hwho : Reporting env e.1 st e.2 c targets) :
    (∀ id ∈ targets, st.book.awaitedMissions.has id = true) ∧
      ∃ x ∈ tr ++ [(st, e)], Called env x c targets := by
  rcases hwho with ⟨hnew, hcall, rfl⟩ | ⟨start, deadline, signal, hs⟩
  · exact ⟨h.targets_known e.1, (st, e), by simp, hnew, hcall, rfl⟩
  · have hw : st.waiting c = some (.waitAll start deadline targets signal) := by
      unfold ClientState.waiting
      rw [hs]
      rfl
    obtain ⟨hknown, x, hx, hcalled⟩ := h.listed c start deadline targets signal hw
    exact ⟨hknown, x, List.mem_append_left _ hx, hcalled⟩

/-- Missions have ids that were made. -/
theorem Outcome.made (h : ∀ id, st.book.awaitedMissions.has id = true → Made env.rt st.ids id)
    (hout : Outcome env e.1 st e.2 st') :
    ∀ id, st'.book.awaitedMissions.has id = true → Made env.rt st'.ids id := by
  intro id hid
  cases hout with
  | shifts hshifts =>
      rcases hshifts.fresh id hid with hid | ⟨hmade, hlt⟩
      · exact (h id hid).mono hshifts.ids
      · exact ⟨st.ids, hlt, hmade⟩
  | opens start deadline hnew he hself hothers hverdicts hids htables =>
      simp only [Prod.mk.injEq] at htables
      rw [htables.2.1] at hid
      exact (h id hid).mono hids
  | ends hwho hdone hends hbook hself hothers hverdict hverdicts hids htables hreported =>
      simp only [Prod.mk.injEq] at htables
      rw [htables.2] at hid
      exact (h id hid).mono hids

theorem ledgered_step (h : Ledgered env tr st)
    (hspares : SparesTargets env st e.2) (hout : Outcome env e.1 st e.2 st') :
    Ledgered env (tr ++ [(st, e)]) st' := by
  have hmore : ∀ c targets, (∃ x ∈ tr, Called env x c targets) →
      ∃ x ∈ tr ++ [(st, e)], Called env x c targets := by
    rintro c targets ⟨x, hx, hcalled⟩
    exact ⟨x, List.mem_append_left _ hx, hcalled⟩
  have hold : ∀ c s, st.verdict? c = some s → ∃ x ∈ tr ++ [(st, e)], ∃ targets,
      Called env x c targets ∧ Partition s targets ∧ (s.status = .complete → s.missing = []) := by
    intro c s hs
    obtain ⟨x, hx, rest⟩ := h.verdicts c s hs
    exact ⟨x, List.mem_append_left _ hx, rest⟩
  have hmade := hout.made h.made
  cases hout with
  | shifts hshifts =>
      refine ⟨hmade, hshifts.sound h.sound, ?_, ?_, ?_⟩
      · intro id hid
        rcases hshifts.targets id hid with hold | hnew
        · exact hshifts.kept hspares id (h.named id hold) (.inr hid)
        · exact hnew
      · intro c start deadline targets signal hw
        rw [hshifts.waits.waiting] at hw
        obtain ⟨hknown, hx⟩ := h.listed c start deadline targets signal hw
        refine ⟨?_, hmore c targets hx⟩
        intro id hid
        refine hshifts.kept hspares id (hknown id hid) (.inl ?_)
        exact (awaited_iff st id).mpr ⟨c, start, deadline, targets, signal, hw, hid⟩
      · intro c s hs
        rw [hshifts.waits.verdict] at hs
        exact hold c s hs
  | opens start deadline hnew he hself hothers hverdicts hids htables =>
      rename_i c timeoutMs signal
      simp only [Prod.mk.injEq] at htables
      obtain ⟨htargets, hmissions, -⟩ := htables
      refine ⟨hmade, ?_, ?_, ?_, ?_⟩
      · rw [hmissions]
        exact h.sound
      · intro id hid
        rw [htargets] at hid
        rw [hmissions]
        exact h.named id hid
      · intro c' start' deadline' targets' signal' hw
        rw [hmissions]
        by_cases heq : c' = c
        · subst heq
          rw [hself] at hw
          cases hw
          exact ⟨h.targets_known e.1, (st, e), by simp, hnew, ⟨timeoutMs, signal, he⟩, rfl⟩
        · rw [hothers c' heq] at hw
          obtain ⟨hknown, hx⟩ := h.listed c' start' deadline' targets' signal' hw
          exact ⟨hknown, hmore c' targets' hx⟩
      · intro c' s hs
        rw [hverdicts] at hs
        exact hold c' s hs
  | ends hwho hdone hends hbook hself hothers hverdict hverdicts hids htables hreported =>
      rename_i c start targets status book
      simp only [Prod.mk.injEq] at htables
      obtain ⟨htargets, hmissions⟩ := htables
      obtain ⟨hknown, x, hx, hcalled⟩ := h.reporting hwho
      refine ⟨hmade, ?_, ?_, ?_, ?_⟩
      · rw [hmissions]
        exact h.sound
      · intro id hid
        rw [htargets] at hid
        rw [hmissions]
        exact h.named id hid
      · intro c' start' deadline' targets' signal' hw
        rw [hmissions]
        by_cases heq : c' = c
        · subst heq
          rw [hself] at hw
          cases hw
        · rw [hothers c' heq] at hw
          obtain ⟨hknown', hx'⟩ := h.listed c' start' deadline' targets' signal' hw
          exact ⟨hknown', hmore c' targets' hx'⟩
      · intro c' s hs
        by_cases heq : c' = c
        · subst heq
          rw [hverdict] at hs
          obtain rfl := Option.some.inj hs
          refine ⟨x, hx, targets, hcalled, ?_, ?_⟩
          · refine summarize_partition ?_ ?_
            · rw [hcalled.2.2]
              exact nodup_waitAllTargets ..
            · rw [hbook]
              exact hknown
          · intro hcomplete
            refine summarize_missing ?_ ?_
            · rw [hbook]
              exact h.sound
            · unfold allAnswered
              rw [hbook]
              exact hdone hcomplete
        · rw [hverdicts c' heq] at hs
          exact hold c' s hs

theorem clientStep_outcome (hinj : Function.Injective env.rt.makeMsgId) (hwaits : Waits env.rt st.desk)
    (hmade : ∀ id, st.book.awaitedMissions.has id = true → Made env.rt st.ids id)
    (hstep : ClientStep env st e st') : Outcome env e.1 st e.2 st' := by
  have hstep : clientStep env e.1 st e.2 = st' := hstep
  obtain ⟨st₁, hact, haside⟩ := clientStep_missions hwaits e.2
  rw [hstep] at haside
  exact (act_outcome hinj hwaits hmade hact).after haside

theorem ledgered_run (hinj : Function.Injective env.rt.makeMsgId)
    (hrun : Run (ClientStep env) (ClientState.init name rooms reservations) tr st)
    (hspares : Meets (fun st e => SparesTargets env st e.2) tr) : Ledgered env tr st := by
  refine hrun.along hspares ⟨?_, ?_, ?_, ?_, ?_⟩ ?_
  · intro id hid
    cases hid
  · intro id m hm
    cases hm
  · intro id hid
    cases hid
  · intro c start deadline targets signal hw
    cases hw
  · intro c s hs
    cases hs
  · intro tr st e st' hrun _ h hspares hstep
    exact ledgered_step h hspares (clientStep_outcome hinj (waits_run hinj hrun) h.made hstep)

/-! ### Every run: reported once -/

/-- The reports that go when there are too many of them. -/
def outgrown (book : Book ν) (targets : List String) : List String :=
  let answered := targets.filter fun id =>
    (book.awaitedMissions.get? id).any fun m => m.answered
  let reported := answered.foldl Js.Set.add book.reportedMissions
  if reported.size > 512 then reported.elems.take 256 else []

/-- Nothing that was reported is a target again: not because `awaitTargets` still names it,
and not because it was forgotten while its mission is kept. -/
structure ReportsOnce (env : ClientEnv) (st : ClientState ν) (e : Int × ClientEvent ν) : Prop where
  named : ∀ c timeoutMs signal, e.2 = .call c (.waitAll timeoutMs signal) →
    ∀ id, st.book.awaitTargets.has id = true → id ∉ st.book.reportedMissions.elems
  forgotten : ∀ targets, Concludes env e.1 st e.2 targets →
    ∀ id ∈ outgrown st.book targets, st.book.awaitedMissions.has id = false

/-- This mission was reported: it is remembered, or gone for good. -/
def Told (rt : Runtime) (st : ClientState ν) (id : String) : Prop :=
  Made rt st.ids id ∧
    (id ∈ st.book.reportedMissions.elems ∨ st.book.awaitedMissions.has id = false)

theorem mem_reportMissions (book : Book ν) (targets : List String) (id : String) :
    id ∈ (reportMissions book targets).reportedMissions.elems ↔
      (id ∈ book.reportedMissions.elems ∨
        id ∈ targets ∧ ((book.awaitedMissions.get? id).any fun m => m.answered) = true) ∧
      id ∉ outgrown book targets := by
  unfold reportMissions outgrown
  dsimp only
  split
  · rw [Js.Set.mem_foldl_delete, Js.Set.mem_foldl_add, List.mem_filter]
  · rw [Js.Set.mem_foldl_add, List.mem_filter]
    simp

theorem told_step (hinj : Function.Injective env.rt.makeMsgId) {id : String} (h : Told env.rt st id)
    (honce : ReportsOnce env st e) (hout : Outcome env e.1 st e.2 st') : Told env.rt st' id := by
  obtain ⟨hmade, htold⟩ := h
  cases hout with
  | shifts hshifts =>
      refine ⟨hmade.mono hshifts.ids, ?_⟩
      rw [hshifts.reported]
      rcases htold with hreported | hgone
      · exact .inl hreported
      · right
        rw [Bool.eq_false_iff]
        intro hhas
        rcases hshifts.fresh id hhas with hhas | ⟨hnew, -⟩
        · rw [hgone] at hhas
          cases hhas
        · rw [← hnew] at hmade
          exact not_made hinj st.ids hmade
  | opens start deadline hnew he hself hothers hverdicts hids htables =>
      simp only [Prod.mk.injEq] at htables
      refine ⟨hmade.mono hids, ?_⟩
      rw [htables.2.1, htables.2.2]
      exact htold
  | ends hwho hdone hends hbook hself hothers hverdict hverdicts hids htables hreported =>
      rename_i c start targets status book
      simp only [Prod.mk.injEq] at htables
      refine ⟨hmade.mono hids, ?_⟩
      rw [htables.2, hreported]
      by_cases hcancelled : status = .cancelled
      · rw [if_pos hcancelled]
        exact htold
      · rw [if_neg hcancelled]
        rcases htold with hin | hgone
        · by_cases hdrop : id ∈ outgrown st.book targets
          · exact .inr (honce.forgotten targets (hends hcancelled) id hdrop)
          · exact .inl ((mem_reportMissions _ _ _).mpr ⟨.inl hin, hdrop⟩)
        · exact .inr hgone

/-- What a verdict lists as answered was told. -/
theorem told_verdict (h : Ledgered env tr st) (honce : ReportsOnce env st e) {c : CallId}
    {s : WaitAllSummary} {id : String} (hout : Outcome env e.1 st e.2 st')
    (hnone : st.verdict? c = none) (hs : st'.verdict? c = some s) (hstatus : s.status ≠ .cancelled)
    (hid : id ∈ s.answeredIds) : Told env.rt st' id := by
  cases hout with
  | shifts hshifts =>
      rw [hshifts.waits.verdict, hnone] at hs
      cases hs
  | opens start deadline hnew he hself hothers hverdicts hids htables =>
      rw [hverdicts, hnone] at hs
      cases hs
  | ends hwho hdone hends hbook hself hothers hverdict hverdicts hids htables hreported =>
      rename_i c' start targets status book
      by_cases heq : c = c'
      · subst heq
        rw [hverdict] at hs
        obtain rfl := Option.some.inj hs
        have hstatus : status ≠ .cancelled := hstatus
        obtain ⟨htarget, m, hm, hanswered⟩ := mem_answeredIds hid
        rw [hbook] at hm
        have hhas : st.book.awaitedMissions.has id = true := (Map.has_iff _ _).mpr ⟨m, hm⟩
        refine ⟨(h.made id hhas).mono hids, .inl ?_⟩
        rw [hreported, if_neg hstatus]
        refine (mem_reportMissions _ _ _).mpr ⟨.inr ⟨htarget, ?_⟩, ?_⟩
        · rw [hm]
          exact hanswered
        · intro hdrop
          rw [honce.forgotten targets (hends hstatus) id hdrop] at hhas
          cases hhas
      · rw [hverdicts c heq, hnone] at hs
        cases hs

/-- What was told is not a target of the next call. -/
theorem told_not_target {id : String} (h : Ledgered env tr st) (htold : Told env.rt st id)
    (honce : ReportsOnce env st e) {c : CallId} {timeoutMs : Int} {signal : Bool}
    (he : e.2 = .call c (.waitAll timeoutMs signal)) : id ∉ waitAllTargets env e.1 st.book := by
  intro hid
  rcases htold.2 with hin | hgone
  · rcases mem_waitAllTargets hid with htarget | ⟨-, hnot⟩
    · exact honce.named c timeoutMs signal he id htarget hin
    · exact hnot hin
  · have hhas := h.targets_known e.1 id hid
    rw [hgone] at hhas
    cases hhas

/-- A call that is on its way, or has returned, without this mission. -/
def LeavesOut (st : ClientState ν) (c : CallId) (id : String) : Prop :=
  (∃ start deadline targets signal,
    st.waiting c = some (.waitAll start deadline targets signal) ∧ id ∉ targets) ∨
  ∃ s, st.verdict? c = some s ∧ id ∉ s.answeredIds

theorem waiting_eq_some {c : CallId} {start deadline : Int} {targets : List String} {signal : Bool}
    (h : st.waiting c = some (.waitAll start deadline targets signal)) :
    st.calls.get? c = some (.waitAll start deadline targets signal) := by
  unfold ClientState.waiting at h
  rw [Option.filter_eq_some_iff] at h
  exact h.1

theorem not_new_of_leavesOut {c : CallId} {id : String} (h : LeavesOut st c id) :
    isNewCall st c = false := by
  rw [Bool.eq_false_iff]
  intro hnew
  simp only [isNewCall, Bool.and_eq_true, Bool.not_eq_true'] at hnew
  rcases h with ⟨start, deadline, targets, signal, hw, -⟩ | ⟨s, hs, -⟩
  · have hhas : st.calls.has c = true := (Map.has_iff _ _).mpr ⟨_, waiting_eq_some hw⟩
    rw [hnew.1.1] at hhas
    cases hhas
  · unfold ClientState.verdict? at hs
    cases hr : st.results.get? c with
    | none =>
        rw [hr] at hs
        cases hs
    | some r =>
        have hhas : st.results.has c = true := (Map.has_iff _ _).mpr ⟨r, hr⟩
        rw [hnew.1.2] at hhas
        cases hhas

theorem leavesOut_step (hwaits : Waits env.rt st.desk) {c : CallId} {id : String}
    (h : LeavesOut st c id) (hout : Outcome env e.1 st e.2 st') : LeavesOut st' c id := by
  have hnot := not_new_of_leavesOut h
  cases hout with
  | shifts hshifts =>
      unfold LeavesOut
      rw [hshifts.waits.waiting, hshifts.waits.verdict]
      exact h
  | opens start deadline hnew he hself hothers hverdicts hids htables =>
      rename_i c' timeoutMs signal
      have hne : c ≠ c' := by
        rintro rfl
        rw [hnot] at hnew
        cases hnew
      unfold LeavesOut
      rw [hothers c hne, hverdicts]
      exact h
  | ends hwho hdone hends hbook hself hothers hverdict hverdicts hids htables hreported =>
      rename_i c' start targets status book
      by_cases heq : c = c'
      · subst heq
        refine .inr ⟨_, hverdict, ?_⟩
        intro hid
        have htarget := (mem_answeredIds hid).1
        rcases hwho with ⟨hnew, -⟩ | ⟨start', deadline', signal', hstage⟩
        · rw [hnot] at hnew
          cases hnew
        · rcases h with ⟨start'', deadline'', targets'', signal'', hw, hout⟩ | ⟨s, hs, -⟩
          · rw [waiting_eq_some hw] at hstage
            cases hstage
            exact hout htarget
          · unfold ClientState.verdict? at hs
            have hnone : st.results.get? c = none := hwaits.apart c _ hstage
            rw [hnone] at hs
            cases hs
      · unfold LeavesOut
        rw [hothers c heq, hverdicts c heq]
        exact h

/-- The call itself. -/
theorem leavesOut_call {c : CallId} {id : String} {timeoutMs : Int}
    {signal : Bool} (hnew : isNewCall st c = true) (he : e.2 = .call c (.waitAll timeoutMs signal))
    (hout : id ∉ waitAllTargets env e.1 st.book) : LeavesOut (clientStep env e.1 st e.2) c id := by
  have hstep : clientStep env e.1 st e.2 = startWaitAll env e.1 st c timeoutMs signal := by
    rw [he]
    show (if isNewCall st c then _ else st) = _
    rw [if_pos hnew]
    rfl
  have hnone : st.results.get? c = none := by
    simp only [isNewCall, Bool.and_eq_true, Bool.not_eq_true'] at hnew
    simpa [Map.has] using hnew.1.2
  have hends : ∀ (st₁ : ClientState ν) start status, st₁.results.get? c = none →
      LeavesOut (endWaitAll env e.1 st₁ c start (waitAllTargets env e.1 st.book) status) c id := by
    intro st₁ start status hnone
    obtain ⟨book, hverdict⟩ := endWaitAll_verdict hnone
    exact .inr ⟨_, hverdict, fun hid => hout (mem_answeredIds hid).1⟩
  rw [hstep]
  unfold startWaitAll
  extract_lets targets book st₁
  split
  · exact hends st₁ _ _ hnone
  · unfold tickWaitAll
    split
    · exact hends st₁ _ _ hnone
    · split
      · exact hends st₁ _ _ hnone
      · refine .inl ⟨e.1, e.1 + max 25 timeoutMs, targets, signal, ?_, hout⟩
        show ((st.calls.set c _).get? c).filter Stage.isWaitAll = _
        rw [Map.get?_set_self]
        rfl

/-- Every verdict is a partition of what its call asked for, a complete one misses nothing,
and what one verdict lists no verdict of a later call lists. -/
theorem verdicts_partition (hinj : Function.Injective env.rt.makeMsgId)
    (hrun : Run (ClientStep env) (ClientState.init name rooms reservations) tr st)
    (hok : Meets (fun st e => SparesTargets env st e.2 ∧ ReportsOnce env st e) tr) :
    (∀ c s, st.verdict? c = some s → ∃ x ∈ tr, ∃ targets, Called env x c targets ∧
      Partition s targets ∧ (s.status = .complete → s.missing = [])) ∧
    ∀ tr₁ x tr₂ c c' targets s s', tr = tr₁ ++ x :: tr₂ → x.1.verdict? c = some s →
      Called env x c' targets → st.verdict? c' = some s' → s.status ≠ .cancelled →
      s'.status ≠ .cancelled → ∀ id ∈ s.answeredIds, id ∉ s'.answeredIds := by
  have hspares : Meets (fun st e => SparesTargets env st e.2) tr := fun x hx => (hok x hx).1
  refine ⟨(ledgered_run hinj hrun hspares).verdicts, ?_⟩
  intro tr₁ x tr₂ c c' targets s s' htr hs hcalled hs' hstatus _ id hid
  subst htr
  obtain ⟨st₁, hrun₁, hrest⟩ := hrun.split
  obtain ⟨rfl, st₂, hstep, hrest⟩ := hrest.head
  have hled := ledgered_run hinj hrun₁ hspares.left
  -- what the first verdict lists is told from then on
  have htold : ∀ s, x.1.verdict? c = some s → s.status ≠ .cancelled → ∀ id ∈ s.answeredIds,
      Told env.rt x.1 id := by
    refine hrun₁.along (P := fun _ st => ∀ s, st.verdict? c = some s → s.status ≠ .cancelled →
      ∀ id ∈ s.answeredIds, Told env.rt st id) hok.left ?_ ?_
    · intro s hs
      cases hs
    · rintro tr st e st' hrun hok htold ⟨hspares, honce⟩ hstep s hs hstatus id hid
      have hled := ledgered_run hinj hrun fun y hy => (hok y hy).1
      have hout := clientStep_outcome hinj (waits_run hinj hrun) hled.made hstep
      cases hold : st.verdict? c with
      | none => exact told_verdict hled honce hout hold hs hstatus hid
      | some s₀ =>
          have hsame : st'.verdict? c = some s₀ := by
            have hstep : clientStep env e.1 st e.2 = st' := hstep
            unfold ClientState.verdict? at hold ⊢
            cases hr : st.results.get? c with
            | none =>
                rw [hr] at hold
                cases hold
            | some r =>
                rw [hr] at hold
                rw [← hstep, (clientStep_calls (waits_run hinj hrun) e.2).results c r hr]
                exact hold
          rw [hsame] at hs
          obtain rfl := Option.some.inj hs
          exact told_step hinj (htold s₀ hold hstatus id hid) honce hout
  obtain ⟨hnew, ⟨timeoutMs, signal, he⟩, rfl⟩ := hcalled
  have honce : ReportsOnce env x.1 x.2 := (hok x (by simp)).2
  have hnot := told_not_target hled (htold s hs hstatus id hid) honce he
  have hleaves : LeavesOut st₂ c' id := by
    have hstep : clientStep env x.2.1 x.1 x.2.2 = st₂ := hstep
    rw [← hstep]
    exact leavesOut_call hnew he hnot
  -- and the second call leaves it out to its end
  have hend : LeavesOut st c' id ∧ Waits env.rt st.desk ∧
      ∀ id, st.book.awaitedMissions.has id = true → Made env.rt st.ids id := by
    have hwaits₂ : Waits env.rt st₂.desk := waits_run hinj (hrun₁.snoc hstep)
    have hled₂ := ledgered_run hinj (hrun₁.snoc hstep) fun y hy => (hok y (by
      rcases List.mem_append.mp hy with hy | hy
      · simp [hy]
      · simp [List.mem_singleton.mp hy])).1
    refine hrest.invariant (P := fun st => LeavesOut st c' id ∧ Waits env.rt st.desk ∧
      ∀ id, st.book.awaitedMissions.has id = true → Made env.rt st.ids id) (Meets.trivial tr₂)
      ⟨hleaves, hwaits₂, hled₂.made⟩ ?_
    rintro st e st' ⟨hleaves, hwaits, hmade⟩ _ hstep
    have hout := clientStep_outcome hinj hwaits hmade hstep
    have hstep : clientStep env e.1 st e.2 = st' := hstep
    refine ⟨leavesOut_step hwaits hleaves hout, ?_, hout.made hmade⟩
    rw [← hstep]
    exact clientStep_waits hinj _ hwaits
  rcases hend.1 with ⟨start, deadline, targets, signal, hw, -⟩ | ⟨s₁, hs₁, hout⟩
  · have hnone : st.results.get? c' = none := hend.2.1.apart c' _ (waiting_eq_some hw)
    unfold ClientState.verdict? at hs'
    rw [hnone] at hs'
    cases hs'
  · rw [hs'] at hs₁
    obtain rfl := Option.some.inj hs₁
    exact hout

end Runs

/-- What can be computed of the condition of a step. -/
def sparesCheck (env : ClientEnv) (x : ClientState Int × Int × ClientEvent Int) : Bool :=
  decide (x.1.book.awaitedMissions.size < missionCap) &&
  (match x.1.jobs with
    | .resolved _ _ (.error .cancelled) :: _ => false
    | _ => true) &&
  match x.2.2 with
  | .call _ .cancelAllAwaited => false
  | .call _ (.waitAll _ _) =>
      x.1.book.awaitTargets.keys.all (fun id => !x.1.book.reportedMissions.has id) &&
        decide (x.1.book.reportedMissions.size + (waitAllTargets env x.2.1 x.1.book).length ≤ 512)
  | .tick c =>
      match x.1.calls.get? c with
      | some (.waitAll _ _ targets _) => decide (x.1.book.reportedMissions.size + targets.length ≤ 512)
      | _ => true
  | _ => true

theorem outgrown_eq_nil {book : Book Int} {targets : List String}
    (h : book.reportedMissions.size + targets.length ≤ 512) : outgrown book targets = [] := by
  have hsize : ∀ (l : List String) (s : Js.Set String), (l.foldl Js.Set.add s).size ≤ s.size + l.length := by
    intro l
    induction l with
    | nil =>
        intro s
        exact Nat.le_refl _
    | cons a rest ih =>
        intro s
        have hadd : (s.add a).size ≤ s.size + 1 := by
          by_cases hmem : a ∈ s.elems
          · simp [Js.Set.add, hmem]
          · rw [Js.Set.size_add_of_not_mem s hmem]
        have := ih (s.add a)
        rw [List.foldl_cons, List.length_cons]
        omega
  unfold outgrown
  dsimp only
  rw [if_neg]
  intro hbig
  have hle := hsize (targets.filter fun id => (book.awaitedMissions.get? id).any fun m => m.answered)
    book.reportedMissions
  have hlen : (targets.filter fun id => (book.awaitedMissions.get? id).any fun m => m.answered).length ≤
    targets.length := List.length_filter_le _ _
  omega

theorem spares_of_check {env : ClientEnv} {x : ClientState Int × Int × ClientEvent Int}
    (h : sparesCheck env x = true) : SparesTargets env x.1 x.2.2 ∧ ReportsOnce env x.1 x.2 := by
  unfold sparesCheck at h
  rw [Bool.and_eq_true, Bool.and_eq_true, decide_eq_true_eq] at h
  obtain ⟨⟨hroom, hjobs⟩, hevent⟩ := h
  refine ⟨⟨?_, ?_, ?_⟩, ⟨?_, ?_⟩⟩
  · intro c he
    rw [he] at hevent
    cases hevent
  · intro c id rest _ hhead
    rw [hhead] at hjobs
    cases hjobs
  · intro _ id hid
    have hzero : x.1.book.awaitedMissions.size + 1 - missionCap = 0 := by omega
    rw [hzero, List.take_zero] at hid
    cases hid
  · intro c timeoutMs signal he id hid hmem
    rw [he] at hevent
    simp only [Bool.and_eq_true, List.all_eq_true] at hevent
    have hkey := hevent.1 id ((Map.mem_keys_iff _ _).mpr ((Map.has_iff _ _).mp hid))
    rw [(Js.Set.has_iff _ _).mpr hmem] at hkey
    cases hkey
  · rintro targets (⟨c, timeoutMs, signal, he, rfl, -⟩ | ⟨c, start, deadline, signal, he, hs, -⟩) id hid
    · rw [he] at hevent
      simp only [Bool.and_eq_true, decide_eq_true_eq] at hevent
      rw [outgrown_eq_nil hevent.2] at hid
      cases hid
    · rw [he] at hevent
      simp only [hs, decide_eq_true_eq] at hevent
      rw [outgrown_eq_nil hevent] at hid
      cases hid

/-- A mission for bob, in the background. -/
def launchOpts : SendOpts :=
  { recipient := some "bob", message := "build it", awaitReply := true, block := some false }

/-- A mission is launched, answered and waited for. -/
def waitsOnce : List (Int × ClientEvent Int) :=
  connects 0 0 ++ [(2000, .call 1 (.send launchOpts)),
    (2001, .line 0 { inboundOf .ack "m_lqulw000_00000001" with status := some "delivered" }),
    (2001, .microtask),
    (3000, .line 0 { inboundOf .reply "r_1" with
      sender := some "bob", replyTo := some "m_lqulw000_00000001", body := some "done" }),
    (3000, .microtask), (4000, .call 2 (.waitAll 1000 false))]

/-- A second call leaves the mission out, and its verdict is a partition too. -/
theorem verdicts_partition_again : ∃ (tr : ClientTrace Int) (st : ClientState Int)
    (x : ClientState Int × Int × ClientEvent Int) (s s' : WaitAllSummary) (targets : List String),
    Run (ClientStep referenceClient) aliceClient (tr ++ [x]) st ∧
    x.2.2 = .call 3 (.waitAll 1000 false) ∧ x.1.verdict? 2 = some s ∧ st.verdict? 3 = some s' ∧
    s.answeredIds = ["m_lqulw000_00000001"] ∧ Partition s' targets ∧
    "m_lqulw000_00000001" ∉ s'.answeredIds := by
  have hcheck : (fun r : ClientTrace Int × ClientState Int =>
      (r.1 ++ [(r.2, 5000, ClientEvent.call 3 (.waitAll 1000 false))]).all (sparesCheck referenceClient) &&
      isNewCall r.2 3 &&
      decide (r.2.verdict? 2 = some ⟨.complete, 1, 1, 0, [], [("m_lqulw000_00000001", "bob", "done")]⟩) &&
      decide ((clientStep referenceClient 5000 r.2 (.call 3 (.waitAll 1000 false))).verdict? 3 =
        some ⟨.complete, 0, 0, 0, [], []⟩))
      (runClient referenceClient aliceClient waitsOnce) = true := by
    decide +kernel
  have hbefore := run_runClient referenceClient aliceClient waitsOnce
  generalize runClient referenceClient aliceClient waitsOnce = r at hcheck hbefore
  simp only [Bool.and_eq_true, decide_eq_true_eq, List.all_eq_true] at hcheck
  obtain ⟨⟨⟨hspares, hnew⟩, hs⟩, hs'⟩ := hcheck
  have hrun := hbefore.snoc (e := (5000, .call 3 (.waitAll 1000 false))) rfl
  obtain ⟨hparts, honce⟩ := verdicts_partition makeMsgId_injective hrun
    fun x hx => spares_of_check (hspares x hx)
  obtain ⟨-, -, targets, -, hpart, -⟩ := hparts 3 _ hs'
  have hcalled : Called referenceClient (r.2, 5000, .call 3 (.waitAll 1000 false)) 3
      (waitAllTargets referenceClient 5000 r.2.book) := ⟨hnew, ⟨1000, false, rfl⟩, rfl⟩
  refine ⟨r.1, _, _, _, _, targets, hrun, rfl, hs, hs', rfl, hpart, ?_⟩
  exact honce r.1 _ [] 2 3 _ _ _ rfl hs hcalled hs' (by simp) (by simp) _ (by simp [WaitAllSummary.answeredIds])

/-- The mission of a `waitAll` is given up while it waits. -/
def givesUpAwaited : List (Int × ClientEvent Int) :=
  connects 0 0 ++ [(2000, .call 1 (.send launchOpts)),
    (2001, .line 0 { inboundOf .ack "m_lqulw000_00000001" with status := some "delivered" }),
    (2001, .microtask), (3000, .call 2 (.waitAll 1000 false)), (3100, .call 3 .cancelAllAwaited),
    (3100, .microtask), (4200, .tick 2)]

/-- The verdict counts a target that is in neither list. -/
theorem verdict_misses_target : ∃ (tr : ClientTrace Int) (st : ClientState Int) (s : WaitAllSummary),
    Run (ClientStep referenceClient) aliceClient tr st ∧ st.verdict? 2 = some s ∧
    s.total = 1 ∧ s.answers = [] ∧ s.missing = [] := by
  have hcheck : ((runClient referenceClient aliceClient givesUpAwaited).2.verdict? 2).any (fun s =>
      decide (s.total = 1) && s.answers.isEmpty && s.missing.isEmpty) = true := by
    decide +kernel
  obtain ⟨s, hs, hparts⟩ := (Option.any_eq_true _ _).mp hcheck
  simp only [Bool.and_eq_true, decide_eq_true_eq, List.isEmpty_iff] at hparts
  exact ⟨_, _, s, run_runClient referenceClient aliceClient givesUpAwaited, hs, hparts.1.1,
    hparts.1.2, hparts.2⟩

end PiMesh
