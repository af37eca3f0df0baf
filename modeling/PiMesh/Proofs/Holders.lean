/-
Who holds a task.

A broker's leases live in its memory and its epoch in a file, so a world is the epoch file
and the broker that runs: events happen to the broker, and a restart puts a new one in its
place.  The lease table of the running broker goes through the calls of `Proofs/Lease.lean`
and nothing else, whatever else the broker does.  From this two peers never hold a task at
once: what ends the first one's lease is its release, a reading of the clock
past its end, or a restart, and the second one's fence is behind the first one's.
-/
import PiMesh.Proofs.Budgets
import PiMesh.Proofs.Lease

namespace PiMesh

open Js Transition BrokerState

variable {ν : Type} [Number ν] [DecidableEq ν]

/-- The epoch file, and the broker that runs; what a start writes into the file is there. -/
structure BrokerWorld (ν : Type) where
  file : Option String
  st : BrokerState ν

inductive WorldEvent where
  /-- An event of the running broker, at this time. -/
  | event (now : Int) (e : Event)
  /-- The broker ends, and `createBroker` makes a new one. -/
  | restart (now : Int)

/-- A broker that is made on the file `file`. -/
def bootBroker (file : Option String) (now : Int) : BrokerWorld ν :=
  ⟨some (nextEpoch file now).2, BrokerState.init (nextEpoch file now).1⟩

def stepWorld (env : Env) (w : BrokerWorld ν) : WorldEvent → Except JsError (BrokerWorld ν)
  | .event now e => (step env now w.st e).map fun st => { w with st }
  | .restart now => .ok (bootBroker w.file now)

def WorldStep (env : Env) (w : BrokerWorld ν) (e : WorldEvent) (w' : BrokerWorld ν) : Prop :=
  stepWorld env w e = .ok w'

abbrev WorldTrace (ν : Type) := List (BrokerWorld ν × WorldEvent)

/-- What the leases are kept in. -/
def BrokerWorld.leases (w : BrokerWorld ν) : LeaseWorld := ⟨w.file, w.st.leases⟩

/-- A line of `a` of this type, from within the room it is tagged with. -/
def Says (env : Env) (st : BrokerState ν) (e : Event) (type : MeshFrameType) (a : PeerRecord ν)
    (f : MeshFrame ν) : Prop :=
  speaker env st e = some (a, f) ∧ f.type = type ∧ inItsRoom a f = true

/-- The lease a step answers a claim with. -/
def leaseGiven (env : Env) (x : BrokerWorld ν × WorldEvent) : Option LeaseRecord :=
  match x.2 with
  | .event now e => (speaker env x.1.st e).bind fun s =>
      if s.2.type = .claim ∧ inItsRoom s.1 s.2 = true then
        match (claimOf env now x.1.st s.1 s.2).1 with
        | .granted l _ => some l
        | _ => none
      else none
  | .restart _ => none

/-- The step ends a lease: its owner releases it, its time is over, or the broker goes. -/
def EndsHold (env : Env) (x : BrokerWorld ν × WorldEvent) (l : LeaseRecord) : Prop :=
  match x.2 with
  | .restart _ => True
  | .event now e => l.expiresAt ≤ now ∨ ∃ a f, Says env x.1.st e .release a f ∧ a.name = l.owner ∧
      (releaseOf now x.1.st a f).1 = .released l

theorem worldStep_event {env : Env} {w w' : BrokerWorld ν} {now : Int} {e : Event}
    (h : WorldStep env w (.event now e) w') : w'.file = w.file ∧ step env now w.st e = .ok w'.st := by
  unfold WorldStep stepWorld at h
  dsimp only at h
  cases hs : step env now w.st e with
  | error err =>
      rw [hs] at h
      cases h
  | ok st =>
      rw [hs] at h
      obtain rfl := Except.ok.inj h
      exact ⟨rfl, rfl⟩

theorem worldStep_restart {env : Env} {w w' : BrokerWorld ν} {now : Int}
    (h : WorldStep env w (.restart now) w') : w' = bootBroker w.file now :=
  (Except.ok.inj h).symm

theorem claim_of_leaseGiven {env : Env} {x : BrokerWorld ν × WorldEvent} {l : LeaseRecord}
    (h : leaseGiven env x = some l) : ∃ now e a f reused, x.2 = .event now e ∧
      Says env x.1.st e .claim a f ∧ (claimOf env now x.1.st a f).1 = .granted l reused := by
  unfold leaseGiven at h
  split at h
  · next now e hx =>
      obtain ⟨⟨a, f⟩, hspeaks, h⟩ := Option.bind_eq_some_iff.mp h
      by_cases hclaim : f.type = .claim ∧ inItsRoom a f = true
      · rw [if_pos hclaim] at h
        split at h
        · next l' reused houtcome =>
            obtain rfl := Option.some.inj h
            exact ⟨now, e, a, f, reused, hx, ⟨hspeaks, hclaim⟩, houtcome⟩
        · cases h
      · rw [if_neg hclaim] at h
        cases h
  · cases h

/-! ### What a step does to the leases -/

/-- The calls of a step on the lease table. -/
inductive LeaseUse (env : Env) (now : Int) (st : BrokerState ν) (e : Event)
    (leases : LeaseTable) : Prop
  | none (h : leases = st.leases) (hclaim : ∀ a f, ¬ Says env st e .claim a f)
  | claim (a : PeerRecord ν) (f : MeshFrame ν) (hspoken : Says env st e .claim a f)
      (h : leases = (claimOf env now st a f).2)
  | release (a : PeerRecord ν) (f : MeshFrame ν) (hspoken : Says env st e .release a f)
      (h : leases = (releaseOf now st a f).2)
  | status (task : String) (hclaim : ∀ a f, ¬ Says env st e .claim a f)
      (h : leases = (st.leases.get (fun _ => now) task).2)

section Steps

variable {env : Env} {now : Int} {st st' : BrokerState ν} {e : Event}

/-- The leases after a frame of a peer. -/
theorem dispatchPeer_leases {sock : SocketId} {peer : PeerRecord ν} {f : MeshFrame ν}
    (h : dispatchPeer env now st sock peer f = .ok st') :
    (f.type = .claim ∧ inItsRoom peer f = true ∧ st'.leases = (claimOf env now st peer f).2) ∨
      (f.type = .release ∧ inItsRoom peer f = true ∧ st'.leases = (releaseOf now st peer f).2) ∨
      (f.type = .leaseStatus ∧ st'.leases = (st.leases.get (fun _ => now) (f.task.getD "")).2) ∨
      ((f.type = .claim → inItsRoom peer f = false) ∧ st'.leases = st.leases) := by
  have hother : ∀ type, f.type = type → type ≠ .claim → st'.leases = st.leases →
      (f.type = .claim ∧ inItsRoom peer f = true ∧ st'.leases = (claimOf env now st peer f).2) ∨
        (f.type = .release ∧ inItsRoom peer f = true ∧ st'.leases = (releaseOf now st peer f).2) ∨
        (f.type = .leaseStatus ∧ st'.leases = (st.leases.get (fun _ => now) (f.task.getD "")).2) ∨
        ((f.type = .claim → inItsRoom peer f = false) ∧ st'.leases = st.leases) := by
    intro type htype hne hsame
    exact .inr (.inr (.inr ⟨fun hclaim => absurd (htype.symm.trans hclaim) hne, hsame⟩))
  unfold dispatchPeer at h
  split at h
  · next htype =>
      obtain rfl := Except.ok.inj h
      by_cases hin : inItsRoom peer f = true
      · exact .inl ⟨htype, hin, (handleClaim_aloof hin).leases⟩
      · have hout : inItsRoom peer f = false := by simpa using hin
        exact .inr (.inr (.inr ⟨fun _ => hout, (handleClaim_outside hout).leases⟩))
  · next htype =>
      obtain rfl := Except.ok.inj h
      by_cases hin : inItsRoom peer f = true
      · exact .inr (.inl ⟨htype, hin, (handleRelease_aloof hin).leases⟩)
      · have hout : inItsRoom peer f = false := by simpa using hin
        exact hother _ htype (by simp) (handleRelease_outside hout).leases
  · next htype =>
      obtain rfl := Except.ok.inj h
      exact .inr (.inr (.inl ⟨htype, (handleLeaseStatus_aloof peer f).leases⟩))
  · next htype =>
      obtain rfl := Except.ok.inj h
      exact hother _ htype (by simp) (routeMsg_routed htype).leases
  · next htype =>
      obtain rfl := Except.ok.inj h
      exact hother _ htype (by simp) (handleReserve_aloof _ f).leases
  · next htype =>
      obtain rfl := Except.ok.inj h
      exact hother _ htype (by simp) (routeReply_routed htype).leases
  · next htype =>
      obtain rfl := Except.ok.inj h
      exact hother _ htype (by simp) routeOnlineOnly_aloof.leases
  · next htype =>
      obtain rfl := Except.ok.inj h
      exact hother _ htype (by simp) routeOnlineOnly_aloof.leases
  · next htype =>
      obtain rfl := Except.ok.inj h
      exact hother _ htype (by simp) (handleCtl_routed htype).leases
  · next htype =>
      obtain rfl := Except.ok.inj h
      exact hother _ htype (by simp) handleCtlAck_aloof.leases
  · next htype =>
      obtain rfl := Except.ok.inj h
      exact hother _ htype (by simp) (handleActivity_aloof peer f).leases
  · next htype =>
      obtain rfl := Except.ok.inj h
      exact hother _ htype (by simp) (sendTo_aloof _ _).leases
  · next htype =>
      obtain rfl := Except.ok.inj h
      exact hother _ htype (by simp) (sendTo_aloof _ _).leases
  · next htype => exact hother _ htype (by simp) (handleJoin_aloof h).leases
  · next htype =>
      obtain rfl := Except.ok.inj h
      exact hother _ htype (by simp) (handleLeave_aloof sock peer f).leases
  · next hclaim _ _ _ _ _ _ _ _ _ _ _ _ _ _ =>
      obtain rfl := Except.ok.inj h
      exact hother _ rfl (fun hc => hclaim hc) (sendError_aloof _ _ _).leases

/-- The leases after a line of a peer. -/
theorem handleFrame_leases {sock : SocketId} {f : MeshFrame ν} {a : PeerRecord ν}
    (hspeaks : speaker env st e = some (a, f)) (hauth : authed st sock f = some a)
    (h : handleFrame env now st sock f = .ok st') : LeaseUse env now st e st'.leases := by
  obtain ⟨s, hs, hend⟩ := handleFrame_end h
  rw [hend.leases]
  have hsame : ∀ a' f', Says env st e .claim a' f' → a' = a ∧ f' = f := by
    rintro a' f' ⟨hs', -, -⟩
    rw [hspeaks] at hs'
    obtain ⟨rfl, rfl⟩ := Prod.mk.inj (Option.some.inj hs')
    exact ⟨rfl, rfl⟩
  unfold dispatch at hs
  rw [hauth] at hs
  dsimp only at hs
  by_cases hhello : f.type = .hello
  · rw [if_pos hhello] at hs
    rw [← Except.ok.inj hs]
    refine .none (sendError_aloof _ _ _).leases ?_
    rintro a' f' hspoken
    obtain ⟨rfl, rfl⟩ := hsame a' f' hspoken
    rw [hspoken.2.1] at hhello
    cases hhello
  · rw [if_neg hhello] at hs
    rcases dispatchPeer_leases hs with ⟨htype, hin, hleases⟩ | ⟨htype, hin, hleases⟩ |
      ⟨htype, hleases⟩ | ⟨hout, hleases⟩
    · exact .claim a f ⟨hspeaks, htype, hin⟩ hleases
    · exact .release a f ⟨hspeaks, htype, hin⟩ hleases
    · refine .status (f.task.getD "") ?_ hleases
      rintro a' f' hspoken
      obtain ⟨rfl, rfl⟩ := hsame a' f' hspoken
      rw [hspoken.2.1] at htype
      cases htype
    · refine .none hleases ?_
      rintro a' f' hspoken
      obtain ⟨rfl, rfl⟩ := hsame a' f' hspoken
      have hin : inItsRoom a' f' = false := hout hspoken.2.1
      rw [hspoken.2.2] at hin
      cases hin

/-- **One step**: one call on the lease table at most. -/
theorem step_leases (h : step env now st e = .ok st') : LeaseUse env now st e st'.leases := by
  have hquiet : speaker env st e = none → st'.leases = st.leases →
      LeaseUse env now st e st'.leases := by
    intro hnone hsame
    refine .none hsame ?_
    rintro a f ⟨hspeaks, -, -⟩
    rw [hnone] at hspeaks
    cases hspeaks
  rcases step_billed h with ⟨a, f, hspeaks, -⟩ | ⟨hnone, hbystander, -⟩
  · obtain ⟨sock, hauth, hframe⟩ := handleFrame_of_speaker hspeaks h
    exact handleFrame_leases hspeaks hauth hframe
  · exact hquiet hnone hbystander.leases

end Steps

/-! ### The lease table of a world -/

section Tables

variable {env : Env} {start : Int} {tr : WorldTrace ν} {w w' : BrokerWorld ν} {e : WorldEvent}
  {l l' : LeaseRecord}

/-- A step of the world is a call on the leases, or none. -/
theorem leases_step (h : WorldStep env w e w') :
    w'.leases = w.leases ∨ ∃ c, LeaseStep env.rt w.leases c w'.leases := by
  cases e with
  | restart now =>
      obtain rfl := worldStep_restart h
      exact .inr ⟨_, callLeases_step env.rt w.leases (.restart now)⟩
  | event now e =>
      obtain ⟨hfile, hstep⟩ := worldStep_event h
      have hw : w'.leases = ⟨w.file, w'.st.leases⟩ := by
        unfold BrokerWorld.leases
        rw [hfile]
      rw [hw]
      cases step_leases hstep with
      | none hsame => exact .inl (by rw [hsame]; rfl)
      | claim a f _ hclaim =>
          rw [hclaim]
          exact .inr ⟨_, callLeases_step env.rt w.leases (.claim (fun _ => now)
            (env.rt.makeMsgId w.st.ids) (env.rt.toISOString now) (f.task.getD "") a.name
            (f.paths.getD []) (f.ttlMs.getD defaultLeaseTtlMs))⟩
      | release a f _ hrelease =>
          rw [hrelease]
          exact .inr ⟨_, callLeases_step env.rt w.leases (.release (fun _ => now) (f.task.getD "")
            a.name (f.leaseId.getD ""))⟩
      | status task _ hget =>
          rw [hget]
          exact .inr ⟨_, callLeases_step env.rt w.leases (.get (fun _ => now) task)⟩

/-- **The leases of a world go through a history of calls.** -/
theorem leases_run (hrun : Run (WorldStep env) (bootBroker none start : BrokerWorld ν) tr w) :
    ∃ ltr, Run (LeaseStep env.rt) (bootLeases none start) ltr w.leases := by
  induction hrun with
  | nil => exact ⟨[], .nil⟩
  | snoc _ hstep ih =>
      obtain ⟨ltr, hlrun⟩ := ih
      rcases leases_step hstep with hsame | ⟨c, hcall⟩
      · exact ⟨ltr, by rw [hsame]; exact hlrun⟩
      · exact ⟨_, hlrun.snoc hcall⟩

/-- What every world that was reached has. -/
structure WorldSound (w : BrokerWorld ν) : Prop where
  file : w.file = some (epochText w.st.leases.epoch)
  positive : 0 < w.st.leases.epoch
  keyed : ∀ k l, w.st.leases.byTask.get? k = some l → l.task = k ∧ Reached w.st.leases l.stamp

theorem worldSound_run (hrun : Run (WorldStep env) (bootBroker none start : BrokerWorld ν) tr w) :
    WorldSound w := by
  obtain ⟨ltr, hlrun⟩ := leases_run hrun
  obtain ⟨hinv, -⟩ := leaseInv_run hlrun
  refine ⟨hinv.file, hinv.epoch_pos, ?_⟩
  intro k l hl
  obtain ⟨hgranted, htask⟩ := hinv.stored k l hl
  exact ⟨htask, hinv.reached l hgranted⟩

/-- The lease is the one its task has. -/
def HasLease (w : BrokerWorld ν) (l : LeaseRecord) : Prop := w.st.leases.byTask.get? l.task = some l

theorem get_keeps {t : LeaseTable} {now : Int} {k task : String} (hl : t.byTask.get? k = some l)
    (hlive : LeaseTable.isLive now l = true) :
    (t.get (fun _ => now) task).2.byTask.get? k = some l := by
  unfold LeaseTable.get
  split
  · exact hl
  · next r hr =>
      split
      · exact hl
      · next hdead =>
          show (t.byTask.delete task).get? k = some l
          rw [Map.get?_delete]
          by_cases hk : k = task
          · subst hk
            rw [hl] at hr
            obtain rfl := Option.some.inj hr
            exact absurd hlive hdead
          · rw [if_neg hk]
            exact hl

theorem prune_keeps {t : LeaseTable} {now : Int} {k : String} (hl : t.byTask.get? k = some l)
    (hlive : LeaseTable.isLive now l = true) :
    (t.prune fun _ => now).byTask.get? k = some l := by
  obtain ⟨i, hi⟩ := List.getElem?_of_mem ((Map.mem_entries_iff _ _ _).mpr hl)
  exact LeaseTable.prune_get?_iff.mpr ⟨i, hi, hlive⟩

/-- A lease that no step ends stays. -/
theorem hasLease_step (hstep : WorldStep env w e w') (hl : HasLease w l)
    (hends : ¬ EndsHold env (w, e) l) : HasLease w' l := by
  cases e with
  | restart now => exact absurd trivial hends
  | event now e =>
      obtain ⟨-, hstep⟩ := worldStep_event hstep
      have hlive : LeaseTable.isLive now l = true := by
        by_contra hdead
        have hover : l.expiresAt ≤ now := by simpa [LeaseTable.isLive] using hdead
        exact hends (.inl hover)
      unfold HasLease at hl ⊢
      cases step_leases hstep with
      | none hsame =>
          rw [hsame]
          exact hl
      | status task _ hget =>
          rw [hget]
          exact get_keeps hl hlive
      | claim a f _ hclaim =>
          rw [hclaim]
          have hkept := prune_keeps hl hlive
          rcases w.st.leases.claim_cases (fun _ => now) (env.rt.makeMsgId w.st.ids)
            (env.rt.toISOString now) (f.task.getD "") a.name (f.paths.getD [])
            (f.ttlMs.getD defaultLeaseTtlMs) with
            ⟨-, -, htable⟩ | ⟨-, l', -, hc⟩ | ⟨-, hnone, l', -, -, -, -, hc⟩
          · unfold claimOf
            rw [htable]
            exact hl
          · unfold claimOf
            rw [hc]
            exact hkept
          · unfold claimOf
            rw [hc]
            show Map.get? (Map.set _ _ _) l.task = some l
            rw [Map.get?_set_ne]
            · exact hkept
            · intro htask
              rw [htask, hnone] at hkept
              cases hkept
      | release a f hspoken hrelease =>
          rw [hrelease]
          have hkept : (w.st.leases.get (fun _ => now) (f.task.getD "")).2.byTask.get? l.task = some l :=
            get_keeps hl hlive
          unfold releaseOf
          unfold LeaseTable.release
          split
          · next heq =>
              rw [heq] at hkept
              exact hkept
          · next r t heq =>
              rw [heq] at hkept
              split
              · exact hkept
              · next hmatch =>
                  show Map.get? (Map.delete _ _) l.task = some l
                  rw [Map.get?_delete]
                  by_cases htask : l.task = f.task.getD ""
                  · -- the lease itself is released
                    have hr : r = l := by
                      obtain ⟨-, -, -, hget⟩ := w.st.leases.get_spec (fun _ => now) (f.task.getD "")
                      rw [heq] at hget
                      rw [htask] at hkept
                      exact Option.some.inj (hget.trans hkept)
                    obtain ⟨howner, hid⟩ := not_or.mp hmatch
                    refine absurd (.inr ⟨a, f, hspoken, ?_, ?_⟩) hends
                    · rw [← hr]
                      exact (not_not.mp howner).symm
                    · unfold releaseOf LeaseTable.release
                      rw [heq]
                      subst hr
                      exact congrArg Prod.fst (if_neg hmatch)
                  · rw [if_neg htask]
                    exact hkept

/-- The lease of a claim is the task's, whether it was made or found. -/
theorem hasLease_of_given (hsound : WorldSound w) (hstep : WorldStep env w e w')
    (hgiven : leaseGiven env (w, e) = some l) : HasLease w' l := by
  obtain ⟨now, e, a, f, reused, rfl, hspoken, houtcome⟩ := claim_of_leaseGiven hgiven
  obtain ⟨-, hstep⟩ := worldStep_event hstep
  have hclaim : w'.st.leases = (claimOf env now w.st a f).2 := by
    cases step_leases hstep with
    | none _ hno => exact absurd hspoken (hno a f)
    | status _ hno => exact absurd hspoken (hno a f)
    | claim a' f' hspoken' h =>
        obtain ⟨rfl, rfl⟩ := Prod.mk.inj (Option.some.inj (hspoken'.1.symm.trans hspoken.1))
        exact h
    | release a' f' hspoken' =>
        obtain ⟨rfl, rfl⟩ := Prod.mk.inj (Option.some.inj (hspoken'.1.symm.trans hspoken.1))
        exact absurd (hspoken'.2.1.symm.trans hspoken.2.1) (by simp)
  unfold HasLease
  rw [hclaim]
  unfold claimOf at houtcome ⊢
  rcases w.st.leases.claim_cases (fun _ => now) (env.rt.makeMsgId w.st.ids)
    (env.rt.toISOString now) (f.task.getD "") a.name (f.paths.getD [])
    (f.ttlMs.getD defaultLeaseTtlMs) with
    ⟨-, ⟨reason, hr⟩, -⟩ | ⟨-, l', hl', hc⟩ | ⟨-, -, l', htask, -, -, -, hc⟩
  · rw [hr] at houtcome
    cases houtcome
  · rw [hc] at houtcome ⊢
    dsimp only at houtcome ⊢
    split at houtcome
    · obtain ⟨rfl, -⟩ := ClaimOutcome.granted.inj houtcome
      rw [(hsound.keyed _ _ (LeaseTable.prune_get? hl')).1]
      exact hl'
    · cases houtcome
  · rw [hc] at houtcome ⊢
    obtain ⟨rfl, -⟩ := ClaimOutcome.granted.inj houtcome
    show Map.get? (Map.set _ _ _) l'.task = some l'
    rw [htask]
    exact Map.get?_set_self _ _ _

/-- The lease its task has now is this one, or one that was made later. -/
structure Followed (w : BrokerWorld ν) (l : LeaseRecord) : Prop where
  reached : Reached w.st.leases l.stamp
  later : ∀ r, w.st.leases.byTask.get? l.task = some r → r = l ∨ Before l.stamp r.stamp

theorem followed_of_hasLease (hsound : WorldSound w) (hl : HasLease w l) : Followed w l where
  reached := (hsound.keyed _ _ hl).2
  later _ hr := .inl (Option.some.inj (hr.symm.trans hl))

theorem followed_step (hsound : WorldSound w) (hstep : WorldStep env w e w') (hl : Followed w l) :
    Followed w' l := by
  rcases leases_step hstep with hsame | ⟨⟨c, ans⟩, hcall⟩
  · have htable : w'.st.leases = w.st.leases := congrArg LeaseWorld.table hsame
    exact ⟨by rw [htable]; exact hl.reached, by rw [htable]; exact hl.later⟩
  · rcases leaseChange_of_step hcall with ⟨-, hepoch, hcounter, hsub, -, -⟩ |
      ⟨_, -, -, hepoch, hcounter, hstamp, hsub⟩ | ⟨now, -, hw⟩
    · have hepoch : w'.st.leases.epoch = w.st.leases.epoch := hepoch
      have hcounter : w'.st.leases.counter = w.st.leases.counter := hcounter
      refine ⟨?_, fun r hr => hl.later r (hsub _ _ hr)⟩
      unfold Reached
      rw [hepoch, hcounter]
      exact hl.reached
    · have hepoch : w'.st.leases.epoch = w.st.leases.epoch := hepoch
      have hcounter : w'.st.leases.counter = w.st.leases.counter + 1 := hcounter
      refine ⟨?_, ?_⟩
      · unfold Reached
        rw [hepoch, hcounter]
        rcases hl.reached with h | ⟨h, hfence⟩
        · exact .inl h
        · exact .inr ⟨h, by omega⟩
      · intro r hr
        rcases hsub _ _ hr with ⟨-, rfl⟩ | hold
        · rw [hstamp]
          exact .inr (before_next hl.reached)
        · exact hl.later r hold
    · -- a new broker has no leases and a greater epoch
      have htable : w'.st.leases = (bootLeases w.file now).table := congrArg LeaseWorld.table hw
      have hepoch : w.st.leases.epoch < w'.st.leases.epoch := by
        have hboot := bootLeases_epoch_lt w.file now
        rw [hsound.file, readEpoch_epochText hsound.positive, ← hsound.file] at hboot
        rw [htable]
        exact hboot
      refine ⟨.inl ?_, ?_⟩
      · rcases hl.reached with h | ⟨h, -⟩ <;> omega
      · intro r hr
        rw [htable] at hr
        cases hr

/-- The lease a claim is answered with follows the one its task had. -/
theorem before_of_given (hsound : WorldSound w) (hl : Followed w l)
    (hstep : WorldStep env w e w') (hgiven : leaseGiven env (w, e) = some l')
    (htask : l'.task = l.task) : l' = l ∨ Before l.stamp l'.stamp := by
  have hheld : w'.st.leases.byTask.get? l'.task = some l' := hasLease_of_given hsound hstep hgiven
  rw [htask] at hheld
  exact (followed_step hsound hstep hl).later l' hheld

end Tables

/-! ### What a grant says -/

section Answers

variable {env : Env} {now : Int} {st st' : BrokerState ν} {e : Event} {w w' : BrokerWorld ν}
  {l : LeaseRecord}

/-- The answer to a claim that is granted. -/
def grantFrame (env : Env) (now : Int) (st : BrokerState ν) (f : MeshFrame ν) (l : LeaseRecord)
    (reused : Bool) : Members ν :=
  buildFrame env.rt (st.useId.stamp env now)
    { leaseOpts env "granted" (if reused then "reused" else "granted") l with
      type := .lease, id := some f.id, replyTo := some f.id }

/-- The first frame the step hands to `writeFrame` is this one, for this socket; the write fails
on the spot only where the frame is too large or the socket is not open. -/
def ToldFirst (env : Env) (st st' : BrokerState ν) (sock : SocketId) (frame : Members ν) : Prop :=
  ∃ cb status more, st'.writes = st.writes ++ ⟨sock, frame, cb, status⟩ :: more ∧
    (status = .failed → encodeFrame frame env.cfg.maxFrameBytes = none ∨ st.isOpen sock = false)

theorem attempt_told (st : BrokerState ν) (sock : SocketId) (frame : Members ν) (maxBytes : Nat)
    (cb : WriteCallback ν) : ∃ status, (attempt st sock frame maxBytes cb).1
      = { st with writes := st.writes ++ [⟨sock, frame, cb, status⟩] } ∧
    (status = .failed → encodeFrame frame maxBytes = none ∨ st.isOpen sock = false) := by
  unfold attempt
  split
  · exact ⟨.pending, rfl, nofun⟩
  · next h => exact ⟨.failed, rfl, fun _ => by simpa [Classical.or_iff_not_imp_left,
      Option.isSome_iff_ne_none] using h⟩

theorem sendWith_told (peer : PeerRef) (frame : Members ν) (cb : WriteCallback ν) :
    ToldFirst env st (sendWith env now st peer frame cb) peer.socket frame := by
  obtain ⟨status, heq, hfailed⟩ := attempt_told st peer.socket frame env.cfg.maxFrameBytes cb
  unfold sendWith
  split
  · next s hs =>
      have hs : s = (attempt st peer.socket frame env.cfg.maxFrameBytes cb).1 := by rw [hs]
      rw [hs, heq]
      exact ⟨cb, status, [], rfl, hfailed⟩
  · next s hs =>
      have hs : s = (attempt st peer.socket frame env.cfg.maxFrameBytes cb).1 := by rw [hs]
      have hclosed : Chain env now noticesOnly s (closeIfCurrent env now s peer) :=
        closeIfCurrent_chain peer
      obtain ⟨more, hmore, -⟩ := (quiet_of_chain hclosed).1.writes
      refine ⟨cb, status, more, ?_, hfailed⟩
      rw [hmore, hs, heq, List.append_assoc]
      rfl

theorem sendLease_told (st : BrokerState ν) (peer : PeerRef) (id : String) (opts : BuildFrameOpts ν) :
    ToldFirst env st (sendLease env now st peer id opts) peer.socket (buildFrame env.rt (st.stamp env now)
      { opts with type := .lease, id := some id, replyTo := some id }) := sendWith_told _ _ _

theorem handleClaim_told (st : BrokerState ν) {peer : PeerRecord ν} {f : MeshFrame ν}
    {reused : Bool} (hin : inItsRoom peer f = true)
    (hgrant : (claimOf env now st peer f).1 = .granted l reused) :
    ToldFirst env st (handleClaim env now st peer f) peer.socket (grantFrame env now st f l reused) := by
  unfold handleClaim
  dsimp only
  rw [if_neg (by simpa [inItsRoom] using hin)]
  split
  · next l' reused' houtcome =>
      obtain ⟨rfl, rfl⟩ := ClaimOutcome.granted.inj (houtcome.symm.trans hgrant)
      exact sendLease_told { st with leases := (claimOf env now st peer f).2, ids := st.ids + 1 }
        peer.toRef f.id _
  · next houtcome => cases houtcome.symm.trans hgrant
  · next houtcome => cases houtcome.symm.trans hgrant

/-- The lease of a claim is its speaker's, of the task it names. -/
theorem granted_owner {a : PeerRecord ν} {f : MeshFrame ν} {reused : Bool} (hsound : WorldSound w)
    (h : (claimOf env now w.st a f).1 = .granted l reused) :
    l.owner = a.name ∧ l.task = f.task.getD "" := by
  unfold claimOf at h
  rcases w.st.leases.claim_cases (fun _ => now) (env.rt.makeMsgId w.st.ids)
    (env.rt.toISOString now) (f.task.getD "") a.name (f.paths.getD [])
    (f.ttlMs.getD defaultLeaseTtlMs) with
    ⟨-, ⟨reason, hr⟩, -⟩ | ⟨-, r, hr, hc⟩ | ⟨-, -, r, htask, howner, -, -, hc⟩
  · rw [hr] at h
    cases h
  · rw [hc] at h
    dsimp only at h
    split at h
    · next howner =>
        obtain ⟨rfl, -⟩ := ClaimOutcome.granted.inj h
        exact ⟨howner, (hsound.keyed _ _ (LeaseTable.prune_get? hr)).1⟩
    · cases h
  · rw [hc] at h
    obtain ⟨rfl, -⟩ := ClaimOutcome.granted.inj h
    exact ⟨howner, htask⟩

theorem told_of_claim {a : PeerRecord ν} {f : MeshFrame ν} {reused : Bool}
    (hspoken : Says env st e .claim a f) (hgrant : (claimOf env now st a f).1 = .granted l reused)
    (h : step env now st e = .ok st') : ToldFirst env st st' a.socket (grantFrame env now st f l reused) := by
  obtain ⟨hspeaks, htype, hin⟩ := hspoken
  obtain ⟨sock, hauth, hframe⟩ := handleFrame_of_speaker hspeaks h
  unfold handleFrame at hframe
  obtain ⟨s, hs, hframe⟩ := bind_eq_ok.mp hframe
  have hwrites : st'.writes = s.writes := by
    split at hframe
    · rw [← Except.ok.inj hframe]
      exact (aside_clearTimer s sock).writes
    · rw [← Except.ok.inj hframe]
  unfold dispatch at hs
  rw [hauth] at hs
  dsimp only at hs
  rw [if_neg (by rw [htype]; simp)] at hs
  unfold dispatchPeer at hs
  rw [htype] at hs
  rw [← Except.ok.inj hs] at hwrites
  unfold ToldFirst
  rw [hwrites]
  exact handleClaim_told (st.updatePeer { a with lastSeenAt := now }) hin hgrant

end Answers

/-! ### One holder -/

section Runs

variable {env : Env} {start : Int} {tr : WorldTrace ν} {w w' : BrokerWorld ν}

/-- Over steps that do not end it a lease stays. -/
theorem hasLease_run {l : LeaseRecord} (hrun : Run (WorldStep env) w tr w') (hl : HasLease w l)
    (hends : ∀ z ∈ tr, ¬ EndsHold env z l) : HasLease w' l := by
  induction hrun with
  | nil => exact hl
  | snoc _ hstep ih =>
      have hbefore := ih fun z hz => hends z (List.mem_append_left _ hz)
      exact hasLease_step hstep hbefore (hends _ (by simp))

theorem followed_run {l : LeaseRecord} {tr' : WorldTrace ν}
    (hboot : Run (WorldStep env) (bootBroker none start) tr w) (hrun : Run (WorldStep env) w tr' w')
    (hl : Followed w l) : Followed w' l := by
  induction hrun with
  | nil => exact hl
  | snoc hrun hstep ih => exact followed_step (worldSound_run (hboot.append hrun)) hstep ih

/-- **One holder.**  In every run of a broker over its sockets' events and its restarts, a claim
is granted to the peer that makes it, for which a frame with the lease's epoch and fence is handed
to `writeFrame`.  If a
task is granted twice it is the same lease, or the second one's stamp is behind the first one's
and the first lease was ended by then: released by its owner, over by the broker's clock, or
gone with the broker. -/
theorem one_holder (hrun : Run (WorldStep env) (bootBroker none start) tr w) :
    (∀ x ∈ tr, ∀ l, leaseGiven env x = some l → ∃ now e a f reused w',
      x.2 = .event now e ∧ Says env x.1.st e .claim a f ∧ WorldStep env x.1 x.2 w' ∧
      l.owner = a.name ∧ l.task = f.task.getD "" ∧
      ToldFirst env x.1.st w'.st a.socket (grantFrame env now x.1.st f l reused)) ∧
    (∀ before x mid y after l l', tr = before ++ x :: (mid ++ y :: after) →
      leaseGiven env x = some l → leaseGiven env y = some l' → l'.task = l.task →
      l' = l ∨ (Before l.stamp l'.stamp ∧ ∃ z ∈ mid ++ [y], EndsHold env z l)) := by
  constructor
  · intro x hx l hgiven
    obtain ⟨tr₁, tr₂, rfl, hbefore⟩ := hrun.of_mem hx
    obtain ⟨s, hbefore', hrest⟩ := hrun.split
    obtain ⟨rfl, w₁, hstep, -⟩ := hrest.head
    obtain ⟨now, e, a, f, reused, he, hspoken, hgrant⟩ := claim_of_leaseGiven hgiven
    obtain ⟨howner, htask⟩ := granted_owner (worldSound_run hbefore) hgrant
    refine ⟨now, e, a, f, reused, w₁, he, hspoken, hstep, howner, htask, ?_⟩
    rw [he] at hstep
    exact told_of_claim hspoken hgrant (worldStep_event hstep).2
  · rintro before x mid y after l l' rfl hx hy htask
    obtain ⟨s, hbefore, hrest⟩ := hrun.split
    obtain ⟨rfl, w₁, hstep, hrest⟩ := hrest.head
    obtain ⟨w₂, hmid, hrest⟩ := hrest.split
    obtain ⟨rfl, w₃, hstep', -⟩ := hrest.head
    have hfirst : Run (WorldStep env) (bootBroker none start) (before ++ [x]) w₁ :=
      hbefore.snoc hstep
    have hheld : HasLease w₁ l := hasLease_of_given (worldSound_run hbefore) hstep hx
    have hfollowed : Followed y.1 l :=
      followed_run hfirst hmid (followed_of_hasLease (worldSound_run hfirst) hheld)
    have hsound : WorldSound y.1 := worldSound_run (hfirst.append hmid)
    by_cases hended : ∃ z ∈ mid ++ [y], EndsHold env z l
    · rcases before_of_given hsound hfollowed hstep' hy htask with hsame | hbehind
      · exact .inl hsame
      · exact .inr ⟨hbehind, hended⟩
    · -- nothing ended the lease: it is still the task's
      have hlast : HasLease w₃ l := by
        refine hasLease_run (hmid.snoc hstep') hheld ?_
        intro z hz hends
        exact hended ⟨z, hz, hends⟩
      have hnew : HasLease w₃ l' := hasLease_of_given hsound hstep' hy
      unfold HasLease at hlast hnew
      rw [htask] at hnew
      exact .inl (Option.some.inj (hnew.symm.trans hlast))

end Runs

def claimDocs (id sender : String) : List Char :=
  frameLine .claim id sender [("task", .str "docs"), ("paths", .arr [.str "README.md"]),
    ("ttlMs", .num 60000)]

/-- Alice claims a task, and bob claims it from the next broker. -/
def claimsAcross : List WorldEvent :=
  [.event 1000 (.connect 0 false none), .event 1001 (.line 0 (frameLine .hello "m_1" "alice" [])),
    .event 1002 (.line 0 (claimDocs "m_2" "alice")), .restart 1003,
    .event 1004 (.connect 1 false none), .event 1005 (.line 1 (frameLine .hello "m_3" "bob" [])),
    .event 1006 (.line 1 (claimDocs "m_4" "bob"))]

theorem one_holder_restarted : ∃ (tr : WorldTrace Int) (w : BrokerWorld Int)
    (x y : BrokerWorld Int × WorldEvent) (l l' : LeaseRecord),
    Run (WorldStep (referenceEnv {})) (bootBroker none 1000) tr w ∧
    tr.map Prod.snd = claimsAcross ∧ tr[2]? = some x ∧ tr[6]? = some y ∧
    leaseGiven (referenceEnv {}) x = some l ∧ leaseGiven (referenceEnv {}) y = some l' ∧
    l.owner = "alice" ∧ l'.owner = "bob" ∧ Before l.stamp l'.stamp := by
  have h : ((execute (stepWorld (referenceEnv {})) (bootBroker none 1000 : BrokerWorld Int)
      claimsAcross).toOption.any fun r =>
        (r.1[2]?.bind (leaseGiven (referenceEnv {}))).any
          (fun l => l.owner == "alice" && l.task == "docs") &&
        (r.1[6]?.bind (leaseGiven (referenceEnv {}))).any
          fun l => l.owner == "bob" && l.task == "docs")
      = true := by decide +kernel
  obtain ⟨⟨tr, w⟩, hexec, hcheck⟩ := (Option.any_eq_true _ _).mp h
  obtain ⟨hrun, hevents⟩ := Run.of_execute (toOption_eq_some hexec)
  simp only [Bool.and_eq_true, Option.any_eq_true] at hcheck
  obtain ⟨⟨l, hl, hlowner, hltask⟩, l', hl', hlowner', hltask'⟩ := hcheck
  obtain ⟨x, hx, hl⟩ := Option.bind_eq_some_iff.mp hl
  obtain ⟨y, hy, hl'⟩ := Option.bind_eq_some_iff.mp hl'
  have hlowner : l.owner = "alice" := eq_of_beq hlowner
  have hlowner' : l'.owner = "bob" := eq_of_beq hlowner'
  have htask : l'.task = l.task := (eq_of_beq hltask').trans (eq_of_beq hltask).symm
  refine ⟨tr, w, x, y, l, l', hrun, hevents, hx, hy, hl, hl', hlowner, hlowner', ?_⟩
  have hsplit : tr = tr.take 2 ++ x :: ((tr.drop 3).take 3 ++ y :: tr.drop 7) := by
    obtain ⟨hlen, rfl⟩ := List.getElem?_eq_some_iff.mp hx
    obtain ⟨hlen', rfl⟩ := List.getElem?_eq_some_iff.mp hy
    have hrest : (tr.drop 3).drop 3 = tr[6] :: tr.drop 7 := by
      rw [List.drop_drop]
      exact List.drop_eq_getElem_cons hlen'
    rw [← hrest, List.take_append_drop, ← List.drop_eq_getElem_cons hlen, List.take_append_drop]
  rcases (one_holder hrun).2 _ x _ y _ l l' hsplit hl hl' htask with hsame | ⟨hbefore, -⟩
  · rw [hsame, hlowner] at hlowner'
    exact absurd hlowner' (by decide)
  · exact hbefore

end PiMesh
