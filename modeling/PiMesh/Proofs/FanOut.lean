/-
Fan-outs: who gets a copy, and what the sender is told.

A broadcast and a reply to several are written once for each recipient, and the answers of
the writes come later and in any order.  `copiesOf` lists the copies of one fan-out with
how each write stands, `placedBy` the mailboxes it has put its message into, and `Counted`
is the invariant: the counters of the fan-out are the counts of its copies, no alias has
two, and each recipient of a broadcast has one copy that has not failed or one place in a
mailbox.

Two things break it.  A list of aliases may name one twice; and a drop notice that fails
while a broadcast is being written closes its addressee, who may be a member still to come.
-/
import PiMesh.Proofs.Deliveries
import Mathlib.Data.List.Dedup

namespace PiMesh

open Js Transition Relation BrokerState

variable {ν : Type} [Number ν] [DecidableEq ν]

/-- A copy of a fan-out: its kind, who it is for, and how its write stands. -/
structure Copy where
  kind : GroupKind
  name : String
  status : WriteStatus
deriving DecidableEq

/-- The fan-out a callback belongs to, its kind, and who the copy is for. -/
def WriteCallback.copy? : WriteCallback ν → Option (Nat × GroupKind × String)
  | .replyCopy g t => some (g, .reply, t.name)
  | .broadcastCopy g t => some (g, .broadcast, t.name)
  | _ => none

/-- The copy of fan-out `g` a write is. -/
def Write.copyOf (g : Nat) (w : Write ν) : Option Copy :=
  match w.callback.copy? with
  | some (g', kind, name) => if g' = g then some ⟨kind, name, w.status⟩ else none
  | none => none

/-- The copies of fan-out `g`. -/
def copiesOf (g : Nat) (writes : List (Write ν)) : List Copy := writes.filterMap (Write.copyOf g)

/-- The mailboxes fan-out `g` has put its message into. -/
def placedBy (g : Nat) (queued : List (Queued ν)) : List String :=
  (queued.filter fun q => decide (q.group = some g)).map Queued.recipient

/-- The frame can be encoded. -/
def Encodes (env : Env) (ms : Members ν) : Prop := (encodeFrame ms env.cfg.maxFrameBytes).isSome = true

/-- What can be encoded fails only on a socket that is not open. -/
theorem attempt_of_encodes {env : Env} {ms : Members ν} (h : Encodes env ms) (st : BrokerState ν)
    (sock : SocketId) (cb : WriteCallback ν) :
    (attempt st sock ms env.cfg.maxFrameBytes cb).2 = st.isOpen sock := by
  unfold Encodes at h
  unfold attempt
  cases ho : st.isOpen sock <;> simp [h]

/-! ### What leaves a fan-out alone -/

/-- Nothing about fan-out `g` differs. -/
structure Beside (g : Nat) (st st' : BrokerState ν) : Prop where
  group : st'.groups[g]? = st.groups[g]?
  copies : copiesOf g st'.writes = copiesOf g st.writes
  placed : placedBy g st'.queued = placedBy g st.queued

/-- No copy may be passed on or stored, and no fan-out changed. -/
structure Permits.Plain (P : Permits ν) : Prop where
  relay : ∀ t out cb, P.relay t out cb → cb.copy? = none
  store : ∀ name out group, P.store name out group → group = none
  groups : ¬ P.groups

section Beside

variable {env : Env} {now : Int} {P : Permits ν} {st st' st'' : BrokerState ν} {g g' : Nat}

namespace Beside

theorem of_same (hg : st'.groups = st.groups) (hw : st'.writes = st.writes)
    (hq : st'.queued = st.queued) : Beside g st st' := ⟨by rw [hg], by rw [hw], by rw [hq]⟩

theorem aside (h : Aside st st') : Beside g st st' := .of_same h.groups h.writes h.queued

theorem trans (h : Beside g st st') (h' : Beside g st' st'') : Beside g st st'' :=
  ⟨h'.group.trans h.group, h'.copies.trans h.copies, h'.placed.trans h.placed⟩

/-- A write of something else. -/
theorem attempt (sock : SocketId) (frame : Members ν) (maxBytes : Nat) {cb : WriteCallback ν}
    (h : ∀ kind name, cb.copy? ≠ some (g, kind, name)) :
    Beside g st (attempt st sock frame maxBytes cb).1 := by
  obtain ⟨status, -, heq⟩ := attempt_eq st sock frame maxBytes cb
  rw [heq]
  refine ⟨rfl, ?_, rfl⟩
  have hnone : Write.copyOf g (⟨sock, frame, cb, status⟩ : Write ν) = none := by
    unfold Write.copyOf
    split
    · next g' kind name hc =>
        rw [if_neg]
        rintro rfl
        exact h kind name hc
    · rfl
  unfold copiesOf
  rw [List.filterMap_append]
  simp [hnone]

theorem modifyGroup (hne : g' ≠ g) (f : Group → Group) :
    Beside g st (st.modifyGroup g' f) := by
  refine ⟨?_, rfl, rfl⟩
  simp [BrokerState.modifyGroup, hne]

/-- A message of something else stored. -/
theorem storeMsg (name : String) (frame : Members ν) {group : Option Nat} (h : group ≠ some g) :
    Beside g st (st.storeMsg env now name frame group) := by
  refine ⟨rfl, rfl, ?_⟩
  unfold placedBy BrokerState.storeMsg
  rw [List.filter_append]
  simp [h]

end Beside

theorem copy?_of_isOwn {cb : WriteCallback ν} (h : cb.IsOwn) : cb.copy? = none := by
  cases cb with
  | ignore => rfl
  | sendTo peer => rfl
  | _ => exact h.elim

theorem beside_notices (hc : Chain env now noticesOnly st st') : Beside g st st' := by
  have hq := (quiet_of_chain hc).1
  obtain ⟨more, hw, hown⟩ := hq.writes
  refine ⟨by rw [hq.groups], ?_, by rw [hq.queued]⟩
  rw [hw]
  unfold copiesOf
  rw [List.filterMap_append]
  have hnone : more.filterMap (Write.copyOf g) = [] := by
    rw [List.filterMap_eq_nil_iff]
    intro w hmem
    unfold Write.copyOf
    rw [copy?_of_isOwn (hown w hmem)]
  rw [hnone, List.append_nil]

theorem beside_enqueue (name : String) (frame : Members ν) {group : Option Nat}
    (h : group ≠ some g) : Beside g st (enqueue env now st name frame group) :=
  (Beside.storeMsg name frame h).trans (beside_notices (notifyDropped_chain trivial _))

theorem beside_of_chain (hP : P.Plain) (hc : Chain env now P st st') : Beside g st st' := by
  induction hc with
  | refl => exact .of_same rfl rfl rfl
  | @tail b c _ hact ih =>
      refine ih.trans ?_
      have hplain : ∀ {cb : WriteCallback ν}, cb.copy? = none →
          ∀ kind name, cb.copy? ≠ some (g, kind, name) := by
        intro cb hcb kind name
        rw [hcb]
        simp
      cases hact with
      | own sock stamp opts maxBytes cb hcb =>
          exact .attempt _ _ _ (hplain (copy?_of_isOwn hcb))
      | close name peer =>
          have hdrop : Beside g b
              { b with rooms := detachFromRooms b.rooms peer, peers := b.peers.delete name } :=
            .of_same rfl rfl rfl
          exact hdrop.trans (.aside (aside_destroy _ _))
      | aside h => exact .aside h
      | touch => exact .of_same rfl rfl rfl
      | groups h => exact absurd h hP.groups
      | drop => exact .of_same rfl rfl rfl
      | control => exact .of_same rfl rfl rfl
      | relay target frame cb h => exact .attempt _ _ _ (hplain (hP.relay target frame cb h))
      | flush peer m => exact .attempt _ _ _ (hplain rfl)
      | enqueue name frame group h =>
          refine beside_enqueue name frame ?_
          rw [hP.store name frame group h]
          simp

theorem ownOnly_plain : (ownOnly : Permits ν).Plain :=
  ⟨fun _ _ _ h => h.elim, fun _ _ _ h => h.elim, fun h => h⟩

/-- The permits of a handler that has no fan-out. -/
def plainly : Permits ν :=
  { anything with touch := False, groups := False, relay := fun _ _ cb => cb.copy? = none,
                  store := fun _ _ group => group = none }

theorem plainly_plain : (plainly : Permits ν).Plain :=
  ⟨fun _ _ _ h => h, fun _ _ _ h => h, fun h => h⟩

theorem beside_closeIfCurrent (t : PeerRef) : Beside g st (closeIfCurrent env now st t) :=
  beside_of_chain ownOnly_plain (closeIfCurrent_chain t)

/-- A write in its place, before and after it settles. -/
theorem settleWrite_split {i : Nat} {w : Write ν} (hw : st.writes[i]? = some w)
    (status : WriteStatus) :
    ∃ pre post, st.writes = pre ++ w :: post ∧
      (st.settleWrite i status).writes = pre ++ { w with status } :: post := by
  obtain ⟨hi, rfl⟩ := List.getElem?_eq_some_iff.mp hw
  refine ⟨st.writes.take i, st.writes.drop (i + 1), ?_, ?_⟩
  · rw [List.getElem_cons_drop, List.take_append_drop]
  · exact List.modify_eq_take_cons_drop hi

/-- Settling another write. -/
theorem beside_settleWrite {i : Nat} {w : Write ν} (hw : st.writes[i]? = some w)
    (status : WriteStatus) (h : ∀ kind name, w.callback.copy? ≠ some (g, kind, name)) :
    Beside g st (st.settleWrite i status) := by
  refine ⟨rfl, ?_, rfl⟩
  have hnone : ∀ status', Write.copyOf g ({ w with status := status' } : Write ν) = none := by
    intro status'
    unfold Write.copyOf
    split
    · next g' kind name hc =>
        rw [if_neg]
        rintro rfl
        exact h kind name hc
    · rfl
  obtain ⟨pre, post, hbefore, hafter⟩ := settleWrite_split hw status
  rw [hbefore, hafter]
  unfold copiesOf
  simp only [List.filterMap_append, List.filterMap_cons]
  rw [hnone status, show Write.copyOf g w = none from hnone w.status]

end Beside

/-! ### A copy is written, and its write settles -/

/-- The callback of a copy. -/
def copyCallback (kind : GroupKind) (g : Nat) (t : PeerRef) : WriteCallback ν :=
  match kind with
  | .reply => .replyCopy g t
  | .broadcast => .broadcastCopy g t

/-- Counters of a fan-out that are the counts of its copies. -/
structure Tally (st : BrokerState ν) (g : Nat) (gr : Group) : Prop where
  group : st.groups[g]? = some gr
  waiting : gr.waiting = (copiesOf g st.writes).countP fun c => decide (c.status = .pending)
  delivered : gr.delivered = (copiesOf g st.writes).countP fun c => decide (c.status = .ok)
  kinds : ∀ c ∈ copiesOf g st.writes, c.kind = gr.kind

section Copies

variable {env : Env} {now : Int} {st st' : BrokerState ν} {g : Nat} {gr : Group}
  {kind : GroupKind} {t : PeerRef} {frame : Members ν}

theorem Tally.beside (h : Tally st g gr) (hb : Beside g st st') : Tally st' g gr :=
  ⟨hb.group.trans h.group, by rw [hb.copies]; exact h.waiting, by rw [hb.copies]; exact h.delivered,
    by rw [hb.copies]; exact h.kinds⟩

@[simp] theorem copy?_copyCallback (kind : GroupKind) (g : Nat) (t : PeerRef) :
    (copyCallback kind g t : WriteCallback ν).copy? = some (g, kind, t.name) := by
  cases kind <;> rfl

/-- A callback of a copy is one of the two. -/
theorem copyCallback_of_copy? {cb : WriteCallback ν} {name : String}
    (h : cb.copy? = some (g, kind, name)) : ∃ t, cb = copyCallback kind g t ∧ t.name = name := by
  cases cb with
  | replyCopy g' t =>
      obtain ⟨rfl, rfl, rfl⟩ : g' = g ∧ GroupKind.reply = kind ∧ t.name = name := by
        simpa [WriteCallback.copy?] using h
      exact ⟨t, rfl, rfl⟩
  | broadcastCopy g' t =>
      obtain ⟨rfl, rfl, rfl⟩ : g' = g ∧ GroupKind.broadcast = kind ∧ t.name = name := by
        simpa [WriteCallback.copy?] using h
      exact ⟨t, rfl, rfl⟩
  | _ => cases h

theorem placedBy_enqueue (env : Env) (now : Int) (st : BrokerState ν) (name : String)
    (frame : Members ν) (g : Nat) :
    placedBy g (enqueue env now st name frame (some g)).queued = placedBy g st.queued ++ [name] := by
  rw [(enqueue_quiet env now st name frame (some g)).1.queued]
  unfold placedBy BrokerState.storeMsg
  rw [List.filter_append]
  simp

/-- What a failed copy does: its record is closed, a broadcast is stored instead, and the
fan-out waits for one less. -/
theorem failedCopy_effect (env : Env) (now : Int) (st : BrokerState ν) (frame : Members ν)
    (kind : GroupKind) (g : Nat) (t : PeerRef) :
    let st' := runCallback env now st frame false (copyCallback kind g t)
    st'.groups[g]? = st.groups[g]?.map Group.fail ∧
    copiesOf g st'.writes = copiesOf g st.writes ∧
    placedBy g st'.queued = placedBy g st.queued ++ if kind = .broadcast then [t.name] else [] := by
  have hclose : Beside g st (closeIfCurrent env now st t) := beside_closeIfCurrent t
  cases kind with
  | reply =>
      simp only [copyCallback, runCallback, Bool.false_eq_true, if_false]
      refine ⟨?_, hclose.copies, ?_⟩
      · simp [BrokerState.modifyGroup, hclose.group]
      · rw [if_neg (by simp), List.append_nil]
        exact hclose.placed
  | broadcast =>
      have hstore := enqueue_quiet env now (closeIfCurrent env now st t) t.name frame (some g)
      have hcopies : copiesOf g (enqueue env now (closeIfCurrent env now st t) t.name frame
          (some g)).writes = copiesOf g (closeIfCurrent env now st t).writes :=
        (beside_notices (notifyDropped_chain trivial _)).copies
      simp only [copyCallback, runCallback, Bool.false_eq_true, if_false, if_true]
      refine ⟨?_, hcopies.trans hclose.copies, ?_⟩
      · simp only [BrokerState.modifyGroup, List.getElem?_modify_eq]
        rw [hstore.1.groups]
        show Option.map Group.fail (closeIfCurrent env now st t).groups[g]? = _
        rw [hclose.group]
      · show placedBy g (enqueue env now (closeIfCurrent env now st t) t.name frame (some g)).queued
          = _
        rw [placedBy_enqueue, hclose.placed]

theorem copiesOf_append (writes : List (Write ν)) (w : Write ν) :
    copiesOf g (writes ++ [w]) = copiesOf g writes ++ (w.copyOf g).toList := by
  unfold copiesOf
  rw [List.filterMap_append]
  cases h : w.copyOf g <;> simp [h]

theorem copyOf_copyCallback (sock : SocketId) (frame : Members ν) (kind : GroupKind) (t : PeerRef)
    (status : WriteStatus) :
    (⟨sock, frame, copyCallback kind g t, status⟩ : Write ν).copyOf g
      = some ⟨kind, t.name, status⟩ := by
  simp [Write.copyOf]

/-- What a copy does to its fan-out when it is written: it is pending, or has failed and is
stored instead if it is a broadcast's. -/
structure Copied (st st' : BrokerState ν) (g : Nat) (gr : Group) (kind : GroupKind) (name : String)
    (status : WriteStatus) : Prop where
  tally : ∃ gr', Tally st' g gr' ∧ gr'.kind = gr.kind ∧ gr'.total = gr.total
  unsettled : status ≠ .ok
  copies : copiesOf g st'.writes = copiesOf g st.writes ++ [⟨kind, name, status⟩]
  placed : placedBy g st'.queued = placedBy g st.queued ++
    if status = .failed ∧ kind = .broadcast then [name] else []

theorem Copied.of {gr' : Group} {name : String} {status : WriteStatus} (h : Tally st g gr)
    (hkind : gr.kind = kind) (hstatus : status ≠ .ok) (hgroup : st'.groups[g]? = some gr')
    (hwaiting : gr'.waiting = gr.waiting + if status = .pending then 1 else 0)
    (hsame : gr'.delivered = gr.delivered ∧ gr'.kind = gr.kind ∧ gr'.total = gr.total)
    (hcopies : copiesOf g st'.writes = copiesOf g st.writes ++ [⟨kind, name, status⟩])
    (hplaced : placedBy g st'.queued = placedBy g st.queued ++
      if status = .failed ∧ kind = .broadcast then [name] else []) :
    Copied st st' g gr kind name status := by
  refine ⟨⟨gr', ⟨hgroup, ?_, ?_, ?_⟩, hsame.2⟩, hstatus, hcopies, hplaced⟩
  · rw [hcopies, List.countP_append, ← h.waiting, hwaiting, List.countP_singleton]
    simp
  · rw [hcopies, List.countP_append, ← h.delivered, hsame.1, List.countP_singleton]
    simp [hstatus]
  · rw [hcopies, hsame.2.1]
    intro c hc
    rcases List.mem_append.mp hc with hc | hc
    · exact h.kinds c hc
    · rw [List.mem_singleton.mp hc]
      exact hkind.symm

theorem relay_eq (env : Env) (now : Int) (st : BrokerState ν) (t : PeerRef) (frame : Members ν)
    (cb : WriteCallback ν) : relay env now st t frame cb
      = if (encodeFrame frame env.cfg.maxFrameBytes).isSome && st.isOpen t.socket then
          { st with writes := st.writes ++ [⟨t.socket, frame, cb, .pending⟩] }
        else runCallback env now
          { st with writes := st.writes ++ [⟨t.socket, frame, cb, .failed⟩] } frame false cb := by
  unfold relay attempt
  cases (encodeFrame frame env.cfg.maxFrameBytes).isSome && st.isOpen t.socket <;> rfl

/-- A copy that is awaited and written. -/
theorem relayCopy_effect (env : Env) (now : Int) (frame : Members ν) (t : PeerRef)
    (h : Tally st g gr) (hkind : gr.kind = kind) :
    ∃ status, Copied st (relay env now (st.modifyGroup g Group.await) t frame
      (copyCallback kind g t)) g gr kind t.name status := by
  have hawait : (st.modifyGroup g Group.await).groups[g]? = some gr.await := by
    simp [BrokerState.modifyGroup, h.group]
  have hcopies : ∀ status,
      copiesOf g (st.writes ++ [⟨t.socket, frame, copyCallback kind g t, status⟩])
        = copiesOf g st.writes ++ [⟨kind, t.name, status⟩] := by
    intro status
    rw [copiesOf_append, copyOf_copyCallback]
    rfl
  rw [relay_eq]
  split
  · refine ⟨.pending, .of h hkind (by simp) hawait rfl ⟨rfl, rfl, rfl⟩ (hcopies _) ?_⟩
    rw [if_neg (by simp), List.append_nil]
    rfl
  · obtain ⟨hgroup, hc, hp⟩ := failedCopy_effect env now
      { st.modifyGroup g Group.await with
        writes := st.writes ++ [⟨t.socket, frame, copyCallback kind g t, .failed⟩] } frame kind g t
    refine ⟨.failed, .of h hkind (by simp) (hgroup.trans ?_) rfl ⟨rfl, rfl, rfl⟩
      (hc.trans (hcopies _)) (hp.trans ?_)⟩
    · show Option.map Group.fail (st.modifyGroup g Group.await).groups[g]? = some gr.await.fail
      rw [hawait]
      rfl
    · simp only [true_and]
      rfl

/-- What a copy does to its fan-out when its write settles. -/
structure Settled (st st' : BrokerState ν) (g : Nat) (gr : Group) (kind : GroupKind) (name : String)
    (ok : Bool) : Prop where
  tally : ∃ gr', Tally st' g gr' ∧ gr'.kind = gr.kind ∧ gr'.total = gr.total
  copies : ∃ pre post, copiesOf g st.writes = pre ++ ⟨kind, name, .pending⟩ :: post ∧
    copiesOf g st'.writes = pre ++ ⟨kind, name, if ok then .ok else .failed⟩ :: post
  placed : placedBy g st'.queued = placedBy g st.queued ++
    if ok = false ∧ kind = .broadcast then [name] else []

theorem settleCopy_effect (env : Env) (now : Int) {i : Nat} {w : Write ν} (ok : Bool)
    (h : Tally st g gr) (hw : st.writes[i]? = some w) (hpending : w.status = .pending)
    (hcb : w.callback = copyCallback kind g t) :
    Settled st (runCallback env now (st.settleWrite i (if ok then .ok else .failed)) w.frame ok
      (copyCallback kind g t)) g gr kind t.name ok := by
  obtain ⟨pre, post, hbefore, hafter⟩ := settleWrite_split hw (if ok then .ok else .failed)
  have hold : copiesOf g st.writes
      = copiesOf g pre ++ ⟨kind, t.name, .pending⟩ :: copiesOf g post := by
    rw [hbefore]
    simp [copiesOf, Write.copyOf, hcb, hpending]
  have hnew : copiesOf g (st.settleWrite i (if ok then .ok else .failed)).writes
      = copiesOf g pre ++ ⟨kind, t.name, if ok then .ok else .failed⟩ :: copiesOf g post := by
    rw [hafter]
    simp [copiesOf, Write.copyOf, hcb]
  have hkind : kind = gr.kind := h.kinds ⟨kind, t.name, .pending⟩ (by rw [hold]; simp)
  -- the counts once the copies are known, whatever the group has become
  have htally : ∀ {s : BrokerState ν} {gr' : Group}, s.groups[g]? = some gr' →
      copiesOf g s.writes = copiesOf g pre ++ ⟨kind, t.name, if ok then .ok else .failed⟩ ::
        copiesOf g post → gr'.kind = gr.kind → gr'.waiting = gr.waiting - 1 →
      gr'.delivered = gr.delivered + ok.toNat → Tally s g gr' := by
    intro s gr' hgroup hcopies hk hwaiting hdelivered
    have hw₀ := h.waiting
    have hd₀ := h.delivered
    have hk₀ := h.kinds
    rw [hold] at hw₀ hd₀ hk₀
    simp only [List.countP_append, List.countP_cons] at hw₀ hd₀
    refine ⟨hgroup, ?_, ?_, ?_⟩
    · rw [hcopies]
      simp only [List.countP_append, List.countP_cons]
      cases ok <;> simp_all
    · rw [hcopies]
      simp only [List.countP_append, List.countP_cons]
      cases ok
      · simp_all
      · simp_all
        omega
    · rw [hcopies, hk]
      intro c hc
      rcases List.mem_append.mp hc with hc | hc
      · exact hk₀ c (List.mem_append_left _ hc)
      · rcases List.mem_cons.mp hc with rfl | hc
        · exact hkind
        · exact hk₀ c (List.mem_append_right _ (List.mem_cons_of_mem _ hc))
  cases ok with
  | true =>
      have hgroup : ∀ s : BrokerState ν, s.groups = st.groups →
          (s.modifyGroup g Group.arrive).groups[g]? = some gr.arrive := by
        intro s hs
        simp [BrokerState.modifyGroup, hs, h.group]
      cases kind with
      | reply | broadcast =>
          refine ⟨⟨gr.arrive, htally (hgroup _ rfl) hnew rfl rfl rfl, rfl, rfl⟩,
            ⟨_, _, hold, hnew⟩, ?_⟩
          show placedBy g st.queued = _
          simp
  | false =>
      obtain ⟨hgroup, hc, hp⟩ := failedCopy_effect env now
        (st.settleWrite i (if false then .ok else .failed)) w.frame kind g t
      replace hc := hc.trans hnew
      have hfail : (st.settleWrite i (if false then .ok else .failed)).groups[g]?.map Group.fail
          = some gr.fail := by
        show st.groups[g]?.map Group.fail = some gr.fail
        rw [h.group]
        rfl
      refine ⟨⟨gr.fail, htally (hgroup.trans hfail) hc rfl rfl rfl, rfl, rfl⟩,
        ⟨_, _, hold, hc⟩, hp.trans ?_⟩
      simp only [true_and]
      rfl

/-- The callback of another write. -/
theorem runCallback_beside (env : Env) (now : Int) (st : BrokerState ν) (frame : Members ν)
    (ok : Bool) {cb : WriteCallback ν} (h : ∀ kind name, cb.copy? ≠ some (g, kind, name)) :
    Beside g st (runCallback env now st frame ok cb) := by
  cases hcopy : cb.copy? with
  | none =>
      have hperm : CallbackPermitted (plainly : Permits ν) frame cb := by
        refine ⟨fun g t hcb => ?_, fun _ _ _ _ _ _ => ⟨rfl, .inr trivial⟩, fun hcb => ?_,
          fun _ => trivial⟩
        · rw [hcb] at hcopy
          cases hcopy
        · obtain ⟨g, t, rfl | rfl⟩ := hcb <;> cases hcopy
      exact beside_of_chain plainly_plain (runCallback_chain ok hperm fun _ _ _ _ => .inr trivial)
  | some x =>
      obtain ⟨g', kind, name⟩ := x
      have hne : g' ≠ g := by
        rintro rfl
        exact h kind name hcopy
      obtain ⟨t, rfl, -⟩ := copyCallback_of_copy? hcopy
      have hclose : Beside g st (closeIfCurrent env now st t) := beside_closeIfCurrent t
      cases kind with
      | reply =>
          simp only [copyCallback, runCallback]
          split
          · exact (Beside.aside (aside_addRelayed st 1)).trans (.modifyGroup hne _)
          · exact hclose.trans (.modifyGroup hne _)
      | broadcast =>
          simp only [copyCallback, runCallback]
          split
          · exact .modifyGroup hne _
          · have hstored : Beside g (closeIfCurrent env now st t)
                (enqueue env now (closeIfCurrent env now st t) t.name frame (some g')) :=
              beside_enqueue t.name frame (by simpa using hne)
            exact (hclose.trans hstored).trans (.modifyGroup hne _)

theorem relay_beside (env : Env) (now : Int) (st : BrokerState ν) (t : PeerRef)
    (frame : Members ν) {cb : WriteCallback ν} (h : ∀ kind name, cb.copy? ≠ some (g, kind, name)) :
    Beside g st (relay env now st t frame cb) := by
  have hwrite : Beside g st (attempt st t.socket frame env.cfg.maxFrameBytes cb).1 :=
    .attempt _ _ _ h
  unfold relay
  cases ha : attempt st t.socket frame env.cfg.maxFrameBytes cb with
  | mk s ok =>
      rw [ha] at hwrite
      cases ok with
      | true => exact hwrite
      | false => exact hwrite.trans (runCallback_beside _ _ _ _ _ h)

end Copies

/-! ### The invariant of a fan-out -/

/-- How often `name` is reached: copies that have not failed, and places in its mailbox. -/
def reached (st : BrokerState ν) (g : Nat) (name : String) : Nat :=
  (copiesOf g st.writes).countP (fun c => decide (c.name = name ∧ c.status ≠ .failed)) +
    (placedBy g st.queued).count name

/-- The counters are right, no alias has two copies, and a broadcast reaches each of `names`
once. -/
structure Counted (st : BrokerState ν) (g : Nat) (kind : GroupKind) (names : List String) : Prop
    where
  tally : ∃ gr, Tally st g gr ∧ gr.kind = kind ∧
    gr.total = if kind = .broadcast then names.length else (copiesOf g st.writes).length
  once : ((copiesOf g st.writes).map Copy.name).Sublist names
  placed : kind = .broadcast → ∀ name, reached st g name = if name ∈ names then 1 else 0

section Counted

variable {env : Env} {now : Int} {st st' : BrokerState ν} {g : Nat} {gr : Group}
  {kind : GroupKind} {names : List String}

theorem reached_beside (hb : Beside g st st') (name : String) :
    reached st' g name = reached st g name := by
  unfold reached
  rw [hb.copies, hb.placed]

theorem Counted.beside (h : Counted st g kind names) (hb : Beside g st st') :
    Counted st' g kind names := by
  obtain ⟨gr, htally, hkind, htotal⟩ := h.tally
  refine ⟨⟨gr, htally.beside hb, hkind, ?_⟩, ?_, fun hk name => ?_⟩
  · rw [hb.copies]
    exact htotal
  · rw [hb.copies]
    exact h.once
  · rw [reached_beside hb]
    exact h.placed hk name

/-- A copy that is written is reached: it is pending, or was stored instead. -/
theorem Copied.reached {name name' : String} {status : WriteStatus}
    (h : Copied st st' g gr .broadcast name status) :
    reached st' g name' = reached st g name' + if name = name' then 1 else 0 := by
  unfold PiMesh.reached
  rw [h.copies, h.placed, List.countP_append, List.countP_singleton, List.count_append]
  have hok := h.unsettled
  cases status with
  | ok => exact absurd rfl hok
  | pending =>
      by_cases hn : name = name' <;> simp [hn]
      omega
  | failed =>
      by_cases hn : name = name' <;> simp [hn]
      omega

/-- A copy whose write settles stays reached: where it failed it is stored instead. -/
theorem Settled.reached {name name' : String} {ok : Bool}
    (h : Settled st st' g gr .broadcast name ok) : reached st' g name' = reached st g name' := by
  obtain ⟨pre, post, hold, hnew⟩ := h.copies
  unfold PiMesh.reached
  rw [hold, hnew, h.placed]
  simp only [List.countP_append, List.countP_cons, List.count_append]
  cases ok with
  | true => simp
  | false =>
      by_cases hn : name = name' <;> simp [hn]
      omega

theorem Counted.settled {name : String} {ok : Bool} (h : Counted st g kind names)
    (hset : ∀ gr, Tally st g gr → Settled st st' g gr kind name ok) : Counted st' g kind names := by
  obtain ⟨gr, htally, hkind, htotal⟩ := h.tally
  have hs := hset gr htally
  obtain ⟨gr', htally', hkind', htotal'⟩ := hs.tally
  obtain ⟨pre, post, hold, hnew⟩ := hs.copies
  refine ⟨⟨gr', htally', hkind'.trans hkind, ?_⟩, ?_, fun hk name' => ?_⟩
  · rw [htotal', htotal, hold, hnew]
    simp
  · have honce := h.once
    rw [hold] at honce
    rw [hnew]
    simpa using honce
  · subst hk
    rw [hs.reached]
    exact h.placed rfl name'

end Counted

/-! ### The loop of a reply -/

/-- Fan-outs that have not been opened have nothing. -/
def Numbered (st : BrokerState ν) : Prop :=
  ∀ g, st.groups[g]? = none → copiesOf g st.writes = [] ∧ placedBy g st.queued = []

section Replies

variable {env : Env} {now : Int} {st s : BrokerState ν} {g g' : Nat} {frame : Members ν}
  {name : String} {done : List String} {kind : GroupKind}

theorem tally_openGroup (h : Numbered st) (sender : PeerRef) (id : String) :
    Tally (st.openGroup kind sender id) st.groups.length { kind, sender, id } := by
  obtain ⟨hcopies, -⟩ := h st.groups.length (List.getElem?_eq_none (le_refl _))
  refine ⟨?_, ?_, ?_, ?_⟩
  · simp [BrokerState.openGroup]
  · show 0 = (copiesOf _ st.writes).countP _
    rw [hcopies]
    rfl
  · show 0 = (copiesOf _ st.writes).countP _
    rw [hcopies]
    rfl
  · show ∀ c ∈ copiesOf _ st.writes, _
    rw [hcopies]
    simp

theorem counted_openGroup (h : Numbered st) (sender : PeerRef) (id : String) :
    Counted (st.openGroup kind sender id) st.groups.length kind [] := by
  obtain ⟨hcopies, hplaced⟩ := h st.groups.length (List.getElem?_eq_none (le_refl _))
  refine ⟨⟨_, tally_openGroup h sender id, rfl, ?_⟩, ?_, fun _ name => ?_⟩
  · show 0 = if kind = .broadcast then 0 else (copiesOf _ st.writes).length
    rw [hcopies]
    simp
  · show ((copiesOf _ st.writes).map Copy.name).Sublist []
    rw [hcopies]
    exact .refl _
  · show (copiesOf _ st.writes).countP _ + (placedBy _ st.queued).count name = _
    rw [hcopies, hplaced]
    rfl

theorem beside_openGroup (hne : g ≠ st.groups.length) (sender : PeerRef) (id : String) :
    Beside g st (st.openGroup kind sender id) := by
  refine ⟨?_, rfl, rfl⟩
  simp only [BrokerState.openGroup, List.getElem?_append]
  split
  · rfl
  · next hle =>
      rw [List.getElem?_eq_none (by simp; omega), List.getElem?_eq_none (by omega)]

/-- Counting a recipient changes the total alone. -/
theorem Tally.count {gr : Group} (h : Tally st g gr) :
    Tally (st.modifyGroup g Group.count) g gr.count :=
  ⟨by simp [BrokerState.modifyGroup, h.group], h.waiting, h.delivered, h.kinds⟩

/-- Passing a frame on takes records and members away at most. -/
theorem relay_dwindles (env : Env) (now : Int) (st : BrokerState ν) (t : PeerRef)
    (frame : Members ν) (cb : WriteCallback ν) : Dwindles st (relay env now st t frame cb) := by
  have hwrite := attempt_dwindles st t.socket frame env.cfg.maxFrameBytes cb
  unfold relay
  cases ha : attempt st t.socket frame env.cfg.maxFrameBytes cb with
  | mk s ok =>
      rw [ha] at hwrite
      cases ok with
      | true => exact hwrite
      | false =>
          have hc : Chain env now anyRoute s (runCallback env now s frame false cb) :=
            runCallback_chain false ⟨fun _ _ _ => trivial, fun _ _ _ _ _ _ => ⟨trivial, .inr trivial⟩,
              fun _ => trivial, fun _ => trivial⟩ fun _ _ _ _ => .inr trivial
          exact hwrite.trans (dwindles_of_chain (fun h => h) hc)

theorem replyOne_dwindles (env : Env) (now : Int) (g : Nat) (frame : Members ν)
    (s : BrokerState ν) (name : String) : Dwindles s (replyOne env now g frame s name) := by
  unfold replyOne
  split
  · exact .of_same rfl rfl rfl
  · have hcount : Dwindles s ((s.modifyGroup g Group.count).modifyGroup g Group.await) :=
      .of_same rfl rfl rfl
    exact hcount.trans (relay_dwindles _ _ _ _ _ _)

theorem replyOne_beside (hne : g' ≠ g) : Beside g s (replyOne env now g' frame s name) := by
  unfold replyOne
  split
  · exact .of_same rfl rfl rfl
  · refine Beside.trans ((Beside.modifyGroup hne _).trans (.modifyGroup hne _))
      (relay_beside _ _ _ _ _ ?_)
    intro kind name hc
    simp only [WriteCallback.copy?, Option.some.injEq, Prod.mk.injEq] at hc
    exact hne hc.1

/-- One recipient more, to whom a copy is written. -/
theorem Counted.copied {s' : BrokerState ν} {gr : Group} {status : WriteStatus}
    (h : Counted s g kind done) (hnew : kind = .broadcast → name ∉ done)
    (htotal : gr.total = if kind = .broadcast then done.length else (copiesOf g s.writes).length)
    (hkind : gr.kind = kind)
    (hc : Copied (s.modifyGroup g Group.count) s' g gr.count kind name status) :
    Counted s' g kind (done ++ [name]) := by
  obtain ⟨gr', htally', hkind', htotal'⟩ := hc.tally
  have hcopies : copiesOf g s'.writes = copiesOf g s.writes ++ [⟨kind, name, status⟩] := hc.copies
  refine ⟨⟨gr', htally', hkind'.trans hkind, ?_⟩, ?_, fun hk name' => ?_⟩
  · rw [htotal', hcopies]
    show gr.total + 1 = _
    rw [htotal]
    split <;> simp
  · rw [hcopies, List.map_append]
    exact h.once.append (.refl _)
  · subst hk
    rw [hc.reached, show reached (s.modifyGroup g Group.count) g name' = reached s g name' from rfl,
      h.placed rfl name']
    by_cases hn : name = name'
    · simp [← hn, hnew rfl]
    · have hn' : ¬ name' = name := fun hc => hn hc.symm
      simp [hn, hn']

theorem Counted.sublist {names : List String} (h : Counted s g .reply done)
    (hsub : done.Sublist names) : Counted s g .reply names := by
  obtain ⟨gr, htally, hkind, htotal⟩ := h.tally
  exact ⟨⟨gr, htally, hkind, htotal⟩, h.once.trans hsub, fun hk => by cases hk⟩

/-- One recipient of a reply. -/
theorem replyOne_counted (env : Env) (now : Int) (frame : Members ν) (name : String)
    (hkeyed : Keyed s) (h : Counted s g .reply done) :
    Counted (replyOne env now g frame s name) g .reply
      (done ++ if (s.online name).isSome then [name] else []) := by
  unfold replyOne
  cases hon : s.online name with
  | none => simpa using h
  | some t =>
      obtain ⟨gr, htally, hkind, htotal⟩ := h.tally
      obtain ⟨status, hcopied⟩ := relayCopy_effect env now frame t.toRef htally.count hkind
      rw [show t.toRef.name = name from hkeyed.online hon] at hcopied
      exact h.copied (fun hk => by cases hk) htotal hkind hcopied

/-- The loop: the copies are for some of those who were online before it. -/
theorem replyLoop_counted (env : Env) (now : Int) (frame : Members ν) (hkeyed : Keyed st)
    (rest : List String) (hdw : Dwindles st s) (h : Counted s g .reply done) :
    Counted (rest.foldl (replyOne env now g frame) s) g .reply
      (done ++ rest.filter fun n => (st.online n).isSome) := by
  induction rest generalizing s done with
  | nil => simpa using h
  | cons name rest ih =>
      have hkeyed' : Keyed s := fun n p hp => hkeyed n p (hdw.peers n p hp)
      have hone := replyOne_counted env now frame name hkeyed' h
      have hrest := ih (hdw.trans (replyOne_dwindles env now g frame s name)) hone
      refine hrest.sublist ?_
      rw [List.filter_cons, List.append_assoc]
      refine (List.Sublist.refl done).append ?_
      cases hon : s.online name with
      | none =>
          simp only [Option.isSome_none, Bool.false_eq_true, if_false, List.nil_append]
          split
          · exact List.sublist_cons_self _ _
          · exact .refl _
      | some t =>
          simp only [Option.isSome_some, if_true, hdw.online hon]
          exact .refl _

theorem replyLoop_beside (env : Env) (now : Int) (frame : Members ν) (hne : g' ≠ g)
    (rest : List String) (s : BrokerState ν) :
    Beside g s (rest.foldl (replyOne env now g' frame) s) := by
  induction rest generalizing s with
  | nil => exact .of_same rfl rfl rfl
  | cons name rest ih => exact (replyOne_beside hne).trans (ih _)

/-- A reply to several, for its own fan-out and for the others. -/
theorem replyFan_counted (env : Env) (now : Int) (st : BrokerState ν) (a : PeerRecord ν)
    (f : MeshFrame ν) (hkeyed : Keyed st) (hnum : Numbered st) (names : List String) :
    Counted (replyFan env now st a f names) st.groups.length .reply
      ((names.filter fun name => name ≠ a.name).filter fun n => (st.online n).isSome) := by
  have hopen : Counted (st.openGroup .reply a.toRef f.id) st.groups.length .reply [] :=
    counted_openGroup hnum a.toRef f.id
  have hdw : Dwindles st (st.openGroup .reply a.toRef f.id) := .of_same rfl rfl rfl
  exact replyLoop_counted env now f.raw hkeyed _ hdw hopen

theorem replyFan_beside (env : Env) (now : Int) (st : BrokerState ν) (a : PeerRecord ν)
    (f : MeshFrame ν) (hne : g ≠ st.groups.length) (names : List String) :
    Beside g st (replyFan env now st a f names) :=
  (beside_openGroup hne _ _).trans (replyLoop_beside env now f.raw hne.symm _ _)

end Replies

/-! ### The loop of a broadcast -/

/-- Frames were written and ids used, and nothing else. -/
def Wrote (st st' : BrokerState ν) : Prop :=
  ∃ writes ids, st' = { st with writes, ids }

/-- The notice for a message that left a mailbox undelivered. -/
def dropNotice (env : Env) (now : Int) (ids : Nat) (m : StoredMsg ν) : Members ν :=
  buildFrame env.rt ⟨env.rt.makeMsgId ids, env.rt.toISOString now⟩
    { type := .ack, id := (getOf m.frame "id").bind asStr,
      status := some AckStatus.droppedOffline.text, recipient := (getOf m.frame "to").bind asStr }

/-- Whoever is still to get the broadcast of `frame` is where it was when the broadcast came
in: in the room, with the same mailbox, and its socket no worse unless destroyed. -/
structure Spared (st : BrokerState ν) (key : RoomKey ν) (rest : List String) (s : BrokerState ν) :
    Prop where
  dwindles : Dwindles st s
  sockets : ∀ sock, st.isOpen sock = true → s.isDestroyed sock = false → s.isOpen sock = true
  members : ∀ name ∈ rest, stillMember s key name = true
  mailbox : ∀ name ∈ rest, s.mailbox.get? name = st.mailbox.get? name
  known : s.knownAliases = st.knownAliases

section Broadcasts

variable {env : Env} {now : Int} {st s s' : BrokerState ν} {key : RoomKey ν} {rest : List String}
  {name : String}

namespace Wrote

theorem refl (st : BrokerState ν) : Wrote st st := ⟨st.writes, st.ids, rfl⟩

theorem trans (h : Wrote st s) (h' : Wrote s s') : Wrote st s' := by
  obtain ⟨w, n, rfl⟩ := h
  obtain ⟨w', n', rfl⟩ := h'
  exact ⟨w', n', rfl⟩

theorem attempt (st : BrokerState ν) (sock : SocketId) (frame : Members ν) (maxBytes : Nat)
    (cb : WriteCallback ν) : Wrote st (attempt st sock frame maxBytes cb).1 := by
  obtain ⟨status, -, heq⟩ := attempt_eq st sock frame maxBytes cb
  exact ⟨_, _, heq⟩

theorem foldl {α : Type} {f : BrokerState ν → α → BrokerState ν} (hf : ∀ s x, Wrote s (f s x))
    (l : List α) (s : BrokerState ν) : Wrote s (l.foldl f s) := by
  induction l generalizing s with
  | nil => exact .refl _
  | cons x rest ih => exact (hf s x).trans (ih _)

end Wrote

/-- Closing a record is its tables, and frames written. -/
theorem closePeer_wrote {peer : PeerRecord ν} (h : st.peers.get? name = some peer) :
    Wrote (st.dropPeer name peer) (closePeer env now st name) := by
  have hroom : ∀ (s : BrokerState ν) (room : RoomKey ν) (frame : Members ν),
      Wrote s (broadcastToRoom s room name fun st p =>
        writeIgnored st p.socket frame defaultMaxFrameBytes) := by
    intro s room frame
    unfold broadcastToRoom
    split
    · exact .refl _
    · refine .foldl (fun s n => ?_) _ _
      split
      · exact .refl _
      · split
        · exact .attempt _ _ _ _ _
        · exact .refl _
  have hid : ∀ s : BrokerState ν, Wrote s s.useId := fun s => ⟨s.writes, s.ids + 1, rfl⟩
  have hpresence : ∀ s : BrokerState ν, Wrote s (peer.rooms.keys.foldl (fun st room =>
      let frame := presenceFrame env now st name "offline" room none none
      broadcastToRoom st.useId room name fun st p =>
        writeIgnored st p.socket frame defaultMaxFrameBytes) s) :=
    fun s => Wrote.foldl (fun s room => (hid s).trans (hroom _ room _)) _ s
  unfold closePeer
  simp only [h]
  refine (hpresence _).trans ?_
  split
  · exact .refl _
  · refine Wrote.foldl (fun s p => (hid s).trans ?_) _ _
    exact .attempt _ _ _ _ _

/-- Taking one alias out of its rooms leaves the others in. -/
theorem stillMember_detach {rooms : RoomTable ν} {peer : PeerRecord ν} (hne : name ≠ peer.name)
    (h : ((rooms.get? key).any fun members => members.has name) = true) :
    (((detachFromRooms rooms peer).get? key).any fun members => members.has name) = true := by
  rw [detachFromRooms_get?]
  split
  · obtain ⟨members, hm, hin⟩ := (Option.any_eq_true _ _).mp h
    rw [hm, Option.bind_some]
    have hmem : name ∈ members.elems := (members.has_iff name).mp hin
    cases hw : roomWithout peer.name members with
    | none => exact absurd (roomWithout_eq_none hw hmem) hne
    | some members' =>
        rw [Option.any_some, Js.Set.has_iff, mem_roomWithout hw]
        exact ⟨hmem, hne⟩
  · exact h

theorem isOpen_destroy_ne (st : BrokerState ν) {sock sock' : SocketId} (h : sock' ≠ sock) :
    (st.destroy sock).isOpen sock' = st.isOpen sock' := by
  unfold BrokerState.destroy BrokerState.isOpen
  cases hs : st.sockets.get? sock with
  | none => rfl
  | some x => simp [Map.get?_set_ne _ _ h]

namespace Spared

theorem wrote (h : Spared st key rest s) (hw : Wrote s s') : Spared st key rest s' := by
  obtain ⟨writes, ids, rfl⟩ := hw
  refine ⟨h.dwindles.trans (.of_same rfl rfl rfl), h.sockets, h.members, h.mailbox, h.known⟩

/-- Closing a record of another alias. -/
theorem dropPeer (h : Spared st key rest s) {peer : PeerRecord ν} (hname : peer.name ∉ rest) :
    Spared st key rest (s.dropPeer name peer) := by
  have haside := aside_destroy
    { s with rooms := detachFromRooms s.rooms peer, peers := s.peers.delete name } peer.socket
  refine ⟨h.dwindles.trans (dropPeer_dwindles s name peer), ?_, ?_, ?_, haside.knownAliases.trans h.known⟩
  · intro sock hopen hlive
    have hlive' : s.isDestroyed sock = false := by
      by_contra hc
      rw [(dropPeer_dwindles s name peer).destroyed sock (by simpa using hc)] at hlive
      cases hlive
    have hwas := h.sockets sock hopen hlive'
    by_cases hs : sock = peer.socket
    · -- its own socket is destroyed
      have hdead : (s.dropPeer name peer).isDestroyed peer.socket = true := isDestroyed_destroy _ _
      rw [hs, hdead] at hlive
      cases hlive
    · rw [← hwas]
      exact isOpen_destroy_ne _ hs
  · intro n hn
    have hin := h.members n hn
    have hne : n ≠ peer.name := by
      rintro rfl
      exact hname hn
    unfold stillMember at hin ⊢
    rw [show (s.dropPeer name peer).rooms = detachFromRooms s.rooms peer from haside.rooms]
    exact stillMember_detach hne hin
  · intro n hn
    rw [← h.mailbox n hn]
    exact congrArg (fun m : MailboxTable ν => m.get? n) haside.mailbox

theorem keyed (h : Spared st key rest s) (hkeyed : Keyed st) : Keyed s :=
  fun n p hp => hkeyed n p (h.dwindles.peers n p hp)

theorem closeIfCurrent (h : Spared st key rest s) (hkeyed : Keyed st) {t : PeerRef}
    (hname : t.name ∉ rest) : Spared st key rest (closeIfCurrent env now s t) := by
  unfold PiMesh.closeIfCurrent
  split
  · cases hpeer : s.peers.get? t.name with
    | none =>
        unfold closePeer
        rw [hpeer]
        exact h
    | some peer =>
        have hpn : peer.name = t.name := h.keyed hkeyed t.name peer hpeer
        refine wrote (h.dropPeer ?_) (closePeer_wrote hpeer)
        rw [hpn]
        exact hname
  · exact h

theorem sendTo (h : Spared st key rest s) (hkeyed : Keyed st) {peer : PeerRef} {frame : Members ν}
    (hok : peer.name ∈ rest → Encodes env frame ∧ s.isOpen peer.socket = true) :
    Spared st key rest (sendTo env now s peer frame) := by
  have hwrote := Wrote.attempt s peer.socket frame env.cfg.maxFrameBytes (.sendTo peer)
  unfold PiMesh.sendTo sendWith
  cases ha : PiMesh.attempt s peer.socket frame env.cfg.maxFrameBytes (.sendTo peer) with
  | mk s' ok =>
      rw [ha] at hwrote
      have h' : Spared st key rest s' := h.wrote hwrote
      cases ok with
      | true => exact h'
      | false =>
          refine h'.closeIfCurrent hkeyed fun hin => ?_
          obtain ⟨henc, hopen⟩ := hok hin
          have hsent := attempt_of_encodes henc s peer.socket (.sendTo peer)
          rw [ha, hopen] at hsent
          cases hsent

/-- The notices of messages dropped, if those for who is still to come can be written. -/
theorem notifyDropped (h : Spared st key rest s) (hkeyed : Keyed st) {dropped : List (StoredMsg ν)}
    (hok : ∀ m ∈ dropped, ∀ sender ∈ rest, (getOf m.frame "from").bind asStr = some sender →
      ∀ t, st.online sender = some t →
        st.isOpen t.socket = true ∧ ∀ ids, Encodes env (dropNotice env now ids m)) :
    Spared st key rest (notifyDropped env now s dropped) := by
  unfold PiMesh.notifyDropped
  induction dropped generalizing s with
  | nil => exact h
  | cons m more ih =>
      have hdrop : ∀ d, Spared st key rest { s with drops := s.drops ++ [d] } := fun d =>
        ⟨h.dwindles.trans (.of_same rfl rfl rfl), h.sockets, h.members, h.mailbox, h.known⟩
      refine ih ?_ fun m' hm' => hok m' (List.mem_cons_of_mem _ hm')
      dsimp only
      split
      · exact hdrop _
      · next t ht =>
          obtain ⟨sender, hfrom, hon⟩ := Option.bind_eq_some_iff.mp ht
          have hname : t.toRef.name = sender := (h.keyed hkeyed).online hon
          refine (hdrop _).sendTo hkeyed fun hin => ?_
          rw [hname] at hin
          obtain ⟨hopen, hnotice⟩ := hok m List.mem_cons_self sender hin hfrom t
            (h.dwindles.online hon)
          exact ⟨hnotice s.ids, h.sockets _ hopen (online_eq_some hon).2.2⟩

theorem storeMsg (h : Spared st key rest s) (hname : name ∉ rest) (frame : Members ν)
    (group : Option Nat) : Spared st key rest (s.storeMsg env now name frame group) := by
  refine ⟨h.dwindles.trans (.of_same rfl rfl rfl), h.sockets, h.members, fun n hn => ?_, h.known⟩
  rw [← h.mailbox n hn]
  have hne : n ≠ name := by
    rintro rfl
    exact hname hn
  have hqueue : ∀ (c : Bool) (q : List (StoredMsg ν)),
      (if c then s.mailbox.delete name else s.mailbox.set name q).get? n = s.mailbox.get? n := by
    intro c q
    cases c with
    | true => exact Map.get?_delete_ne _ hne
    | false => exact Map.get?_set_ne _ _ hne
  simp only [BrokerState.storeMsg, BrokerState.setMail, enqueueMailbox, partitionExpired,
    BrokerState.mail]
  rw [Map.get?_set_ne _ _ hne]
  exact hqueue _ _

end Spared

/-- What one more message pushes out of a queue does not depend on the message, unless it is
the message. -/
theorem mem_dropped {mail mail' : Mail ν} {cfg : MeshConfig} {m msg : StoredMsg ν}
    (msg' : StoredMsg ν) (hq : mail.mailbox.get? name = mail'.mailbox.get? name)
    (h : m ∈ (enqueueMailbox mail cfg name msg now).1) :
    m = msg ∨ m ∈ (enqueueMailbox mail' cfg name msg' now).1 := by
  simp only [enqueueMailbox, partitionExpired, hq, List.mem_append, List.take_append,
    List.length_append, List.length_singleton] at h ⊢
  rcases h with h | h | h
  · exact .inr (.inl h)
  · exact .inr (.inr (.inl h))
  · exact .inl (List.mem_singleton.mp (List.mem_of_mem_take h))

/-- The drop notices that storing a broadcast for `name` gives rise to can be written, as far
as they are for who comes after it. -/
def NoticesArrive (env : Env) (now : Int) (st : BrokerState ν) (frame : Members ν) (name : String)
    (rest : List String) : Prop :=
  ∀ m ∈ (enqueueMailbox st.mail env.cfg name ⟨st.refs, frame, now⟩ now).1, ∀ sender ∈ rest,
    (getOf m.frame "from").bind asStr = some sender → ∀ t, st.online sender = some t →
      st.isOpen t.socket = true ∧ ∀ ids, Encodes env (dropNotice env now ids m)

theorem Spared.enqueue {frame : Members ν} {sender : String} (h : Spared st key rest s)
    (hkeyed : Keyed st) (hname : name ∉ rest)
    (hq : s.mailbox.get? name = st.mailbox.get? name)
    (hfrom : (getOf frame "from").bind asStr = some sender) (hsender : sender ∉ rest)
    (hok : NoticesArrive env now st frame name rest) (group : Option Nat) :
    Spared st key rest (enqueue env now s name frame group) := by
  rw [enqueue_eq]
  refine (h.storeMsg hname frame group).notifyDropped hkeyed fun m hm n hn hf t ht => ?_
  have hmail : s.mail.mailbox.get? name = st.mail.mailbox.get? name := hq
  rcases mem_dropped ⟨st.refs, frame, now⟩ hmail hm with rfl | hm
  · rw [hfrom] at hf
    obtain rfl := Option.some.inj hf
    exact absurd hn hsender
  · exact hok m hm n hn hf t ht

theorem Spared.tail (h : Spared st key (name :: rest) s) : Spared st key rest s :=
  ⟨h.dwindles, h.sockets, fun n hn => h.members n (List.mem_cons_of_mem _ hn),
    fun n hn => h.mailbox n (List.mem_cons_of_mem _ hn), h.known⟩

theorem Spared.modifyGroup (h : Spared st key rest s) (g : Nat) (f : Group → Group) :
    Spared st key rest (s.modifyGroup g f) :=
  ⟨h.dwindles.trans (.of_same rfl rfl rfl), h.sockets, h.members, h.mailbox, h.known⟩

/-- A copy of a broadcast that failed: its record is closed and the message stored. -/
theorem Spared.failedCopy {frame : Members ν} {sender : String} {t : PeerRef}
    (h : Spared st key rest s) (hkeyed : Keyed st) (hname : t.name ∉ rest)
    (hq : s.mailbox.get? t.name = st.mailbox.get? t.name)
    (hfrom : (getOf frame "from").bind asStr = some sender) (hsender : sender ∉ rest)
    (hok : NoticesArrive env now st frame t.name rest) (g : Nat) :
    Spared st key rest (runCallback env now s frame false (.broadcastCopy g t)) := by
  have hclosed : Spared st key rest (PiMesh.closeIfCurrent env now s t) :=
    h.closeIfCurrent hkeyed hname
  have hsame : Chain env now noticesOnly s (PiMesh.closeIfCurrent env now s t) :=
    closeIfCurrent_chain t
  have hmail : (PiMesh.closeIfCurrent env now s t).mailbox.get? t.name
      = st.mailbox.get? t.name := by
    rw [(quiet_of_chain hsame).1.mailbox]
    exact hq
  exact (hclosed.enqueue hkeyed hname hmail hfrom hsender hok (some g)).modifyGroup g Group.fail

/-- A copy of a broadcast written, and stored instead if that fails. -/
theorem Spared.relayCopy {frame : Members ν} {sender : String} {t : PeerRef} {g : Nat}
    (h : Spared st key rest s) (hkeyed : Keyed st) (hname : t.name ∉ rest)
    (hq : s.mailbox.get? t.name = st.mailbox.get? t.name)
    (hfrom : (getOf frame "from").bind asStr = some sender) (hsender : sender ∉ rest)
    (hok : NoticesArrive env now st frame t.name rest) :
    Spared st key rest (relay env now s t frame (.broadcastCopy g t)) := by
  rw [relay_eq]
  split
  · exact h.wrote ⟨_, _, rfl⟩
  · refine Spared.failedCopy (h.wrote ⟨_, _, rfl⟩) hkeyed hname ?_ hfrom hsender hok g
    exact hq

/-- A message stored for who is offline counts as reached. -/
theorem Counted.stored {g : Nat} {done : List String} (h : Counted s g .broadcast done)
    (hnew : name ∉ done) (frame : Members ν) :
    Counted (enqueue env now (s.modifyGroup g Group.count) name frame (some g)) g .broadcast
      (done ++ [name]) := by
  obtain ⟨gr, htally, hkind, htotal⟩ := h.tally
  have hquiet := (enqueue_quiet env now (s.modifyGroup g Group.count) name frame (some g)).1
  have hcopies : copiesOf g (enqueue env now (s.modifyGroup g Group.count) name frame
      (some g)).writes = copiesOf g s.writes :=
    (beside_notices (notifyDropped_chain trivial _)).copies
  have hplaced : placedBy g (enqueue env now (s.modifyGroup g Group.count) name frame
      (some g)).queued = placedBy g s.queued ++ [name] := placedBy_enqueue _ _ _ _ _ _
  have hcount := htally.count
  refine ⟨⟨gr.count, ⟨?_, ?_, ?_, ?_⟩, hkind, ?_⟩, ?_, fun _ name' => ?_⟩
  · rw [hquiet.groups]
    exact hcount.group
  · rw [hcopies]
    exact hcount.waiting
  · rw [hcopies]
    exact hcount.delivered
  · rw [hcopies]
    exact hcount.kinds
  · show gr.total + 1 = _
    rw [htotal]
    simp
  · rw [hcopies]
    exact h.once.trans (List.sublist_append_left _ _)
  · have hwas := h.placed rfl name'
    unfold reached at hwas ⊢
    rw [hcopies, hplaced, List.count_append, List.count_singleton, ← Nat.add_assoc, hwas]
    by_cases hn : name = name'
    · simp [← hn, hnew]
    · have hn' : ¬ name' = name := fun hc => hn hc.symm
      simp [hn, hn']

/-- One member of a broadcast. -/
theorem broadcastOne_counted {g : Nat} {done : List String} {frame : Members ν} {sender : String}
    (hkeyed : Keyed st) (h : Spared st key (name :: rest) s) (hname : name ∉ rest)
    (hfrom : (getOf frame "from").bind asStr = some sender) (hsender : sender ∉ rest)
    (hok : NoticesArrive env now st frame name rest) (hknown : st.knownAliases.has name = true)
    (hc : Counted s g .broadcast done) (hnew : name ∉ done) :
    Spared st key rest (broadcastOne env now g key frame s name) ∧
      Counted (broadcastOne env now g key frame s name) g .broadcast (done ++ [name]) := by
  have hmember := h.members name List.mem_cons_self
  have hq := h.mailbox name List.mem_cons_self
  unfold broadcastOne
  rw [hmember]
  simp only [Bool.not_true, Bool.false_eq_true, if_false]
  cases hon : (s.modifyGroup g Group.count).online name with
  | some t =>
      have hname' : t.toRef.name = name := (h.tail.keyed hkeyed).online hon
      obtain ⟨gr, htally, hkind, htotal⟩ := hc.tally
      obtain ⟨status, hcopied⟩ := relayCopy_effect env now frame t.toRef htally.count hkind
      rw [hname'] at hcopied
      refine ⟨?_, hc.copied (fun _ => hnew) htotal hkind hcopied⟩
      have hcounted := (h.tail.modifyGroup g Group.count).modifyGroup g Group.await
      refine hcounted.relayCopy hkeyed ?_ ?_ hfrom hsender ?_
      · rw [hname']
        exact hname
      · rw [hname']
        exact hq
      · rw [hname']
        exact hok
  | none =>
      have hhas : (s.modifyGroup g Group.count).knownAliases.has name = true := by
        show s.knownAliases.has name = true
        rw [h.known]
        exact hknown
      simp only [hhas, if_true]
      exact ⟨(h.tail.modifyGroup g Group.count).enqueue hkeyed hname hq hfrom hsender hok _,
        hc.stored hnew frame⟩

/-- Every recipient is known, and no drop notice on the way fails for one still to come. -/
def Unhindered (env : Env) (now : Int) (st : BrokerState ν) (frame : Members ν)
    (names : List String) : Prop :=
  (∀ name ∈ names, st.knownAliases.has name = true) ∧
    ∀ pre name post, names = pre ++ name :: post → NoticesArrive env now st frame name post

/-- The loop of a broadcast. -/
theorem broadcastLoop_counted {g : Nat} {frame : Members ν} {sender : String} (hkeyed : Keyed st)
    {names : List String} (hnd : names.Nodup)
    (hfrom : (getOf frame "from").bind asStr = some sender) (hsender : sender ∉ names)
    (hok : Unhindered env now st frame names) (done : List String) (hsplit : names = done ++ rest)
    (h : Spared st key rest s) (hc : Counted s g .broadcast done) :
    Counted (rest.foldl (broadcastOne env now g key frame) s) g .broadcast names := by
  induction rest generalizing s done with
  | nil =>
      rw [hsplit, List.append_nil]
      exact hc
  | cons name rest ih =>
      have hin : name ∈ names := by
        rw [hsplit]
        simp
      have hparts : name ∉ rest ∧ name ∉ done := by
        rw [hsplit, List.nodup_append] at hnd
        refine ⟨(List.nodup_cons.mp hnd.2.1).1, fun hd => ?_⟩
        exact hnd.2.2 name hd name List.mem_cons_self rfl
      have hsender' : sender ∉ rest := by
        intro hs
        apply hsender
        rw [hsplit]
        exact List.mem_append_right _ (List.mem_cons_of_mem _ hs)
      obtain ⟨h', hc'⟩ := broadcastOne_counted hkeyed h hparts.1 hfrom hsender'
        (hok.2 done name rest hsplit) (hok.1 name hin) hc hparts.2
      refine ih (done ++ [name]) ?_ h' hc'
      rw [hsplit, List.append_assoc]
      rfl

theorem broadcastOne_beside {g g' : Nat} (hne : g' ≠ g) (env : Env) (now : Int) (key : RoomKey ν)
    (frame : Members ν) (s : BrokerState ν) (name : String) :
    Beside g s (broadcastOne env now g' key frame s name) := by
  unfold broadcastOne
  split
  · exact .of_same rfl rfl rfl
  · refine (Beside.modifyGroup hne Group.count).trans ?_
    simp only
    split
    · refine (Beside.modifyGroup hne Group.await).trans (relay_beside _ _ _ _ _ ?_)
      intro kind name hc
      simp only [WriteCallback.copy?, Option.some.injEq, Prod.mk.injEq] at hc
      exact hne hc.1
    · split
      · exact beside_enqueue name frame (by simpa using hne)
      · exact .of_same rfl rfl rfl

theorem broadcastLoop_beside {g g' : Nat} (hne : g' ≠ g) (env : Env) (now : Int) (key : RoomKey ν)
    (frame : Members ν) (names : List String) (s : BrokerState ν) :
    Beside g s (names.foldl (broadcastOne env now g' key frame) s) := by
  induction names generalizing s with
  | nil => exact .of_same rfl rfl rfl
  | cons name rest ih => exact (broadcastOne_beside hne env now key frame s name).trans (ih _)

end Broadcasts

/-! ### The frames that open a fan-out -/

/-- The other members of the frame's room. -/
def othersIn (st : BrokerState ν) (a : PeerRecord ν) (f : MeshFrame ν) : List String :=
  ((st.rooms.get? (.ofString f.roomId)).getD Js.Set.empty).elems.filter fun name => name ≠ a.name

section Granted

variable {env : Env} {now : Int} {st st' : BrokerState ν} {a : PeerRecord ν} {f : MeshFrame ν}
  {kind : GroupKind} {names : List String} {g : Nat}

/-- The gates of a broadcast. -/
def Broadcasts (env : Env) (now : Int) (st : BrokerState ν) (a : PeerRecord ν) (f : MeshFrame ν) :
    Prop :=
  a.rooms.get? (.ofString f.roomId) = some .member ∧
    1 < ((st.rooms.get? (.ofString f.roomId)).getD Js.Set.empty).size ∧
    (takeRate env now st a.name (rateKind f.prio)).1 = true ∧
    (decisionFor env a.name f "*").isDeny = false

instance (env : Env) (now : Int) (st : BrokerState ν) (a : PeerRecord ν) (f : MeshFrame ν) :
    Decidable (Broadcasts env now st a f) := inferInstanceAs (Decidable (_ ∧ _ ∧ _ ∧ _))

/-- A broadcast is the loop over the other members, or nothing happens to any fan-out. -/
theorem routeBroadcast_cases (env : Env) (now : Int) (st : BrokerState ν) (a : PeerRecord ν)
    (f : MeshFrame ν) :
    (Broadcasts env now st a f ∧ routeBroadcast env now st a f f.roomId = (othersIn st a f).foldl
      (broadcastOne env now st.groups.length (.ofString f.roomId) f.raw)
      ((takeRate env now st a.name (rateKind f.prio)).2.openGroup .broadcast a.toRef f.id)) ∨
    (¬ Broadcasts env now st a f ∧ ∀ g, Beside g st (routeBroadcast env now st a f f.roomId)) := by
  have hrefuse : ∀ {s : BrokerState ν} (code : MeshErrorCode) (g : Nat), Aside st s →
      Beside g st (refuse env now s a.socket code f.id) := by
    intro s code g hs
    exact (Beside.aside hs).trans (beside_of_chain ownOnly_plain (refuse_chain _ _ _))
  have hrate := aside_takeRate env now st a.name (rateKind f.prio)
  unfold routeBroadcast Broadcasts
  simp only
  split
  · next hrole => exact .inr ⟨by simp [hrole], fun g => hrefuse _ g (.refl _)⟩
  · next hrole => exact .inr ⟨by simp [hrole], fun g => hrefuse _ g (.refl _)⟩
  · next hrole =>
      split
      · next hsize => exact .inr ⟨fun hc => absurd hc.2.1 (by omega), fun g => hrefuse _ g (.refl _)⟩
      · next hsize =>
          split
          · next hr =>
              refine .inr ⟨fun hc => ?_, fun g => hrefuse _ g hrate⟩
              have hallowed : (takeRate env now st a.name (rateKind (f.priority.getD .normal))).1
                = true := hc.2.2.1
              simp [hallowed] at hr
          · next hr =>
              have hallowed : (takeRate env now st a.name (rateKind f.prio)).1 = true := by
                simpa [MeshFrame.prio] using hr
              split
              · next code hdec =>
                  refine .inr ⟨fun hc => ?_, fun g => hrefuse _ g hrate⟩
                  have hdeny := hc.2.2.2
                  unfold decisionFor MeshFrame.prio at hdeny
                  rw [hdec] at hdeny
                  cases hdeny
              · next hdec =>
                  exact .inl ⟨⟨hrole, by omega, hallowed, not_isDeny_of hdec⟩, rfl⟩

/-- Whether a reply goes to several, and to whom it is then written. -/
def replyList (env : Env) (now : Int) (st : BrokerState ν) (a : PeerRecord ν) (f : MeshFrame ν) :
    Option (List String) :=
  if (takeRate env now st a.name .msg).1 then
    if f.replyAll = some true then
      let members := (st.rooms.get? (.ofString f.roomId)).getD Js.Set.empty
      if 1 < members.size then some members.elems else none
    else f.replyTargets
  else none

/-- A reply to several is the loop over its recipients; otherwise nothing happens to any
fan-out. -/
theorem routeReply_cases (env : Env) (now : Int) (st : BrokerState ν) (a : PeerRecord ν)
    (f : MeshFrame ν) :
    (∃ names, replyList env now st a f = some names ∧ routeReply env now st a f
      = replyFan env now (takeRate env now st a.name .msg).2 a f names) ∨
    (replyList env now st a f = none ∧ ∀ g, Beside g st (routeReply env now st a f)) := by
  have hrate := aside_takeRate env now st a.name .msg
  unfold routeReply replyList
  cases hr : (takeRate env now st a.name .msg).1 with
  | false =>
      simp only [hr, Bool.not_false, if_true, Bool.false_eq_true, if_false]
      refine .inr ⟨trivial, fun g => ?_⟩
      exact (Beside.aside hrate).trans (beside_of_chain ownOnly_plain (sendError_chain _ _ _))
  | true =>
      simp only [hr, Bool.not_true, Bool.false_eq_true, if_false, if_true]
      by_cases hall : f.replyAll = some true
      · rw [if_pos hall, if_pos hall]
        unfold routeReplyAll
        simp only
        by_cases hsize : 1 < ((st.rooms.get? (.ofString f.roomId)).getD Js.Set.empty).size
        · rw [if_pos hsize, if_neg (by
            show ¬ ((st.rooms.get? (.ofString f.roomId)).getD Js.Set.empty).size ≤ 1
            omega)]
          exact .inl ⟨_, rfl, rfl⟩
        · rw [if_neg hsize, if_pos (by
            show ((st.rooms.get? (.ofString f.roomId)).getD Js.Set.empty).size ≤ 1
            omega)]
          refine .inr ⟨rfl, fun g => ?_⟩
          exact (Beside.aside hrate).trans (beside_of_chain ownOnly_plain
            (sendAck_chain _ _ _ _ _ _ (by simp)))
      · rw [if_neg hall, if_neg hall]
        cases htargets : f.replyTargets with
        | some targets => exact .inl ⟨targets, rfl, rfl⟩
        | none =>
            refine .inr ⟨rfl, fun g => (Beside.aside hrate).trans ?_⟩
            simp only
            unfold routeOnlineOnly
            split
            · exact relay_beside _ _ _ _ _ (by intro kind name hc; cases hc)
            · split
              · exact .of_same rfl rfl rfl
              · exact beside_of_chain ownOnly_plain (sendAck_chain _ _ _ _ _ _ (by simp))

/-- The fan-out a frame of `a` opens, with who it is for: a broadcast that passes the gates is
for the other members, a reply for those of its list that are online. -/
def fanGranted (env : Env) (now : Int) (st : BrokerState ν) (a : PeerRecord ν) (f : MeshFrame ν) :
    Option (GroupKind × List String) :=
  if f.type = .msg ∧ f.broadcast = some true then
    if Broadcasts env now st a f then some (.broadcast, othersIn st a f) else none
  else if f.type = .reply then
    (replyList env now st a f).map fun names => (.reply,
      (names.filter fun name => name ≠ a.name).filter fun n => (st.online n).isSome)
  else none

/-- The fan-out an event opens. -/
def opensFan (env : Env) (x : BrokerState ν × Int × Event) : Option (GroupKind × List String) :=
  (heard env x).bind fun h =>
    fanGranted env x.2.1 (x.1.updatePeer (h.1.seen x.2.1)) (h.1.seen x.2.1) h.2

/-- The fan-out an event opens can be as it should: the list of a reply names nobody twice who
is online, and nothing hinders a broadcast. -/
def Fair (env : Env) (st : BrokerState ν) (e : Int × Event) : Prop :=
  ∀ a f kind names, heard env (st, e) = some (a, f) →
    fanGranted env e.1 (st.updatePeer (a.seen e.1)) (a.seen e.1) f = some (kind, names) →
    (kind = .reply → names.Nodup) ∧
    (kind = .broadcast → Unhindered env e.1 (st.updatePeer (a.seen e.1)) f.raw names)

/-- What an event does to fan-out `g`. -/
inductive Fans (env : Env) (st : BrokerState ν) (e : Int × Event) (st' : BrokerState ν) (g : Nat) :
    Prop
  | beside (hnew : g = st.groups.length → opensFan env (st, e) = none) (h : Beside g st st')
  /-- It is opened and its copies are written. -/
  | opened (kind : GroupKind) (names : List String) (hg : g = st.groups.length)
      (ho : opensFan env (st, e) = some (kind, names))
      (h : Numbered st → Fair env st e → Counted st' g kind names)
  /-- A write of one of its copies settles. -/
  | settled (kind : GroupKind) (name : String) (ok : Bool) (hnone : opensFan env (st, e) = none)
      (hsome : st'.groups[g]?.isSome = st.groups[g]?.isSome)
      (hcopy : ⟨kind, name, .pending⟩ ∈ copiesOf g st.writes)
      (h : ∀ gr, Tally st g gr → Settled st st' g gr kind name ok)
  /-- Its sender is told. -/
  | answered (hnone : opensFan env (st, e) = none)
      (hgroup : st'.groups[g]? = st.groups[g]?.map Group.answer)
      (hcopies : copiesOf g st'.writes = copiesOf g st.writes)
      (hplaced : placedBy g st'.queued = placedBy g st.queued)

end Granted

section Steps

variable {env : Env} {now : Int} {st st' s : BrokerState ν} {sock : SocketId} {text : List Char}
  {f : MeshFrame ν} {a : PeerRecord ν} {kind : GroupKind} {names : List String} {g : Nat}

/-- A broadcast that is let through, for its own fan-out. -/
theorem routeBroadcast_counted (st : BrokerState ν) {key : RoomKey ν} (hkeyed : Keyed st)
    (hnum : Numbered st) (hfrom : (getOf f.raw "from").bind asStr = some a.name)
    (hkey : key = .ofString f.roomId) (hok : Unhindered env now st f.raw (othersIn st a f))
    (sender : PeerRef) (id : String) :
    Counted ((othersIn st a f).foldl (broadcastOne env now st.groups.length key f.raw)
      (st.openGroup .broadcast sender id)) st.groups.length .broadcast (othersIn st a f) := by
  have hnd : (othersIn st a f).Nodup := (Js.Set.nodup _).filter _
  have hself : a.name ∉ othersIn st a f := by
    intro h
    simpa using (List.mem_filter.mp h).2
  have hmembers : ∀ name ∈ othersIn st a f, stillMember st key name = true := by
    intro name hname
    have hin := (List.mem_filter.mp hname).1
    unfold stillMember
    rw [hkey]
    cases hroom : st.rooms.get? (.ofString f.roomId) with
    | none =>
        rw [hroom] at hin
        cases hin
    | some members =>
        rw [hroom] at hin
        exact (members.has_iff name).mpr hin
  have hspared : Spared st key (othersIn st a f) (st.openGroup .broadcast sender id) :=
    ⟨.of_same rfl rfl rfl, fun _ h _ => h, hmembers, fun _ _ => rfl, rfl⟩
  exact broadcastLoop_counted hkeyed hnd hfrom hself hok [] rfl hspared
    (counted_openGroup hnum sender id)

theorem routeBroadcast_beside (st : BrokerState ν) (hne : g ≠ st.groups.length) (env : Env)
    (now : Int) (key : RoomKey ν) (frame : Members ν) (names : List String) (sender : PeerRef)
    (id : String) :
    Beside g st (names.foldl (broadcastOne env now st.groups.length key frame)
      (st.openGroup .broadcast sender id)) :=
  (beside_openGroup hne sender id).trans (broadcastLoop_beside hne.symm env now key frame names _)

theorem fans_opened {e : Int × Event} (hkeyed : Keyed st)
    (ho : opensFan env (st, e) = some (kind, names)) (hstep : BrokerStep env st e st') (g : Nat) :
    Fans env st e st' g := by
  obtain ⟨⟨a, f⟩, hheard, hg⟩ := Option.bind_eq_some_iff.mp ho
  obtain ⟨sock, text, he, hconn, hacc, hauth⟩ := heard_eq_some hheard
  obtain ⟨now, e⟩ := e
  obtain rfl : e = .line sock text := he
  replace hg : fanGranted env now (st.updatePeer (a.seen now)) (a.seen now) f = some (kind, names) :=
    hg
  have hhello : f.type ≠ .hello := by
    intro hc
    unfold fanGranted at hg
    rw [hc] at hg
    simp at hg
  obtain ⟨hsender, -⟩ := authed_sender hkeyed hauth
  have hfrom : (getOf f.raw "from").bind asStr = some (a.seen now).name :=
    (accepted_carries hacc hsender).1
  have hkeyed₁ : Keyed (st.updatePeer (a.seen now)) := keyed_updatePeer hkeyed _
  rcases step_authed hacc hauth hhello hstep with ⟨-, hn⟩ | ⟨s, -, hs, haside⟩
  · rw [hn] at hconn
    cases hconn
  -- whatever the handler does to the fan-out, the deadline is aside
  have hfans : (g ≠ st.groups.length → Beside g (st.updatePeer (a.seen now)) s) →
      (g = st.groups.length → Numbered st → Fair env st (now, .line sock text) →
        Counted s g kind names) → Fans env st (now, .line sock text) st' g := by
    intro hb hc
    by_cases hgn : g = st.groups.length
    · refine .opened kind names hgn ho fun hnum hfair => ?_
      exact (hc hgn hnum hfair).beside (.aside haside)
    · refine .beside (fun h => absurd h hgn) (Beside.trans ?_ ((hb hgn).trans (.aside haside)))
      exact .of_same rfl rfl rfl
  have hfair : Fair env st (now, .line sock text) → kind = .broadcast →
      Unhindered env now (st.updatePeer (a.seen now)) f.raw names :=
    fun h => (h a f kind names hheard hg).2
  unfold fanGranted at hg
  split at hg
  · next hb =>
      split at hg
      · next hgates =>
          obtain ⟨rfl, rfl⟩ := Prod.mk.inj (Option.some.inj hg)
          simp only [dispatchPeer, hb.1] at hs
          obtain rfl := Except.ok.inj hs
          have heq : routeMsg env now (st.updatePeer (a.seen now)) (a.seen now) f
              = routeBroadcast env now (st.updatePeer (a.seen now)) (a.seen now) f f.roomId := by
            unfold routeMsg
            simp only [hb.2, if_true]
            rfl
          rw [heq] at hfans
          rcases routeBroadcast_cases env now (st.updatePeer (a.seen now)) (a.seen now) f with
            ⟨-, hloop⟩ | ⟨hno, -⟩
          · rw [hloop] at hfans
            refine hfans (fun hne => ?_) fun hgn hnum hf => ?_
            · have hrate := aside_takeRate env now (st.updatePeer (a.seen now)) (a.seen now).name
                (rateKind f.prio)
              exact (Beside.aside hrate).trans (routeBroadcast_beside (takeRate env now
                (st.updatePeer (a.seen now)) (a.seen now).name (rateKind f.prio)).2 hne env now _ _
                _ _ _)
            · rw [hgn]
              exact routeBroadcast_counted (takeRate env now (st.updatePeer (a.seen now))
                (a.seen now).name (rateKind f.prio)).2 hkeyed₁ hnum hfrom rfl (hfair hf rfl)
                (a.seen now).toRef f.id
          · exact absurd hgates hno
      · cases hg
  · split at hg
    · next hnb hreply =>
        obtain ⟨list, hlist, heq⟩ := Option.map_eq_some_iff.mp hg
        obtain ⟨rfl, rfl⟩ := Prod.mk.inj heq
        simp only [dispatchPeer, hreply] at hs
        obtain rfl := Except.ok.inj hs
        rcases routeReply_cases env now (st.updatePeer (a.seen now)) (a.seen now) f with
          ⟨list', hlist', hloop⟩ | ⟨hno, -⟩
        · obtain rfl : list = list' := Option.some.inj (hlist.symm.trans hlist')
          rw [hloop] at hfans
          refine hfans (fun hne => ?_) fun hgn hnum _ => ?_
          · have hrate := aside_takeRate env now (st.updatePeer (a.seen now)) (a.seen now).name .msg
            exact (Beside.aside hrate).trans (replyFan_beside env now (takeRate env now
              (st.updatePeer (a.seen now)) (a.seen now).name .msg).2 (a.seen now) f hne list)
          · rw [hgn]
            exact replyFan_counted env now (takeRate env now (st.updatePeer (a.seen now))
              (a.seen now).name .msg).2 (a.seen now) f hkeyed₁ hnum list
        · rw [hlist] at hno
          cases hno
    · cases hg

theorem plainly_permits (env : Env) (st : BrokerState ν) (a : PeerRecord ν) (hne : ¬ (f.type = .reply ∨ f.type = .msg ∧ f.broadcast = some true)) :
    RoutePermits plainly env st a f ∧
      (f.type = .reply ∨ f.type = .msg ∧ f.broadcast = some true →
        (plainly : Permits ν).groups) := by
  refine ⟨⟨fun t out cb _ _ hsuits _ => ?_, fun name out group _ _ hgroup _ => ?_, fun h => h,
    fun _ => trivial⟩, fun h => absurd h hne⟩
  · show cb.copy? = none
    cases hcopy : cb.copy? with
    | none => rfl
    | some x =>
        obtain ⟨g, kind, name⟩ := x
        obtain ⟨t, rfl, -⟩ := copyCallback_of_copy? hcopy
        have hiscopy : (copyCallback kind g t : WriteCallback ν).IsCopy := by cases kind <;> trivial
        exact (hsuits.copy hiscopy).elim
  · show group = none
    by_contra hc
    exact hgroup hc

/-- A frame that could have opened a fan-out and did not. -/
theorem beside_refused {e : Int × Event} (he : e = (now, .line sock text))
    (hacc : Accepted env text f) (hauth : authed st sock f = some a)
    (hfan : f.type = .reply ∨ f.type = .msg ∧ f.broadcast = some true)
    (hnone : opensFan env (st, e) = none) (hstep : BrokerStep env st e st') : Beside g st st' := by
  subst he
  have hhello : f.type ≠ .hello := by
    rcases hfan with h | ⟨h, -⟩ <;> (rw [h]; simp)
  rcases step_authed hacc hauth hhello hstep with ⟨rfl, -⟩ | ⟨s, hconn, hs, haside⟩
  · exact .of_same rfl rfl rfl
  have hgranted : fanGranted env now (st.updatePeer (a.seen now)) (a.seen now) f = none := by
    rw [← hnone]
    unfold opensFan
    rw [heard_line now hconn hacc hauth]
    rfl
  have hseen : Beside g st (st.updatePeer (a.seen now)) := .of_same rfl rfl rfl
  refine hseen.trans (Beside.trans ?_ (.aside haside))
  unfold fanGranted at hgranted
  rcases hfan with hreply | ⟨hmsg, hb⟩
  · simp only [dispatchPeer, hreply] at hs
    obtain rfl := Except.ok.inj hs
    rcases routeReply_cases env now (st.updatePeer (a.seen now)) (a.seen now) f with
      ⟨list, hlist, -⟩ | ⟨-, hb⟩
    · simp [hreply, hlist] at hgranted
    · exact hb g
  · simp only [dispatchPeer, hmsg] at hs
    obtain rfl := Except.ok.inj hs
    unfold routeMsg
    simp only [hb, if_true]
    rcases routeBroadcast_cases env now (st.updatePeer (a.seen now)) (a.seen now) f with
      ⟨hgates, -⟩ | ⟨-, hb'⟩
    · rw [if_pos ⟨hmsg, hb⟩, if_pos hgates] at hgranted
      cases hgranted
    · exact hb' g

/-- A write settles: a copy of `g`, or something else. -/
theorem fans_written {e : Event} {i : Nat} {ok : Bool} {w : Write ν} {st₁ : BrokerState ν}
    (hnone : opensFan env (st, now, e) = none) (hsame : Aside st st₁)
    (hw : st.writes[i]? = some w) (hpending : w.status = .pending) :
    Fans env st (now, e) (runCallback env now (st₁.settleWrite i (if ok then .ok else .failed))
      w.frame ok w.callback) g := by
  have hw₁ : st₁.writes[i]? = some w := by
    rw [hsame.writes]
    exact hw
  by_cases hcopy : ∃ kind name, w.callback.copy? = some (g, kind, name)
  · obtain ⟨kind, name, hcopy⟩ := hcopy
    obtain ⟨t, hcb, rfl⟩ := copyCallback_of_copy? hcopy
    have hsettled : ∀ gr, Tally st g gr → Settled st (runCallback env now
        (st₁.settleWrite i (if ok then .ok else .failed)) w.frame ok w.callback) g gr kind t.name
        ok := by
      intro gr htally
      have htally₁ : Tally st₁ g gr := htally.beside (.aside hsame)
      have hs := settleCopy_effect env now ok htally₁ hw₁ hpending hcb
      rw [← hcb] at hs
      refine ⟨hs.tally, ?_, ?_⟩
      · rw [← hsame.writes]
        exact hs.copies
      · rw [← hsame.queued]
        exact hs.placed
    refine .settled kind t.name ok hnone ?_ ?_ hsettled
    · rw [hcb]
      have hgroups : (st₁.settleWrite i (if ok then .ok else .failed)).groups[g]? = st.groups[g]? := by
        show st₁.groups[g]? = _
        rw [hsame.groups]
      cases ok with
      | false => rw [(failedCopy_effect env now _ w.frame kind g t).1, hgroups, Option.isSome_map]
      | true =>
          have harrive : ∀ s : BrokerState ν, s.groups[g]? = st.groups[g]? →
              ((s.modifyGroup g Group.arrive).groups[g]?).isSome = st.groups[g]?.isSome := by
            intro s hs
            simp [BrokerState.modifyGroup, hs]
          cases kind with
          | reply => exact harrive _ hgroups
          | broadcast => exact harrive _ hgroups
    · refine List.mem_filterMap.mpr ⟨w, List.mem_of_getElem? hw, ?_⟩
      simp [Write.copyOf, hcb, hpending]
  · have hother : ∀ kind name, w.callback.copy? ≠ some (g, kind, name) :=
      fun kind name hc => hcopy ⟨kind, name, hc⟩
    refine .beside (fun _ => hnone) ((Beside.aside hsame).trans
      ((beside_settleWrite hw₁ _ hother).trans (runCallback_beside _ _ _ _ _ hother)))

/-- The acknowledgement of a fan-out that reached `delivered` of `total` recipients. -/
def fanAck (env : Env) (now : Int) (st : BrokerState ν) (kind : GroupKind) (sender : PeerRef)
    (id : String) (delivered total : Nat) : BrokerState ν :=
  match kind with
  | .reply =>
      if delivered > 0 then
        sendAck env now st sender id .delivered none (some delivered) (some total)
      else sendAck env now st sender id .droppedOffline
  | .broadcast =>
      sendAck env now (st.addRelayed delivered) sender id
        (if delivered > 0 then .delivered else .queuedOffline) none (some delivered) (some total)

theorem handleSettled_eq {gr : Group} (env : Env) (now : Int) (h : st.groups[g]? = some gr) :
    handleSettled env now st g = if gr.waiting = 0 ∧ gr.acked = false then
      fanAck env now (st.modifyGroup g Group.answer) gr.kind gr.sender gr.id gr.delivered gr.total
    else st := by
  unfold handleSettled fanAck
  rw [h]
  try rfl

theorem beside_fanAck (env : Env) (now : Int) (st : BrokerState ν) (kind : GroupKind)
    (sender : PeerRef) (id : String) (delivered total : Nat) :
    Beside g st (fanAck env now st kind sender id delivered total) := by
  have hP : ({ ownOnly with ack := fun _ _ => True } : Permits ν).Plain :=
    ⟨fun _ _ _ h => h.elim, fun _ _ _ h => h.elim, fun h => h⟩
  have hack : ∀ (s : BrokerState ν) (status : AckStatus) (d t : Option Nat),
      Beside g s (sendAck env now s sender id status none d t) := by
    intro s status d t
    have hc : Chain env now { ownOnly with ack := fun _ _ => True } s
        (sendAck env now s sender id status none d t) := by
      by_cases hq : status = .queuedOffline
      · rw [hq]
        exact sendQueuedAck_chain _ _ _ _ _ _ (.inr trivial)
      · exact sendAck_chain _ _ _ _ _ _ hq
    exact beside_of_chain hP hc
  unfold fanAck
  cases kind with
  | reply =>
      simp only
      split
      · exact hack _ _ _ _
      · exact hack _ _ _ _
  | broadcast => exact (Beside.aside (aside_addRelayed _ _)).trans (hack _ _ _ _)

/-- The answer to a fan-out. -/
theorem fans_settled {e : Event} {g' : Nat} (hnone : opensFan env (st, now, e) = none) :
    Fans env st (now, e) (handleSettled env now st g') g := by
  cases hgr : st.groups[g']? with
  | none =>
      unfold handleSettled
      rw [hgr]
      exact .beside (fun _ => hnone) (.of_same rfl rfl rfl)
  | some gr =>
      rw [handleSettled_eq env now hgr]
      split
      · have hrest := beside_fanAck (g := g) env now (st.modifyGroup g' Group.answer) gr.kind
          gr.sender gr.id gr.delivered gr.total
        by_cases hg : g' = g
        · subst hg
          refine .answered hnone ?_ hrest.copies hrest.placed
          rw [hrest.group]
          simp [BrokerState.modifyGroup]
        · exact .beside (fun _ => hnone) ((Beside.modifyGroup hg _).trans hrest)
      · exact .beside (fun _ => hnone) (.of_same rfl rfl rfl)

theorem beside_welcome (env : Env) (now : Int) (st : BrokerState ν) (peer : PeerRecord ν)
    (id : String) : Beside g st (welcome env now st peer id) := by
  have hP : (flushOnly peer.toRef (flushMailbox st.mail env.cfg peer.name now).1 :
      Permits ν).Plain := ⟨fun _ _ _ h => h.elim, fun _ _ _ h => h.elim, fun h => h⟩
  have hmail : Beside g st (st.setMail (flushMailbox st.mail env.cfg peer.name now).2.2) :=
    .of_same rfl rfl rfl
  exact hmail.trans (beside_of_chain hP (welcome_chain peer id))

/-- **One step**, for any fan-out. -/
theorem step_fans {e : Int × Event} (hkeyed : Keyed st) (hstep : BrokerStep env st e st') (g : Nat) :
    Fans env st e st' g := by
  cases ho : opensFan env (st, e) with
  | some x => exact fans_opened hkeyed ho hstep g
  | none =>
      obtain ⟨now, e⟩ := e
      have hbeside : Beside g st st' → Fans env st (now, e) st' g := .beside fun _ => ho
      have hown : ∀ {s : BrokerState ν}, Beside g st s → Chain env now ownOnly s st' →
          Fans env st (now, e) st' g :=
        fun hs hch => hbeside (hs.trans (beside_of_chain ownOnly_plain hch))
      cases step_shape hkeyed hstep with
      | quiet hch => exact hown (.of_same rfl rfl rfl) hch
      | connected => exact hbeside (.of_same rfl rfl rfl)
      | @routed sock text _ f a hacc hauth hrouted hch =>
          by_cases hfan : f.type = .reply ∨ f.type = .msg ∧ f.broadcast = some true
          · exact hbeside (beside_refused rfl hacc hauth hfan ho hstep)
          · obtain ⟨hP, hgroups⟩ := plainly_permits env (st.updatePeer (a.seen now)) (a.seen now) hfan
            refine hbeside (Beside.trans ?_ (beside_of_chain plainly_plain (hch plainly hP hgroups)))
            exact .of_same rfl rfl rfl
      | joined f a _ _ room rooms peer _ hch | joinRefused f a _ _ room code rooms peer _ hch =>
          refine hown ?_ hch
          exact .of_same rfl rfl rfl
      | left f a _ _ room rooms peer _ hch =>
          refine hown ?_ hch
          exact .of_same rfl rfl rfl
      | @welcomed sock _ f name _ _ requested taken rooms peer =>
          refine hbeside (Beside.trans ?_ (.aside (aside_clearTimer _ _)))
          refine Beside.trans ?_ (beside_welcome env now _ peer f.id)
          exact .of_same rfl rfl rfl
      | @roomRefused sock _ f name _ _ requested taken code rooms peer =>
          obtain ⟨w, -, hcb, -, heq⟩ := refuseRooms_eq env now
            { helloState env now st sock name f taken with rooms } sock peer code f.id
          refine hbeside (Beside.trans ?_ (.aside (aside_clearTimer _ _)))
          rw [heq]
          refine Beside.trans ?_ (.aside (aside_destroy _ _))
          refine ⟨rfl, ?_, rfl⟩
          show copiesOf g (st.writes ++ [w]) = copiesOf g st.writes
          rw [copiesOf_append]
          simp [Write.copyOf, hcb, WriteCallback.copy?]
      | @written _ i ok w st₁ hevent hw hpending =>
          have hsame : Aside st st₁ := by
            rcases hevent with ⟨-, rfl⟩ | ⟨-, -, rfl⟩
            · exact .refl _
            · exact aside_destroy _ _
          exact fans_written ho hsame hw hpending
      | @settled g' => exact fans_settled ho
      | swept hch =>
          have hsilent : Beside g st (st.silence env now) := .aside (aside_silence env now st)
          refine hown (hsilent.trans ?_) hch
          exact .of_same rfl rfl rfl
      | purged =>
          have hmail : Beside g st (st.setMail (purgeAllExpired st.mail env.cfg now).2) :=
            .of_same rfl rfl rfl
          exact hbeside (hmail.trans (beside_notices handlePurge_chain))

end Steps

/-! ### Runs -/

/-- A fan-out as it should be: nobody has two copies and only recipients have one; a broadcast
has one copy that has not failed or one place in a mailbox for each recipient; and the answer
goes out once no write is pending, with the copies that were written and the recipients that
were attempted. -/
structure FannedOut (env : Env) (st : BrokerState ν) (g : Nat) (kind : GroupKind)
    (names : List String) : Prop where
  once : ∀ name, (copiesOf g st.writes).countP (fun c => decide (c.name = name)) ≤
    if name ∈ names then 1 else 0
  placed : kind = .broadcast → ∀ name ∈ names, reached st g name = 1
  ack : ∃ gr, st.groups[g]? = some gr ∧ ∀ now, handleSettled env now st g =
    if (copiesOf g st.writes).countP (fun c => decide (c.status = .pending)) = 0 ∧
        gr.acked = false then
      fanAck env now (st.modifyGroup g Group.answer) kind gr.sender gr.id
        ((copiesOf g st.writes).countP fun c => decide (c.status = .ok))
        (if kind = .broadcast then names.dedup.length
          else ((copiesOf g st.writes).map Copy.name).dedup.length)
    else st

section Runs

variable {env : Env} {epoch : Int} {tr : BrokerTrace ν} {st st' : BrokerState ν} {g : Nat}
  {kind : GroupKind} {names : List String}

theorem Counted.fannedOut (h : Counted st g kind names) (hnd : names.Nodup) :
    FannedOut env st g kind names := by
  have hcopies : ((copiesOf g st.writes).map Copy.name).Nodup := h.once.nodup hnd
  refine ⟨fun name => ?_, fun hk name hname => ?_, ?_⟩
  · have hcount : (copiesOf g st.writes).countP (fun c => decide (c.name = name))
        = ((copiesOf g st.writes).map Copy.name).count name := by
      rw [List.count, List.countP_map]
      exact List.countP_congr fun c _ => by simp
    rw [hcount]
    split
    · exact List.nodup_iff_count_le_one.mp hcopies name
    · next hout =>
        rw [List.count_eq_zero_of_not_mem fun hin => hout (h.once.subset hin)]
  · rw [h.placed hk name, if_pos hname]
  · obtain ⟨gr, htally, hkind, htotal⟩ := h.tally
    refine ⟨gr, htally.group, fun now => ?_⟩
    rw [handleSettled_eq env now htally.group, htally.waiting, htally.delivered, hkind, htotal,
      List.dedup_eq_self.mpr hnd, List.dedup_eq_self.mpr hcopies, List.length_map]

/-- Every fan-out a run has opened is counted, and the others have nothing. -/
structure AllCounted (env : Env) (tr : BrokerTrace ν) (st : BrokerState ν) : Prop where
  numbered : Numbered st
  counted : ∀ x ∈ tr, ∀ kind names, opensFan env x = some (kind, names) →
    Counted st x.1.groups.length kind names

theorem Counted.answered (h : Counted st g kind names)
    (hgroup : st'.groups[g]? = st.groups[g]?.map Group.answer)
    (hcopies : copiesOf g st'.writes = copiesOf g st.writes)
    (hplaced : placedBy g st'.queued = placedBy g st.queued) : Counted st' g kind names := by
  obtain ⟨gr, htally, hkind, htotal⟩ := h.tally
  refine ⟨⟨gr.answer, ⟨?_, ?_, ?_, ?_⟩, hkind, ?_⟩, ?_, fun hk name => ?_⟩
  · rw [hgroup, htally.group]
    rfl
  · rw [hcopies]
    exact htally.waiting
  · rw [hcopies]
    exact htally.delivered
  · rw [hcopies]
    exact htally.kinds
  · rw [hcopies]
    exact htotal
  · rw [hcopies]
    exact h.once
  · unfold reached
    rw [hcopies, hplaced]
    exact h.placed hk name

theorem numbered_step {e : Int × Event} (hkeyed : Keyed st) (h : Numbered st)
    (hfair : Fair env st e) (hstep : BrokerStep env st e st') : Numbered st' := by
  intro g hnone
  cases step_fans hkeyed hstep g with
  | beside _ hb =>
      rw [hb.copies, hb.placed]
      exact h g (hb.group.symm.trans hnone)
  | opened kind names _ _ hc =>
      obtain ⟨gr, htally, -⟩ := (hc h hfair).tally
      cases hnone.symm.trans htally.group
  | settled kind name ok _ hsome hcopy =>
      rw [hnone] at hsome
      have hwas : st.groups[g]? = none := by
        rw [← Option.isNone_iff_eq_none, ← Option.isSome_eq_false_iff]
        exact hsome.symm
      rw [(h g hwas).1] at hcopy
      cases hcopy
  | answered _ hgroup hcopies hplaced =>
      rw [hcopies, hplaced]
      exact h g (Option.map_eq_none_iff.mp (hgroup.symm.trans hnone))

/-- A fan-out that is counted stays so. -/
theorem Counted.step {e : Int × Event} (hkeyed : Keyed st) (h : Counted st g kind names)
    (hstep : BrokerStep env st e st') : Counted st' g kind names := by
  obtain ⟨gr, htally, hkind, -⟩ := h.tally
  cases step_fans hkeyed hstep g with
  | beside _ hb => exact h.beside hb
  | opened kind' names' hg =>
      have hlt := (List.getElem?_eq_some_iff.mp htally.group).1
      omega
  | settled kind' name ok _ _ hcopy hs =>
      obtain rfl : kind' = kind := (htally.kinds _ hcopy).trans hkind
      exact h.settled hs
  | answered _ hgroup hcopies hplaced => exact h.answered hgroup hcopies hplaced

theorem allCounted_run (hrun : Run (BrokerStep env) (BrokerState.init epoch) tr st)
    (hfair : Meets (Fair env) tr) : AllCounted env tr st := by
  refine hrun.along (P := fun tr st => AllCounted env tr st) hfair ⟨fun g _ => ⟨rfl, rfl⟩, ?_⟩ ?_
  · exact fun x hx => absurd hx List.not_mem_nil
  · intro tr s e s' hr _ h he hstep
    have hkeyed := (linked_run hr).keyed
    refine ⟨numbered_step hkeyed h.numbered he hstep, fun x hx kind names ho => ?_⟩
    rcases List.mem_append.mp hx with hx | hx
    · exact (h.counted x hx kind names ho).step hkeyed hstep
    · obtain rfl := List.mem_singleton.mp hx
      cases step_fans hkeyed hstep s.groups.length with
      | beside hnew => cases (hnew rfl).symm.trans ho
      | opened kind' names' _ ho' hc =>
          obtain ⟨rfl, rfl⟩ := Prod.mk.inj (Option.some.inj (ho'.symm.trans ho))
          exact hc h.numbered he
      | settled _ _ _ hnone => cases hnone.symm.trans ho
      | answered hnone => cases hnone.symm.trans ho

theorem opensFan_nodup {x : BrokerState ν × Int × Event}
    (ho : opensFan env x = some (kind, names)) (hfair : Fair env x.1 x.2) : names.Nodup := by
  obtain ⟨⟨a, f⟩, hheard, hg⟩ := Option.bind_eq_some_iff.mp ho
  have hf := hfair a f kind names hheard hg
  cases kind with
  | reply => exact hf.1 rfl
  | broadcast =>
      simp only [fanGranted] at hg
      split at hg
      · split at hg
        · obtain ⟨-, rfl⟩ := Prod.mk.inj (Option.some.inj hg)
          exact (Js.Set.nodup _).filter _
        · cases hg
      · split at hg
        · obtain ⟨list, -, heq⟩ := Option.map_eq_some_iff.mp hg
          cases (Prod.mk.inj heq).1
        · cases hg

/-- **Fan-out is exactly-once with honest counts**, in every run in which no reply names an
online alias twice and nothing hinders a broadcast: every fan-out opened so far is as it should
be, whatever its writes have come to. -/
theorem fanned_out_once (hrun : Run (BrokerStep env) (BrokerState.init epoch) tr st)
    (hfair : Meets (Fair env) tr) {x : BrokerState ν × Int × Event} (hx : x ∈ tr)
    (ho : opensFan env x = some (kind, names)) :
    FannedOut env st x.1.groups.length kind names :=
  ((allCounted_run hrun hfair).counted x hx kind names ho).fannedOut
    (opensFan_nodup ho (hfair x hx))

end Runs

/-! ### A broadcast, and a reply that names one alias twice -/

/-- A test for `Fair`; a broadcast passes it if it pushes nothing out of a mailbox. -/
def fair (env : Env) (x : BrokerState ν × Int × Event) : Bool :=
  (heard env x).all fun h =>
    let st := x.1.updatePeer (h.1.seen x.2.1)
    match fanGranted env x.2.1 st (h.1.seen x.2.1) h.2 with
    | none => true
    | some (.reply, names) => decide names.Nodup
    | some (.broadcast, names) => names.all fun name => st.knownAliases.has name &&
        (enqueueMailbox st.mail env.cfg name ⟨st.refs, h.2.raw, x.2.1⟩ x.2.1).1.isEmpty

theorem fair_of_test {env : Env} {st : BrokerState ν} {e : Int × Event}
    (h : fair env (st, e) = true) : Fair env st e := by
  intro a f kind names hheard hg
  unfold fair at h
  simp only [hheard, Option.all_some, hg] at h
  cases kind with
  | reply => exact ⟨fun _ => of_decide_eq_true h, fun hk => by cases hk⟩
  | broadcast =>
      simp only [List.all_eq_true, Bool.and_eq_true, List.isEmpty_iff] at h
      refine ⟨fun hk => (by cases hk), fun _ => ⟨fun name hname => (h name hname).1, ?_⟩⟩
      intro pre name post hsplit m hm
      have hname : name ∈ names := by
        rw [hsplit]
        simp
      rw [(h name hname).2] at hm
      cases hm

/-- Alice broadcasts, and the write to bob fails. -/
theorem fanned_out_once_stored : ∃ (tr : BrokerTrace Int) (st : BrokerState Int),
    tr.map Prod.snd = aliceWrites (aliceToAll []) ++ [(1005, .written 3 false)] ∧
    copiesOf 0 st.writes = [⟨.broadcast, "bob", .failed⟩] ∧
    reached st 0 "bob" = 1 := by
  have h : ((runBroker (referenceEnv {}) (aliceWrites (aliceToAll []) ++
      [(1005, .written 3 false)])).any fun r =>
      (r.1.all fun x => fair (referenceEnv {}) x) &&
      ((r.1.any fun x => decide (opensFan (referenceEnv {}) x = some (.broadcast, ["bob"])) &&
        x.1.groups.isEmpty) &&
      decide (copiesOf 0 r.2.writes = [⟨.broadcast, "bob", .failed⟩]))) = true := by decide +kernel
  obtain ⟨tr, st, hrun, htr, hcheck⟩ := exists_run h
  simp only [Bool.and_eq_true, List.all_eq_true, List.any_eq_true, decide_eq_true_eq,
    List.isEmpty_iff] at hcheck
  obtain ⟨hfair, ⟨x, hx, ho, hg⟩, hcopies⟩ := hcheck
  have hfan := fanned_out_once hrun (fun x hx => fair_of_test (hfair x hx)) hx ho
  rw [hg] at hfan
  exact ⟨tr, st, htr, hcopies, hfan.placed rfl "bob" (by simp)⟩

/-- Alice answers bob and bob: he gets the answer twice. -/
theorem reply_written_twice : ∃ (tr : BrokerTrace Int) (st : BrokerState Int)
    (x : BrokerState Int × Int × Event),
    Run (BrokerStep (referenceEnv {})) (BrokerState.init 1) tr st ∧ x ∈ tr ∧
    opensFan (referenceEnv {}) x = some (.reply, ["bob", "bob"]) ∧
    copiesOf x.1.groups.length st.writes = [⟨.reply, "bob", .ok⟩, ⟨.reply, "bob", .ok⟩] ∧
    ¬ FannedOut (referenceEnv {}) st x.1.groups.length .reply ["bob", "bob"] := by
  have h : ((runBroker (referenceEnv {}) (aliceWrites (frameLine .reply "m_3" "alice"
      [("replyTo", .str "m_0"), ("room", .str "default"),
        ("replyTargets", .arr [.str "bob", .str "bob"]), ("body", .str "hi")]) ++
      [(1005, .written 3 true), (1006, .written 4 true)])).any fun r =>
      r.1.any fun x =>
        decide (opensFan (referenceEnv {}) x = some (.reply, ["bob", "bob"])) &&
        decide (copiesOf x.1.groups.length r.2.writes
          = [⟨.reply, "bob", .ok⟩, ⟨.reply, "bob", .ok⟩])) = true := by decide +kernel
  obtain ⟨tr, st, hrun, -, hcheck⟩ := exists_run h
  simp only [List.any_eq_true, Bool.and_eq_true, decide_eq_true_eq] at hcheck
  obtain ⟨x, hx, ho, hcopies⟩ := hcheck
  refine ⟨tr, st, x, hrun, hx, ho, hcopies, fun hfan => ?_⟩
  have hone := hfan.once "bob"
  rw [hcopies] at hone
  exact absurd hone (by decide)

end PiMesh
