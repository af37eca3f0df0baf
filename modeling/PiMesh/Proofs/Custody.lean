/-
Where a stored message is.

A message that went into a mailbox is in one place from then on: it waits, it was handed to
`writeFrame` for its recipient once, or it was dropped with a notice.  A write that fails is not
taken back: the message is counted as delivered all the same.  `Custody` says so of a state, with
two lists of what is on its way between two places inside a handler: `due` has left its
queue and is not written yet, and `lost` has left it and is not dropped yet.  Each effect
of a handler moves messages from one place to the next, and at the end of a step both lists
are empty.
-/
import PiMesh.Proofs.Accounting
import PiMesh.Proofs.Provenance
import Mathlib.Algebra.Order.Group.Multiset
import Mathlib.Tactic.Abel

namespace PiMesh

open Js Transition Relation BrokerState

variable {ν : Type} [Number ν] [DecidableEq ν]

/-- The stored message a write carries, with the alias it is for. -/
def Write.flushes? (w : Write ν) : Option (String × StoredMsg ν) :=
  match w.callback with
  | .flushed peer m => some (peer.name, m)
  | _ => none

/-- The stored messages that were handed to `writeFrame`, in order, whether it failed or not. -/
def flushed (writes : List (Write ν)) : List (String × StoredMsg ν) :=
  writes.filterMap Write.flushes?

namespace BrokerState

/-- The messages that were put into mailboxes, in order. -/
def mailed (st : BrokerState ν) : List (String × StoredMsg ν) :=
  st.queued.map fun q => (q.recipient, q.msg)

/-- What waits for one alias. -/
def queueOf (st : BrokerState ν) (name : String) : List (StoredMsg ν) :=
  (st.mailbox.get? name).getD []

/-- Everything that waits. -/
def waiting (st : BrokerState ν) : List (StoredMsg ν) := (storedIn st.mailbox).map Prod.snd

end BrokerState

/-- Why a message was dropped: it was past its time at one of these readings of the clock, or as
many as a queue holds were mailed to the same alias after it. -/
def Excused (cfg : MeshConfig) (times : Int → Prop) (mailed : List (String × StoredMsg ν))
    (m : StoredMsg ν) : Prop :=
  (∃ now, times now ∧ isFresh cfg.mailboxTtlMs now m = false) ∨
    ∃ name, m ∈ entriesFor name mailed ∧
      cfg.mailboxCap ≤ (entriesFor name mailed).countP fun m' => decide (m.ref < m'.ref)

/-- Every message that was mailed is in one place. -/
structure Custody (env : Env) (times : Int → Prop) (due : List (String × StoredMsg ν))
    (lost : List (StoredMsg ν)) (st : BrokerState ν) : Prop where
  places : (st.mailed.map Prod.snd).Perm
    (st.waiting ++ ((flushed st.writes ++ due).map Prod.snd ++ (st.drops.map Drop.msg ++ lost)))
  inOrder : ∀ name, (entriesFor name (flushed st.writes ++ due) ++ st.queueOf name).Sublist
    (entriesFor name st.mailed)
  older : ∀ e ∈ st.mailed, e.2.ref < st.refs
  numbered : st.mailed.Pairwise fun e e' => e.2.ref < e'.2.ref
  reasons : ∀ m ∈ st.drops.map Drop.msg ++ lost, Excused env.cfg times st.mailed m
  delivered : st.stats.mailboxDelivered = (flushed st.writes ++ due).length
  dropped : st.stats.mailboxDropped = st.drops.length + lost.length

/-- What comes in and what a table hands out, counted together. -/
theorem perm_moved {α : Type} {all held held' done gone lost inward out toDone : List α}
    (h : all.Perm (held ++ (done ++ (gone ++ lost))))
    (hmoved : (held ++ inward).Perm (out ++ (toDone ++ held'))) :
    (all ++ inward).Perm (held' ++ ((done ++ toDone) ++ (gone ++ (out ++ lost)))) := by
  rw [← Multiset.coe_eq_coe] at h hmoved ⊢
  simp only [← Multiset.coe_add] at h hmoved ⊢
  calc (all + inward : Multiset α)
      = (held + inward) + (done + (gone + lost)) := by rw [h]; abel
    _ = held' + ((done + toDone) + (gone + (out + lost))) := by rw [hmoved]; abel

/-- What waits may grow by what comes in, and lose entries. -/
theorem sublist_moved {α : Type} {done queue queue' all inward : List α}
    (h : (done ++ queue).Sublist all) (hqueue : queue'.Sublist (queue ++ inward)) :
    (done ++ queue').Sublist (all ++ inward) := by
  refine (hqueue.append_left done).trans ?_
  rw [← List.append_assoc]
  exact h.append_right inward

/-! ### One queue -/

section Queue

variable {env : Env} {now : Int} {st : BrokerState ν}

theorem queue_enqueueMailbox (mail : Mail ν) (cfg : MeshConfig) (name other : String)
    (msg : StoredMsg ν) (now : Int) :
    ∃ n, ((enqueueMailbox mail cfg name msg now).2.mailbox.get? other).getD [] =
      if other = name then
        (((mail.mailbox.get? name).getD []).filter (isFresh cfg.mailboxTtlMs now) ++ [msg]).drop n
      else (mail.mailbox.get? other).getD [] := by
  refine ⟨((partitionExpired mail name cfg.mailboxTtlMs now).1 ++ [msg]).length - cfg.mailboxCap, ?_⟩
  show ((Map.set _ _ _).get? other).getD [] = _
  rw [Map.get?_set]
  by_cases hn : other = name
  · rw [if_pos hn, if_pos hn]
    rfl
  · have hother := queue_partitionExpired mail name other cfg.mailboxTtlMs now
    rw [if_neg hn] at hother
    rw [if_neg hn, if_neg hn]
    exact hother

theorem queue_flushMailbox (mail : Mail ν) (cfg : MeshConfig) (name other : String) (now : Int) :
    ((flushMailbox mail cfg name now).2.2.mailbox.get? other).getD [] =
      if other = name then [] else (mail.mailbox.get? other).getD [] := by
  show ((Map.delete _ _).get? other).getD [] = _
  rw [Map.get?_delete]
  by_cases hn : other = name
  · rw [if_pos hn, if_pos hn]
    rfl
  · have hother := queue_partitionExpired mail name other cfg.mailboxTtlMs now
    rw [if_neg hn] at hother
    rw [if_neg hn, if_neg hn]
    exact hother

theorem flushed_append (l l' : List (Write ν)) : flushed (l ++ l') = flushed l ++ flushed l' :=
  List.filterMap_append

theorem flushed_snoc {w : Write ν} (h : w.flushes? = none) (l : List (Write ν)) :
    flushed (l ++ [w]) = flushed l := by
  rw [flushed_append]
  simp [flushed, h]

/-- How a write ends does not change what it carries. -/
theorem flushed_settleWrite (st : BrokerState ν) (i : Nat) (status : WriteStatus) :
    flushed (st.settleWrite i status).writes = flushed st.writes := by
  unfold BrokerState.settleWrite flushed
  dsimp only
  generalize st.writes = l
  induction l generalizing i with
  | nil => cases i <;> rfl
  | cons w rest ih =>
      cases i with
      | zero => rfl
      | succ i =>
          rw [List.modify_succ_cons, List.filterMap_cons, List.filterMap_cons, ih]

end Queue

/-- More mail excuses no less. -/
theorem Excused.mono {cfg : MeshConfig} {times : Int → Prop} {mailed : List (String × StoredMsg ν)}
    {m : StoredMsg ν} (h : Excused cfg times mailed m) (more : List (String × StoredMsg ν)) :
    Excused cfg times (mailed ++ more) m := by
  refine h.imp id ?_
  rintro ⟨name, hmem, hfull⟩
  refine ⟨name, ?_, ?_⟩
  · rw [entriesFor_append]
    exact List.mem_append_left _ hmem
  · rw [entriesFor_append, List.countP_append]
    omega

/-- What is shifted out of a queue in order has the rest of the queue behind it. -/
theorem excused_of_shift {cfg : MeshConfig} {times : Int → Prop}
    {mailed : List (String × StoredMsg ν)} {name : String} {queue : List (StoredMsg ν)}
    {m : StoredMsg ν} (hnumbered : mailed.Pairwise fun e e' => e.2.ref < e'.2.ref)
    (hqueue : queue.Sublist (entriesFor name mailed))
    (hm : m ∈ queue.take (queue.length - cfg.mailboxCap)) : Excused cfg times mailed m := by
  refine .inr ⟨name, hqueue.subset (List.mem_of_mem_take hm), ?_⟩
  have hsorted : (entriesFor name mailed).Pairwise fun a b => a.ref < b.ref := by
    unfold entriesFor
    rw [List.pairwise_map]
    exact hnumbered.sublist List.filter_sublist
  have hshift := hsorted.sublist hqueue
  rw [← List.take_append_drop (queue.length - cfg.mailboxCap) queue] at hshift
  have hlater : ∀ m' ∈ queue.drop (queue.length - cfg.mailboxCap), m.ref < m'.ref :=
    fun m' hm' => (List.pairwise_append.mp hshift).2.2 m hm m' hm'
  have hlength : (queue.take (queue.length - cfg.mailboxCap)).length ≠ 0 :=
    fun hnil => List.ne_nil_of_mem hm (List.length_eq_zero_iff.mp hnil)
  rw [List.length_take] at hlength
  calc cfg.mailboxCap
      ≤ (queue.drop (queue.length - cfg.mailboxCap)).length := by
        rw [List.length_drop]
        omega
    _ = (queue.drop (queue.length - cfg.mailboxCap)).countP fun m' => decide (m.ref < m'.ref) :=
        (List.countP_eq_length.mpr fun m' hm' => decide_eq_true (hlater m' hm')).symm
    _ ≤ (entriesFor name mailed).countP fun m' => decide (m.ref < m'.ref) :=
        ((List.drop_sublist _ _).trans hqueue).countP_le

/-- The purge returns only what is past its time. -/
theorem expired_of_purge {mail : Mail ν} {cfg : MeshConfig} {now : Int} {m : StoredMsg ν}
    (h : m ∈ (purgeAllExpired mail cfg now).1) : isFresh cfg.mailboxTtlMs now m = false := by
  have hloop : ∀ m ∈ (purgeAllExpired mail cfg now).1, isFresh cfg.mailboxTtlMs now m = false := by
    unfold purgeAllExpired
    refine List.foldlRecOn mail.mailbox.keys _ (motive := fun acc : List (StoredMsg ν) × Mail ν =>
      ∀ m ∈ acc.1, isFresh cfg.mailboxTtlMs now m = false) (by simp) ?_
    intro acc ih name _ m hm
    rcases List.mem_append.mp hm with hm | hm
    · exact ih m hm
    · simpa using (List.mem_filter.mp hm).2
  exact hloop m h

/-! ### Effects -/

namespace Custody

variable {env : Env} {now : Int} {P : Permits ν} {st st' : BrokerState ν}
  {times : Int → Prop} {due : List (String × StoredMsg ν)} {lost : List (StoredMsg ν)}

/-- Custody is a matter of the mail alone. -/
theorem of_same (h : Custody env times due lost st) (hmailbox : st'.mailbox = st.mailbox)
    (hwrites : flushed st'.writes = flushed st.writes) (hqueued : st'.queued = st.queued)
    (hdrops : st'.drops = st.drops) (hrefs : st.refs ≤ st'.refs)
    (hdelivered : st'.stats.mailboxDelivered = st.stats.mailboxDelivered)
    (hdropped : st'.stats.mailboxDropped = st.stats.mailboxDropped) : Custody env times due lost st' := by
  have hmailed : st'.mailed = st.mailed := by
    unfold mailed
    rw [hqueued]
  have hwaiting : st'.waiting = st.waiting := by
    unfold waiting
    rw [hmailbox]
  have hqueue : ∀ name, st'.queueOf name = st.queueOf name := by
    intro name
    unfold queueOf
    rw [hmailbox]
  refine ⟨?_, ?_, ?_, ?_, ?_, ?_, ?_⟩
  · rw [hmailed, hwaiting, hwrites, hdrops]
    exact h.places
  · intro name
    rw [hmailed, hwrites, hqueue]
    exact h.inOrder name
  · intro e he
    rw [hmailed] at he
    exact Nat.lt_of_lt_of_le (h.older e he) hrefs
  · rw [hmailed]
    exact h.numbered
  · rw [hmailed, hdrops]
    exact h.reasons
  · rw [hdelivered, hwrites]
    exact h.delivered
  · rw [hdropped, hdrops]
    exact h.dropped

theorem aside (h : Custody env times due lost st) (ha : Aside st st') : Custody env times due lost st' :=
  h.of_same ha.mailbox (by rw [ha.writes]) ha.queued ha.drops ha.refs.ge ha.delivered ha.dropped

/-- A write that carries no stored message. -/
theorem attempt (h : Custody env times due lost st) (sock : SocketId) (frame : Members ν)
    (maxBytes : Nat) {cb : WriteCallback ν} (hcb : ∀ status, (⟨sock, frame, cb, status⟩ : Write ν).flushes? = none) :
    Custody env times due lost (attempt st sock frame maxBytes cb).1 := by
  obtain ⟨status, -, heq⟩ := attempt_eq st sock frame maxBytes cb
  rw [heq]
  exact h.of_same rfl (flushed_snoc (hcb status) st.writes) rfl rfl (Nat.le_refl _) rfl rfl

theorem dropPeer (h : Custody env times due lost st) (name : String) (peer : PeerRecord ν) :
    Custody env times due lost (st.dropPeer name peer) := by
  have htables : Custody env times due lost
      { st with rooms := detachFromRooms st.rooms peer, peers := st.peers.delete name } :=
    h.of_same rfl rfl rfl rfl (Nat.le_refl _) rfl rfl
  exact htables.aside (aside_destroy _ _)

omit [Number ν] [DecidableEq ν] in
theorem flushes?_of_isOwn {cb : WriteCallback ν} (hcb : cb.IsOwn) (sock : SocketId)
    (frame : Members ν) (status : WriteStatus) :
    (⟨sock, frame, cb, status⟩ : Write ν).flushes? = none := by
  cases cb with
  | ignore => rfl
  | sendTo peer => rfl
  | flushed | replyCopy | broadcastCopy | direct | onlineOnly | ctl | ctlAck => exact hcb.elim

omit [Number ν] [DecidableEq ν] in
theorem flushes?_of_target {cb : WriteCallback ν} (hcb : cb.target?.isSome = true) (sock : SocketId)
    (frame : Members ν) (status : WriteStatus) :
    (⟨sock, frame, cb, status⟩ : Write ν).flushes? = none := by
  cases cb with
  | flushed peer m => cases hcb
  | ignore | sendTo | replyCopy | broadcastCopy | direct | onlineOnly | ctl | ctlAck => rfl

/-- Frames of the broker's own, and records closed. -/
theorem silent (hc : Chain env now {} st st') (h : Custody env times due lost st) :
    Custody env times due lost st' := by
  refine chain_keeps (fun {a b} hact ha => ?_) hc h
  cases hact with
  | own sock stamp opts maxBytes cb hcb =>
      exact ha.attempt sock _ maxBytes (flushes?_of_isOwn hcb sock _)
  | close name peer => exact ha.dropPeer name peer
  | aside hx => exact ha.aside hx
  | touch p p' hP => exact hP.elim
  | groups hP => exact hP.elim
  | drop hP => exact hP.elim
  | control hP => exact hP.elim
  | relay target frame cb hP => exact hP.elim
  | flush peer m hP => exact hP.elim
  | enqueue name frame group hP => exact hP.elim

/-- The notices drop what is lost, one message after the other. -/
theorem notify {dropped : List (StoredMsg ν)} (h : Custody env times due (dropped ++ lost) st) :
    Custody env times due lost (notifyDropped env now st dropped) := by
  unfold notifyDropped
  induction dropped generalizing st with
  | nil => exact h
  | cons m rest ih =>
      rw [List.foldl_cons]
      apply ih
      have hdrops : ∀ told, (st.drops ++ [(⟨m, told⟩ : Drop ν)]).map Drop.msg ++ (rest ++ lost) =
          st.drops.map Drop.msg ++ (m :: rest ++ lost) := by simp
      -- the message is dropped first, and then its sender is told
      have hdrop : ∀ told, Custody env times due (rest ++ lost) { st with drops := st.drops ++ [⟨m, told⟩] } := by
        intro told
        refine ⟨?_, h.inOrder, h.older, h.numbered, ?_, h.delivered, ?_⟩
        · show (st.mailed.map Prod.snd).Perm (st.waiting ++ ((flushed st.writes ++ due).map Prod.snd ++
            ((st.drops ++ [(⟨m, told⟩ : Drop ν)]).map Drop.msg ++ (rest ++ lost))))
          rw [hdrops told]
          exact h.places
        · show ∀ m' ∈ (st.drops ++ [(⟨m, told⟩ : Drop ν)]).map Drop.msg ++ (rest ++ lost), _
          rw [hdrops told]
          exact h.reasons
        · show st.stats.mailboxDropped = (st.drops ++ [(⟨m, told⟩ : Drop ν)]).length + (rest ++ lost).length
          have hcount := h.dropped
          simp only [List.length_append, List.length_cons, List.length_nil] at hcount ⊢
          omega
      split
      · exact hdrop false
      · exact (hdrop true).silent (sendTo_chain _ _ (by simp [NotQueued, AckStatus.text]))

/-- A message is stored, and what went to make room for it is lost. -/
theorem store (h : Custody env times due lost st) (hnow : times now) (name : String)
    (frame : Members ν) (group : Option Nat) :
    Custody env times due ((enqueueMailbox st.mail env.cfg name ⟨st.refs, frame, now⟩ now).1 ++ lost)
      (st.storeMsg env now name frame group) := by
  have hperm := enqueueMailbox_perm st.mail env.cfg name ⟨st.refs, frame, now⟩ now
  obtain ⟨hdropped, hdelivered⟩ := enqueueMailbox_dropped st.mail env.cfg name ⟨st.refs, frame, now⟩ now
  have hmailed : (st.storeMsg env now name frame group).mailed =
      st.mailed ++ [(name, ⟨st.refs, frame, now⟩)] := by
    unfold mailed BrokerState.storeMsg
    rw [List.map_append]
    rfl
  have hone : ∀ other, entriesFor other [(name, (⟨st.refs, frame, now⟩ : StoredMsg ν))] =
      if name = other then [⟨st.refs, frame, now⟩] else [] :=
    fun other => entriesFor_map other name [⟨st.refs, frame, now⟩]
  have hnumbered : (st.storeMsg env now name frame group).mailed.Pairwise
      fun e e' => e.2.ref < e'.2.ref := by
    rw [hmailed]
    refine List.pairwise_append.mpr ⟨h.numbered, List.pairwise_singleton _ _, ?_⟩
    intro e he e' he'
    rw [List.mem_singleton.mp he']
    exact h.older e he
  have hwaits : (st.waiting ++ [(⟨st.refs, frame, now⟩ : StoredMsg ν)]).Perm
      ((enqueueMailbox st.mail env.cfg name ⟨st.refs, frame, now⟩ now).1 ++
        ([] ++ (st.storeMsg env now name frame group).waiting)) := by
    have hsnd := hperm.map Prod.snd
    rw [List.map_append, List.map_append, List.map_map] at hsnd
    rw [List.nil_append]
    have hnames : ∀ l : List (StoredMsg ν), l.map (Prod.snd ∘ fun m => (name, m)) = l := by
      intro l
      simp [Function.comp_def]
    rw [hnames] at hsnd
    exact hsnd
  refine ⟨?_, ?_, ?_, hnumbered, ?_, hdelivered.trans h.delivered, ?_⟩
  · rw [hmailed, List.map_append]
    have hmoved := perm_moved h.places hwaits
    rw [List.append_nil] at hmoved
    exact hmoved
  · intro other
    rw [hmailed, entriesFor_append other st.mailed]
    refine sublist_moved (h.inOrder other) ?_
    obtain ⟨n, hqueue⟩ := queue_enqueueMailbox st.mail env.cfg name other ⟨st.refs, frame, now⟩ now
    show List.Sublist (((enqueueMailbox st.mail env.cfg name ⟨st.refs, frame, now⟩ now).2.mailbox.get?
      other).getD []) _
    rw [hqueue]
    split
    · next hother =>
        rw [hone, if_pos hother.symm, hother]
        exact (List.drop_sublist _ _).trans (List.filter_sublist.append_right _)
    · exact List.sublist_append_left _ _
  · intro e he
    rw [hmailed] at he
    show e.2.ref < st.refs + 1
    rcases List.mem_append.mp he with he | he
    · have hold := h.older e he
      omega
    · rw [List.mem_singleton.mp he]
      exact Nat.lt_succ_self _
  · intro m hm
    have hsplit : m ∈ st.drops.map Drop.msg ++ lost ∨
        m ∈ (enqueueMailbox st.mail env.cfg name ⟨st.refs, frame, now⟩ now).1 := by
      rcases List.mem_append.mp hm with hm | hm
      · exact .inl (List.mem_append_left _ hm)
      · exact (List.mem_append.mp hm).symm.imp_left (List.mem_append_right _)
    rcases hsplit with hm | hm
    · rw [hmailed]
      exact (h.reasons m hm).mono _
    · rcases List.mem_append.mp hm with hm | hm
      · exact .inl ⟨now, hnow, by simpa using (List.mem_filter.mp hm).2⟩
      · have hqueue : (((st.mail.mailbox.get? name).getD []).filter
            (isFresh env.cfg.mailboxTtlMs now) ++ [(⟨st.refs, frame, now⟩ : StoredMsg ν)]).Sublist
            (entriesFor name (st.storeMsg env now name frame group).mailed) := by
          rw [hmailed, entriesFor_append, hone name, if_pos rfl]
          refine List.Sublist.append_right ?_ _
          exact List.filter_sublist.trans ((List.sublist_append_right _ _).trans (h.inOrder name))
        exact excused_of_shift hnumbered hqueue hm
  · show (enqueueMailbox st.mail env.cfg name ⟨st.refs, frame, now⟩ now).2.stats.mailboxDropped = _
    rw [hdropped, List.length_append]
    have hcount : st.mail.stats.mailboxDropped = st.drops.length + lost.length := h.dropped
    show _ = st.drops.length + _
    omega

theorem enqueue (h : Custody env times due lost st) (hnow : times now) (name : String)
    (frame : Members ν) (group : Option Nat) :
    Custody env times due lost (enqueue env now st name frame group) := by
  rw [enqueue_eq]
  exact (h.store hnow name frame group).notify

/-- Whatever does not flush and does not drop by itself keeps custody. -/
theorem chain (hrelay : ∀ t out cb, P.relay t out cb → cb.target?.isSome = true)
    (hflush : ∀ p m, ¬ P.flush p m) (hdrop : ¬ P.drop) (hnow : times now) (hc : Chain env now P st st')
    (h : Custody env times due lost st) : Custody env times due lost st' := by
  refine chain_keeps (fun {a b} hact ha => ?_) hc h
  cases hact with
  | own sock stamp opts maxBytes cb hcb =>
      exact ha.attempt sock _ maxBytes (flushes?_of_isOwn hcb sock _)
  | close name peer => exact ha.dropPeer name peer
  | aside hx => exact ha.aside hx
  | touch => exact ha.of_same rfl rfl rfl rfl (Nat.le_refl _) rfl rfl
  | groups => exact ha.of_same rfl rfl rfl rfl (Nat.le_refl _) rfl rfl
  | drop hP => exact absurd hP hdrop
  | control => exact ha.of_same rfl rfl rfl rfl (Nat.le_refl _) rfl rfl
  | relay target frame cb hP =>
      exact ha.attempt target.socket frame _ (flushes?_of_target (hrelay _ _ _ hP) _ _)
  | flush peer m hP => exact absurd hP (hflush peer m)
  | enqueue name frame group => exact ha.enqueue hnow name frame group

theorem ownChain (hnow : times now) (hc : Chain env now ownOnly st st') (h : Custody env times due lost st) :
    Custody env times due lost st' :=
  h.chain (P := ownOnly) (fun _ _ _ hP => hP.elim) (fun _ _ hP => hP) id hnow hc

/-- A queue is taken out: the fresh messages are due, and the expired ones are lost. -/
theorem takeOut (h : Custody env times [] [] st) (hnow : times now) (name : String) :
    Custody env times ((flushMailbox st.mail env.cfg name now).1.map (name, ·))
      (flushMailbox st.mail env.cfg name now).2.1
      (st.setMail (flushMailbox st.mail env.cfg name now).2.2) := by
  have hperm := flushMailbox_perm st.mail env.cfg name now
  have hnames : ∀ l : List (StoredMsg ν), l.map (Prod.snd ∘ fun m => (name, m)) = l := by
    intro l
    simp [Function.comp_def]
  have hwaits : (st.waiting ++ []).Perm ((flushMailbox st.mail env.cfg name now).2.1 ++
      ((flushMailbox st.mail env.cfg name now).1 ++
        (st.setMail (flushMailbox st.mail env.cfg name now).2.2).waiting)) := by
    have hsnd := hperm.map Prod.snd
    rw [List.map_append, List.map_append, List.map_map, List.map_map, hnames, hnames] at hsnd
    rw [List.append_nil]
    exact hsnd
  refine ⟨?_, ?_, h.older, h.numbered, ?_, ?_, ?_⟩
  · have hmoved := perm_moved h.places hwaits
    rw [List.append_nil, List.append_nil, List.append_nil] at hmoved
    rw [List.map_append, List.map_map, hnames]
    exact hmoved
  · intro other
    have hqueue : (st.setMail (flushMailbox st.mail env.cfg name now).2.2).queueOf other = _ :=
      queue_flushMailbox st.mail env.cfg name other now
    have hold := h.inOrder other
    rw [List.append_nil] at hold
    rw [hqueue, entriesFor_append, entriesFor_map]
    by_cases ho : other = name
    · rw [if_pos ho.symm, if_pos ho, List.append_nil]
      refine List.Sublist.trans (List.Sublist.append_left ?_ _) hold
      rw [ho]
      exact List.filter_sublist
    · rw [if_neg (Ne.symm ho), if_neg ho, List.append_nil]
      exact hold
  · intro m hm
    rcases List.mem_append.mp hm with hm | hm
    · exact h.reasons m (List.mem_append_left _ hm)
    · exact .inl ⟨now, hnow, by simpa using (List.mem_filter.mp hm).2⟩
  · show st.stats.mailboxDelivered + _ = _
    rw [h.delivered, List.length_append, List.length_append, List.length_map]
    rfl
  · show st.stats.mailboxDropped + _ = _
    rw [h.dropped]
    rfl

/-- The fresh messages are written, one after the other. -/
theorem sendMailbox {peer : PeerRef} {fresh : List (StoredMsg ν)}
    (h : Custody env times (fresh.map (peer.name, ·) ++ due) lost st) :
    Custody env times due lost (sendMailbox env now st peer fresh) := by
  unfold PiMesh.sendMailbox
  induction fresh generalizing st with
  | nil => exact h
  | cons m rest ih =>
      rw [List.foldl_cons]
      apply ih
      have hwrite : ∀ s, (∃ status, s = { st with writes := st.writes ++
          [⟨peer.socket, mailboxFrame env.rt m, .flushed peer m, status⟩] }) →
          Custody env times (rest.map (peer.name, ·) ++ due) lost s := by
        intro s hs
        obtain ⟨status, rfl⟩ := hs
        have hflushed : flushed (st.writes ++
              [⟨peer.socket, mailboxFrame env.rt m, .flushed peer m, status⟩]) ++
            (rest.map (peer.name, ·) ++ due) =
            flushed st.writes ++ ((m :: rest).map (peer.name, ·) ++ due) := by
          rw [flushed_append, List.append_assoc]
          rfl
        refine ⟨?_, ?_, h.older, h.numbered, h.reasons, ?_, h.dropped⟩
        · rw [hflushed]
          exact h.places
        · intro name
          rw [hflushed]
          exact h.inOrder name
        · rw [hflushed]
          exact h.delivered
      unfold sendWith
      obtain ⟨status, -, heq⟩ := attempt_eq st peer.socket (mailboxFrame env.rt m)
        env.cfg.maxFrameBytes (.flushed peer m)
      cases ha : PiMesh.attempt st peer.socket (mailboxFrame env.rt m) env.cfg.maxFrameBytes
          (.flushed peer m) with
      | mk s ok =>
          rw [ha] at heq
          cases ok with
          | true => exact hwrite s ⟨status, heq⟩
          | false => exact (hwrite s ⟨status, heq⟩).silent (closeIfCurrent_chain peer)

theorem welcome (h : Custody env times [] [] st) (hnow : times now) (peer : PeerRecord ν) (id : String) :
    Custody env times [] [] (welcome env now st peer id) := by
  have hout := h.takeOut hnow peer.name
  unfold PiMesh.welcome
  generalize flushMailbox st.mail env.cfg peer.name now = flush at hout ⊢
  obtain ⟨fresh, dropped, mail⟩ := flush
  dsimp only at hout ⊢
  rw [← List.append_nil dropped, ← List.append_nil (fresh.map _)] at hout
  have hnotified : Custody env times (fresh.map (peer.name, ·) ++ []) []
      (notifyDropped env now (st.setMail mail) dropped) := hout.notify
  generalize notifyDropped env now (st.setMail mail) dropped = s at hnotified ⊢
  have hwelcomed : Custody env times (fresh.map (peer.name, ·) ++ []) []
      (sendTo env now s peer.toRef (welcomeFrame env now s peer id fresh.length)) :=
    hnotified.silent (sendTo_chain _ _ (by simp [NotQueued]))
  generalize sendTo env now s peer.toRef (welcomeFrame env now s peer id fresh.length) = s at hwelcomed ⊢
  have hsent : Custody env times [] [] (PiMesh.sendMailbox env now s peer.toRef fresh) :=
    hwelcomed.sendMailbox
  have hannounced : Custody env times [] [] (announceOnline env now
      (PiMesh.sendMailbox env now s peer.toRef fresh) peer) := hsent.silent (announceOnline_chain peer)
  split
  · exact hannounced
  · exact hannounced.silent (broadcastReservations_chain _ _)

/-- The purge: what it takes out of the queues is lost. -/
theorem purge (h : Custody env times [] [] st) (hnow : times now) :
    Custody env times [] [] (handlePurge env now st) := by
  obtain ⟨gone, hgone, hperm⟩ := purgeAllExpired_perm st.mail env.cfg now
  obtain ⟨hdropped, hdelivered⟩ := purgeAllExpired_dropped st.mail env.cfg now
  have hwaits : (st.waiting ++ []).Perm ((purgeAllExpired st.mail env.cfg now).1 ++
      ([] ++ (st.setMail (purgeAllExpired st.mail env.cfg now).2).waiting)) := by
    have hsnd := hperm.map Prod.snd
    rw [List.map_append, hgone] at hsnd
    rw [List.append_nil]
    exact hsnd
  have hout : Custody env times [] ((purgeAllExpired st.mail env.cfg now).1 ++ [])
      (st.setMail (purgeAllExpired st.mail env.cfg now).2) := by
    refine ⟨?_, ?_, h.older, h.numbered, ?_, hdelivered.trans h.delivered, ?_⟩
    · have hmoved := perm_moved h.places hwaits
      rw [List.append_nil, List.append_nil] at hmoved
      exact hmoved
    · intro name
      refine List.Sublist.trans (List.Sublist.append_left ?_ _) (h.inOrder name)
      show (((purgeAllExpired st.mail env.cfg now).2.mailbox.get? name).getD []).Sublist _
      rw [queue_purgeAllExpired]
      exact List.filter_sublist
    · intro m hm
      rw [List.append_nil] at hm
      rcases List.mem_append.mp hm with hm | hm
      · exact h.reasons m (List.mem_append_left _ hm)
      · exact .inl ⟨now, hnow, expired_of_purge hm⟩
    · show (purgeAllExpired st.mail env.cfg now).2.stats.mailboxDropped = _
      have hcount : st.mail.stats.mailboxDropped = st.drops.length + 0 := h.dropped
      rw [hdropped, hcount, List.append_nil]
      rfl
  exact hout.notify

theorem mono {times' : Int → Prop} (h : Custody env times due lost st)
    (htimes : ∀ t, times t → times' t) : Custody env times' due lost st := by
  refine { h with reasons := fun m hm => ?_ }
  exact (h.reasons m hm).imp_left fun ⟨t, ht, hold⟩ => ⟨t, htimes t ht, hold⟩

end Custody

/-! ### Steps and runs -/

section Runs

variable {env : Env} {epoch : Int} {tr : BrokerTrace ν} {st st' : BrokerState ν}

/-- Everything but a flush and a drop. -/
def passing : Permits ν where
  relay _ _ cb := cb.target?.isSome = true
  store _ _ _ := True
  ack _ _ := True
  groups := True
  control := True
  behind _ := True

theorem passing_permits (a : PeerRecord ν) (f : MeshFrame ν) : RoutePermits passing env st a f := by
  refine ⟨?_, fun _ _ _ _ _ _ _ => trivial, fun hP => hP, fun _ => trivial⟩
  intro t out cb _ ht _ _
  show cb.target?.isSome = true
  rw [ht]
  rfl

theorem passing_callback (frame : Members ν) (cb : WriteCallback ν) :
    CallbackPermitted passing frame cb :=
  ⟨fun _ _ _ => trivial, fun _ _ _ _ _ _ => ⟨trivial, .inr trivial⟩, fun _ => trivial,
    fun _ => trivial⟩

theorem Custody.pass {times : Int → Prop} {now : Int} (h : Custody env times [] [] st)
    (hnow : times now) (hc : Chain env now passing st st') : Custody env times [] [] st' :=
  h.chain (P := passing) (fun _ _ _ hP => hP) (fun _ _ hP => hP) id hnow hc

/-- **One step.** -/
theorem custody_step {times : Int → Prop} {e : Int × Event} (hkeyed : Keyed st)
    (h : Custody env times [] [] st) (hnow : times e.1) (hstep : BrokerStep env st e st') :
    Custody env times [] [] st' := by
  obtain ⟨now, e⟩ := e
  have htables : ∀ {s : BrokerState ν}, s.mailbox = st.mailbox → s.writes = st.writes →
      s.queued = st.queued → s.drops = st.drops → st.refs ≤ s.refs → s.stats = st.stats →
      Custody env times [] [] s := by
    intro s hmailbox hwrites hqueued hdrops hrefs hstats
    exact h.of_same hmailbox (by rw [hwrites]) hqueued hdrops hrefs (by rw [hstats]) (by rw [hstats])
  have hrefs : ∀ sock name (f : MeshFrame ν) taken,
      st.refs ≤ (helloState env now st sock name f taken).refs := by
    intro sock name f taken
    show st.refs ≤ st.refs + 1 + taken + 1
    omega
  cases step_shape hkeyed hstep with
  | quiet hc => exact h.ownChain hnow hc
  | connected => exact htables rfl rfl rfl rfl (Nat.le_refl _) rfl
  | routed f a _ _ _ hc =>
      refine Custody.pass ?_ hnow (hc passing (passing_permits _ f) fun _ => trivial)
      exact htables rfl rfl rfl rfl (Nat.le_refl _) rfl
  | joined f a _ _ room rooms peer _ hc | joinRefused f a _ _ room code rooms peer _ hc =>
      refine Custody.ownChain hnow hc ?_
      exact htables rfl rfl rfl rfl (Nat.le_refl _) rfl
  | left f a _ _ room rooms peer _ hc =>
      refine Custody.ownChain hnow hc ?_
      exact htables rfl rfl rfl rfl (Nat.le_refl _) rfl
  | @welcomed sock _ f name _ _ requested taken rooms peer =>
      have hjoined : Custody env times [] []
          { helloState env now st sock name f taken with
            rooms, peers := (helloState env now st sock name f taken).peers.set name peer } :=
        htables rfl rfl rfl rfl (hrefs sock name f taken) rfl
      exact (hjoined.welcome hnow peer f.id).aside (aside_clearTimer _ _)
  | @roomRefused sock _ f name _ _ requested taken code rooms peer =>
      have hrooms : Custody env times [] []
          { helloState env now st sock name f taken with rooms } :=
        htables rfl rfl rfl rfl (hrefs sock name f taken) rfl
      have herror : Custody env times [] [] (sendError env now
          { helloState env now st sock name f taken with rooms } sock code (some f.id)) :=
        hrooms.silent (sendError_chain _ _ _)
      unfold refuseRooms
      generalize sendError env now { helloState env now st sock name f taken with rooms } sock code
        (some f.id) = s at herror ⊢
      have hclosed : Custody env times [] []
          { s with rooms := detachFromRooms s.rooms peer, peers := s.peers.delete peer.name } :=
        herror.of_same rfl rfl rfl rfl (Nat.le_refl _) rfl rfl
      exact (hclosed.aside (aside_destroy _ _)).aside (aside_clearTimer _ _)
  | @written _ i ok w st₁ hevent =>
      have h₁ : Custody env times [] [] st₁ := by
        rcases hevent with ⟨-, rfl⟩ | ⟨-, -, rfl⟩
        · exact h
        · exact h.aside (aside_destroy _ _)
      have hsettled : Custody env times [] []
          (st₁.settleWrite i (if ok then .ok else .failed)) :=
        h₁.of_same rfl (flushed_settleWrite _ _ _) rfl rfl (Nat.le_refl _) rfl rfl
      exact hsettled.pass hnow
        (runCallback_chain ok (passing_callback _ _) fun _ _ _ _ => .inr trivial)
  | @settled g => exact h.pass hnow (handleSettled_chain trivial (fun _ _ => trivial) g)
  | swept hc =>
      have hsilent := h.aside (aside_silence env now st)
      have hpruned : Custody env times [] [] (pruneStaleKnownAliases now (st.silence env now)) :=
        hsilent.of_same rfl rfl rfl rfl (Nat.le_refl _) rfl rfl
      exact hpruned.ownChain hnow hc
  | purged => exact h.purge hnow

/-- A reading of the clock in a run. -/
def ReadIn (tr : BrokerTrace ν) (now : Int) : Prop := ∃ x ∈ tr, x.2.1 = now

/-- What is promised of the mail of a run. -/
structure MailKept (env : Env) (tr : BrokerTrace ν) (st : BrokerState ν) : Prop where
  /-- What was mailed waits, was handed to `writeFrame`, or was dropped. -/
  places : (st.mailed.map Prod.snd).Perm
    (st.waiting ++ ((flushed st.writes).map Prod.snd ++ st.drops.map Drop.msg))
  once : (st.mailed.map fun e => e.2.ref).Nodup
  inOrder : ∀ name, (entriesFor name (flushed st.writes) ++ st.queueOf name).Sublist
    (entriesFor name st.mailed)
  reasons : ∀ d ∈ st.drops, Excused env.cfg (ReadIn tr) st.mailed d.msg
  delivered : st.stats.mailboxDelivered = (flushed st.writes).length
  dropped : st.stats.mailboxDropped = st.drops.length

theorem custody_run (hrun : Run (BrokerStep env) (BrokerState.init epoch) tr st) :
    Custody env (ReadIn tr) [] [] st := by
  refine hrun.along (P := fun tr st => Custody env (ReadIn tr) [] [] st) (Meets.trivial tr) ?_ ?_
  · exact ⟨.refl _, fun _ => .refl _, by simp [mailed, BrokerState.init],
      by simp [mailed, BrokerState.init], by simp [BrokerState.init], rfl, rfl⟩
  · intro tr s e s' hr _ h _ hstep
    have hmore : Custody env (ReadIn (tr ++ [(s, e)])) [] [] s := by
      refine h.mono ?_
      rintro now ⟨x, hx, rfl⟩
      exact ⟨x, List.mem_append_left _ hx, rfl⟩
    exact custody_step (linked_run hr).keyed hmore ⟨(s, e), by simp, rfl⟩ hstep

/-- **Every message that was ever put into a mailbox is in one place**: it waits there, it was
handed once to `writeFrame` for its alias, or it was dropped, being past its time or the oldest
of a full queue.  Those of one alias are handed over in the order they came in, and the counters
the broker reports are the messages handed over and the messages dropped. -/
theorem mail_kept (hrun : Run (BrokerStep env) (BrokerState.init epoch) tr st) :
    MailKept env tr st := by
  have h := custody_run hrun
  refine ⟨?_, ?_, ?_, ?_, ?_, ?_⟩
  · have hplaces := h.places
    rw [List.append_nil, List.append_nil] at hplaces
    exact hplaces
  · unfold List.Nodup
    rw [List.pairwise_map]
    exact h.numbered.imp Nat.ne_of_lt
  · intro name
    have horder := h.inOrder name
    rw [List.append_nil] at horder
    exact horder
  · intro d hd
    exact h.reasons d.msg (List.mem_append_left _ (List.mem_map_of_mem hd))
  · have hcount := h.delivered
    rw [List.append_nil] at hcount
    exact hcount
  · exact h.dropped

end Runs

/-- Bob is away when alice writes to him, and comes back. -/
def bobReturns : List (Int × Event) :=
  [(1000, .connect 0 false none), (1001, .line 0 (frameLine .hello "m_1" "alice" [])),
    (1002, .connect 1 false none), (1003, .line 1 (frameLine .hello "m_2" "bob" [])),
    (1004, .lost 1), (1005, .close 1),
    (1006, .line 0 (frameLine .msg "m_3" "alice"
      [("to", .str "bob"), ("room", .str "default"), ("body", .str "hi")])),
    (1007, .connect 2 false none), (1008, .line 2 (frameLine .hello "m_4" "bob" []))]

theorem mail_kept_returns : ∃ (tr : BrokerTrace Int) (st : BrokerState Int),
    tr.map Prod.snd = bobReturns ∧ st.mailed.length = 1 ∧ st.stats.mailboxDelivered = 1 ∧
      MailKept (referenceEnv {}) tr st := by
  have h : ((runBroker (referenceEnv {}) bobReturns).any fun r =>
      r.2.mailed.length == 1 && r.2.stats.mailboxDelivered == 1) = true := by decide +kernel
  obtain ⟨tr, st, hrun, htr, hcheck⟩ := exists_run h
  simp only [Bool.and_eq_true, beq_iff_eq] at hcheck
  exact ⟨tr, st, htr, hcheck.1, hcheck.2, mail_kept hrun⟩

end PiMesh
