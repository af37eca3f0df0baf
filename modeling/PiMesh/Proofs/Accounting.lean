/-
What becomes of a message put into a mailbox.

It waits, it is flushed to its owner, or it is dropped, and what is dropped has to come
back to the caller, for its sender is told.  The record of a run keeps what was put in, what
was flushed and what came back.  `mailboxSize` drops what has expired like the others and
gives back a number only, and a call that throws gives back nothing of what it took out; the
multisets below carry one more part, which is what was lost so.
-/
import PiMesh.Lib.Transition
import PiMesh.Proofs.Mail
import Mathlib.Algebra.Order.Group.Multiset
import Mathlib.Tactic.Abel

namespace PiMesh

open Js Transition

variable {ν : Type} [Number ν]

/-! ### Runs of calls -/

/-- A call of a function of `mailbox.ts`, with the time it works with. -/
inductive MailCall (ν : Type) where
  | enqueueMailbox (name : String) (frame : Members ν) (now : Int)
  | purgeAllExpired (now : Int)
  | mailboxSize (name : String) (now : Int)
  | flushMailbox (name : String) (now : Int)

def MailCall.now : MailCall ν → Int
  | enqueueMailbox _ _ now | purgeAllExpired now | mailboxSize _ now | flushMailbox _ now => now

/-- The mailbox, and what went through it. -/
structure MailRecord (ν : Type) where
  mail : Mail ν := ⟨.empty, {}⟩
  /-- Every message with the alias it was put in for, in order. -/
  enqueued : List (String × StoredMsg ν) := []
  flushed : List (String × StoredMsg ν) := []
  /-- The entries the calls returned as dropped. -/
  returned : List (StoredMsg ν) := []

namespace MailRecord

/-- The entry a call of `enqueueMailbox` makes. -/
def entry (r : MailRecord ν) (frame : Members ν) (now : Int) : StoredMsg ν :=
  ⟨r.enqueued.length, frame, now⟩

def step (cfg : MeshConfig) (r : MailRecord ν) : MailCall ν → MailRecord ν
  | .enqueueMailbox name frame now =>
      let result := enqueueMailbox r.mail cfg name (r.entry frame now) now
      { r with
        mail := result.2
        enqueued := r.enqueued ++ [(name, r.entry frame now)]
        returned := r.returned ++ result.1 }
  | .purgeAllExpired now =>
      let loop := purgeLoop cfg now r.mail.mailbox.keys r.mail
      if loop.1 then
        let result := purgeAllExpired r.mail cfg now
        { r with mail := result.2, returned := r.returned ++ result.1 }
      else { r with mail := loop.2 }
  | .mailboxSize name now => { r with mail := (mailboxSize r.mail cfg name now).2 }
  | .flushMailbox name now =>
      let result := flushMailbox r.mail cfg name now
      if flushMailboxThrows r.mail cfg name now then { r with mail := result.2.2 }
      else
        { r with
          mail := result.2.2
          flushed := r.flushed ++ result.1.map (name, ·)
          returned := r.returned ++ result.2.1 }

/-- The queue of one alias. -/
def queue (r : MailRecord ν) (name : String) : List (StoredMsg ν) :=
  (r.mail.mailbox.get? name).getD []

/-- The entry that comes in with a call. -/
def incoming (r : MailRecord ν) (name : String) : MailCall ν → List (StoredMsg ν)
  | .enqueueMailbox name' frame now => if name' = name then [r.entry frame now] else []
  | _ => []

/-- An entry of this alias. -/
def owns (r : MailRecord ν) (name : String) (m : StoredMsg ν) : Bool :=
  r.enqueued.any fun e => e.1 = name ∧ e.2.ref = m.ref

/-- What came back as dropped from the queue of one alias. -/
def returnedFor (r : MailRecord ν) (name : String) : List (StoredMsg ν) :=
  r.returned.filter (r.owns name)

end MailRecord

/-- The entries of one alias. -/
def entriesFor (name : String) (l : List (String × StoredMsg ν)) : List (StoredMsg ν) :=
  (l.filter fun e => e.1 = name).map Prod.snd

abbrev MailTrace (ν : Type) := List (MailRecord ν × MailCall ν)

def MailStep (cfg : MeshConfig) (r : MailRecord ν) (c : MailCall ν) (r' : MailRecord ν) : Prop :=
  r.step cfg c = r'

/-- Why an entry may leave a queue without being flushed. -/
inductive DropReason (cfg : MeshConfig) (r : MailRecord ν) (name : String) (m : StoredMsg ν) :
    MailCall ν → Prop
  | expired {c : MailCall ν} (h : isFresh cfg.mailboxTtlMs c.now m = false) : DropReason cfg r name m c
  | oldest {frame : Members ν} {now : Int} {rest : List (StoredMsg ν)}
      (hqueue : (r.queue name).filter (isFresh cfg.mailboxTtlMs now) ++ [r.entry frame now] = m :: rest)
      (hfull : cfg.mailboxCap < (m :: rest).length) :
      DropReason cfg r name m (.enqueueMailbox name frame now)

/-- What the queues keep whatever is called. -/
structure QueuesKept (cfg : MeshConfig) (r : MailRecord ν) : Prop where
  /-- What was flushed and what waits are in the order they came in. -/
  ordered : ∀ name, (entriesFor name r.flushed ++ r.queue name).Sublist (entriesFor name r.enqueued)
  capped : ∀ name, (r.queue name).length ≤ cfg.mailboxCap
  stored : ∀ name, r.mail.mailbox.get? name ≠ some []

/-- What is promised of the mailbox after a run. -/
structure MailAccounted (cfg : MeshConfig) (tr : MailTrace ν) (r : MailRecord ν) : Prop
    extends QueuesKept cfg r where
  reasons : ∀ x ∈ tr, ∀ name, ∀ m ∈ x.1.queue name ++ x.1.incoming name x.2,
    m ∉ (x.1.step cfg x.2).queue name → (name, m) ∉ (x.1.step cfg x.2).flushed →
    DropReason cfg x.1 name m x.2
  /-- What was put in waits, was flushed, or came back as dropped, each once. -/
  conserved : ∀ name, (entriesFor name r.enqueued).Perm
    (r.queue name ++ entriesFor name r.flushed ++ r.returnedFor name)
  dropped : r.mail.stats.mailboxDropped = r.returned.length
  delivered : r.mail.stats.mailboxDelivered = r.flushed.length

/-- The queues a call meets are such that all it takes out comes back: no more has expired in
one than a call takes arguments, nothing has where only the size is asked for, and what is to be
delivered bears times within the range of a `Date`. -/
def GivesBack (cfg : MeshConfig) (r : MailRecord ν) : MailCall ν → Prop
  | .enqueueMailbox .. => True
  | .purgeAllExpired now => ∀ name,
      ((r.queue name).filter fun m => !isFresh cfg.mailboxTtlMs now m).length ≤
        (Number.limits ν).arguments
  | .mailboxSize name now => ∀ m ∈ r.queue name, isFresh cfg.mailboxTtlMs now m = true
  | .flushMailbox name now => ∀ m ∈ r.queue name, isFresh cfg.mailboxTtlMs now m = true →
      inDateRange m.enqueuedAt = true

/-! ### What a call does to one queue -/

section Queues

variable {cfg : MeshConfig} {r : MailRecord ν} {c : MailCall ν}

theorem queue_partitionExpired (mail : Mail ν) (name other : String) (ttlMs now : Int) :
    ((partitionExpired mail name ttlMs now).2.2.mailbox.get? other).getD [] =
      if other = name then ((mail.mailbox.get? name).getD []).filter (isFresh ttlMs now)
      else (mail.mailbox.get? other).getD [] := by
  simp only [partitionExpired]
  split
  · next hempty =>
      rw [Map.get?_delete]
      split
      · exact (List.isEmpty_iff.mp hempty).symm
      · rfl
  · rw [Map.get?_set]
    split <;> rfl

theorem partitionExpired_stored {mail : Mail ν} (h : ∀ name, mail.mailbox.get? name ≠ some [])
    (name : String) (ttlMs now : Int) (other : String) :
    (partitionExpired mail name ttlMs now).2.2.mailbox.get? other ≠ some [] := by
  simp only [partitionExpired]
  split
  · rw [Map.get?_delete]
    split
    · exact Option.some_ne_none _ |>.symm
    · exact h other
  · next hne =>
      rw [Map.get?_set]
      split
      · intro hc
        exact hne (by rw [Option.some.inj hc]; rfl)
      · exact h other

theorem queue_purgeAllExpired (mail : Mail ν) (cfg : MeshConfig) (now : Int) (name : String) :
    ((purgeAllExpired mail cfg now).2.mailbox.get? name).getD [] =
      ((mail.mailbox.get? name).getD []).filter (isFresh cfg.mailboxTtlMs now) := by
  -- the queues the loop has visited are filtered, and the others are as they were
  have hloop : ∀ (f : List (StoredMsg ν) × Mail ν → String → List (StoredMsg ν) × Mail ν),
      (∀ acc n, (f acc n).2 = (partitionExpired acc.2 n cfg.mailboxTtlMs now).2.2) →
      ∀ (names : List String) (acc : List (StoredMsg ν) × Mail ν),
        ((names.foldl f acc).2.mailbox.get? name).getD [] =
          if name ∈ names then ((acc.2.mailbox.get? name).getD []).filter (isFresh cfg.mailboxTtlMs now)
          else (acc.2.mailbox.get? name).getD [] := by
    intro f hf names
    induction names with
    | nil => exact fun _ => rfl
    | cons n rest ih =>
        intro acc
        rw [List.foldl_cons, ih, hf, queue_partitionExpired]
        by_cases hn : name = n
        · subst hn
          rw [if_pos rfl, if_pos List.mem_cons_self, List.filter_filter]
          simp
        · rw [if_neg hn]
          simp [hn]
  have h := hloop (fun acc n => (acc.1 ++ (partitionExpired acc.2 n cfg.mailboxTtlMs now).2.1,
    (partitionExpired acc.2 n cfg.mailboxTtlMs now).2.2)) (fun _ _ => rfl) mail.mailbox.keys ([], mail)
  refine h.trans ?_
  split
  · rfl
  · next hn =>
      rw [(Map.get?_eq_none_iff _ _).mpr hn]
      rfl

theorem purgeAllExpired_stored {mail : Mail ν} (cfg : MeshConfig) (now : Int)
    (h : ∀ name, mail.mailbox.get? name ≠ some []) (name : String) :
    (purgeAllExpired mail cfg now).2.mailbox.get? name ≠ some [] := by
  unfold purgeAllExpired
  refine List.foldlRecOn mail.mailbox.keys _
    (motive := fun acc : List (StoredMsg ν) × Mail ν => ∀ n, acc.2.mailbox.get? n ≠ some []) h ?_ name
  intro acc ih n _
  exact partitionExpired_stored ih n cfg.mailboxTtlMs now

/-! ### The calls that throw -/

theorem flushMailboxThrows_iff (cfg : MeshConfig) (r : MailRecord ν) (name : String) (now : Int) :
    flushMailboxThrows r.mail cfg name now = false ↔ GivesBack cfg r (.flushMailbox name now) := by
  show (List.any ((r.queue name).filter (isFresh cfg.mailboxTtlMs now)) _) = false ↔ _
  rw [List.any_eq_false]
  constructor
  · intro h m hm hfresh
    simpa using h m (List.mem_filter.mpr ⟨hm, hfresh⟩)
  · intro h m hm
    obtain ⟨hm, hfresh⟩ := List.mem_filter.mp hm
    simp [h m hm hfresh]

section Loop

variable {now : Int} {names : List String}

/-- The loop comes to its end where no queue it visits holds too much that has expired. -/
theorem purgeLoop_iff (hnodup : names.Nodup) (mail : Mail ν) :
    (purgeLoop cfg now names mail).1 = true ↔ ∀ name ∈ names,
      (((mail.mailbox.get? name).getD []).filter fun m => !isFresh cfg.mailboxTtlMs now m).length ≤
        (Number.limits ν).arguments := by
  induction names generalizing mail with
  | nil => simp [purgeLoop]
  | cons name rest ih =>
      obtain ⟨hnot, hrest⟩ := List.nodup_cons.mp hnodup
      rw [purgeLoop, List.forall_mem_cons]
      dsimp only
      by_cases hfew : (partitionExpired mail name cfg.mailboxTtlMs now).2.1.length ≤
          (Number.limits ν).arguments
      · rw [if_pos hfew, ih hrest]
        -- the queues it has not come to yet are as they were
        have hothers : ∀ n ∈ rest,
            ((partitionExpired mail name cfg.mailboxTtlMs now).2.2.mailbox.get? n).getD [] =
              (mail.mailbox.get? n).getD [] := by
          intro n hn
          rw [queue_partitionExpired, if_neg]
          rintro rfl
          exact hnot hn
        constructor
        · intro h
          refine ⟨hfew, fun n hn => ?_⟩
          rw [← hothers n hn]
          exact h n hn
        · rintro ⟨-, h⟩ n hn
          rw [hothers n hn]
          exact h n hn
      · rw [if_neg hfew]
        constructor
        · intro h
          cases h
        · rintro ⟨h, -⟩
          exact absurd h hfew

theorem purge_iff (cfg : MeshConfig) (r : MailRecord ν) (now : Int) :
    (purgeLoop cfg now r.mail.mailbox.keys r.mail).1 = true ↔
      GivesBack cfg r (.purgeAllExpired now) := by
  rw [purgeLoop_iff (show r.mail.mailbox.keys.Nodup from r.mail.mailbox.nodup)]
  constructor
  · intro h name
    by_cases hname : name ∈ r.mail.mailbox.keys
    · exact h name hname
    · unfold MailRecord.queue
      rw [(Map.get?_eq_none_iff _ _).mpr hname]
      exact Nat.zero_le _
  · exact fun h name _ => h name

/-- Wherever the loop ends, a queue holds nothing it did not hold, in the same order. -/
theorem purgeLoop_sublist (cfg : MeshConfig) (now : Int) (names : List String) (mail : Mail ν)
    (name : String) : (((purgeLoop cfg now names mail).2.mailbox.get? name).getD []).Sublist
      ((mail.mailbox.get? name).getD []) := by
  induction names generalizing mail with
  | nil => exact List.Sublist.refl _
  | cons n rest ih =>
      have hpart : (((partitionExpired mail n cfg.mailboxTtlMs now).2.2.mailbox.get? name).getD []).Sublist
          ((mail.mailbox.get? name).getD []) := by
        rw [queue_partitionExpired]
        split
        · next hn =>
            rw [hn]
            exact List.filter_sublist
        · exact List.Sublist.refl _
      rw [purgeLoop]
      dsimp only
      split
      · exact (ih _).trans hpart
      · exact hpart

theorem purgeLoop_stored (cfg : MeshConfig) (now : Int) (names : List String) {mail : Mail ν}
    (h : ∀ name, mail.mailbox.get? name ≠ some []) (name : String) :
    (purgeLoop cfg now names mail).2.mailbox.get? name ≠ some [] := by
  induction names generalizing mail with
  | nil => exact h name
  | cons n rest ih =>
      have hpart := partitionExpired_stored h n cfg.mailboxTtlMs now
      rw [purgeLoop]
      dsimp only
      split
      · exact ih hpart
      · exact hpart name

/-- What the loop takes out, and that it is something where the loop breaks off. -/
theorem purgeLoop_perm (cfg : MeshConfig) (now : Int) (names : List String) (mail : Mail ν) :
    ∃ more : List (String × StoredMsg ν),
      (storedIn mail.mailbox).Perm
        (more ++ storedIn (purgeLoop cfg now names mail).2.mailbox) ∧
      ((purgeLoop cfg now names mail).1 = false → more ≠ []) := by
  induction names generalizing mail with
  | nil => exact ⟨[], List.Perm.refl _, fun h => by cases h⟩
  | cons n rest ih =>
      have hperm := partitionExpired_perm mail n cfg.mailboxTtlMs now
      rw [purgeLoop]
      dsimp only
      split
      · obtain ⟨more, hmore, hne⟩ := ih (partitionExpired mail n cfg.mailboxTtlMs now).2.2
        refine ⟨(partitionExpired mail n cfg.mailboxTtlMs now).2.1.map (n, ·) ++ more, ?_, ?_⟩
        · rw [List.append_assoc]
          exact hperm.trans (hmore.append_left _)
        · intro h hnil
          exact hne h (List.append_eq_nil_iff.mp hnil).2
      · next hmany =>
          refine ⟨_, hperm, fun _ hnil => hmany ?_⟩
          rw [List.map_eq_nil_iff.mp hnil]
          exact Nat.zero_le _

end Loop

/-- The queue of one alias after a call. -/
def queueAfter (cfg : MeshConfig) (r : MailRecord ν) (name : String) : MailCall ν → List (StoredMsg ν)
  | .enqueueMailbox name' frame now =>
      if name = name' then
        let queue := (r.queue name).filter (isFresh cfg.mailboxTtlMs now) ++ [r.entry frame now]
        queue.drop (queue.length - cfg.mailboxCap)
      else r.queue name
  | .purgeAllExpired now =>
      let loop := purgeLoop cfg now r.mail.mailbox.keys r.mail
      if loop.1 then (r.queue name).filter (isFresh cfg.mailboxTtlMs now)
      else (loop.2.mailbox.get? name).getD []
  | .mailboxSize name' now =>
      if name = name' then (r.queue name).filter (isFresh cfg.mailboxTtlMs now) else r.queue name
  | .flushMailbox name' _ => if name = name' then [] else r.queue name

theorem queue_step (cfg : MeshConfig) (r : MailRecord ν) (c : MailCall ν) (name : String) :
    (r.step cfg c).queue name = queueAfter cfg r name c := by
  cases c with
  | enqueueMailbox name' frame now =>
      show ((Map.set _ _ _).get? name).getD [] = _
      rw [Map.get?_set]
      by_cases hn : name = name'
      · subst hn
        simp only [queueAfter]
        rfl
      · have hother := queue_partitionExpired r.mail name' name cfg.mailboxTtlMs now
        rw [if_neg hn] at hother
        simp only [queueAfter, if_neg hn]
        exact hother
  | purgeAllExpired now =>
      simp only [queueAfter, MailRecord.step]
      split
      · exact queue_purgeAllExpired r.mail cfg now name
      · rfl
  | mailboxSize name' now =>
      refine (queue_partitionExpired r.mail name' name cfg.mailboxTtlMs now).trans ?_
      simp only [queueAfter]
      split
      · next hn => rw [hn]; rfl
      · rfl
  | flushMailbox name' now =>
      have hmail : (r.step cfg (.flushMailbox name' now)).mail =
          (flushMailbox r.mail cfg name' now).2.2 := by
        simp only [MailRecord.step]
        split <;> rfl
      unfold MailRecord.queue
      rw [hmail]
      show ((Map.delete _ _).get? name).getD [] = _
      rw [Map.get?_delete]
      by_cases hn : name = name'
      · simp only [queueAfter, if_pos hn]
        rfl
      · have hother := queue_partitionExpired r.mail name' name cfg.mailboxTtlMs now
        rw [if_neg hn] at hother
        simp only [queueAfter, if_neg hn]
        exact hother

theorem stored_step (hcap : 1 ≤ cfg.mailboxCap) (h : ∀ name, r.mail.mailbox.get? name ≠ some [])
    (name : String) : (r.step cfg c).mail.mailbox.get? name ≠ some [] := by
  cases c with
  | enqueueMailbox name' frame now =>
      show (Map.set _ _ _).get? name ≠ some []
      rw [Map.get?_set]
      split
      · intro hc
        have hlength := congrArg List.length (Option.some.inj hc)
        simp only [List.length_drop, List.length_append, List.length_singleton, List.length_nil] at hlength
        omega
      · exact partitionExpired_stored h _ _ _ name
  | purgeAllExpired now =>
      simp only [MailRecord.step]
      split
      · exact purgeAllExpired_stored cfg now h name
      · exact purgeLoop_stored cfg now _ h name
  | mailboxSize name' now => exact partitionExpired_stored h _ _ _ name
  | flushMailbox name' now =>
      have hmail : (r.step cfg (.flushMailbox name' now)).mail =
          (flushMailbox r.mail cfg name' now).2.2 := by
        simp only [MailRecord.step]
        split <;> rfl
      rw [hmail]
      show (Map.delete _ _).get? name ≠ some []
      rw [Map.get?_delete]
      split
      · exact (Option.some_ne_none _).symm
      · exact partitionExpired_stored h _ _ _ name

theorem capped_step (h : ∀ name, (r.queue name).length ≤ cfg.mailboxCap) (name : String) :
    ((r.step cfg c).queue name).length ≤ cfg.mailboxCap := by
  rw [queue_step]
  have hname := h name
  have hfilter := fun now => List.length_filter_le (isFresh cfg.mailboxTtlMs now) (r.queue name)
  cases c with
  | enqueueMailbox name' frame now =>
      simp only [queueAfter]
      split
      · rw [List.length_drop]
        omega
      · exact hname
  | purgeAllExpired now =>
      simp only [queueAfter]
      split
      · exact (hfilter now).trans hname
      · exact (purgeLoop_sublist cfg now _ r.mail name).length_le.trans hname
  | mailboxSize name' now =>
      simp only [queueAfter]
      split
      · exact (hfilter now).trans hname
      · exact hname
  | flushMailbox name' now =>
      simp only [queueAfter]
      split
      · exact Nat.zero_le _
      · exact hname

/-- Where an entry goes that leaves its queue: it is flushed, or there is a reason. -/
theorem leaves_queue (hback : GivesBack cfg r c)
    (hle : ∀ name, (r.queue name).length ≤ cfg.mailboxCap) {name : String} {m : StoredMsg ν}
    (hm : m ∈ r.queue name ++ r.incoming name c) (hgone : m ∉ (r.step cfg c).queue name)
    (hkept : (name, m) ∉ (r.step cfg c).flushed) :
    DropReason cfg r name m c := by
  rw [queue_step] at hgone
  by_cases hfresh : isFresh cfg.mailboxTtlMs c.now m = true
  swap
  · exact .expired (Bool.eq_false_iff.mpr hfresh)
  have hstays : m ∈ r.queue name → m ∈ (r.queue name).filter (isFresh cfg.mailboxTtlMs c.now) :=
    fun hq => List.mem_filter.mpr ⟨hq, hfresh⟩
  cases c with
  | enqueueMailbox name' frame now =>
      by_cases hn : name = name'
      swap
      · simp only [queueAfter, if_neg hn, MailRecord.incoming, if_neg (Ne.symm hn), List.append_nil]
          at hgone hm
        exact absurd hm hgone
      subst hn
      simp only [queueAfter, if_pos, MailRecord.incoming] at hgone hm
      -- the longer queue is over its cap by one entry at most, the first
      have hqueue : m ∈ (r.queue name).filter (isFresh cfg.mailboxTtlMs now) ++ [r.entry frame now] :=
        List.mem_append.mpr ((List.mem_append.mp hm).imp_left hstays)
      generalize hq : (r.queue name).filter (isFresh cfg.mailboxTtlMs now) ++ [r.entry frame now] = queue
        at hgone hqueue
      have hlength : queue.length ≤ cfg.mailboxCap + 1 := by
        rw [← hq, List.length_append, List.length_singleton]
        have := List.length_filter_le (isFresh cfg.mailboxTtlMs now) (r.queue name)
        have := hle name
        omega
      obtain ⟨first, rest, rfl⟩ := List.exists_cons_of_ne_nil (List.ne_nil_of_mem hqueue)
      by_cases hfull : cfg.mailboxCap < (first :: rest).length
      · have hone : (first :: rest).length - cfg.mailboxCap = 1 := by omega
        rw [hone] at hgone
        rcases List.mem_cons.mp hqueue with rfl | hrest
        · exact .oldest hq hfull
        · exact absurd hrest hgone
      · rw [Nat.sub_eq_zero_of_le (Nat.le_of_not_lt hfull)] at hgone
        exact absurd hqueue hgone
  | purgeAllExpired now =>
      simp only [MailRecord.incoming, List.append_nil] at hm
      simp only [queueAfter, (purge_iff cfg r now).mpr hback, if_true] at hgone
      exact absurd (hstays hm) hgone
  | mailboxSize name' now =>
      simp only [MailRecord.incoming, List.append_nil] at hm
      simp only [queueAfter] at hgone
      split at hgone
      · exact absurd (hstays hm) hgone
      · exact absurd hm hgone
  | flushMailbox name' now =>
      simp only [MailRecord.incoming, List.append_nil] at hm
      by_cases hn : name = name'
      · subst hn
        simp only [MailRecord.step, (flushMailboxThrows_iff cfg r name now).mpr hback, Bool.false_eq_true,
          if_false] at hkept
        refine absurd (List.mem_append_right _ (List.mem_map.mpr ⟨m, ?_, rfl⟩)) hkept
        exact hstays hm
      · simp only [queueAfter, if_neg hn] at hgone
        exact absurd hm hgone

/-! ### Order -/

theorem entriesFor_append (name : String) (l l' : List (String × StoredMsg ν)) :
    entriesFor name (l ++ l') = entriesFor name l ++ entriesFor name l' := by
  simp only [entriesFor, List.filter_append, List.map_append]

theorem entriesFor_map (name other : String) (l : List (StoredMsg ν)) :
    entriesFor name (l.map (other, ·)) = if other = name then l else [] := by
  unfold entriesFor
  by_cases h : other = name
  · rw [if_pos h, List.filter_eq_self.mpr (by simp [h])]
    simp
  · rw [if_neg h, List.filter_eq_nil_iff.mpr (by simp [h])]
    rfl

theorem ordered_step (h : ∀ name,
      (entriesFor name r.flushed ++ r.queue name).Sublist (entriesFor name r.enqueued))
    (name : String) : (entriesFor name (r.step cfg c).flushed ++ (r.step cfg c).queue name).Sublist
      (entriesFor name (r.step cfg c).enqueued) := by
  rw [queue_step]
  have hname := h name
  have hfilter := fun now => (List.filter_sublist (p := isFresh cfg.mailboxTtlMs now) (l := r.queue name))
  cases c with
  | enqueueMailbox name' frame now =>
      show (entriesFor name r.flushed ++ queueAfter cfg r name _).Sublist
        (entriesFor name (r.enqueued ++ [r.entry frame now].map (name', ·)))
      rw [entriesFor_append, entriesFor_map]
      by_cases hn : name = name'
      · subst hn
        simp only [queueAfter, if_pos]
        refine List.Sublist.trans ?_ (hname.append (List.Sublist.refl [r.entry frame now]))
        rw [List.append_assoc]
        refine (List.Sublist.refl _).append ((List.drop_sublist _ _).trans ?_)
        exact (hfilter now).append (List.Sublist.refl _)
      · simp only [queueAfter, if_neg hn, if_neg (Ne.symm hn), List.append_nil]
        exact hname
  | purgeAllExpired now =>
      have hsame : (r.step cfg (.purgeAllExpired now)).flushed = r.flushed ∧
          (r.step cfg (.purgeAllExpired now)).enqueued = r.enqueued := by
        simp only [MailRecord.step]
        split <;> exact ⟨rfl, rfl⟩
      rw [hsame.1, hsame.2]
      simp only [queueAfter]
      split
      · exact ((List.Sublist.refl _).append (hfilter now)).trans hname
      · exact ((List.Sublist.refl _).append (purgeLoop_sublist cfg now _ r.mail name)).trans hname
  | mailboxSize name' now =>
      simp only [queueAfter]
      split
      · exact ((List.Sublist.refl _).append (hfilter now)).trans hname
      · exact hname
  | flushMailbox name' now =>
      have hless : (entriesFor name (r.step cfg (.flushMailbox name' now)).flushed).Sublist
          (entriesFor name (r.flushed ++
            ((r.queue name').filter (isFresh cfg.mailboxTtlMs now)).map (name', ·))) := by
        simp only [MailRecord.step]
        split
        · rw [entriesFor_append]
          exact List.sublist_append_left _ _
        · exact List.Sublist.refl _
      have hsame : (r.step cfg (.flushMailbox name' now)).enqueued = r.enqueued := by
        simp only [MailRecord.step]
        split <;> rfl
      rw [hsame]
      refine (hless.append_right _).trans ?_
      rw [entriesFor_append, entriesFor_map]
      by_cases hn : name = name'
      · subst hn
        simp only [queueAfter, if_pos, List.append_nil]
        exact ((List.Sublist.refl _).append (hfilter now)).trans hname
      · simp only [queueAfter, if_neg hn, if_neg (Ne.symm hn), List.append_nil]
        exact hname

end Queues

/-! ### Balance -/

/-- Where everything is that was put in: `g` came back, `lost` did not. -/
structure Balanced (cfg : MeshConfig) (tr : MailTrace ν) (r : MailRecord ν)
    (g lost : List (String × StoredMsg ν)) : Prop where
  refs : r.enqueued.map (fun e => e.2.ref) = List.range r.enqueued.length
  gone : g.map Prod.snd = r.returned
  balance : (r.enqueued : Multiset (String × StoredMsg ν)) =
    ↑(storedIn r.mail.mailbox) + ↑r.flushed + ↑g + ↑lost
  dropped : lost = [] → r.mail.stats.mailboxDropped = r.returned.length
  delivered : lost = [] → r.mail.stats.mailboxDelivered = r.flushed.length
  none : lost = [] ↔ ∀ x ∈ tr, GivesBack cfg x.1 x.2

section Balance

variable {cfg : MeshConfig} {tr : MailTrace ν} {r : MailRecord ν} {c : MailCall ν}
  {gone lost : List (String × StoredMsg ν)}

theorem givesBack_snoc : (∀ x ∈ tr ++ [(r, c)], GivesBack cfg x.1 x.2) ↔
    (∀ x ∈ tr, GivesBack cfg x.1 x.2) ∧ GivesBack cfg r c := by
  simp only [List.forall_mem_append, List.forall_mem_singleton]

/-- What a call loses besides what was lost before. -/
theorem lost_iff {more : List (String × StoredMsg ν)} (h : Balanced cfg tr r gone lost)
    (hmore : more = [] ↔ GivesBack cfg r c) :
    lost ++ more = [] ↔ ∀ x ∈ tr ++ [(r, c)], GivesBack cfg x.1 x.2 := by
  rw [List.append_eq_nil_iff, h.none, hmore, givesBack_snoc]

theorem balanced_enqueue (name : String) (frame : Members ν) (now : Int)
    (h : Balanced cfg tr r gone lost) :
    ∃ gone', Balanced cfg (tr ++ [(r, .enqueueMailbox name frame now)])
      (r.step cfg (.enqueueMailbox name frame now)) gone' lost := by
  have hperm := Multiset.coe_eq_coe.mpr (enqueueMailbox_perm r.mail cfg name (r.entry frame now) now)
  have hcount := enqueueMailbox_dropped r.mail cfg name (r.entry frame now) now
  rw [← Multiset.coe_add, ← Multiset.coe_add] at hperm
  refine ⟨gone ++ (enqueueMailbox r.mail cfg name (r.entry frame now) now).1.map (name, ·),
    ?_, ?_, ?_, ?_, ?_, ?_⟩
  · simp only [MailRecord.step, List.map_append, h.refs, List.length_append, List.length_singleton,
      List.range_succ]
    rfl
  · simp only [MailRecord.step, List.map_append, h.gone, List.map_map]
    simp
  · simp only [MailRecord.step, ← Multiset.coe_add]
    rw [h.balance]
    calc (↑(storedIn r.mail.mailbox) + ↑r.flushed + ↑gone + ↑lost + ↑[(name, r.entry frame now)] :
          Multiset (String × StoredMsg ν))
        = ↑(storedIn r.mail.mailbox) + ↑[(name, r.entry frame now)] + ↑r.flushed + ↑gone + ↑lost := by
          abel
      _ = _ := by
          rw [hperm]
          abel
  · intro hnil
    have := hcount.1
    have := h.dropped hnil
    simp only [MailRecord.step, List.length_append]
    omega
  · exact fun hnil => hcount.2.trans (h.delivered hnil)
  · rw [h.none, givesBack_snoc]
    exact (and_iff_left True.intro).symm

theorem balanced_purge (now : Int) (h : Balanced cfg tr r gone lost) :
    ∃ gone' lost', Balanced cfg (tr ++ [(r, .purgeAllExpired now)])
      (r.step cfg (.purgeAllExpired now)) gone' lost' := by
  have hiff := purge_iff cfg r now
  by_cases hends : (purgeLoop cfg now r.mail.mailbox.keys r.mail).1 = true
  · obtain ⟨more, hmore, hperm⟩ := purgeAllExpired_perm r.mail cfg now
    have hcount := purgeAllExpired_dropped r.mail cfg now
    have hperm := Multiset.coe_eq_coe.mpr hperm
    rw [← Multiset.coe_add] at hperm
    simp only [MailRecord.step, hends, if_true]
    refine ⟨gone ++ more, lost, h.refs, ?_, ?_, ?_, fun hnil => hcount.2.trans (h.delivered hnil), ?_⟩
    · rw [List.map_append, h.gone, hmore]
    · refine h.balance.trans ?_
      rw [hperm, ← Multiset.coe_add]
      abel
    · intro hnil
      have := hcount.1
      have := h.dropped hnil
      dsimp only
      rw [List.length_append]
      omega
    · rw [h.none, givesBack_snoc]
      exact (and_iff_left (hiff.mp hends)).symm
  · -- what the loop took out by then is lost
    obtain ⟨more, hperm, hne⟩ := purgeLoop_perm cfg now r.mail.mailbox.keys r.mail
    have hne := hne (by simpa using hends)
    have hperm := Multiset.coe_eq_coe.mpr hperm
    rw [← Multiset.coe_add] at hperm
    have hlost : lost ++ more ≠ [] := fun hnil => hne (List.append_eq_nil_iff.mp hnil).2
    simp only [MailRecord.step, hends, Bool.false_eq_true, if_false]
    refine ⟨gone, lost ++ more, h.refs, h.gone, ?_, fun hnil => absurd hnil hlost,
      fun hnil => absurd hnil hlost, lost_iff h ?_⟩
    · refine h.balance.trans ?_
      rw [hperm, ← Multiset.coe_add]
      abel
    · exact ⟨fun hnil => absurd hnil hne, fun hback => absurd (hiff.mpr hback) hends⟩

theorem balanced_size (name : String) (now : Int) (h : Balanced cfg tr r gone lost) :
    ∃ lost', Balanced cfg (tr ++ [(r, .mailboxSize name now)]) (r.step cfg (.mailboxSize name now))
      gone lost' := by
  have hperm := Multiset.coe_eq_coe.mpr (partitionExpired_perm r.mail name cfg.mailboxTtlMs now)
  rw [← Multiset.coe_add] at hperm
  refine ⟨lost ++ (partitionExpired r.mail name cfg.mailboxTtlMs now).2.1.map (name, ·),
    h.refs, h.gone, ?_, ?_, ?_, lost_iff h ?_⟩
  · refine h.balance.trans ?_
    rw [hperm, ← Multiset.coe_add]
    show _ = (↑(storedIn (partitionExpired r.mail name cfg.mailboxTtlMs now).2.2.mailbox) +
      ↑r.flushed + ↑gone + (↑lost + _) : Multiset (String × StoredMsg ν))
    abel
  · intro hnil
    obtain ⟨hlost, hmore⟩ := List.append_eq_nil_iff.mp hnil
    have hcount : (r.step cfg (.mailboxSize name now)).mail.stats.mailboxDropped =
        r.mail.stats.mailboxDropped + (partitionExpired r.mail name cfg.mailboxTtlMs now).2.1.length :=
      rfl
    rw [hcount, List.map_eq_nil_iff.mp hmore]
    exact h.dropped hlost
  · exact fun hnil => h.delivered (List.append_eq_nil_iff.mp hnil).1
  · -- nothing more is lost exactly when the queue holds nothing that has expired
    rw [List.map_eq_nil_iff]
    refine List.filter_eq_nil_iff.trans (forall₂_congr fun m _ => ?_)
    simp

theorem balanced_flush (name : String) (now : Int) (h : Balanced cfg tr r gone lost) :
    ∃ gone' lost', Balanced cfg (tr ++ [(r, .flushMailbox name now)])
      (r.step cfg (.flushMailbox name now)) gone' lost' := by
  have hperm := Multiset.coe_eq_coe.mpr (flushMailbox_perm r.mail cfg name now)
  rw [← Multiset.coe_add, ← Multiset.coe_add] at hperm
  have hiff := flushMailboxThrows_iff cfg r name now
  by_cases hthrows : flushMailboxThrows r.mail cfg name now = true
  · -- the queue is gone, and nothing of it comes back
    let more := (flushMailbox r.mail cfg name now).2.1 ++ (flushMailbox r.mail cfg name now).1
    have hne : more.map (name, ·) ≠ [] := by
      intro hnil
      have hfresh := (List.append_eq_nil_iff.mp (List.map_eq_nil_iff.mp hnil)).2
      unfold flushMailboxThrows at hthrows
      rw [show (partitionExpired r.mail name cfg.mailboxTtlMs now).1 = [] from hfresh] at hthrows
      cases hthrows
    have hlost : lost ++ more.map (name, ·) ≠ [] := fun hnil =>
      hne (List.append_eq_nil_iff.mp hnil).2
    simp only [MailRecord.step, hthrows, if_true]
    refine ⟨gone, lost ++ more.map (name, ·), h.refs, h.gone, ?_, fun hnil => absurd hnil hlost,
      fun hnil => absurd hnil hlost, lost_iff h ?_⟩
    · refine h.balance.trans ?_
      rw [hperm, ← Multiset.coe_add, List.map_append, ← Multiset.coe_add]
      abel
    · refine ⟨fun hnil => absurd hnil hne, fun hback => ?_⟩
      rw [hiff.mpr hback] at hthrows
      cases hthrows
  · rw [Bool.not_eq_true] at hthrows
    have hcount : (flushMailbox r.mail cfg name now).2.2.stats.mailboxDropped =
          r.mail.stats.mailboxDropped + (flushMailbox r.mail cfg name now).2.1.length ∧
        (flushMailbox r.mail cfg name now).2.2.stats.mailboxDelivered =
          r.mail.stats.mailboxDelivered + (flushMailbox r.mail cfg name now).1.length := ⟨rfl, rfl⟩
    simp only [MailRecord.step, hthrows, Bool.false_eq_true, if_false]
    refine ⟨gone ++ (flushMailbox r.mail cfg name now).2.1.map (name, ·), lost, h.refs, ?_, ?_, ?_,
      ?_, ?_⟩
    · simp only [List.map_append, h.gone, List.map_map]
      simp
    · refine h.balance.trans ?_
      rw [hperm]
      simp only [← Multiset.coe_add]
      abel
    · intro hnil
      have := hcount.1
      have := h.dropped hnil
      dsimp only
      rw [List.length_append]
      omega
    · intro hnil
      have := hcount.2
      have := h.delivered hnil
      dsimp only
      rw [List.length_append, List.length_map]
      omega
    · rw [h.none, givesBack_snoc]
      exact (and_iff_left (hiff.mp hthrows)).symm

theorem balanced_run (h : Run (MailStep cfg) {} tr r) : ∃ gone lost, Balanced cfg tr r gone lost := by
  refine h.along (C := fun _ _ => True) (P := fun tr r => ∃ gone lost, Balanced cfg tr r gone lost)
    (Meets.trivial tr) ⟨[], [], rfl, rfl, rfl, fun _ => rfl, fun _ => rfl, by simp⟩ ?_
  rintro tr r c r' _ _ ⟨gone, lost, hb⟩ _ rfl
  cases c with
  | enqueueMailbox name frame now =>
      obtain ⟨gone', h'⟩ := balanced_enqueue name frame now hb
      exact ⟨gone', lost, h'⟩
  | purgeAllExpired now =>
      exact balanced_purge now hb
  | mailboxSize name now =>
      obtain ⟨lost', h'⟩ := balanced_size name now hb
      exact ⟨gone, lost', h'⟩
  | flushMailbox name now =>
      exact balanced_flush name now hb

theorem entriesFor_storedIn (m : MailboxTable ν) (name : String) :
    (entriesFor name (storedIn m)).Perm ((m.get? name).getD []) := by
  have hrest : entriesFor name (storedIn (m.delete name)) = [] := by
    unfold entriesFor
    rw [List.map_eq_nil_iff, List.filter_eq_nil_iff]
    intro e he
    obtain ⟨q, hq, hmem⟩ := List.mem_flatMap.mp he
    obtain ⟨x, -, rfl⟩ := List.mem_map.mp hmem
    simpa using (List.mem_filter.mp hq).2
  have hsplit := ((storedIn_split m name).filter fun e => e.1 = name).map Prod.snd
  have hqueue : entriesFor name (((m.get? name).getD []).map (name, ·) ++ storedIn (m.delete name)) =
      (m.get? name).getD [] := by
    rw [entriesFor_append, entriesFor_map, if_pos rfl, hrest, List.append_nil]
  exact hsplit.trans (List.Perm.of_eq hqueue)

/-- No two entries have one `ref`, so what came back is told apart by it. -/
theorem returnedFor_eq (h : Balanced cfg tr r gone lost) (name : String) :
    r.returnedFor name = entriesFor name gone := by
  have hnodup : (r.enqueued.map fun e => e.2.ref).Nodup := by
    rw [h.refs]
    exact List.nodup_range
  have hmem : ∀ e ∈ gone, e ∈ r.enqueued := by
    intro e he
    have hsum : e ∈ (r.enqueued : Multiset (String × StoredMsg ν)) := by
      rw [h.balance]
      exact Multiset.mem_add.mpr (.inl (Multiset.mem_add.mpr (.inr he)))
    exact hsum
  unfold MailRecord.returnedFor entriesFor
  rw [← h.gone, List.filter_map]
  refine congrArg (List.map Prod.snd) (List.filter_congr fun e he => ?_)
  show r.owns name e.2 = decide (e.1 = name)
  rw [Bool.eq_iff_iff, decide_eq_true_eq]
  unfold MailRecord.owns
  rw [List.any_eq_true]
  constructor
  · rintro ⟨e', he', hsame⟩
    rw [decide_eq_true_eq] at hsame
    rw [← List.inj_on_of_nodup_map hnodup he' (hmem e he) hsame.2]
    exact hsame.1
  · intro hn
    exact ⟨e, hmem e he, decide_eq_true ⟨hn, rfl⟩⟩

/-- The entries of one alias, with what was lost. -/
theorem balanced_for (h : Balanced cfg tr r gone lost) (name : String) :
    (entriesFor name r.enqueued).Perm (r.queue name ++ entriesFor name r.flushed ++
      r.returnedFor name ++ entriesFor name lost) := by
  have hlists : r.enqueued.Perm (storedIn r.mail.mailbox ++ r.flushed ++ gone ++ lost) := by
    refine Multiset.coe_eq_coe.mp (h.balance.trans ?_)
    simp only [Multiset.coe_add]
  have hname : (entriesFor name r.enqueued).Perm
      (entriesFor name (storedIn r.mail.mailbox ++ r.flushed ++ gone ++ lost)) :=
    (hlists.filter _).map _
  rw [entriesFor_append, entriesFor_append, entriesFor_append] at hname
  rw [returnedFor_eq h]
  refine hname.trans ?_
  exact (((entriesFor_storedIn _ name).append_right _).append_right _).append_right _

end Balance

/-! ### The account -/

section Account

variable {cfg : MeshConfig} {tr : MailTrace ν} {r : MailRecord ν}

theorem queues_run (hcap : 1 ≤ cfg.mailboxCap) (h : Run (MailStep cfg) {} tr r) :
    QueuesKept cfg r := by
  refine h.invariant (C := fun _ _ => True) (Meets.trivial tr)
    ⟨fun _ => List.nil_sublist _, fun _ => Nat.zero_le _, fun _ => nofun⟩ ?_
  rintro r c r' hq _ rfl
  exact ⟨ordered_step hq.ordered, capped_step hq.capped, stored_step hcap hq.stored⟩

/-- Every drop of a run has its reason, where its calls give back what they take out. -/
theorem reasons_run (hcap : 1 ≤ cfg.mailboxCap) (h : Run (MailStep cfg) {} tr r)
    (hback : ∀ x ∈ tr, GivesBack cfg x.1 x.2) : ∀ x ∈ tr, ∀ name,
      ∀ m ∈ x.1.queue name ++ x.1.incoming name x.2, m ∉ (x.1.step cfg x.2).queue name →
        (name, m) ∉ (x.1.step cfg x.2).flushed → DropReason cfg x.1 name m x.2 := by
  intro x hx name m hm
  obtain ⟨before, after, -, hrun⟩ := h.of_mem hx
  exact leaves_queue (hback x hx) (queues_run hcap hrun).capped hm

/-- **The mailbox accounts for every message exactly where every call of the run gives back what
it takes out.** -/
theorem mailbox_accounted (cfg : MeshConfig) (hcap : 1 ≤ cfg.mailboxCap) {tr : MailTrace ν}
    {r : MailRecord ν} (h : Run (MailStep cfg) {} tr r) :
    MailAccounted cfg tr r ↔ ∀ x ∈ tr, GivesBack cfg x.1 x.2 := by
  obtain ⟨gone, lost, hb⟩ := balanced_run h
  have hq := queues_run hcap h
  constructor
  · intro hacc
    rw [← hb.none]
    refine List.eq_nil_iff_forall_not_mem.mpr fun e he => ?_
    -- the account leaves no room for it
    have hlength := ((hacc.conserved e.1).symm.trans (balanced_for hb e.1)).length_eq
    simp only [List.length_append] at hlength
    have hempty : entriesFor e.1 lost = [] := List.length_eq_zero_iff.mp (by omega)
    have hmem : e.2 ∈ entriesFor e.1 lost :=
      List.mem_map.mpr ⟨e, List.mem_filter.mpr ⟨he, by simp⟩, rfl⟩
    rw [hempty] at hmem
    cases hmem
  · intro hback
    obtain rfl := hb.none.mpr hback
    refine ⟨hq, reasons_run hcap h hback, fun name => ?_, hb.dropped rfl, hb.delivered rfl⟩
    have hname := balanced_for hb name
    rw [show entriesFor name ([] : List (String × StoredMsg ν)) = [] from rfl, List.append_nil] at hname
    exact hname

/-- A message waits for `bob`; nobody asks before it expires. -/
theorem mailbox_accounted_fresh : ∃ (tr : MailTrace Int) (r : MailRecord Int),
    Run (MailStep {}) {} tr r ∧ tr.map Prod.snd =
      [.enqueueMailbox "bob" [] 0, .mailboxSize "bob" 3600000, .flushMailbox "bob" 3600001] ∧
    MailAccounted {} tr r ∧ r.returned.length = 1 := by
  have hrun : Run (MailStep (ν := Int) {}) {} _ _ :=
    .snoc (e := .flushMailbox "bob" 3600001) (.snoc (e := .mailboxSize "bob" 3600000)
      (.snoc (e := .enqueueMailbox "bob" [] 0) .nil rfl) rfl) rfl
  refine ⟨_, _, hrun, rfl, (mailbox_accounted {} (by decide) hrun).mpr ?_, by decide⟩
  intro x hx
  rw [List.nil_append, List.mem_append, List.mem_append, List.mem_singleton, List.mem_singleton,
    List.mem_singleton] at hx
  rcases hx with (rfl | rfl) | rfl
  · exact True.intro
  · intro m hm
    rw [List.mem_singleton.mp hm]
    decide
  · intro m hm
    rw [List.mem_singleton.mp hm]
    decide

/-- Its size is asked for when it has expired, and its sender never hears of it. -/
theorem size_loses_message : ∃ (tr : MailTrace Int) (r : MailRecord Int),
    Run (MailStep {}) {} tr r ∧ tr.map Prod.snd =
      [.enqueueMailbox "bob" [] 0, .mailboxSize "bob" 3600001] ∧
    ¬ MailAccounted {} tr r := by
  have hrun : Run (MailStep (ν := Int) {}) {} _ _ :=
    .snoc (e := .mailboxSize "bob" 3600001) (.snoc (e := .enqueueMailbox "bob" [] 0) .nil rfl) rfl
  refine ⟨_, _, hrun, rfl, fun hacc => ?_⟩
  have hlength := (hacc.conserved "bob").length_eq
  exact absurd hlength (by decide)

end Account

end PiMesh
