/-
The mailboxes as one list.

`storedIn` lists what waits, each message with the alias it waits for.  The functions of
`Broker/Mailbox.lean` rearrange this list: what they take out of one queue they return,
and nothing else is lost or copied.  Each is stated as a permutation, from which both
"whatever is stored was stored before" and the counts follow.
-/
import PiMesh.Broker.Mailbox

namespace PiMesh

open Js

variable {ν : Type} [Number ν]

/-- Every queue, one after the other. -/
def storedOf {α : Type} (l : List (String × List α)) : List (String × α) :=
  l.flatMap fun e => e.2.map (e.1, ·)

/-- What waits, each message with the alias it waits for. -/
def storedIn (mailbox : MailboxTable ν) : List (String × StoredMsg ν) := storedOf mailbox.entries

section Queues

variable {α : Type}

theorem storedOf_cons (e : String × List α) (l : List (String × List α)) :
    storedOf (e :: l) = e.2.map (e.1, ·) ++ storedOf l := by
  simp [storedOf]

/-- A queue that is written, and the others. -/
theorem storedOf_setEntry (k : String) (q : List α) {l : List (String × List α)}
    (hnd : (l.map Prod.fst).Nodup) :
    (storedOf (setEntry k q l)).Perm
      (q.map (k, ·) ++ storedOf (l.filter fun e => decide (e.1 ≠ k))) := by
  induction l with
  | nil => simp [setEntry, storedOf]
  | cons e rest ih =>
      rw [List.map_cons, List.nodup_cons] at hnd
      by_cases hk : e.1 = k
      · have hrest : rest.filter (fun e => decide (e.1 ≠ k)) = rest := by
          refine List.filter_eq_self.mpr ?_
          intro e' he'
          have hne : e'.1 ≠ k := by
            intro hc
            exact hnd.1 (List.mem_map.mpr ⟨e', he', by rw [hc, hk]⟩)
          simp [hne]
        rw [setEntry, if_pos hk, List.filter_cons_of_neg (by simp [hk]), hrest, storedOf_cons]
      · rw [setEntry, if_neg hk, List.filter_cons_of_pos (by simp [hk]), storedOf_cons, storedOf_cons]
        calc e.2.map (e.1, ·) ++ storedOf (setEntry k q rest)
            |>.Perm (e.2.map (e.1, ·) ++ (q.map (k, ·)
              ++ storedOf (rest.filter fun e => decide (e.1 ≠ k)))) := (ih hnd.2).append_left _
          _ |>.Perm (q.map (k, ·) ++ (e.2.map (e.1, ·)
              ++ storedOf (rest.filter fun e => decide (e.1 ≠ k)))) := List.perm_append_comm_assoc _ _ _

end Queues

section Tables

variable {mail : Mail ν} {cfg : MeshConfig} {name : String} {now : Int}

theorem storedIn_set (m : MailboxTable ν) (name : String) (q : List (StoredMsg ν)) :
    (storedIn (m.set name q)).Perm (q.map (name, ·) ++ storedIn (m.delete name)) :=
  storedOf_setEntry name q m.nodup

/-- The queue of one alias, and the others. -/
theorem storedIn_split (m : MailboxTable ν) (name : String) :
    (storedIn m).Perm (((m.get? name).getD []).map (name, ·) ++ storedIn (m.delete name)) := by
  cases h : m.get? name with
  | none =>
      rw [Map.delete_of_get?_eq_none h]
      simp
  | some q =>
      have hset := storedIn_set m name q
      rw [Map.set_of_get? h] at hset
      exact hset

/-! ### The functions of the mailbox -/

theorem partitionExpired_fresh (mail : Mail ν) (name : String) (ttlMs now : Int) :
    (storedIn (partitionExpired mail name ttlMs now).2.2.mailbox).Perm
      ((partitionExpired mail name ttlMs now).1.map (name, ·)
        ++ storedIn (mail.mailbox.delete name)) := by
  simp only [partitionExpired]
  split
  · next hempty =>
      rw [List.isEmpty_iff] at hempty
      rw [hempty]
      exact .refl _
  · exact storedIn_set _ _ _

/-- Partitioning a queue takes out exactly what it returns as expired. -/
theorem partitionExpired_perm (mail : Mail ν) (name : String) (ttlMs now : Int) :
    (storedIn mail.mailbox).Perm ((partitionExpired mail name ttlMs now).2.1.map (name, ·)
      ++ storedIn (partitionExpired mail name ttlMs now).2.2.mailbox) := by
  have hqueue : (((mail.mailbox.get? name).getD []).map (name, ·)).Perm
      ((partitionExpired mail name ttlMs now).2.1.map (name, ·)
        ++ (partitionExpired mail name ttlMs now).1.map (name, ·)) := by
    rw [← List.map_append]
    refine List.Perm.map _ (List.Perm.symm ?_)
    exact List.perm_append_comm.trans (List.filter_append_perm _ _)
  calc storedIn mail.mailbox
      |>.Perm (((mail.mailbox.get? name).getD []).map (name, ·)
        ++ storedIn (mail.mailbox.delete name)) := storedIn_split _ _
    _ |>.Perm (((partitionExpired mail name ttlMs now).2.1.map (name, ·)
        ++ (partitionExpired mail name ttlMs now).1.map (name, ·))
        ++ storedIn (mail.mailbox.delete name)) := hqueue.append_right _
    _ |>.Perm ((partitionExpired mail name ttlMs now).2.1.map (name, ·)
        ++ storedIn (partitionExpired mail name ttlMs now).2.2.mailbox) := by
          rw [List.append_assoc]
          exact (partitionExpired_fresh mail name ttlMs now).symm.append_left _

/-- The other queues are not looked at. -/
theorem partitionExpired_delete (mail : Mail ν) (name : String) (ttlMs now : Int) :
    (partitionExpired mail name ttlMs now).2.2.mailbox.delete name = mail.mailbox.delete name := by
  simp only [partitionExpired]
  split
  · exact Map.delete_delete_self _ _
  · exact Map.delete_set_self _ _ _

/-- A queue replaced by a longer one, of which a front part goes. -/
theorem storedIn_cut (m : MailboxTable ν) (name : String) (queue : List (StoredMsg ν)) (n : Nat) :
    (queue.map (name, ·) ++ storedIn (m.delete name)).Perm
      ((queue.take n).map (name, ·) ++ storedIn (m.set name (queue.drop n))) := by
  have hcut : queue.map (name, ·) = (queue.take n).map (name, ·) ++ (queue.drop n).map (name, ·) := by
    rw [← List.map_append, List.take_append_drop]
  rw [hcut, List.append_assoc]
  exact (storedIn_set m name (queue.drop n)).symm.append_left _

/-- A message stored, and what went to make room for it. -/
theorem enqueueMailbox_perm (mail : Mail ν) (cfg : MeshConfig) (name : String) (msg : StoredMsg ν)
    (now : Int) :
    (storedIn mail.mailbox ++ [(name, msg)]).Perm
      ((enqueueMailbox mail cfg name msg now).1.map (name, ·)
        ++ storedIn (enqueueMailbox mail cfg name msg now).2.mailbox) := by
  have hperm := partitionExpired_perm mail name cfg.mailboxTtlMs now
  have hfresh := partitionExpired_fresh mail name cfg.mailboxTtlMs now
  have hdelete := partitionExpired_delete mail name cfg.mailboxTtlMs now
  simp only [enqueueMailbox]
  obtain ⟨fresh, dropped, mail', hpart⟩ : ∃ fresh dropped mail',
    partitionExpired mail name cfg.mailboxTtlMs now = (fresh, dropped, mail') := ⟨_, _, _, rfl⟩
  rw [hpart] at hperm hfresh hdelete ⊢
  have hpush : (storedIn mail'.mailbox ++ [(name, msg)]).Perm
      ((fresh ++ [msg]).map (name, ·) ++ storedIn (mail'.mailbox.delete name)) := by
    rw [hdelete, List.map_append, List.append_assoc]
    refine (hfresh.append_right _).trans ?_
    rw [List.append_assoc]
    exact List.perm_append_comm.append_left _
  have hcut := storedIn_cut mail'.mailbox name (fresh ++ [msg])
    ((fresh ++ [msg]).length - cfg.mailboxCap)
  rw [List.map_append, List.append_assoc]
  refine (hperm.append_right _).trans ?_
  rw [List.append_assoc]
  exact (hpush.trans hcut).append_left _

/-- A queue taken out, part of it to be delivered and part of it expired. -/
theorem flushMailbox_perm (mail : Mail ν) (cfg : MeshConfig) (name : String) (now : Int) :
    (storedIn mail.mailbox).Perm
      ((flushMailbox mail cfg name now).2.1.map (name, ·)
        ++ ((flushMailbox mail cfg name now).1.map (name, ·)
        ++ storedIn (flushMailbox mail cfg name now).2.2.mailbox)) := by
  have hdelete := partitionExpired_delete mail name cfg.mailboxTtlMs now
  refine (partitionExpired_perm mail name cfg.mailboxTtlMs now).trans (List.Perm.append_left _ ?_)
  simp only [flushMailbox, hdelete]
  exact partitionExpired_fresh mail name cfg.mailboxTtlMs now

/-- The purge takes out of the queues exactly what it returns. -/
theorem purgeAllExpired_perm (mail : Mail ν) (cfg : MeshConfig) (now : Int) :
    ∃ gone : List (String × StoredMsg ν),
      gone.map Prod.snd = (purgeAllExpired mail cfg now).1 ∧
      (storedIn mail.mailbox).Perm (gone ++ storedIn (purgeAllExpired mail cfg now).2.mailbox) := by
  unfold purgeAllExpired
  -- the loop has returned `acc.1` so far and left `acc.2`
  suffices h : ∀ (f : List (StoredMsg ν) × Mail ν → String → List (StoredMsg ν) × Mail ν),
      (∀ acc name, f acc name = (acc.1 ++ (partitionExpired acc.2 name cfg.mailboxTtlMs now).2.1,
        (partitionExpired acc.2 name cfg.mailboxTtlMs now).2.2)) →
      ∀ (keys : List String) (acc : List (StoredMsg ν) × Mail ν) (gone : List (String × StoredMsg ν)),
        gone.map Prod.snd = acc.1 → (storedIn mail.mailbox).Perm (gone ++ storedIn acc.2.mailbox) →
        ∃ gone' : List (String × StoredMsg ν), gone'.map Prod.snd = (keys.foldl f acc).1 ∧
          (storedIn mail.mailbox).Perm (gone' ++ storedIn (keys.foldl f acc).2.mailbox) from
    h _ (fun _ _ => rfl) _ ([], mail) [] rfl (.refl _)
  intro f hf keys
  induction keys with
  | nil => exact fun acc gone hgone hperm => ⟨gone, hgone, hperm⟩
  | cons name rest ih =>
      intro acc gone hgone hperm
      rw [List.foldl_cons, hf]
      refine ih _ (gone ++ (partitionExpired acc.2 name cfg.mailboxTtlMs now).2.1.map (name, ·)) ?_ ?_
      · simp [hgone]
      · rw [List.append_assoc]
        exact hperm.trans ((partitionExpired_perm acc.2 name cfg.mailboxTtlMs now).append_left _)

/-- Dropping counts what it returns. -/
theorem enqueueMailbox_dropped (mail : Mail ν) (cfg : MeshConfig) (name : String)
    (msg : StoredMsg ν) (now : Int) :
    (enqueueMailbox mail cfg name msg now).2.stats.mailboxDropped
        = mail.stats.mailboxDropped + (enqueueMailbox mail cfg name msg now).1.length ∧
      (enqueueMailbox mail cfg name msg now).2.stats.mailboxDelivered
        = mail.stats.mailboxDelivered := by
  refine ⟨?_, rfl⟩
  simp only [enqueueMailbox, partitionExpired, List.length_append, List.length_take]
  omega

theorem purgeAllExpired_dropped (mail : Mail ν) (cfg : MeshConfig) (now : Int) :
    (purgeAllExpired mail cfg now).2.stats.mailboxDropped
        = mail.stats.mailboxDropped + (purgeAllExpired mail cfg now).1.length ∧
      (purgeAllExpired mail cfg now).2.stats.mailboxDelivered = mail.stats.mailboxDelivered := by
  unfold purgeAllExpired
  refine List.foldlRecOn mail.mailbox.keys _ (motive := fun acc : List (StoredMsg ν) × Mail ν =>
    acc.2.stats.mailboxDropped = mail.stats.mailboxDropped + acc.1.length ∧
      acc.2.stats.mailboxDelivered = mail.stats.mailboxDelivered) ⟨rfl, rfl⟩ ?_
  intro acc ih name _
  simp only [partitionExpired, List.length_append]
  exact ⟨by omega, ih.2⟩

end Tables

end PiMesh
