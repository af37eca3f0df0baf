/-
A task has one writer, and its fence only grows.

A history is any sequence of calls on the lease table, each with its own clock, and of
restarts, each of which reads the epoch file as the last one wrote it.  The clock may
answer anything at any time; nothing below asks it to move forward.

The invariant says where the fences are: the file holds the epoch of the table, every
lease in the table carries that epoch and a fence the counter has passed, and no lease
ever granted lies beyond the table's epoch and counter.  Two grants with the same epoch
and fence are therefore the same lease, and once a lease has left its place in the
table it cannot come back.
-/
import PiMesh.Broker.Lease
import PiMesh.Lib.Transition
import PiMesh.Broker.Reference
import Mathlib.Data.List.TakeWhile

namespace PiMesh

open Js Transition

/-! ### Reading the epoch file back -/

theorem isTrimmed_of_isDigit {c : Char} (h : c.isDigit = true) : isTrimmed c = false := by
  simp only [Char.isDigit, Bool.and_eq_true, decide_eq_true_eq] at h
  have h1 : 48 ≤ c.toNat := h.1
  have h2 : c.toNat ≤ 57 := h.2
  simp only [isTrimmed, Bool.or_eq_false_iff, Bool.and_eq_false_iff, beq_eq_false_iff_ne, ne_eq,
    decide_eq_false_iff_not, not_le]
  omega

theorem dropWhile_isTrimmed {l : List Char} (h : ∀ c ∈ l, c.isDigit = true) :
    l.dropWhile isTrimmed = l := by
  cases l with
  | nil => rfl
  | cons c rest =>
      rw [List.dropWhile_cons_of_neg]
      simp [isTrimmed_of_isDigit (h c (by simp))]

theorem trim_digits_newline {l : List Char} (h : ∀ c ∈ l, c.isDigit = true) (hne : l ≠ []) :
    trim (String.ofList (l ++ ['\n'])) = String.ofList l := by
  unfold trim
  have hfront : (l ++ ['\n']).dropWhile isTrimmed = l ++ ['\n'] := by
    cases l with
    | nil => exact absurd rfl hne
    | cons c rest =>
        rw [List.cons_append, List.dropWhile_cons_of_neg]
        simp [isTrimmed_of_isDigit (h c (by simp))]
  have hback : (l ++ ['\n']).reverse.dropWhile isTrimmed = l.reverse := by
    rw [List.reverse_append]
    show ('\n' :: l.reverse).dropWhile isTrimmed = l.reverse
    rw [List.dropWhile_cons_of_pos (by decide)]
    exact dropWhile_isTrimmed fun c hc => h c (List.mem_reverse.mp hc)
  rw [String.toList_ofList, hfront, hback, List.reverse_reverse]

/-- The file gives back the epoch that was written to it. -/
theorem readEpoch_epochText {epoch : Int} (h : 0 < epoch) :
    readEpoch (some (epochText epoch)) = epoch := by
  obtain ⟨n, rfl⟩ : ∃ n : Nat, epoch = n := ⟨epoch.toNat, by omega⟩
  have hdig : ∀ c ∈ Nat.toDigits 10 n, c.isDigit = true := toDigits_isDigit
  have hne : Nat.toDigits 10 n ≠ [] := by
    obtain ⟨c, r, hcr, -⟩ := toDigits_head_ne_zero n (by omega)
    rw [hcr]
    simp
  have hrun : (Nat.toDigits 10 n).takeWhile Char.isDigit = Nat.toDigits 10 n :=
    List.takeWhile_eq_self_iff.mpr hdig
  have hparse : parseInt (Nat.toDigits 10 n) = some (n : Int) := by
    unfold parseInt
    rw [dropWhile_isTrimmed hdig]
    split
    · next heq => exact absurd heq toDigits_ne_minus
    · next r heq => exact absurd (hdig '+' (by rw [heq]; simp)) (by decide)
    · rw [leadingDigits, hrun, if_neg (by simp), Nat.ofDigitChars_ten_toDigits]
      rfl
  have htext : trim (epochText (n : Int)) = String.ofList (Nat.toDigits 10 n) :=
    trim_digits_newline hdig hne
  simp only [readEpoch]
  rw [htext, String.toList_ofList, hparse]
  exact if_pos h

/-! ### Histories -/

/-- A broker's lease table, and the epoch file that outlives it. -/
structure LeaseWorld where
  file : Option String
  table : LeaseTable

inductive LeaseCall where
  | claim (clock : Nat → Int) (leaseId grantedAt task owner : String) (paths : List String)
      (ttlMs : Int)
  | release (clock : Nat → Int) (task owner leaseId : String)
  | get (clock : Nat → Int) (task : String)
  | verify (clock : Nat → Int) (task owner : String) (epoch : Int) (fence : Nat)
  | snapshot (clock : Nat → Int)
  /-- The broker is started again. -/
  | restart (now : Int)

inductive LeaseAnswer where
  | claimed (outcome : ClaimOutcome)
  | released (outcome : ReleaseOutcome)
  | got (lease : Option LeaseRecord)
  | verified (holds : Bool)
  | listed (leases : List LeaseRecord)
  | restarted

/-- A broker that starts on the file `file`. -/
def bootLeases (file : Option String) (now : Int) : LeaseWorld :=
  ⟨some (nextEpoch file now).2, { epoch := (nextEpoch file now).1 }⟩

/-- One call: its answer and what it leaves behind. -/
def callLeases (rt : Runtime) (w : LeaseWorld) : LeaseCall → LeaseAnswer × LeaseWorld
  | .claim clock leaseId grantedAt task owner paths ttlMs =>
      let (outcome, table) := w.table.claim clock leaseId grantedAt task owner paths ttlMs
      (.claimed outcome, { w with table })
  | .release clock task owner leaseId =>
      let (outcome, table) := w.table.release clock task owner leaseId
      (.released outcome, { w with table })
  | .get clock task =>
      let (lease, table) := w.table.get clock task
      (.got lease, { w with table })
  | .verify clock task owner epoch fence =>
      let (holds, table) := w.table.verify clock task owner epoch fence
      (.verified holds, { w with table })
  | .snapshot clock =>
      let (leases, table) := w.table.snapshot rt clock
      (.listed leases, { w with table })
  | .restart now => (.restarted, bootLeases w.file now)

/-- The calls of a history with their answers. -/
def LeaseStep (rt : Runtime) (w : LeaseWorld) (e : LeaseCall × LeaseAnswer) (w' : LeaseWorld) :
    Prop := callLeases rt w e.1 = (e.2, w')

theorem callLeases_step (rt : Runtime) (w : LeaseWorld) (c : LeaseCall) :
    LeaseStep rt w (c, (callLeases rt w c).1) (callLeases rt w c).2 := rfl

abbrev LeaseTrace := List (LeaseWorld × LeaseCall × LeaseAnswer)

/-- The lease a call handed out, fresh or reused. -/
def grantOf : LeaseAnswer → Option LeaseRecord
  | .claimed (.granted lease _) => some lease
  | _ => none

/-- The lease a call created. -/
def freshGrantOf : LeaseAnswer → Option LeaseRecord
  | .claimed (.granted lease false) => some lease
  | _ => none

/-- The leases created in a history, in order. -/
def freshGrants (tr : LeaseTrace) : List LeaseRecord := tr.filterMap fun x => freshGrantOf x.2.2

def Granted (tr : LeaseTrace) (lease : LeaseRecord) : Prop := ∃ x ∈ tr, grantOf x.2.2 = some lease

/-- `(epoch, fence)` in lexicographic order. -/
def Before (a b : Int × Nat) : Prop := a.1 < b.1 ∨ a.1 = b.1 ∧ a.2 < b.2

def LeaseRecord.stamp (l : LeaseRecord) : Int × Nat := (l.epoch, l.fence)

/-! ### What a call does to the table -/

namespace LeaseTable

variable {t : LeaseTable} {clock : Nat → Int} {task : String} {l : LeaseRecord}

/-- Pruning keeps a lease exactly if it is live at the reading made for it. -/
theorem prune_get?_iff : (t.prune clock).byTask.get? task = some l ↔
    ∃ i, t.byTask.entries[i]? = some (task, l) ∧ isLive (clock i) l = true := by
  have hdead : task ∈ ((t.byTask.entries.zipIdx.filter fun e =>
        !isLive (clock e.2) e.1.2).map fun e => e.1.1) ↔
      ∃ (l' : LeaseRecord) (i : Nat), t.byTask.entries[i]? = some (task, l') ∧
        isLive (clock i) l' = false := by
    simp only [List.mem_map, List.mem_filter, Prod.exists, List.mem_zipIdx_iff_getElem?,
      Bool.not_eq_true']
    constructor
    · rintro ⟨k, l', i, ⟨hi, hl⟩, rfl⟩
      exact ⟨l', i, hi, hl⟩
    · rintro ⟨l', i, hi, hl⟩
      exact ⟨task, l', i, ⟨hi, hl⟩, rfl⟩
  unfold prune
  rw [Map.get?_foldl_delete]
  constructor
  · intro h
    by_cases hd : task ∈ ((t.byTask.entries.zipIdx.filter fun e =>
        !isLive (clock e.2) e.1.2).map fun e => e.1.1)
    · rw [if_pos hd] at h
      simp at h
    · rw [if_neg hd] at h
      obtain ⟨i, hi⟩ := List.getElem?_of_mem ((Map.mem_entries_iff _ _ _).mpr h)
      refine ⟨i, hi, ?_⟩
      by_contra hlive
      exact hd (hdead.mpr ⟨l, i, hi, by simpa using hlive⟩)
  · rintro ⟨i, hi, hlive⟩
    rw [if_neg, ← Map.mem_entries_iff]
    · exact List.mem_of_getElem? hi
    · rintro hd
      obtain ⟨l', j, hj, hlive'⟩ := hdead.mp hd
      -- a task has one place in the map, so the dead entry is this one
      have hkeys : (t.byTask.entries.map Prod.fst)[i]? = (t.byTask.entries.map Prod.fst)[j]? := by
        rw [List.getElem?_map, List.getElem?_map, hi, hj]
        rfl
      have hlt : i < (t.byTask.entries.map Prod.fst).length := by
        rw [List.length_map]
        exact (List.getElem?_eq_some_iff.mp hi).1
      have hij : i = j := (List.getElem?_inj hlt t.byTask.nodup).mp hkeys
      subst hij
      rw [hi] at hj
      obtain ⟨-, rfl⟩ := Prod.mk.inj (Option.some.inj hj)
      rw [hlive] at hlive'
      cases hlive'

theorem prune_get? (h : (t.prune clock).byTask.get? task = some l) :
    t.byTask.get? task = some l := by
  obtain ⟨i, hi, -⟩ := prune_get?_iff.mp h
  exact (Map.mem_entries_iff _ _ _).mp (List.mem_of_getElem? hi)

/-- `get` answers with what is stored and live, and forgets at most the task it looked up. -/
theorem get_spec (t : LeaseTable) (clock : Nat → Int) (task : String) :
    (t.get clock task).2.epoch = t.epoch ∧ (t.get clock task).2.counter = t.counter ∧
      (∀ k r, (t.get clock task).2.byTask.get? k = some r → t.byTask.get? k = some r) ∧
      (t.get clock task).1 = (t.get clock task).2.byTask.get? task := by
  unfold get
  split
  · next h => exact ⟨rfl, rfl, fun _ _ hr => hr, h.symm⟩
  · next l h =>
      split
      · exact ⟨rfl, rfl, fun _ _ hr => hr, h.symm⟩
      · refine ⟨rfl, rfl, fun k r hr => ?_, (Map.get?_delete_self _ _).symm⟩
        rw [Map.get?_delete] at hr
        split at hr
        · simp at hr
        · exact hr

/-- A lease that verifies is the one stored for the task. -/
theorem verify_true {owner : String} {epoch : Int} {fence : Nat}
    (h : (t.verify clock task owner epoch fence).1 = true) :
    ∃ l, t.byTask.get? task = some l ∧ l.owner = owner ∧ l.epoch = epoch ∧ l.fence = fence := by
  obtain ⟨-, -, hsub, hget⟩ := t.get_spec clock task
  unfold verify at h
  split at h
  · simp at h
  · next l t' heq =>
      rw [heq] at hsub hget
      refine ⟨l, hsub _ _ hget.symm, ?_⟩
      simpa [and_assoc] using h

/-- A lease that does not verify is not the one stored for the task afterwards. -/
theorem verify_false (h : (t.verify clock l.task l.owner l.epoch l.fence).1 = false) :
    (t.verify clock l.task l.owner l.epoch l.fence).2.byTask.get? l.task ≠ some l := by
  obtain ⟨-, -, -, hget⟩ := t.get_spec clock l.task
  unfold verify at h ⊢
  split at h
  · next t' heq =>
      rw [heq] at hget
      show t'.byTask.get? l.task ≠ some l
      rw [← hget]
      simp
  · next l' t' heq =>
      rw [heq] at hget
      show t'.byTask.get? l.task ≠ some l
      rw [← hget]
      rintro hl
      obtain rfl := Option.some.inj hl
      simp at h

/-- A release takes the lease it answers with out of its place. -/
theorem release_released {owner leaseId : String}
    (h : (t.release clock task owner leaseId).1 = .released l) :
    t.byTask.get? task = some l ∧
      (t.release clock task owner leaseId).2.byTask.get? task = none := by
  obtain ⟨-, -, hsub, hget⟩ := t.get_spec clock task
  unfold release at h ⊢
  split at h
  · simp at h
  · next l' t' heq =>
      rw [heq] at hsub hget
      split at h
      · simp at h
      · next hcond =>
          obtain rfl := ReleaseOutcome.released.inj h
          refine ⟨hsub _ _ hget.symm, ?_⟩
          simp only [if_neg hcond]
          exact Map.get?_delete_self _ _

/-- A claim that is not refused for its arguments. -/
def Valid (task : String) (paths : List String) (ttlMs : Int) : Prop :=
  trim task ≠ "" ∧ paths ≠ [] ∧ minLeaseTtlMs ≤ ttlMs ∧ ttlMs ≤ maxLeaseTtlMs

/-- The three ways a claim can go: it is refused or finds a live lease, and the table is at
most pruned; or it creates a lease where pruning left none. -/
theorem claim_cases (t : LeaseTable) (clock : Nat → Int) (leaseId grantedAt task owner : String)
    (paths : List String) (ttlMs : Int) :
    (¬ Valid task paths ttlMs ∧ (∃ reason, (t.claim clock leaseId grantedAt task owner paths ttlMs).1
        = .invalid reason) ∧ (t.claim clock leaseId grantedAt task owner paths ttlMs).2 = t) ∨
    (Valid task paths ttlMs ∧ ∃ l, (t.prune clock).byTask.get? task = some l ∧
      (t.claim clock leaseId grantedAt task owner paths ttlMs)
        = (if l.owner = owner then .granted l true else .held l.owner, t.prune clock)) ∨
    (Valid task paths ttlMs ∧ (t.prune clock).byTask.get? task = none ∧ ∃ l : LeaseRecord,
      l.task = task ∧ l.owner = owner ∧ l.epoch = t.epoch ∧ l.fence = t.counter + 1 ∧
      (t.claim clock leaseId grantedAt task owner paths ttlMs)
        = (.granted l false, { epoch := t.epoch, byTask := (t.prune clock).byTask.set task l,
                               counter := t.counter + 1 })) := by
  unfold claim
  by_cases h1 : trim task = ""
  · rw [if_pos h1]
    exact .inl ⟨fun hv => hv.1 h1, ⟨_, rfl⟩, rfl⟩
  · rw [if_neg h1]
    by_cases h2 : paths.length = 0
    · rw [if_pos h2]
      exact .inl ⟨fun hv => hv.2.1 (List.length_eq_zero_iff.mp h2), ⟨_, rfl⟩, rfl⟩
    · rw [if_neg h2]
      by_cases h3 : ttlMs < minLeaseTtlMs ∨ ttlMs > maxLeaseTtlMs
      · rw [if_pos h3]
        refine .inl ⟨fun hv => ?_, ⟨_, rfl⟩, rfl⟩
        have := hv.2.2
        omega
      · rw [if_neg h3]
        have hv : Valid task paths ttlMs :=
          ⟨h1, fun hc => h2 (by rw [hc]; rfl), by omega, by omega⟩
        cases hl : (t.prune clock).byTask.get? task with
        | some l =>
            refine .inr (.inl ⟨hv, l, rfl, ?_⟩)
            by_cases ho : l.owner = owner
            · simp [hl, ho]
            · simp [hl, ho]
        | none =>
            refine .inr (.inr ⟨hv, rfl, ?_⟩)
            simp only [hl]
            exact ⟨_, rfl, rfl, rfl, rfl, rfl⟩

end LeaseTable

/-! ### The invariant -/

/-- A stamp the table has reached. -/
def Reached (t : LeaseTable) (stamp : Int × Nat) : Prop :=
  stamp.1 < t.epoch ∨ stamp.1 = t.epoch ∧ stamp.2 ≤ t.counter

/-- What one call can do: keep or forget leases, create one with the next fence, or start
over under the next epoch. -/
inductive LeaseChange (w : LeaseWorld) (ans : LeaseAnswer) (w' : LeaseWorld) : Prop
  | forgets (hfile : w'.file = w.file) (hepoch : w'.table.epoch = w.table.epoch)
      (hcounter : w'.table.counter = w.table.counter)
      (hsub : ∀ k r, w'.table.byTask.get? k = some r → w.table.byTask.get? k = some r)
      (hfresh : freshGrantOf ans = none)
      (hgrant : ∀ l, grantOf ans = some l → ∃ k, w.table.byTask.get? k = some l)
  | creates (l : LeaseRecord) (hans : ans = .claimed (.granted l false))
      (hfile : w'.file = w.file) (hepoch : w'.table.epoch = w.table.epoch)
      (hcounter : w'.table.counter = w.table.counter + 1)
      (hstamp : l.stamp = (w.table.epoch, w.table.counter + 1))
      (hsub : ∀ k r, w'.table.byTask.get? k = some r →
        k = l.task ∧ r = l ∨ w.table.byTask.get? k = some r)
  | restarts (now : Int) (hans : ans = .restarted) (hw : w' = bootLeases w.file now)

theorem leaseChange_of_step {rt : Runtime} {w w' : LeaseWorld} {c : LeaseCall} {ans : LeaseAnswer}
    (h : LeaseStep rt w (c, ans) w') : LeaseChange w ans w' := by
  cases c with
  | claim clock leaseId grantedAt task owner paths ttlMs =>
      simp only [LeaseStep, callLeases, Prod.mk.injEq] at h
      obtain ⟨rfl, rfl⟩ := h
      rcases w.table.claim_cases clock leaseId grantedAt task owner paths ttlMs with
        ⟨-, ⟨reason, hr⟩, ht⟩ | ⟨-, l, hl, hc⟩ | ⟨-, -, l, htask, -, hepoch, hfence, hc⟩
      · refine .forgets rfl (by rw [ht]) (by rw [ht]) (by rw [ht]; exact fun _ _ hk => hk) ?_ ?_
        · rw [hr]; rfl
        · rw [hr]; intro l hl; cases hl
      · rw [hc]
        refine .forgets rfl rfl rfl (fun k r hk => LeaseTable.prune_get? hk) ?_ ?_
        · by_cases ho : l.owner = owner <;> simp [ho, freshGrantOf]
        · intro l' hl'
          by_cases ho : l.owner = owner
          · rw [if_pos ho] at hl'
            obtain rfl := Option.some.inj hl'
            exact ⟨task, LeaseTable.prune_get? hl⟩
          · rw [if_neg ho] at hl'
            cases hl'
      · rw [hc]
        refine .creates l rfl rfl rfl rfl (by rw [LeaseRecord.stamp, hepoch, hfence]) ?_
        intro k r hk
        simp only [Map.get?_set] at hk
        by_cases hkt : k = task
        · rw [if_pos hkt] at hk
          exact .inl ⟨hkt.trans htask.symm, (Option.some.inj hk).symm⟩
        · rw [if_neg hkt] at hk
          exact .inr (LeaseTable.prune_get? hk)
  | release clock task owner leaseId =>
      simp only [LeaseStep, callLeases, Prod.mk.injEq] at h
      obtain ⟨rfl, rfl⟩ := h
      obtain ⟨hepoch, hcounter, hsub, -⟩ := w.table.get_spec clock task
      have hspec : (w.table.release clock task owner leaseId).2.epoch = w.table.epoch ∧
          (w.table.release clock task owner leaseId).2.counter = w.table.counter ∧
          ∀ k r, (w.table.release clock task owner leaseId).2.byTask.get? k = some r →
            w.table.byTask.get? k = some r := by
        unfold LeaseTable.release
        split
        · next heq => rw [heq] at hepoch hcounter hsub; exact ⟨hepoch, hcounter, hsub⟩
        · next heq =>
            rw [heq] at hepoch hcounter hsub
            split
            · exact ⟨hepoch, hcounter, hsub⟩
            · refine ⟨hepoch, hcounter, fun k r hk => hsub k r ?_⟩
              simp only [Map.get?_delete] at hk
              split at hk
              · simp at hk
              · exact hk
      exact .forgets rfl hspec.1 hspec.2.1 hspec.2.2 rfl (by intro l hl; cases hl)
  | get clock task =>
      simp only [LeaseStep, callLeases, Prod.mk.injEq] at h
      obtain ⟨rfl, rfl⟩ := h
      obtain ⟨hepoch, hcounter, hsub, -⟩ := w.table.get_spec clock task
      exact .forgets rfl hepoch hcounter hsub rfl (by intro l hl; cases hl)
  | verify clock task owner epoch fence =>
      simp only [LeaseStep, callLeases, Prod.mk.injEq] at h
      obtain ⟨rfl, rfl⟩ := h
      have htable : (w.table.verify clock task owner epoch fence).2 = (w.table.get clock task).2 := by
        unfold LeaseTable.verify
        split <;> next heq => rw [heq]
      obtain ⟨hepoch, hcounter, hsub, -⟩ := w.table.get_spec clock task
      rw [← htable] at hepoch hcounter hsub
      exact .forgets rfl hepoch hcounter hsub rfl (by intro l hl; cases hl)
  | snapshot clock =>
      simp only [LeaseStep, callLeases, Prod.mk.injEq] at h
      obtain ⟨rfl, rfl⟩ := h
      exact .forgets rfl rfl rfl (fun k r hk => LeaseTable.prune_get? hk) rfl
        (by intro l hl; cases hl)
  | restart now =>
      simp only [LeaseStep, callLeases, Prod.mk.injEq] at h
      obtain ⟨rfl, rfl⟩ := h
      exact .restarts now rfl rfl

structure LeaseInv (tr : LeaseTrace) (w : LeaseWorld) : Prop where
  file : w.file = some (epochText w.table.epoch)
  epoch_pos : 0 < w.table.epoch
  stored : ∀ k l, w.table.byTask.get? k = some l → Granted tr l ∧ l.task = k
  reached : ∀ l, Granted tr l → Reached w.table l.stamp
  unique : ∀ l l', Granted tr l → Granted tr l' → l.stamp = l'.stamp → l = l'
  sorted : (freshGrants tr).Pairwise fun a b => Before a.stamp b.stamp

theorem granted_of_freshGrants {tr : LeaseTrace} {l : LeaseRecord} (h : l ∈ freshGrants tr) :
    Granted tr l := by
  obtain ⟨x, hx, hl⟩ := List.mem_filterMap.mp h
  refine ⟨x, hx, ?_⟩
  unfold freshGrantOf at hl
  split at hl
  · next heq => rw [heq]; exact hl
  · cases hl

theorem granted_snoc {tr : LeaseTrace} {x : LeaseWorld × LeaseCall × LeaseAnswer} {l : LeaseRecord} :
    Granted (tr ++ [x]) l ↔ Granted tr l ∨ grantOf x.2.2 = some l := by
  unfold Granted
  simp only [List.mem_append, List.mem_singleton, or_and_right, exists_or, exists_eq_left]

theorem freshGrants_snoc (tr : LeaseTrace) (x : LeaseWorld × LeaseCall × LeaseAnswer) :
    freshGrants (tr ++ [x]) = freshGrants tr ++ (freshGrantOf x.2.2).toList := by
  unfold freshGrants
  rw [List.filterMap_append]
  cases h : freshGrantOf x.2.2 <;> simp [h]

theorem bootLeases_epoch_lt (file : Option String) (now : Int) :
    readEpoch file < (bootLeases file now).table.epoch := by
  show readEpoch file < max (readEpoch file + 1) now
  omega

theorem readEpoch_nonneg (file : Option String) : 0 ≤ readEpoch file := by
  unfold readEpoch
  split
  · exact le_rfl
  · split
    · split <;> omega
    · exact le_rfl

theorem leaseInv_boot (now : Int) : LeaseInv [] (bootLeases none now) where
  file := rfl
  epoch_pos := lt_of_le_of_lt (readEpoch_nonneg none) (bootLeases_epoch_lt none now)
  stored := by intro k l h; cases h
  reached := by rintro l ⟨x, hx, -⟩; cases hx
  unique := by rintro l l' ⟨x, hx, -⟩; cases hx
  sorted := List.Pairwise.nil

/-- A stamp one past the table's lies after every stamp the table has reached. -/
theorem before_next {t : LeaseTable} {stamp : Int × Nat} (h : Reached t stamp) :
    Before stamp (t.epoch, t.counter + 1) := by
  rcases h with h | ⟨he, hf⟩
  · exact .inl h
  · exact .inr ⟨he, by show stamp.2 < t.counter + 1; omega⟩

theorem before_irrefl (stamp : Int × Nat) : ¬ Before stamp stamp := by
  rintro (h | ⟨-, h⟩)
  · exact absurd h (lt_irrefl _)
  · exact absurd h (lt_irrefl _)

theorem leaseInv_step {rt : Runtime} {tr : LeaseTrace} {w w' : LeaseWorld}
    {e : LeaseCall × LeaseAnswer} (hinv : LeaseInv tr w) (hstep : LeaseStep rt w e w') :
    LeaseInv (tr ++ [(w, e)]) w' := by
  obtain ⟨c, ans⟩ := e
  cases leaseChange_of_step hstep with
  | forgets hfile hepoch hcounter hsub hfresh hgrant =>
      -- nothing new was handed out, so the history's grants are the same
      have hold : ∀ l, Granted (tr ++ [(w, c, ans)]) l → Granted tr l := by
        intro l hl
        rcases granted_snoc.mp hl with hl | hl
        · exact hl
        · obtain ⟨k, hk⟩ := hgrant l hl
          exact (hinv.stored k l hk).1
      refine ⟨by rw [hfile, hepoch]; exact hinv.file, by rw [hepoch]; exact hinv.epoch_pos,
        fun k l hk => ?_, fun l hl => ?_, fun l l' hl hl' => hinv.unique l l' (hold l hl) (hold l' hl'),
        ?_⟩
      · obtain ⟨hg, ht⟩ := hinv.stored k l (hsub k l hk)
        exact ⟨granted_snoc.mpr (.inl hg), ht⟩
      · have := hinv.reached l (hold l hl)
        unfold Reached at this ⊢
        rw [hepoch, hcounter]
        exact this
      · rw [freshGrants_snoc, hfresh, Option.toList_none, List.append_nil]
        exact hinv.sorted
  | creates l hans hfile hepoch hcounter hstamp hsub =>
      have hnew : ∀ l', Granted (tr ++ [(w, c, ans)]) l' → Granted tr l' ∨ l' = l := by
        intro l' hl'
        rcases granted_snoc.mp hl' with hl' | hl'
        · exact .inl hl'
        · rw [hans] at hl'
          exact .inr (Option.some.inj hl').symm
      have hbefore : ∀ l', Granted tr l' → Before l'.stamp l.stamp := fun l' hl' => by
        rw [hstamp]
        exact before_next (hinv.reached l' hl')
      refine ⟨by rw [hfile, hepoch]; exact hinv.file, by rw [hepoch]; exact hinv.epoch_pos,
        fun k r hk => ?_, fun l' hl' => ?_, fun a b ha hb hab => ?_, ?_⟩
      · rcases hsub k r hk with ⟨rfl, rfl⟩ | hk
        · exact ⟨granted_snoc.mpr (.inr (by rw [hans]; rfl)), rfl⟩
        · obtain ⟨hg, ht⟩ := hinv.stored k r hk
          exact ⟨granted_snoc.mpr (.inl hg), ht⟩
      · unfold Reached
        rw [hepoch, hcounter]
        rcases hnew l' hl' with hl' | rfl
        · rcases hinv.reached l' hl' with h | ⟨h, h'⟩
          · exact .inl h
          · exact .inr ⟨h, by omega⟩
        · rw [hstamp]
          exact .inr ⟨rfl, le_rfl⟩
      · rcases hnew a ha with ha | rfl <;> rcases hnew b hb with hb | rfl
        · exact hinv.unique a b ha hb hab
        · exact absurd (hab ▸ hbefore a ha) (before_irrefl _)
        · exact absurd (hab ▸ hbefore b hb) (before_irrefl _)
        · rfl
      · rw [freshGrants_snoc, hans, List.pairwise_append]
        refine ⟨hinv.sorted, List.pairwise_singleton _ _, fun a ha b hb => ?_⟩
        obtain rfl : b = l := by simpa [freshGrantOf] using hb
        exact hbefore a (granted_of_freshGrants ha)
  | restarts now hans hw =>
      have hold : ∀ l, Granted (tr ++ [(w, c, ans)]) l → Granted tr l := by
        intro l hl
        rcases granted_snoc.mp hl with hl | hl
        · exact hl
        · rw [hans] at hl
          cases hl
      -- the file was read back as written, so the new epoch is beyond the old one
      have hlt : w.table.epoch < w'.table.epoch := by
        have := bootLeases_epoch_lt w.file now
        rwa [← hw, hinv.file, readEpoch_epochText hinv.epoch_pos] at this
      refine ⟨by rw [hw]; rfl, lt_trans hinv.epoch_pos hlt, fun k l hk => ?_, fun l hl => .inl ?_,
        fun l l' hl hl' => hinv.unique l l' (hold l hl) (hold l' hl'), ?_⟩
      · rw [hw] at hk
        cases hk
      · rcases hinv.reached l (hold l hl) with h | ⟨h, -⟩
        · exact lt_trans h hlt
        · rw [h]
          exact hlt
      · rw [freshGrants_snoc, hans]
        simpa [freshGrantOf] using hinv.sorted

/-! ### A lease that is gone stays gone -/

/-- The lease is not in its place. -/
def Gone (w : LeaseWorld) (l : LeaseRecord) : Prop := w.table.byTask.get? l.task ≠ some l

/-- An event that ends a lease: it failed to verify, or it was released. -/
def EndsLease (l : LeaseRecord) (e : LeaseCall × LeaseAnswer) : Prop :=
  (∃ clock, e = (.verify clock l.task l.owner l.epoch l.fence, .verified false)) ∨
    e.2 = .released (.released l)

/-- A granted lease that a later event of the history ended. -/
def Ended (tr : LeaseTrace) (l : LeaseRecord) : Prop :=
  ∃ tr₁ w e tr₂, tr = tr₁ ++ (w, e) :: tr₂ ∧ Granted tr₁ l ∧ EndsLease l e

theorem gone_step {rt : Runtime} {tr : LeaseTrace} {w w' : LeaseWorld}
    {e : LeaseCall × LeaseAnswer} {l : LeaseRecord} (hinv : LeaseInv tr w) (hl : Granted tr l)
    (hstep : LeaseStep rt w e w') (hgone : Gone w l) : Gone w' l := by
  obtain ⟨c, ans⟩ := e
  intro hback
  cases leaseChange_of_step hstep with
  | forgets _ _ _ hsub => exact hgone (hsub _ _ hback)
  | creates l' _ _ _ _ hstamp hsub =>
      rcases hsub _ _ hback with ⟨-, rfl⟩ | hk
      · have := before_next (hinv.reached l hl)
        rw [← hstamp] at this
        exact before_irrefl _ this
      · exact hgone hk
  | restarts now _ hw =>
      rw [hw] at hback
      cases hback

theorem gone_of_ends {rt : Runtime} {tr : LeaseTrace} {w w' : LeaseWorld}
    {e : LeaseCall × LeaseAnswer} {l : LeaseRecord} (hinv : LeaseInv tr w)
    (hstep : LeaseStep rt w e w') (hends : EndsLease l e) : Gone w' l := by
  rcases hends with ⟨clock, rfl⟩ | hans
  · simp only [LeaseStep, callLeases, Prod.mk.injEq, LeaseAnswer.verified.injEq] at hstep
    obtain ⟨hfalse, rfl⟩ := hstep
    exact LeaseTable.verify_false hfalse
  · obtain ⟨c, ans⟩ := e
    obtain rfl : ans = .released (.released l) := hans
    cases c with
    | release clock task owner leaseId =>
        simp only [LeaseStep, callLeases, Prod.mk.injEq, LeaseAnswer.released.injEq] at hstep
        obtain ⟨hrel, rfl⟩ := hstep
        obtain ⟨hstored, hnone⟩ := LeaseTable.release_released hrel
        obtain ⟨-, rfl⟩ := hinv.stored _ _ hstored
        intro hback
        rw [hnone] at hback
        cases hback
    | claim => simp [LeaseStep, callLeases] at hstep
    | get => simp [LeaseStep, callLeases] at hstep
    | verify => simp [LeaseStep, callLeases] at hstep
    | snapshot => simp [LeaseStep, callLeases] at hstep
    | restart => simp [LeaseStep, callLeases] at hstep

theorem ended_snoc {tr : LeaseTrace} {w : LeaseWorld} {e : LeaseCall × LeaseAnswer}
    {l : LeaseRecord} (h : Ended (tr ++ [(w, e)]) l) : Ended tr l ∨ Granted tr l ∧ EndsLease l e := by
  obtain ⟨tr₁, w₁, e₁, tr₂, htr, hg, he⟩ := h
  rcases List.eq_nil_or_concat tr₂ with rfl | ⟨tr₃, y, rfl⟩
  · obtain ⟨rfl, hx⟩ := List.append_inj' htr rfl
    obtain ⟨-, rfl⟩ := Prod.mk.inj (List.cons.inj hx).1
    exact .inr ⟨hg, he⟩
  · rw [List.concat_eq_append, ← List.cons_append, ← List.append_assoc] at htr
    obtain ⟨rfl, -⟩ := List.append_inj' htr rfl
    exact .inl ⟨tr₁, w₁, e₁, tr₃, rfl, hg, he⟩

theorem granted_of_ended {tr : LeaseTrace} {l : LeaseRecord} (h : Ended tr l) : Granted tr l := by
  obtain ⟨tr₁, w, e, tr₂, rfl, ⟨x, hx, hl⟩, -⟩ := h
  exact ⟨x, List.mem_append_left _ hx, hl⟩

/-- Every history keeps the invariant, and an ended lease out of the table. -/
theorem leaseInv_run {rt : Runtime} {now : Int} {tr : LeaseTrace} {w : LeaseWorld}
    (h : Run (LeaseStep rt) (bootLeases none now) tr w) :
    LeaseInv tr w ∧ ∀ l, Ended tr l → Gone w l := by
  refine h.along (P := fun tr w => LeaseInv tr w ∧ ∀ l, Ended tr l → Gone w l) (Meets.trivial tr)
    ⟨leaseInv_boot now, ?_⟩ ?_
  · rintro l ⟨tr₁, w, e, tr₂, htr, -⟩
    simp at htr
  · rintro tr w e w' - - ⟨hinv, hgone⟩ - hstep
    refine ⟨leaseInv_step hinv hstep, fun l hl => ?_⟩
    rcases ended_snoc hl with hl | ⟨-, he⟩
    · exact gone_step hinv (granted_of_ended hl) hstep (hgone l hl)
    · exact gone_of_ends hinv hstep he

/-- **One writer, one fence.**  At every moment of every history: at most one owner, epoch
and fence verifies for a task; the leases created so far have strictly increasing epochs
and fences; a granted lease that failed to verify or was released does not verify; a claim
is granted over another owner's lease only if that lease is not live at the reading made
for it, and the holder of a live lease is given the same lease again. -/
theorem leases_single_writer {rt : Runtime} {now : Int} {tr : LeaseTrace} {w : LeaseWorld}
    (h : Run (LeaseStep rt) (bootLeases none now) tr w) :
    (∀ task clock owner epoch fence clock' owner' epoch' fence',
      (w.table.verify clock task owner epoch fence).1 = true →
      (w.table.verify clock' task owner' epoch' fence').1 = true →
      (owner, epoch, fence) = (owner', epoch', fence')) ∧
    (freshGrants tr).Pairwise (fun a b => Before (a.epoch, a.fence) (b.epoch, b.fence)) ∧
    (∀ l, Ended tr l → ∀ clock, (w.table.verify clock l.task l.owner l.epoch l.fence).1 = false) ∧
    (∀ clock leaseId grantedAt task owner paths ttlMs l,
      (∀ lease reused, w.table.byTask.get? task = some l → l.owner ≠ owner →
        (w.table.claim clock leaseId grantedAt task owner paths ttlMs).1 = .granted lease reused →
        ∃ i, w.table.byTask.entries[i]? = some (task, l) ∧
          LeaseTable.isLive (clock i) l = false) ∧
      (∀ i, w.table.byTask.entries[i]? = some (task, l) → LeaseTable.isLive (clock i) l = true →
        l.owner = owner → LeaseTable.Valid task paths ttlMs →
        (w.table.claim clock leaseId grantedAt task owner paths ttlMs).1 = .granted l true)) := by
  obtain ⟨hinv, hended⟩ := leaseInv_run h
  refine ⟨?_, hinv.sorted, ?_, ?_⟩
  · intro task clock owner epoch fence clock' owner' epoch' fence' hv hv'
    obtain ⟨l, hl, rfl, rfl, rfl⟩ := LeaseTable.verify_true hv
    obtain ⟨l', hl', rfl, rfl, rfl⟩ := LeaseTable.verify_true hv'
    rw [hl] at hl'
    obtain rfl := Option.some.inj hl'
    rfl
  · intro l hl clock
    by_contra hv
    rw [Bool.not_eq_false] at hv
    obtain ⟨l', hl', -, hepoch, hfence⟩ := LeaseTable.verify_true hv
    have hsame : l' = l := hinv.unique l' l (hinv.stored _ _ hl').1 (granted_of_ended hl)
      (by rw [LeaseRecord.stamp, LeaseRecord.stamp, hepoch, hfence])
    subst hsame
    exact hended _ hl hl'
  · intro clock leaseId grantedAt task owner paths ttlMs l
    have hcases := w.table.claim_cases clock leaseId grantedAt task owner paths ttlMs
    constructor
    · intro lease reused hl howner hans
      rcases hcases with ⟨-, ⟨reason, hr⟩, -⟩ | ⟨-, l', hl', hc⟩ | ⟨-, hnone, -⟩
      · rw [hr] at hans
        cases hans
      · have hsame := LeaseTable.prune_get? hl'
        rw [hl] at hsame
        obtain rfl := Option.some.inj hsame
        rw [hc, if_neg howner] at hans
        cases hans
      · obtain ⟨i, hi⟩ := List.getElem?_of_mem ((Map.mem_entries_iff _ _ _).mpr hl)
        refine ⟨i, hi, ?_⟩
        by_contra hlive
        have := LeaseTable.prune_get?_iff.mpr ⟨i, hi, by simpa using hlive⟩
        rw [hnone] at this
        cases this
    · intro i hi hlive howner hvalid
      have hstays := LeaseTable.prune_get?_iff.mpr ⟨i, hi, hlive⟩
      rcases hcases with ⟨hno, -⟩ | ⟨-, l', hl', hc⟩ | ⟨-, hnone, -⟩
      · exact absurd hvalid hno
      · rw [hstays] at hl'
        obtain rfl := Option.some.inj hl'
        rw [hc, if_pos howner]
      · rw [hstays] at hnone
        cases hnone

/-- A lease of one minute that fails to verify after it has run out. -/
theorem leases_single_writer_expired :
    ∃ (tr : LeaseTrace) (w : LeaseWorld) (l : LeaseRecord),
      Run (LeaseStep referenceRuntime) (bootLeases none 1704067200000) tr w ∧
      freshGrants tr = [l] ∧ Ended tr l ∧
      ∀ clock, (w.table.verify clock l.task l.owner l.epoch l.fence).1 = false := by
  let w₀ := bootLeases none 1704067200000
  let claim : LeaseCall := .claim (fun _ => 1704067200000) "m_lqulw000_00000000"
    "2024-01-01T00:00:00.000Z" "docs" "alice" ["README.md"] 60000
  let w₁ := (callLeases referenceRuntime w₀ claim).2
  let verify : LeaseCall := .verify (fun _ => 1704067260000) "docs" "alice" 1704067200000 1
  let l : LeaseRecord := ⟨"m_lqulw000_00000000", "docs", "alice", ["README.md"], 1, 1704067200000,
    "2024-01-01T00:00:00.000Z", 1704067260000⟩
  have hclaim : LeaseStep referenceRuntime w₀ (claim, .claimed (.granted l false)) w₁ := rfl
  have hrun := Run.snoc (Run.snoc Run.nil hclaim)
    (callLeases_step referenceRuntime w₁ verify)
  have hended : Ended _ l :=
    ⟨[(w₀, claim, .claimed (.granted l false))], w₁, (verify, .verified false), [], rfl,
      ⟨_, List.mem_singleton.mpr rfl, rfl⟩, .inl ⟨_, rfl⟩⟩
  exact ⟨_, _, l, hrun, rfl, hended, (leases_single_writer hrun).2.2.1 l hended⟩

end PiMesh
