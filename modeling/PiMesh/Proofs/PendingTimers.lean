/-
Each awaited reply is settled once.

The promise of a registration is resolved when its entry goes, and the entry goes with its
timers.  So a timer that is armed belongs to the live registration of its message, and a
callback that looks the message up finds its own registration.  A live registration has its
deadline armed, which bounds how long it lives; its reminders are due before that.
-/
import PiMesh.Client.PendingTimers

namespace PiMesh

open Js Transition

variable {ν : Type}

/-- What an event makes of the promise of a registration. -/
inductive Settling (s : TimedReplies ν) : PendingEvent ν → Nat → Resolution ν → Prop
  | reply {frame : Inbound ν} {msgId : String} {no : Nat} (hreply : frame.replyTo = some msgId)
      (hlive : s.entries.get? msgId = some no) : Settling s (.handleReply frame) no (.reply frame)
  | expired {t : PendingTimer} (hkind : t.kind = .deadline)
      (hlive : s.entries.get? t.msgId = some t.no) : Settling s (.fire t) t.no .expired
  | cancelled {msgId : String} {reason : CancelReason} {no : Nat}
      (hlive : s.entries.get? msgId = some no) : Settling s (.cancel msgId reason) no (.error reason)
  | all {msgId : String} {reason : CancelReason} {no : Nat}
      (hlive : s.entries.get? msgId = some no) : Settling s (.cancelAll reason) no (.error reason)
  | superseded {msgId : String} {expiresAt : Int} {launch : Bool} {no : Nat}
      (hlive : s.entries.get? msgId = some no) :
      Settling s (.register msgId expiresAt launch) no (.error .superseded)

/-- The deadline of a registration is armed, and its reminders are due before it. -/
def HasDeadline (armed : List PendingTimer) (no : Nat) : Prop :=
  ∃ d ∈ armed, d.no = no ∧ d.kind = .deadline ∧
    ∀ t ∈ armed, t.no = no → t.kind = .remind → t.due < d.due

structure PendingOk (s : TimedReplies ν) : Prop where
  known : ∀ msgId no, s.entries.get? msgId = some no → ∃ o, s.made[no]? = some o ∧ o.msgId = msgId
  armed : ∀ t ∈ s.armed, s.entries.get? t.msgId = some t.no
  deadline : ∀ msgId no, s.entries.get? msgId = some no → HasDeadline s.armed no
  once : (s.resolved.map Prod.fst).Nodup
  settled : ∀ no, no < s.made.length →
    (∃ msgId, s.entries.get? msgId = some no) ∨ no ∈ s.resolved.map Prod.fst
  live : ∀ msgId no, s.entries.get? msgId = some no → no ∉ s.resolved.map Prod.fst
  past : ∀ no ∈ s.resolved.map Prod.fst, no < s.made.length
  reminded : ∀ no, s.reminded.count no = ((s.made[no]?).map Registration.remindCount).getD 0
  bounded : ∀ no, s.reminded.count no ≤ maxReminds

namespace PendingOk

variable {s : TimedReplies ν} {msgId : String} {no : Nat}

/-- A registration is live for its own message only. -/
theorem unique (h : PendingOk s) {msgId' : String} (hlive : s.entries.get? msgId = some no)
    (hlive' : s.entries.get? msgId' = some no) : msgId = msgId' := by
  obtain ⟨o, ho, rfl⟩ := h.known msgId no hlive
  obtain ⟨o', ho', rfl⟩ := h.known msgId' no hlive'
  rw [Option.some.inj (ho.symm.trans ho')]

theorem lt_made (h : PendingOk s) (hlive : s.entries.get? msgId = some no) : no < s.made.length := by
  obtain ⟨o, ho, -⟩ := h.known msgId no hlive
  exact (List.getElem?_eq_some_iff.mp ho).1

/-- Timers go, but no deadline of a live registration. -/
theorem disarm (h : PendingOk s) (armed : List PendingTimer) (hsub : ∀ t ∈ armed, t ∈ s.armed)
    (hkept : ∀ d ∈ s.armed, d.kind = .deadline → s.entries.get? d.msgId = some d.no → d ∈ armed) :
    PendingOk { s with armed } where
  known := h.known
  armed t ht := h.armed t (hsub t ht)
  deadline msgId no hlive := by
    obtain ⟨d, hd, hno, hkind, hfirst⟩ := h.deadline msgId no hlive
    refine ⟨d, hkept d hd hkind (h.armed d hd), hno, hkind, fun t ht => ?_⟩
    exact hfirst t (hsub t ht)
  once := h.once
  settled := h.settled
  live := h.live
  past := h.past
  reminded := h.reminded
  bounded := h.bounded

/-- An entry goes. -/
theorem settle (h : PendingOk s) (hlive : s.entries.get? msgId = some no) (r : Resolution ν) :
    PendingOk (s.settle msgId no r) where
  known msgId' no' hlive' := by
    have hlive' : (s.entries.delete msgId).get? msgId' = some no' := hlive'
    rw [Map.get?_delete] at hlive'
    split at hlive'
    · cases hlive'
    · exact h.known msgId' no' hlive'
  armed t ht := by
    obtain ⟨ht, hother⟩ := List.mem_filter.mp ht
    have hother : t.no ≠ no := by simpa using hother
    show (s.entries.delete msgId).get? t.msgId = some t.no
    rw [Map.get?_delete_ne, h.armed t ht]
    intro heq
    have harmed := h.armed t ht
    rw [heq, hlive] at harmed
    exact hother (Option.some.inj harmed).symm
  deadline msgId' no' hlive' := by
    have hlive' : (s.entries.delete msgId).get? msgId' = some no' := hlive'
    rw [Map.get?_delete] at hlive'
    split at hlive'
    · cases hlive'
    · next hne =>
      have hno : no' ≠ no := fun heq => hne (h.unique hlive' (heq ▸ hlive))
      obtain ⟨d, hd, hdno, hkind, hfirst⟩ := h.deadline msgId' no' hlive'
      refine ⟨d, List.mem_filter.mpr ⟨hd, by simp [hdno, hno]⟩, hdno, hkind, fun t ht => ?_⟩
      exact hfirst t (List.mem_filter.mp ht).1
  once := by
    show ((s.resolved ++ [(no, r)]).map Prod.fst).Nodup
    rw [List.map_append, List.nodup_append]
    refine ⟨h.once, List.nodup_singleton _, ?_⟩
    intro a ha b hb heq
    rw [List.map_singleton, List.mem_singleton] at hb
    rw [heq, hb] at ha
    exact h.live msgId no hlive ha
  settled no' hno' := by
    show (∃ id, (s.entries.delete msgId).get? id = some no') ∨ no' ∈ (s.resolved ++ [(no, r)]).map Prod.fst
    rw [List.map_append, List.mem_append]
    rcases h.settled no' hno' with ⟨id, hid⟩ | hpast
    · by_cases heq : id = msgId
      · rw [heq, hlive] at hid
        exact .inr (.inr (by simp [Option.some.inj hid]))
      · exact .inl ⟨id, by rw [Map.get?_delete_ne _ heq]; exact hid⟩
    · exact .inr (.inl hpast)
  live msgId' no' hlive' := by
    have hlive' : (s.entries.delete msgId).get? msgId' = some no' := hlive'
    rw [Map.get?_delete] at hlive'
    split at hlive'
    · cases hlive'
    · next hne =>
      show no' ∉ (s.resolved ++ [(no, r)]).map Prod.fst
      rw [List.map_append, List.mem_append]
      rintro (hpast | hlast)
      · exact h.live msgId' no' hlive' hpast
      · rw [List.map_singleton, List.mem_singleton] at hlast
        exact hne (h.unique hlive' (hlast ▸ hlive))
  past no' hno' := by
    have hno' : no' ∈ (s.resolved ++ [(no, r)]).map Prod.fst := hno'
    rw [List.map_append, List.mem_append] at hno'
    rcases hno' with hno' | hno'
    · exact h.past no' hno'
    · rw [List.map_singleton, List.mem_singleton] at hno'
      rw [hno']
      exact h.lt_made hlive
  reminded := h.reminded
  bounded := h.bounded

end PendingOk

/-! ### What a step resolves -/

section Steps

variable {s s' : TimedReplies ν} {msgId : String} {no : Nat} {r : Resolution ν}

theorem mem_settle : (no, r) ∈ (s.settle msgId no' r').resolved ↔
    (no, r) ∈ s.resolved ∨ no = no' ∧ r = r' := by
  show (no, r) ∈ s.resolved ++ [(no', r')] ↔ _
  rw [List.mem_append, List.mem_singleton, Prod.mk.injEq]

theorem cancel_ok (h : PendingOk s) (msgId : String) (reason : CancelReason) :
    PendingOk (s.cancel msgId reason) := by
  unfold TimedReplies.cancel
  split
  · exact h
  · next no hlive => exact h.settle hlive _

theorem mem_cancel {reason : CancelReason} : (no, r) ∈ (s.cancel msgId reason).resolved ↔
    (no, r) ∈ s.resolved ∨ s.entries.get? msgId = some no ∧ r = .error reason := by
  unfold TimedReplies.cancel
  split
  · next hnone => simp [hnone]
  · next no' hlive =>
    rw [mem_settle, hlive, Option.some.injEq, eq_comm (a := no')]

theorem get?_cancel (s : TimedReplies ν) (msgId msgId' : String) (reason : CancelReason) :
    (s.cancel msgId reason).entries.get? msgId' =
      if msgId' = msgId then none else s.entries.get? msgId' := by
  unfold TimedReplies.cancel
  split
  · next hnone =>
    split
    · next heq => rw [heq, hnone]
    · rfl
  · exact Map.get?_delete ..

/-- The entries of a list of messages go, one after the other. -/
theorem foldl_cancel (reason : CancelReason) (ids : List String) (h : PendingOk s) :
    PendingOk (ids.foldl (fun s msgId => s.cancel msgId reason) s) ∧
      ∀ no r, (no, r) ∈ (ids.foldl (fun s msgId => s.cancel msgId reason) s).resolved ↔
        (no, r) ∈ s.resolved ∨ (∃ id ∈ ids, s.entries.get? id = some no) ∧ r = .error reason := by
  induction ids generalizing s with
  | nil => exact ⟨h, fun no r => by simp⟩
  | cons id ids ih =>
      obtain ⟨hok, hmem⟩ := ih (cancel_ok h id reason)
      refine ⟨hok, fun no r => ?_⟩
      rw [List.foldl_cons, hmem, mem_cancel, or_assoc]
      refine or_congr_right ?_
      constructor
      · rintro (⟨hlive, hr⟩ | ⟨⟨id', hid', hlive⟩, hr⟩)
        · exact ⟨⟨id, List.mem_cons_self, hlive⟩, hr⟩
        · rw [get?_cancel] at hlive
          split at hlive
          · cases hlive
          · exact ⟨⟨id', List.mem_cons_of_mem _ hid', hlive⟩, hr⟩
      · rintro ⟨⟨id', hid', hlive⟩, hr⟩
        by_cases heq : id' = id
        · exact .inl ⟨heq ▸ hlive, hr⟩
        · refine .inr ⟨⟨id', ?_, by rw [get?_cancel, if_neg heq]; exact hlive⟩, hr⟩
          exact (List.mem_cons.mp hid').resolve_left heq

/-! The timers of a new registration. -/

theorem mem_timersOf {now expiresAt : Int} {t : PendingTimer}
    (ht : t ∈ TimedReplies.timersOf no msgId now expiresAt) : t.no = no ∧ t.msgId = msgId := by
  unfold TimedReplies.timersOf at ht
  rcases List.mem_append.mp ht with ht | ht
  · obtain ⟨f, -, hf⟩ := List.mem_filterMap.mp ht
    dsimp only at hf
    split at hf
    · cases hf
    · rw [← Option.some.inj hf]
      exact ⟨rfl, rfl⟩
  · rw [List.mem_singleton.mp ht]
    exact ⟨rfl, rfl⟩

theorem timersOf_deadline (no : Nat) (msgId : String) (now expiresAt : Int) :
    HasDeadline (TimedReplies.timersOf no msgId now expiresAt) no := by
  unfold TimedReplies.timersOf
  refine ⟨_, List.mem_append_right _ (List.mem_singleton_self _), rfl, rfl, fun t ht _ hkind => ?_⟩
  rcases List.mem_append.mp ht with ht | ht
  · obtain ⟨f, -, hf⟩ := List.mem_filterMap.mp ht
    dsimp only at hf
    split at hf
    · cases hf
    · next hdelay =>
      rw [← Option.some.inj hf]
      have hlt := (not_or.mp hdelay).2
      exact add_lt_add_right (not_le.mp hlt) _
  · rw [List.mem_singleton.mp ht] at hkind
    cases hkind

/-- A registration starts, where none is live for its message. -/
theorem PendingOk.start (h : PendingOk s) (hnone : s.entries.get? msgId = none) (now expiresAt : Int)
    (launch : Bool) : PendingOk { s with
      made := s.made ++ [{ msgId, expiresAt, launch }]
      entries := s.entries.set msgId s.made.length
      armed := s.armed ++ TimedReplies.timersOf s.made.length msgId now expiresAt } where
  known id no hlive := by
    have hlive : (s.entries.set msgId s.made.length).get? id = some no := hlive
    rw [Map.get?_set] at hlive
    split at hlive
    · next heq =>
      rw [← Option.some.inj hlive, heq]
      exact ⟨{ msgId, expiresAt, launch }, by simp, rfl⟩
    · obtain ⟨o, ho, hmsgId⟩ := h.known id no hlive
      have hlt : no < s.made.length := (List.getElem?_eq_some_iff.mp ho).1
      exact ⟨o, by rw [List.getElem?_append_left hlt, ho], hmsgId⟩
  armed t ht := by
    show (s.entries.set msgId s.made.length).get? t.msgId = some t.no
    rcases List.mem_append.mp ht with ht | ht
    · have harmed := h.armed t ht
      rw [Map.get?_set_ne, harmed]
      intro heq
      rw [heq, hnone] at harmed
      cases harmed
    · obtain ⟨hno, hmsgId⟩ := mem_timersOf ht
      rw [hno, hmsgId, Map.get?_set_self]
  deadline id no hlive := by
    have hlive : (s.entries.set msgId s.made.length).get? id = some no := hlive
    rw [Map.get?_set] at hlive
    split at hlive
    · obtain rfl := Option.some.inj hlive
      obtain ⟨d, hd, hno, hkind, hfirst⟩ := timersOf_deadline s.made.length msgId now expiresAt
      refine ⟨d, List.mem_append_right _ hd, hno, hkind, fun t ht htno => ?_⟩
      rcases List.mem_append.mp ht with ht | ht
      · have hlt := h.lt_made (h.armed t ht)
        omega
      · exact hfirst t ht htno
    · have hlt := h.lt_made hlive
      obtain ⟨d, hd, hno, hkind, hfirst⟩ := h.deadline id no hlive
      refine ⟨d, List.mem_append_left _ hd, hno, hkind, fun t ht htno => ?_⟩
      rcases List.mem_append.mp ht with ht | ht
      · exact hfirst t ht htno
      · have := (mem_timersOf ht).1
        omega
  once := h.once
  settled no hno := by
    have hno : no < (s.made ++ [_]).length := hno
    rw [List.length_append, List.length_singleton] at hno
    show (∃ id, (s.entries.set msgId s.made.length).get? id = some no) ∨ no ∈ s.resolved.map Prod.fst
    by_cases hlast : no = s.made.length
    · exact .inl ⟨msgId, by rw [hlast, Map.get?_set_self]⟩
    · rcases h.settled no (by omega) with ⟨id, hid⟩ | hpast
      · refine .inl ⟨id, ?_⟩
        rw [Map.get?_set_ne, hid]
        intro heq
        rw [heq, hnone] at hid
        cases hid
      · exact .inr hpast
  live id no hlive := by
    have hlive : (s.entries.set msgId s.made.length).get? id = some no := hlive
    rw [Map.get?_set] at hlive
    split at hlive
    · intro hpast
      have := h.past no hpast
      have := Option.some.inj hlive
      omega
    · exact h.live id no hlive
  past no hno := by
    have := h.past no hno
    show no < (s.made ++ [_]).length
    rw [List.length_append]
    omega
  reminded no := by
    show s.reminded.count no = (((s.made ++ [_])[no]?).map Registration.remindCount).getD 0
    rw [h.reminded no]
    by_cases hlt : no < s.made.length
    · rw [List.getElem?_append_left hlt]
    · rw [List.getElem?_eq_none (by omega)]
      by_cases hlast : no = s.made.length
      · rw [hlast]
        simp
      · rw [List.getElem?_eq_none (by simp; omega)]
  bounded := h.bounded

theorem register_ok (h : PendingOk s) (now : Int) (msgId : String) (expiresAt : Int) (launch : Bool) :
    PendingOk (s.register now msgId expiresAt launch) :=
  (cancel_ok h msgId .superseded).start (by rw [get?_cancel, if_pos rfl]) now expiresAt launch

theorem handleReply_ok (h : PendingOk s) (frame : Inbound ν) : PendingOk (s.handleReply frame) := by
  unfold TimedReplies.handleReply
  split
  · exact ⟨h.known, h.armed, h.deadline, h.once, h.settled, h.live, h.past, h.reminded, h.bounded⟩
  · next id no hsome =>
    obtain ⟨id', -, hmap⟩ := Option.bind_eq_some_iff.mp hsome
    obtain ⟨no', hlive, heq⟩ := Option.map_eq_some_iff.mp hmap
    obtain ⟨rfl, rfl⟩ := Prod.mk.inj heq
    exact h.settle hlive _

theorem mem_handleReply {frame : Inbound ν} : (no, r) ∈ (s.handleReply frame).resolved ↔
    (no, r) ∈ s.resolved ∨ ∃ id, frame.replyTo = some id ∧ s.entries.get? id = some no ∧
      r = .reply frame := by
  unfold TimedReplies.handleReply
  split
  · next hnone =>
    refine ⟨.inl, fun h => h.resolve_right ?_⟩
    rintro ⟨id, hid, hlive, -⟩
    simp [hid, hlive] at hnone
  · next id no' hsome =>
    obtain ⟨id', hid', hmap⟩ := Option.bind_eq_some_iff.mp hsome
    obtain ⟨no'', hlive, heq⟩ := Option.map_eq_some_iff.mp hmap
    obtain ⟨rfl, rfl⟩ := Prod.mk.inj heq
    rw [mem_settle, hid']
    refine or_congr_right ⟨?_, ?_⟩
    · rintro ⟨rfl, rfl⟩
      exact ⟨id', rfl, hlive, rfl⟩
    · rintro ⟨id, hid, hlive', rfl⟩
      obtain rfl := Option.some.inj hid
      exact ⟨(Option.some.inj (hlive.symm.trans hlive')).symm, rfl⟩

/-- A reminder that fires is of a live registration. -/
theorem remind_ok (h : PendingOk s) {t : PendingTimer} (ht : t ∈ s.armed) (hkind : t.kind = .remind) :
    PendingOk ({ s with armed := s.armed.erase t }.callback t) := by
  have hleft : PendingOk { s with armed := s.armed.erase t } := by
    refine h.disarm _ (fun u hu => List.mem_of_mem_erase hu) fun d hd hdeadline _ => ?_
    refine (List.mem_erase_of_ne ?_).mpr hd
    rintro rfl
    rw [hkind] at hdeadline
    cases hdeadline
  unfold TimedReplies.callback
  rw [hkind]
  dsimp only
  split
  · exact hleft
  · split
    · exact hleft
    · next o ho =>
      have ho : s.made[t.no]? = some o := ho
      have hlt : t.no < s.made.length := (List.getElem?_eq_some_iff.mp ho).1
      split
      · exact hleft
      · next hmore =>
        have hmore : o.remindCount < maxReminds := Nat.lt_of_not_le hmore
        have hget : ∀ no, (s.made.set t.no { o with remindCount := o.remindCount + 1 })[no]? =
            if no = t.no then some { o with remindCount := o.remindCount + 1 } else s.made[no]? := by
          intro no
          by_cases heq : no = t.no
          · rw [if_pos heq, heq, List.getElem?_set_self hlt]
          · rw [if_neg heq, List.getElem?_set_ne (Ne.symm heq)]
        refine ⟨?_, hleft.armed, hleft.deadline, hleft.once, ?_, hleft.live, ?_, ?_, ?_⟩
        · intro id no hlive
          obtain ⟨o', ho', hmsgId⟩ := h.known id no hlive
          by_cases heq : no = t.no
          · rw [heq, ho] at ho'
            obtain rfl := Option.some.inj ho'
            exact ⟨_, (hget no).trans (if_pos heq), hmsgId⟩
          · exact ⟨o', ((hget no).trans (if_neg heq)).trans ho', hmsgId⟩
        · intro no hno
          have hno : no < (s.made.set t.no _).length := hno
          rw [List.length_set] at hno
          exact h.settled no hno
        · intro no hno
          show no < (s.made.set t.no _).length
          rw [List.length_set]
          exact h.past no hno
        · intro no
          show (s.reminded ++ [t.no]).count no = (((s.made.set t.no _)[no]?).map _).getD 0
          rw [hget, List.count_append, h.reminded no]
          by_cases heq : no = t.no
          · rw [if_pos heq, heq, ho]
            simp
          · rw [if_neg heq, List.count_singleton]
            simp [Ne.symm heq]
        · intro no
          show (s.reminded ++ [t.no]).count no ≤ maxReminds
          rw [List.count_append]
          by_cases heq : no = t.no
          · have hcount := h.reminded no
            rw [heq, ho] at hcount
            have hcount : s.reminded.count t.no = o.remindCount := hcount
            rw [heq, List.count_singleton_self]
            omega
          · have hzero : [t.no].count no = 0 := List.count_eq_zero.mpr (by simpa using heq)
            rw [hzero]
            exact h.bounded no

/-- A deadline that fires finds its registration. -/
theorem deadline_ok (h : PendingOk s) {t : PendingTimer} (ht : t ∈ s.armed)
    (hkind : t.kind = .deadline) :
    PendingOk ({ s with armed := s.armed.erase t }.callback t) ∧
      ∀ no r, (no, r) ∈ ({ s with armed := s.armed.erase t }.callback t).resolved ↔
        (no, r) ∈ s.resolved ∨ no = t.no ∧ r = .expired := by
  have hlive := h.armed t ht
  have hhas : s.entries.has t.msgId = true := by simp [Map.has, hlive]
  unfold TimedReplies.callback
  rw [hkind]
  dsimp only
  rw [if_pos hhas]
  refine ⟨?_, fun no r => mem_settle⟩
  have hsettled := h.settle hlive (.expired : Resolution ν)
  refine hsettled.disarm ((s.armed.erase t).filter fun u => u.no ≠ t.no) ?_ ?_
  · intro u hu
    obtain ⟨hu, hother⟩ := List.mem_filter.mp hu
    exact List.mem_filter.mpr ⟨List.mem_of_mem_erase hu, hother⟩
  · intro d hd _ _
    obtain ⟨hd, hother⟩ := List.mem_filter.mp hd
    refine List.mem_filter.mpr ⟨(List.mem_erase_of_ne ?_).mpr hd, hother⟩
    rintro rfl
    simp at hother

end Steps

section Runs

variable {s s' : TimedReplies ν} {x : Int × PendingEvent ν}

/-- **One step keeps the table in order, and resolves what it settles.** -/
theorem pendingStep_ok (h : PendingOk s) (hstep : PendingStep s x s') :
    PendingOk s' ∧ ∀ no r, (no, r) ∈ s'.resolved ↔ (no, r) ∈ s.resolved ∨ Settling s x.2 no r := by
  obtain ⟨now, e⟩ := x
  unfold PendingStep TimedReplies.step at hstep
  cases e with
  | register msgId expiresAt launch =>
      obtain rfl := Option.some.inj hstep
      refine ⟨register_ok h now msgId expiresAt launch, fun no r => ?_⟩
      refine (mem_cancel (s := s)).trans (or_congr_right ⟨?_, fun hs => ?_⟩)
      · rintro ⟨hlive, rfl⟩
        exact .superseded hlive
      · cases hs with
        | superseded hlive => exact ⟨hlive, rfl⟩
  | handleReply frame =>
      obtain rfl := Option.some.inj hstep
      refine ⟨handleReply_ok h frame, fun no r => ?_⟩
      refine mem_handleReply.trans (or_congr_right ⟨?_, fun hs => ?_⟩)
      · rintro ⟨id, hid, hlive, rfl⟩
        exact .reply hid hlive
      · cases hs with
        | reply hid hlive => exact ⟨_, hid, hlive, rfl⟩
  | cancel msgId reason =>
      obtain rfl := Option.some.inj hstep
      refine ⟨cancel_ok h msgId reason, fun no r => ?_⟩
      refine mem_cancel.trans (or_congr_right ⟨?_, fun hs => ?_⟩)
      · rintro ⟨hlive, rfl⟩
        exact .cancelled hlive
      · cases hs with
        | cancelled hlive => exact ⟨hlive, rfl⟩
  | cancelAll reason =>
      obtain rfl := Option.some.inj hstep
      obtain ⟨hok, hmem⟩ := foldl_cancel reason s.entries.keys h
      refine ⟨hok, fun no r => (hmem no r).trans (or_congr_right ⟨?_, fun hs => ?_⟩)⟩
      · rintro ⟨⟨id, -, hlive⟩, rfl⟩
        exact .all hlive
      · cases hs with
        | all hlive => exact ⟨⟨_, (Map.mem_keys_iff _ _).mpr ⟨_, hlive⟩, hlive⟩, rfl⟩
  | fire t =>
      dsimp only at hstep
      split at hstep
      · next ht =>
        obtain rfl := Option.some.inj hstep
        cases hkind : t.kind with
        | remind =>
            refine ⟨remind_ok h ht hkind, fun no r => ?_⟩
            have hsame : ({ s with armed := s.armed.erase t }.callback t).resolved = s.resolved := by
              unfold TimedReplies.callback
              rw [hkind]
              dsimp only
              split
              · rfl
              · split
                · rfl
                · split
                  · rfl
                  · rfl
            rw [hsame]
            refine ⟨.inl, fun hs => hs.resolve_right fun hs => ?_⟩
            cases hs with
            | expired hdeadline =>
                rw [hkind] at hdeadline
                cases hdeadline
        | deadline =>
            obtain ⟨hok, hmem⟩ := deadline_ok h ht hkind
            refine ⟨hok, fun no r => (hmem no r).trans (or_congr_right ⟨?_, fun hs => ?_⟩)⟩
            · rintro ⟨rfl, rfl⟩
              exact .expired hkind (h.armed t ht)
            · cases hs with
              | expired => exact ⟨rfl, rfl⟩
      · cases hstep

theorem pendingRun_ok {tr : List (TimedReplies ν × (Int × PendingEvent ν))}
    (hrun : Run PendingStep ({} : TimedReplies ν) tr s) : PendingOk s ∧
      ∀ no r, (no, r) ∈ s.resolved ↔ ∃ x ∈ tr, Settling x.1 x.2.2 no r := by
  refine hrun.along (P := fun tr s => PendingOk s ∧
    ∀ no r, (no, r) ∈ s.resolved ↔ ∃ x ∈ tr, Settling x.1 x.2.2 no r) (Meets.trivial tr) ?_ ?_
  · refine ⟨⟨fun _ _ hl => (by cases hl), fun _ ht => (by cases ht), fun _ _ hl => (by cases hl),
      .nil, fun _ hl => (by cases hl), fun _ _ hl => (by cases hl), fun _ hl => (by cases hl),
      fun _ => rfl, fun _ => Nat.zero_le _⟩, fun no r => ?_⟩
    simp
  · rintro tr s e s' - - ⟨hok, hmem⟩ - hstep
    obtain ⟨hok', hmem'⟩ := pendingStep_ok hok hstep
    refine ⟨hok', fun no r => ?_⟩
    rw [hmem', hmem]
    simp only [List.mem_append, List.mem_singleton, or_and_right, exists_or, exists_eq_left]

/-- A call of `onRemind` is for a live registration whose deadline is still to come. -/
theorem remind_live (h : PendingOk s) (hstep : PendingStep s x s') (hne : s'.reminded ≠ s.reminded) :
    ∃ t, x.2 = .fire t ∧ t.kind = .remind ∧ s'.reminded = s.reminded ++ [t.no] ∧
      s.entries.get? t.msgId = some t.no ∧ t.no ∉ s.resolved.map Prod.fst ∧
      ∃ d ∈ s.armed, d.no = t.no ∧ d.kind = .deadline ∧ t.due < d.due := by
  obtain ⟨now, e⟩ := x
  unfold PendingStep TimedReplies.step at hstep
  have hcancel : ∀ (s : TimedReplies ν) msgId reason, (s.cancel msgId reason).reminded = s.reminded := by
    intro s msgId reason
    unfold TimedReplies.cancel
    split
    · rfl
    · rfl
  cases e with
  | register msgId expiresAt launch =>
      obtain rfl := Option.some.inj hstep
      exact absurd (hcancel s msgId .superseded) hne
  | handleReply frame =>
      obtain rfl := Option.some.inj hstep
      refine absurd ?_ hne
      unfold TimedReplies.handleReply
      split
      · rfl
      · rfl
  | cancel msgId reason =>
      obtain rfl := Option.some.inj hstep
      exact absurd (hcancel s msgId reason) hne
  | cancelAll reason =>
      obtain rfl := Option.some.inj hstep
      have hfold : ∀ (ids : List String) (s : TimedReplies ν),
          (ids.foldl (fun s msgId => s.cancel msgId reason) s).reminded = s.reminded := by
        intro ids
        induction ids with
        | nil => exact fun s => rfl
        | cons id ids ih => exact fun s => (ih _).trans (hcancel s id reason)
      exact absurd (hfold _ s) hne
  | fire t =>
      dsimp only at hstep
      split at hstep
      · next ht =>
        obtain rfl := Option.some.inj hstep
        have hlive := h.armed t ht
        unfold TimedReplies.callback at hne ⊢
        cases hkind : t.kind with
        | deadline =>
            rw [hkind] at hne
            dsimp only at hne
            split at hne
            · exact absurd rfl hne
            · exact absurd rfl hne
        | remind =>
            rw [hkind] at hne
            dsimp only at hne ⊢
            refine ⟨t, rfl, hkind, ?_, hlive, h.live _ _ hlive, ?_⟩
            · split at hne
              · exact absurd rfl hne
              · next hhas =>
                rw [if_neg hhas]
                split at hne
                · exact absurd rfl hne
                · next o ho =>
                  split at hne
                  · exact absurd rfl hne
                  · next hmore => rw [if_neg hmore]
            · obtain ⟨d, hd, hno, hdeadline, hfirst⟩ := h.deadline _ _ hlive
              exact ⟨d, hd, hno, hdeadline, hfirst t ht rfl hkind⟩
      · cases hstep

end Runs

/-- **The promise of each registration is resolved once, by what settled it.** -/
theorem replies_settle_once {tr : List (TimedReplies ν × (Int × PendingEvent ν))}
    {s : TimedReplies ν} (hrun : Run PendingStep {} tr s) :
    -- resolved once, or live with its deadline armed
    (s.resolved.map Prod.fst).Nodup ∧
    (∀ no, no < s.made.length → (no ∈ s.resolved.map Prod.fst ↔
      ¬ ∃ msgId, s.entries.get? msgId = some no)) ∧
    (∀ msgId no, s.entries.get? msgId = some no → HasDeadline s.armed no) ∧
    (∀ no r, (no, r) ∈ s.resolved ↔ ∃ x ∈ tr, Settling x.1 x.2.2 no r) ∧
    -- every armed timer is one of the live registration
    (∀ t ∈ s.armed, s.entries.get? t.msgId = some t.no) ∧
    (∀ no, s.reminded.count no ≤ maxReminds) ∧
    ∀ x ∈ tr, ∀ s', PendingStep x.1 x.2 s' → s'.reminded ≠ x.1.reminded →
      ∃ t, x.2.2 = .fire t ∧ t.kind = .remind ∧ s'.reminded = x.1.reminded ++ [t.no] ∧
        x.1.entries.get? t.msgId = some t.no ∧ t.no ∉ x.1.resolved.map Prod.fst ∧
        ∃ d ∈ x.1.armed, d.no = t.no ∧ d.kind = .deadline ∧ t.due < d.due := by
  obtain ⟨h, hmem⟩ := pendingRun_ok hrun
  refine ⟨h.once, fun no hno => ⟨?_, ?_⟩, h.deadline, hmem, h.armed, h.bounded, ?_⟩
  · rintro hpast ⟨msgId, hlive⟩
    exact h.live msgId no hlive hpast
  · exact fun hnot => (h.settled no hno).resolve_left hnot
  · intro x hx s' hstep hne
    obtain ⟨tr₁, -, -, hrun₁⟩ := hrun.of_mem hx
    exact remind_live (pendingRun_ok hrun₁).1 hstep hne

/-- A message is registered again while it is awaited, and its second deadline fires. -/
theorem replies_settle_once_again : ∃ tr s, Run PendingStep ({} : TimedReplies Int) tr s ∧
    tr.map (fun x => x.2.1) = [0, 1, 5] ∧ s.resolved.map Prod.fst = [0, 1] ∧
    (∀ no, no < s.made.length → (no ∈ s.resolved.map Prod.fst ↔
      ¬ ∃ msgId, s.entries.get? msgId = some no)) := by
  have hfirst : PendingStep ({} : TimedReplies Int) (0, .register "m" 4 false) _ := rfl
  have hagain : PendingStep (TimedReplies.register {} 0 "m" 4 false)
    ((1, .register "m" 5 false) : Int × PendingEvent Int) _ := rfl
  have hfire : PendingStep (TimedReplies.register (TimedReplies.register {} 0 "m" 4 false) 1 "m" 5 false)
    ((5, .fire ⟨1, "m", .deadline, 5⟩) : Int × PendingEvent Int) _ := if_pos (by decide +kernel)
  have hrun := ((Run.nil.snoc hfirst).snoc hagain).snoc hfire
  exact ⟨_, _, hrun, rfl, by decide +kernel, (replies_settle_once hrun).2.1⟩

end PiMesh
