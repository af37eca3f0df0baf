/-
What the injection guard forgets.

The guard has one place.  A batch that is noted while it is taken pushes out the batch that
was there, and one that is noted by an idle session empties it; and a copy that is refused is
gone as well.  In a run where none of this happens every batch is kept until it is known to
have been read, or has been sent again.

How often it is sent again is counted by its frames, and counts are dropped: the bound holds
as long as no batch is noted again whose count was.
-/
import PiMesh.Extension.InjectionGuard

namespace PiMesh

open Js Transition

variable {ν : Type} [Number ν]

namespace GuardedSession

/-! ### What the result speaks of -/

/-- The guard holds the batch. -/
def Tracks (st : GuardedSession ν) (no : Nat) : Prop :=
  ∃ u, st.injectionGuard.unconfirmed = some u ∧ u.no = no

/-- A turn ended normally long enough after the batch was sent, or the batch was sent again. -/
def Resolved (t : InjectionGuardTuning) (no : Nat) (sentAt : Int) (acts : List (GuardAct ν)) : Prop :=
  (∃ stopReason now, .turnEnded stopReason now ∈ acts ∧ InjectionGuard.wasCut stopReason = false ∧
    now - sentAt ≥ t.confirmAfterMs) ∨
  ∃ frames tries, .resent no frames tries true ∈ acts

/-- Every batch that was noted while a turn was running is kept, or is resolved since. -/
def Kept (t : InjectionGuardTuning) (st : GuardedSession ν) : Prop :=
  ∀ before no frames sentAt after, st.acts = before ++ .noted no frames true sentAt :: after →
    st.Tracks no ∨ Resolved t no sentAt after

/-- The act is a copy of the batch with this key. -/
def copies (key : String) : GuardAct ν → Bool
  | .resent _ frames _ _ => decide (batchKey frames = key)
  | _ => false

/-- How often a batch was sent again. -/
def resends (st : GuardedSession ν) (key : String) : Nat := st.acts.countP (copies key)

/-- No batch was sent again too often. -/
def Bounded (t : InjectionGuardTuning) (st : GuardedSession ν) : Prop :=
  ∀ key, st.resends key ≤ t.maxTries

/-- The guard hands its batch over. -/
def takes (t : InjectionGuardTuning) (st : GuardedSession ν) : Bool :=
  st.injectionGuard.unconfirmed.any fun u => decide (u.tries < t.maxTries)

/-- No batch is noted while another one is kept, and no copy is refused. -/
def keepsPlace (t : InjectionGuardTuning) (st : GuardedSession ν) : GuardView × GuardEvent ν → Bool
  | (_, .batch _ _ _) => st.injectionGuard.unconfirmed.isNone
  | (v, .resendTimer) => v.accepts || !st.takes t
  | (v, .agentSettled) => v.accepts || decide (st.injectionGuard.onSettled t v.now ≠ .resend)
  | _ => true

/-- No batch is noted again whose count was dropped. -/
def keepsCount (st : GuardedSession ν) : GuardView × GuardEvent ν → Bool
  | (_, .batch frames _ true) => decide (st.resends (batchKey frames) = 0) ||
      st.injectionGuard.triesByKey.has (batchKey frames)
  | _ => true

/-! ### What a step does -/

section Steps

variable {t : InjectionGuardTuning} {v : GuardView} {st st' : GuardedSession ν}

theorem takes_iff : st.takes t = true ↔
    ∃ u, st.injectionGuard.unconfirmed = some u ∧ u.tries < t.maxTries := by
  unfold takes
  cases st.injectionGuard.unconfirmed with
  | none => simp
  | some u => simp

theorem resend_nothing (st : GuardedSession ν) (h : st.takes t = false) : st.resend t v = st := by
  unfold resend InjectionGuard.takeForResend
  unfold takes at h
  cases hu : st.injectionGuard.unconfirmed with
  | none => rfl
  | some u =>
      rw [hu] at h
      have hfull : u.tries ≥ t.maxTries := by simpa using h
      simp only [if_pos hfull]

/-- The guard after it has handed its batch over. -/
def handedOver (st : GuardedSession ν) (u : Unconfirmed ν) : InjectionGuard ν where
  unconfirmed := none
  triesByKey := InjectionGuard.dropOldest (st.injectionGuard.triesByKey.set u.key (u.tries + 1))

theorem resend_batch (st : GuardedSession ν) {u : Unconfirmed ν} (hu : st.injectionGuard.unconfirmed = some u)
    (htries : u.tries < t.maxTries) : st.resend t v = { st with
      injectionGuard := st.handedOver u
      acts := st.acts ++ [.resent u.no u.frames (u.tries + 1) v.accepts] } := by
  unfold resend InjectionGuard.takeForResend
  rw [hu]
  simp only [if_neg (Nat.not_le.mpr htries)]
  rfl

/-- Where the settled session sends a copy, there is a batch to send. -/
theorem takes_of_settled (h : st.injectionGuard.onSettled t v.now = .resend) :
    st.takes t = true := by
  unfold InjectionGuard.onSettled at h
  rw [takes_iff]
  cases hu : st.injectionGuard.unconfirmed with
  | none =>
      rw [hu] at h
      cases h
  | some u =>
      rw [hu] at h
      dsimp only at h
      refine ⟨u, rfl, ?_⟩
      by_cases hearly : v.now - u.sentAt < t.settledGraceMs
      · rw [if_pos hearly] at h
        cases h
      · rw [if_neg hearly] at h
        by_cases htries : u.tries < t.maxTries
        · exact htries
        · rw [if_neg htries] at h
          cases h

/-- A turn that ends confirms the batch, or leaves the guard as it is. -/
theorem onTurnEnd_cases (t : InjectionGuardTuning) (g : InjectionGuard ν) (stopReason : Option String)
    (now : Int) : ((g.onTurnEnd t stopReason now).2 = g ∧ ∀ u, g.unconfirmed = some u →
        InjectionGuard.wasCut stopReason = false → now - u.sentAt < t.confirmAfterMs) ∨
      ∃ u, g.unconfirmed = some u ∧ InjectionGuard.wasCut stopReason = false ∧
        now - u.sentAt ≥ t.confirmAfterMs ∧
        g.onTurnEnd t stopReason now = (.confirmed, { g with unconfirmed := none }) := by
  unfold InjectionGuard.onTurnEnd
  cases hu : g.unconfirmed with
  | none => exact .inl ⟨rfl, fun u hc => by cases hc⟩
  | some u =>
      dsimp only
      by_cases hcut : InjectionGuard.wasCut stopReason = true
      · rw [if_pos hcut]
        exact .inl ⟨rfl, fun _ _ hc => absurd hc (by simp [hcut])⟩
      · rw [if_neg hcut]
        by_cases hold : now - u.sentAt ≥ t.confirmAfterMs
        · rw [if_pos hold]
          exact .inr ⟨u, rfl, by simpa using hcut, hold, rfl⟩
        · rw [if_neg hold]
          refine .inl ⟨rfl, fun u' hu' _ => ?_⟩
          obtain rfl := Option.some.inj hu'
          omega

/-- What one event does to the guard and to the record. -/
inductive Stepped (t : InjectionGuardTuning) (st : GuardedSession ν) :
    GuardView × GuardEvent ν → GuardedSession ν → Prop
  | noted (v : GuardView) (frames : List (Members ν)) (deliverAs : DeliverAs) (busyAtSend : Bool) :
      Stepped t st (v, .batch frames deliverAs busyAtSend) { st with
        injectionGuard := st.injectionGuard.note st.notes frames deliverAs busyAtSend v.now
        notes := st.notes + 1
        acts := st.acts ++ [.noted st.notes frames busyAtSend v.now] }
  | confirmed (v : GuardView) (stopReason : Option String) (u : Unconfirmed ν)
      (hu : st.injectionGuard.unconfirmed = some u) (hcut : InjectionGuard.wasCut stopReason = false)
      (hold : v.now - u.sentAt ≥ t.confirmAfterMs) :
      Stepped t st (v, .turnEnd stopReason) { st with
        injectionGuard := { st.injectionGuard with unconfirmed := none }
        acts := st.acts ++ [.turnEnded stopReason v.now] }
  | ended (v : GuardView) (stopReason : Option String) (timers : Nat)
      (hstays : ∀ u, st.injectionGuard.unconfirmed = some u →
        InjectionGuard.wasCut stopReason = false → v.now - u.sentAt < t.confirmAfterMs) :
      Stepped t st (v, .turnEnd stopReason) { st with
        timers
        acts := st.acts ++ [.turnEnded stopReason v.now] }
  | resent (v : GuardView) (e : GuardEvent ν) (timers : Nat) (u : Unconfirmed ν)
      (hevent : e = .resendTimer ∨ e = .agentSettled ∧ st.injectionGuard.onSettled t v.now = .resend)
      (hu : st.injectionGuard.unconfirmed = some u) (htries : u.tries < t.maxTries) :
      Stepped t st (v, e) { st with
        timers
        injectionGuard := st.handedOver u
        acts := st.acts ++ [.resent u.no u.frames (u.tries + 1) v.accepts] }
  | nothing (v : GuardView) (e : GuardEvent ν) (timers : Nat)
      (hevent : e = .resendTimer ∧ st.takes t = false ∨
        e = .agentSettled ∧ st.injectionGuard.onSettled t v.now ≠ .resend) :
      Stepped t st (v, e) { st with timers }

theorem stepped_of_step {e : GuardView × GuardEvent ν} (hs : GuardStep t st e st') :
    Stepped t st e st' := by
  obtain ⟨v, e⟩ := e
  unfold GuardStep step at hs
  cases e with
  | batch frames deliverAs busyAtSend =>
      obtain rfl := Option.some.inj hs
      exact .noted v frames deliverAs busyAtSend
  | turnEnd stopReason =>
      have hcases := onTurnEnd_cases t st.injectionGuard stopReason v.now
      dsimp only at hs
      generalize st.injectionGuard.onTurnEnd t stopReason v.now = d at hs hcases
      obtain rfl := Option.some.inj hs
      rcases hcases with ⟨hsame, hstays⟩ | ⟨u, hu, hcut, hold, rfl⟩
      · rw [hsame]
        exact .ended v stopReason _ hstays
      · exact .confirmed v stopReason u hu hcut hold
  | resendTimer =>
      dsimp only at hs
      by_cases htimers : st.timers = 0
      · rw [if_pos htimers] at hs
        cases hs
      · rw [if_neg htimers] at hs
        obtain rfl := Option.some.inj hs
        by_cases htakes : st.takes t = true
        · obtain ⟨u, hu, htries⟩ := takes_iff.mp htakes
          rw [resend_batch { st with timers := st.timers - 1 } hu htries]
          exact .resent v .resendTimer (st.timers - 1) u (.inl rfl) hu htries
        · have htakes : st.takes t = false := by simpa using htakes
          rw [resend_nothing { st with timers := st.timers - 1 } htakes]
          exact .nothing v .resendTimer (st.timers - 1) (.inl ⟨rfl, htakes⟩)
  | agentSettled =>
      dsimp only at hs
      by_cases hsettled : st.injectionGuard.onSettled t v.now = .resend
      · rw [if_pos hsettled] at hs
        obtain rfl := Option.some.inj hs
        obtain ⟨u, hu, htries⟩ := takes_iff.mp (takes_of_settled hsettled)
        rw [resend_batch st hu htries]
        exact .resent v .agentSettled st.timers u (.inr ⟨rfl, hsettled⟩) hu htries
      · rw [if_neg hsettled] at hs
        obtain rfl := Option.some.inj hs
        exact .nothing v .agentSettled st.timers (.inr ⟨rfl, hsettled⟩)

end Steps

/-! ### The batch that is kept -/

section Place

variable {t : InjectionGuardTuning} {st st' : GuardedSession ν} {e : GuardView × GuardEvent ν}

theorem Resolved.mono {no : Nat} {sentAt : Int} {acts : List (GuardAct ν)}
    (h : Resolved t no sentAt acts) (more : List (GuardAct ν)) :
    Resolved t no sentAt (acts ++ more) := by
  rcases h with ⟨stopReason, now, hmem, hcut, hold⟩ | ⟨frames, tries, hmem⟩
  · exact .inl ⟨stopReason, now, List.mem_append_left _ hmem, hcut, hold⟩
  · exact .inr ⟨frames, tries, List.mem_append_left _ hmem⟩

theorem not_resolved_nil (no : Nat) (sentAt : Int) :
    ¬ Resolved t no sentAt ([] : List (GuardAct ν)) := by
  rintro (⟨_, _, hmem, -⟩ | ⟨_, _, hmem⟩)
  · cases hmem
  · cases hmem

/-- The last entry of the record resolves the batch, or it was resolved before. -/
theorem resolved_snoc {no : Nat} {sentAt : Int} {acts : List (GuardAct ν)} {a : GuardAct ν}
    (h : Resolved t no sentAt (acts ++ [a])) :
    Resolved t no sentAt acts ∨ Resolved t no sentAt [a] := by
  rcases h with ⟨stopReason, now, hmem, hrest⟩ | ⟨frames, tries, hmem⟩
  · rcases List.mem_append.mp hmem with hmem | hmem
    · exact .inl (.inl ⟨stopReason, now, hmem, hrest⟩)
    · exact .inr (.inl ⟨stopReason, now, hmem, hrest⟩)
  · rcases List.mem_append.mp hmem with hmem | hmem
    · exact .inl (.inr ⟨frames, tries, hmem⟩)
    · exact .inr (.inr ⟨frames, tries, hmem⟩)

/-- The guard's batch is one that was noted, and nothing has resolved it since. -/
structure Filed (t : InjectionGuardTuning) (st : GuardedSession ν) : Prop where
  known : ∀ no frames busyAtSend now, .noted no frames busyAtSend now ∈ st.acts → no < st.notes
  once : ∀ no frames frames' busyAtSend busyAtSend' now now',
    .noted no frames busyAtSend now ∈ st.acts → .noted no frames' busyAtSend' now' ∈ st.acts →
      now = now'
  slot : ∀ u, st.injectionGuard.unconfirmed = some u → u.key = batchKey u.frames ∧
    ∃ before after, st.acts = before ++ .noted u.no u.frames true u.sentAt :: after ∧
      ¬ Resolved t u.no u.sentAt after

theorem Filed.init : Filed t ({} : GuardedSession ν) :=
  ⟨fun _ _ _ _ h => absurd h List.not_mem_nil, fun _ _ _ _ _ _ _ h => absurd h List.not_mem_nil,
    fun _ h => by cases h⟩

/-- Another entry that is no note and resolves nothing. -/
theorem Filed.entry (hf : Filed t st) {a : GuardAct ν} (hacts : st'.acts = st.acts ++ [a])
    (hnotes : st'.notes = st.notes) (hnone : ∀ no frames busyAtSend now,
      a ≠ .noted no frames busyAtSend now)
    (hslot : ∀ u, st'.injectionGuard.unconfirmed = some u →
      st.injectionGuard.unconfirmed = some u ∧ ¬ Resolved t u.no u.sentAt [a]) : Filed t st' := by
  have hold : ∀ {no frames busyAtSend now}, .noted no frames busyAtSend now ∈ st'.acts →
      .noted no frames busyAtSend now ∈ st.acts := by
    intro no frames busyAtSend now hmem
    rw [hacts] at hmem
    rcases List.mem_append.mp hmem with hmem | hmem
    · exact hmem
    · exact absurd (List.mem_singleton.mp hmem).symm (hnone no frames busyAtSend now)
  refine ⟨fun no frames busyAtSend now hmem => ?_,
    fun no frames frames' busyAtSend busyAtSend' now now' h h' =>
      hf.once no frames frames' busyAtSend busyAtSend' now now' (hold h) (hold h'), fun u hu => ?_⟩
  · rw [hnotes]
    exact hf.known no frames busyAtSend now (hold hmem)
  · obtain ⟨hu, hunresolved⟩ := hslot u hu
    obtain ⟨hkey, before, after, hsplit, hnot⟩ := hf.slot u hu
    refine ⟨hkey, before, after ++ [a], ?_, fun hr => ?_⟩
    · rw [hacts, hsplit]
      simp
    · rcases resolved_snoc hr with hr | hr
      · exact hnot hr
      · exact hunresolved hr

theorem Filed.step (hf : Filed t st) (hs : Stepped t st e st') : Filed t st' := by
  cases hs with
  | noted v frames deliverAs busyAtSend =>
      refine ⟨fun no fs busy now hmem => ?_, fun no fs fs' busy busy' now now' h h' => ?_,
        fun u hu => ?_⟩
      · show no < st.notes + 1
        rcases List.mem_append.mp hmem with hmem | hmem
        · have hlt := hf.known no fs busy now hmem
          omega
        · obtain ⟨rfl, -⟩ := GuardAct.noted.inj (List.mem_singleton.mp hmem)
          omega
      · -- an earlier note has a smaller number than this one
        rcases List.mem_append.mp h with h | h <;> rcases List.mem_append.mp h' with h' | h'
        · exact hf.once no fs fs' busy busy' now now' h h'
        · obtain ⟨rfl, -⟩ := GuardAct.noted.inj (List.mem_singleton.mp h')
          exact absurd (hf.known _ _ _ _ h) (Nat.lt_irrefl _)
        · obtain ⟨rfl, -⟩ := GuardAct.noted.inj (List.mem_singleton.mp h)
          exact absurd (hf.known _ _ _ _ h') (Nat.lt_irrefl _)
        · obtain ⟨-, -, -, rfl⟩ := GuardAct.noted.inj (List.mem_singleton.mp h)
          obtain ⟨-, -, -, rfl⟩ := GuardAct.noted.inj (List.mem_singleton.mp h')
          rfl
      · unfold InjectionGuard.note at hu
        cases busyAtSend with
        | false => cases hu
        | true =>
            obtain rfl := Option.some.inj hu
            exact ⟨rfl, st.acts, [], rfl, not_resolved_nil _ _⟩
  | confirmed v stopReason u hu hcut hold =>
      exact hf.entry rfl rfl (fun _ _ _ _ h => by cases h) fun u h => by cases h
  | ended v stopReason timers hstays =>
      refine hf.entry rfl rfl (fun _ _ _ _ h => by cases h) fun u hu => ⟨hu, ?_⟩
      rintro (⟨stop, now, hmem, hcut, hold⟩ | ⟨_, _, hmem⟩)
      · obtain ⟨rfl, rfl⟩ := GuardAct.turnEnded.inj (List.mem_singleton.mp hmem)
        have hearly := hstays u hu hcut
        omega
      · cases List.mem_singleton.mp hmem
  | resent v e timers u hevent hu htries =>
      exact hf.entry rfl rfl (fun _ _ _ _ h => by cases h) fun u h => by cases h
  | nothing v e timers hevent => exact ⟨hf.known, hf.once, hf.slot⟩

/-- A batch that is not kept after an entry is resolved by it, or was resolved already. -/
theorem Kept.entry (hk : Kept t st) {a : GuardAct ν} (hacts : st'.acts = st.acts ++ [a])
    (hearlier : ∀ no sentAt, st.Tracks no → (∃ frames, .noted no frames true sentAt ∈ st.acts) →
      st'.Tracks no ∨ Resolved t no sentAt [a])
    (hnew : ∀ no frames sentAt, a = .noted no frames true sentAt → st'.Tracks no) : Kept t st' := by
  intro before no frames sentAt after heq
  rw [hacts] at heq
  rcases entry_of_snoc heq with ⟨-, hlast, -⟩ | ⟨rest, hold, rfl⟩
  · exact .inl (hnew no frames sentAt hlast.symm)
  · rcases hk before no frames sentAt rest hold with htracks | hr
    · rcases hearlier no sentAt htracks ⟨frames, by rw [hold]; simp⟩ with htracks | hr
      · exact .inl htracks
      · refine .inr ?_
        rcases hr with ⟨stop, now, hmem, hrest⟩ | ⟨fs, tries, hmem⟩
        · exact .inl ⟨stop, now, List.mem_append_right _ hmem, hrest⟩
        · exact .inr ⟨fs, tries, List.mem_append_right _ hmem⟩
    · exact .inr (hr.mono [a])

/-- A batch is kept, or it is resolved, where no other is noted and no copy is refused. -/
theorem Kept.step (hk : Kept t st) (hf : Filed t st) (hok : st.keepsPlace t e = true)
    (hs : Stepped t st e st') : Kept t st' := by
  cases hs with
  | noted v frames deliverAs busyAtSend =>
      have hnone : st.injectionGuard.unconfirmed = none := by
        simpa [keepsPlace] using hok
      refine hk.entry rfl (fun no sentAt htracks _ => ?_) fun no fs sentAt heq => ?_
      · obtain ⟨u, hu, -⟩ := htracks
        rw [hnone] at hu
        cases hu
      · obtain ⟨rfl, -, rfl, -⟩ := GuardAct.noted.inj heq
        exact ⟨_, rfl, rfl⟩
  | confirmed v stopReason u hu hcut hold =>
      refine hk.entry rfl (fun no sentAt htracks hnoted => ?_) fun _ _ _ h => by cases h
      obtain ⟨u', hu', rfl⟩ := htracks
      obtain rfl : u = u' := Option.some.inj (hu.symm.trans hu')
      obtain ⟨-, before, after, hsplit, -⟩ := hf.slot u hu
      obtain ⟨frames, hnoted⟩ := hnoted
      have hsame : u.sentAt = sentAt :=
        hf.once u.no u.frames frames true true u.sentAt sentAt (by rw [hsplit]; simp) hnoted
      rw [hsame] at hold
      exact .inr (.inl ⟨stopReason, v.now, List.mem_singleton.mpr rfl, hcut, hold⟩)
  | ended v stopReason timers hstays =>
      exact hk.entry rfl (fun no sentAt htracks _ => .inl htracks) fun _ _ _ h => by cases h
  | resent v e timers u hevent hu htries =>
      have haccepts : v.accepts = true := by
        rcases hevent with rfl | ⟨rfl, hsettled⟩
        · have htakes := takes_iff.mpr ⟨u, hu, htries⟩
          simpa [keepsPlace, htakes] using hok
        · simpa [keepsPlace, hsettled] using hok
      refine hk.entry rfl (fun no sentAt htracks _ => .inr ?_) fun _ _ _ h => by cases h
      obtain ⟨u', hu', rfl⟩ := htracks
      obtain rfl : u = u' := Option.some.inj (hu.symm.trans hu')
      exact .inr ⟨u.frames, u.tries + 1, by rw [haccepts]; exact List.mem_singleton.mpr rfl⟩
  | nothing v e timers hevent => exact hk

/-- The batch in the guard's place, once it is out of it without being resolved. -/
theorem not_kept (hf : Filed t st) {u : Unconfirmed ν}
    (hu : st.injectionGuard.unconfirmed = some u) {a : GuardAct ν} (hacts : st'.acts = st.acts ++ [a])
    (hgone : ¬ st'.Tracks u.no) (hunresolved : ¬ Resolved t u.no u.sentAt [a]) : ¬ Kept t st' := by
  intro hk
  obtain ⟨-, before, after, hsplit, hnot⟩ := hf.slot u hu
  rcases hk before u.no u.frames u.sentAt (after ++ [a]) (by rw [hacts, hsplit]; simp) with ht | hr
  · exact hgone ht
  · rcases resolved_snoc hr with hr | hr
    · exact hnot hr
    · exact hunresolved hr

/-- Another batch that is noted, or a copy that is refused, and the one in the guard's place is
forgotten. -/
theorem forgets (hf : Filed t st) (hbad : st.keepsPlace t e = false) (hs : Stepped t st e st') :
    ¬ Kept t st' := by
  cases hs with
  | noted v frames deliverAs busyAtSend =>
      have hsome : st.injectionGuard.unconfirmed.isNone = false := hbad
      cases hu : st.injectionGuard.unconfirmed with
      | none =>
          rw [hu] at hsome
          cases hsome
      | some u =>
          refine not_kept hf hu rfl ?_ ?_
          · rintro ⟨u', hu', hno⟩
            unfold InjectionGuard.note at hu'
            cases busyAtSend with
            | false => cases hu'
            | true =>
                obtain rfl := Option.some.inj hu'
                obtain ⟨-, before, after, hsplit, -⟩ := hf.slot u hu
                have hlt := hf.known u.no u.frames true u.sentAt (by rw [hsplit]; simp)
                have hno : st.notes = u.no := hno
                omega
          · rintro (⟨_, _, hmem, -⟩ | ⟨_, _, hmem⟩) <;> cases List.mem_singleton.mp hmem
  | confirmed => cases hbad
  | ended => cases hbad
  | resent v e timers u hevent hu htries =>
      have hrefused : v.accepts = false := by
        rcases hevent with rfl | ⟨rfl, -⟩
        · simp only [keepsPlace, Bool.or_eq_false_iff] at hbad
          exact hbad.1
        · simp only [keepsPlace, Bool.or_eq_false_iff] at hbad
          exact hbad.1
      refine not_kept hf hu rfl ?_ ?_
      · rintro ⟨u', hu', -⟩
        cases hu'
      · rintro (⟨_, _, hmem, -⟩ | ⟨_, _, hmem⟩)
        · cases List.mem_singleton.mp hmem
        · have heq := List.mem_singleton.mp hmem
          rw [hrefused] at heq
          cases heq
  | nothing v e timers hevent =>
      rcases hevent with ⟨rfl, htakes⟩ | ⟨rfl, hsettled⟩
      · simp [keepsPlace, htakes] at hbad
      · simp [keepsPlace, hsettled] at hbad

end Place

/-! ### How often it is sent again -/

/-- Dropping counts changes none. -/
theorem get?_dropOldest {m : Map String Nat} {key : String} {n : Nat}
    (h : (InjectionGuard.dropOldest m).get? key = some n) : m.get? key = some n := by
  unfold InjectionGuard.dropOldest at h
  generalize m.keys = ks at h
  induction ks generalizing m with
  | nil => exact h
  | cons k ks ih =>
      have hrest := ih h
      dsimp only at hrest
      by_cases hsize : m.size > InjectionGuard.triesCap
      · rw [if_pos hsize, Map.get?_delete] at hrest
        by_cases hk : key = k
        · rw [if_pos hk] at hrest
          cases hrest
        · rwa [if_neg hk] at hrest
      · rwa [if_neg hsize] at hrest

section Count

variable {t : InjectionGuardTuning} {st st' : GuardedSession ν} {e : GuardView × GuardEvent ν}

/-- A count the guard has is the number of copies. -/
structure Counted (t : InjectionGuardTuning) (st : GuardedSession ν) : Prop where
  counts : ∀ key n, st.injectionGuard.triesByKey.get? key = some n → n = st.resends key
  slot : ∀ u, st.injectionGuard.unconfirmed = some u →
    u.key = batchKey u.frames ∧ u.tries = st.resends u.key
  bounded : Bounded t st

theorem Counted.init : Counted t ({} : GuardedSession ν) :=
  ⟨fun _ _ h => (by cases h), fun _ h => (by cases h), fun _ => Nat.zero_le _⟩

theorem resends_of_acts {a : GuardAct ν} (hacts : st'.acts = st.acts ++ [a]) (key : String) :
    st'.resends key = st.resends key + if copies key a then 1 else 0 := by
  unfold resends
  rw [hacts, List.countP_append, List.countP_singleton]

/-- An entry that is no copy. -/
theorem Counted.entry (hc : Counted t st) {a : GuardAct ν} (hacts : st'.acts = st.acts ++ [a])
    (hnone : ∀ key, copies key a = false)
    (hcounts : ∀ key n, st'.injectionGuard.triesByKey.get? key = some n →
      st.injectionGuard.triesByKey.get? key = some n)
    (hslot : ∀ u, st'.injectionGuard.unconfirmed = some u →
      u.key = batchKey u.frames ∧ u.tries = st.resends u.key) : Counted t st' := by
  have hsame : ∀ key, st'.resends key = st.resends key := by
    intro key
    rw [resends_of_acts hacts, hnone]
    rfl
  refine ⟨fun key n h => ?_, fun u hu => ?_, fun key => ?_⟩
  · rw [hsame]
    exact hc.counts key n (hcounts key n h)
  · rw [hsame]
    exact hslot u hu
  · rw [hsame]
    exact hc.bounded key

theorem Counted.step (hc : Counted t st) (hok : st.keepsCount e = true) (hs : Stepped t st e st') :
    Counted t st' := by
  cases hs with
  | noted v frames deliverAs busyAtSend =>
      refine hc.entry rfl (fun _ => rfl) (fun key n h => ?_) fun u hu => ?_
      · unfold InjectionGuard.note at h
        cases busyAtSend with
        | true => exact h
        | false =>
            have h : (st.injectionGuard.triesByKey.delete (batchKey frames)).get? key = some n := h
            rw [Map.get?_delete] at h
            by_cases hk : key = batchKey frames
            · rw [if_pos hk] at h
              cases h
            · rwa [if_neg hk] at h
      · unfold InjectionGuard.note at hu
        cases busyAtSend with
        | false => cases hu
        | true =>
            obtain rfl := Option.some.inj hu
            refine ⟨rfl, ?_⟩
            show (st.injectionGuard.triesByKey.get? (batchKey frames)).getD 0
              = st.resends (batchKey frames)
            cases hget : st.injectionGuard.triesByKey.get? (batchKey frames) with
            | some n => exact hc.counts _ _ hget
            | none =>
                -- the count was not dropped, so there is nothing to count
                simp only [keepsCount, Bool.or_eq_true, decide_eq_true_eq, Map.has, hget] at hok
                rcases hok with hzero | hfalse
                · exact hzero.symm
                · cases hfalse
  | confirmed v stopReason u hu hcut hold =>
      exact hc.entry rfl (fun _ => rfl) (fun _ _ h => h) fun u h => by cases h
  | ended v stopReason timers hstays =>
      exact hc.entry rfl (fun _ => rfl) (fun _ _ h => h) hc.slot
  | resent v e timers u hevent hu htries =>
      obtain ⟨hkey, hcount⟩ := hc.slot u hu
      have hone : ∀ key, st.resends key + (if u.key = key then 1 else 0) =
          resends { st with
            timers
            injectionGuard := st.handedOver u
            acts := st.acts ++ [.resent u.no u.frames (u.tries + 1) v.accepts] } key := by
        intro key
        unfold resends
        rw [List.countP_append, List.countP_singleton, hkey]
        simp [copies]
      refine ⟨fun key n h => ?_, fun u h => (by cases h), fun key => ?_⟩
      · have h := get?_dropOldest h
        rw [Map.get?_set] at h
        rw [← hone key]
        by_cases hk : key = u.key
        · rw [if_pos hk] at h
          rw [if_pos hk.symm, hk, ← hcount]
          exact (Option.some.inj h).symm
        · rw [if_neg hk] at h
          rw [if_neg fun hc => hk hc.symm]
          exact hc.counts key n h
      · have hle := hc.bounded key
        rw [← hone key]
        by_cases hk : u.key = key
        · rw [if_pos hk, ← hk, ← hcount]
          omega
        · rw [if_neg hk]
          exact hle
  | nothing v e timers hevent => exact ⟨hc.counts, hc.slot, hc.bounded⟩

end Count

end GuardedSession

/-! ### The claim -/

/-- **No batch is forgotten** in the runs in which none is noted while another is kept, and no
copy is refused; and none is sent again too often in the runs in which none is noted again whose
count was dropped. -/
theorem batches_kept {t : InjectionGuardTuning}
    {tr : List (GuardedSession ν × GuardView × GuardEvent ν)} {st : GuardedSession ν}
    (hrun : Run (GuardStep t) {} tr st) :
    (((∀ x ∈ tr, GuardedSession.Kept t x.1) ∧ GuardedSession.Kept t st) ↔
      Meets (fun s e => s.keepsPlace t e = true) tr) ∧
    (Meets (fun s e => s.keepsCount e = true) tr → GuardedSession.Bounded t st) := by
  refine ⟨⟨fun hkept => ?_, fun hok => ?_⟩, fun hok => ?_⟩
  · have hall : GuardedSession.Filed t st ∧ (((∀ x ∈ tr, GuardedSession.Kept t x.1) ∧
        GuardedSession.Kept t st) → Meets (fun s e => s.keepsPlace t e = true) tr) := by
      refine hrun.along (P := fun tr st => GuardedSession.Filed t st ∧
          (((∀ x ∈ tr, GuardedSession.Kept t x.1) ∧ GuardedSession.Kept t st) →
            Meets (fun s e => s.keepsPlace t e = true) tr)) (Meets.trivial tr)
        ⟨GuardedSession.Filed.init, fun _ x hx => absurd hx List.not_mem_nil⟩
        fun tr s e s' _ _ hs _ hstep => ?_
      have hstepped := GuardedSession.stepped_of_step hstep
      refine ⟨hs.1.step hstepped, fun hkept x hx => ?_⟩
      have hbefore := hs.2 ⟨fun x hx => hkept.1 x (List.mem_append_left _ hx),
        hkept.1 (s, e) (List.mem_append_right _ (List.mem_singleton.mpr rfl))⟩
      rcases List.mem_append.mp hx with hx | hx
      · exact hbefore x hx
      · rw [List.mem_singleton.mp hx]
        by_cases hok : s.keepsPlace t e = true
        · exact hok
        · exact absurd hkept.2 (GuardedSession.forgets hs.1 (by simpa using hok) hstepped)
    exact hall.2 hkept
  · have hboth : (∀ x ∈ tr, GuardedSession.Kept t x.1) ∧ GuardedSession.Filed t st ∧
        GuardedSession.Kept t st := by
      refine hrun.along (P := fun tr st => (∀ x ∈ tr, GuardedSession.Kept t x.1) ∧
          GuardedSession.Filed t st ∧ GuardedSession.Kept t st) hok
        ⟨fun x hx => absurd hx List.not_mem_nil, GuardedSession.Filed.init, fun before no frames
          sentAt after heq => ?_⟩ fun tr s e s' _ _ hs hok hstep => ?_
      · have hlength := congrArg List.length heq
        simp at hlength
      · have hstepped := GuardedSession.stepped_of_step hstep
        obtain ⟨hbefore, hf, hk⟩ := hs
        refine ⟨fun x hx => ?_, hf.step hstepped, hk.step hf hok hstepped⟩
        rcases List.mem_append.mp hx with hx | hx
        · exact hbefore x hx
        · rw [List.mem_singleton.mp hx]
          exact hk
    exact ⟨hboth.1, hboth.2.2⟩
  · have hc : GuardedSession.Counted t st := hrun.invariant hok GuardedSession.Counted.init
      fun s e s' hs hok hstep => hs.step hok (GuardedSession.stepped_of_step hstep)
    exact hc.bounded

/-! ### Two runs -/

/-- A batch of one message. -/
def batchOf (id : String) : List (Members Int) := [[("type", .str "msg"), ("id", .str id)]]

/-- A batch is purged with the turn it came in and is sent again; the next one is read. -/
def purgedThenRead : List (GuardView × GuardEvent Int) :=
  [({ now := 1000 }, .batch (batchOf "m_1") .followUp true),
    ({ now := 2000 }, .turnEnd (some "aborted")), ({ now := 2250 }, .resendTimer),
    ({ now := 3000 }, .batch (batchOf "m_2") .followUp true), ({ now := 11000 }, .turnEnd (some "stop"))]

/-- Neither is forgotten. -/
theorem purged_batch_kept : ∃ (tr : List (GuardedSession Int × GuardView × GuardEvent Int))
    (st : GuardedSession Int), Run (GuardStep {}) {} tr st ∧ tr.map Prod.snd = purgedThenRead ∧
    st.resends "m_1" = 1 ∧ GuardedSession.Kept {} st ∧ GuardedSession.Bounded {} st := by
  have hcheck : ((follow (GuardedSession.step {}) ({} : GuardedSession Int) purgedThenRead).any
      fun r => (r.1.all fun x => x.1.keepsPlace {} x.2 && x.1.keepsCount x.2) &&
        decide (r.2.resends "m_1" = 1)) = true := by
    decide +kernel
  obtain ⟨tr, st, hrun, htr, hfound⟩ := Run.of_check hcheck
  simp only [Bool.and_eq_true, List.all_eq_true, decide_eq_true_eq] at hfound
  obtain ⟨hok, hone⟩ := hfound
  have hkept := batches_kept hrun
  exact ⟨tr, st, hrun, htr, hone, (hkept.1.mpr fun x hx => (hok x hx).1).2,
    hkept.2 fun x hx => (hok x hx).2⟩

/-- Two batches come in one turn, which is aborted. -/
def twoPurged : List (GuardView × GuardEvent Int) :=
  [({ now := 1000 }, .batch (batchOf "m_1") .followUp true),
    ({ now := 1300 }, .batch (batchOf "m_2") .followUp true),
    ({ now := 2000 }, .turnEnd (some "aborted")), ({ now := 2250 }, .resendTimer)]

/-- One batch, purged in three turns, and injected once without a turn before the third. -/
def purgedAgain : List (GuardView × GuardEvent Int) :=
  let purge : List (GuardView × GuardEvent Int) :=
    [({ now := 1000 }, .batch (batchOf "m_1") .followUp true),
      ({ now := 2000 }, .turnEnd (some "aborted")), ({ now := 2250 }, .resendTimer)]
  purge ++ purge ++ [({ now := 3000 }, .batch (batchOf "m_1") .followUp false)] ++ purge

/-- Only the second of two batches was sent again, and no batch is watched any more. -/
def firstForgotten (st : GuardedSession ν) : Bool :=
  match st.injectionGuard.unconfirmed, st.acts with
  | none, [.noted 0 _ true _, .noted 1 _ true _, .turnEnded (some "aborted") _, .resent 1 _ _ _] =>
      true
  | _, _ => false

/-- The second batch is sent again and the first is forgotten; and a batch is sent again three
times, where two is the most. -/
theorem first_batch_forgotten :
    (∃ (tr : List (GuardedSession Int × GuardView × GuardEvent Int)) (st : GuardedSession Int),
      Run (GuardStep {}) {} tr st ∧ tr.map Prod.snd = twoPurged ∧ ¬ GuardedSession.Kept {} st) ∧
    (∃ (tr : List (GuardedSession Int × GuardView × GuardEvent Int)) (st : GuardedSession Int),
      Run (GuardStep {}) {} tr st ∧ tr.map Prod.snd = purgedAgain ∧
        ¬ GuardedSession.Bounded {} st) := by
  constructor
  · have hcheck : ((follow (GuardedSession.step {}) ({} : GuardedSession Int) twoPurged).any fun r =>
        firstForgotten r.2) = true := by
      decide +kernel
    obtain ⟨tr, st, hrun, htr, hfound⟩ := Run.of_check hcheck
    refine ⟨tr, st, hrun, htr, fun hk => ?_⟩
    unfold firstForgotten at hfound
    split at hfound
    · next hnone hacts =>
        rcases hk [] 0 _ _ _ hacts with ⟨u, hu, -⟩ | ⟨stop, now, hmem, hcut, -⟩ | ⟨fs, tries, hmem⟩
        · rw [hnone] at hu
          cases hu
        · simp only [List.mem_cons, reduceCtorEq, false_or, GuardAct.turnEnded.injEq,
            List.not_mem_nil, or_false] at hmem
          rw [hmem.1] at hcut
          cases hcut
        · simp at hmem
    · cases hfound
  · have hcheck : ((follow (GuardedSession.step {}) ({} : GuardedSession Int) purgedAgain).any fun r =>
        decide (r.2.resends "m_1" = 3)) = true := by
      decide +kernel
    obtain ⟨tr, st, hrun, htr, hfound⟩ := Run.of_check hcheck
    have hthree : st.resends "m_1" = 3 := of_decide_eq_true hfound
    refine ⟨tr, st, hrun, htr, fun hb => ?_⟩
    have hle := hb "m_1"
    rw [hthree] at hle
    exact absurd hle (by decide)

end PiMesh
