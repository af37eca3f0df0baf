/-
The timers that take an alias back.

Pi looks for a turn, for a mission and for its own last rename before it starts another, and
what it looks for cannot change before the rename detaches: that is still the same tick.
OpenCode looks for none of them, so it is safe exactly where its ticks happen to come at the
right time.
-/
import PiMesh.Extension.Reclaim
import PiMesh.Proofs.Renaming
import PiMesh.Client.Reference

namespace PiMesh

open Js Transition

variable {ν : Type} [Number ν]

/-! ### What the result speaks of -/

namespace ReclaimSession

/-- A rename that the host called, now or before it was connected. -/
def IsAsked (st : ReclaimSession ν) : ReclaimEvent ν → Prop
  | .client (.call c (.rename _)) => c ∉ st.automatic
  | .client .microtask =>
      ∃ c target, c ∉ st.automatic ∧ st.client.conn.renames.get? c = some (.connecting target)
  | _ => False

/-- The timer has started no rename, or it was right to. -/
structure Spares (st : ReclaimSession ν) (e : ReclaimEvent ν) (st' : ReclaimSession ν) : Prop where
  /-- A rename starts without a turn, without a mission, and after the last one. -/
  start : ∀ c busy, e = .tick c busy → st'.automatic ≠ st.automatic →
    busy = false ∧ st.client.book.pending.entries.size = 0 ∧
      ∀ c' ∈ st.automatic, st.client.results.has c' = true
  /-- Where it starts it detaches, or it returns. -/
  atOnce : ∀ c busy, e = .tick c busy → st'.automatic ≠ st.automatic →
    st'.client.conn.online = false ∨ st'.client.results.has c = true
  /-- Missions are given up to the host's renames only. -/
  missions : ∀ id, st'.client.GivenUp id → st.client.GivenUp id ∨ st.IsAsked e

/-- An OpenCode tick that calls `rename` comes without a turn, without a mission, and after the
last rename. -/
def isTimely (adapter : Adapter) (st : ReclaimSession ν) : ReclaimEvent ν → Bool
  | .tick _ busy =>
      decide (adapter = .pi) || !st.client.conn.online ||
        decide (st.preferredAlias = st.client.conn.name) ||
        (!busy && decide (st.client.book.pending.entries.size = 0) &&
          st.automatic.all fun c => st.client.results.has c)
  | _ => true

end ReclaimSession

/-! ### The rename of a tick -/

section Rename

variable {env : ClientEnv} {now : Int} {st : ClientState ν} {c : CallId}

theorem online_doConnect (owner : Owner) : (doConnect env st owner).conn.online = st.conn.online := by
  unfold doConnect openSocket
  split
  · rfl
  · dsimp only
    split
    · rfl
    · rfl
  · rfl

theorem online_modifySocket (k : Conn) (sock : ClientSocketId) (f : ClientSocket → ClientSocket) :
    (k.modifySocket sock f).online = k.online := by
  unfold Conn.modifySocket
  split
  · rfl
  · rfl

theorem offline_renameDetach (target : String) : (renameDetach env st c target).conn.online = false := by
  obtain ⟨st₁, hconn, -, heq⟩ := renameDetach_eq env st c target
  have hoff : st₁.conn.online = false := by
    rw [hconn]
    rfl
  rw [heq]
  split
  · exact (online_modifySocket ..).trans hoff
  · exact (online_doConnect _).trans hoff

/-- A rename that is refused returns. -/
theorem has_finishRename (r : CallResult ν) :
    (finishRename (st.setStage c .rename) c r).results.has c = true := by
  have hstage : ((st.setStage c .rename).setConn { (st.setStage c .rename).conn with
      renames := (st.setStage c .rename).conn.renames.delete c }).calls.get? c = some .rename :=
    Map.get?_set_self ..
  unfold finishRename
  dsimp only
  rw [hstage]
  show (if st.results.has c then st.results else st.results.set c r).has c = true
  split
  · assumption
  · simp [Map.has]

/-- A rename that is called online detaches at once, or it returns at once. -/
theorem rename_atOnce (hnew : isNewCall st c = true) (hon : st.conn.online = true) (newAlias : String) :
    (clientStep env now st (.call c (.rename newAlias))).conn.online = false ∨
      (clientStep env now st (.call c (.rename newAlias))).results.has c = true := by
  have heq : clientStep env now st (.call c (.rename newAlias)) = startRename env st c newAlias := by
    unfold clientStep
    dsimp only
    rw [if_pos hnew]
    rfl
  rw [heq]
  unfold startRename
  dsimp only
  split
  · exact .inr (has_finishRename _)
  · split
    · exact .inr (has_finishRename _)
    · split
      · next hoff =>
        have hoff : (!st.conn.online) = true := hoff
        rw [hon] at hoff
        cases hoff
      · exact .inl (offline_renameDetach _)

/-- It does not wait for the connection. -/
theorem rename_waits_not (hnew : isNewCall st c = true) (hon : st.conn.online = true) (newAlias : String)
    {c' : CallId} {target : String} (h : (clientStep env now st
      (.call c (.rename newAlias))).conn.renames.get? c' = some (.connecting target)) :
    c' ≠ c ∧ st.conn.renames.get? c' = some (.connecting target) := by
  rcases clientStep_wait env now st _ c' target h with hold | ⟨hoff, -⟩
  · refine ⟨fun heq => ?_, hold⟩
    simp only [isNewCall, Bool.and_eq_true, Bool.not_eq_true', Map.has] at hnew
    rw [← heq, hold] at hnew
    exact absurd hnew.2 (by simp)
  · rw [hon] at hoff
    cases hoff

end Rename

/-! ### Sessions -/

namespace ReclaimSession

section Steps

variable {adapter : Adapter} {env : ClientEnv} {now : Int} {st st' : ReclaimSession ν}

/-- The tick calls `rename`. -/
def starts (adapter : Adapter) (st : ReclaimSession ν) (busy : Bool) : Bool :=
  st.client.conn.online && decide (st.preferredAlias ≠ st.client.conn.name) &&
    (decide (adapter = .openCode) || (st.ticking.isNone && decide (st.preferredAlias ≠ "") &&
      !busy && decide (st.client.book.pending.entries.size = 0)))

/-- What a step does. -/
inductive Stepped (adapter : Adapter) (env : ClientEnv) (now : Int) (st : ReclaimSession ν) :
    ReclaimEvent ν → ReclaimSession ν → Prop
  | client (e : ClientEvent ν) (hfree : st.isTaken e = false) :
      Stepped adapter env now st (.client e) { st with client := clientStep env now st.client e }
  | prefer (name : String) : Stepped adapter env now st (.prefer name) { st with preferredAlias := name }
  | rests (c : CallId) (busy : Bool) (hrests : st.starts adapter busy = false) :
      Stepped adapter env now st (.tick c busy) st
  | renames (c : CallId) (busy : Bool) (ticking : Option CallId)
      (hnew : isNewCall st.client c = true) (hticking : adapter = .pi → ticking = some c)
      (hstarts : st.starts adapter busy = true) :
      Stepped adapter env now st (.tick c busy) { st.rename env now c with ticking }
  | ticked (c : CallId) (hticking : st.ticking = some c) (hdone : st.client.results.has c = true) :
      Stepped adapter env now st .ticked { st with ticking := none }

theorem tick_stepped {c : CallId} (hnew : isNewCall st.client c = true) (busy : Bool) :
    Stepped .pi env now st (.tick c busy) (st.tick env now c busy) := by
  unfold tick
  split
  · next hticking =>
    exact .rests c busy (by simp [starts, Option.isNone_eq_false_iff.mpr hticking])
  · next hticking =>
    split
    · next hempty => exact .rests c busy (by simp [starts, hempty])
    · next hempty =>
      split
      · next hname => exact .rests c busy (by simp [starts, hname])
      · next hname =>
        split
        · next hoff => exact .rests c busy (by simp [starts, by simpa using hoff])
        · next hon =>
          split
          · next hbusy => exact .rests c busy (by simp [starts, hbusy])
          · next hbusy =>
            split
            · next hpending =>
              exact .rests c busy (by simp [starts, Nat.ne_of_gt hpending])
            · next hpending =>
              refine .renames c busy (some c) hnew (fun _ => rfl) ?_
              have hname : st.preferredAlias ≠ st.client.conn.name := fun hc => hname hc.symm
              have hsize : st.client.book.pending.entries.size = 0 := Nat.eq_zero_of_not_pos hpending
              simp only [Option.isSome_iff_ne_none, ne_eq, not_not] at hticking
              simp only [Bool.not_eq_true', Bool.not_eq_false] at hon
              simp [starts, hon, hname, hticking, hempty, hbusy, hsize]

theorem reclaimTimer_stepped {c : CallId} (hnew : isNewCall st.client c = true) (busy : Bool) :
    Stepped .openCode env now st (.tick c busy) (st.reclaimTimer env now c) := by
  unfold reclaimTimer
  split
  · next hoff => exact .rests c busy (by simp [starts, by simpa using hoff])
  · next hon =>
    split
    · next hname => exact .rests c busy (by simp [starts, hname])
    · next hname =>
      refine .renames c busy st.ticking hnew (fun hc => by cases hc) ?_
      simp only [Bool.not_eq_true', Bool.not_eq_false] at hon
      simp [starts, hon, hname]

theorem stepped_of_step {e : Int × ReclaimEvent ν} (hs : ReclaimStep adapter env st e st') :
    Stepped adapter env e.1 st e.2 st' := by
  obtain ⟨now, e⟩ := e
  unfold ReclaimStep step at hs
  cases e with
  | client e =>
      dsimp only at hs
      by_cases htaken : st.isTaken e = true
      · rw [if_pos htaken] at hs
        cases hs
      · rw [if_neg htaken] at hs
        obtain rfl := Option.some.inj hs
        exact .client e (by simpa using htaken)
  | prefer name =>
      obtain rfl := Option.some.inj hs
      exact .prefer name
  | tick c busy =>
      dsimp only at hs
      split at hs
      · next hready =>
        simp only [Bool.and_eq_true] at hready
        cases adapter with
        | pi =>
            obtain rfl := Option.some.inj hs
            exact tick_stepped hready.1.2 busy
        | openCode =>
            obtain rfl := Option.some.inj hs
            exact reclaimTimer_stepped hready.1.2 busy
      · cases hs
  | ticked =>
      dsimp only at hs
      split at hs
      · next c hticking =>
        split at hs
        · next hdone =>
          obtain rfl := Option.some.inj hs
          exact .ticked c hticking hdone
        · cases hs
      · cases hs

end Steps

/-- No rename of the timer waits for the connection, and Pi's have returned but for the one that
is awaited. -/
structure Watched (adapter : Adapter) (env : ClientEnv) (st : ReclaimSession ν) : Prop where
  waits : Waits env.rt st.client.desk
  detached : ∀ c ∈ st.automatic, ∀ target, st.client.conn.renames.get? c ≠ some (.connecting target)
  awaited : adapter = .pi → ∀ c ∈ st.automatic, st.client.results.has c = true ∨ st.ticking = some c

section Runs

variable {adapter : Adapter} {env : ClientEnv} {now : Int} {st st' : ReclaimSession ν}
  {e : ReclaimEvent ν}

theorem Watched.init (adapter : Adapter) (env : ClientEnv) (name : String) (rooms : List String)
    (reservations : List FileReservation) (preferredAlias : String) :
    Watched adapter env (ReclaimSession.init (ν := ν) name rooms reservations preferredAlias) :=
  ⟨waits_init env.rt name rooms reservations, fun _ h => absurd h List.not_mem_nil,
    fun _ _ h => absurd h List.not_mem_nil⟩

theorem has_clientStep (h : Waits env.rt st.client.desk) (e : ClientEvent ν) {c : CallId}
    (hc : st.client.results.has c = true) : (clientStep env now st.client e).results.has c = true := by
  obtain ⟨r, hr⟩ := (Map.has_iff _ _).mp hc
  exact (Map.has_iff _ _).mpr ⟨r, (clientStep_calls h e).results c r hr⟩

theorem Watched.step (hinj : Function.Injective env.rt.makeMsgId) (hw : Watched adapter env st)
    (hs : Stepped adapter env now st e st') : Watched adapter env st' := by
  cases hs with
  | client e hfree =>
      refine ⟨clientStep_waits hinj e hw.waits, fun c hc target hwaits => ?_, fun hpi c hc => ?_⟩
      · rcases clientStep_wait env now st.client e c target hwaits with hold | ⟨-, newAlias, rfl⟩
        · exact hw.detached c hc target hold
        · have hfree : decide (c ∈ st.automatic) = false := hfree
          exact absurd hc (of_decide_eq_false hfree)
      · rcases hw.awaited hpi c hc with hdone | hticking
        · exact .inl (has_clientStep hw.waits e hdone)
        · exact .inr hticking
  | prefer name => exact ⟨hw.waits, hw.detached, hw.awaited⟩
  | rests c busy hrests => exact hw
  | renames c busy ticking hnew hticking hstarts =>
      simp only [starts, Bool.and_eq_true, Bool.or_eq_true] at hstarts
      obtain ⟨⟨hon, -⟩, hgate⟩ := hstarts
      refine ⟨clientStep_waits hinj _ hw.waits, fun c' hc' target hwaits => ?_, fun hpi c' hc' => ?_⟩
      · obtain ⟨hne, hold⟩ := rename_waits_not hnew hon _ hwaits
        rcases List.mem_append.mp hc' with hc' | hc'
        · exact hw.detached c' hc' target hold
        · exact hne (List.mem_singleton.mp hc')
      · rcases List.mem_append.mp hc' with hc' | hc'
        · refine .inl (has_clientStep hw.waits _ ?_)
          rcases hw.awaited hpi c' hc' with hdone | hc
          · exact hdone
          · rcases hgate with hopen | ⟨⟨⟨hnone, -⟩, -⟩, -⟩
            · rw [hpi] at hopen
              cases hopen
            · rw [hc] at hnone
              cases hnone
        · rw [List.mem_singleton.mp hc']
          exact .inr (hticking hpi)
  | ticked c hticking hdone =>
      refine ⟨hw.waits, hw.detached, fun hpi c' hc' => .inl ?_⟩
      rcases hw.awaited hpi c' hc' with hdone' | hc
      · exact hdone'
      · obtain rfl : c = c' := Option.some.inj (hticking.symm.trans hc)
        exact hdone

theorem ne_append_singleton (l : List CallId) (c : CallId) : l ++ [c] ≠ l := by
  intro h
  have hlength := congrArg List.length h
  simp at hlength

/-- A client step gives missions up to the host's renames only. -/
theorem missions_client (hw : Watched adapter env st) {e : ClientEvent ν} (hfree : st.isTaken e = false)
    {id : String} (hid : (clientStep env now st.client e).GivenUp id) :
    st.client.GivenUp id ∨ st.IsAsked (.client e) := by
  rcases clientStep_givenUp hw.waits e hid with hold | ⟨hdetaches, -⟩
  · exact .inl hold
  · refine .inr ?_
    cases e with
    | call c op =>
        cases op with
        | rename newAlias =>
            have hfree : decide (c ∈ st.automatic) = false := hfree
            exact of_decide_eq_false hfree
        | _ => cases hdetaches
    | microtask =>
        obtain ⟨j, -, hj⟩ := Option.any_eq_true _ _ |>.mp hdetaches
        cases j with
        | connected w info =>
            cases w with
            | call c =>
                unfold Job.detaches at hj
                dsimp only at hj
                split at hj
                · next target _ hrename =>
                  exact ⟨c, target, fun hc => hw.detached c hc target hrename, hrename⟩
                · cases hj
            | _ => cases hj
        | _ => cases hj
    | _ => cases hdetaches

/-- What a timely step spares. -/
theorem spares_of_timely (hw : Watched adapter env st) (hok : st.isTimely adapter e = true)
    (hs : Stepped adapter env now st e st') : st.Spares e st' := by
  cases hs with
  | client e hfree =>
      exact ⟨fun _ _ h => (by cases h), fun _ _ h => (by cases h), fun id hid => missions_client hw hfree hid⟩
  | prefer name =>
      exact ⟨fun _ _ h => (by cases h), fun _ _ h => (by cases h), fun id hid => .inl hid⟩
  | rests c busy hrests =>
      exact ⟨fun _ _ _ h => absurd rfl h, fun _ _ _ h => absurd rfl h, fun id hid => .inl hid⟩
  | renames c busy ticking hnew hticking hstarts =>
      simp only [starts, Bool.and_eq_true, Bool.or_eq_true, decide_eq_true_eq] at hstarts
      obtain ⟨⟨hon, hname⟩, hgate⟩ := hstarts
      have hidle : busy = false ∧ st.client.book.pending.entries.size = 0 ∧
          ∀ c' ∈ st.automatic, st.client.results.has c' = true := by
        rcases hgate with rfl | ⟨⟨⟨hnone, -⟩, hbusy⟩, hsize⟩
        · simp only [isTimely, hon, hname, decide_false, reduceCtorEq, Bool.not_true, Bool.false_or,
            Bool.and_eq_true, Bool.not_eq_true', decide_eq_true_eq, List.all_eq_true] at hok
          exact ⟨hok.1.1, hok.1.2, hok.2⟩
        · refine ⟨by simpa using hbusy, hsize, fun c' hc' => ?_⟩
          cases hadapter : adapter with
          | openCode =>
              subst hadapter
              simp only [isTimely, hon, hname, decide_false, reduceCtorEq, Bool.not_true,
                Bool.false_or, Bool.and_eq_true, Bool.not_eq_true', decide_eq_true_eq,
                List.all_eq_true] at hok
              exact hok.2 c' hc'
          | pi =>
              rcases hw.awaited hadapter c' hc' with hdone | hc
              · exact hdone
              · rw [hc] at hnone
                cases hnone
      refine ⟨fun _ busy' h _ => ?_, fun c' _ h _ => ?_, fun id hid => ?_⟩
      · cases h
        exact hidle
      · cases h
        exact rename_atOnce hnew hon st.preferredAlias
      · rcases clientStep_givenUp hw.waits _ hid with hold | ⟨-, hlive⟩
        · exact .inl hold
        · obtain ⟨entry, hget⟩ := (Map.has_iff _ _).mp hlive
          have hmem := (Map.mem_entries_iff _ _ _).mpr hget
          have hnil : st.client.book.pending.entries.entries = [] := List.eq_nil_of_length_eq_zero hidle.2.1
          rw [hnil] at hmem
          cases hmem
  | ticked c hticking hdone =>
      exact ⟨fun _ _ h => (by cases h), fun _ _ h => (by cases h), fun id hid => .inl hid⟩

/-- An untimely tick starts a rename all the same. -/
theorem timely_of_spares (hspares : st.Spares e st') (hs : Stepped adapter env now st e st') :
    st.isTimely adapter e = true := by
  cases hs with
  | client => rfl
  | prefer => rfl
  | ticked => rfl
  | rests c busy hrests =>
      cases adapter with
      | pi => simp [isTimely]
      | openCode =>
          simp only [starts, decide_true, Bool.true_or, Bool.and_true, Bool.and_eq_false_iff] at hrests
          rcases hrests with hoff | hname
          · simp [isTimely, hoff]
          · have hname : st.preferredAlias = st.client.conn.name := by simpa using hname
            simp [isTimely, hname]
  | renames c busy ticking hnew hticking hstarts =>
      obtain ⟨hbusy, hsize, hdone⟩ := hspares.start c busy rfl (ne_append_singleton st.automatic c)
      have hall : (st.automatic.all fun c => st.client.results.has c) = true :=
        List.all_eq_true.mpr hdone
      simp [isTimely, hbusy, hsize, hall]

end Runs

end ReclaimSession

/-! ### The claim -/

/-- **The timers spare the missions**: Pi's always, and OpenCode's at the ticks that come without
a turn, without a mission, and after the last automatic rename. -/
theorem reclaim_spares {adapter : Adapter} {env : ClientEnv}
    (hinj : Function.Injective env.rt.makeMsgId) {name : String} {rooms : List String}
    {reservations : List FileReservation} {preferredAlias : String}
    {tr : List (ReclaimSession ν × Int × ReclaimEvent ν)} {st st' : ReclaimSession ν}
    {e : Int × ReclaimEvent ν}
    (hrun : Run (ReclaimStep adapter env) (.init name rooms reservations preferredAlias) tr st)
    (hstep : ReclaimStep adapter env st e st') :
    st.Spares e.2 st' ↔ st.isTimely adapter e.2 = true := by
  have hw : ReclaimSession.Watched adapter env st := by
    refine hrun.invariant (P := ReclaimSession.Watched adapter env) (Meets.trivial tr)
      (.init adapter env name rooms reservations preferredAlias) fun s e s' hs _ hstep => ?_
    exact hs.step hinj (ReclaimSession.stepped_of_step hstep)
  have hs := ReclaimSession.stepped_of_step hstep
  exact ⟨fun hspares => ReclaimSession.timely_of_spares hspares hs,
    fun hok => ReclaimSession.spares_of_timely hw hok hs⟩

/-- `alice`, who would rather be `bob`. -/
def wantsBob : ReclaimSession Int := .init "alice" ["default"] [] "bob"

/-- She connects. -/
def connectsAlice : List (Int × ReclaimEvent Int) := (connects 0 0).map fun e => (e.1, .client e.2)

/-- A tick that finds her idle starts the rename, which detaches at once. -/
theorem idle_tick_spares : ∃ (tr : List (ReclaimSession Int × Int × ReclaimEvent Int))
    (st st' : ReclaimSession Int),
    Run (ReclaimStep .openCode referenceClient) wantsBob tr st ∧
    tr.map Prod.snd = connectsAlice ∧
    ReclaimStep .openCode referenceClient st (60000, .tick 2 false) st' ∧
    st'.automatic = [2] ∧ st'.client.conn.online = false ∧ st.Spares (.tick 2 false) st' := by
  have hcheck : ((follow (fun st e => ReclaimSession.step .openCode referenceClient e.1 st e.2) wantsBob
      connectsAlice).any fun r => r.2.isTimely .openCode (.tick 2 false) &&
        (r.2.step .openCode referenceClient 60000 (.tick 2 false)).any fun st' =>
          decide (st'.automatic = [2]) && !st'.client.conn.online) = true := by
    decide +kernel
  obtain ⟨tr, st, hrun, htr, hfound⟩ := Run.of_check hcheck
  simp only [Bool.and_eq_true, Option.any_eq_true, Bool.not_eq_true', decide_eq_true_eq] at hfound
  obtain ⟨htimely, st', hstep, hone, hoff⟩ := hfound
  have hstep : ReclaimStep .openCode referenceClient st (60000, .tick 2 false) st' := hstep
  exact ⟨tr, st, st', hrun, htr, hstep, hone, hoff,
    (reclaim_spares makeMsgId_injective hrun hstep).mpr htimely⟩

/-- She connects and asks `carol` for something. -/
def asksCarol : List (Int × ReclaimEvent Int) :=
  connectsAlice ++ [(2000, .client (.call 1 (.send
    { recipient := some "carol", message := "build it", awaitReply := true, block := some false }))),
    (2001, .client (.line 0 { inboundOf .ack "m_lqulw000_00000001" with status := some "delivered" })),
    (2001, .client .microtask)]

/-- The mission ended because its session was renamed. -/
def isRenamed : Resolution ν → Bool
  | .error .renamed => true
  | _ => false

theorem eq_of_isRenamed {r : Resolution ν} (h : isRenamed r = true) : r = .error .renamed := by
  unfold isRenamed at h
  split at h
  · rfl
  · cases h

/-- A tick in the middle of her turn gives the mission up. -/
theorem tick_kills_mission : ∃ (tr : List (ReclaimSession Int × Int × ReclaimEvent Int))
    (st st' : ReclaimSession Int),
    Run (ReclaimStep .openCode referenceClient) wantsBob tr st ∧ tr.map Prod.snd = asksCarol ∧
    ReclaimStep .openCode referenceClient st (60000, .tick 2 true) st' ∧
    st.client.book.pending.has "m_lqulw000_00000001" = true ∧
    ¬ st.client.GivenUp "m_lqulw000_00000001" ∧ st'.client.GivenUp "m_lqulw000_00000001" ∧
    ¬ st.Spares (.tick 2 true) st' := by
  have hcheck : ((follow (fun st e => ReclaimSession.step .openCode referenceClient e.1 st e.2) wantsBob
      asksCarol).any fun r =>
        (r.2.client.book.settled.get? "m_lqulw000_00000001").isNone && r.2.client.resolutions.isEmpty &&
        r.2.client.book.pending.has "m_lqulw000_00000001" &&
        (r.2.step .openCode referenceClient 60000 (.tick 2 true)).any fun st' =>
          (st'.client.book.settled.get? "m_lqulw000_00000001").any isRenamed ||
          st'.client.resolutions.any fun x =>
            decide (x.2.1 = "m_lqulw000_00000001") && isRenamed x.2.2) = true := by
    decide +kernel
  obtain ⟨tr, st, hrun, htr, hfound⟩ := Run.of_check hcheck
  simp only [Bool.and_eq_true, Option.any_eq_true, Option.isNone_iff_eq_none, List.isEmpty_iff] at hfound
  obtain ⟨⟨⟨hnone, hnil⟩, hlive⟩, st', hstep, hgiven⟩ := hfound
  have hbefore : ¬ st.client.GivenUp "m_lqulw000_00000001" := by
    rintro (hs | ⟨w, hw⟩)
    · rw [hnone] at hs
      cases hs
    · rw [hnil] at hw
      cases hw
  have hafter : st'.client.GivenUp "m_lqulw000_00000001" := by
    rcases Bool.or_eq_true _ _ |>.mp hgiven with hs | hs
    · obtain ⟨r, hr, hren⟩ := (Option.any_eq_true _ _).mp hs
      exact .inl (hr.trans (congrArg some (eq_of_isRenamed hren)))
    · obtain ⟨⟨w, id, r⟩, hx, heq⟩ := List.any_eq_true.mp hs
      obtain ⟨hid, hren⟩ := Bool.and_eq_true_iff.mp heq
      obtain rfl := of_decide_eq_true hid
      obtain rfl := eq_of_isRenamed hren
      exact .inr ⟨w, hx⟩
  refine ⟨tr, st, st', hrun, htr, hstep, hlive, hbefore, hafter, fun hspares => ?_⟩
  rcases hspares.missions _ hafter with hold | hasked
  · exact hbefore hold
  · exact hasked

end PiMesh
