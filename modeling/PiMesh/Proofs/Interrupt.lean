/-
What an interrupt reports.

Until it is delivered the host was only asked and aborted, and the cap is armed, which bounds
the wait.  What closes the wait delivers, asks once more and reports, in this order, and no
timer is left.  The one thing the report does not look at is whether any abort returned: a
host that ends its turn by itself, while every abort throws, is reported as aborted.
-/
import PiMesh.Extension.Interrupt

namespace PiMesh

open Hosting Transition

namespace InterruptCall

def isSend : InterruptCall × Bool → Bool
  | (.sendMessage, _) => true
  | _ => false

def isAbort : InterruptCall × Bool → Bool
  | (.abort, _) => true
  | _ => false

def isReport : InterruptCall × Bool → Bool
  | (.report _, _) => true
  | _ => false

/-- The call as the host sees it. -/
def hostCall? : InterruptCall × Bool → Option HostCall
  | (.abort, _) => some .abort
  | (.sendMessage, _) => some (.sendMessage true .steer)
  | _ => none

end InterruptCall

open InterruptCall

namespace Interrupt

section Programs

variable {host : Nat → Bool} {timings : InterruptTimings} {h : Hosted InterruptCall Interrupting}

/-- The calls that close a wait. -/
def closing (host : Nat → Bool) (now : Int) (h : Hosted InterruptCall Interrupting) :
    List (InterruptCall × Bool) :=
  let n := h.calls.length
  let outcome := if host (n + 1) then .aborted else .stillBusy
  [(.sendMessage, host n), (.isIdle, host (n + 1)),
    (.report ⟨outcome, h.vars.aborts, now - h.vars.start⟩, host (n + 2))]

/-- A wait that is closed. -/
def close (host : Nat → Bool) (now : Int) (h : Hosted InterruptCall Interrupting) :
    Hosted InterruptCall Interrupting where
  calls := h.calls ++ closing host now h
  vars := { h.vars with finished := true, poll := false, cap := false, reabortTimers := [] }

theorem run_finish (now : Int) (hopen : h.vars.finished = false) :
    finish host now h = .ok () (close host now h) := by
  simp [finish, hopen, safeDeliver, report, close, closing, Hosted.next, Hosted.record]

theorem run_countAbort : countAbort host h = .ok () { h with
    calls := h.calls ++ [(.abort, h.next host)]
    vars := { h.vars with aborts := h.vars.aborts + (if h.next host then 1 else 0) } } := by
  cases hnext : h.next host with
  | false => simp [countAbort, safeAbort, hnext, Hosted.record]
  | true => simp [countAbort, safeAbort, hnext, Hosted.record]

variable (host timings) in
theorem run_unavailable (now : Int) :
    deliverInterrupted host timings false now { vars := {} } = .ok ()
      { calls := [(.sendMessage, host 0), (.report ⟨.abortUnavailable, 0, 0⟩, host 1)]
        vars := {} } := by
  simp [deliverInterrupted, safeDeliver, report, Hosted.next, Hosted.record]

variable (timings) in
theorem run_alreadyIdle (now : Int) (hidle : host 0 = true) :
    deliverInterrupted host timings true now { vars := {} } = .ok ()
      { calls := [(.isIdle, true), (.sendMessage, host 1), (.report ⟨.alreadyIdle, 0, 0⟩, host 2)]
        vars := {} } := by
  simp [deliverInterrupted, safeDeliver, report, Hosted.next, Hosted.record, hidle]

variable (timings) in
theorem run_busy (now : Int) (hbusy : host 0 = false) :
    deliverInterrupted host timings true now { vars := {} } = .ok ()
      { calls := [(.isIdle, false), (.abort, host 1)]
        vars :=
          { aborts := if host 1 then 1 else 0, start := now, poll := true, cap := true,
            reabortTimers := List.range' 1 timings.reabortMax } } := by
  simp [deliverInterrupted, run_countAbort, Hosted.next, Hosted.record, hbusy]

/-- A further abort asks first. -/
theorem run_onReabort : onReabort host h =
    if h.next host then .ok () (h.record .isIdle true)
    else countAbort host (h.record .isIdle false) := by
  cases hnext : h.next host with
  | false => simp [onReabort, hnext]
  | true => simp [onReabort, hnext]

theorem run_onPoll (now : Int) : onPoll host timings now h =
    if h.next host = true ∨ now - h.vars.start ≥ timings.maxMs then
      finish host now (h.record .isIdle (h.next host))
    else .ok () (h.record .isIdle false) := by
  cases hnext : h.next host with
  | true => simp [onPoll, hnext]
  | false =>
      by_cases hlate : now - h.vars.start ≥ timings.maxMs
      · simp [onPoll, hnext, hlate]
      · simp [onPoll, hnext, hlate]

end Programs

end Interrupt

/-! ### The course of a wait -/

/-- The wait is open: the host was busy, and so far it was only asked and aborted. -/
structure WaitOpen (timings : InterruptTimings) (h : Hosted InterruptCall Interrupting) : Prop where
  busy : h.calls.head? = some (.isIdle, false)
  asked : ∀ c ∈ h.calls, c.1 = .isIdle ∨ c.1 = .abort
  counted : h.vars.aborts = h.calls.count (.abort, true)
  bounded : h.calls.countP isAbort + h.vars.reabortTimers.length ≤ 1 + timings.reabortMax
  poll : h.vars.poll = true
  cap : h.vars.cap = true
  finished : h.vars.finished = false

/-- How a wait ends: the calls before the delivery, the last question, and what is reported. -/
inductive Verdict (canAbort : Bool) :
    List (InterruptCall × Bool) → List (InterruptCall × Bool) → InterruptReport → Prop
  | unavailable {r : InterruptReport} (hcannot : canAbort = false)
      (houtcome : r.outcome = .abortUnavailable) : Verdict canAbort [] [] r
  | alreadyIdle {r : InterruptReport} (houtcome : r.outcome = .alreadyIdle) :
      Verdict canAbort [(.isIdle, true)] [] r
  | settled {asked : List (InterruptCall × Bool)} {r : InterruptReport} {idle : Bool}
      (hasked : ∀ c ∈ asked, c.1 = .isIdle ∨ c.1 = .abort)
      (haborts : r.aborts = asked.count (.abort, true))
      (houtcome : r.outcome = if idle then .aborted else .stillBusy) :
      Verdict canAbort asked [(.isIdle, idle)] r

/-- What an outcome tells of the calls before the report. -/
def OutcomeTold (canAbort : Bool) (pre : List (InterruptCall × Bool)) : InterruptOutcome → Prop
  | .aborted => pre.getLast? = some (.isIdle, true)
  | .stillBusy => pre.getLast? = some (.isIdle, false)
  | .alreadyIdle => pre.head? = some (.isIdle, true) ∧ ∀ c ∈ pre, c.1 ≠ .abort
  | .abortUnavailable => canAbort = false

/-- The wait is over. -/
def WaitOver (timings : InterruptTimings) (canAbort : Bool)
    (h : Hosted InterruptCall Interrupting) : Prop :=
  (h.vars.poll = false ∧ h.vars.cap = false ∧ h.vars.reabortTimers = []) ∧
  ∃ asked sent questions r told, Verdict canAbort asked questions r ∧
    asked.countP isAbort ≤ 1 + timings.reabortMax ∧
    h.calls = asked ++ (.sendMessage, sent) :: questions ++ [(.report r, told)]

/-- The number of the question that closes the wait, where a firing closes it. -/
def closingAt (host : Nat → Bool) (timings : InterruptTimings)
    (h : Hosted InterruptCall Interrupting) (x : Int × InterruptTimer) : Option Nat :=
  match x.2 with
  | .poll =>
      if h.next host = true ∨ x.1 - h.vars.start ≥ timings.maxMs then some (h.calls.length + 2)
      else none
  | .cap => some (h.calls.length + 1)
  | .reabort _ => none

section Course

variable {host : Nat → Bool} {timings : InterruptTimings} {canAbort : Bool}
  {h : Hosted InterruptCall Interrupting}

namespace WaitOpen

/-- One more question. -/
theorem ask (hopen : WaitOpen timings h) (b : Bool) : WaitOpen timings (h.record .isIdle b) where
  busy := by
    rw [Hosted.record_calls, List.head?_append, hopen.busy]
    rfl
  asked c hc := by
    rcases List.mem_append.mp hc with hc | hc
    · exact hopen.asked c hc
    · rw [List.mem_singleton.mp hc]
      exact .inl rfl
  counted := by simp [hopen.counted]
  bounded := by
    have := hopen.bounded
    simpa [isAbort] using this
  poll := hopen.poll
  cap := hopen.cap
  finished := hopen.finished

/-- One more abort, of the timer that fired. -/
theorem abort (hopen : WaitOpen timings h) {i : Nat} (hi : i ∈ h.vars.reabortTimers) (b : Bool) :
    WaitOpen timings { h with
      calls := h.calls ++ [(InterruptCall.abort, b)]
      vars := { h.vars with
        aborts := h.vars.aborts + (if b then 1 else 0)
        reabortTimers := h.vars.reabortTimers.erase i } } where
  busy := by
    show (h.calls ++ [(InterruptCall.abort, b)]).head? = _
    rw [List.head?_append, hopen.busy]
    rfl
  asked c hc := by
    rcases List.mem_append.mp hc with hc | hc
    · exact hopen.asked c hc
    · rw [List.mem_singleton.mp hc]
      exact .inr rfl
  counted := by
    show h.vars.aborts + _ = (h.calls ++ [(InterruptCall.abort, b)]).count (.abort, true)
    rw [hopen.counted, List.count_append]
    cases b with
    | false => rfl
    | true => rfl
  bounded := by
    have hlength := List.length_erase_of_mem hi
    have hpos := List.length_pos_of_mem hi
    have hbounded := hopen.bounded
    have hcount : (h.calls ++ [(InterruptCall.abort, b)]).countP isAbort
        = h.calls.countP isAbort + 1 := by
      rw [List.countP_append]
      rfl
    show (h.calls ++ [(InterruptCall.abort, b)]).countP isAbort + (h.vars.reabortTimers.erase i).length ≤ _
    omega
  poll := hopen.poll
  cap := hopen.cap
  finished := hopen.finished

/-- A timer of a further abort that finds the host idle does nothing. -/
theorem disarm (hopen : WaitOpen timings h) (i : Nat) : WaitOpen timings { h with
    vars := { h.vars with reabortTimers := h.vars.reabortTimers.erase i } } where
  busy := hopen.busy
  asked := hopen.asked
  counted := hopen.counted
  bounded := by
    have hle : (h.vars.reabortTimers.erase i).length ≤ h.vars.reabortTimers.length :=
      List.length_erase_le
    have hbounded := hopen.bounded
    show h.calls.countP isAbort + (h.vars.reabortTimers.erase i).length ≤ _
    omega
  poll := hopen.poll
  cap := hopen.cap
  finished := hopen.finished

theorem close (hopen : WaitOpen timings h) (now : Int) :
    WaitOver timings canAbort (Interrupt.close host now h) := by
  refine ⟨⟨rfl, rfl, rfl⟩, h.calls, host h.calls.length, [(.isIdle, host (h.calls.length + 1))],
    ⟨if host (h.calls.length + 1) then .aborted else .stillBusy, h.vars.aborts, now - h.vars.start⟩,
    host (h.calls.length + 2), .settled hopen.asked hopen.counted rfl, ?_, ?_⟩
  · have hbounded := hopen.bounded
    omega
  · simp [Interrupt.close, Interrupt.closing]

variable (host) in
/-- **A firing leaves the wait open, or closes it.** -/
theorem fire (hopen : WaitOpen timings h) {x : Int × InterruptTimer}
    (harmed : Interrupt.armed h.vars x.2 = true) :
    (closingAt host timings h x = none ∧
      ∃ h', Interrupt.fire host timings x.1 x.2 h = .ok () h' ∧ WaitOpen timings h') ∨
    ∃ g, WaitOpen timings g ∧ g.vars.aborts = h.vars.aborts ∧
      closingAt host timings h x = some (g.calls.length + 1) ∧
      Interrupt.fire host timings x.1 x.2 h = .ok () (Interrupt.close host x.1 g) := by
  obtain ⟨now, t⟩ := x
  cases t with
  | poll =>
      have hrun : Interrupt.fire host timings now .poll h = _ := Interrupt.run_onPoll now
      rw [hrun]
      unfold closingAt
      by_cases hclose : h.next host = true ∨ now - h.vars.start ≥ timings.maxMs
      · refine .inr ⟨h.record .isIdle (h.next host), hopen.ask _, rfl, ?_, ?_⟩
        · simp [hclose]
        · rw [if_pos hclose, Interrupt.run_finish now (hopen.ask _).finished]
      · refine .inl ⟨if_neg hclose, h.record .isIdle false, if_neg hclose, hopen.ask _⟩
  | cap =>
      refine .inr ⟨h, hopen, rfl, rfl, ?_⟩
      -- the cap is no longer armed when it runs
      exact Interrupt.run_finish (h := { h with vars := { h.vars with cap := false } }) now
        hopen.finished
  | reabort i =>
      have hi : i ∈ h.vars.reabortTimers := by simpa [Interrupt.armed] using harmed
      refine .inl ⟨rfl, ?_⟩
      show ∃ h', Interrupt.onReabort host { h with
        vars := { h.vars with reabortTimers := h.vars.reabortTimers.erase i } } = _ ∧ _
      rw [Interrupt.run_onReabort]
      split
      · exact ⟨_, rfl, (hopen.disarm i).ask true⟩
      · rw [Interrupt.run_countAbort]
        exact ⟨_, rfl, (hopen.ask false).abort hi _⟩

end WaitOpen

namespace Verdict

variable {l l' : List (InterruptCall × Bool)} {r : InterruptReport}

theorem asked (hverdict : Verdict canAbort l l' r) : ∀ c ∈ l, c.1 = .isIdle ∨ c.1 = .abort := by
  cases hverdict with
  | unavailable => simp
  | alreadyIdle => simp
  | settled hasked => exact hasked

theorem questions (hverdict : Verdict canAbort l l' r) : ∀ c ∈ l', c.1 = .isIdle := by
  cases hverdict with
  | unavailable => simp
  | alreadyIdle => simp
  | settled => simp

/-- The report is the last call, and the only one. -/
theorem report_last (hverdict : Verdict canAbort l l' r) {sent told b : Bool}
    {r' : InterruptReport} {pre post : List (InterruptCall × Bool)}
    (hcalls : l ++ (.sendMessage, sent) :: l' ++ [(.report r, told)] =
      pre ++ (.report r', b) :: post) :
    pre = l ++ (.sendMessage, sent) :: l' ∧ r' = r := by
  have hnone : ((.report r', b) : InterruptCall × Bool) ∉ l ++ (.sendMessage, sent) :: l' := by
    intro hmem
    rcases List.mem_append.mp hmem with hmem | hmem
    · rcases hverdict.asked _ hmem with heq | heq
      · cases heq
      · cases heq
    · rcases List.mem_cons.mp hmem with heq | hmem
      · cases heq
      · cases hverdict.questions _ hmem
  obtain ⟨hpre, heq, -⟩ := entry_unique hnone (List.not_mem_nil) hcalls
  exact ⟨hpre, InterruptCall.report.inj (Prod.mk.inj heq).1⟩

theorem told (hverdict : Verdict canAbort l l' r) (sent : Bool) :
    OutcomeTold canAbort (l ++ (.sendMessage, sent) :: l') r.outcome := by
  cases hverdict with
  | unavailable hcannot houtcome =>
      rw [houtcome]
      exact hcannot
  | alreadyIdle houtcome =>
      rw [houtcome]
      exact ⟨rfl, by simp⟩
  | @settled _ _ idle _ _ houtcome =>
      rw [houtcome]
      cases idle with
      | true => simp [OutcomeTold]
      | false => simp [OutcomeTold]

end Verdict

variable (host timings canAbort) in
/-- How it starts: the wait is open, or it is over with no claim of an abort. -/
theorem Interrupt.start_course (now : Int) :
    Returns (Interrupt.deliverInterrupted host timings canAbort now) { vars := {} } ∧
    (WaitOpen timings (Interrupt.start host timings canAbort now) ∨
      WaitOver timings canAbort (Interrupt.start host timings canAbort now) ∧
        ∀ r told, (.report r, told) ∈ (Interrupt.start host timings canAbort now).calls →
          r.outcome ≠ .aborted) := by
  cases canAbort with
  | false =>
      have hrun := Interrupt.run_unavailable host timings now
      unfold Interrupt.start
      rw [after_of_run hrun]
      refine ⟨⟨_, _, hrun⟩, .inr ⟨⟨⟨rfl, rfl, rfl⟩, [], host 0, [], _, host 1,
        .unavailable rfl rfl, Nat.zero_le _, rfl⟩, ?_⟩⟩
      intro r told hmem
      obtain ⟨rfl, -⟩ : r = _ ∧ told = _ := by simpa using hmem
      exact fun h => by cases h
  | true =>
      cases hidle : host 0 with
      | true =>
          have hrun := Interrupt.run_alreadyIdle timings now hidle
          unfold Interrupt.start
          rw [after_of_run hrun]
          refine ⟨⟨_, _, hrun⟩, .inr ⟨⟨⟨rfl, rfl, rfl⟩, [(.isIdle, true)], host 1, [], _, host 2,
            .alreadyIdle rfl, Nat.zero_le _, rfl⟩, ?_⟩⟩
          intro r told hmem
          obtain ⟨rfl, -⟩ : r = _ ∧ told = _ := by simpa using hmem
          exact fun h => by cases h
      | false =>
          have hrun := Interrupt.run_busy timings now hidle
          unfold Interrupt.start
          rw [after_of_run hrun]
          refine ⟨⟨_, _, hrun⟩, .inl ⟨rfl, by simp, ?_, ?_, rfl, rfl, rfl⟩⟩
          · cases host 1 with
            | false => rfl
            | true => rfl
          · show 1 + (List.range' 1 timings.reabortMax).length ≤ 1 + timings.reabortMax
            rw [List.length_range']

/-- What happens at once is what `injectInbound` sees of it. -/
theorem Interrupt.start_calls {ctx : Option SessionContext}
    (hagree : ∀ idle, abortable ctx = some idle → host 0 = idle 0) (now : Int) :
    (Interrupt.start host timings (abortable ctx).isSome now).calls.filterMap hostCall? =
      (PiMesh.deliverInterrupted ctx).calls := by
  unfold Interrupt.start PiMesh.deliverInterrupted
  cases hidle : abortable ctx with
  | none =>
      rw [Option.isSome_none, after_of_run (Interrupt.run_unavailable _ _ now)]
      rfl
  | some idle =>
      have hzero := hagree idle hidle
      rw [Option.isSome_some]
      dsimp only
      cases hnow : host 0 with
      | true =>
          rw [after_of_run (Interrupt.run_alreadyIdle _ now hnow), if_pos (hzero.symm.trans hnow)]
          rfl
      | false =>
          have hbusy : ¬ idle 0 = true := by
            rw [← hzero, hnow]
            exact Bool.false_ne_true
          rw [after_of_run (Interrupt.run_busy _ now hnow), if_neg hbusy]
          rfl

end Course

/-! ### What is promised -/

/-- A turn is reported as aborted only if an abort returned. -/
def AbortEarned (h : Hosted InterruptCall Interrupting) : Prop :=
  ∀ pre r b post, h.calls = pre ++ (.report r, b) :: post → r.outcome = .aborted →
    (.abort, true) ∈ pre

/-- An interrupt that is bounded, and reported as it went. -/
structure InterruptHonest (host : Nat → Bool) (timings : InterruptTimings) (canAbort : Bool)
    (h : Hosted InterruptCall Interrupting) : Prop where
  /-- No timer throws. -/
  returns : ∀ x : Int × InterruptTimer, Interrupt.armed h.vars x.2 = true →
    Returns (Interrupt.fire host timings x.1 x.2) h
  /-- Once the cap is gone, one delivery was tried and one report made; none before. -/
  sent : h.calls.countP isSend = if h.vars.cap then 0 else 1
  reported : h.calls.countP isReport = if h.vars.cap then 0 else 1
  closes : h.vars.cap = true → ∀ now, ∃ h', InterruptStep host timings h (now, .cap) h' ∧
    h'.vars.cap = false
  aborts : h.calls.countP isAbort ≤ 1 + timings.reabortMax
  before : ∀ pre b post, h.calls = pre ++ (.sendMessage, b) :: post → ∀ c ∈ post, c.1 ≠ .abort
  told : ∀ pre r b post, h.calls = pre ++ (.report r, b) :: post → OutcomeTold canAbort pre r.outcome
  earned : AbortEarned h

/-- A firing that closes the wait, with the host idle, follows an abort that returned. -/
def Earns (host : Nat → Bool) (timings : InterruptTimings) (h : Hosted InterruptCall Interrupting)
    (x : Int × InterruptTimer) : Prop :=
  ∀ n, closingAt host timings h x = some n → host n = true → 0 < h.vars.aborts

section Honest

variable {host : Nat → Bool} {timings : InterruptTimings} {canAbort : Bool}
  {h : Hosted InterruptCall Interrupting}

/-- What was only asked and aborted counts as nothing else. -/
theorem count_asked {l : List (InterruptCall × Bool)}
    (hasked : ∀ c ∈ l, c.1 = .isIdle ∨ c.1 = .abort) {p : InterruptCall × Bool → Bool}
    (hidle : ∀ b, p (.isIdle, b) = false) (habort : ∀ b, p (.abort, b) = false) :
    l.countP p = 0 := by
  rw [List.countP_eq_zero]
  rintro ⟨c, b⟩ hc
  rcases hasked (c, b) hc with heq | heq
  · rw [show c = .isIdle from heq, hidle]
    simp
  · rw [show c = .abort from heq, habort]
    simp

namespace WaitOpen

/-- Nothing is delivered or reported yet. -/
theorem silent (hopen : WaitOpen timings h) {c : InterruptCall} {b : Bool}
    {pre post : List (InterruptCall × Bool)} (hcalls : h.calls = pre ++ (c, b) :: post)
    (hidle : c ≠ .isIdle) (habort : c ≠ .abort) : False := by
  rcases hopen.asked (c, b) (by rw [hcalls]; simp) with heq | heq
  · exact hidle heq
  · exact habort heq

theorem honest (hopen : WaitOpen timings h) : InterruptHonest host timings canAbort h where
  returns x harmed := by
    rcases hopen.fire host harmed with ⟨-, h', hrun, -⟩ | ⟨g, -, -, -, hrun⟩
    · exact ⟨(), h', hrun⟩
    · exact ⟨(), _, hrun⟩
  sent := by
    rw [if_pos hopen.cap]
    exact count_asked hopen.asked (fun _ => rfl) fun _ => rfl
  reported := by
    rw [if_pos hopen.cap]
    exact count_asked hopen.asked (fun _ => rfl) fun _ => rfl
  closes hcap now := by
    rcases hopen.fire host (x := (now, .cap)) hcap with ⟨hnone, -⟩ | ⟨g, -, -, -, hrun⟩
    · cases hnone
    · refine ⟨Interrupt.close host now g, ?_, rfl⟩
      exact (if_pos hcap).trans (congrArg some (after_of_run hrun))
  aborts := by
    have hbounded := hopen.bounded
    omega
  before pre b post hcalls := (hopen.silent hcalls (by simp) (by simp)).elim
  told pre r b post hcalls := (hopen.silent hcalls (by simp) (by simp)).elim
  earned pre r b post hcalls := (hopen.silent hcalls (by simp) (by simp)).elim

end WaitOpen

/-- Once the wait is over no timer is armed. -/
theorem WaitOver.unarmed (hover : WaitOver timings canAbort h) (t : InterruptTimer) :
    Interrupt.armed h.vars t = false := by
  obtain ⟨⟨hpoll, hcap, htimers⟩, -⟩ := hover
  cases t with
  | poll => exact hpoll
  | cap => exact hcap
  | reabort i => simp [Interrupt.armed, htimers]

/-- A wait that is over was honest, up to whether an abort returned. -/
theorem WaitOver.honest (hover : WaitOver timings canAbort h) (hearned : AbortEarned h) :
    InterruptHonest host timings canAbort h := by
  have harmed := hover.unarmed
  obtain ⟨⟨-, hcap, -⟩, asked, sent, questions, r, told, hverdict, hbounded, hcalls⟩ := hover
  have hquestions : ∀ c ∈ questions, c.1 = .isIdle ∨ c.1 = .abort :=
    fun c hc => .inl (hverdict.questions c hc)
  refine
    { returns := fun x hx => (by rw [harmed] at hx; cases hx)
      sent := ?_
      reported := ?_
      closes := fun hopen => (by rw [hcap] at hopen; cases hopen)
      aborts := ?_
      before := ?_
      told := ?_
      earned := hearned }
  · rw [hcap, hcalls, List.countP_append, List.countP_append, List.countP_cons,
      count_asked hverdict.asked (fun _ => rfl) fun _ => rfl,
      count_asked hquestions (fun _ => rfl) fun _ => rfl]
    rfl
  · rw [hcap, hcalls, List.countP_append, List.countP_append, List.countP_cons,
      count_asked hverdict.asked (fun _ => rfl) fun _ => rfl,
      count_asked hquestions (fun _ => rfl) fun _ => rfl]
    rfl
  · have hnone : questions.countP isAbort = 0 := by
      rw [List.countP_eq_zero]
      rintro ⟨c, b⟩ hc
      rw [show c = .isIdle from hverdict.questions _ hc]
      simp [isAbort]
    rw [hcalls, List.countP_append, List.countP_append, List.countP_cons, hnone]
    exact hbounded
  · intro pre b post heq c hc habort
    have hbefore : ((.sendMessage, b) : InterruptCall × Bool) ∉ asked := by
      intro hmem
      rcases hverdict.asked _ hmem with hkind | hkind
      · cases hkind
      · cases hkind
    have hafter : ((.sendMessage, b) : InterruptCall × Bool) ∉ questions ++ [(.report r, told)] := by
      intro hmem
      rcases List.mem_append.mp hmem with hmem | hmem
      · cases hverdict.questions _ hmem
      · simp at hmem
    rw [hcalls, List.append_assoc, List.cons_append] at heq
    obtain ⟨-, -, rfl⟩ := entry_unique hbefore hafter heq
    rcases List.mem_append.mp hc with hc | hc
    · rw [hverdict.questions c hc] at habort
      cases habort
    · rw [List.mem_singleton.mp hc] at habort
      cases habort
  · intro pre r' b post heq
    obtain ⟨rfl, rfl⟩ := hverdict.report_last (hcalls.symm.trans heq)
    exact hverdict.told sent

/-- What closes a wait claims an abort where the last question finds the host idle. -/
theorem WaitOpen.earned_close (hopen : WaitOpen timings h) (now : Int) :
    AbortEarned (Interrupt.close host now h) ↔
      (host (h.calls.length + 1) = true → 0 < h.vars.aborts) := by
  have hcount : 0 < h.vars.aborts ↔ (.abort, true) ∈ h.calls := by
    rw [hopen.counted, List.count_pos_iff]
  have hcalls : (Interrupt.close host now h).calls =
      (h.calls ++ [(.sendMessage, host h.calls.length), (.isIdle, host (h.calls.length + 1))]) ++
        [(.report ⟨if host (h.calls.length + 1) then .aborted else .stillBusy, h.vars.aborts,
          now - h.vars.start⟩, host (h.calls.length + 2))] := by
    simp [Interrupt.close, Interrupt.closing]
  rw [hcount]
  constructor
  · intro hearned hidle
    simpa using hearned _ _ _ [] hcalls (by simp [hidle])
  · intro hsome pre r b post heq houtcome
    have hverdict : Verdict true h.calls [(.isIdle, host (h.calls.length + 1))] _ :=
      .settled (r := ⟨if host (h.calls.length + 1) then .aborted else .stillBusy, h.vars.aborts,
        now - h.vars.start⟩) hopen.asked hopen.counted rfl
    obtain ⟨rfl, rfl⟩ := hverdict.report_last (by simpa using hcalls.symm.trans heq)
    cases hidle : host (h.calls.length + 1) with
    | false => simp [hidle] at houtcome
    | true => exact List.mem_append_left _ (hsome hidle)

end Honest

/-- **An interrupt is bounded, and reported as it went, exactly if an abort returned wherever
the last question of a wait finds the host idle.** -/
theorem interrupt_honest_iff {host : Nat → Bool} {timings : InterruptTimings} {canAbort : Bool}
    {now : Int} {tr : List (Hosted InterruptCall Interrupting × (Int × InterruptTimer))}
    {h : Hosted InterruptCall Interrupting}
    (hrun : Run (InterruptStep host timings) (Interrupt.start host timings canAbort now) tr h) :
    InterruptHonest host timings canAbort h ↔ Meets (Earns host timings) tr := by
  have hkept : (WaitOpen timings h ∧ Meets (Earns host timings) tr) ∨
      (WaitOver timings canAbort h ∧ (AbortEarned h ↔ Meets (Earns host timings) tr)) := by
    refine hrun.along (P := fun tr h => (WaitOpen timings h ∧ Meets (Earns host timings) tr) ∨
      (WaitOver timings canAbort h ∧ (AbortEarned h ↔ Meets (Earns host timings) tr)))
      (Meets.trivial tr) ?_ fun tr s x s' _ _ hs _ hstep => ?_
    · rcases (Interrupt.start_course host timings canAbort now).2 with hopen | ⟨hover, hno⟩
      · exact .inl ⟨hopen, fun x hx => by cases hx⟩
      · refine .inr ⟨hover, fun _ x hx => (by cases hx), fun _ pre r b post heq houtcome => ?_⟩
        exact absurd houtcome (hno r b (by rw [heq]; simp))
    · have harmed : Interrupt.armed s.vars x.2 = true := by
        by_contra hnot
        rw [InterruptStep, Interrupt.step, if_neg hnot] at hstep
        cases hstep
      have hs' : after (Interrupt.fire host timings x.1 x.2) s = s' := by
        rw [InterruptStep, Interrupt.step, if_pos harmed] at hstep
        exact Option.some.inj hstep
      rcases hs with ⟨hopen, hmeets⟩ | ⟨hover, -⟩
      · rw [Meets.snoc_iff]
        rcases hopen.fire host harmed with
          ⟨hnone, h', hfire, hopen'⟩ | ⟨g, hg, haborts, hclosing, hfire⟩
        · rw [after_of_run hfire] at hs'
          subst hs'
          refine .inl ⟨hopen', hmeets, fun n hn => ?_⟩
          rw [hnone] at hn
          cases hn
        · rw [after_of_run hfire] at hs'
          subst hs'
          refine .inr ⟨hg.close x.1, ?_⟩
          rw [hg.earned_close, haborts]
          constructor
          · intro hone
            refine ⟨hmeets, fun n hn => ?_⟩
            rw [hclosing] at hn
            obtain rfl := Option.some.inj hn
            exact hone
          · exact fun hearns => hearns.2 _ hclosing
      · rw [hover.unarmed] at harmed
        cases harmed
  rcases hkept with ⟨hopen, hmeets⟩ | ⟨hover, hiff⟩
  · exact ⟨fun _ => hmeets, fun _ => hopen.honest⟩
  · exact ⟨fun hhonest => hiff.mp hhonest.earned, fun hmeets => hover.honest (hiff.mpr hmeets)⟩

/-- A busy host, one abort that returns, and a poll that finds it idle. -/
theorem interrupt_honest_aborted :
    InterruptHonest (fun n => decide (0 < n)) {} true
      (Interrupt.close (fun n => decide (0 < n)) 50
        ((Interrupt.start (fun n => decide (0 < n)) {} true 0).record .isIdle true)) := by
  have hpoll : InterruptStep (fun n => decide (0 < n)) {}
    (Interrupt.start (fun n => decide (0 < n)) {} true 0) (50, .poll) _ := rfl
  refine (interrupt_honest_iff (Run.nil.snoc hpoll)).mpr fun x hx n hn hidle => ?_
  rw [List.mem_singleton.mp hx]
  exact Nat.one_pos

/-- Every abort throws, and the host ends its turn by itself: the report says aborted. -/
theorem throwing_host_reported_aborted : ∃ tr h,
    Run (InterruptStep (fun n => decide (1 < n)) {})
      (Interrupt.start (fun n => decide (1 < n)) {} true 0) tr h ∧
    h.calls = [(.isIdle, false), (.abort, false), (.isIdle, true), (.sendMessage, true),
      (.isIdle, true), (.report ⟨.aborted, 0, 50⟩, true)] ∧
    ¬ InterruptHonest (fun n => decide (1 < n)) {} true h := by
  have hpoll : InterruptStep (fun n => decide (1 < n)) {}
    (Interrupt.start (fun n => decide (1 < n)) {} true 0) (50, .poll) _ := rfl
  have hcalls : (after (Interrupt.fire (fun n => decide (1 < n)) {} 50 .poll)
      (Interrupt.start (fun n => decide (1 < n)) {} true 0)).calls =
    [(.isIdle, false), (.abort, false), (.isIdle, true), (.sendMessage, true),
      (.isIdle, true), (.report ⟨.aborted, 0, 50⟩, true)] := by decide +kernel
  refine ⟨_, _, Run.nil.snoc hpoll, hcalls, fun h => ?_⟩
  have hearned := h.earned [(.isIdle, false), (.abort, false), (.isIdle, true),
    (.sendMessage, true), (.isIdle, true)] ⟨.aborted, 0, 50⟩ true [] hcalls rfl
  simp at hearned

end PiMesh
