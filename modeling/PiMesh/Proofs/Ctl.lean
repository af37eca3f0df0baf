/-
What a control frame's acknowledgement says.

Up to the acknowledgement the host was only asked and aborted, and a local extension was asked
at most once.  The acknowledgement is the last call, with its line in the ledger and, for a
redirect, the injection right before it.  On the turn of this session its status is what was
seen; but the status of a local extension is passed on if it is in the vocabulary, and the
vocabulary has the two words that speak of a turn.
-/
import PiMesh.Extension.Ctl

namespace PiMesh

open Js Hosting Transition

variable {ν : Type}

def CtlCall.isAck : CtlCall ν × Bool → Bool
  | (.ack _, _) => true
  | _ => false

/-- A look at the turn, an abort or a request to the local extensions. -/
def CtlCall.Quiet (c : CtlCall ν × Bool) : Prop :=
  c.1 = .isIdle ∨ c.1 = .abort ∨ ∃ p, c.1 = .emit p

/-- Seen busy, aborted and then seen idle. -/
def turnAborted : List (CtlCall ν × Bool) :=
  [(.isIdle, false), (.abort, true), (.isIdle, true)]

/-- A steer is passed on for an allowed sender only. -/
def SteersAllowed (target : CtlTarget) (frame : CtlFrame) (calls : List (CtlCall ν × Bool)) : Prop :=
  ∀ p b, (.emit p, b) ∈ calls → p.action = "run_steer" →
    ∃ sender, frame.sender = some sender ∧ sender ∈ target.ctlAllowFrom

/-- The acknowledgement says what happened. -/
structure CtlHonest (target : CtlTarget) (frame : CtlFrame) (calls : List (CtlCall ν × Bool)) :
    Prop where
  one : calls.countP CtlCall.isAck ≤ 1
  vocabulary : ∀ a b, (.ack a, b) ∈ calls → a.status ∈ ctlStatuses
  redirected : (∃ content, (.sendMessage content, true) ∈ calls) ↔
    ∃ a b, (.ack a, b) ∈ calls ∧ a.status = "redirected"
  idle : ∀ pre content b post, calls = pre ++ (.sendMessage content, b) :: post →
    pre.getLast? = some (.isIdle, true)
  aborted : ∀ pre a b post, calls = pre ++ (.ack a, b) :: post → a.status = "aborted" →
    turnAborted.Sublist pre
  steer : SteersAllowed target frame calls

/-! ### Acknowledgements -/

/-- What is injected, and the status, after the calls that were made. -/
structure Tells (pre inj : List (CtlCall ν × Bool)) (status : String) : Prop where
  vocabulary : status ∈ ctlStatuses
  injected : inj = [] ∨ ∃ content b, inj = [(.sendMessage content, b)] ∧
    pre.getLast? = some (.isIdle, true)
  redirected : (∃ content, (.sendMessage content, true) ∈ inj) ↔ status = "redirected"
  aborted : status = "aborted" → turnAborted.Sublist pre

/-- The frame is acknowledged after the calls that were made. -/
def Acked (h : Hosted (CtlCall ν) (CtlVars ν)) (pre inj : List (CtlCall ν × Bool))
    (status : String) : Prop :=
  (h.vars.acked = true ∧ h.vars.phase = .over ∧ h.vars.emitting = false) ∧
  ∃ input b a, a.status = status ∧
    h.calls = pre ++ inj ++ [(.ledger input, b), (.ack a, true)]

section Acks

variable {host : Nat → Bool} {target : CtlTarget} {frame : CtlFrame} {sender : String}
  {h : Hosted (CtlCall ν) (CtlVars ν)}

/-- A session that has not acknowledged yet, between two calls of its own. -/
structure CtlReady (h : Hosted (CtlCall ν) (CtlVars ν)) : Prop where
  acked : h.vars.acked = false
  phase : h.vars.phase = .over
  emitting : h.vars.emitting = false

theorem CtlReady.record (hready : CtlReady h) (c : CtlCall ν) (b : Bool) :
    CtlReady (h.record c b) := ⟨hready.acked, hready.phase, hready.emitting⟩

theorem Ctl.run_ack (hopen : h.vars.acked = false) (status : String) (settled : Option (Json ν))
    (reason : Option String) :
    Ctl.ack host target frame sender status settled reason h = .ok ()
      { calls := h.calls ++
          [(.ledger (Ctl.ledgerInput target frame sender status), h.next host),
            (.ack { replyTo := frame.id, recipient := sender, status,
                    action := frame.action.getD "", settled, reason }, true)]
        vars := { h.vars with
          acked := true
          ledgerFailures := h.vars.ledgerFailures + (if h.next host then 0 else 1) } } := by
  unfold Hosted.next
  cases hnext : host h.calls.length with
  | false => simp [Ctl.ack, hopen, hnext, Hosted.next, Hosted.record]
  | true => simp [Ctl.ack, hopen, hnext, Hosted.next, Hosted.record]

variable (host target frame sender) in
theorem CtlReady.ack (hready : CtlReady h) {pre inj : List (CtlCall ν × Bool)}
    (hcalls : h.calls = pre ++ inj) (status : String) (settled : Option (Json ν))
    (reason : Option String) :
    ∃ h', Ctl.ack host target frame sender status settled reason h = .ok () h' ∧
      Acked h' pre inj status := by
  refine ⟨_, Ctl.run_ack hready.acked status settled reason,
    ⟨rfl, hready.phase, hready.emitting⟩, Ctl.ledgerInput target frame sender status, h.next host,
    { replyTo := frame.id, recipient := sender, status, action := frame.action.getD "", settled,
      reason }, rfl, ?_⟩
  rw [hcalls]

variable (host target frame sender) in
/-- A redirect is injected after the turn was seen idle, and says whether it was. -/
theorem CtlReady.redirect (hready : CtlReady h) (hidle : h.calls.getLast? = some (.isIdle, true)) :
    ∃ h' inj status, Ctl.redirect host target frame sender h = .ok () h' ∧
      Acked h' h.calls inj status ∧ Tells h.calls inj status := by
  have hready' := hready.record (.sendMessage (Ctl.redirectContent frame sender)) (h.next host)
  unfold Ctl.redirect Ctl.injectRedirect
  rw [run_bind, run_caught_perform]
  cases hnext : h.next host with
  | false =>
      rw [hnext] at hready'
      obtain ⟨h', hrun, hacked⟩ := hready'.ack host target frame sender rfl "error" none none
      refine ⟨h', _, _, hrun, hacked, by decide, .inr ⟨_, _, rfl, hidle⟩, ?_, fun h => ?_⟩
      · simp
      · exact absurd h (by decide)
  | true =>
      rw [hnext] at hready'
      obtain ⟨h', hrun, hacked⟩ := hready'.ack host target frame sender
        rfl "redirected" (some (.bool true)) none
      refine ⟨h', _, _, hrun, hacked, by decide, .inr ⟨_, _, rfl, hidle⟩, ?_, fun h => ?_⟩
      · simp
      · exact absurd h (by decide)

/-- Nothing is injected for a status that does not speak of the turn. -/
theorem Tells.plain {pre : List (CtlCall ν × Bool)} {status : String}
    (hvocabulary : status ∈ ctlStatuses) (haborted : status ≠ "aborted")
    (hredirected : status ≠ "redirected") : Tells pre [] status where
  vocabulary := hvocabulary
  injected := .inl rfl
  redirected := by simp [hredirected]
  aborted h := absurd h haborted

variable (host target frame sender) in
/-- What follows the settle loop says what was seen of an aborted turn. -/
theorem Ctl.run_settled (hopen : h.vars.acked = false) (hemitting : h.vars.emitting = false)
    (hturn : [(CtlCall.isIdle, false), (.abort, true)].Sublist h.calls) :
    ∃ h' inj status, Ctl.settled host target frame sender h = .ok () h' ∧
      Acked h' (h.calls ++ [(.isIdle, h.next host)]) inj status ∧
      Tells (h.calls ++ [(.isIdle, h.next host)]) inj status := by
  have hready : CtlReady (Hosted.record { h with vars := { h.vars with phase := .over } } .isIdle
      (h.next host)) := ⟨hopen, rfl, hemitting⟩
  unfold Ctl.settled
  rw [run_bind, run_change]
  dsimp only
  rw [run_bind, run_ask]
  dsimp only [Hosted.next] at hready ⊢
  rw [run_ite]
  by_cases haction : frame.action = some "redirect"
  · rw [if_pos haction]
    cases hidle : host h.calls.length with
    | true =>
        rw [hidle] at hready
        obtain ⟨h', inj, status, hrun, hacked, htells⟩ := hready.redirect host target frame sender
          (by simp)
        exact ⟨h', inj, status, hrun, hacked, htells⟩
    | false =>
        rw [hidle] at hready
        obtain ⟨h', hrun, hacked⟩ := hready.ack host target frame sender
          (List.append_nil _).symm "still_busy" (some (.bool false)) none
        exact ⟨h', [], _, hrun, hacked, .plain (by decide) (by decide) (by decide)⟩
  · rw [if_neg haction]
    cases hidle : host h.calls.length with
    | true =>
        rw [hidle] at hready
        obtain ⟨h', hrun, hacked⟩ := hready.ack host target frame sender
          (List.append_nil _).symm "aborted" (some (.bool true)) none
        refine ⟨h', [], _, hrun, hacked, by decide, .inl rfl, by simp, fun _ => ?_⟩
        exact hturn.append (List.Sublist.refl [(CtlCall.isIdle, true)])
    | false =>
        rw [hidle] at hready
        obtain ⟨h', hrun, hacked⟩ := hready.ack host target frame sender
          (List.append_nil _).symm "still_busy" (some (.bool false)) none
        exact ⟨h', [], _, hrun, hacked, .plain (by decide) (by decide) (by decide)⟩

end Acks

/-! ### Before and after the acknowledgement -/

/-- Nothing was acknowledged or injected yet. -/
structure CtlWaiting (target : CtlTarget) (frame : CtlFrame) (h : Hosted (CtlCall ν) (CtlVars ν)) :
    Prop where
  acked : h.vars.acked = false
  quiet : ∀ c ∈ h.calls, CtlCall.Quiet c
  steer : SteersAllowed target frame h.calls
  turn : ∀ deadline, h.vars.phase = .settling deadline →
    h.vars.emitting = false ∧ [(CtlCall.isIdle, false), (.abort, true)].Sublist h.calls
  asking : h.vars.phase = .asking → ∀ c ∈ h.calls, ∃ p, c.1 = .emit p
  answered : ∀ reply, h.vars.phase = .answered reply → ∀ c ∈ h.calls, ∃ p, c.1 = .emit p

/-- The frame was acknowledged with what happened. -/
def CtlDone (target : CtlTarget) (frame : CtlFrame) (h : Hosted (CtlCall ν) (CtlVars ν)) : Prop :=
  ∃ pre inj status, Acked h pre inj status ∧ Tells pre inj status ∧
    (∀ c ∈ pre, CtlCall.Quiet c) ∧ SteersAllowed target frame pre

section Course

variable {host : Nat → Bool} {target : CtlTarget} {frame : CtlFrame} {sender : String}
  {h : Hosted (CtlCall ν) (CtlVars ν)}

/-- A look at the turn steers nothing. -/
theorem SteersAllowed.snoc {calls : List (CtlCall ν × Bool)} {c : CtlCall ν × Bool}
    (hsteer : SteersAllowed target frame calls) (hc : ∀ p, c.1 ≠ .emit p) :
    SteersAllowed target frame (calls ++ [c]) := by
  intro p b hmem haction
  rcases List.mem_append.mp hmem with hmem | hmem
  · exact hsteer p b hmem haction
  · rw [← List.mem_singleton.mp hmem] at hc
    exact absurd rfl (hc p)

theorem quiet_snoc {calls : List (CtlCall ν × Bool)} (hquiet : ∀ c ∈ calls, CtlCall.Quiet c)
    {last : CtlCall ν × Bool} (hlast : CtlCall.Quiet last) :
    ∀ c ∈ calls ++ [last], CtlCall.Quiet c := by
  intro c hmem
  rcases List.mem_append.mp hmem with hmem | hmem
  · exact hquiet c hmem
  · rw [List.mem_singleton.mp hmem]
    exact hlast

variable (host target frame sender) in
/-- **The settle loop sleeps, or acknowledges what it saw.** -/
theorem Ctl.run_settleLoop (hopen : h.vars.acked = false) (hemitting : h.vars.emitting = false)
    (hquiet : ∀ c ∈ h.calls, CtlCall.Quiet c) (hsteer : SteersAllowed target frame h.calls)
    (hturn : [(CtlCall.isIdle, false), (.abort, true)].Sublist h.calls) (now deadline : Int) :
    ∃ h', Ctl.settleLoop host target frame sender now deadline h = .ok () h' ∧
      (CtlWaiting target frame h' ∨ CtlDone target frame h') := by
  unfold Ctl.settleLoop
  rw [run_ite]
  by_cases hearly : now < deadline
  · rw [if_pos hearly, run_bind, run_ask]
    dsimp only
    rw [run_ite]
    have hquiet' : ∀ b, ∀ c ∈ h.calls ++ [(CtlCall.isIdle, b)], CtlCall.Quiet c :=
      fun b => quiet_snoc hquiet (.inl rfl)
    have hsteer' : ∀ b, SteersAllowed target frame (h.calls ++ [(CtlCall.isIdle, b)]) :=
      fun b => hsteer.snoc fun p hp => by cases hp
    by_cases hidle : h.next host = true
    · rw [if_pos hidle]
      obtain ⟨h', inj, status, hrun, hacked, htells⟩ := Ctl.run_settled host target frame sender
        (h := h.record .isIdle (h.next host)) hopen hemitting
        (hturn.trans (List.sublist_append_left _ _))
      refine ⟨h', hrun, .inr ⟨_, inj, status, hacked, htells, ?_, ?_⟩⟩
      · exact quiet_snoc (hquiet' _) (.inl rfl)
      · exact (hsteer' _).snoc fun p hp => by cases hp
    · rw [if_neg hidle, run_change]
      refine ⟨_, rfl, .inl ?_⟩
      refine ⟨hopen, hquiet' _, hsteer' _, fun d hd => ⟨hemitting, ?_⟩, fun hp => ?_, fun r hp => ?_⟩
      · exact hturn.trans (List.sublist_append_left _ _)
      · cases hp
      · cases hp
  · rw [if_neg hearly]
    obtain ⟨h', inj, status, hrun, hacked, htells⟩ := Ctl.run_settled host target frame sender
      hopen hemitting hturn
    refine ⟨h', hrun, .inr ⟨_, inj, status, hacked, htells, ?_, ?_⟩⟩
    · exact quiet_snoc hquiet (.inl rfl)
    · exact hsteer.snoc fun p hp => by cases hp

/-- The empty record, before anything was called. -/
theorem CtlReady.initial : CtlReady ({ vars := {} } : Hosted (CtlCall ν) (CtlVars ν)) :=
  ⟨rfl, rfl, rfl⟩

theorem SteersAllowed.nil : SteersAllowed target frame ([] : List (CtlCall ν × Bool)) :=
  fun p b hmem => by cases hmem

variable (host target frame sender) in
/-- A first look, and an abort, are quiet and steer nothing. -/
theorem Ctl.run_abortTurn (now : Int) :
    ∃ h', Ctl.abortTurn host target frame sender now
        ({ vars := {} } : Hosted (CtlCall ν) (CtlVars ν)) = .ok () h' ∧
      (CtlWaiting target frame h' ∨ CtlDone target frame h') := by
  have hnone : ∀ c ∈ ([] : List (CtlCall ν × Bool)), CtlCall.Quiet c := fun c hc => by cases hc
  have hlook : ∀ b, ∀ c ∈ [((CtlCall.isIdle : CtlCall ν), b)], CtlCall.Quiet c :=
    fun b => quiet_snoc hnone (.inl rfl)
  have hsteer : ∀ b, SteersAllowed target frame [((CtlCall.isIdle : CtlCall ν), b)] :=
    fun b => SteersAllowed.nil.snoc fun p hp => by cases hp
  have habort : ∀ b b', ∀ c ∈ [((CtlCall.isIdle : CtlCall ν), b), (.abort, b')], CtlCall.Quiet c :=
    fun b b' => quiet_snoc (hlook b) (.inr (.inl rfl))
  have hsteer' : ∀ b b', SteersAllowed target frame
      [((CtlCall.isIdle : CtlCall ν), b), (.abort, b')] :=
    fun b b' => (hsteer b).snoc fun p hp => by cases hp
  unfold Ctl.abortTurn
  rw [run_ite]
  by_cases hcan : (!target.canAbort) = true
  · rw [if_pos hcan]
    obtain ⟨h', hrun, hacked⟩ := CtlReady.initial.ack host target frame sender
          (List.append_nil []).symm "abort_unavailable" none none
    exact ⟨h', hrun, .inr ⟨_, _, _, hacked, .plain (by decide) (by decide) (by decide), hnone,
      .nil⟩⟩
  · rw [if_neg hcan, run_bind, run_ask]
    dsimp only [Hosted.next, Hosted.record]
    rw [run_ite]
    cases hidle : host 0 with
    | true =>
        rw [if_pos rfl, run_ite]
        have hready := CtlReady.initial.record (.isIdle : CtlCall ν) true
        by_cases haction : frame.action = some "redirect"
        · rw [if_pos haction]
          obtain ⟨h', inj, status, hrun, hacked, htells⟩ := hready.redirect host target frame sender
            rfl
          exact ⟨h', hrun, .inr ⟨_, inj, status, hacked, htells, hlook _, hsteer _⟩⟩
        · rw [if_neg haction]
          obtain ⟨h', hrun, hacked⟩ := hready.ack host target frame sender
            (List.append_nil _).symm "not_busy" (some (.bool true)) none
          exact ⟨h', hrun, .inr ⟨_, _, _, hacked, .plain (by decide) (by decide) (by decide),
            hlook _, hsteer _⟩⟩
    | false =>
        rw [if_neg Bool.false_ne_true, run_bind, run_caught_perform]
        dsimp only [Hosted.next, Hosted.record]
        rw [run_ite]
        cases habout : host ([] ++ [((CtlCall.isIdle : CtlCall ν), false)]).length with
        | true =>
            rw [if_pos rfl]
            exact Ctl.run_settleLoop host target frame sender
              (h := ⟨[(.isIdle, false), (.abort, true)], {}⟩) rfl rfl (habort _ _) (hsteer' _ _)
              (List.Sublist.refl _) now (now + target.settleTimeoutMs)
        | false =>
            rw [if_neg Bool.false_ne_true]
            have hready := (CtlReady.initial.record (.isIdle : CtlCall ν) false).record .abort false
            obtain ⟨h', hrun, hacked⟩ := hready.ack host target frame sender
              (List.append_nil _).symm "abort_unavailable"
              none none
            exact ⟨h', hrun, .inr ⟨_, _, _, hacked, .plain (by decide) (by decide) (by decide),
              habort _ _, hsteer' _ _⟩⟩

variable (host target frame sender) in
/-- How it starts: it waits, or has acknowledged. -/
theorem Ctl.start_course (now : Int) :
    CtlWaiting target frame (Ctl.start host target frame now : Hosted (CtlCall ν) (CtlVars ν)) ∨
    CtlDone target frame (Ctl.start host target frame now : Hosted (CtlCall ν) (CtlVars ν)) := by
  have hnone : ∀ c ∈ ([] : List (CtlCall ν × Bool)), CtlCall.Quiet c := fun c hc => by cases hc
  unfold Ctl.start Ctl.handleCtlFrame
  cases hsender : frame.sender with
  | none =>
      refine .inl ⟨rfl, hnone, .nil, fun d hd => ?_, fun hp => ?_, fun r hp => ?_⟩
      · cases hd
      · cases hp
      · cases hp
  | some sender =>
      have hack : ∀ status reason, status ∈ ctlStatuses → status ≠ "aborted" →
          status ≠ "redirected" → CtlDone target frame
            (after (Ctl.ack host target frame sender status none reason)
              ({ vars := {} } : Hosted (CtlCall ν) (CtlVars ν))) := by
        intro status reason hvocabulary haborted hredirected
        obtain ⟨h', hrun, hacked⟩ := CtlReady.initial.ack host target frame sender
          (List.append_nil []).symm status none reason
        rw [after_of_run hrun]
        exact ⟨_, _, _, hacked, .plain hvocabulary haborted hredirected, hnone, .nil⟩
      dsimp only
      split
      · obtain ⟨h', hrun, hcourse⟩ := Ctl.run_abortTurn host target frame sender now
        rw [after_of_run hrun]
        exact hcourse
      · split
        · exact .inr (hack _ _ (by decide) (by decide) (by decide))
        · next hallowed =>
          split
          · refine .inl ?_
            unfold Ctl.requestLocalControl
            cases hbus : target.hasBus with
            | false =>
                refine ⟨rfl, hnone, .nil, fun d hd => ?_, fun hp => ?_, fun r hp c hc => ?_⟩
                · cases hd
                · cases hp
                · cases hc
            | true =>
                refine ⟨rfl, ?_, ?_, fun d hd => ?_, fun hp => ?_, fun r hp => ?_⟩
                · exact quiet_snoc hnone (.inr (.inr ⟨_, rfl⟩))
                · -- the request is of a sender that may steer
                  intro p b hmem haction
                  obtain ⟨hp, -⟩ := Prod.mk.inj (List.mem_singleton.mp hmem)
                  rw [CtlCall.emit.inj hp] at haction
                  refine ⟨sender, hsender, ?_⟩
                  by_contra hnot
                  exact hallowed ⟨haction, hnot⟩
                · cases hd
                · intro c hc
                  exact ⟨_, congrArg Prod.fst (List.mem_singleton.mp hc)⟩
                · cases hp
          · exact .inr (hack _ _ (by decide) (by decide) (by decide))

/-- Quiet calls neither inject nor acknowledge. -/
theorem not_quiet {c : CtlCall ν} {b : Bool} (hidle : c ≠ .isIdle) (habort : c ≠ .abort)
    (hemit : ∀ p, c ≠ .emit p) : ¬ CtlCall.Quiet (c, b) := by
  rintro (h | h | ⟨p, h⟩)
  · exact hidle h
  · exact habort h
  · exact hemit p h

/-- An acknowledgement is the last call, and what it says is what happened. -/
theorem CtlDone.honest (hdone : CtlDone target frame h) : CtlHonest target frame h.calls := by
  obtain ⟨pre, inj, _, ⟨-, input, told, a, rfl, hcalls⟩, htells, hquiet, hsteer⟩ := hdone
  have hinj : ∀ c ∈ inj, ∃ content b, c = (.sendMessage content, b) := by
    intro c hc
    rcases htells.injected with rfl | ⟨content, b, rfl, -⟩
    · cases hc
    · exact ⟨content, b, List.mem_singleton.mp hc⟩
  -- the acknowledgement is nowhere else
  have hnoack : ∀ a' b, ((.ack a', b) : CtlCall ν × Bool) ∉ pre ++ inj ++ [(.ledger input, told)] := by
    intro a' b hmem
    rcases List.mem_append.mp hmem with hmem | hmem
    · rcases List.mem_append.mp hmem with hmem | hmem
      · exact not_quiet (by simp) (by simp) (by simp) (hquiet _ hmem)
      · obtain ⟨content, b', heq⟩ := hinj _ hmem
        cases heq
    · cases List.mem_singleton.mp hmem
  have hcalls' : h.calls = pre ++ inj ++ [(.ledger input, told)] ++ [(.ack a, true)] := by
    rw [hcalls]
    simp
  have hack : ∀ a' b, (.ack a', b) ∈ h.calls → a' = a := by
    intro a' b hmem
    rw [hcalls'] at hmem
    rcases List.mem_append.mp hmem with hmem | hmem
    · exact absurd hmem (hnoack a' b)
    · exact CtlCall.ack.inj (Prod.mk.inj (List.mem_singleton.mp hmem)).1
  have hsend : ∀ content b, (.sendMessage content, b) ∈ h.calls ↔ (.sendMessage content, b) ∈ inj := by
    intro content b
    rw [hcalls]
    constructor
    · intro hmem
      rcases List.mem_append.mp hmem with hmem | hmem
      · rcases List.mem_append.mp hmem with hmem | hmem
        · exact absurd (hquiet _ hmem) (not_quiet (by simp) (by simp) (by simp))
        · exact hmem
      · simp at hmem
    · intro hmem
      exact List.mem_append_left _ (List.mem_append_right _ hmem)
  refine ⟨?_, ?_, ?_, ?_, ?_, ?_⟩
  · have hzero : (pre ++ inj ++ [(CtlCall.ledger input, told)]).countP CtlCall.isAck = 0 := by
      rw [List.countP_eq_zero]
      rintro ⟨c, b⟩ hmem hisack
      cases c with
      | ack a' => exact hnoack a' b hmem
      | _ => cases hisack
    rw [hcalls', List.countP_append, hzero]
    exact Nat.le_refl 1
  · intro a' b hmem
    rw [hack a' b hmem]
    exact htells.vocabulary
  · constructor
    · rintro ⟨content, hmem⟩
      refine ⟨a, true, by rw [hcalls]; simp, htells.redirected.mp ⟨content, ?_⟩⟩
      exact (hsend content true).mp hmem
    · rintro ⟨a', b, hmem, hstatus⟩
      rw [hack a' b hmem] at hstatus
      obtain ⟨content, hmem⟩ := htells.redirected.mpr hstatus
      exact ⟨content, (hsend content true).mpr hmem⟩
  · intro pre' content b post heq
    have hmem : (.sendMessage content, b) ∈ inj := by
      rw [← hsend, heq]
      simp
    rcases htells.injected with rfl | ⟨content', b', rfl, hidle⟩
    · cases hmem
    · have hbefore : (.sendMessage content, b) ∉ pre := fun hmem =>
        not_quiet (by simp) (by simp) (by simp) (hquiet _ hmem)
      have hafter : ((.sendMessage content, b) : CtlCall ν × Bool) ∉
          [(.ledger input, told), (.ack a, true)] := by simp
      rw [hcalls, List.append_assoc] at heq
      rw [(entry_unique hbefore hafter heq).1]
      exact hidle
  · intro pre' a' b post heq hstatus
    obtain ⟨hpre, heqa, -⟩ := entry_unique (hnoack a' b) List.not_mem_nil (hcalls'.symm.trans heq)
    rw [CtlCall.ack.inj (Prod.mk.inj heqa).1] at hstatus
    rw [hpre, List.append_assoc]
    exact (htells.aborted hstatus).trans (List.sublist_append_left _ _)
  · intro p b hmem
    rw [hcalls'] at hmem
    refine hsteer p b ?_
    rcases List.mem_append.mp hmem with hmem | hmem
    · rcases List.mem_append.mp hmem with hmem | hmem
      · rcases List.mem_append.mp hmem with hmem | hmem
        · exact hmem
        · obtain ⟨content, b', heq⟩ := hinj _ hmem
          cases heq
      · cases List.mem_singleton.mp hmem
    · cases List.mem_singleton.mp hmem

/-- While nothing is acknowledged nothing is claimed. -/
theorem CtlWaiting.honest (hwaiting : CtlWaiting target frame h) :
    CtlHonest target frame h.calls := by
  have hnoack : ∀ a b, (.ack a, b) ∉ h.calls := fun a b hmem =>
    not_quiet (by simp) (by simp) (by simp) (hwaiting.quiet _ hmem)
  have hnosend : ∀ content b, (.sendMessage content, b) ∉ h.calls := fun content b hmem =>
    not_quiet (by simp) (by simp) (by simp) (hwaiting.quiet _ hmem)
  refine ⟨?_, ?_, ⟨?_, ?_⟩, ?_, ?_, hwaiting.steer⟩
  · have hzero : h.calls.countP CtlCall.isAck = 0 := by
      rw [List.countP_eq_zero]
      rintro ⟨c, b⟩ hmem hisack
      cases c with
      | ack a' => exact hnoack a' b hmem
      | _ => cases hisack
    omega
  · exact fun a b hmem => absurd hmem (hnoack a b)
  · rintro ⟨content, hmem⟩
    exact absurd hmem (hnosend content true)
  · rintro ⟨a, b, hmem, -⟩
    exact absurd hmem (hnoack a b)
  · intro pre content b post heq
    exact absurd (by rw [heq]; simp) (hnosend content b)
  · intro pre a b post heq
    exact absurd (by rw [heq]; simp) (hnoack a b)

/-- The status of a local extension speaks of the turn. -/
def LocalCtlReply.SpeaksOfTurn (reply : LocalCtlReply ν) : Prop :=
  reply.clamped = "aborted" ∨ reply.clamped = "redirected"

/-- The answer of a local extension, where it is taken up, does not speak of the turn. -/
def LocalAnswerPlain (h : Hosted (CtlCall ν) (CtlVars ν)) (x : Int × CtlEvent ν) : Prop :=
  x.2 = .resume → ∀ reply, h.vars.phase = .answered reply → ¬ reply.SpeaksOfTurn

theorem LocalCtlReply.clamped_mem (reply : LocalCtlReply ν) : reply.clamped ∈ ctlStatuses := by
  unfold LocalCtlReply.clamped
  split
  · split
    · next hmem => exact hmem
    · decide
  · decide

/-- The phase of a wait moves on to an answer. -/
theorem CtlWaiting.toAnswered (hwaiting : CtlWaiting target frame h) (hasking : h.vars.phase = .asking)
    (reply : LocalCtlReply ν) (emitting : Bool) :
    CtlWaiting target frame { h with vars := { h.vars with phase := .answered reply, emitting } } where
  acked := hwaiting.acked
  quiet := hwaiting.quiet
  steer := hwaiting.steer
  turn d hd := by cases hd
  asking hp := by cases hp
  answered _ _ := hwaiting.asking hasking

/-- `emit` is done. -/
theorem CtlWaiting.emitted (hwaiting : CtlWaiting target frame h) :
    CtlWaiting target frame { h with vars := { h.vars with emitting := false } } where
  acked := hwaiting.acked
  quiet := hwaiting.quiet
  steer := hwaiting.steer
  turn d hd := ⟨rfl, (hwaiting.turn d hd).2⟩
  asking := hwaiting.asking
  answered := hwaiting.answered

variable (host sender) in
/-- An answer that is taken up is acknowledged with its status, and nothing is injected. -/
theorem CtlWaiting.resume (hwaiting : CtlWaiting target frame h) (reply : LocalCtlReply ν)
    (hemitting : h.vars.emitting = false) (now : Int) :
    ∃ h', Ctl.goOn host target frame sender now (.answered reply) .resume h = .ok () h' ∧
      Acked h' h.calls [] reply.clamped := by
  have hready : CtlReady ({ h with vars := { h.vars with phase := .over } }) :=
    ⟨hwaiting.acked, rfl, hemitting⟩
  exact hready.ack host target frame sender
    (List.append_nil _).symm reply.clamped reply.settled none

/-- An answer that speaks of the turn is passed on, though nothing was done to the turn. -/
theorem Acked.not_honest {h' : Hosted (CtlCall ν) (CtlVars ν)} {reply : LocalCtlReply ν}
    (hacked : Acked h' h.calls [] reply.clamped) (hasked : ∀ c ∈ h.calls, ∃ p, c.1 = .emit p)
    (hspeaks : reply.SpeaksOfTurn) : ¬ CtlHonest target frame h'.calls := by
  obtain ⟨-, input, told, a, hstatus, hcalls⟩ := hacked
  intro hhonest
  rcases hspeaks with haborted | hredirected
  · have hturn := hhonest.aborted (h.calls ++ [(.ledger input, told)]) a true []
      (by rw [hcalls]; simp) (hstatus.trans haborted)
    -- the turn was not even looked at
    have hlook : (CtlCall.isIdle, false) ∈ h.calls ++ [(.ledger input, told)] :=
      hturn.subset (by simp [turnAborted])
    rcases List.mem_append.mp hlook with hmem | hmem
    · obtain ⟨p, hp⟩ := hasked _ hmem
      cases hp
    · cases List.mem_singleton.mp hmem
  · obtain ⟨content, hsent⟩ := hhonest.redirected.mpr
      ⟨a, true, by rw [hcalls]; simp, hstatus.trans hredirected⟩
    rw [hcalls, List.append_nil] at hsent
    rcases List.mem_append.mp hsent with hmem | hmem
    · obtain ⟨p, hp⟩ := hasked _ hmem
      cases hp
    · simp at hmem

/-- The frame was acknowledged, and nothing more will come of it. -/
def CtlClosed (h : Hosted (CtlCall ν) (CtlVars ν)) : Prop :=
  h.vars.acked = true ∧ h.vars.phase = .over ∧ h.vars.emitting = false

variable (host sender) in
/-- **A step leaves the frame waiting or done, unless it takes up an answer that speaks of the
turn.** -/
theorem CtlWaiting.goOn (hwaiting : CtlWaiting target frame h) {x : Int × CtlEvent ν}
    (hpossible : Ctl.possible h.vars x.2 = true) :
    ∃ h', Ctl.goOn host target frame sender x.1 h.vars.phase x.2 h = .ok () h' ∧
      ((LocalAnswerPlain h x ∧ (CtlWaiting target frame h' ∨ CtlDone target frame h')) ∨
        (¬ LocalAnswerPlain h x ∧ CtlClosed h' ∧ ¬ CtlHonest target frame h'.calls)) := by
  obtain ⟨now, e⟩ := x
  -- nothing but `resume` takes up an answer
  have hplain : e ≠ .resume → LocalAnswerPlain h (now, e) := fun hne heq => absurd heq hne
  cases e with
  | wake =>
      cases hphase : h.vars.phase with
      | settling deadline =>
          obtain ⟨hemitting, hturn⟩ := hwaiting.turn deadline hphase
          obtain ⟨h', hrun, hcourse⟩ := Ctl.run_settleLoop host target frame sender
            hwaiting.acked hemitting hwaiting.quiet
            hwaiting.steer hturn now deadline
          exact ⟨h', hrun, .inl ⟨hplain (by simp), hcourse⟩⟩
      | _ => exact ⟨h, rfl, .inl ⟨hplain (by simp), .inl hwaiting⟩⟩
  | localReply data =>
      cases hphase : h.vars.phase with
      | asking =>
          exact ⟨_, rfl, .inl ⟨hplain (by simp), .inl (hwaiting.toAnswered hphase _ _)⟩⟩
      | _ => exact ⟨h, rfl, .inl ⟨hplain (by simp), .inl hwaiting⟩⟩
  | emitted threw =>
      cases hphase : h.vars.phase with
      | asking =>
          cases threw with
          | true => exact ⟨_, rfl, .inl ⟨hplain (by simp), .inl (hwaiting.toAnswered hphase _ _)⟩⟩
          | false => exact ⟨_, rfl, .inl ⟨hplain (by simp), .inl hwaiting.emitted⟩⟩
      | _ => exact ⟨_, rfl, .inl ⟨hplain (by simp), .inl hwaiting.emitted⟩⟩
  | localTimeout =>
      cases hphase : h.vars.phase with
      | asking =>
          exact ⟨_, rfl, .inl ⟨hplain (by simp), .inl (hwaiting.toAnswered hphase _ _)⟩⟩
      | _ => exact ⟨h, rfl, .inl ⟨hplain (by simp), .inl hwaiting⟩⟩
  | resume =>
      cases hphase : h.vars.phase with
      | answered reply =>
          have hemitting : h.vars.emitting = false := by
            simp only [Ctl.possible, hphase, Bool.and_true, Bool.not_eq_true'] at hpossible
            exact hpossible
          obtain ⟨h', hrun, hacked⟩ := hwaiting.resume host sender reply
            hemitting now
          refine ⟨h', hrun, ?_⟩
          have hasked := hwaiting.answered reply hphase
          by_cases hspeaks : reply.SpeaksOfTurn
          · refine .inr ⟨fun hno => hno rfl reply hphase hspeaks, hacked.1, ?_⟩
            exact hacked.not_honest hasked hspeaks
          · refine .inl ⟨fun _ r hr => ?_, .inr ⟨_, _, _, hacked, ?_, hwaiting.quiet, hwaiting.steer⟩⟩
            · rw [hphase] at hr
              rw [← CtlPhase.answered.inj hr]
              exact hspeaks
            · exact .plain reply.clamped_mem (fun heq => hspeaks (.inl heq))
                fun heq => hspeaks (.inr heq)
      | _ =>
          simp [Ctl.possible, hphase] at hpossible

/-- Once it is acknowledged a step changes nothing. -/
theorem CtlClosed.step (hclosed : CtlClosed h) {x : Int × CtlEvent ν}
    {h' : Hosted (CtlCall ν) (CtlVars ν)} (hstep : CtlStep host target frame h x h') :
    h' = h ∧ LocalAnswerPlain h x := by
  obtain ⟨now, e⟩ := x
  obtain ⟨-, hphase, hemitting⟩ := hclosed
  refine ⟨?_, fun _ reply hreply => by rw [hphase] at hreply; cases hreply⟩
  unfold CtlStep Ctl.step at hstep
  split at hstep
  · cases hstep
  · split at hstep
    · next hpossible =>
      rw [← Option.some.inj hstep]
      cases e with
      | localReply data =>
          rw [hphase]
          rfl
      | _ => simp [Ctl.possible, hphase, hemitting] at hpossible
    · cases hstep

end Course

/-- **An acknowledgement says what happened exactly if no answer of a local extension that was
taken up speaks of the turn.** -/
theorem ctl_honest_iff {host : Nat → Bool} {target : CtlTarget} {frame : CtlFrame} {now : Int}
    {tr : List (Hosted (CtlCall ν) (CtlVars ν) × (Int × CtlEvent ν))}
    {h : Hosted (CtlCall ν) (CtlVars ν)}
    (hrun : Run (CtlStep host target frame) (Ctl.start host target frame now) tr h) :
    CtlHonest target frame h.calls ↔ Meets LocalAnswerPlain tr := by
  have hkept : (CtlWaiting target frame h ∧ Meets LocalAnswerPlain tr) ∨
      (CtlClosed h ∧ (CtlHonest target frame h.calls ↔ Meets LocalAnswerPlain tr)) := by
    refine hrun.along (P := fun tr h => (CtlWaiting target frame h ∧ Meets LocalAnswerPlain tr) ∨
      (CtlClosed h ∧ (CtlHonest target frame h.calls ↔ Meets LocalAnswerPlain tr)))
      (Meets.trivial tr) ?_ fun tr s x s' _ _ hs _ hstep => ?_
    · have hempty : Meets (LocalAnswerPlain (ν := ν)) [] := fun x hx => by cases hx
      rcases Ctl.start_course host target frame now with
        hwaiting | hdone
      · exact .inl ⟨hwaiting, hempty⟩
      · obtain ⟨pre, inj, status, hacked, -⟩ := id hdone
        exact .inr ⟨hacked.1, fun _ => hempty, fun _ => hdone.honest⟩
    · rw [Meets.snoc_iff]
      rcases hs with ⟨hwaiting, hmeets⟩ | ⟨hclosed, hiff⟩
      · unfold CtlStep Ctl.step at hstep
        split at hstep
        · cases hstep
        · next sender hsender =>
          split at hstep
          · next hpossible =>
            obtain ⟨h', hgoOn, hcourse⟩ := hwaiting.goOn host sender hpossible
            rw [after_of_run hgoOn] at hstep
            obtain rfl := Option.some.inj hstep
            rcases hcourse with ⟨hplain, hwaiting' | hdone⟩ | ⟨hspoke, hclosed, hnot⟩
            · exact .inl ⟨hwaiting', hmeets, hplain⟩
            · obtain ⟨pre, inj, status, hacked, -⟩ := id hdone
              exact .inr ⟨hacked.1, fun _ => ⟨hmeets, hplain⟩, fun _ => hdone.honest⟩
            · exact .inr ⟨hclosed, fun hhonest => absurd hhonest hnot, fun hall =>
                absurd hall.2 hspoke⟩
          · cases hstep
      · obtain ⟨rfl, hplain⟩ := hclosed.step hstep
        exact .inr ⟨hclosed, hiff.trans ⟨fun hall => ⟨hall, hplain⟩, And.left⟩⟩
  rcases hkept with ⟨hwaiting, hmeets⟩ | ⟨-, hiff⟩
  · exact ⟨fun _ => hmeets, fun _ => hwaiting.honest⟩
  · exact hiff

/-- The last thing said is that the turn was aborted. -/
def abortedLast (calls : List (CtlCall Int × Bool)) : Bool :=
  match calls.getLast? with
  | some (.ack a, true) => a.status == "aborted"
  | _ => false

/-- An extension was asked, and its `aborted` is all that was said. -/
def passedOn (calls : List (CtlCall Int × Bool)) : Bool :=
  match calls with
  | [(.emit _, _), (.ledger _, _), (.ack a, _)] => a.status == "aborted"
  | _ => false

/-- A turn is aborted, and the second look at it finds the host idle. -/
theorem ctl_honest_aborted :
    ∃ (tr : List (Hosted (CtlCall Int) (CtlVars Int) × (Int × CtlEvent Int)))
      (h : Hosted (CtlCall Int) (CtlVars Int)), tr.map Prod.snd = [(50, .wake)] ∧
    CtlHonest { self := "b" } { id := "c", sender := some "a", action := some "abort" } h.calls ∧
    ∃ a, (.ack a, true) ∈ h.calls ∧ a.status = "aborted" := by
  let target : CtlTarget := { self := "b" }
  let frame : CtlFrame := { id := "c", sender := some "a", action := some "abort" }
  have hcheck : (follow (Ctl.step (fun n => n != 0 && n != 2) target frame)
      (Ctl.start (ν := Int) (fun n => n != 0 && n != 2) target frame 0) [(50, .wake)]).any
      (fun r => abortedLast r.2.calls) = true := by decide +kernel
  obtain ⟨tr, h, hrun, hes, hend⟩ := Run.of_check hcheck
  unfold abortedLast at hend
  split at hend
  · next a hlast =>
    refine ⟨tr, h, hes, (ctl_honest_iff hrun).mpr fun x hx hresume => ?_, a,
      List.mem_of_getLast? hlast, eq_of_beq hend⟩
    have hwake : x.2 ∈ tr.map Prod.snd := List.mem_map_of_mem hx
    rw [hes, List.mem_singleton] at hwake
    rw [hwake] at hresume
    cases hresume
  · cases hend

/-- A local extension answers a `job_stop` with `aborted`. -/
theorem local_status_passed_on :
    ∃ (tr : List (Hosted (CtlCall Int) (CtlVars Int) × (Int × CtlEvent Int)))
      (h : Hosted (CtlCall Int) (CtlVars Int)),
    Run (CtlStep (fun _ => true) { self := "b" }
        { id := "c", sender := some "a", action := some "job_stop", target := some "j" })
      (Ctl.start (fun _ => true) { self := "b" }
        { id := "c", sender := some "a", action := some "job_stop", target := some "j" } 0) tr h ∧
    tr.map Prod.snd = [(0, .localReply (.obj [("status", .str "aborted")])), (0, .emitted false),
      (0, .resume)] ∧
    ¬ CtlHonest { self := "b" }
        { id := "c", sender := some "a", action := some "job_stop", target := some "j" } h.calls := by
  let target : CtlTarget := { self := "b" }
  let frame : CtlFrame :=
    { id := "c", sender := some "a", action := some "job_stop", target := some "j" }
  have hcheck : (follow (Ctl.step (fun _ => true) target frame)
      (Ctl.start (ν := Int) (fun _ => true) target frame 0)
      [(0, .localReply (.obj [("status", .str "aborted")])), (0, .emitted false), (0, .resume)]).any
      (fun r => passedOn r.2.calls) = true := by decide +kernel
  obtain ⟨tr, h, hrun, hes, hend⟩ := Run.of_check hcheck
  refine ⟨tr, h, hrun, hes, fun hhonest => ?_⟩
  unfold passedOn at hend
  split at hend
  · next p b input told a b' hcalls =>
    -- the turn was not looked at
    have hturn := hhonest.aborted [(.emit p, b), (.ledger input, told)] a b' [] hcalls
      (eq_of_beq hend)
    exact absurd hturn.length_le (by simp [turnAborted])
  · cases hend

end PiMesh
