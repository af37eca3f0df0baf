/-
What the inbound buffers do with a frame.

A batcher releases every frame once, in order, and in time.  Two facts about its timers carry
this: while frames are buffered one of them is armed, and each frame has one that is due
within the window it was pushed in, or else the window's end has passed over it while the
agent was busy with nothing urgent in the buffer, and the longest hold bounds its stay.

A deferred inbox sends every frame at most once, in order, and reports at most what it sent.
What carries this is where a frame is: sent or pending, and once sent, reported or queued.
-/
import PiMesh.Extension.Batching

namespace PiMesh

open Js Transition

variable {ν : Type}

/-! ### The batcher -/

/-- What was pushed in a run, in order. -/
def batcherPushes (tr : List (TimedBatcher ν × (Int × BatcherEvent ν))) : List (SessionFrame ν) :=
  tr.filterMap fun x => x.2.2.pushed?

/-- A frame is urgent. -/
def isUrgent (f : SessionFrame ν) : Bool := decide (framePriority? f.members = some .urgent)

/-- In the run, the window's end found the frame no later than its window allows, but the agent
was busy and nothing in the buffer was urgent. -/
def PassedOver (windowMs : Nat) (tr : List (TimedBatcher ν × (Int × BatcherEvent ν)))
    (f : SessionFrame ν × Int) : Prop :=
  ∃ x ∈ tr, f ∈ x.1.frames ∧ x.2.2 = .window true ∧ x.2.1 ≤ f.2 + windowMs ∧
    ∀ g ∈ x.1.frames, isUrgent g.1 = false

/-- The stay of a frame is bounded by a timer. -/
inductive StayBounded (windowMs maxHoldMs : Nat) (tr : List (TimedBatcher ν × (Int × BatcherEvent ν)))
    (b : TimedBatcher ν) (f : SessionFrame ν × Int) : Prop
  | window {due : Int} (htimer : b.timer = some due) (hdue : due ≤ f.2 + windowMs)
  | hold {due : Int} (htimer : b.maxTimer = some due) (hdue : due ≤ f.2 + (windowMs + maxHoldMs))
      (hpassed : PassedOver windowMs tr f)

structure BatcherKeeps (windowMs maxHoldMs : Nat)
    (tr : List (TimedBatcher ν × (Int × BatcherEvent ν))) (b : TimedBatcher ν) : Prop where
  order : b.flushed.flatten ++ b.frames.map Prod.fst = batcherPushes tr
  batches : ∀ batch ∈ b.flushed, batch ≠ []
  timer : ∀ due, b.timer = some due → due ≤ b.now + windowMs
  maxTimer : ∀ due, b.maxTimer = some due → due ≤ b.now + maxHoldMs
  bounded : ∀ f ∈ b.frames, StayBounded windowMs maxHoldMs tr b f

section Batcher

variable {windowMs maxHoldMs : Nat} {tr : List (TimedBatcher ν × (Int × BatcherEvent ν))}
  {b b' : TimedBatcher ν} {x : Int × BatcherEvent ν} {t : Int}

theorem mayBe_iff : b.mayBe t = true ↔ b.now ≤ t ∧ (∀ due, b.timer = some due → t ≤ due) ∧
    ∀ due, b.maxTimer = some due → t ≤ due := by
  simp only [TimedBatcher.mayBe, Bool.and_eq_true, decide_eq_true_eq, Option.all_eq_true, and_assoc]

theorem PassedOver.snoc {f : SessionFrame ν × Int} (h : PassedOver windowMs tr f)
    (y : TimedBatcher ν × (Int × BatcherEvent ν)) : PassedOver windowMs (tr ++ [y]) f := by
  obtain ⟨z, hz, hrest⟩ := h
  exact ⟨z, List.mem_append_left _ hz, hrest⟩

theorem batcherPushes_snoc (y : TimedBatcher ν × (Int × BatcherEvent ν)) :
    batcherPushes (tr ++ [y]) = batcherPushes tr ++ y.2.2.pushed?.toList := by
  unfold batcherPushes
  rw [List.filterMap_append]
  cases h : y.2.2.pushed? with
  | none => simp [h]
  | some f => simp [h]

namespace BatcherKeeps

/-- The clock moves on. -/
theorem wait (h : BatcherKeeps windowMs maxHoldMs tr b) (ht : b.now ≤ t) :
    BatcherKeeps windowMs maxHoldMs tr { b with now := t } := by
  refine ⟨h.order, h.batches, ?_, ?_, ?_⟩
  · intro due hdue
    have hle := h.timer due hdue
    show due ≤ t + windowMs
    omega
  · intro due hdue
    have hle := h.maxTimer due hdue
    show due ≤ t + maxHoldMs
    omega
  · intro f hf
    cases h.bounded f hf with
    | window htimer hdue => exact .window htimer hdue
    | hold htimer hdue hpassed => exact .hold htimer hdue hpassed

theorem push (h : BatcherKeeps windowMs maxHoldMs tr b) (hw : 0 < windowMs) (f : SessionFrame ν)
    {y : TimedBatcher ν × (Int × BatcherEvent ν)} (hy : y.2.2.pushed? = some f) :
    BatcherKeeps windowMs maxHoldMs (tr ++ [y]) (b.push windowMs f) := by
  have harmed : ∃ due, (b.push windowMs f).timer = some due ∧ due ≤ b.now + windowMs ∧
      ∀ old, b.timer = some old → old = due := by
    unfold TimedBatcher.push
    cases htimer : b.timer with
    | none => exact ⟨b.now + windowMs, by simp [hw], Int.le_refl _, fun _ hold => (by cases hold)⟩
    | some due => exact ⟨due, by simp, h.timer due htimer, fun _ hold => (Option.some.inj hold).symm⟩
  obtain ⟨due, hdue, hle, hold⟩ := harmed
  refine ⟨?_, h.batches, ?_, h.maxTimer, ?_⟩
  · rw [batcherPushes_snoc, hy, ← h.order]
    simp [TimedBatcher.push]
  · intro due' hdue'
    obtain rfl := Option.some.inj (hdue.symm.trans hdue')
    exact hle
  · intro g hg
    rcases List.mem_append.mp hg with hg | hg
    · cases h.bounded g hg with
      | window htimer hlate =>
          rw [hold _ htimer] at hlate
          exact .window hdue hlate
      | hold htimer hlate hpassed => exact .hold htimer hlate (hpassed.snoc y)
    · rw [List.mem_singleton.mp hg]
      exact .window hdue hle

theorem flushNow (h : BatcherKeeps windowMs maxHoldMs tr b)
    {y : TimedBatcher ν × (Int × BatcherEvent ν)} (hy : y.2.2.pushed? = none) :
    BatcherKeeps windowMs maxHoldMs (tr ++ [y]) b.flushNow := by
  have horder := h.order
  unfold TimedBatcher.flushNow
  refine ⟨?_, ?_, fun _ hdue => (by cases hdue), fun _ hdue => (by cases hdue),
    fun _ hf => (by cases hf)⟩
  · rw [batcherPushes_snoc, hy, ← horder]
    cases hframes : b.frames with
    | nil => simp
    | cons f rest => simp
  · intro batch hbatch
    dsimp only at hbatch
    split at hbatch
    · exact h.batches batch hbatch
    · next hframes =>
      rcases List.mem_append.mp hbatch with hbatch | hbatch
      · exact h.batches batch hbatch
      · rw [List.mem_singleton.mp hbatch]
        intro hnil
        exact hframes (by simpa using hnil)

/-- Where the window's end holds the frames, the longest hold bounds their stay. -/
theorem onWindow (h : BatcherKeeps windowMs maxHoldMs tr b) {busy : Bool}
    (hdue : b.timer = some b.now) {y : TimedBatcher ν × (Int × BatcherEvent ν)}
    (hframes : y.1.frames = b.frames) (hy : y.2 = (b.now, .window busy)) :
    BatcherKeeps windowMs maxHoldMs (tr ++ [y]) (b.onWindow maxHoldMs busy) := by
  have hnone : y.2.2.pushed? = none := by rw [hy]; rfl
  unfold TimedBatcher.onWindow
  dsimp only
  split
  · next hempty =>
    have hempty : b.frames = [] := by simpa using hempty
    refine ⟨?_, h.batches, fun _ hd => (by cases hd), h.maxTimer, fun f hf => ?_⟩
    · rw [batcherPushes_snoc, hnone, ← h.order]
      simp
    · rw [hempty] at hf
      cases hf
  · split
    · next hholds =>
      have hholds : busy = true ∧ ∀ g ∈ b.frames, isUrgent g.1 = false := by
        simp only [InboundBatcher.holds, TimedBatcher.untimed, Bool.and_eq_true,
          Bool.not_eq_true', List.any_map, List.any_eq_false] at hholds
        refine ⟨hholds.1, fun g hg => ?_⟩
        have hg := hholds.2 g hg
        simpa [isUrgent] using hg
      obtain ⟨rfl, hcalm⟩ := hholds
      have harmed : ∃ due, (if b.maxTimer.isNone then some (b.now + (maxHoldMs : Int))
          else b.maxTimer) = some due ∧ due ≤ b.now + maxHoldMs := by
        cases hmax : b.maxTimer with
        | none => exact ⟨_, by simp, Int.le_refl _⟩
        | some due => exact ⟨due, by simp, h.maxTimer due hmax⟩
      obtain ⟨due, harmed, hle⟩ := harmed
      refine ⟨?_, h.batches, fun _ hd => (by cases hd), ?_, fun f hf => ?_⟩
      · rw [batcherPushes_snoc, hnone, ← h.order]
        simp
      · intro due' hdue'
        obtain rfl := Option.some.inj (harmed.symm.trans hdue')
        exact hle
      · cases h.bounded f hf with
        | window htimer hlate =>
            obtain rfl := Option.some.inj (hdue.symm.trans htimer)
            refine .hold harmed (by omega) ?_
            refine ⟨y, by simp, by rw [hframes]; exact hf, by rw [hy], by rw [hy]; exact hlate, ?_⟩
            rw [hframes]
            exact hcalm
        | @hold old htimer hlate hpassed =>
            have hkept : (if b.maxTimer.isNone then some (b.now + (maxHoldMs : Int))
                else b.maxTimer) = some old := by simp [htimer]
            exact .hold hkept hlate (hpassed.snoc y)
    · have hwindow : BatcherKeeps windowMs maxHoldMs (tr ++ [y]) b.flushNow := h.flushNow hnone
      exact hwindow

theorem step (h : BatcherKeeps windowMs maxHoldMs tr b) (hw : 0 < windowMs)
    (hstep : BatcherStep windowMs maxHoldMs b x b') :
    BatcherKeeps windowMs maxHoldMs (tr ++ [(b, x)]) b' := by
  obtain ⟨t, e⟩ := x
  unfold BatcherStep TimedBatcher.step at hstep
  split at hstep
  · next hmay =>
    have hwait := h.wait (mayBe_iff.mp hmay).1
    cases e with
    | push f =>
        obtain rfl := Option.some.inj hstep
        exact hwait.push hw f rfl
    | window busy =>
        dsimp only at hstep
        split at hstep
        · next hdue =>
          obtain rfl := Option.some.inj hstep
          exact hwait.onWindow hdue rfl rfl
        · cases hstep
    | maxHold =>
        dsimp only at hstep
        split at hstep
        · obtain rfl := Option.some.inj hstep
          exact hwait.flushNow rfl
        · cases hstep
    | flushNow =>
        obtain rfl := Option.some.inj hstep
        exact hwait.flushNow rfl
  · cases hstep

theorem run (hw : 0 < windowMs) (hrun : Run (BatcherStep windowMs maxHoldMs) ({} : TimedBatcher ν) tr b) :
    BatcherKeeps windowMs maxHoldMs tr b := by
  refine hrun.along (Meets.trivial tr) ?_ fun tr s e s' _ _ hs _ hstep => hs.step hw hstep
  exact ⟨rfl, fun _ hb => (by cases hb), fun _ hd => (by cases hd), fun _ hd => (by cases hd),
    fun _ hf => (by cases hf)⟩

/-- While frames are buffered, a timer is armed. -/
theorem armed (h : BatcherKeeps windowMs maxHoldMs tr b) (hframes : b.frames ≠ []) :
    b.timer.isSome = true ∨ b.maxTimer.isSome = true := by
  obtain ⟨f, hf⟩ := List.exists_mem_of_ne_nil _ hframes
  cases h.bounded f hf with
  | window htimer => exact .inl (by rw [htimer]; rfl)
  | hold htimer => exact .inr (by rw [htimer]; rfl)

/-- No timer is overdue, so neither is a frame. -/
theorem inTime (h : BatcherKeeps windowMs maxHoldMs tr b) (ht : b.mayBe t = true)
    {f : SessionFrame ν × Int} (hf : f ∈ b.frames) : t ≤ f.2 + (windowMs + maxHoldMs) ∧
      (t ≤ f.2 + windowMs ∨ PassedOver windowMs tr f) := by
  obtain ⟨-, htimer, hmaxTimer⟩ := mayBe_iff.mp ht
  cases h.bounded f hf with
  | @window due harmed hdue =>
      have hle := htimer due harmed
      exact ⟨by omega, .inl (by omega)⟩
  | @hold due harmed hdue hpassed =>
      have hle := hmaxTimer due harmed
      exact ⟨by omega, .inr hpassed⟩

end BatcherKeeps

/-- The end of a window with an urgent frame releases everything. -/
theorem released_of_urgent {busy : Bool} {f : SessionFrame ν × Int} (hf : f ∈ b.frames)
    (hurgent : isUrgent f.1 = true)
    (hstep : BatcherStep windowMs maxHoldMs b (t, .window busy) b') : b'.frames = [] := by
  unfold BatcherStep TimedBatcher.step at hstep
  split at hstep
  · dsimp only at hstep
    split at hstep
    · obtain rfl := Option.some.inj hstep
      unfold TimedBatcher.onWindow
      dsimp only
      split
      · next hempty => simpa using hempty
      · have hholds : InboundBatcher.holds (TimedBatcher.untimed
            { b with now := t, timer := none }) busy = false := by
          have hany : b.frames.any (fun g => isUrgent g.1) = true :=
            List.any_eq_true.mpr ⟨f, hf, hurgent⟩
          unfold InboundBatcher.holds TimedBatcher.untimed
          rw [List.any_map]
          show (busy && !b.frames.any fun g => isUrgent g.1) = false
          rw [hany]
          exact Bool.and_false busy
        rw [hholds]
        rfl
    · cases hstep
  · cases hstep

/-! The clock adds nothing to what the operations do. -/

theorem untimed_push (f : SessionFrame ν) :
    (b.push windowMs f).untimed = b.untimed.push windowMs f := by
  unfold TimedBatcher.push TimedBatcher.untimed InboundBatcher.push
  cases b.timer with
  | none => by_cases hw : 0 < windowMs <;> simp [hw]
  | some due => simp

theorem untimed_flushNow : b.flushNow.untimed = b.untimed.flushNow.2 := rfl

theorem flushed_flushNow :
    b.flushNow.flushed.flatten = b.flushed.flatten ++ b.untimed.flushNow.1 := by
  unfold TimedBatcher.flushNow TimedBatcher.untimed InboundBatcher.flushNow
  cases b.frames with
  | nil => simp
  | cons f rest => simp

end Batcher

/-- **The batcher neither loses, duplicates nor strands a frame.** -/
theorem batcher_releases {windowMs maxHoldMs : Nat}
    {tr : List (TimedBatcher ν × (Int × BatcherEvent ν))} {b : TimedBatcher ν}
    (hw : 0 < windowMs) (hrun : Run (BatcherStep windowMs maxHoldMs) {} tr b) :
    b.flushed.flatten ++ b.frames.map Prod.fst = batcherPushes tr ∧
    (b.frames ≠ [] → b.timer.isSome = true ∨ b.maxTimer.isSome = true) ∧
    (∀ batch ∈ b.flushed, batch ≠ []) ∧
    (∀ t, b.mayBe t = true → ∀ f ∈ b.frames, t ≤ f.2 + (windowMs + maxHoldMs) ∧
      (t ≤ f.2 + windowMs ∨ PassedOver windowMs tr f)) ∧
    ∀ t busy b', (∃ f ∈ b.frames, isUrgent f.1 = true) →
      BatcherStep windowMs maxHoldMs b (t, .window busy) b' → b'.frames = [] := by
  have h := BatcherKeeps.run hw hrun
  refine ⟨h.order, h.armed, h.batches, fun t ht f hf => h.inTime ht hf, ?_⟩
  rintro t busy b' ⟨f, hf, hurgent⟩ hstep
  exact released_of_urgent hf hurgent hstep

/-- A burst of two while the agent is busy: held at the window's end, released by the longest
hold. -/
def heldBurst : List (Int × BatcherEvent Int) :=
  [(0, .push ⟨0, [], false⟩), (100, .push ⟨1, [], false⟩), (250, .window true), (30250, .maxHold)]

theorem batcher_releases_burst : ∃ tr b, Run (BatcherStep 250 30000) ({} : TimedBatcher Int) tr b ∧
    tr.map Prod.snd = heldBurst ∧ b.flushed.flatten ++ b.frames.map Prod.fst = batcherPushes tr := by
  have hcheck : (follow (TimedBatcher.step 250 30000) ({} : TimedBatcher Int) heldBurst).any
      (fun _ => true) = true := by decide
  obtain ⟨tr, b, hrun, htr, -⟩ := Run.of_check hcheck
  exact ⟨tr, b, hrun, htr, (batcher_releases (by decide) hrun).1⟩

/-! ### The deferred inbox -/

/-- What was pushed in a run, in order. -/
def inboxPushes (tr : List (InboxLog ν × InboxEvent ν)) : List (SessionFrame ν) :=
  tr.filterMap fun x => x.2.pushed?

/-- A prompt of the user has started since the agent last did. -/
def Prompted (tr : List (InboxLog ν × InboxEvent ν)) : Prop :=
  ∃ before x after, tr = before ++ x :: after ∧ x.2 = .promptStarting ∧
    ∀ y ∈ after, y.2 ≠ .agentStarting

structure InboxKeeps (tr : List (InboxLog ν × InboxEvent ν)) (s : InboxLog ν) : Prop where
  sent : s.sent.flatten ++ s.inbox.pending = inboxPushes tr
  reported : (s.reported.flatten ++ s.inbox.queued).Perm s.sent.flatten
  draining : s.inbox.draining = true → Prompted tr

section Inbox

variable {tr : List (InboxLog ν × InboxEvent ν)} {s : InboxLog ν}

theorem inboxPushes_snoc (x : InboxLog ν × InboxEvent ν) :
    inboxPushes (tr ++ [x]) = inboxPushes tr ++ x.2.pushed?.toList := by
  unfold inboxPushes
  rw [List.filterMap_append]
  cases h : x.2.pushed? with
  | none => simp [h]
  | some f => simp [h]

theorem Prompted.snoc (h : Prompted tr) {x : InboxLog ν × InboxEvent ν}
    (hx : x.2 ≠ .agentStarting) : Prompted (tr ++ [x]) := by
  obtain ⟨before, y, after, rfl, hy, hafter⟩ := h
  refine ⟨before, y, after ++ [x], by simp, hy, fun z hz => ?_⟩
  rcases List.mem_append.mp hz with hz | hz
  · exact hafter z hz
  · rw [List.mem_singleton.mp hz]
    exact hx

namespace InboxKeeps

/-- Nothing moves. -/
theorem rest (h : InboxKeeps tr s) {x : InboxLog ν × InboxEvent ν} (hx : x.2 ≠ .agentStarting)
    (hnone : x.2.pushed? = none) : InboxKeeps (tr ++ [x]) s := by
  refine ⟨?_, h.reported, fun hd => (h.draining hd).snoc hx⟩
  rw [inboxPushes_snoc, hnone, h.sent]
  exact (List.append_nil _).symm

theorem step (h : InboxKeeps tr s) (e : InboxEvent ν) : InboxKeeps (tr ++ [(s, e)]) (s.step e) := by
  cases e with
  | push f =>
      refine ⟨?_, h.reported, fun hd => (h.draining hd).snoc (by simp)⟩
      rw [inboxPushes_snoc, ← h.sent]
      simp [InboxLog.step, DeferredInbox.push, InboxEvent.pushed?]
  | queueForPrompt returns =>
      dsimp only [InboxLog.step]
      split
      · exact h.rest (by simp) rfl
      · refine ⟨?_, ?_, fun hd => (h.draining hd).snoc (by simp)⟩
        · rw [inboxPushes_snoc, ← h.sent]
          simp [DeferredInbox.queueForPrompt, InboxEvent.pushed?]
        · have hmoved := h.reported.append_right s.inbox.pending
          simpa [DeferredInbox.queueForPrompt] using hmoved
  | promptStarting =>
      refine ⟨?_, h.reported, fun _ => ⟨tr, _, [], rfl, rfl, fun _ hy => by cases hy⟩⟩
      rw [inboxPushes_snoc, ← h.sent]
      simp [InboxLog.step, DeferredInbox.promptStarting, InboxEvent.pushed?]
  | agentStarting =>
      unfold InboxLog.step DeferredInbox.agentStarting
      cases hdraining : s.inbox.draining with
      | false =>
          refine ⟨?_, h.reported, fun hd => ?_⟩
          · rw [inboxPushes_snoc, ← h.sent]
            simp [InboxEvent.pushed?]
          · have hd : s.inbox.draining = true := hd
            rw [hdraining] at hd
            cases hd
      | true =>
          refine ⟨?_, ?_, fun hd => by cases hd⟩
          · rw [inboxPushes_snoc, ← h.sent]
            simp [InboxEvent.pushed?]
          · have hreported := h.reported
            cases hqueued : s.inbox.queued with
            | nil => simpa [hqueued] using hreported
            | cons f rest => simpa [hqueued] using hreported
  | flush returns =>
      dsimp only [InboxLog.step]
      split
      · exact h.rest (by simp) rfl
      · refine ⟨?_, ?_, fun hd => (h.draining hd).snoc (by simp)⟩
        · rw [inboxPushes_snoc, ← h.sent]
          simp [DeferredInbox.flush, InboxEvent.pushed?]
        · -- what is flushed is sent and reported ahead of what is queued
          have hmoved := h.reported.append_right s.inbox.pending
          refine List.Perm.trans ?_ (by simpa using hmoved)
          simp only [List.flatten_append, List.flatten_cons, List.flatten_nil, List.append_nil,
            DeferredInbox.flush, List.append_assoc]
          exact List.perm_append_comm.append_left _

theorem run (hrun : Run InboxStep ({} : InboxLog ν) tr s) : InboxKeeps tr s := by
  refine hrun.along (Meets.trivial tr) ?_ fun tr s e s' _ _ hs _ hstep => ?_
  · exact ⟨rfl, .refl _, fun hd => by cases hd⟩
  · rw [← hstep]
    exact hs.step e

theorem count (h : InboxKeeps tr s) :
    s.inbox.count + s.reported.flatten.length = (inboxPushes tr).length := by
  have hsent := congrArg List.length h.sent
  have hreported := h.reported.length_eq
  rw [List.length_append] at hsent hreported
  unfold DeferredInbox.count
  omega

end InboxKeeps

end Inbox

/-- **The deferred inbox is exactly-once.** -/
theorem inbox_exactly_once {tr : List (InboxLog ν × InboxEvent ν)} {s : InboxLog ν}
    (hrun : Run InboxStep {} tr s) :
    s.sent.flatten ++ s.inbox.pending = inboxPushes tr ∧
    (s.reported.flatten ++ s.inbox.queued).Perm s.sent.flatten ∧
    ((inboxPushes tr).Nodup → s.sent.flatten.Nodup ∧ s.reported.flatten.Nodup) ∧
    s.inbox.count + s.reported.flatten.length = (inboxPushes tr).length ∧
    (¬ Prompted tr → (s.step .agentStarting).reported = s.reported) ∧
    s.step (.queueForPrompt false) = s ∧ s.step (.flush false) = s := by
  have h := InboxKeeps.run hrun
  refine ⟨h.sent, h.reported, fun hnodup => ?_, h.count, fun hprompt => ?_, ?_, ?_⟩
  · rw [← h.sent] at hnodup
    have hsent : s.sent.flatten.Nodup := hnodup.of_append_left
    exact ⟨hsent, (h.reported.nodup_iff.mpr hsent).of_append_left⟩
  · have hdraining : s.inbox.draining = false := by
      rw [Bool.eq_false_iff]
      exact fun hd => hprompt (h.draining hd)
    simp [InboxLog.step, DeferredInbox.agentStarting, hdraining]
  · simp [InboxLog.step]
  · simp [InboxLog.step]

/-- A broadcast is queued for a prompt that does not start, and is not reported. -/
theorem inbox_exactly_once_queued : ∃ tr s, Run InboxStep ({} : InboxLog Int) tr s ∧
    tr.map Prod.snd = [.push ⟨0, [], false⟩, .queueForPrompt true] ∧
    s.sent.flatten ++ s.inbox.pending = inboxPushes tr := by
  have hpush : InboxStep ({} : InboxLog Int) (.push ⟨0, [], false⟩) _ := rfl
  have hqueue : InboxStep (InboxLog.step ({} : InboxLog Int) (.push ⟨0, [], false⟩))
    (.queueForPrompt true) _ := rfl
  exact ⟨_, _, (Run.nil.snoc hpush).snoc hqueue, rfl,
    (inbox_exactly_once ((Run.nil.snoc hpush).snoc hqueue)).1⟩

end PiMesh
