/-
In which order a session reads.

A frame on its way to `pi.sendMessage` is in the batch, being released, or held, and these
three, one behind the other and behind what was passed on already, form a queue.  An arrival
goes to the end of it, with one exception: when a hold is over by the clock but its timer has
not fired, a frame that arrives is delivered ahead of those still held.  Away from that moment
the queue stays in the order of arrival, and what has been passed on is its front.
-/
import PiMesh.Proofs.Passage

namespace PiMesh

open Js Transition

variable {ν : Type} [Number ν]

/-! ### What the result speaks of -/

/-- Not forced, and classified immediate. -/
def isOrdinary (env : SessionEnv) (a : Members ν × Bool) : Bool :=
  decide (framePriority? a.1 ≠ some .force) && !Session.isDeferred env a.1 a.2

/-- The `k`-th arrival is such a frame. -/
def Session.ordinary (env : SessionEnv) (st : Session ν) (k : Nat) : Bool :=
  st.arrived[k]?.any (isOrdinary env)

/-- Whatever is passed on has everything before it that came before it. -/
def InOrder (env : SessionEnv) (st : Session ν) : Prop :=
  ∀ i j before after, i < j → st.ordinary env i = true → st.ordinary env j = true →
    st.passed = before ++ j :: after → i ∈ before

/-- No immediate frame arrives when the hold is over and another one is held still. -/
def noOvertaking (env : SessionEnv) (st : Session ν) : HostView × SessionEvent ν → Bool
  | (h, .inbound frame matchedReply) =>
      st.detached || st.isHolding h || !isOrdinary env (frame, matchedReply) ||
        st.held.all fun x => !isOrdinary env (x.1.members, x.2)
  | _ => true

/-! ### The queue -/

namespace Session

variable {env : SessionEnv} {h : HostView} {st st' : Session ν}

/-- What was passed on, and what is in the batch. -/
def front (st : Session ν) : List Nat := st.passed ++ st.batched

/-- Everything on its way, in order. -/
def queue (st : Session ν) : List Nat := st.front ++ st.heldBack

/-- A frame that a timer gets is forced. -/
theorem forced_of_leftToTimer {n : Nat} {frame : Members ν} (hw : leftToTimer h n frame = true) :
    framePriority? frame = some .force := by
  unfold leftToTimer inboundPriority at hw
  simp only [Bool.and_eq_true, decide_eq_true_eq] at hw
  have hforce := hw.1.1.1
  cases hp : framePriority? frame with
  | none => simp [hp] at hforce
  | some p =>
      rw [hp, Option.getD_some] at hforce
      rw [hforce]

theorem front_flushed (hf : Flushed env h st st') (hlive : st.detached = false) :
    st'.front = st.front := by
  have hnone : st'.batched = [] := by simp [batched, hf.batcher]
  unfold front
  rw [hf.passed, hlive, hnone, List.append_nil]
  rfl

/-- A delivery puts the frame at the end of the front, unless it is forced or deferred. -/
theorem front_delivered {f : SessionFrame ν} {matchedReply : Bool}
    (hd : Delivered env h st f matchedReply st') (hlive : st.detached = false) :
    st'.front = st.front ++ [f.no] ∨
      st'.front = st.front ∧ isOrdinary env (f.members, matchedReply) = false := by
  cases hd with
  | deferred hclass =>
      right
      exact ⟨rfl, by simp [isOrdinary, hclass]⟩
  | batched hints hclass =>
      left
      simp [front, Session.batched, InboundBatcher.push, tagged, passed]
  | silenced hints _ hflush hdetached =>
      rw [hflush.elsewhere.detached] at hdetached
      exact absurd (hdetached.symm.trans hlive) (by simp)
  | @handed s s' hints opts hclass _ hflush _ hinject =>
      have hsame : s.front = st.front := by
        rw [front_flushed hflush hlive]
        rfl
      cases hinject with
      | delayed w hwaits =>
          right
          constructor
          · rw [← hsame]
            unfold front
            rw [passed_of_acts s rfl, passes_receipts, List.append_nil]
            rfl
          · have hforce : framePriority? f.members = some .force := forced_of_leftToTimer hwaits
            simp [isOrdinary, hforce]
      | sent hsent =>
          left
          have hnone : s.batched = [] := by simp [Session.batched, hflush.batcher]
          have hs : s.passed = st.front := by
            rw [← hsame]
            simp [front, hnone]
          have hpasses : (SessionAct.message (singleContent env (tagged h f) opts) [(tagged h f).no]
              (h.accepts s.called) :: if h.accepts s.called || interrupts (tagged h f).members then
                receipts h [tagged h f] else []).flatMap SessionAct.passes = [f.no] := by
            rw [List.flatMap_cons]
            split <;> simp [SessionAct.passes, passes_receipts, tagged]
          unfold front
          rw [passed_of_acts s rfl, hpasses, hs]
          show (st.front ++ [f.no]) ++ s.batched = st.front ++ [f.no]
          rw [hnone, List.append_nil]

/-- What a delivery puts into the deferred inbox. -/
theorem put_delivered {f : SessionFrame ν} {matchedReply : Bool}
    (hd : Delivered env h st f matchedReply st') {g : SessionFrame ν}
    (hg : g ∈ st'.deferredInbox.pending) : g ∈ st.deferredInbox.pending ∨
      g.no = f.no ∧ isOrdinary env (f.members, matchedReply) = false := by
  cases hd with
  | deferred hclass =>
      rcases List.mem_append.mp hg with hg | hg
      · exact .inl hg
      · obtain rfl := List.mem_singleton.mp hg
        exact .inr ⟨rfl, by simp [isOrdinary, hclass]⟩
  | batched => exact .inl hg
  | silenced hints _ hflush =>
      rw [hflush.deferredInbox] at hg
      exact .inl hg
  | handed hints opts _ _ hflush _ hinject =>
      cases hinject with
      | delayed | sent =>
          rw [hflush.deferredInbox] at hg
          exact .inl hg

/-- What a delivery leaves to a timer. -/
theorem timed_delivered {f : SessionFrame ν} {matchedReply : Bool}
    (hd : Delivered env h st f matchedReply st') {w : SessionFrame ν × Waiting × String}
    (hw : w ∈ st'.waiting) : w ∈ st.waiting ∨
      w.1.no = f.no ∧ isOrdinary env (f.members, matchedReply) = false := by
  cases hd with
  | deferred => exact .inl hw
  | batched => exact .inl hw
  | silenced hints _ hflush =>
      rw [hflush.waiting] at hw
      exact .inl hw
  | handed hints opts _ _ hflush _ hinject =>
      cases hinject with
      | delayed _ hwaits =>
          rcases List.mem_append.mp hw with hw | hw
          · rw [hflush.waiting] at hw
            exact .inl hw
          · obtain rfl := List.mem_singleton.mp hw
            have hforce : framePriority? f.members = some .force := forced_of_leftToTimer hwaits
            exact .inr ⟨rfl, by simp [isOrdinary, hforce]⟩
      | sent =>
          rw [hflush.waiting] at hw
          exact .inl hw

/-- A detached session passes nothing on and starts no timer. -/
theorem silent_delivered {f : SessionFrame ν} {matchedReply : Bool}
    (hd : Delivered env h st f matchedReply st') (hdetached : st.detached = true) :
    st'.passed = st.passed ∧ st'.waiting = st.waiting := by
  cases hd with
  | deferred => exact ⟨rfl, rfl⟩
  | batched => exact ⟨rfl, rfl⟩
  | silenced hints _ hflush =>
      refine ⟨?_, hflush.waiting⟩
      rw [hflush.passed]
      show st.passed ++ (if st.detached then [] else _) = _
      rw [hdetached, if_pos rfl, List.append_nil]
  | handed hints opts _ _ hflush hlive =>
      rw [hflush.elsewhere.detached] at hlive
      exact absurd (hlive.symm.trans hdetached) (by simp)

end Session

/-! ### Order in the queue -/

/-- The queue is as the frames came, and what is elsewhere is not in it. -/
structure Queueing (env : SessionEnv) (st : Session ν) : Prop where
  filed : ∀ x ∈ st.releasing ++ st.held, st.arrived[x.1.no]? = some (x.1.members, x.2)
  below : ∀ k ∈ st.queue, k < st.arrived.length
  sorted : (st.queue.filter (st.ordinary env)).Pairwise (· < ·)
  complete : ∀ k, st.ordinary env k = true → k ∈ st.queue
  put : ∀ f ∈ st.deferredInbox.pending, f.no < st.arrived.length ∧ st.ordinary env f.no = false

/-- A session that runs has its frames in a queue; what it has passed on is in order, and so it
stays. -/
structure Lined (env : SessionEnv) (st : Session ν) : Prop where
  detached : st.detached = !st.running
  timed : ∀ w ∈ st.waiting, w.1.no < st.arrived.length ∧ st.ordinary env w.1.no = false
  alive : st.running = true → Queueing env st
  ordered : InOrder env st

/-- In a queue in order, what is passed on is in order. -/
theorem inOrder_of_queue {env : SessionEnv} {st : Session ν}
    (hsorted : (st.queue.filter (st.ordinary env)).Pairwise (· < ·))
    (hcomplete : ∀ k, st.ordinary env k = true → k ∈ st.queue) : InOrder env st := by
  intro i j before after hlt hi hj heq
  have hqueue : st.queue = before ++ j :: (after ++ st.batched ++ st.heldBack) := by
    unfold Session.queue Session.front
    rw [heq]
    simp
  have hmem := hcomplete i hi
  rw [hqueue] at hmem
  rcases List.mem_append.mp hmem with hbefore | hlater
  · exact hbefore
  · -- whatever ordinary frame stands behind `j` has come later
    rw [hqueue, List.filter_append, List.filter_cons_of_pos hj] at hsorted
    have htail := (List.pairwise_append.mp hsorted).2.1
    rcases List.mem_cons.mp hlater with rfl | hlater
    · omega
    · have hafter := (List.pairwise_cons.mp htail).1 i (List.mem_filter.mpr ⟨hlater, hi⟩)
      omega

/-- What is passed on besides leaves the order as it is. -/
theorem InOrder.append {env : SessionEnv} {st st' : Session ν} (more : List Nat)
    (ho : InOrder env st) (harrived : st'.arrived = st.arrived) (hpassed : st'.passed = st.passed ++ more)
    (hmore : ∀ k ∈ more, st.ordinary env k = false) : InOrder env st' := by
  have hsame : ∀ k, st'.ordinary env k = st.ordinary env k := by
    intro k
    unfold Session.ordinary
    rw [harrived]
  intro i j before after hlt hi hj heq
  rw [hsame] at hi hj
  rw [hpassed] at heq
  rcases List.append_eq_append_iff.mp heq with ⟨gap, hbefore, hrest⟩ | ⟨gap, hpre, hrest⟩
  · -- `j` would be among what is passed on besides
    have hjmore : j ∈ more := by rw [hrest]; simp
    rw [hmore j hjmore] at hj
    cases hj
  · cases gap with
    | nil =>
        have hjmore : j ∈ more := by rw [← List.nil_append more, ← hrest]; simp
        rw [hmore j hjmore] at hj
        cases hj
    | cons x gap =>
        obtain ⟨rfl, -⟩ := List.cons.inj hrest
        exact ho i j before gap hlt hi hj hpre

theorem ordinary_congr (env : SessionEnv) {st st' : Session ν} (harrived : st'.arrived = st.arrived) :
    st'.ordinary env = st.ordinary env := by
  funext k
  unfold Session.ordinary
  rw [harrived]

namespace Lined

variable {env : SessionEnv} {h : HostView} {st st' : Session ν}

theorem init (env : SessionEnv) : Lined env ({} : Session ν) := by
  have hnone : ∀ k, ({} : Session ν).ordinary env k = false := fun k => by simp [Session.ordinary]
  refine ⟨rfl, fun w hw => absurd hw List.not_mem_nil, fun _ => ⟨?_, ?_, ?_, ?_, ?_⟩, ?_⟩
  · exact fun x hx => absurd hx List.not_mem_nil
  · exact fun k hk => absurd hk List.not_mem_nil
  · exact List.Pairwise.nil
  · intro k hk
    rw [hnone] at hk
    cases hk
  · exact fun f hf => absurd hf List.not_mem_nil
  · intro i j before after _ hi
    rw [hnone] at hi
    cases hi

theorem lives (hl : Lined env st) (hlive : st.detached = false) : st.running = true := by
  have hd := hl.detached
  rw [hlive] at hd
  simpa using hd.symm

/-- A step that moves no ordinary frame. -/
theorem still (more : List Nat) (hl : Lined env st) (harrived : st'.arrived = st.arrived)
    (hdetached : st'.detached = st.detached) (hrunning : st'.running = st.running)
    (hheld : st'.releasing ++ st'.held = st.releasing ++ st.held) (hbatched : st'.batched = st.batched)
    (hpassed : st'.passed = st.passed ++ more)
    (hmore : ∀ k ∈ more, k < st.arrived.length ∧ st.ordinary env k = false)
    (hput : ∀ f ∈ st'.deferredInbox.pending, f ∈ st.deferredInbox.pending)
    (htimed : ∀ w ∈ st'.waiting, w ∈ st.waiting) : Lined env st' := by
  have hsame := ordinary_congr env harrived
  have hback : st'.heldBack = st.heldBack := by
    unfold Session.heldBack
    rw [hheld]
  have hqueue : st'.queue = st.passed ++ more ++ st.batched ++ st.heldBack := by
    unfold Session.queue Session.front
    rw [hpassed, hbatched, hback]
  have hfilter : st'.queue.filter (st.ordinary env) = st.queue.filter (st.ordinary env) := by
    have hnone : more.filter (st.ordinary env) = [] := by
      rw [List.filter_eq_nil_iff]
      intro k hk
      simp [(hmore k hk).2]
    rw [hqueue]
    unfold Session.queue Session.front
    simp [hnone]
  refine ⟨?_, fun w hw => ?_, fun hrun => ?_, ?_⟩
  · rw [hdetached, hrunning, hl.detached]
  · rw [hsame, harrived]
    exact hl.timed w (htimed w hw)
  · have hq := hl.alive (hrunning ▸ hrun)
    refine ⟨?_, fun k hk => ?_, ?_, fun k hk => ?_, fun f hf => ?_⟩
    · rw [hheld, harrived]
      exact hq.filed
    · rw [harrived]
      rw [hqueue] at hk
      simp only [List.mem_append] at hk
      rcases hk with ((hk | hk) | hk) | hk
      · exact hq.below k (by simp [Session.queue, Session.front, hk])
      · exact (hmore k hk).1
      · exact hq.below k (by simp [Session.queue, Session.front, hk])
      · exact hq.below k (by simp [Session.queue, hk])
    · rw [hsame, hfilter]
      exact hq.sorted
    · rw [hsame] at hk
      have hin : k ∈ st.queue.filter (st.ordinary env) :=
        List.mem_filter.mpr ⟨hq.complete k hk, hk⟩
      rw [← hfilter] at hin
      exact (List.mem_filter.mp hin).1
    · rw [hsame, harrived]
      exact hq.put f (hput f hf)
  · exact hl.ordered.append more harrived hpassed fun k hk => (hmore k hk).2

/-- The next frame of the queue is delivered. -/
theorem delivered {f : SessionFrame ν} {matchedReply : Bool}
    (hd : Session.Delivered env h st f matchedReply st') (hrun : st.running = true)
    (hlive : st.detached = false)
    (hfiled : ∀ x ∈ st.releasing ++ st.held, st.arrived[x.1.no]? = some (x.1.members, x.2))
    (hf : st.arrived[f.no]? = some (f.members, matchedReply))
    (hbelow : ∀ k ∈ st.front ++ f.no :: st.heldBack, k < st.arrived.length)
    (hsorted : ((st.front ++ f.no :: st.heldBack).filter (st.ordinary env)).Pairwise (· < ·))
    (hcomplete : ∀ k, st.ordinary env k = true → k ∈ st.front ++ f.no :: st.heldBack)
    (hput : ∀ g ∈ st.deferredInbox.pending, g.no < st.arrived.length ∧ st.ordinary env g.no = false)
    (htimed : ∀ w ∈ st.waiting, w.1.no < st.arrived.length ∧ st.ordinary env w.1.no = false) :
    Lined env st' := by
  have he := Session.elsewhere_delivered hd
  have hsame := ordinary_congr env he.arrived
  have hno : f.no < st.arrived.length := hbelow f.no (by simp)
  have hclass : st.ordinary env f.no = isOrdinary env (f.members, matchedReply) := by
    unfold Session.ordinary
    rw [hf, Option.any_some]
  have hback : st'.heldBack = st.heldBack := by
    unfold Session.heldBack
    rw [he.held, he.releasing]
  -- whether the frame joins the front or leaves the queue, the ordinary part is the same
  have hfilter : st'.queue.filter (st.ordinary env) =
      (st.front ++ f.no :: st.heldBack).filter (st.ordinary env) := by
    unfold Session.queue
    rcases Session.front_delivered hd hlive with hfront | ⟨hfront, hordinary⟩
    · rw [hfront, hback]
      simp
    · rw [hfront, hback, List.filter_append, List.filter_append,
        List.filter_cons_of_neg (by rw [hclass, hordinary]; simp)]
  have hsub : ∀ k ∈ st'.queue, k ∈ st.front ++ f.no :: st.heldBack := by
    intro k hk
    unfold Session.queue at hk
    rcases Session.front_delivered hd hlive with hfront | ⟨hfront, -⟩
    · rw [hfront, hback] at hk
      simpa using hk
    · rw [hfront, hback] at hk
      rcases List.mem_append.mp hk with hk | hk
      · simp [hk]
      · simp [hk]
  have hsorted' : (st'.queue.filter (st'.ordinary env)).Pairwise (· < ·) := by
    rw [hsame, hfilter]
    exact hsorted
  have hcomplete' : ∀ k, st'.ordinary env k = true → k ∈ st'.queue := by
    intro k hk
    rw [hsame] at hk
    have hin := List.mem_filter.mpr ⟨hcomplete k hk, hk⟩
    rw [← hfilter] at hin
    exact (List.mem_filter.mp hin).1
  refine ⟨?_, fun w hw => ?_, fun _ => ⟨?_, ?_, hsorted', hcomplete', ?_⟩,
    inOrder_of_queue hsorted' hcomplete'⟩
  · rw [he.detached, he.running, hrun, hlive]
    rfl
  · rw [hsame, he.arrived]
    rcases Session.timed_delivered hd hw with hw | ⟨hwf, hordinary⟩
    · exact htimed w hw
    · rw [hwf, hclass]
      exact ⟨hno, hordinary⟩
  · rw [he.held, he.releasing, he.arrived]
    exact hfiled
  · intro k hk
    rw [he.arrived]
    exact hbelow k (hsub k hk)
  · intro g hg
    rw [hsame, he.arrived]
    rcases Session.put_delivered hd hg with hg | ⟨hgf, hordinary⟩
    · exact hput g hg
    · rw [hgf, hclass]
      exact ⟨hno, hordinary⟩

end Lined

/-! ### Arrivals -/

/-- One more arrival, which is the last of all. -/
theorem ordinary_arrival (env : SessionEnv) (st : Session ν) (a : Members ν × Bool) (k : Nat) :
    ({ st with arrived := st.arrived ++ [a] } : Session ν).ordinary env k =
      if k < st.arrived.length then st.ordinary env k
      else decide (k = st.arrived.length) && isOrdinary env a := by
  unfold Session.ordinary
  rcases Nat.lt_trichotomy k st.arrived.length with hk | hk | hk
  · rw [if_pos hk, List.getElem?_append_left hk]
  · subst hk
    simp
  · rw [if_neg (by omega)]
    have hnone : (st.arrived ++ [a])[k]? = none := by simp; omega
    simp [hnone, show ¬ k = st.arrived.length by omega]

section Arrival

variable {env : SessionEnv} {h : HostView} {st st' : Session ν} {a : Members ν × Bool}

/-- The queue with the arrival in it, as long as no ordinary frame is behind one. -/
theorem sorted_arrival (hq : Queueing env st) {before after : List Nat}
    (hqueue : st.queue = before ++ after)
    (hgap : isOrdinary env a = true → after.filter (st.ordinary env) = []) :
    ((before ++ st.arrived.length :: after).filter
      (({ st with arrived := st.arrived ++ [a] } : Session ν).ordinary env)).Pairwise (· < ·) := by
  have hold : ∀ l : List Nat, (∀ k ∈ l, k ∈ st.queue) →
      l.filter (({ st with arrived := st.arrived ++ [a] } : Session ν).ordinary env) =
        l.filter (st.ordinary env) := by
    intro l hl
    refine List.filter_congr fun k hk => ?_
    rw [ordinary_arrival, if_pos (hq.below k (hl k hk))]
  have hbefore := hold before fun k hk => by rw [hqueue]; exact List.mem_append_left _ hk
  have hafter := hold after fun k hk => by rw [hqueue]; exact List.mem_append_right _ hk
  have hlast : ({ st with arrived := st.arrived ++ [a] } : Session ν).ordinary env st.arrived.length =
      isOrdinary env a := by
    rw [ordinary_arrival, if_neg (Nat.lt_irrefl _)]
    simp
  have hsorted := hq.sorted
  rw [hqueue, List.filter_append] at hsorted
  rw [List.filter_append, hbefore]
  cases hord : isOrdinary env a with
  | false =>
      rw [List.filter_cons_of_neg (by rw [hlast, hord]; simp), hafter]
      exact hsorted
  | true =>
      rw [List.filter_cons_of_pos (by rw [hlast, hord]), hafter, hgap hord, List.pairwise_append]
      rw [hgap hord, List.append_nil] at hsorted
      refine ⟨hsorted, List.pairwise_singleton _ _, fun k hk j hj => ?_⟩
      obtain rfl := List.mem_singleton.mp hj
      refine hq.below k ?_
      rw [hqueue]
      exact List.mem_append_left _ (List.mem_filter.mp hk).1

theorem complete_arrival (hq : Queueing env st) {before after : List Nat}
    (hqueue : st.queue = before ++ after) (k : Nat)
    (hk : ({ st with arrived := st.arrived ++ [a] } : Session ν).ordinary env k = true) :
    k ∈ before ++ st.arrived.length :: after := by
  rw [ordinary_arrival] at hk
  by_cases hlt : k < st.arrived.length
  · rw [if_pos hlt] at hk
    have hin := hq.complete k hk
    rw [hqueue] at hin
    rcases List.mem_append.mp hin with hin | hin <;> simp [hin]
  · rw [if_neg hlt] at hk
    have heq : k = st.arrived.length := by
      simp only [Bool.and_eq_true, decide_eq_true_eq] at hk
      exact hk.1
    simp [heq]

theorem below_arrival (hq : Queueing env st) {before after : List Nat}
    (hqueue : st.queue = before ++ after) :
    ∀ k ∈ before ++ st.arrived.length :: after, k < (st.arrived ++ [a]).length := by
  intro k hk
  rw [List.length_append, List.length_singleton]
  have hold : k ∈ st.queue ∨ k = st.arrived.length := by
    rw [hqueue]
    simp only [List.mem_append, List.mem_cons] at hk ⊢
    tauto
  rcases hold with hold | rfl
  · have := hq.below k hold
    omega
  · omega

theorem filed_arrival (hq : Queueing env st) :
    ∀ x ∈ st.releasing ++ st.held, (st.arrived ++ [a])[x.1.no]? = some (x.1.members, x.2) := by
  intro x hx
  have hfiled := hq.filed x hx
  obtain ⟨hlt, -⟩ := List.getElem?_eq_some_iff.mp hfiled
  rw [List.getElem?_append_left hlt]
  exact hfiled

/-- What is not ordinary stays so. -/
theorem aside_arrival {k : Nat} (hk : k < st.arrived.length ∧ st.ordinary env k = false) :
    k < (st.arrived ++ [a]).length ∧
      ({ st with arrived := st.arrived ++ [a] } : Session ν).ordinary env k = false := by
  rw [ordinary_arrival, if_pos hk.1, List.length_append]
  exact ⟨by omega, hk.2⟩

end Arrival

/-! ### Steps -/

namespace Lined

variable {env : SessionEnv} {h : HostView} {st st' : Session ν}

/-- An arrival that is held goes to the end of the queue. -/
theorem held (hl : Lined env st) (hlive : st.detached = false) (frame : Members ν)
    (matchedReply : Bool) : Lined env { st with
      arrived := st.arrived ++ [(frame, matchedReply)]
      held := st.held ++ [({ no := st.arrived.length, members := frame }, matchedReply)] } := by
  have hq := hl.alive (hl.lives hlive)
  have hqueue : ({ st with
      arrived := st.arrived ++ [(frame, matchedReply)]
      held := st.held ++ [({ no := st.arrived.length, members := frame }, matchedReply)] } :
        Session ν).queue = st.queue ++ [st.arrived.length] := by
    simp [Session.queue, Session.front, Session.heldBack, Session.passed, Session.batched]
  have hend : st.queue = st.queue ++ [] := (List.append_nil _).symm
  have hsorted := sorted_arrival (a := (frame, matchedReply)) hq hend fun _ => rfl
  have hcomplete := complete_arrival (a := (frame, matchedReply)) hq hend
  rw [← hqueue] at hsorted
  refine ⟨hl.detached, fun w hw => aside_arrival (hl.timed w hw), fun _ => ⟨?_, ?_, hsorted, ?_, ?_⟩,
    inOrder_of_queue hsorted fun k hk => ?_⟩
  · intro x hx
    show (st.arrived ++ [(frame, matchedReply)])[x.1.no]? = _
    rw [← List.append_assoc] at hx
    rcases List.mem_append.mp hx with hx | hx
    · exact filed_arrival hq x hx
    · obtain rfl := List.mem_singleton.mp hx
      simp
  · rw [hqueue]
    exact below_arrival hq hend
  · rw [hqueue]
    exact hcomplete
  · exact fun f hf => aside_arrival (hq.put f hf)
  · rw [hqueue]
    exact hcomplete k hk

/-- An arrival that is delivered at once, with nothing ordinary held if it is ordinary. -/
theorem taken (hl : Lined env st) {frame : Members ν} {matchedReply : Bool}
    (hreleasing : st.releasing = []) (hlive : st.detached = false) (hopen : st.isHolding h = false)
    (hok : noOvertaking env st (h, .inbound frame matchedReply) = true)
    (hd : Session.Delivered env h { st with arrived := st.arrived ++ [(frame, matchedReply)] }
      { no := st.arrived.length, members := frame } matchedReply st') : Lined env st' := by
  have hrun := hl.lives hlive
  have hq := hl.alive hrun
  have hgap : isOrdinary env (frame, matchedReply) = true →
      st.heldBack.filter (st.ordinary env) = [] := by
    intro hord
    have hall : ∀ x ∈ st.held, isOrdinary env (x.1.members, x.2) = false := by
      simpa [noOvertaking, hlive, hopen, hord] using hok
    rw [List.filter_eq_nil_iff]
    intro k hk
    unfold Session.heldBack numbers at hk
    rw [hreleasing, List.nil_append, List.map_map] at hk
    obtain ⟨x, hx, rfl⟩ := List.mem_map.mp hk
    have hfiled := hq.filed x (by rw [hreleasing]; exact hx)
    show ¬ st.ordinary env x.1.no = true
    unfold Session.ordinary
    rw [hfiled, Option.any_some, hall x hx]
    simp
  refine delivered hd hrun hlive (filed_arrival hq) (by simp) (below_arrival hq rfl)
    (sorted_arrival hq rfl hgap) (complete_arrival hq rfl) ?_ ?_
  · exact fun f hf => aside_arrival (hq.put f hf)
  · exact fun w hw => aside_arrival (hl.timed w hw)

/-- A frame of `flushHeld`. -/
theorem released (hl : Lined env st) {f : SessionFrame ν} {matchedReply : Bool}
    {rest : List (SessionFrame ν × Bool)} (hreleasing : st.releasing = (f, matchedReply) :: rest)
    (hd : Session.Delivered env h { st with releasing := rest } f matchedReply st') :
    Lined env st' := by
  cases hrun : st.running with
  | true =>
      have hq := hl.alive hrun
      have hqueue : st.queue = st.front ++ f.no ::
          ({ st with releasing := rest } : Session ν).heldBack := by
        simp [Session.queue, Session.heldBack, hreleasing]
      have hsorted := hq.sorted
      have hcomplete := hq.complete
      have hbelow := hq.below
      rw [hqueue] at hsorted hcomplete hbelow
      have hlive : st.detached = false := by rw [hl.detached, hrun]; rfl
      refine delivered hd hrun hlive (fun x hx => hq.filed x ?_) ?_ hbelow hsorted hcomplete hq.put
        hl.timed
      · rw [hreleasing]
        exact List.mem_cons_of_mem _ hx
      · exact hq.filed (f, matchedReply) (by rw [hreleasing]; exact List.mem_cons_self)
  | false =>
      -- a session that was shut down passes nothing on
      have hdetached : st.detached = true := by rw [hl.detached, hrun]; rfl
      have he := Session.elsewhere_delivered hd
      obtain ⟨hpassed, hwaiting⟩ := Session.silent_delivered hd hdetached
      refine ⟨?_, fun w hw => ?_, fun hrun' => ?_, ?_⟩
      · rw [he.detached, he.running]
        exact hl.detached
      · rw [ordinary_congr env he.arrived, he.arrived]
        rw [hwaiting] at hw
        exact hl.timed w hw
      · rw [he.running, hrun] at hrun'
        cases hrun'
      · exact hl.ordered.append [] he.arrived (by rw [hpassed, List.append_nil]; rfl)
          fun k hk => absurd hk List.not_mem_nil

/-- A flush moves the batch to what was passed on, or, in a detached session, away. -/
theorem flushed (hl : Lined env st) (hf : Session.Flushed env h st st') : Lined env st' := by
  have he := hf.elsewhere
  have hsame := ordinary_congr env he.arrived
  have htimed : ∀ w ∈ st'.waiting, w.1.no < st'.arrived.length ∧ st'.ordinary env w.1.no = false := by
    intro w hw
    rw [hsame, he.arrived]
    rw [hf.waiting] at hw
    exact hl.timed w hw
  cases hrun : st.running with
  | true =>
      have hlive : st.detached = false := by rw [hl.detached, hrun]; rfl
      have hq := hl.alive hrun
      have hqueue : st'.queue = st.queue := by
        unfold Session.queue Session.heldBack
        rw [Session.front_flushed hf hlive, he.held, he.releasing]
      have hsorted : (st'.queue.filter (st'.ordinary env)).Pairwise (· < ·) := by
        rw [hqueue, hsame]
        exact hq.sorted
      have hcomplete : ∀ k, st'.ordinary env k = true → k ∈ st'.queue := by
        rw [hqueue, hsame]
        exact hq.complete
      refine ⟨?_, htimed, fun _ => ⟨?_, ?_, hsorted, hcomplete, ?_⟩, inOrder_of_queue hsorted hcomplete⟩
      · rw [he.detached, he.running, hl.detached]
      · rw [he.held, he.releasing, he.arrived]
        exact hq.filed
      · rw [hqueue, he.arrived]
        exact hq.below
      · rw [hsame, he.arrived, hf.deferredInbox]
        exact hq.put
  | false =>
      have hdetached : st.detached = true := by rw [hl.detached, hrun]; rfl
      refine ⟨?_, htimed, fun hrun' => ?_, ?_⟩
      · rw [he.detached, he.running, hl.detached]
      · rw [he.running, hrun] at hrun'
        cases hrun'
      · refine hl.ordered.append [] he.arrived ?_ fun k hk => absurd hk List.not_mem_nil
        rw [hf.passed, hdetached, if_pos rfl]

/-- What the deferred inbox passes on is not ordinary. -/
theorem sent (hl : Lined env st) (hrun : st.running = true) {hints : ReplyHintTracker}
    {content : String} {ok : Bool} {more : List SessionAct} {deferredInbox : DeferredInbox ν}
    (hmore : more.flatMap SessionAct.passes = [])
    (hput : ∀ f ∈ deferredInbox.pending, f ∈ st.deferredInbox.pending) :
    Lined env { st with
      hints
      called := st.called + 1
      acts := st.acts ++ .message content (numbers st.deferredInbox.pending) ok :: more
      deferredInbox } := by
  refine hl.still st.pending rfl rfl rfl rfl rfl ?_ ?_ hput fun w hw => hw
  · rw [Session.passed_of_acts st rfl, List.flatMap_cons, hmore, List.append_nil]
    rfl
  · intro k hk
    obtain ⟨f, hf, rfl⟩ := List.mem_map.mp hk
    exact (hl.alive hrun).put f hf

theorem step (hl : Lined env st) {e : HostView × SessionEvent ν} (hok : noOvertaking env st e = true)
    (hs : SessionStep env st e st') : Lined env st' := by
  obtain ⟨h, e⟩ := e
  have hstep := Session.stepped_of_step hs
  dsimp only at hstep
  cases hstep with
  | same => exact hl
  | held frame matchedReply hreleasing hlive hhold => exact hl.held hlive frame matchedReply
  | taken frame matchedReply hreleasing hlive hopen hd =>
      exact hl.taken hreleasing hlive hopen hok hd
  | hold ms =>
      exact hl.still [] rfl rfl rfl rfl rfl (List.append_nil _).symm
        (fun k hk => absurd hk List.not_mem_nil) (fun f hf => hf) fun w hw => hw
  | lifted e hreleasing =>
      exact hl.still [] rfl rfl rfl (by simp [hreleasing]) rfl (List.append_nil _).symm
        (fun k hk => absurd hk List.not_mem_nil) (fun f hf => hf) fun w hw => hw
  | released hreleasing hd => exact hl.released hreleasing hd
  | ticked timer maxTimer asked =>
      exact hl.still [] rfl rfl rfl rfl rfl (List.append_nil _).symm
        (fun k hk => absurd hk List.not_mem_nil) (fun f hf => hf) fun w hw => hw
  | flushed e timer asked hreleasing he hopen hf =>
      have hbefore : Lined env { st with batcher := { st.batcher with timer }, asked } :=
        hl.still [] rfl rfl rfl rfl rfl (List.append_nil _).symm
          (fun k hk => absurd hk List.not_mem_nil) (fun f hf => hf) fun w hw => hw
      exact hbefore.flushed hf
  | prompted hreleasing hlive =>
      exact hl.sent (hl.lives hlive) rfl fun f hf => absurd hf List.not_mem_nil
  | refused e hreleasing hrefused hlive =>
      have hrun : st.running = true := by
        rcases hlive with hlive | hrun
        · exact hl.lives hlive
        · exact hrun
      exact hl.sent hrun rfl fun f hf => hf
  | starting =>
      exact hl.still [] rfl rfl rfl rfl rfl (List.append_nil _).symm
        (fun k hk => absurd hk List.not_mem_nil) (fun f hf => hf) fun w hw => hw
  | started hreleasing hlive =>
      have hpending : st.deferredInbox.agentStarting.2.pending = st.deferredInbox.pending := by
        unfold DeferredInbox.agentStarting
        split <;> rfl
      refine hl.still [] rfl rfl rfl rfl rfl ?_ (fun k hk => absurd hk List.not_mem_nil)
        (fun f hf => ?_) fun w hw => hw
      · rw [Session.passed_of_acts st rfl, Session.passes_receipts]
      · rw [← hpending]
        exact hf
  | promoted hreleasing hrunning =>
      exact hl.sent hrunning (Session.passes_receipts h _) fun f hf => absurd hf List.not_mem_nil
  | @waited f w content no hreleasing hmem hno =>
      refine hl.still [f.no] rfl rfl rfl rfl rfl ?_ (fun k hk => ?_) (fun g hg => hg)
        fun w' hw => (List.mem_filter.mp hw).1
      · rw [Session.passed_of_acts st rfl]
        rfl
      · obtain rfl := List.mem_singleton.mp hk
        exact hl.timed _ hmem
  | shut hreleasing hrunning hf =>
      have he := hf.elsewhere
      refine ⟨?_, fun w hw => ?_, fun hrun => ?_, ?_⟩
      · rw [he.detached, he.running]
        rfl
      · rw [ordinary_congr env he.arrived, he.arrived]
        rw [hf.waiting] at hw
        exact hl.timed w hw
      · rw [he.running] at hrun
        cases hrun
      · refine hl.ordered.append [] he.arrived ?_ fun k hk => absurd hk List.not_mem_nil
        rw [hf.passed]
        rfl

end Lined

/-! ### The claim -/

/-- **Frames are read in the order they came**, in every run in which no immediate frame arrives
after the end of a hold while another one is held still. -/
theorem inbound_in_order {env : SessionEnv} {tr : List (Session ν × HostView × SessionEvent ν)}
    {st : Session ν} (hrun : Run (SessionStep env) {} tr st)
    (hok : Meets (fun s e => noOvertaking env s e = true) tr) : InOrder env st := by
  have hl : Lined env st := hrun.invariant hok (Lined.init env)
    fun s e s' hs he hstep => hs.step he hstep
  exact hl.ordered

/-! ### Two runs -/

/-- A host without a turn, at some time. -/
def idleHostAt (now : Int) : HostView :=
  { now, ctx := some { canAbort := true, isIdle := some fun _ => true } }

/-- A session that hands every frame over at once. -/
def promptSession : SessionEnv := { name := "alice", batchMs := 0, localTime := fun _ => "12:00:00" }

/-- The provider rejects turns for a minute, and a message of bob's comes; another one comes
later, at a time, and the timer of the hold fires. -/
def heldThenNext (later : Int) : List (HostView × SessionEvent Int) :=
  [(idleHostAt 1000, .hold 60000), (idleHostAt 2000, .inbound (bobSays "m_1" "one") false),
    (idleHostAt later, .inbound (bobSays "m_2" "two") false), (idleHostAt 61005, .holdExpired),
    (idleHostAt 61005, .release)]

/-- Within the minute the second is held behind the first. -/
theorem held_in_order : ∃ (tr : List (Session Int × HostView × SessionEvent Int)) (st : Session Int),
    Run (SessionStep promptSession) {} tr st ∧
    tr.map Prod.snd = heldThenNext 60999 ++ [(idleHostAt 61005, .release)] ∧
    st.passed = [0, 1] ∧ InOrder promptSession st := by
  have hcheck : ((follow (Session.step promptSession) ({} : Session Int)
      (heldThenNext 60999 ++ [(idleHostAt 61005, .release)])).any fun r =>
      (r.1.all fun x => noOvertaking promptSession x.1 x.2) && decide (r.2.passed = [0, 1])) = true := by
    decide +kernel
  obtain ⟨tr, st, hrun, htr, hfound⟩ := Run.of_check hcheck
  simp only [Bool.and_eq_true, List.all_eq_true, decide_eq_true_eq] at hfound
  exact ⟨tr, st, hrun, htr, hfound.2, inbound_in_order hrun hfound.1⟩

/-- The minute is over and the timer is late by a few milliseconds: the second is read first. -/
theorem late_timer_reorders : ∃ (tr : List (Session Int × HostView × SessionEvent Int))
    (st : Session Int), Run (SessionStep promptSession) {} tr st ∧
    tr.map Prod.snd = heldThenNext 61002 ∧ st.passed = [1, 0] ∧ ¬ InOrder promptSession st := by
  have hcheck : ((follow (Session.step promptSession) ({} : Session Int) (heldThenNext 61002)).any
      fun r => decide (r.2.passed = [1, 0]) && r.2.ordinary promptSession 0 &&
        r.2.ordinary promptSession 1) = true := by
    decide +kernel
  obtain ⟨tr, st, hrun, htr, hfound⟩ := Run.of_check hcheck
  simp only [Bool.and_eq_true, decide_eq_true_eq] at hfound
  obtain ⟨⟨hpassed, hfirst⟩, hsecond⟩ := hfound
  refine ⟨tr, st, hrun, htr, hpassed, fun hc => ?_⟩
  have hin := hc 0 1 [] [0] (by omega) hfirst hsecond hpassed
  cases hin

end PiMesh
