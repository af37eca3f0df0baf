/-
Who waits for which acknowledgement.

A request takes a new id, leaves a waiter under it and stays in a stage that names it.  The
waiter goes when an answer, a timeout or a lost connection settles it, and then there is one
job for the call.  `Waits` says that this is so in every state: an id has one owner, a call
has at most one waiter or one job, and whoever has one is still in its stage or has returned
with an error.  Nothing in it depends on the connection.
-/
import PiMesh.Client.Reference
import PiMesh.Proofs.Desk

namespace PiMesh

open Js Transition

variable {ν : Type} [Number ν]

/-! ### Ids and their owners -/

/-- The id a call waits for an acknowledgement of. -/
def Stage.ackId : Stage → Option String
  | .sendAck _ id => some id
  | .replyAck id => some id
  | .tripAck _ id => some id
  | _ => none

/-- The id of the frame a call has made. -/
def Stage.ownId : Stage → Option String
  | .sendReply _ id => some id
  | .tripConnect _ frame => some frame.id
  | s => s.ackId

theorem ownId_of_ackId {s : Stage} {id : String} (h : s.ackId = some id) : s.ownId = some id := by
  cases s with
  | sendAck | replyAck | tripAck => exact h
  | _ => cases h

/-- One of the first `n` ids. -/
def Made (rt : Runtime) (n : Nat) (id : String) : Prop := ∃ m, m < n ∧ rt.makeMsgId m = id

theorem Made.mono {rt : Runtime} {n n' : Nat} {id : String} (h : Made rt n id) (hle : n ≤ n') :
    Made rt n' id := by
  obtain ⟨m, hm, hid⟩ := h
  exact ⟨m, Nat.lt_of_lt_of_le hm hle, hid⟩

/-- The next id has not been made. -/
theorem not_made {rt : Runtime} (hinj : Function.Injective rt.makeMsgId) (n : Nat) :
    ¬ Made rt n (rt.makeMsgId n) := by
  rintro ⟨m, hm, hid⟩
  have := hinj hid
  omega

def Job.ackOf : Job ν → Option CallId
  | .acked c _ => some c
  | _ => none

/-- The calls whose acknowledgement is queued. -/
def Desk.acked (d : Desk ν) : List CallId := d.jobs.filterMap Job.ackOf

theorem acked_desk (st : ClientState ν) : st.desk.acked = st.jobs.filterMap Job.ackOf := by
  unfold Desk.acked
  show (st.jobs.filter fun j => !j.isLink).filterMap Job.ackOf = _
  rw [List.filterMap_filter]
  congr 1
  funext j
  cases j <;> rfl

theorem acked_push (st : ClientState ν) (js : List (Job ν)) :
    (st.push js).desk.acked = st.desk.acked ++ js.filterMap Job.ackOf := by
  rw [acked_desk, acked_desk]
  exact List.filterMap_append ..

/-- The call made the frame with this id, or waits for its acknowledgement. -/
def Owns (d : Desk ν) (c : CallId) (id : String) : Prop :=
  (∃ s, d.calls.get? c = some s ∧ s.ownId = some id) ∨ d.ackWaiters.get? id = some c

structure Waits (rt : Runtime) (d : Desk ν) : Prop where
  apart : ∀ c s, d.calls.get? c = some s → d.results.get? c = none
  stages : ∀ c s id, d.calls.get? c = some s → s.ownId = some id → Made rt d.ids id
  made : ∀ id c, d.ackWaiters.get? id = some c → Made rt d.ids id
  single : ∀ id id' c, d.ackWaiters.get? id = some c → d.ackWaiters.get? id' = some c → id = id'
  waiter : ∀ id c, d.ackWaiters.get? id = some c →
    (∃ s, d.calls.get? c = some s ∧ s.ackId = some id) ∨ d.results.has c = true
  acked : ∀ c ∈ d.acked, (∀ id, d.ackWaiters.get? id ≠ some c) ∧
    ((∃ s id, d.calls.get? c = some s ∧ s.ackId = some id) ∨ d.results.has c = true)
  once : d.acked.Nodup
  owner : ∀ c c' id, Owns d c id → Owns d c' id → c = c'
  status : ∀ id c, d.statusWaiters.get? id = some c →
    (∃ id', d.calls.get? c = some (.status id')) ∨ d.results.has c = true

/-- Nobody waits for this call, and it has not returned. -/
structure Free (d : Desk ν) (c : CallId) : Prop where
  waiter : ∀ id, d.ackWaiters.get? id ≠ some c
  acked : c ∉ d.acked
  result : d.results.get? c = none
  status : ∀ id, d.statusWaiters.get? id ≠ some c

theorem not_has_of_none {κ α : Type} [DecidableEq κ] {m : Map κ α} {k : κ} (h : m.get? k = none) :
    m.has k ≠ true := by
  simp [Map.has, h]

namespace Waits

variable {rt : Runtime} {d d' : Desk ν} {st : ClientState ν} {c : CallId}

/-- Nothing of this changed, but ids may have been made. -/
theorem congr (h : Waits rt d) (hcalls : d'.calls = d.calls) (hresults : d'.results = d.results)
    (hack : d'.ackWaiters = d.ackWaiters) (hstatus : d'.statusWaiters = d.statusWaiters)
    (hids : d.ids ≤ d'.ids) (hacked : d'.acked = d.acked) : Waits rt d' := by
  have howns : ∀ c id, Owns d' c id → Owns d c id := by
    intro c id
    unfold Owns
    rw [hcalls, hack]
    exact fun h => h
  refine ⟨?_, ?_, ?_, ?_, ?_, ?_, ?_, ?_, ?_⟩
  · rw [hcalls, hresults]
    exact h.apart
  · intro c s id hs hid
    rw [hcalls] at hs
    exact (h.stages c s id hs hid).mono hids
  · intro id c hid
    rw [hack] at hid
    exact (h.made id c hid).mono hids
  · rw [hack]
    exact h.single
  · rw [hack, hcalls, hresults]
    exact h.waiter
  · rw [hacked, hack, hcalls, hresults]
    exact h.acked
  · rw [hacked]
    exact h.once
  · intro c c' id hc hc'
    exact h.owner c c' id (howns c id hc) (howns c' id hc')
  · rw [hstatus, hcalls, hresults]
    exact h.status

theorem booked {st' : ClientState ν} (h : Waits rt st.desk) (hb : Booked st st') :
    Waits rt st'.desk := by
  obtain ⟨js, hjs, hr⟩ := hb.jobs
  refine h.congr hb.calls hb.results hb.ackWaiters hb.statusWaiters (Nat.le_of_eq hb.ids.symm) ?_
  have hnone : js.filterMap Job.ackOf = [] := by
    rw [List.filterMap_eq_nil_iff]
    intro j hj
    have := hr j hj
    cases j with
    | resolved => rfl
    | _ => cases this
  rw [acked_desk, acked_desk, hjs, List.filterMap_append, hnone, List.append_nil]

/-- A call returns. -/
theorem finish (h : Waits rt st.desk) (c : CallId) (r : CallResult ν) :
    Waits rt (st.finish c r).desk := by
  have hcalls : ∀ c' s, (st.calls.delete c).get? c' = some s → c' ≠ c ∧ st.calls.get? c' = some s := by
    intro c' s hs
    rw [Map.get?_delete] at hs
    split at hs
    · cases hs
    · exact ⟨‹_›, hs⟩
  have hresults : ∀ c', st.results.has c' = true → (st.finish c r).results.has c' = true := by
    intro c' hc'
    obtain ⟨r', hr'⟩ := (Map.has_iff _ _).mp hc'
    exact (Map.has_iff _ _).mpr ⟨r', finish_keeps_results st c r hr'⟩
  -- who loses its stage has a result now
  have hstays : ∀ c' s, st.calls.get? c' = some s →
      (st.calls.delete c).get? c' = some s ∨ (st.finish c r).results.has c' = true := by
    intro c' s hs
    by_cases hc : c' = c
    · rw [hc]
      exact .inr (finish_has st c r)
    · exact .inl (by rw [Map.get?_delete_ne _ hc]; exact hs)
  have howns : ∀ c' id, Owns (st.finish c r).desk c' id → Owns st.desk c' id := by
    intro c' id ho
    rcases ho with ⟨s, hs, hid⟩ | ho
    · exact .inl ⟨s, (hcalls c' s hs).2, hid⟩
    · exact .inr ho
  refine ⟨?_, ?_, h.made, h.single, ?_, ?_, h.once, ?_, ?_⟩
  · intro c' s hs
    obtain ⟨hne, hs⟩ := hcalls c' s hs
    have hnone := h.apart c' s hs
    show (if st.results.has c then st.results else st.results.set c r).get? c' = none
    split
    · exact hnone
    · rw [Map.get?_set_ne _ _ hne]
      exact hnone
  · intro c' s id hs hid
    exact h.stages c' s id (hcalls c' s hs).2 hid
  · intro id c' hw
    rcases h.waiter id c' hw with ⟨s, hs, hid⟩ | hr
    · rcases hstays c' s hs with hs' | hr
      · exact .inl ⟨s, hs', hid⟩
      · exact .inr hr
    · exact .inr (hresults c' hr)
  · intro c' hc'
    obtain ⟨hno, hkind⟩ := h.acked c' hc'
    refine ⟨hno, ?_⟩
    rcases hkind with ⟨s, id, hs, hid⟩ | hr
    · rcases hstays c' s hs with hs' | hr
      · exact .inl ⟨s, id, hs', hid⟩
      · exact .inr hr
    · exact .inr (hresults c' hr)
  · intro c₁ c₂ id h₁ h₂
    exact h.owner c₁ c₂ id (howns c₁ id h₁) (howns c₂ id h₂)
  · intro id c' hw
    rcases h.status id c' hw with ⟨id', hs⟩ | hr
    · rcases hstays c' _ hs with hs' | hr
      · exact .inl ⟨id', hs'⟩
      · exact .inr hr
    · exact .inr (hresults c' hr)

/-- A call that nobody waits for moves to another stage. -/
theorem setStage {s : Stage} (h : Waits rt st.desk) (hfree : Free st.desk c)
    (hown : ∀ id, s.ownId = some id → Made rt st.ids id ∧ ∀ c', Owns st.desk c' id → c' = c) :
    Waits rt (st.setStage c s).desk := by
  have hcalls : ∀ c' s', (st.calls.set c s).get? c' = some s' →
      c' = c ∧ s' = s ∨ c' ≠ c ∧ st.calls.get? c' = some s' := by
    intro c' s' hs
    rw [Map.get?_set] at hs
    split at hs
    · exact .inl ⟨‹_›, (Option.some.inj hs).symm⟩
    · exact .inr ⟨‹_›, hs⟩
  have hother : ∀ c' s', c' ≠ c → st.calls.get? c' = some s' →
      (st.calls.set c s).get? c' = some s' := by
    intro c' s' hne hs
    rw [Map.get?_set_ne _ _ hne]
    exact hs
  have howns : ∀ c' id, Owns (st.setStage c s).desk c' id →
      Owns st.desk c' id ∨ c' = c ∧ s.ownId = some id := by
    intro c' id ho
    rcases ho with ⟨s', hs', hid⟩ | ho
    · rcases hcalls c' s' hs' with ⟨hc, hs⟩ | ⟨-, hs⟩
      · exact .inr ⟨hc, by rw [← hs]; exact hid⟩
      · exact .inl (.inl ⟨s', hs, hid⟩)
    · exact .inl (.inr ho)
  refine ⟨?_, ?_, h.made, h.single, ?_, ?_, h.once, ?_, ?_⟩
  · intro c' s' hs'
    rcases hcalls c' s' hs' with ⟨rfl, -⟩ | ⟨-, hs⟩
    · exact hfree.result
    · exact h.apart c' s' hs
  · intro c' s' id hs' hid
    rcases hcalls c' s' hs' with ⟨-, rfl⟩ | ⟨-, hs⟩
    · exact (hown id hid).1
    · exact h.stages c' s' id hs hid
  · intro id c' hw
    have hne : c' ≠ c := by
      intro heq
      exact hfree.waiter id (by rw [← heq]; exact hw)
    rcases h.waiter id c' hw with ⟨s', hs, hid⟩ | hr
    · exact .inl ⟨s', hother c' s' hne hs, hid⟩
    · exact .inr hr
  · intro c' hc'
    have hne : c' ≠ c := by
      intro heq
      exact hfree.acked (by rw [← heq]; exact hc')
    obtain ⟨hno, hkind⟩ := h.acked c' hc'
    refine ⟨hno, ?_⟩
    rcases hkind with ⟨s', id, hs, hid⟩ | hr
    · exact .inl ⟨s', id, hother c' s' hne hs, hid⟩
    · exact .inr hr
  · intro c₁ c₂ id h₁ h₂
    rcases howns c₁ id h₁ with ho₁ | ⟨hc₁, hid₁⟩
    · rcases howns c₂ id h₂ with ho₂ | ⟨hc₂, hid₂⟩
      · exact h.owner c₁ c₂ id ho₁ ho₂
      · rw [hc₂]
        exact (hown id hid₂).2 c₁ ho₁
    · rcases howns c₂ id h₂ with ho₂ | ⟨hc₂, -⟩
      · rw [hc₁]
        exact ((hown id hid₁).2 c₂ ho₂).symm
      · rw [hc₁, hc₂]
  · intro id c' hw
    have hne : c' ≠ c := by
      intro heq
      exact hfree.status id (by rw [← heq]; exact hw)
    rcases h.status id c' hw with ⟨id', hs⟩ | hr
    · exact .inl ⟨id', hother c' _ hne hs⟩
    · exact .inr hr

/-- A call in the stage for it leaves its waiter. -/
theorem ask {s : Stage} {id : String} (h : Waits rt st.desk) (hs : st.calls.get? c = some s)
    (hid : s.ackId = some id) (hwaiter : ∀ id, st.ackWaiters.get? id ≠ some c)
    (hacked : c ∉ st.desk.acked) : Waits rt (waitAck st id c).desk := by
  have hset : ∀ id' c', (st.ackWaiters.set id c).get? id' = some c' →
      id' = id ∧ c' = c ∨ id' ≠ id ∧ st.ackWaiters.get? id' = some c' := by
    intro id' c' hw
    rw [Map.get?_set] at hw
    split at hw
    · exact .inl ⟨‹_›, (Option.some.inj hw).symm⟩
    · exact .inr ⟨‹_›, hw⟩
  have hmine : Owns st.desk c id := .inl ⟨s, hs, ownId_of_ackId hid⟩
  have howns : ∀ c' id', Owns (waitAck st id c).desk c' id' → Owns st.desk c' id' := by
    intro c' id' ho
    rcases ho with ho | ho
    · exact .inl ho
    · rcases hset id' c' ho with ⟨rfl, rfl⟩ | ⟨-, ho⟩
      · exact hmine
      · exact .inr ho
  refine ⟨h.apart, h.stages, ?_, ?_, ?_, ?_, h.once, ?_, h.status⟩
  · intro id' c' hw
    rcases hset id' c' hw with ⟨rfl, -⟩ | ⟨-, hw⟩
    · exact h.stages c s id' hs (ownId_of_ackId hid)
    · exact h.made id' c' hw
  · intro id₁ id₂ c' h₁ h₂
    rcases hset id₁ c' h₁ with ⟨hid₁, hc₁⟩ | ⟨-, hw₁⟩
    · rcases hset id₂ c' h₂ with ⟨hid₂, -⟩ | ⟨-, hw₂⟩
      · rw [hid₁, hid₂]
      · exact absurd hw₂ (by rw [hc₁]; exact hwaiter id₂)
    · rcases hset id₂ c' h₂ with ⟨-, hc₂⟩ | ⟨-, hw₂⟩
      · exact absurd hw₁ (by rw [hc₂]; exact hwaiter id₁)
      · exact h.single id₁ id₂ c' hw₁ hw₂
  · intro id' c' hw
    rcases hset id' c' hw with ⟨rfl, rfl⟩ | ⟨-, hw⟩
    · exact .inl ⟨s, hs, hid⟩
    · exact h.waiter id' c' hw
  · intro c' hc'
    obtain ⟨hno, hkind⟩ := h.acked c' hc'
    refine ⟨?_, hkind⟩
    intro id' hw
    rcases hset id' c' hw with ⟨-, rfl⟩ | ⟨-, hw⟩
    · exact hacked hc'
    · exact hno id' hw
  · intro c₁ c₂ id' h₁ h₂
    exact h.owner c₁ c₂ id' (howns c₁ id' h₁) (howns c₂ id' h₂)

/-- A waiter is settled: there is a job for its call. -/
theorem answer {id : String} (h : Waits rt st.desk) (hw : st.ackWaiters.get? id = some c) (ack : Ack) :
    Waits rt (ClientState.push { st with ackWaiters := st.ackWaiters.delete id }
      [.acked c ack]).desk := by
  have hdelete : ∀ id' c', (st.ackWaiters.delete id).get? id' = some c' →
      id' ≠ id ∧ st.ackWaiters.get? id' = some c' := by
    intro id' c' hw'
    rw [Map.get?_delete] at hw'
    split at hw'
    · cases hw'
    · exact ⟨‹_›, hw'⟩
  have hacked : (ClientState.push { st with ackWaiters := st.ackWaiters.delete id }
      [.acked c ack]).desk.acked = st.desk.acked ++ [c] := by
    rw [acked_push]
    rfl
  have howns : ∀ c' id', Owns (ClientState.push { st with ackWaiters := st.ackWaiters.delete id }
      [.acked c ack]).desk c' id' → Owns st.desk c' id' := by
    intro c' id' ho
    rcases ho with ho | ho
    · exact .inl ho
    · exact .inr (hdelete id' c' ho).2
  refine ⟨h.apart, h.stages, ?_, ?_, ?_, ?_, ?_, ?_, h.status⟩
  · intro id' c' hw'
    exact h.made id' c' (hdelete id' c' hw').2
  · intro id₁ id₂ c' h₁ h₂
    exact h.single id₁ id₂ c' (hdelete id₁ c' h₁).2 (hdelete id₂ c' h₂).2
  · intro id' c' hw'
    exact h.waiter id' c' (hdelete id' c' hw').2
  · intro c' hc'
    rw [hacked, List.mem_append, List.mem_singleton] at hc'
    rcases hc' with hc' | rfl
    · obtain ⟨hno, hkind⟩ := h.acked c' hc'
      exact ⟨fun id' hw' => hno id' (hdelete id' c' hw').2, hkind⟩
    · refine ⟨?_, ?_⟩
      · intro id' hw'
        obtain ⟨hne, hw'⟩ := hdelete id' c' hw'
        exact hne (h.single id' id c' hw' hw)
      · rcases h.waiter id c' hw with ⟨s, hs, hid⟩ | hr
        · exact .inl ⟨s, id, hs, hid⟩
        · exact .inr hr
  · rw [hacked, List.nodup_append]
    refine ⟨h.once, List.nodup_singleton c, ?_⟩
    intro a ha b hb
    rw [List.mem_singleton] at hb
    intro heq
    rw [heq, hb] at ha
    exact (h.acked c ha).1 id hw
  · intro c₁ c₂ id' h₁ h₂
    exact h.owner c₁ c₂ id' (howns c₁ id' h₁) (howns c₂ id' h₂)

/-- A round trip fails before it has left a waiter. -/
theorem reject {s : Stage} {id : String} (h : Waits rt st.desk) (hs : st.calls.get? c = some s)
    (hid : s.ackId = some id) (hwaiter : ∀ id, st.ackWaiters.get? id ≠ some c)
    (hacked : c ∉ st.desk.acked) (ack : Ack) : Waits rt (st.push [.acked c ack]).desk := by
  have happend : (st.push [.acked c ack]).desk.acked = st.desk.acked ++ [c] := by
    rw [acked_push]
    rfl
  refine ⟨h.apart, h.stages, h.made, h.single, h.waiter, ?_, ?_, h.owner, h.status⟩
  · intro c' hc'
    rw [happend, List.mem_append, List.mem_singleton] at hc'
    rcases hc' with hc' | rfl
    · exact h.acked c' hc'
    · exact ⟨hwaiter, .inl ⟨s, id, hs, hid⟩⟩
  · rw [happend, List.nodup_append]
    refine ⟨h.once, List.nodup_singleton c, ?_⟩
    intro a ha b hb heq
    rw [List.mem_singleton] at hb
    rw [heq, hb] at ha
    exact hacked ha

/-- All waiters are settled at once. -/
theorem answers (h : Waits rt st.desk) (ack : Ack) :
    Waits rt (ClientState.push { st with ackWaiters := .empty }
      (st.ackWaiters.values.map fun c => .acked c ack)).desk := by
  have hfilter : ∀ cs : List CallId,
      (cs.map fun c => (Job.acked c ack : Job ν)).filterMap Job.ackOf = cs := by
    intro cs
    rw [List.filterMap_map]
    exact List.filterMap_some
  have hacked : (ClientState.push { st with ackWaiters := .empty }
      (st.ackWaiters.values.map fun c => .acked c ack)).desk.acked =
        st.desk.acked ++ st.ackWaiters.values := by
    rw [acked_push, hfilter]
    rfl
  have hnone : ∀ id c', ((Map.empty : Map String CallId)).get? id ≠ some c' := by
    intro id c' hw
    cases hw
  have howns : ∀ c' id', Owns (ClientState.push { st with ackWaiters := .empty }
      (st.ackWaiters.values.map fun c => .acked c ack)).desk c' id' → Owns st.desk c' id' := by
    intro c' id' ho
    rcases ho with ho | ho
    · exact .inl ho
    · exact absurd ho (hnone id' c')
  refine ⟨h.apart, h.stages, ?_, ?_, ?_, ?_, ?_, ?_, h.status⟩
  · intro id c' hw
    exact absurd hw (hnone id c')
  · intro id₁ id₂ c' hw
    exact absurd hw (hnone id₁ c')
  · intro id c' hw
    exact absurd hw (hnone id c')
  · intro c' hc'
    refine ⟨fun id => hnone id c', ?_⟩
    rw [hacked, List.mem_append] at hc'
    rcases hc' with hc' | hc'
    · exact (h.acked c' hc').2
    · obtain ⟨id, hid⟩ := (Map.mem_values_iff _ _).mp hc'
      rcases h.waiter id c' hid with ⟨s, hs, hs'⟩ | hr
      · exact .inl ⟨s, id, hs, hs'⟩
      · exact .inr hr
  · rw [hacked, List.nodup_append]
    refine ⟨h.once, ?_, ?_⟩
    · refine List.Nodup.map_on ?_ (List.Nodup.of_map _ st.ackWaiters.nodup)
      intro x hx y hy heq
      obtain ⟨id, v⟩ := x
      obtain ⟨id', v'⟩ := y
      have heq : v = v' := heq
      subst heq
      rw [Map.mem_entries_iff] at hx hy
      rw [h.single id id' v hx hy]
    · intro a ha b hb heq
      obtain ⟨id, hid⟩ := (Map.mem_values_iff _ _).mp hb
      exact (h.acked a ha).1 id (by rw [heq]; exact hid)
  · intro c₁ c₂ id' h₁ h₂
    exact h.owner c₁ c₂ id' (howns c₁ id' h₁) (howns c₂ id' h₂)

/-- A stage that waits for no acknowledgement is of a call nobody waits for. -/
theorem free {s : Stage} (h : Waits rt d) (hs : d.calls.get? c = some s) (hack : s.ackId = none)
    (hstatus : ∀ id, s ≠ .status id) : Free d c := by
  have hresult := h.apart c s hs
  have hstage : ∀ s' id, d.calls.get? c = some s' → s'.ackId ≠ some id := by
    intro s' id hs' hid
    rw [hs] at hs'
    obtain rfl := Option.some.inj hs'
    rw [hack] at hid
    cases hid
  refine ⟨?_, ?_, hresult, ?_⟩
  · intro id hw
    rcases h.waiter id c hw with ⟨s', hs', hid⟩ | hr
    · exact hstage s' id hs' hid
    · exact not_has_of_none hresult hr
  · intro hc
    rcases (h.acked c hc).2 with ⟨s', id, hs', hid⟩ | hr
    · exact hstage s' id hs' hid
    · exact not_has_of_none hresult hr
  · intro id hw
    rcases h.status id c hw with ⟨id', hs'⟩ | hr
    · rw [hs] at hs'
      exact hstatus id' (Option.some.inj hs')
    · exact not_has_of_none hresult hr

/-- A call that has just been taken up by an acknowledgement. -/
theorem took {ack : Ack} {rest : List (Job ν)} (h : Waits rt st.desk)
    (hjobs : st.jobs = .acked c ack :: rest) :
    Waits rt st.pop.desk ∧ c ∉ st.pop.desk.acked := by
  have hacked : st.desk.acked = c :: st.pop.desk.acked := by
    rw [acked_desk, acked_desk, hjobs]
    show c :: rest.filterMap Job.ackOf = c :: st.jobs.tail.filterMap Job.ackOf
    rw [hjobs]
    rfl
  have honce := h.once
  rw [hacked, List.nodup_cons] at honce
  refine ⟨⟨h.apart, h.stages, h.made, h.single, h.waiter, ?_, honce.2, h.owner, h.status⟩, honce.1⟩
  intro c' hc'
  exact h.acked c' (by rw [hacked]; exact List.mem_cons_of_mem _ hc')

end Waits

/-- A new call, or one that has waited for the connection, is nobody's. -/
theorem Enters.free {rt : Runtime} {st st₁ : ClientState ν} {c : CallId} {e : ClientEvent ν}
    (h : Enters st c e st₁) (hw : Waits rt st.desk) :
    st₁.desk = st.desk ∧ Free st.desk c := by
  cases h with
  | calls hnew =>
      simp only [isNewCall, Bool.and_eq_true, Bool.not_eq_true'] at hnew
      obtain ⟨⟨hcall, hresult⟩, -⟩ := hnew
      have hno : ∀ s, st.calls.get? c ≠ some s := by
        intro s hs
        simp [Map.has, hs] at hcall
      have hnone : st.results.get? c = none := by simpa [Map.has] using hresult
      refine ⟨rfl, ?_, ?_, hnone, ?_⟩
      · intro id hid
        rcases hw.waiter id c hid with ⟨s, hs, -⟩ | hr
        · exact hno s hs
        · exact not_has_of_none hnone hr
      · intro hc
        rcases (hw.acked c hc).2 with ⟨s, id, hs, -⟩ | hr
        · exact hno s hs
        · exact not_has_of_none hnone hr
      · intro id hid
        rcases hw.status id c hid with ⟨id', hs⟩ | hr
        · exact hno _ hs
        · exact not_has_of_none hnone hr
  | resumes hjobs hj hstage hs =>
      refine ⟨desk_pop hjobs hj, hw.free hstage ?_ ?_⟩
      · rename_i s
        cases s with
        | sendAck | replyAck | tripAck => cases hs
        | _ => rfl
      · intro id heq
        rw [heq] at hs
        cases hs

theorem newCall_free {rt : Runtime} {st : ClientState ν} {c : CallId} (hnew : isNewCall st c = true)
    (h : Waits rt st.desk) : Free st.desk c := by
  have henters : Enters st c (.call c .close) st := .calls hnew
  exact (henters.free h).2

/-! ### Every step -/

section Step

variable {env : ClientEnv} {now : Int} {st st₁ st' : ClientState ν} {c : CallId}

/-- Writing a frame touches the outbox and what was sent. -/
theorem writeOrQueue_eq {frame : ClientFrame} (h : writeOrQueue env st frame = some st') :
    ∃ outbox sent, st' = { st with outbox, sent } := by
  unfold writeOrQueue at h
  split at h
  · split at h
    · obtain rfl := Option.some.inj h
      exact ⟨st.outbox, _, rfl⟩
    · cases h
  · split at h
    · obtain rfl := Option.some.inj h
      exact ⟨_, st.sent, rfl⟩
    · obtain rfl := Option.some.inj h
      exact ⟨st.outbox, st.sent, rfl⟩

theorem flushFrames_eq (env : ClientEnv) (n : Nat) (st : ClientState ν) :
    ∃ outbox sent, (flushFrames env n st).1 = { st with outbox, sent } := by
  induction n generalizing st with
  | zero => exact ⟨st.outbox, st.sent, rfl⟩
  | succ n ih =>
      unfold flushFrames
      split
      · exact ⟨st.outbox, st.sent, rfl⟩
      · dsimp only
        split
        · split
          · exact ih _
          · exact ⟨_, st.sent, rfl⟩
        · exact ih _

/-- What `Waits` does not read may change. -/
theorem Waits.elsewhere (h : Waits env.rt st.desk)
    (hledger : (st'.calls, st'.results, st'.ackWaiters, st'.statusWaiters, st'.jobs) =
      (st.calls, st.results, st.ackWaiters, st.statusWaiters, st.jobs)) (hids : st.ids ≤ st'.ids) :
    Waits env.rt st'.desk := by
  simp only [Prod.mk.injEq] at hledger
  obtain ⟨hcalls, hresults, hack, hstatus, hjobs⟩ := hledger
  refine h.congr hcalls hresults hack hstatus hids ?_
  rw [acked_desk, acked_desk, hjobs]

/-- The id a call may use: a new one, or its own. -/
def Usable (rt : Runtime) (d : Desk ν) (c : CallId) (id : String) : Prop :=
  Made rt d.ids id ∧ ∀ c', Owns d c' id → c' = c

theorem usable_own {rt : Runtime} {d : Desk ν} {s : Stage} {id : String} (h : Waits rt d)
    (hs : d.calls.get? c = some s) (hid : s.ownId = some id) : Usable rt d c id :=
  ⟨h.stages c s id hs hid, fun c' ho => h.owner c' c id ho (.inl ⟨s, hs, hid⟩)⟩

theorem usable_new {rt : Runtime} (hinj : Function.Injective rt.makeMsgId)
    (h : Waits rt st.desk) : Usable rt st.useId.desk c (rt.makeMsgId st.ids) := by
  refine ⟨⟨st.ids, Nat.lt_succ_self _, rfl⟩, ?_⟩
  intro c' ho
  have hmade : Made rt st.ids (rt.makeMsgId st.ids) := by
    rcases ho with ⟨s, hs, hid⟩ | ho
    · exact h.stages c' s _ hs hid
    · exact h.made _ c' ho
  exact absurd hmade (not_made hinj st.ids)

/-- A request goes out: its call waits, or has thrown with its waiter left behind. -/
theorem Waits.issue {s : Stage} {id : String} (h : Waits env.rt st.desk) (hfree : Free st.desk c)
    (hid : s.ackId = some id) (husable : Usable env.rt st.desk c id) {frame : ClientFrame}
    {r : CallResult ν} :
    Waits env.rt (match writeOrQueue env (waitAck st id c) frame with
      | some st => st.setStage c s
      | none => (waitAck st id c).finish c r).desk := by
  have hstage : Waits env.rt (st.setStage c s).desk := by
    refine h.setStage hfree ?_
    intro id' hid'
    rw [ownId_of_ackId hid] at hid'
    obtain rfl := Option.some.inj hid'
    exact husable
  have hask : Waits env.rt (waitAck (st.setStage c s) id c).desk :=
    hstage.ask (Map.get?_set_self _ _ _) hid hfree.waiter hfree.acked
  split
  · next st' hw =>
    obtain ⟨outbox, sent, rfl⟩ := writeOrQueue_eq hw
    exact hask.elsewhere rfl (Nat.le_refl _)
  · refine (hask.finish c r).elsewhere ?_ (Nat.le_refl _)
    show ((st.calls.delete c), _) = (((st.calls.set c s).delete c), _)
    rw [Map.delete_set_self]
    rfl

theorem Waits.useId (h : Waits env.rt st.desk) : Waits env.rt st.useId.desk :=
  h.elsewhere rfl (Nat.le_succ _)

theorem Free.useId (h : Free st.desk c) : Free st.useId.desk c :=
  ⟨h.waiter, h.acked, h.result, h.status⟩

theorem Free.booked (h : Free st.desk c) (hb : Booked st st') : Free st'.desk c := by
  obtain ⟨js, hjs, hr⟩ := hb.jobs
  have hnone : js.filterMap Job.ackOf = [] := by
    rw [List.filterMap_eq_nil_iff]
    intro j hj
    have := hr j hj
    cases j with
    | resolved => rfl
    | _ => cases this
  refine ⟨?_, ?_, ?_, ?_⟩
  · show ∀ id, st'.ackWaiters.get? id ≠ some c
    rw [hb.ackWaiters]
    exact h.waiter
  · rw [acked_desk, hjs, List.filterMap_append, hnone, List.append_nil, ← acked_desk]
    exact h.acked
  · show st'.results.get? c = none
    rw [hb.results]
    exact h.result
  · show ∀ id, st'.statusWaiters.get? id ≠ some c
    rw [hb.statusWaiters]
    exact h.status

theorem issueSend_waits (hinj : Function.Injective env.rt.makeMsgId) (plan : SendPlan)
    (hfree : Free st.desk c) (h : Waits env.rt st.desk) :
    Waits env.rt (issueSend env now st c plan).desk := by
  unfold issueSend
  extract_lets frame st₁ st₂ st₃
  have hbooked : Booked st₁ st₂ := by
    show Booked st₁ (if plan.awaitReply then registerMission st₁ now plan frame.id else st₁)
    split
    · exact registerMission_booked now st₁ plan frame.id
    · exact .refl st₁
  have hnew : Usable env.rt st₁.desk c frame.id := usable_new hinj h
  have husable : Usable env.rt st₂.desk c frame.id := by
    refine ⟨by show Made env.rt st₂.ids _; rw [hbooked.ids]; exact hnew.1, ?_⟩
    intro c' ho
    refine hnew.2 c' ?_
    unfold Owns at ho ⊢
    show (∃ s, st₁.calls.get? c' = some s ∧ _) ∨ st₁.ackWaiters.get? _ = _
    rw [← hbooked.calls, ← hbooked.ackWaiters]
    exact ho
  exact (h.useId.booked hbooked).issue (hfree.useId.booked hbooked) rfl husable

theorem issueReply_waits (hinj : Function.Injective env.rt.makeMsgId) (plan : ReplyPlan)
    (hfree : Free st.desk c) (h : Waits env.rt st.desk) :
    Waits env.rt (issueReply env now st c plan).desk := by
  unfold issueReply
  split
  · exact h.finish c _
  · exact h.useId.issue hfree.useId rfl (usable_new hinj h)

/-- What a round trip starts from: a call nobody waits for and an id it may use. -/
theorem TripReady.waits (hinj : Function.Injective env.rt.makeMsgId) {use : TripUse}
    {frame : ClientFrame} (hready : TripReady env st c use frame st') (hfree : Free st.desk c)
    (h : Waits env.rt st.desk) :
    Waits env.rt st'.desk ∧ Free st'.desk c ∧ Usable env.rt st'.desk c frame.id := by
  rcases hready with ⟨rfl, hid, -⟩ | ⟨rfl, hs⟩
  · refine ⟨h.useId, hfree.useId, ?_⟩
    rw [hid]
    exact usable_new hinj h
  · exact ⟨h, hfree, usable_own h hs rfl⟩

theorem Waits.stage {s : Stage} (h : Waits env.rt st.desk) (hfree : Free st.desk c)
    (hs : s.ownId = none) : Waits env.rt (st.setStage c s).desk := by
  refine h.setStage hfree ?_
  intro id hid
  rw [hs] at hid
  cases hid

theorem startStatus_waits (room : Option String) (hfree : Free st.desk c)
    (h : Waits env.rt st.desk) : Waits env.rt (startStatus env now st c room).desk := by
  unfold startStatus
  split
  · exact h.finish c _
  · extract_lets src frame src' st₁
    have hstage := h.useId.stage (s := .status frame.id) hfree.useId rfl
    -- the stage is set after the waiter, but they do not touch each other
    have hasked : Waits env.rt (st₁.setStage c (.status frame.id)).desk := by
      refine ⟨hstage.apart, hstage.stages, hstage.made, hstage.single, hstage.waiter, hstage.acked,
        hstage.once, hstage.owner, ?_⟩
      intro id c' hw
      have hw : (st.statusWaiters.set frame.id c).get? id = some c' := hw
      rw [Map.get?_set] at hw
      split at hw
      · obtain rfl := Option.some.inj hw
        exact .inl ⟨frame.id, Map.get?_set_self _ _ _⟩
      · exact hstage.status id c' hw
    split
    · next st₂ hw =>
      obtain ⟨outbox, sent, rfl⟩ := writeOrQueue_eq hw
      exact hasked.elsewhere rfl (Nat.le_refl _)
    · refine (hasked.finish c (.rejected .frameSize)).elsewhere ?_ (Nat.le_refl _)
      show ((st.calls.delete c), _) = (((st.calls.set c (.status frame.id)).delete c), _)
      rw [Map.delete_set_self]
      rfl

theorem endWaitAll_waits (start : Int) (targets : List String) (status : WaitAllStatus)
    (h : Waits env.rt st.desk) :
    Waits env.rt (endWaitAll env now st c start targets status).desk :=
  (h.finish c _).elsewhere rfl (Nat.le_refl _)

theorem tickWaitAll_waits (start deadline : Int) (targets : List String) (signal : Bool)
    (hfree : Free st.desk c) (h : Waits env.rt st.desk) :
    Waits env.rt (tickWaitAll env now st c start deadline targets signal).desk := by
  unfold tickWaitAll
  split
  · exact endWaitAll_waits start targets _ h
  · split
    · exact endWaitAll_waits start targets _ h
    · exact h.stage hfree rfl

theorem handleAcked_waits {ack : Ack} {rest : List (Job ν)} (h : Waits env.rt st.desk)
    (hjobs : st.jobs = .acked c ack :: rest) : Waits env.rt (handleAcked st.pop c ack).desk := by
  obtain ⟨hpop, hacked⟩ := h.took hjobs
  have hmem : c ∈ st.desk.acked := by
    rw [acked_desk, hjobs]
    exact List.mem_cons_self ..
  unfold handleAcked
  split
  · next plan id hs =>
    have hs : st.calls.get? c = some (.sendAck plan id) := hs
    have hfree : Free st.pop.desk c := by
      refine ⟨(h.acked c hmem).1, hacked, h.apart c _ hs, ?_⟩
      intro id' hw
      rcases h.status id' c hw with ⟨id₁, hs'⟩ | hr
      · rw [show st.desk.calls.get? c = some (.sendAck plan id) from hs] at hs'
        cases hs'
      · exact not_has_of_none (h.apart c _ hs) hr
    unfold sendAcked
    split
    · dsimp only
      split
      · exact (hpop.booked (failMission_booked st.pop id _)).finish c _
      · exact hpop.finish c _
    · split
      · exact hpop.finish c _
      · split
        · exact (hpop.booked (watch_booked st.pop id _)).finish c _
        · extract_lets st₁
          have hbooked : Booked st.pop st₁ := by
            show Booked st.pop (if _ then _ else _)
            split
            · exact setPending_booked _ _
            · exact .refl _
          have hown := usable_own hpop hs rfl
          have hstage : Waits env.rt (st₁.setStage c (.sendReply plan id)).desk := by
            refine (hpop.booked hbooked).setStage (hfree.booked hbooked) ?_
            intro id' hid'
            obtain rfl := Option.some.inj hid'
            refine usable_own (hpop.booked hbooked) (s := .sendAck plan id) ?_ rfl
            show st₁.calls.get? c = _
            rw [hbooked.calls]
            exact hs
          exact hstage.booked (watch_booked _ id _)
  · unfold replyAcked
    split
    · exact hpop.finish c _
    · split
      · exact hpop.finish c _
      · exact hpop.finish c _
  · unfold tripAcked
    split
    · split
      · exact hpop.finish c _
      · exact (hpop.finish c _).elsewhere rfl (Nat.le_refl _)
    · split
      · exact hpop.finish c _
      · exact (hpop.finish c _).elsewhere rfl (Nat.le_refl _)
    · split
      · exact hpop.finish c _
      · exact (hpop.finish c _).elsewhere rfl (Nat.le_refl _)
    · split
      · dsimp only
        split
        · exact (hpop.finish c _).elsewhere rfl (Nat.le_refl _)
        · exact hpop.finish c _
      · exact (hpop.finish c _).elsewhere rfl (Nat.le_refl _)
  · exact hpop

theorem handleResolved_waits (w : Watcher) (id : String) (r : Resolution ν)
    (h : Waits env.rt st.desk) : Waits env.rt (handleResolved st w id r).desk := by
  have hdrop : Waits env.rt (st.dropTarget id).desk := h.booked (dropTarget_booked st id)
  unfold handleResolved
  split
  · exact h.booked (launchResolved_booked st id r)
  · split
    · unfold sendResolved
      dsimp only
      split
      · exact hdrop.finish _ _
      · exact (hdrop.booked (expireMission_booked _ id)).finish _ _
      · exact (hdrop.finish _ _).elsewhere rfl (Nat.le_refl _)
      · exact hdrop.finish _ _
    · exact h

theorem loseRequests_waits (h : Waits env.rt st.desk) : Waits env.rt (loseRequests st).desk := by
  let lost : Ack := { code := some (some .internal), status := some "connection_lost" }
  have hanswers := h.answers lost
  have hfold : ∀ (cs : List CallId) (st : ClientState ν), Waits env.rt st.desk →
      Waits env.rt (cs.foldl (fun st c => st.finish c (.snapshot [] [] none)) st).desk := by
    intro cs
    induction cs with
    | nil =>
        intro st h
        exact h
    | cons c rest ih =>
        intro st h
        exact ih _ (h.finish c _)
  -- the waiters are cleared at the end, but nothing reads them before
  have hclear : ∀ (cs : List CallId) (st : ClientState ν),
      ({ cs.foldl (fun st c => st.finish c (.snapshot [] [] none)) st with
        ackWaiters := .empty } : ClientState ν) =
      cs.foldl (fun st c => st.finish c (.snapshot [] [] none)) { st with ackWaiters := .empty } := by
    intro cs
    induction cs with
    | nil =>
        intro st
        rfl
    | cons c rest ih =>
        intro st
        exact ih _
  have hdone := hfold st.statusWaiters.values _ hanswers
  have hstatus : Waits env.rt ({ (st.statusWaiters.values.foldl
      (fun st c => st.finish c (.snapshot [] [] none))
      (ClientState.push { st with ackWaiters := .empty }
        (st.ackWaiters.values.map fun c => .acked c lost))) with
      statusWaiters := .empty } : ClientState ν).desk := by
    refine ⟨hdone.apart, hdone.stages, hdone.made, hdone.single, hdone.waiter, hdone.acked,
      hdone.once, hdone.owner, ?_⟩
    intro id c hw
    cases hw
  have heq : loseRequests st = { (st.statusWaiters.values.foldl
      (fun st c => st.finish c (.snapshot [] [] none))
      (ClientState.push { st with ackWaiters := .empty }
        (st.ackWaiters.values.map fun c => .acked c lost))) with
      statusWaiters := .empty } := by
    have hpush : ({ (st.push (st.ackWaiters.values.map fun c => .acked c lost)) with
        ackWaiters := .empty } : ClientState ν) = ClientState.push { st with ackWaiters := .empty }
        (st.ackWaiters.values.map fun c => .acked c lost) := rfl
    rw [← hpush, ← hclear]
    rfl
  rw [heq]
  exact hstatus

theorem Waits.forgetStatus (h : Waits env.rt st.desk) (id : String) :
    Waits env.rt ({ st with statusWaiters := st.statusWaiters.delete id } : ClientState ν).desk := by
  refine ⟨h.apart, h.stages, h.made, h.single, h.waiter, h.acked, h.once, h.owner, ?_⟩
  intro id' c hw
  have hw : (st.statusWaiters.delete id).get? id' = some c := hw
  rw [Map.get?_delete] at hw
  split at hw
  · cases hw
  · exact h.status id' c hw

theorem onStatus_waits (frame : Inbound ν) (h : Waits env.rt st.desk) :
    Waits env.rt (onStatus st frame).desk := by
  unfold onStatus
  split
  · exact (h.forgetStatus frame.id).finish _ _
  · exact h

theorem onFrame_waits (frame : Inbound ν) (h : Waits env.rt st.desk) :
    Waits env.rt (onFrame env now st frame).desk := by
  by_cases hack : frame.type = .ack
  · rw [onFrame, hack]
    show Waits env.rt (onAck st frame).desk
    unfold onAck
    split
    · next c hw => exact h.answer hw _
    · split
      · exact ((h.booked (setPending_booked st _)).booked (setMission_booked _ frame.id _)).elsewhere rfl
          (Nat.le_refl _)
      · exact h
  · by_cases hstatus : frame.type = .statusRes
    · rw [onFrame, hstatus]
      show Waits env.rt (onStatusRes st frame).desk
      unfold onStatusRes
      exact onStatus_waits frame (h.elsewhere rfl (Nat.le_refl _))
    · by_cases herror : frame.type = .error
      · rw [onFrame, herror]
        show Waits env.rt (onError st frame).desk
        unfold onError
        dsimp only
        split
        · next c hw => exact onStatus_waits frame (h.answer hw _)
        · exact onStatus_waits frame h
      · exact h.booked (onFrame_booked env now st frame hack hstatus herror)

theorem Waits.write {frame : ClientFrame} (h : Waits env.rt st.desk) :
    Waits env.rt ((writeOrQueue env st frame).getD st).desk := by
  cases hw : writeOrQueue env st frame with
  | none => exact h
  | some st' =>
      obtain ⟨outbox, sent, rfl⟩ := writeOrQueue_eq hw
      exact h.elsewhere rfl (Nat.le_refl _)

/-- What an act does keeps the waiters in order. -/
theorem act_waits (hinj : Function.Injective env.rt.makeMsgId) {e : ClientEvent ν}
    (hact : DeskAct env now st e st') (h : Waits env.rt st.desk) : Waits env.rt st'.desk := by
  cases hact with
  | rest => exact h
  | hello => exact h.elsewhere rfl (Nat.le_succ _)
  | mute => exact h.useId
  | beat =>
      unfold handleHeartbeat
      split
      · split
        · exact h.elsewhere rfl (Nat.le_succ _)
        · exact h
      · exact h
  | refuse hnew hr => exact h.finish _ _
  | giveUp hjobs hj hstage hr =>
      have hpop : Waits env.rt st.pop.desk := by
        rw [desk_pop hjobs hj]
        exact h
      exact hpop.finish _ _
  | wait hnew hs hnot =>
      rename_i c op s
      have hown : s.ownId = none := by
        cases s with
        | tripConnect use frame => exact absurd rfl (hnot use frame)
        | sendAck | replyAck | tripAck | sendReply => cases hs
        | _ => rfl
      exact h.stage (newCall_free hnew h) hown
  | waitTrip henters hid hfits =>
      obtain ⟨hdesk, hfree⟩ := henters.free h
      rw [← hdesk] at h hfree
      refine h.useId.setStage hfree.useId ?_
      intro id hid'
      obtain rfl := Option.some.inj hid'
      rw [hid]
      exact usable_new hinj h
  | send henters hplan =>
      obtain ⟨hdesk, hfree⟩ := henters.free h
      rw [← hdesk] at h hfree
      exact issueSend_waits hinj _ hfree h
  | reply henters =>
      obtain ⟨hdesk, hfree⟩ := henters.free h
      rw [← hdesk] at h hfree
      exact issueReply_waits hinj _ hfree h
  | trip henters hready =>
      obtain ⟨hdesk, hfree⟩ := henters.free h
      rw [← hdesk] at h hfree
      obtain ⟨h₂, hfree₂, husable⟩ := hready.waits hinj hfree h
      exact h₂.issue hfree₂ rfl husable
  | tripFailed henters hready =>
      obtain ⟨hdesk, hfree⟩ := henters.free h
      rw [← hdesk] at h hfree
      obtain ⟨h₂, hfree₂, husable⟩ := hready.waits hinj hfree h
      rename_i c st₁ st₂ use frame code
      have hstage : Waits env.rt (st₂.setStage c (.tripAck use frame.id)).desk := by
        refine h₂.setStage hfree₂ ?_
        intro id hid
        obtain rfl := Option.some.inj hid
        exact husable
      exact hstage.reject (Map.get?_set_self _ _ _) rfl hfree₂.waiter hfree₂.acked _
  | status hnew hon => exact startStatus_waits _ (newCall_free hnew h) h
  | detach henters hde =>
      obtain ⟨hdesk, hfree⟩ := henters.free h
      rw [← hdesk] at h hfree
      exact (h.stage hfree rfl).booked (setPending_booked _ _)
  | closing hnew =>
      have hfree := newCall_free hnew h
      exact (h.booked (setPending_booked st _)).stage (hfree.booked (setPending_booked st _)) rfl
  | close hnew => exact (h.booked (setPending_booked st _)).finish _ _
  | waitAll hnew =>
      have hfree := newCall_free hnew h
      have hcount : Booked st { st with
          book := { st.book with waitAllInFlight := st.book.waitAllInFlight + 1 } } := .of_same rfl rfl
      unfold startWaitAll
      dsimp only
      split
      · exact endWaitAll_waits _ _ _ (h.booked hcount)
      · exact tickWaitAll_waits _ _ _ _ (hfree.booked hcount) (h.booked hcount)
  | cancelAll hnew => exact (h.booked (cancelAllAwaited_booked st)).finish _ _
  | notice hnew hframe =>
      refine Waits.finish ?_ _ _
      unfold sendNotice
      split
      · exact h.useId.write
      · exact h
  | abort =>
      have haborted : ∀ c, Waits env.rt ({ st with aborted := st.aborted.add c } : ClientState ν).desk :=
        fun c => h.elsewhere rfl (Nat.le_refl _)
      unfold handleAbort
      dsimp only
      split
      · split
        · exact (haborted _).booked (setPending_booked _ _)
        · exact haborted _
      · exact endWaitAll_waits _ _ _ (haborted _)
      · exact haborted _
  | acked hjobs => exact handleAcked_waits h hjobs
  | resolved hjobs =>
      refine handleResolved_waits _ _ _ (h.congr rfl rfl rfl rfl (Nat.le_refl _) ?_)
      rw [acked_desk, acked_desk, hjobs]
      show st.jobs.tail.filterMap Job.ackOf = _
      rw [hjobs]
      rfl
  | lost hloses => exact loseRequests_waits h
  | flush hjobs =>
      obtain ⟨outbox, sent, heq⟩ := flushFrames_eq env (min st.outbox.length outboxFlushCap) st
      show Waits env.rt (flushFrames env _ st).1.desk
      rw [heq]
      exact h.elsewhere rfl (Nat.le_refl _)
  | line hread => exact onFrame_waits _ (h.elsewhere rfl (Nat.le_refl _))
  | ackTimeout hjobs =>
      unfold handleAckTimeout
      split
      · next c hw => exact Waits.answer (h.elsewhere rfl (Nat.le_refl _)) hw _
      · exact h
  | statusTimeout hjobs =>
      unfold handleStatusTimeout
      split
      · exact (Waits.forgetStatus (h.elsewhere rfl (Nat.le_refl _)) _).finish _ _
      · exact h
  | expire hjobs =>
      have hidle : Waits env.rt st.idle.desk := h
      exact hidle.booked (setPending_booked st.idle _)
  | remind hjobs =>
      unfold handleRemind
      dsimp only
      split
      · unfold sendRemind
        split
        · exact h.elsewhere rfl (Nat.le_refl _)
        · split
          · exact h.elsewhere rfl (Nat.le_refl _)
          · exact Waits.write (h.elsewhere rfl (Nat.le_refl _))
      · exact h.elsewhere rfl (Nat.le_refl _)
  | tick hjobs =>
      unfold handleTick
      split
      · next start deadline targets signal hs =>
        exact tickWaitAll_waits start deadline targets signal (h.free hs rfl (by simp)) h
      · exact h

theorem clientStep_waits (hinj : Function.Injective env.rt.makeMsgId) (e : ClientEvent ν)
    (h : Waits env.rt st.desk) : Waits env.rt (clientStep env now st e).desk := by
  obtain ⟨st₁, hact, hdesk⟩ := clientStep_act env now st e
  rw [hdesk]
  exact act_waits hinj hact h

theorem waits_init (rt : Runtime) (name : String) (rooms : List String)
    (reservations : List FileReservation) :
    Waits rt (ClientState.init (ν := ν) name rooms reservations).desk := by
  have hcalls : ∀ c s, ((Map.empty : Map CallId Stage)).get? c ≠ some s := by
    intro c s hs
    cases hs
  have hids : ∀ id c, ((Map.empty : Map String CallId)).get? id ≠ some c := by
    intro id c hw
    cases hw
  refine ⟨?_, ?_, ?_, ?_, ?_, ?_, List.nodup_nil, ?_, ?_⟩
  · intro c s hs
    exact absurd hs (hcalls c s)
  · intro c s id hs
    exact absurd hs (hcalls c s)
  · intro id c hw
    exact absurd hw (hids id c)
  · intro id id' c hw
    exact absurd hw (hids id c)
  · intro id c hw
    exact absurd hw (hids id c)
  · intro c hc
    cases hc
  · intro c c' id ho
    rcases ho with ⟨s, hs, -⟩ | hw
    · exact absurd hs (hcalls c s)
    · exact absurd hw (hids id c)
  · intro id c hw
    exact absurd hw (hids id c)

/-- In every run. -/
theorem waits_run (hinj : Function.Injective env.rt.makeMsgId) {name : String}
    {rooms : List String} {reservations : List FileReservation} {tr : ClientTrace ν}
    (hrun : Run (ClientStep env) (ClientState.init name rooms reservations) tr st) :
    Waits env.rt st.desk := by
  refine hrun.invariant (P := fun st => Waits env.rt st.desk) (Meets.trivial tr) (waits_init _ _ _ _) ?_
  intro st e st' h _ hstep
  have hstep : clientStep env e.1 st e.2 = st' := hstep
  rw [← hstep]
  exact clientStep_waits hinj e.2 h

end Step

end PiMesh
