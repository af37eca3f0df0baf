/-
One broker to a runtime directory, while nobody removes the lock of another.

A process that `acquireLock` has told it holds the lock has found its own pid in the file.
While no step of another process unlinks or rewrites the file from then on, the file keeps
that pid, and a file holds one pid only; so no second process can be told the same.  A
process that is about to unlink the socket holds the lock, and so does one that listens,
so the first never unlinks the socket of the second.

The condition cannot be dropped: once the lock of a live holder is gone or says something
else, a process that starts then can acquire it as well.
-/
import PiMesh.Broker.Lock
import PiMesh.Lib.Transition
import Mathlib.Data.Fintype.EquivFin

namespace PiMesh

open Js Transition

variable {st st' : RuntimeDir} {e : LockEvent} {p q : Pid}

/-! ### What the result speaks of -/

abbrev LockTrace := List (RuntimeDir × LockEvent)

/-- A live process that `acquireLock` has told it holds the lock. -/
def Holds (st : RuntimeDir) (p : Pid) : Prop :=
  ∃ a, st.brokers.get? p = some a ∧ a.holds = true

/-- A broker that is starting unlinks the socket another one listens on. -/
def Hijacks (st : RuntimeDir) (e : LockEvent) : Prop :=
  ∃ p late other q, e = .broker p late other ∧ st.brokers.get? p = some .unlinkSock ∧
    q ≠ p ∧ st.sock = some (some q)

/-- At most one process holds the lock, and no socket was taken from a listening broker. -/
structure SingleBroker (tr : LockTrace) (st : RuntimeDir) : Prop where
  one : ∀ p q, Holds st p → Holds st q → p = q
  sockets : ∀ x ∈ tr, ¬ Hijacks x.1 x.2

/-- The steps of a broker that unlink the lock. -/
def BrokerAt.unlinksLock : BrokerAt → Bool
  | .unlink _ | .dropLock => true
  | _ => false

/-- The steps of `ensureBroker` that unlink the lock. -/
def EnsureAt.unlinksLock : EnsureAt → Bool
  | .unspawn | .unlink _ | .clean _ | .cleanForeign _ => true
  | _ => false

/-- A step that does not unlink the lock, unless it is the process' own, and does not write
the pid of another process there. -/
def Spares (st : RuntimeDir) (q : Pid) : LockEvent → Prop
  | .broker p _ _ => ∀ a, st.brokers.get? p = some a → a.unlinksLock = true → q = p
  | .client c _ _ => ∀ noSpawn a, st.clients.get? c = some (noSpawn, a) →
      a.unlinksLock = false ∧ ∀ n child, a = .stamp n child → q = child
  | _ => True

/-- No step unlinks the lock of a live process that holds it, or writes another pid there. -/
def Undisturbed (st : RuntimeDir) (e : LockEvent) : Prop := ∀ q, Holds st q → Spares st q e

/-! ### One step -/

/-- The lock of every process that holds it has its pid. -/
def Intact (st : RuntimeDir) : Prop := ∀ q, Holds st q → st.lock = some (some q)

theorem holds_goto {a : BrokerAt} (h : Holds (st.goto p a) q) :
    (q = p ∧ a.holds = true) ∨ Holds st q := by
  obtain ⟨b, hb, hholds⟩ := h
  rw [show (st.goto p a).brokers = st.brokers.set p a from rfl, Map.get?_set] at hb
  split at hb
  · next hq =>
      obtain rfl := Option.some.inj hb
      exact .inl ⟨hq, hholds⟩
  · exact .inr ⟨b, hb, hholds⟩

theorem holds_exit (h : Holds (st.exit p) q) : q ≠ p ∧ Holds st q := by
  obtain ⟨b, hb, hholds⟩ := h
  rw [show (st.exit p).brokers = st.brokers.delete p from rfl, Map.get?_delete] at hb
  split at hb
  · cases hb
  · next hq => exact ⟨hq, b, hb, hholds⟩

/-- A process that goes on without taking or losing the lock. -/
theorem Intact.goto (h : Intact st) {a b : BrokerAt} (ha : st.brokers.get? p = some a)
    (hab : b.holds = true → a.holds = true) : Intact (st.goto p b) := by
  intro q hq
  rcases holds_goto hq with ⟨rfl, hb⟩ | hq
  · exact h q ⟨a, ha, hab hb⟩
  · exact h q hq

/-- A process that does not hold the lock goes on, whatever the lock says by now, as long as
it says so to those who hold it. -/
theorem Intact.goto_out (h : Intact st) {b : BrokerAt} (hb : b.holds = false) :
    Intact (st.goto p b) := by
  intro q hq
  rcases holds_goto hq with ⟨rfl, hc⟩ | hq
  · rw [hb] at hc
    cases hc
  · exact h q hq

theorem Intact.exit (h : Intact st) : Intact (st.exit p) := fun q hq => h q (holds_exit hq).2

theorem Intact.retry (h : Intact st) (n : Nat) : Intact (st.retry p n) := by
  unfold RuntimeDir.retry
  split
  · exact h.goto_out rfl
  · exact h.exit

/-- The socket has no part in it. -/
theorem Intact.of_sock (h : Intact st) (sock : Option (Option Pid)) :
    Intact { st with sock := sock } := h

/-- The clients have no part in it, and neither has the lock where nobody holds it. -/
theorem Intact.of_none (hnone : ∀ q, ¬ Holds st q) (lock : Option (Option Pid)) :
    Intact { st with lock := lock } := fun q hq => absurd hq (hnone q)

theorem Intact.nobody (h : Intact st) (hlock : st.lock = none) (q : Pid) : ¬ Holds st q := by
  intro hq
  have hq' := h q hq
  rw [hlock] at hq'
  cases hq'

theorem intact_stepBroker (h : Intact st) {late other : Bool} {a : BrokerAt}
    (ha : st.brokers.get? p = some a) (hok : Undisturbed st (.broker p late other)) :
    Intact (st.stepBroker p late other a) := by
  have hfree : a.unlinksLock = true → ∀ q, Holds st q → q = p :=
    fun hcase q hq => hok q hq a ha hcase
  cases a with
  | create n =>
      show Intact (if _ then _ else _)
      split
      · next hlock => exact (Intact.of_none (h.nobody hlock) _).goto_out rfl
      · exact h.goto_out rfl
  | confirm n =>
      show Intact (if _ then _ else _)
      split
      · next hlock =>
          -- the process is told that it holds what it has just read
          intro q hq
          rcases holds_goto hq with ⟨rfl, _⟩ | hq
          · exact hlock
          · exact h q hq
      · exact h.retry n
  | read n =>
      unfold RuntimeDir.stepBroker
      dsimp only
      split
      · split
        · exact h.goto_out rfl
        · exact h.goto_out rfl
      · exact h.goto_out rfl
  | verify n =>
      show Intact (if _ then _ else if _ then _ else _)
      split
      · exact h.exit
      · split
        · exact h.goto_out rfl
        · exact h
  | unlink n =>
      have hnone : ∀ q, ¬ Holds st q := by
        intro q hq
        obtain rfl := hfree rfl q hq
        obtain ⟨b, hb, hholds⟩ := hq
        rw [ha] at hb
        obtain rfl := Option.some.inj hb
        cases hholds
      exact (Intact.of_none hnone none).retry n
  | sockExists =>
      show Intact (if _ then _ else _)
      split
      · exact h.goto ha fun _ => rfl
      · exact h.goto ha fun _ => rfl
  | probe =>
      show Intact (if _ then _ else _)
      split
      · exact h.exit
      · exact h.goto ha fun _ => rfl
  | unlinkSock => exact (h.of_sock none).goto ha fun _ => rfl
  | bind =>
      show Intact (if _ then _ else _)
      split
      · exact (h.of_sock _).goto ha fun _ => rfl
      · exact h.exit
  | serving => exact h
  | dropSock => exact (h.of_sock none).goto ha fun _ => rfl
  | dropLock =>
      intro q hq
      obtain ⟨hne, hq⟩ := holds_exit hq
      exact absurd (hfree rfl q hq) hne

/-- A step that leaves the lock and the brokers alone. -/
theorem Intact.same (h : Intact st) (hlock : st'.lock = st.lock)
    (hbrokers : st'.brokers = st.brokers) : Intact st' := by
  rintro q ⟨a, ha, hholds⟩
  rw [hlock]
  rw [hbrokers] at ha
  exact h q ⟨a, ha, hholds⟩

/-- A step that leaves the brokers alone and that no holder minds. -/
theorem Intact.nobody_same (hnone : ∀ q, ¬ Holds st q) (hbrokers : st'.brokers = st.brokers) :
    Intact st' := by
  rintro q ⟨a, ha, hholds⟩
  rw [hbrokers] at ha
  exact absurd ⟨a, ha, hholds⟩ (hnone q)

@[simp] theorem again_brokers (st : RuntimeDir) (c : Nat) (b : Bool) (n : Nat) :
    (st.again c b n).brokers = st.brokers := by
  unfold RuntimeDir.again
  split <;> rfl

@[simp] theorem again_lock (st : RuntimeDir) (c : Nat) (b : Bool) (n : Nat) :
    (st.again c b n).lock = st.lock := by
  unfold RuntimeDir.again
  split <;> rfl

@[simp] theorem polled_brokers (st : RuntimeDir) (c : Nat) (b : Bool) (n : Nat) (created : Bool)
    (left : Nat) : (st.polled c b n created left).brokers = st.brokers := by
  cases left <;> rfl

@[simp] theorem polled_lock (st : RuntimeDir) (c : Nat) (b : Bool) (n : Nat) (created : Bool)
    (left : Nat) : (st.polled c b n created left).lock = st.lock := by
  cases left <;> rfl

theorem intact_stepClient (h : Intact st) {c : Nat} {noSpawn other : Bool}
    {spawned : SpawnOutcome} {a : EnsureAt} (ha : st.clients.get? c = some (noSpawn, a))
    (hok : Undisturbed st (.client c other spawned))
    (hstep : st.stepClient c noSpawn other spawned a = some st') : Intact st' := by
  -- at the four cleanups nobody holds the lock
  have hnobody : a.unlinksLock = true → ∀ q, ¬ Holds st q := by
    intro hcase q hq
    have hspared := (hok q hq noSpawn a ha).1
    rw [hcase] at hspared
    cases hspared
  cases a with
  | probe n =>
      obtain rfl := Option.some.inj hstep
      split
      · exact h.same rfl rfl
      · split <;> exact h.same rfl rfl
  | reprobe =>
      obtain rfl := Option.some.inj hstep
      exact h.same rfl rfl
  | create n =>
      obtain rfl := Option.some.inj hstep
      split
      · next hlock => exact Intact.nobody_same (h.nobody hlock) rfl
      · exact h.same rfl rfl
  | spawn n =>
      cases spawned with
      | throws =>
          obtain rfl := Option.some.inj hstep
          exact h.same rfl rfl
      | noPid =>
          obtain rfl := Option.some.inj hstep
          exact h.same (polled_lock ..) (polled_brokers ..)
      | child pid =>
          simp only [RuntimeDir.stepClient] at hstep
          split at hstep
          · cases hstep
          · obtain rfl := Option.some.inj hstep
            have hgo : Intact (st.goto pid (.create 0)) := h.goto_out rfl
            exact hgo.same rfl rfl
  | stamp n child =>
      obtain rfl := Option.some.inj hstep
      rintro q ⟨b, hb, hholds⟩
      rw [polled_brokers] at hb
      have hq : q = child := (hok q ⟨b, hb, hholds⟩ noSpawn _ ha).2 n child rfl
      rw [polled_lock, hq]
  | unspawn =>
      obtain rfl := Option.some.inj hstep
      exact Intact.nobody_same (hnobody rfl) rfl
  | read n =>
      simp only [RuntimeDir.stepClient] at hstep
      split at hstep
      · obtain rfl := Option.some.inj hstep
        split
        · exact h.same (polled_lock ..) (polled_brokers ..)
        · exact h.same rfl rfl
      · obtain rfl := Option.some.inj hstep
        exact h.same rfl rfl
  | unlink n =>
      obtain rfl := Option.some.inj hstep
      exact Intact.nobody_same (hnobody rfl) (again_brokers ..)
  | poll n created left =>
      obtain rfl := Option.some.inj hstep
      split
      · exact h.same rfl rfl
      · exact h.same (polled_lock ..) (polled_brokers ..)
  | clean n =>
      obtain rfl := Option.some.inj hstep
      exact Intact.nobody_same (hnobody rfl) (again_brokers ..)
  | recheck n =>
      obtain rfl := Option.some.inj hstep
      split
      · exact h.same (again_lock ..) (again_brokers ..)
      · exact h.same rfl rfl
  | cleanForeign n =>
      obtain rfl := Option.some.inj hstep
      exact Intact.nobody_same (hnobody rfl) (again_brokers ..)

theorem intact_step (h : Intact st) (hok : Undisturbed st e) (hstep : LockStep st e st') :
    Intact st' := by
  unfold LockStep RuntimeDir.step at hstep
  cases e with
  | start pid =>
      dsimp only at hstep
      split at hstep
      · cases hstep
      · obtain rfl := Option.some.inj hstep
        exact h.goto_out rfl
  | broker pid late other =>
      obtain ⟨a, ha, rfl⟩ := Option.map_eq_some_iff.mp hstep
      exact intact_stepBroker h ha hok
  | shutdown pid =>
      dsimp only at hstep
      split at hstep
      · next hserving =>
          obtain rfl := Option.some.inj hstep
          exact (h.of_sock _).goto hserving fun _ => rfl
      · cases hstep
  | die pid =>
      dsimp only at hstep
      split at hstep
      · obtain rfl := Option.some.inj hstep
        exact h.exit
      · cases hstep
  | ensure c noSpawn =>
      dsimp only at hstep
      split at hstep
      · cases hstep
      · obtain rfl := Option.some.inj hstep
        exact h.same rfl rfl
  | client c other spawned =>
      dsimp only at hstep
      split at hstep
      · cases hstep
      · next noSpawn a ha => exact intact_stepClient h ha hok hstep

theorem Intact.one (h : Intact st) (hp : Holds st p) (hq : Holds st q) : p = q := by
  have hlock := (h p hp).symm.trans (h q hq)
  simpa using hlock

/-! ### Who listens -/

/-- The socket is served by the process that is past its `listen`. -/
def Served (st : RuntimeDir) : Prop :=
  ∀ q, st.sock = some (some q) → st.brokers.get? q = some .serving

theorem Served.goto (h : Served st) {b : BrokerAt} (hp : st.brokers.get? p ≠ some .serving) :
    Served (st.goto p b) := by
  intro q hq
  have hserving := h q hq
  have hne : q ≠ p := by
    intro hc
    rw [hc] at hserving
    exact hp hserving
  show (st.brokers.set p b).get? q = _
  rw [Map.get?_set_ne _ _ hne]
  exact hserving

theorem abandon_sock (h : (st.abandon p).sock = some (some q)) : st.sock = some (some q) ∧ q ≠ p := by
  simp only [RuntimeDir.abandon] at h
  split at h
  · cases h
  · next hne =>
      refine ⟨h, ?_⟩
      intro hc
      rw [hc] at h
      exact hne h

theorem Served.exit (h : Served st) : Served (st.exit p) := by
  intro q hq
  obtain ⟨hsock, hne⟩ := abandon_sock hq
  show (st.brokers.delete p).get? q = _
  rw [Map.get?_delete_ne _ hne]
  exact h q hsock

theorem Served.retry (h : Served st) (hp : st.brokers.get? p ≠ some .serving) (n : Nat) :
    Served (st.retry p n) := by
  unfold RuntimeDir.retry
  split
  · exact h.goto hp
  · exact h.exit

theorem Served.same (h : Served st) (hsock : st'.sock = st.sock)
    (hbrokers : st'.brokers = st.brokers) : Served st' := by
  intro q hq
  rw [hbrokers]
  exact h q (by rw [← hsock]; exact hq)

theorem served_of_none (h : st.sock = none) : Served st := by
  intro q hq
  rw [h] at hq
  cases hq

theorem served_stepBroker (h : Served st) {late other : Bool} {a : BrokerAt}
    (ha : st.brokers.get? p = some a) : Served (st.stepBroker p late other a) := by
  by_cases hserving : a = .serving
  · subst hserving
    exact h
  have hp : st.brokers.get? p ≠ some .serving := by
    rw [ha]
    intro hc
    exact hserving (Option.some.inj hc)
  cases a with
  | create n =>
      show Served (if _ then _ else _)
      split
      · have hsame : Served { st with lock := some (some p) } := h.same rfl rfl
        exact hsame.goto hp
      · exact h.goto hp
  | confirm n =>
      show Served (if _ then _ else _)
      split
      · exact h.goto hp
      · exact h.retry hp n
  | read n =>
      unfold RuntimeDir.stepBroker
      dsimp only
      split
      · split <;> exact h.goto hp
      · exact h.goto hp
  | verify n =>
      show Served (if _ then _ else if _ then _ else _)
      split
      · exact h.exit
      · split
        · exact h.goto hp
        · exact h
  | unlink n =>
      have hsame : Served { st with lock := none } := h.same rfl rfl
      exact hsame.retry hp n
  | sockExists =>
      show Served (if _ then _ else _)
      split <;> exact h.goto hp
  | probe =>
      show Served (if _ then _ else _)
      split
      · exact h.exit
      · exact h.goto hp
  | unlinkSock => exact served_of_none rfl
  | bind =>
      show Served (if _ then _ else _)
      split
      · intro q hq
        obtain rfl := Option.some.inj (Option.some.inj hq)
        exact Map.get?_set_self _ _ _
      · exact h.exit
  | serving => exact absurd rfl hserving
  | dropSock => exact served_of_none rfl
  | dropLock =>
      have hsame : Served { st with lock := none } := h.same rfl rfl
      exact hsame.exit

@[simp] theorem again_sock (st : RuntimeDir) (c : Nat) (b : Bool) (n : Nat) :
    (st.again c b n).sock = st.sock := by
  unfold RuntimeDir.again
  split <;> rfl

@[simp] theorem polled_sock (st : RuntimeDir) (c : Nat) (b : Bool) (n : Nat) (created : Bool)
    (left : Nat) : (st.polled c b n created left).sock = st.sock := by
  cases left <;> rfl

/-- A client never touches the socket, and the one process it may start is new. -/
theorem stepClient_sock {c : Nat} {noSpawn other : Bool} {spawned : SpawnOutcome} {a : EnsureAt}
    (hstep : st.stepClient c noSpawn other spawned a = some st') :
    st'.sock = st.sock ∧ (st'.brokers = st.brokers ∨
      ∃ pid, st.brokers.has pid = false ∧ st'.brokers = st.brokers.set pid (.create 0)) := by
  cases a with
  | spawn n =>
      cases spawned with
      | child pid =>
          simp only [RuntimeDir.stepClient] at hstep
          split at hstep
          · cases hstep
          · next hnew =>
              obtain rfl := Option.some.inj hstep
              exact ⟨rfl, .inr ⟨pid, by simpa using hnew, rfl⟩⟩
      | throws | noPid =>
          obtain rfl := Option.some.inj hstep
          exact ⟨rfl, .inl rfl⟩
  | read n =>
      simp only [RuntimeDir.stepClient] at hstep
      split at hstep
      · obtain rfl := Option.some.inj hstep
        split
        · exact ⟨polled_sock .., .inl (polled_brokers ..)⟩
        · exact ⟨rfl, .inl rfl⟩
      · obtain rfl := Option.some.inj hstep
        exact ⟨rfl, .inl rfl⟩
  | probe n | create n =>
      obtain rfl := Option.some.inj hstep
      split
      · exact ⟨rfl, .inl rfl⟩
      · first
          | exact ⟨rfl, .inl rfl⟩
          | split <;> exact ⟨rfl, .inl rfl⟩
  | reprobe | unspawn =>
      obtain rfl := Option.some.inj hstep
      exact ⟨rfl, .inl rfl⟩
  | stamp n child =>
      obtain rfl := Option.some.inj hstep
      exact ⟨polled_sock .., .inl (polled_brokers ..)⟩
  | unlink n | clean n | cleanForeign n =>
      obtain rfl := Option.some.inj hstep
      exact ⟨again_sock .., .inl (again_brokers ..)⟩
  | poll n created left =>
      obtain rfl := Option.some.inj hstep
      split
      · exact ⟨rfl, .inl rfl⟩
      · exact ⟨polled_sock .., .inl (polled_brokers ..)⟩
  | recheck n =>
      obtain rfl := Option.some.inj hstep
      split
      · exact ⟨again_sock .., .inl (again_brokers ..)⟩
      · exact ⟨rfl, .inl rfl⟩

theorem get?_of_has_false {κ α : Type} [DecidableEq κ] {m : Map κ α} {k : κ}
    (h : m.has k = false) : m.get? k = none := by
  simpa [Map.has] using h

theorem served_step (h : Served st) (hstep : LockStep st e st') : Served st' := by
  unfold LockStep RuntimeDir.step at hstep
  cases e with
  | start pid =>
      dsimp only at hstep
      split at hstep
      · cases hstep
      · next hnew =>
          obtain rfl := Option.some.inj hstep
          refine h.goto ?_
          rw [get?_of_has_false (by simpa using hnew)]
          simp
  | broker pid late other =>
      obtain ⟨a, ha, rfl⟩ := Option.map_eq_some_iff.mp hstep
      exact served_stepBroker h ha
  | shutdown pid =>
      dsimp only at hstep
      split at hstep
      · obtain rfl := Option.some.inj hstep
        intro q hq
        obtain ⟨hsock, hne⟩ := abandon_sock hq
        show (st.brokers.set pid _).get? q = _
        rw [Map.get?_set_ne _ _ hne]
        exact h q hsock
      · cases hstep
  | die pid =>
      dsimp only at hstep
      split at hstep
      · obtain rfl := Option.some.inj hstep
        exact h.exit
      · cases hstep
  | ensure c noSpawn =>
      dsimp only at hstep
      split at hstep
      · cases hstep
      · obtain rfl := Option.some.inj hstep
        exact h.same rfl rfl
  | client c other spawned =>
      dsimp only at hstep
      split at hstep
      · cases hstep
      · obtain ⟨hsock, hbrokers | ⟨pid, hnew, hbrokers⟩⟩ := stepClient_sock hstep
        · exact h.same hsock hbrokers
        · have hgo : Served (st.goto pid (.create 0)) := by
            refine h.goto ?_
            rw [get?_of_has_false hnew]
            simp
          exact hgo.same hsock hbrokers

/-! ### One more process -/

variable {r : Pid}

theorem goto_goto (st : RuntimeDir) (r : Pid) (a b : BrokerAt) :
    (st.goto r a).goto r b = st.goto r b := by
  unfold RuntimeDir.goto
  simp only [Map.set_set]

/-- The next step of a process, which stands where it was put. -/
theorem goto_step {a : BrokerAt} (h : (st.goto r a).stepBroker r false false a = st') :
    LockStep (st.goto r a) (.broker r false false) st' := by
  show ((st.brokers.set r a).get? r).map ((st.goto r a).stepBroker r false false) = some st'
  rw [Map.get?_set_self, ← h]
  rfl

/-- A process finds no lock, makes one and keeps it. -/
theorem acquires_free (hlock : st.lock = none) (n : Nat) :
    ∃ tr st', Run LockStep (st.goto r (.create n)) tr st' ∧
      st'.brokers = st.brokers.set r .sockExists := by
  let st₁ : RuntimeDir := { st with lock := some (some r) }
  have hcreate : (st.goto r (.create n)).stepBroker r false false (.create n) =
      st₁.goto r (.confirm n) := by
    show (if st.lock = none then (st₁.goto r (.create n)).goto r (.confirm n) else _) = _
    rw [if_pos hlock, goto_goto]
  have hconfirm : (st₁.goto r (.confirm n)).stepBroker r false false (.confirm n) =
      st₁.goto r .sockExists := by
    show (if some (some r) = some (some r) then (st₁.goto r (.confirm n)).goto r _ else _) = _
    rw [if_pos rfl, goto_goto]
  exact ⟨_, _, .cons (goto_step hcreate) (.cons (goto_step hconfirm) .nil), rfl⟩

/-- A process that starts finds a lock of nobody alive, unlinks it and makes its own. -/
theorem acquires_stale {text : Option Pid} (hlock : st.lock = some text)
    (hdead : ∀ c, text = some c → st.brokers.has c = false) :
    ∃ tr st', Run LockStep (st.goto r (.create 0)) tr st' ∧
      st'.brokers = st.brokers.set r .sockExists := by
  have hcreate : (st.goto r (.create 0)).stepBroker r false false (.create 0) =
      st.goto r (.read 0) := by
    show (if st.lock = none then _ else (st.goto r (.create 0)).goto r (.read 0)) = _
    rw [if_neg (by rw [hlock]; simp), goto_goto]
  have hread : (st.goto r (.read 0)).stepBroker r false false (.read 0) =
      st.goto r (.unlink 0) := by
    unfold RuntimeDir.stepBroker
    dsimp only
    rw [show (st.goto r (.read 0)).lock = some text from hlock]
    cases text with
    | none => exact goto_goto st r _ _
    | some c =>
        dsimp only
        rw [if_neg, goto_goto]
        rintro ⟨hne, halive⟩
        simp only [RuntimeDir.pidAlive, Bool.or_false, Map.has] at halive
        rw [show (st.goto r (.read 0)).brokers = st.brokers.set r (.read 0) from rfl,
          Map.get?_set_ne _ _ hne, get?_of_has_false (hdead c rfl)] at halive
        cases halive
  have hunlink : (st.goto r (.unlink 0)).stepBroker r false false (.unlink 0) =
      { st with lock := none }.goto r (.create 1) :=
    goto_goto { st with lock := none } r _ _
  have hfree : ({ st with lock := none } : RuntimeDir).lock = none := rfl
  obtain ⟨tr, st', hrun, hbrokers⟩ := acquires_free (r := r) hfree 1
  exact ⟨_, st', .cons (goto_step hcreate) (.cons (goto_step hread) (.cons (goto_step hunlink) hrun)),
    hbrokers⟩

/-- Another process can still acquire the lock a live process holds. -/
def Stealable (st : RuntimeDir) (q : Pid) : Prop :=
  ∃ tr st', Run LockStep st tr st' ∧ Holds st' q ∧ ∃ r, r ≠ q ∧ Holds st' r

theorem stealable_of_dead {text : Option (Option Pid)} (hq : Holds st q) (hlock : st.lock = text)
    (hdead : ∀ c, text = some (some c) → st.brokers.has c = false) : Stealable st q := by
  obtain ⟨r, hr⟩ := Infinite.exists_notMem_finset st.brokers.keys.toFinset
  have hnew : st.brokers.get? r = none := by
    rw [Map.get?_eq_none_iff]
    simpa using hr
  obtain ⟨a, ha, hholds⟩ := hq
  have hne : q ≠ r := by
    intro hc
    rw [hc, hnew] at ha
    cases ha
  have hstart : LockStep st (.start r) (st.goto r (.create 0)) := by
    show (if st.brokers.has r = true then none else _) = _
    rw [if_neg (by simp [Map.has, hnew])]
  obtain ⟨tr, st', hrun, hbrokers⟩ : ∃ tr st', Run LockStep (st.goto r (.create 0)) tr st' ∧
      st'.brokers = st.brokers.set r .sockExists := by
    cases text with
    | none => exact acquires_free hlock 0
    | some text => exact acquires_stale hlock fun c hc => hdead c (by rw [hc])
  refine ⟨_, st', .cons hstart hrun, ⟨a, ?_, hholds⟩, r, hne.symm, .sockExists, ?_, rfl⟩
  · rw [hbrokers, Map.get?_set_ne _ _ hne]
    exact ha
  · rw [hbrokers, Map.get?_set_self]

theorem stealable_of_wrong_lock (hq : Holds st q) (hlock : st.lock ≠ some (some q)) :
    Stealable st q := by
  by_cases hdead : ∀ c, st.lock = some (some c) → st.brokers.has c = false
  · exact stealable_of_dead hq rfl hdead
  · -- the process whose pid is there can die first
    push Not at hdead
    obtain ⟨c, hc, halive⟩ := hdead
    have halive : st.brokers.has c = true := by simpa using halive
    have hdie : LockStep st (.die c) (st.exit c) := if_pos halive
    have hne : q ≠ c := by
      intro hqc
      rw [hqc] at hlock
      exact hlock hc
    have hq' : Holds (st.exit c) q := by
      obtain ⟨a, ha, hholds⟩ := hq
      refine ⟨a, ?_, hholds⟩
      show (st.brokers.delete c).get? q = _
      rw [Map.get?_delete_ne _ hne]
      exact ha
    have hgone : ∀ c', (st.exit c).lock = some (some c') → (st.exit c).brokers.has c' = false := by
      intro c' hc'
      have hsame : c' = c := by
        have hboth : some (some c') = some (some c) := hc'.symm.trans hc
        simpa using hboth
      rw [hsame]
      show ((st.brokers.delete c).get? c).isSome = false
      rw [Map.get?_delete_self]
      rfl
    obtain ⟨tr, st', hrun, hrest⟩ := stealable_of_dead hq' rfl hgone
    exact ⟨_, st', .cons hdie hrun, hrest⟩

/-- A step that disturbs a live holder leaves it a lock that is not its own. -/
theorem disturbed_step (h : ¬ Undisturbed st e) :
    ∃ q st', LockStep st e st' ∧ Holds st' q ∧ st'.lock ≠ some (some q) := by
  unfold Undisturbed at h
  push Not at h
  obtain ⟨q, hq, hspares⟩ := h
  obtain ⟨b, hb, hholds⟩ := hq
  cases e with
  | broker p late other =>
      simp only [Spares] at hspares
      push Not at hspares
      obtain ⟨a, ha, hunlinks, hne⟩ := hspares
      refine ⟨q, st.stepBroker p late other a, by simp [LockStep, RuntimeDir.step, ha], ?_⟩
      cases a with
      | unlink n =>
          unfold RuntimeDir.stepBroker RuntimeDir.retry
          dsimp only
          split
          · exact ⟨⟨b, (Map.get?_set_ne _ _ hne).trans hb, hholds⟩, by simp [RuntimeDir.goto]⟩
          · exact ⟨⟨b, (Map.get?_delete_ne _ hne).trans hb, hholds⟩,
              by simp [RuntimeDir.exit, RuntimeDir.abandon]⟩
      | dropLock =>
          exact ⟨⟨b, (Map.get?_delete_ne _ hne).trans hb, hholds⟩,
            by simp [RuntimeDir.stepBroker, RuntimeDir.exit, RuntimeDir.abandon]⟩
      | create | confirm | read | verify | sockExists | probe | unlinkSock | bind | serving
      | dropSock => cases hunlinks
  | client c other spawned =>
      simp only [Spares] at hspares
      push Not at hspares
      obtain ⟨noSpawn, a, ha, hcase⟩ := hspares
      -- the client's step is there, and the brokers are as they were
      have hstep : ∀ st', st.stepClient c noSpawn other spawned a = some st' →
          LockStep st (.client c other spawned) st' := by
        intro st' hs
        simp only [LockStep, RuntimeDir.step, ha]
        exact hs
      cases a with
      | unspawn => exact ⟨q, _, hstep _ rfl, ⟨b, hb, hholds⟩, by simp [RuntimeDir.leave]⟩
      | unlink n | clean n | cleanForeign n =>
          exact ⟨q, _, hstep _ rfl, ⟨b, by rw [again_brokers]; exact hb, hholds⟩, by simp⟩
      | stamp n child =>
          obtain ⟨n', child', hsame, hne⟩ := hcase rfl
          cases hsame
          refine ⟨q, _, hstep _ rfl, ⟨b, by rw [polled_brokers]; exact hb, hholds⟩, ?_⟩
          rw [polled_lock]
          simpa using Ne.symm hne
      | probe | reprobe | create | spawn | read | poll | recheck =>
          obtain ⟨_, _, hsame, _⟩ := hcase rfl
          cases hsame
  | start | shutdown | die | ensure => exact absurd trivial hspares

/-! ### Runs -/

variable {lock : Option (Option Pid)} {sockLeft : Bool} {tr : LockTrace}

/-- What a run keeps while nobody removes the lock of another. -/
structure LockKept (tr : LockTrace) (st : RuntimeDir) : Prop where
  intact : Intact st
  served : Served st
  sockets : ∀ x ∈ tr, ¬ Hijacks x.1 x.2

theorem not_hijacks (hintact : Intact st) (hserved : Served st) : ¬ Hijacks st e := by
  rintro ⟨p, late, other, q, rfl, hp, hne, hsock⟩
  have hholds : Holds st p := ⟨.unlinkSock, hp, rfl⟩
  exact hne (hintact.one ⟨.serving, hserved q hsock, rfl⟩ hholds)

theorem lockKept_run (hrun : Run LockStep (.deserted lock sockLeft) tr st)
    (hok : Meets Undisturbed tr) : LockKept tr st := by
  refine hrun.along hok ?_ ?_
  · refine ⟨?_, ?_, by simp⟩
    · rintro q ⟨a, ha, _⟩
      cases ha
    · intro q hq
      simp only [RuntimeDir.deserted] at hq
      split at hq <;> cases hq
  · intro tr s e s' _ _ h hspares hstep
    refine ⟨intact_step h.intact hspares hstep, served_step h.served hstep, ?_⟩
    intro x hx
    rcases List.mem_append.mp hx with hx | hx
    · exact h.sockets x hx
    · rw [List.mem_singleton.mp hx]
      exact not_hijacks h.intact h.served

/-- While no step unlinks or rewrites the lock of a live process that holds it, one process
holds it at most and no socket is hijacked; and where one does, a second process can come
to hold the lock as well. -/
theorem single_broker (hrun : Run LockStep (.deserted lock sockLeft) tr st) :
    (Meets Undisturbed tr → SingleBroker tr st) ∧
      ∀ e, ¬ Undisturbed st e → ∃ tr' st',
        Run LockStep (.deserted lock sockLeft) (tr ++ (st, e) :: tr') st' ∧
          ¬ SingleBroker (tr ++ (st, e) :: tr') st' := by
  refine ⟨fun hok => ?_, ?_⟩
  · have hkept := lockKept_run hrun hok
    exact ⟨fun p q hp hq => hkept.intact.one hp hq, hkept.sockets⟩
  · intro e he
    obtain ⟨q, st₁, hstep, hq, hlock⟩ := disturbed_step he
    obtain ⟨tr', st', hmore, hq', r, hne, hr⟩ := stealable_of_wrong_lock hq hlock
    refine ⟨tr', st', hrun.append (.cons hstep hmore), ?_⟩
    intro hsingle
    exact hne (hsingle.one r q hr hq')

/-! ### Two takeovers -/

/-- The next step of process `p`. -/
def goes (p : Pid) : LockEvent := .broker p false false

/-- Processes 1 and 2 start over what process 9 has left, and each of them has read its pid
before either unlinks the lock. -/
def twoTakeovers : List LockEvent :=
  [.start 1, .start 2, goes 1, goes 2, goes 1, goes 2,
    -- process 1 unlinks, creates and confirms; process 2 does it over again
    goes 1, goes 1, goes 1, goes 2, goes 2, goes 2,
    -- both find the stale socket silent, and process 1 binds its own
    goes 1, goes 1, goes 2, goes 2, goes 1, goes 1, goes 2]

theorem twoTakeovers_both_hold : ∃ (tr : LockTrace) (st : RuntimeDir),
    Run LockStep (.deserted (some (some 9)) true) tr st ∧ Holds st 1 ∧ Holds st 2 ∧
      (∃ x ∈ tr, Hijacks x.1 x.2) ∧ ¬ SingleBroker tr st := by
  have hcheck : (follow RuntimeDir.step (.deserted (some (some 9)) true) twoTakeovers).any (fun r =>
      decide (r.2.brokers.get? 1 = some .serving ∧ r.2.brokers.get? 2 = some .bind ∧
        ∃ x ∈ r.1, x.2 = goes 2 ∧ x.1.brokers.get? 2 = some .unlinkSock ∧
          x.1.sock = some (some 1))) = true := by decide +kernel
  obtain ⟨tr, st, hrun, -, hfound⟩ := Run.of_check hcheck
  obtain ⟨h₁, h₂, x, hx, he, hat, hsock⟩ := of_decide_eq_true hfound
  have hone : Holds st 1 := ⟨.serving, h₁, rfl⟩
  have htwo : Holds st 2 := ⟨.bind, h₂, rfl⟩
  have hhijack : Hijacks x.1 x.2 := ⟨2, false, false, 1, he, hat, by decide, hsock⟩
  refine ⟨tr, st, hrun, hone, htwo, ⟨x, hx, hhijack⟩, ?_⟩
  intro hsingle
  exact hsingle.sockets x hx hhijack

/-- A client finds nobody, spawns process 1 and writes its pid; process 1 takes the lock over
from its own entry and binds. -/
def spawned : List LockEvent :=
  [.ensure 0 false, .client 0 false .throws, .client 0 false .throws, .client 0 false (.child 1),
    .client 0 false .throws, goes 1, goes 1, goes 1, goes 1, goes 1, goes 1, goes 1]

theorem spawned_single_broker : ∃ (tr : LockTrace) (st : RuntimeDir),
    Run LockStep (.deserted none false) tr st ∧ st.sock = some (some 1) ∧ SingleBroker tr st := by
  have hcheck : (follow RuntimeDir.step (.deserted none false) spawned).any (fun r =>
      decide (r.2.sock = some (some 1) ∧ ∀ x ∈ r.1, ∀ q ∈ x.1.brokers.keys,
        (x.1.brokers.get? q).all (fun a => !a.holds) = true ∨ x.2 = goes 1 ∧ q = 1)) = true := by
    decide +kernel
  obtain ⟨tr, st, hrun, -, hfound⟩ := Run.of_check hcheck
  obtain ⟨hsock, hquiet⟩ := of_decide_eq_true hfound
  refine ⟨tr, st, hrun, hsock, (single_broker hrun).1 ?_⟩
  rintro x hx q ⟨a, ha, hholds⟩
  rcases hquiet x hx q ((x.1.brokers.mem_keys_iff q).mpr ⟨a, ha⟩) with hout | ⟨he, rfl⟩
  · rw [ha] at hout
    simp [hholds] at hout
  · rw [he]
    intro _ _ _
    rfl

end PiMesh
