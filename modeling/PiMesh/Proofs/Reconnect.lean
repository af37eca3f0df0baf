/-
Coming back.

A client that lost its connection comes back by itself: a backoff timer is armed, or the
watchdog finds none and calls `connect()`.  The handle of the last timer doubles as the
flag the watchdog looks at, and it stays after the timer has fired.  From then on the
client relies on the catch of the timer's own `connect()` to arm the next one, and
`onSocketClosed` ignores that catch while another `connect()` is in flight.

`Recovers` is the invariant.  A handle whose timers have all fired is covered: the client
is online, or the timer waits for the promise in flight, or its catch is queued.  What can
break it is a `connect()` that starts between the failure and the catch, and a rename that
gives up while the client is online, which leaves the client closed on purpose with the
old handle still set.
-/
import PiMesh.Proofs.Turns
import PiMesh.Client.Reference

namespace PiMesh

open Js Transition

variable {ν : Type} [Number ν]

/-- There is a handle, and every timer has fired. -/
def Conn.stale (k : Conn) : Prop := k.reconnectTimer.isSome = true ∧ k.armed = []

/-- A step of `connect()` on its way to success. -/
def Job.isSuccess : Job ν → Bool
  | .welcomed .connect _ => true
  | .dialed .connect (.ok _) => true
  | .connectDone (.ok _) => true
  | _ => false

/-- The rest of a `doConnect`, which starts the watchdog. -/
def Job.isWelcomed : Job ν → Bool
  | .welcomed _ _ => true
  | _ => false

def Job.matters (j : Job ν) : Bool := j.isCatch || j.isSuccess || j.isWelcomed

section Kinds

variable (c : CallId) (w : Waiter) (owner : Owner) (err : ConnectError)

@[simp] theorem dialed_error_quiet : Job.matters (ν := ν) (.dialed owner (.error err)) = false := by
  cases owner <;> rfl

@[simp] theorem connectDone_error_quiet : Job.matters (ν := ν) (.connectDone (.error err)) = false :=
  rfl

@[simp] theorem connected_quiet (info : WelcomeInfo ν) : Job.matters (.connected w info) = false := rfl

@[simp] theorem detached_quiet : Job.matters (ν := ν) (.detached c) = false := rfl

@[simp] theorem closed_quiet : Job.matters (ν := ν) (.closed c) = false := rfl

end Kinds

/-- The timer will hear of the `connect()` in flight, or has heard of its failure. -/
def Conn.backoffWaits (k : Conn) (js : List (Job ν)) : Prop :=
  (∃ p, k.connecting = some p ∧ Waiter.backoff ∈ p.waiters) ∨ ∃ j ∈ js, Job.isCatch j = true

/-- The watchdog runs, or is about to. -/
def Conn.watched (k : Conn) (js : List (Job ν)) : Prop :=
  k.watchdog = true ∨ ∃ j ∈ js, Job.isWelcomed j = true

/-- A handle that has fired does not leave the client alone; `seen` says that it was online. -/
structure Recovers (seen : Prop) (k : Conn) (js : List (Job ν)) : Prop where
  closed : k.intentionallyClosed = true → k.reconnectTimer = none
  alone : (∃ j ∈ js, Job.isCatch j = true) → k.connecting = none
  covered : k.stale → k.online = false → k.backoffWaits js
  success : (∃ j ∈ js, Job.isSuccess j = true) → k.stale → k.online = true
  watched : seen ∨ k.online = true → k.watched js

/-- What `Recovers` reads of the connection. -/
def Conn.recovery (k : Conn) :=
  (k.online, k.intentionallyClosed, k.connecting.map Connecting.waiters, k.reconnectTimer, k.armed,
    k.watchdog)

/-- No `connect()` starts while the catch of a backoff timer is queued. -/
def NoCatch (k : Conn) (js : List (Job ν)) : Prop :=
  k.connecting = none → ¬ (k.online = true ∧ k.socket.isSome = true) →
    ∀ j ∈ js, Job.isCatch j = false

/-- A rename that gives up finds no catch either, nor the client online with a handle set. -/
def GoesBack (k : Conn) (js : List (Job ν)) : Prop :=
  NoCatch k js ∧ ¬ (k.online = true ∧ k.socket.isSome = true ∧ k.reconnectTimer.isSome = true)

namespace Recovers

variable {seen : Prop} {k k' : Conn} {js js' : List (Job ν)}

/-- The connection is as it was, and so are the jobs that matter. -/
theorem move (h : Recovers seen k js) (hk : k'.recovery = k.recovery)
    (hcatch : (∃ j ∈ js', Job.isCatch j = true) ↔ ∃ j ∈ js, Job.isCatch j = true)
    (hsuccess : (∃ j ∈ js', Job.isSuccess j = true) → ∃ j ∈ js, Job.isSuccess j = true)
    (hwelcomed : (∃ j ∈ js, Job.isWelcomed j = true) → ∃ j ∈ js', Job.isWelcomed j = true) :
    Recovers seen k' js' := by
  simp only [Conn.recovery, Prod.mk.injEq] at hk
  obtain ⟨honline, hclosed, hwaiters, htimer, harmed, hwatchdog⟩ := hk
  have hstale : k'.stale ↔ k.stale := by simp [Conn.stale, htimer, harmed]
  refine ⟨?_, ?_, ?_, ?_, ?_⟩
  · rw [hclosed, htimer]
    exact h.closed
  · intro hc
    have hnone := h.alone (hcatch.mp hc)
    simpa [hnone] using hwaiters
  · intro hs hoff
    rcases h.covered (hstale.mp hs) (honline ▸ hoff) with ⟨p, hp, hmem⟩ | hc
    · rw [hp, Option.map_some] at hwaiters
      obtain ⟨p', hp', hw⟩ := Option.map_eq_some_iff.mp hwaiters
      exact .inl ⟨p', hp', by rw [hw]; exact hmem⟩
    · exact .inr (hcatch.mpr hc)
  · intro hs hst
    rw [honline]
    exact h.success (hsuccess hs) (hstale.mp hst)
  · intro hseen
    rcases h.watched (by rwa [honline] at hseen) with hw | hw
    · exact .inl (by rw [hwatchdog]; exact hw)
    · exact .inr (hwelcomed hw)

theorem of_same (h : Recovers seen k js) (hk : k'.recovery = k.recovery) : Recovers seen k' js :=
  h.move hk Iff.rfl (fun hs => hs) (fun hw => hw)

/-- Jobs that do not matter are queued. -/
theorem push (h : Recovers seen k js) (hk : k'.recovery = k.recovery)
    (hjs : ∀ j ∈ js', Job.matters j = false) : Recovers seen k' (js ++ js') := by
  simp only [Job.matters, Bool.or_eq_false_iff] at hjs
  have hnone : ∀ p : Job ν → Bool, (∀ j ∈ js', p j = false) →
      ((∃ j ∈ js ++ js', p j = true) ↔ ∃ j ∈ js, p j = true) := by
    intro p hp
    constructor
    · rintro ⟨j, hj, hpj⟩
      rcases List.mem_append.mp hj with hj | hj
      · exact ⟨j, hj, hpj⟩
      · rw [hp j hj] at hpj
        cases hpj
    · rintro ⟨j, hj, hpj⟩
      exact ⟨j, List.mem_append_left _ hj, hpj⟩
  refine h.move hk (hnone _ fun j hj => (hjs j hj).1.1) (hnone _ fun j hj => (hjs j hj).1.2).mp
    (hnone _ fun j hj => (hjs j hj).2).mpr

/-- A job that is neither a catch nor the rest of a handshake is run. -/
theorem pop {j : Job ν} (h : Recovers seen k (j :: js)) (hcatch : Job.isCatch j = false)
    (hwelcomed : Job.isWelcomed j = false) : Recovers seen k js := by
  refine h.move rfl ?_ ?_ ?_
  · simp [hcatch]
  · rintro ⟨j', hj', hs⟩
    exact ⟨j', List.mem_cons_of_mem _ hj', hs⟩
  · rintro ⟨j', hj', hw⟩
    rcases List.mem_cons.mp hj' with rfl | hj'
    · rw [hwelcomed] at hw
      cases hw
    · exact ⟨j', hj', hw⟩

/-- One step of `connect()` after the other: success comes from success. -/
theorem next {j j' : Job ν} (h : Recovers seen k (j :: js)) (hk : k'.recovery = k.recovery)
    (hcatch : Job.isCatch j = false) (hwelcomed : Job.isWelcomed j = false)
    (hcatch' : Job.isCatch j' = false) (hsuccess : Job.isSuccess j' = true → Job.isSuccess j = true) :
    Recovers seen k' (js ++ [j']) := by
  refine h.move hk ?_ ?_ ?_
  · simp [hcatch, hcatch', or_and_right, exists_or]
  · rintro ⟨j₁, hj₁, hs⟩
    rcases List.mem_append.mp hj₁ with hj₁ | hj₁
    · exact ⟨j₁, List.mem_cons_of_mem _ hj₁, hs⟩
    · rw [List.mem_singleton] at hj₁
      subst hj₁
      exact ⟨j, by simp, hsuccess hs⟩
  · rintro ⟨j₁, hj₁, hw⟩
    rcases List.mem_cons.mp hj₁ with rfl | hj₁
    · rw [hwelcomed] at hw
      cases hw
    · exact ⟨j₁, List.mem_append_left _ hj₁, hw⟩

/-- A handle that is not stale is no danger. -/
theorem of_fresh (h : Recovers seen k js) (hstale : ¬ k'.stale)
    (hclosed : k'.intentionallyClosed = true → k'.reconnectTimer = none)
    (halone : (∃ j ∈ js', Job.isCatch j = true) → k'.connecting = none)
    (honline : k'.online = true → k.online = true) (hwatchdog : k'.watchdog = k.watchdog)
    (hwelcomed : (∃ j ∈ js, Job.isWelcomed j = true) → ∃ j ∈ js', Job.isWelcomed j = true) :
    Recovers seen k' js' := by
  refine ⟨hclosed, halone, fun hs => absurd hs hstale, fun _ hs => absurd hs hstale, ?_⟩
  intro hseen
  rcases h.watched (hseen.imp_right honline) with hw | hw
  · exact .inl (by rw [hwatchdog]; exact hw)
  · exact .inr (hwelcomed hw)

end Recovers

/-! ### Each move of the connection -/

section Moves

variable {env : ClientEnv} {seen : Prop} {st : ClientState ν}

@[simp] theorem recovery_modifySocket (k : Conn) (sock : ClientSocketId)
    (f : ClientSocket → ClientSocket) : (k.modifySocket sock f).recovery = k.recovery := by
  unfold Conn.modifySocket
  split <;> rfl

@[simp] theorem recovery_clearHelloTimer (k : Conn) : k.clearHelloTimer.recovery = k.recovery := by
  unfold Conn.clearHelloTimer
  split
  · exact recovery_modifySocket k _ _
  · rfl

theorem openSocket_recovers (owner : Owner) (h : st.meets (Recovers seen)) :
    (openSocket st owner).meets (Recovers seen) := by
  unfold openSocket
  dsimp only
  split
  · rw [meets_setConn_push]
    exact Recovers.push h rfl (by simp)
  · exact Recovers.of_same h rfl

theorem doConnect_recovers (owner : Owner) (h : st.meets (Recovers seen)) :
    (doConnect env st owner).meets (Recovers seen) := by
  unfold doConnect
  split
  · exact Recovers.of_same h rfl
  · exact openSocket_recovers owner h
  · rw [meets_push]
    exact Recovers.push h rfl (by simp)

/-- `connect()`; the timer itself is allowed to be stale when it calls. -/
theorem connect_recovers {w : Waiter} (hgo : st.meets NoCatch)
    (hclosed : st.conn.online = true ∧ st.conn.socket.isSome = true →
      st.conn.intentionallyClosed = true → st.conn.reconnectTimer = none)
    (halone : (∃ j ∈ st.links, Job.isCatch j = true) → st.conn.connecting = none)
    (hcovered : st.conn.stale → st.conn.online = false → w = .backoff ∨ st.conn.backoffWaits st.links)
    (hsuccess : (∃ j ∈ st.links, Job.isSuccess j = true) → st.conn.stale → st.conn.online = true)
    (hwatched : seen ∨ st.conn.online = true → st.conn.watched st.links) :
    (connect env st w).meets (Recovers seen) := by
  unfold connect
  dsimp only
  split
  · next hearly =>
    have hearly : st.conn.online = true ∧ st.conn.socket.isSome = true := by simpa using hearly
    have hkept : Recovers seen st.conn st.links :=
      ⟨hclosed hearly, halone, fun _ hoff => absurd hearly.1 (by simp [hoff]), hsuccess, hwatched⟩
    rw [meets_push]
    exact hkept.push rfl (by simp)
  · next hlate =>
    have hlate : ¬ (st.conn.online = true ∧ st.conn.socket.isSome = true) := by simpa using hlate
    split
    · next p hp =>
      have hp : st.conn.connecting = some p := hp
      refine ⟨fun hc => (by cases hc), ?_, ?_, hsuccess, hwatched⟩
      · intro hc
        rw [halone hc] at hp
        cases hp
      · intro hs hoff
        refine .inl ⟨_, rfl, ?_⟩
        rcases hcovered hs hoff with rfl | ⟨p', hp', hmem⟩ | hc
        · simp
        · rw [hp] at hp'
          obtain rfl := Option.some.inj hp'
          exact List.mem_append_left _ hmem
        · rw [halone hc] at hp
          cases hp
    · next hnone =>
      have hnone : st.conn.connecting = none := hnone
      have hcalm := hgo hnone hlate
      refine doConnect_recovers .connect ⟨fun hc => (by cases hc), ?_, ?_, hsuccess, hwatched⟩
      · rintro ⟨j, hj, hc⟩
        rw [hcalm j hj] at hc
        cases hc
      · intro hs hoff
        refine .inl ⟨_, rfl, ?_⟩
        rcases hcovered hs hoff with rfl | ⟨p', hp', _⟩ | ⟨j, hj, hc⟩
        · simp
        · rw [hnone] at hp'
          cases hp'
        · rw [hcalm j hj] at hc
          cases hc

theorem handleBackoff_recovers {t : Nat} (hlinks : st.links = []) (ht : t ∈ st.conn.armed)
    (hgo : st.meets NoCatch) (h : st.meets (Recovers seen)) :
    (handleBackoff env st t).meets (Recovers seen) := by
  rw [handleBackoff, if_pos ht]
  refine connect_recovers hgo (fun _ => h.closed) h.alone (fun _ _ => .inl rfl) ?_ h.watched
  rintro ⟨j, hj, _⟩
  rw [links_setConn, hlinks] at hj
  cases hj

theorem handleDialed_recovers (r : Except ConnectError (WelcomeInfo ν))
    (h : Recovers seen st.conn (.dialed .connect r :: st.links)) :
    (handleDialed env st r).meets (Recovers seen) := by
  have hpop : Recovers seen st.conn st.links := h.pop rfl rfl
  unfold handleDialed
  split
  · exact hpop
  · next p hp =>
    dsimp only
    split
    · split
      · rw [meets_setConn_push]
        exact h.next rfl rfl rfl rfl (fun _ => rfl)
      · rw [meets_setConn_push]
        exact hpop.push rfl (by simp)
    · rw [meets_setConn_push]
      exact h.next rfl rfl rfl rfl (fun _ => rfl)
    · split
      · rw [meets_push]
        exact hpop.push rfl (by simp)
      · split
        · exact hpop.of_same (by simp [Conn.recovery, hp])
        · split
          · rw [meets_setConn_push]
            exact hpop.push rfl (by simp)
          · exact doConnect_recovers .connect (hpop.of_same (by simp [Conn.recovery, hp]))

theorem handleRetry_recovers (h : st.meets (Recovers seen)) :
    (handleRetry env st).meets (Recovers seen) := by
  unfold handleRetry
  split
  · next p hp =>
    split
    · exact doConnect_recovers .connect (Recovers.of_same h (by simp [Conn.recovery, hp]))
    · exact h
  · exact h

theorem handleConnectDone_recovers (r : Except ConnectError (WelcomeInfo ν))
    (h : Recovers seen st.conn (.connectDone r :: st.links)) :
    (handleConnectDone st r).meets (Recovers seen) := by
  have hpop : Recovers seen st.conn st.links := h.pop rfl rfl
  unfold handleConnectDone
  split
  · exact hpop
  · next p hp =>
    dsimp only
    cases r with
    | ok info =>
        rw [meets_setConn_push]
        have hdone : Recovers seen { st.conn with connecting := none } st.links := by
          refine ⟨h.closed, fun _ => rfl, ?_, hpop.success, hpop.watched⟩
          intro hs hoff
          have hon := h.success ⟨_, List.mem_cons_self .., rfl⟩ hs
          rw [hon] at hoff
          cases hoff
        exact hdone.push rfl (by simp)
    | error err =>
        rw [meets_setConn_push]
        have hcatch : ∀ j ∈ (p.waiters.map fun w => Job.connectFailed w err).filter Job.isLink,
            Job.isSuccess (ν := ν) j = false := by
          simp [Job.isSuccess]
        refine ⟨h.closed, fun _ => rfl, ?_, ?_, ?_⟩
        · intro hs hoff
          refine .inr ?_
          rcases hpop.covered hs hoff with ⟨p', hp', hmem⟩ | ⟨j, hj, hc⟩
          · rw [hp] at hp'
            obtain rfl := Option.some.inj hp'
            refine ⟨.connectFailed .backoff err, List.mem_append_right _ ?_, rfl⟩
            simpa using hmem
          · exact ⟨j, List.mem_append_left _ hj, hc⟩
        · rintro ⟨j, hj, hs⟩
          rcases List.mem_append.mp hj with hj | hj
          · exact hpop.success ⟨j, hj, hs⟩
          · rw [hcatch j hj] at hs
            cases hs
        · intro hseen
          rcases hpop.watched hseen with hw | ⟨j, hj, hw⟩
          · exact .inl hw
          · exact .inr ⟨j, List.mem_append_left _ hj, hw⟩

/-- The connection is lost: a timer is armed, or the client is closed on purpose. -/
theorem onSocketClosed_recovers (hmore : env.noReconnect = false) {closed : Option ClientSocketId}
    {js : List (Job ν)} (h : Recovers seen st.conn js)
    (hignored : st.conn.connecting.isSome = true ∨ closed.isSome = true →
      st.meets (Recovers seen))
    (hwelcomed : (∃ j ∈ js, Job.isWelcomed j = true) → ∃ j ∈ st.links, Job.isWelcomed j = true) :
    (onSocketClosed env st closed).meets (Recovers seen) := by
  unfold onSocketClosed
  split
  · next hflight => exact hignored (.inl hflight)
  · next hidle =>
    have hnone : st.conn.connecting = none := by simpa using hidle
    split
    · next hother =>
      refine hignored (.inr ?_)
      cases closed with
      | none => cases hother
      | some sock => rfl
    · dsimp only
      have hlost := (loseRequests_paper (st.setConn
        { st.conn with online := false, socket := none, heartbeat := false })).still
      have hlinks := hlost.links.trans (links_setConn st _)
      simp only [hmore, Bool.or_false]
      split
      · next hclosed =>
        rw [ClientState.meets, hlost.conn, hlinks]
        have hclosed : st.conn.intentionallyClosed = true := by rw [hlost.conn] at hclosed; exact hclosed
        have htimer := h.closed hclosed
        refine h.of_fresh ?_ (fun _ => htimer) (fun _ => hnone) (fun hon => (by cases hon)) rfl hwelcomed
        intro hs
        exact absurd hs.1 (by simp [htimer])
      · next hopen =>
        rw [meets_setConn, hlinks, hlost.conn]
        have hopen : st.conn.intentionallyClosed = false := by
          rw [hlost.conn] at hopen
          simpa using hopen
        refine h.of_fresh ?_ ?_ (fun _ => hnone) (fun hon => (by cases hon)) rfl hwelcomed
        · intro hs
          exact absurd hs.2 (by simp)
        · intro hclosed
          exact absurd hclosed (by simp [hopen])

theorem renameDial_recovers (c : CallId) (target old : String) (h : st.meets (Recovers seen)) :
    (renameDial env st c target old).meets (Recovers seen) :=
  doConnect_recovers _ (Recovers.of_same h rfl)

theorem renameDetach_recovers (c : CallId) (target : String) (h : st.meets (Recovers seen)) :
    (renameDetach env st c target).meets (Recovers seen) := by
  obtain ⟨st₁, hconn, hlinks, heq⟩ := renameDetach_eq env st c target
  obtain ⟨armed, hclear⟩ := clearReconnectTimer_eq st.conn
  have htimer : st.conn.detach.reconnectTimer = none := by simp [Conn.detach, hclear]
  have hdetached : st₁.meets (Recovers seen) := by
    rw [ClientState.meets, hconn, hlinks]
    refine Recovers.of_fresh h ?_ (fun _ => htimer) ?_ (fun hon => (by cases hon)) ?_
      (fun hw => hw)
    · intro hs
      exact absurd hs.1 (by simp [htimer])
    · intro hc
      simpa [Conn.detach, hclear] using h.alone hc
    · simp [Conn.detach, hclear]
  rw [heq]
  split
  · exact Recovers.of_same hdetached (recovery_modifySocket _ _ _)
  · exact renameDial_recovers c target _ hdetached

/-- A close starts over: nothing is owed to a client that was closed. -/
theorem startClose_recovers (c : CallId) (hseen : ¬ seen) (h : st.meets (Recovers seen)) :
    (startClose st c).meets (Recovers seen) := by
  obtain ⟨st₁, hconn, hlinks, heq⟩ := startClose_eq st c
  obtain ⟨armed, hclear⟩ := clearReconnectTimer_eq st.conn
  have htimer : st.conn.shut.reconnectTimer = none := by simp [Conn.shut, Conn.detach, hclear]
  have hshut : st₁.meets (Recovers seen) := by
    rw [ClientState.meets, hconn, hlinks]
    have hfresh : ¬ st.conn.shut.stale := by
      intro hs
      exact absurd hs.1 (by simp [htimer])
    refine ⟨fun _ => htimer, ?_, fun hs => absurd hs hfresh, fun _ hs => absurd hs hfresh, ?_⟩
    · intro hc
      simpa [Conn.shut, Conn.detach, hclear] using h.alone hc
    · intro hwas
      rcases hwas with hs | hon
      · exact absurd hs hseen
      · cases hon
  rw [heq]
  split
  · exact Recovers.of_same hshut (recovery_modifySocket _ _ _)
  · exact hshut

theorem handleRenameDialed_recovers (c : CallId) (r : Except ConnectError (WelcomeInfo ν))
    (h : Recovers seen st.conn (.dialed (.rename c) r :: st.links))
    (hup : ∀ err, r = .error err → renameGivesUp st.conn c err = true → st.meets GoesBack) :
    (handleRenameDialed env st c r).meets (Recovers seen) := by
  have hpop : Recovers seen st.conn st.links := h.pop rfl rfl
  unfold handleRenameDialed
  split
  · next target old attempt hstage =>
    cases r with
    | ok info =>
        refine (finishRename_still _ c _).meets ?_
        exact ⟨fun hc => (by cases hc), hpop.alone, hpop.covered, hpop.success, hpop.watched⟩
    | error err =>
        dsimp only
        split
        · exact hpop.of_same rfl
        · next hfinal =>
          have hback : st.meets GoesBack := hup err rfl (by simp [renameGivesUp, hstage, hfinal])
          refine connect_recovers hback.1 ?_ hpop.alone (fun hs hoff => .inr (hpop.covered hs hoff))
            hpop.success hpop.watched
          intro hearly _
          have hnot := hback.2
          by_contra htimer
          exact hnot ⟨hearly.1, hearly.2, Option.isSome_iff_ne_none.mpr htimer⟩
  · exact hpop

theorem failHandshake_recovers (sock : ClientSocketId) (err : ConnectError)
    (h : st.meets (Recovers seen)) : (failHandshake st sock err).meets (Recovers seen) := by
  unfold failHandshake
  split
  · split
    · exact h
    · rw [meets_setConn_push]
      exact Recovers.push h (by simp) (by simp)
  · exact h

theorem acceptWelcome_recovers (sock : ClientSocketId) (owner : Owner) (frame : Inbound ν)
    (h : st.meets (Recovers seen)) : (acceptWelcome st sock owner frame).meets (Recovers seen) := by
  unfold acceptWelcome
  extract_lets k₀ k info
  have hview : k₀.recovery = st.conn.recovery := by simp [k₀]
  have hkept : Recovers seen k₀ st.links := Recovers.of_same h hview
  rw [meets_push]
  show Recovers seen k (st.links ++ [Job.welcomed owner info])
  refine ⟨hkept.closed, ?_, fun _ hoff => (by cases hoff), fun _ _ => rfl, ?_⟩
  · rintro ⟨j, hj, hc⟩
    rcases List.mem_append.mp hj with hj | hj
    · exact hkept.alone ⟨j, hj, hc⟩
    · rw [List.mem_singleton] at hj
      subst hj
      cases hc
  · intro _
    exact .inr ⟨.welcomed owner info, by simp, rfl⟩

theorem endWait_recovers (c : CallId) (h : st.meets (Recovers seen)) :
    (endWait st c).meets (Recovers seen) := by
  have hdetach : (endDetach st c).meets (Recovers seen) := by
    unfold endDetach
    split
    · rw [meets_push]
      exact Recovers.push h rfl (by simp)
    · exact h
  unfold endWait endClose
  split
  · rw [meets_push]
    exact Recovers.push hdetach rfl (by simp)
  · exact hdetach

theorem handleSocketClose_recovers (hmore : env.noReconnect = false) (sock : ClientSocketId)
    (h : st.meets (Recovers seen)) : (handleSocketClose env st sock).meets (Recovers seen) := by
  have hwaits : ∀ (cs : List CallId) (st : ClientState ν), st.meets (Recovers seen) →
      (cs.foldl endWait st).meets (Recovers seen) := by
    intro cs
    induction cs with
    | nil =>
        intro st h
        exact h
    | cons c rest ih =>
        intro st h
        exact ih _ (endWait_recovers c h)
  unfold handleSocketClose
  split
  · split
    · exact h
    · dsimp only
      refine hwaits _ _ ?_
      have hclosed : (st.setConn (st.conn.modifySocket sock fun s =>
          { s with destroyed := true, closed := true })).meets (Recovers seen) :=
        Recovers.of_same h (recovery_modifySocket _ _ _)
      have hfailed := failHandshake_recovers sock .brokerUnavailable hclosed
      split
      · exact onSocketClosed_recovers hmore hfailed (fun _ => hfailed) (fun hw => hw)
      · exact hfailed
  · exact h

/-- Every move of the connection keeps the client able to come back. -/
theorem recovers_keeps (hmore : env.noReconnect = false) :
    Keeps (ν := ν) env (Recovers seen) NoCatch GoesBack (fun _ _ => True) True (fun _ => True)
      (¬ seen) where
  news k j js hj h := by
    have hquiet : Job.isCatch j = false ∧ Job.isWelcomed j = false := by
      cases j with
      | connectFailed w err => cases w with
        | backoff => cases hj
        | call c => exact ⟨rfl, rfl⟩
        | watchdog => exact ⟨rfl, rfl⟩
      | connected => exact ⟨rfl, rfl⟩
      | closed => exact ⟨rfl, rfl⟩
      | acked | resolved | welcomed | dialed | connectDone | detached => cases hj
    exact h.pop hquiet.1 hquiet.2
  connect st w hgo h := connect_recovers hgo (fun _ => h.closed) h.alone
    (fun hs hoff => .inr (h.covered hs hoff)) h.success h.watched
  waits k js c target _ h := h.of_same rfl
  waits_go k js c target _ h := h
  detach st c target _ _ h := renameDetach_recovers c target h
  forget k js c _ h := h.of_same rfl
  dialed st r h := handleDialed_recovers r h
  renameDialed st c r h hup := handleRenameDialed_recovers c r h hup
  connectDone st r h := handleConnectDone_recovers r h
  backoffFailed st err h := by
    have hnone := h.alone ⟨_, List.mem_cons_self .., rfl⟩
    refine onSocketClosed_recovers hmore h ?_ ?_
    · intro hignored
      simp [hnone] at hignored
    · rintro ⟨j, hj, hw⟩
      rcases List.mem_cons.mp hj with rfl | hj
      · cases hw
      · exact ⟨j, hj, hw⟩
  welcomed k js owner info r h hr := by
    have hsuccess : Job.isSuccess (.dialed owner r) = true →
        Job.isSuccess (.welcomed owner info) = true := by
      cases owner with
      | connect => exact fun _ => rfl
      | rename c => exact fun hs => (by cases hs)
    refine ⟨h.closed, ?_, ?_, ?_, fun _ => .inl rfl⟩
    · rintro ⟨j, hj, hc⟩
      rcases List.mem_append.mp hj with hj | hj
      · exact h.alone ⟨j, List.mem_cons_of_mem _ hj, hc⟩
      · rw [List.mem_singleton] at hj
        subst hj
        cases hc
    · intro hs hoff
      rcases h.covered hs hoff with hp | ⟨j, hj, hc⟩
      · exact .inl hp
      · rcases List.mem_cons.mp hj with rfl | hj
        · cases hc
        · exact .inr ⟨j, List.mem_append_left _ hj, hc⟩
    · rintro ⟨j, hj, hs⟩ hst
      rcases List.mem_append.mp hj with hj | hj
      · exact h.success ⟨j, List.mem_cons_of_mem _ hj, hs⟩ hst
      · rw [List.mem_singleton] at hj
        subst hj
        exact h.success ⟨_, List.mem_cons_self .., hsuccess hs⟩ hst
  detached st c h := by
    have hpop : Recovers seen st.conn st.links := h.pop rfl rfl
    unfold handleDetached
    split
    · exact renameDial_recovers c _ _ hpop
    · exact hpop
  retry st h := handleRetry_recovers h
  renameRetry st c h := by
    unfold handleRenameRetry
    split
    · exact doConnect_recovers _ (Recovers.of_same h rfl)
    · exact h
  ensured st owner ok _ h := by
    have herased : (st.setConn { st.conn with
        ensuring := st.conn.ensuring.erase owner }).meets (Recovers seen) := Recovers.of_same h rfl
    unfold handleEnsured
    dsimp only
    split
    · exact openSocket_recovers owner herased
    · rw [meets_setConn_push]
      exact Recovers.push herased rfl (by simp)
  opened k js sock s _ _ h := h.of_same (recovery_modifySocket _ _ _)
  welcome st sock s frame _ _ _ _ h := acceptWelcome_recovers sock s.owner frame h
  refused st sock err h := failHandshake_recovers sock err h
  helloTimeout st sock h := by
    unfold handleHelloTimeout
    split
    · split
      · exact failHandshake_recovers sock _ (Recovers.of_same h (recovery_modifySocket _ _ _))
      · exact h
    · exact h
  socketError st sock h := by
    unfold handleSocketError
    split
    · split
      · exact h
      · exact Recovers.of_same (failHandshake_recovers sock .brokerUnavailable h)
          (recovery_modifySocket _ _ _)
    · exact h
  socketClose st sock _ h := handleSocketClose_recovers hmore sock h
  backoff st t hlinks ht hgo h := handleBackoff_recovers hlinks ht hgo h
  close st c hseen h := startClose_recovers c hseen h
  endWait st c h := endWait_recovers c h

end Moves

/-! ### Runs -/

section Runs

variable {env : ClientEnv}

/-- The step does not get between a failed `connect()` and the timer that waits for it: none
starts while the catch is queued, and no rename gives up on a client that is online with
the handle of a timer. -/
structure LetsRecover (env : ClientEnv) (st : ClientState ν) (e : ClientEvent ν) : Prop where
  calm : reachesConnect env st e = true ∨ givesUp st e = true → st.conn.connecting = none →
    ¬ (st.conn.online = true ∧ st.conn.socket.isSome = true) →
    ∀ j ∈ st.jobs, Job.isCatch j = false
  back : givesUp st e = true → ¬ (st.conn.online = true ∧ st.conn.socket.isSome = true ∧
    st.conn.reconnectTimer.isSome = true)

/-- The client was online, and nobody has closed it since. -/
def WasOnline (tr : ClientTrace ν) : Prop :=
  ∃ tr₁ x tr₂, tr = tr₁ ++ x :: tr₂ ∧ x.1.conn.online = true ∧
    ∀ y ∈ x :: tr₂, ∀ c, y.2.2 ≠ .call c .close

/-- A close makes the client forget that it was online; nothing else does. -/
theorem wasOnline_snoc {tr : ClientTrace ν} {st : ClientState ν} {e : Int × ClientEvent ν}
    (h : WasOnline (tr ++ [(st, e)])) :
    (∀ c, e.2 ≠ .call c .close) ∧ (WasOnline tr ∨ st.conn.online = true) := by
  obtain ⟨tr₁, x, tr₂, htr, hon, hopen⟩ := h
  cases htr₂ : tr₂.getLast? with
  | none =>
      have hnil : tr₂ = [] := List.getLast?_eq_none_iff.mp htr₂
      subst hnil
      obtain ⟨-, hx⟩ := List.append_inj' htr rfl
      obtain rfl := (List.cons.inj hx).1
      exact ⟨hopen (st, e) (by simp), .inr hon⟩
  | some y =>
      obtain ⟨tr₃, rfl⟩ := List.getLast?_eq_some_iff.mp htr₂
      have hsplit : tr ++ [(st, e)] = (tr₁ ++ x :: tr₃) ++ [y] := by simp [htr]
      obtain ⟨htr', hy⟩ := List.append_inj' hsplit rfl
      obtain rfl := (List.cons.inj hy).1
      refine ⟨hopen (st, e) (by simp), .inl ⟨tr₁, x, tr₃, htr', hon, ?_⟩⟩
      intro z hz
      refine hopen z ?_
      rcases List.mem_cons.mp hz with rfl | hz
      · simp
      · simp [hz]

theorem turn_links_subset (st : ClientState ν) (e : ClientEvent ν) {j : Job ν}
    (hj : j ∈ (st.turn e).links) : j ∈ st.jobs := by
  have hmem := List.mem_of_mem_filter hj
  cases e with
  | microtask => exact List.mem_of_mem_tail hmem
  | _ => exact hmem

/-- One step, whatever was seen before it. -/
theorem clientStep_recovers (hmore : env.noReconnect = false) {seen : Prop} {now : Int}
    {st : ClientState ν} {e : ClientEvent ν} (hsafe : LetsRecover env st e)
    (hclose : ∀ c, e = .call c .close → ¬ seen) (h : st.meets (Recovers seen)) :
    (clientStep env now st e).meets (Recovers seen) := by
  have hcalm : reachesConnect env st e = true ∨ givesUp st e = true →
      NoCatch st.conn (st.turn e).links := by
    intro hreach hnone hlate j hj
    exact hsafe.calm hreach hnone hlate j (turn_links_subset st e hj)
  exact clientStep_meets (recovers_keeps hmore) e (fun hreach => hcalm (.inl hreach))
    (fun hgives => ⟨hcalm (.inr hgives), hsafe.back hgives⟩) (fun _ => True.intro)
    (fun _ => True.intro) (fun _ _ _ _ _ _ _ => True.intro) hclose h

theorem recovers_run (hmore : env.noReconnect = false) {name : String} {rooms : List String}
    {reservations : List FileReservation} {tr : ClientTrace ν} {st : ClientState ν}
    (hrun : Run (ClientStep env) (ClientState.init name rooms reservations) tr st)
    (hsafe : Meets (fun st e => LetsRecover env st e.2) tr) :
    st.meets (Recovers (WasOnline tr)) := by
  refine hrun.along (P := fun tr st => st.meets (Recovers (WasOnline tr))) hsafe ?_ ?_
  · refine ⟨fun hc => (by cases hc), ?_, ?_, ?_, ?_⟩
    · rintro ⟨j, hj, _⟩
      cases hj
    · intro hs
      cases hs.1
    · rintro ⟨j, hj, _⟩
      cases hj
    · intro hwas
      rcases hwas with ⟨tr₁, x, tr₂, htr, -⟩ | hon
      · simp at htr
      · cases hon
  · intro tr st e st' _ _ h hok hstep
    have hstep : clientStep env e.1 st e.2 = st' := hstep
    -- what the longer trace has seen was seen before the step, and the step is no close
    have hwas : st.meets (Recovers (WasOnline (tr ++ [(st, e)]))) := by
      refine ⟨h.closed, h.alone, h.covered, h.success, ?_⟩
      intro hseen
      refine h.watched ?_
      rcases hseen with hseen | hon
      · exact (wasOnline_snoc hseen).2
      · exact .inr hon
    rw [← hstep]
    refine clientStep_recovers hmore hok ?_ hwas
    intro c hclose hseen
    exact (wasOnline_snoc hseen).1 c hclose

/-- A client that was online and is not closed never waits for nothing.  When it is offline
with no connect in flight, a backoff timer is armed or the next tick of the watchdog calls
`connect()`; between microtasks, that is about to be so. -/
theorem reconnects (hmore : env.noReconnect = false) {name : String} {rooms : List String}
    {reservations : List FileReservation} {tr : ClientTrace ν} {st : ClientState ν}
    (hrun : Run (ClientStep env) (ClientState.init name rooms reservations) tr st)
    (hsafe : Meets (fun st e => LetsRecover env st e.2) tr) (honline : WasOnline tr)
    (hoff : st.conn.online = false) (hopen : st.conn.intentionallyClosed = false)
    (hidle : st.conn.connecting = none) :
    (st.jobs = [] → st.conn.armed ≠ [] ∨ watchdogKicks env st.conn = true) ∧
    (st.conn.armed ≠ [] ∨ watchdogKicks env st.conn = true ∨
      ∃ j ∈ st.jobs, Job.isCatch j = true ∨ Job.isWelcomed j = true) := by
  have h := recovers_run hmore hrun hsafe
  have hall : st.conn.armed ≠ [] ∨ watchdogKicks env st.conn = true ∨
      ∃ j ∈ st.jobs, Job.isCatch j = true ∨ Job.isWelcomed j = true := by
    by_cases harmed : st.conn.armed = []
    · by_cases htimer : st.conn.reconnectTimer = none
      · rcases h.watched (.inl honline) with hw | ⟨j, hj, hw⟩
        · exact .inr (.inl (by simp [watchdogKicks, hw, hoff, hidle, htimer, hopen, hmore]))
        · exact .inr (.inr ⟨j, List.mem_of_mem_filter hj, .inr hw⟩)
      · have hstale : st.conn.stale := ⟨Option.isSome_iff_ne_none.mpr htimer, harmed⟩
        rcases h.covered hstale hoff with ⟨p, hp, -⟩ | ⟨j, hj, hc⟩
        · rw [hidle] at hp
          cases hp
        · exact .inr (.inr ⟨j, List.mem_of_mem_filter hj, .inl hc⟩)
    · exact .inl harmed
  refine ⟨?_, hall⟩
  intro hjobs
  rcases hall with harmed | hkicks | ⟨j, hj, -⟩
  · exact .inl harmed
  · exact .inr hkicks
  · rw [hjobs] at hj
    cases hj

end Runs

instance (env : ClientEnv) (st : ClientState ν) (e : ClientEvent ν) :
    Decidable (LetsRecover env st e) :=
  decidable_of_iff
    ((reachesConnect env st e = true ∨ givesUp st e = true → st.conn.connecting.isNone = true →
        ¬ (st.conn.online = true ∧ st.conn.socket.isSome = true) →
        ∀ j ∈ st.jobs, Job.isCatch j = false) ∧
      (givesUp st e = true → ¬ (st.conn.online = true ∧ st.conn.socket.isSome = true ∧
        st.conn.reconnectTimer.isSome = true)))
    ⟨fun h => ⟨fun hr hn => h.1 hr (by simp [hn]), h.2⟩,
      fun h => ⟨fun hr hn => h.calm hr (by simpa using hn), h.back⟩⟩

/-- The event is a `close()`. -/
def ClientEvent.isClose : ClientEvent ν → Bool
  | .call _ .close => true
  | _ => false

theorem wasOnline_of_mem {tr : ClientTrace ν} (hon : ∃ x ∈ tr, x.1.conn.online = true)
    (hopen : ∀ x ∈ tr, x.2.2.isClose = false) : WasOnline tr := by
  obtain ⟨x, hx, honline⟩ := hon
  obtain ⟨tr₁, tr₂, rfl⟩ := List.append_of_mem hx
  refine ⟨tr₁, x, tr₂, rfl, honline, ?_⟩
  intro y hy c hc
  have := hopen y (List.mem_append_right _ hy)
  rw [hc] at this
  cases this

/-- The connection is lost. -/
def loses : List (Int × ClientEvent Int) := connects 0 0 ++ [(2000, .closed 0)]

theorem reconnects_lost : ∃ (tr : ClientTrace Int) (st : ClientState Int),
    Run (ClientStep referenceClient) aliceClient tr st ∧ WasOnline tr ∧ st.conn.online = false ∧
    (st.conn.armed ≠ [] ∨ watchdogKicks referenceClient st.conn = true) := by
  have hcheck : (fun r : ClientTrace Int × ClientState Int =>
      decide (∀ x ∈ r.1, LetsRecover referenceClient x.1 x.2.2) &&
      r.1.any (fun x => x.1.conn.online) && r.1.all (fun x => !x.2.2.isClose) &&
      (!r.2.conn.online && !r.2.conn.intentionallyClosed && r.2.conn.connecting.isNone &&
        r.2.jobs.isEmpty)) (runClient referenceClient aliceClient loses) = true := by
    decide +kernel
  simp only [Bool.and_eq_true, decide_eq_true_eq, List.any_eq_true, List.all_eq_true,
    Bool.not_eq_true', Option.isNone_iff_eq_none, List.isEmpty_iff] at hcheck
  obtain ⟨⟨⟨hsafe, hon⟩, hopen⟩, ⟨⟨hoff, hclosed⟩, hidle⟩, hjobs⟩ := hcheck
  have hrun := run_runClient referenceClient aliceClient loses
  have hwas := wasOnline_of_mem hon hopen
  exact ⟨_, _, hrun, hwas, hoff, (reconnects rfl hrun hsafe hwas hoff hclosed hidle).1 hjobs⟩

/-- The host connects, the backoff timer joins, the connect fails, and the host tries once
more before the timer has heard of it. -/
def wedges : List (Int × ClientEvent Int) :=
  loses ++ [(2001, .call 1 .connect), (2250, .backoff 0), (2300, .failed 1), (2300, .microtask),
    (2300, .microtask), (2300, .microtask), (2300, .call 2 .connect), (2300, .microtask),
    (2400, .failed 2), (2400, .microtask), (2400, .microtask), (2400, .microtask)]

/-- No timer is armed, nothing is in flight, and the watchdog does nothing. -/
theorem reconnect_wedged : ∃ (tr : ClientTrace Int) (st : ClientState Int),
    Run (ClientStep referenceClient) aliceClient tr st ∧ WasOnline tr ∧
    referenceClient.noReconnect = false ∧ st.conn.online = false ∧
    st.conn.intentionallyClosed = false ∧ st.conn.connecting = none ∧ st.jobs = [] ∧
    st.conn.armed = [] ∧ watchdogKicks referenceClient st.conn = false := by
  have hcheck : (fun r : ClientTrace Int × ClientState Int =>
      r.1.any (fun x => x.1.conn.online) && r.1.all (fun x => !x.2.2.isClose) &&
      (!r.2.conn.online && !r.2.conn.intentionallyClosed && r.2.conn.connecting.isNone &&
        r.2.jobs.isEmpty && r.2.conn.armed.isEmpty && !watchdogKicks referenceClient r.2.conn))
      (runClient referenceClient aliceClient wedges) = true := by
    decide +kernel
  simp only [Bool.and_eq_true, List.any_eq_true, List.all_eq_true,
    Bool.not_eq_true', Option.isNone_iff_eq_none, List.isEmpty_iff] at hcheck
  obtain ⟨⟨hon, hopen⟩, ⟨⟨⟨⟨hoff, hclosed⟩, hidle⟩, hjobs⟩, harmed⟩, hkicks⟩ := hcheck
  exact ⟨_, _, run_runClient referenceClient aliceClient wedges, wasOnline_of_mem hon hopen, rfl,
    hoff, hclosed, hidle, hjobs, harmed, hkicks⟩

end PiMesh
