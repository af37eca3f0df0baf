/-
When a client changes its alias.

It takes a random alias when nobody gives it the one it wants, and a rename takes the new
alias before it dials and the old one when it gives up.  So between two moments at which
nothing is under way the alias is the same, or a rename or a fallback came to its end.

A rename ends once and its own stage says so.  A fallback ends with the promise of
`connect()`, and that there is only one such promise holds in every run: what is on its way
to it, an attempt, its outcome or a sleep, is counted, and the count is at most one.
-/
import PiMesh.Proofs.Dialing
import PiMesh.Extension.Upkeep

namespace PiMesh

open Js Transition

variable {ν : Type} [Number ν]

/-! ### One promise -/

/-- All that is on its way to the promise of `connect()`. -/
def pledges (k : Conn) (js : List (Job ν)) : Nat :=
  attempts Owner.isConnect k ([] : List (Job ν)) + js.countP Job.isToken + k.sleeps.toNat

/-- The promise is out, or nothing is on its way to it.  `debt` counts what the handler that
runs has in its hands. -/
structure Pledged (debt : Nat) (k : Conn) (js : List (Job ν)) : Prop where
  fresh : ∀ s, k.nextSocket ≤ s → k.sockets.get? s = none
  one : pledges k js + debt ≤ k.connecting.isSome.toNat

/-- What `Pledged` reads of the connection. -/
def Conn.pledge (k : Conn) := (k.ensuring, k.sockets, k.nextSocket, k.connecting)

namespace Pledged

variable {n n' : Nat} {k k' : Conn} {js js' : List (Job ν)}

theorem move (h : Pledged n k js) (hfresh : ∀ s, k'.nextSocket ≤ s → k'.sockets.get? s = none)
    (hsome : k'.connecting.isSome = k.connecting.isSome)
    (hle : pledges k' js' + n' ≤ pledges k js + n) : Pledged n' k' js' := by
  refine ⟨hfresh, ?_⟩
  rw [hsome]
  exact hle.trans h.one

theorem of_same (h : Pledged n k js) (hk : k'.pledge = k.pledge) : Pledged n k' js := by
  simp only [Conn.pledge, Prod.mk.injEq] at hk
  obtain ⟨hensuring, hsockets, hnext, hconnecting⟩ := hk
  refine h.move ?_ (by rw [hconnecting]) (Nat.le_of_eq ?_)
  · rw [hnext, hsockets]
    exact h.fresh
  · unfold pledges attempts Conn.sleeps
    rw [hensuring, hsockets, hconnecting]

/-- Jobs are queued that have nothing to do with it. -/
theorem push (h : Pledged n k js) {news : List (Job ν)} (hnews : news.countP Job.isToken = 0) :
    Pledged n k (js ++ news) := by
  refine h.move h.fresh rfl (Nat.le_of_eq ?_)
  unfold pledges
  rw [List.countP_append, hnews, Nat.add_zero]

/-- A job is taken from the queue. -/
theorem pop {j : Job ν} (h : Pledged n k (j :: js)) : Pledged (n + (Job.isToken j).toNat) k js := by
  refine h.move h.fresh rfl (Nat.le_of_eq ?_)
  unfold pledges
  rw [List.countP_cons]
  cases Job.isToken j with
  | true => simp; omega
  | false => simp

theorem drop {j : Job ν} (h : Pledged n k (j :: js)) : Pledged n k js :=
  h.pop.move h.pop.fresh rfl (by omega)

/-- What was in hand is queued. -/
theorem give {j : Job ν} (h : Pledged (Job.isToken j).toNat k js) : Pledged 0 k (js ++ [j]) := by
  refine h.move h.fresh rfl (Nat.le_of_eq ?_)
  unfold pledges
  rw [List.countP_append, List.countP_singleton]
  cases Job.isToken j with
  | true => simp; omega
  | false => simp

/-- A socket is touched, but neither its owner nor whether its handshake is settled. -/
theorem touch (h : Pledged n k js) (sock : ClientSocketId) {f : ClientSocket → ClientSocket}
    (hf : ∀ s, (f s).settled = s.settled ∧ (f s).owner = s.owner) :
    Pledged n (k.modifySocket sock f) js := by
  have hpace := pace_modifySocket k sock f
  simp only [Conn.pace, Prod.mk.injEq] at hpace
  have hnext : (k.modifySocket sock f).nextSocket = k.nextSocket := by
    unfold Conn.modifySocket
    split <;> rfl
  refine h.move ?_ hpace.1 (Nat.le_of_eq ?_)
  · intro s hs
    rw [hnext] at hs
    have hnone := h.fresh s hs
    rw [get?_modifySocket]
    split
    · next heq =>
      rw [← heq, hnone]
      rfl
    · exact hnone
  · unfold pledges
    rw [attempts_modifySocket _ _ _ _ hf, hpace.2.1]

theorem clearHelloTimer (h : Pledged n k js) : Pledged n k.clearHelloTimer js := by
  unfold Conn.clearHelloTimer
  split
  · exact h.touch _ fun s => ⟨rfl, rfl⟩
  · exact h

/-- A handshake is settled, and who settles it has the attempt in hand. -/
theorem settle (h : Pledged 0 k js) {sock : ClientSocketId} {s : ClientSocket}
    (hs : k.sockets.get? sock = some s) (hopen : s.settled = false)
    {f : ClientSocket → ClientSocket} (hf : ∀ s, (f s).settled = true) :
    Pledged (Owner.isConnect s.owner).toNat (k.clearHelloTimer.modifySocket sock f) js := by
  have hpace := pace_settle k sock f
  simp only [Conn.pace, Prod.mk.injEq] at hpace
  have hsettle := attempts_settle Owner.isConnect ([] : List (Job ν)) hs hopen hf
  have hnext : (k.clearHelloTimer.modifySocket sock f).nextSocket = k.clearHelloTimer.nextSocket := by
    unfold Conn.modifySocket
    split <;> rfl
  refine h.move ?_ hpace.1 ?_
  · intro x hx
    rw [hnext] at hx
    have hnone := h.clearHelloTimer.fresh x hx
    rw [get?_modifySocket]
    split
    · next heq =>
      rw [← heq, hnone]
      rfl
    · exact hnone
  · unfold pledges
    rw [hpace.2.1]
    omega

/-- A socket is opened for an attempt that was in hand, or for none. -/
theorem openFor (h : Pledged n k js) (x : ClientSocket)
    (hn : n' + (ClientSocket.dials Owner.isConnect x).toNat = n)
    (hsockets : k'.sockets = k.sockets.set k.nextSocket x) (hnext : k'.nextSocket = k.nextSocket + 1)
    (hensuring : k'.ensuring = k.ensuring) (hconnecting : k'.connecting = k.connecting) :
    Pledged n' k' js := by
  refine h.move ?_ (by rw [hconnecting]) (Nat.le_of_eq ?_)
  · intro s hs
    rw [hnext] at hs
    have hle : k.nextSocket ≤ s := Nat.le_of_succ_le hs
    rw [hsockets, Map.get?_set_ne _ _ (Nat.ne_of_gt hs)]
    exact h.fresh s hle
  · have hcount := Map.count_set k.sockets (ClientSocket.dials Owner.isConnect) k.nextSocket x
    rw [h.fresh k.nextSocket (Nat.le_refl _), Option.any_none, Bool.toNat_false] at hcount
    unfold pledges attempts Conn.sleeps
    rw [hsockets, hensuring, hconnecting]
    omega

end Pledged

section Dialing

variable {env : ClientEnv} {st : ClientState ν}

theorem isToken_failed (owner : Owner) (err : ConnectError) :
    Job.isToken (.dialed owner (.error err) : Job ν) = Owner.isConnect owner := by
  simp [Job.isToken, Job.dialFailed, Job.dialDone, Job.isConnectDone]

theorem isToken_done (owner : Owner) (info : WelcomeInfo ν) :
    Job.isToken (.dialed owner (.ok info)) = Owner.isConnect owner := by
  simp [Job.isToken, Job.dialFailed, Job.dialDone, Job.isConnectDone]

theorem isToken_welcomed (owner : Owner) (info : WelcomeInfo ν) :
    Job.isToken (.welcomed owner info) = Owner.isConnect owner := by
  simp [Job.isToken, Job.dialFailed, Job.dialDone, Job.isConnectDone]

theorem openSocket_pledged {owner : Owner} (h : st.meets (Pledged (Owner.isConnect owner).toNat)) :
    (openSocket st owner).meets (Pledged 0) := by
  unfold openSocket
  dsimp only
  split
  · rw [meets_setConn_push]
    refine Pledged.give ?_
    rw [isToken_failed]
    exact Pledged.openFor h { owner, settled := true, destroyed := true } rfl rfl rfl rfl rfl
  · rw [meets_setConn]
    exact Pledged.openFor h { owner, helloArmed := true } (by simp [ClientSocket.dials]) rfl rfl rfl rfl

theorem doConnect_pledged {owner : Owner} (h : st.meets (Pledged (Owner.isConnect owner).toNat)) :
    (doConnect env st owner).meets (Pledged 0) := by
  unfold doConnect
  split
  · rw [meets_setConn]
    refine Pledged.move h h.fresh rfl (Nat.le_of_eq ?_)
    unfold pledges
    rw [attempts_ensure]
    simp only [Conn.sleeps]
    omega
  · exact openSocket_pledged h
  · rw [meets_push]
    refine Pledged.give ?_
    rw [isToken_failed]
    exact h

theorem failHandshake_pledged (sock : ClientSocketId) (err : ConnectError)
    (h : st.meets (Pledged 0)) : (failHandshake st sock err).meets (Pledged 0) := by
  unfold failHandshake
  split
  · next s hs =>
    split
    · exact h
    · next hopen =>
      rw [meets_setConn_push]
      refine Pledged.give ?_
      rw [isToken_failed]
      exact Pledged.settle h hs (by simpa using hopen) fun _ => rfl
  · exact h

theorem acceptWelcome_pledged {sock : ClientSocketId} {s : ClientSocket} (frame : Inbound ν)
    (hs : st.conn.sockets.get? sock = some s) (hopen : s.settled = false)
    (h : st.meets (Pledged 0)) : (acceptWelcome st sock s.owner frame).meets (Pledged 0) := by
  have hsettle := Pledged.settle h hs hopen (f := fun s => { s with settled := true, welcomed := true })
    fun _ => rfl
  unfold acceptWelcome
  extract_lets k₀ k info
  rw [meets_push]
  refine Pledged.give ?_
  rw [isToken_welcomed]
  exact hsettle.of_same rfl

theorem connect_pledged (w : Waiter) (h : st.meets (Pledged 0)) :
    (connect env st w).meets (Pledged 0) := by
  unfold connect
  dsimp only
  split
  · rw [meets_push]
    exact Pledged.push h rfl
  · split
    · next p hp =>
      have hp : st.conn.connecting = some p := hp
      rw [meets_setConn]
      refine Pledged.move h h.fresh (by simp [hp]) (Nat.le_of_eq ?_)
      unfold pledges attempts Conn.sleeps
      simp [hp]
    · next hnone =>
      have hnone : st.conn.connecting = none := hnone
      have hone := h.one
      rw [hnone, Option.isSome_none, Bool.toNat_false] at hone
      refine doConnect_pledged ?_
      rw [meets_setConn]
      refine ⟨h.fresh, ?_⟩
      show attempts Owner.isConnect st.conn [] + st.links.countP Job.isToken + 0 + 1 ≤ 1
      unfold pledges at hone
      omega

theorem handleDialed_pledged (r : Except ConnectError (WelcomeInfo ν))
    (h : Pledged 0 st.conn (.dialed .connect r :: st.links)) :
    (handleDialed env st r).meets (Pledged 0) := by
  have hhand : Pledged 1 st.conn st.links := by
    have hpop := h.pop
    cases r with
    | ok info => rwa [isToken_done] at hpop
    | error err => rwa [isToken_failed] at hpop
  have hdone : ∀ (k : Conn) (r' : Except ConnectError (WelcomeInfo ν)), k.pledge = st.conn.pledge →
      ((st.setConn k).push [.connectDone r']).meets (Pledged 0) := by
    intro k r' hk
    rw [meets_setConn_push]
    exact Pledged.give (hhand.of_same hk)
  unfold handleDialed
  split
  · exact h.drop
  · next p hp =>
    dsimp only
    split
    · split
      · exact hdone _ _ rfl
      · exact hdone _ _ rfl
    · exact hdone _ _ rfl
    · split
      · exact hdone st.conn _ rfl
      · split
        · -- what was in hand sleeps
          rw [meets_setConn]
          have hawake := hhand.one
          rw [hp, Option.isSome_some, Bool.toNat_true] at hawake
          refine ⟨h.fresh, ?_⟩
          show attempts Owner.isConnect st.conn [] + st.links.countP Job.isToken + 1 + 0 ≤ 1
          unfold pledges at hawake
          omega
        · split
          · exact hdone _ _ rfl
          · refine doConnect_pledged ?_
            rw [meets_setConn]
            have hawake := hhand.one
            rw [hp, Option.isSome_some, Bool.toNat_true] at hawake
            refine ⟨h.fresh, ?_⟩
            show attempts Owner.isConnect st.conn [] + st.links.countP Job.isToken + 0 + 1 ≤ 1
            unfold pledges at hawake
            omega

theorem handleRetry_pledged (h : st.meets (Pledged 0)) : (handleRetry env st).meets (Pledged 0) := by
  unfold handleRetry
  split
  · next p hp =>
    split
    · next hphase =>
      refine doConnect_pledged ?_
      rw [meets_setConn]
      have hone := h.one
      have hsleeps : st.conn.sleeps = true := by simp [Conn.sleeps, hp, hphase]
      rw [hp, Option.isSome_some, Bool.toNat_true] at hone
      refine ⟨h.fresh, ?_⟩
      show attempts Owner.isConnect st.conn [] + st.links.countP Job.isToken + 0 + 1 ≤ 1
      unfold pledges at hone
      rw [hsleeps, Bool.toNat_true] at hone
      omega
    · exact h
  · exact h

theorem handleConnectDone_pledged (r : Except ConnectError (WelcomeInfo ν))
    (h : Pledged 0 st.conn (.connectDone r :: st.links)) :
    (handleConnectDone st r).meets (Pledged 0) := by
  have hhand : Pledged 1 st.conn st.links := h.pop
  unfold handleConnectDone
  split
  · exact h.drop
  · next p hp =>
    have hone := hhand.one
    rw [hp, Option.isSome_some, Bool.toNat_true] at hone
    have hnone : Pledged 0 { st.conn with connecting := none } st.links := by
      refine ⟨h.fresh, ?_⟩
      show attempts Owner.isConnect st.conn [] + st.links.countP Job.isToken + 0 + 0 ≤ 0
      unfold pledges at hone
      omega
    dsimp only
    split
    · rw [meets_setConn_push]
      exact hnone.push (by simp [List.countP_eq_zero, Job.isToken, Job.dialFailed, Job.dialDone,
        Job.isConnectDone])
    · rw [meets_setConn_push]
      exact hnone.push (by simp [List.countP_eq_zero, Job.isToken, Job.dialFailed, Job.dialDone,
        Job.isConnectDone])

theorem onSocketClosed_pledged (closed : Option ClientSocketId) (h : st.meets (Pledged 0)) :
    (onSocketClosed env st closed).meets (Pledged 0) := by
  have hlost : ∀ k : Conn, k.pledge = st.conn.pledge →
      (loseRequests (st.setConn k)).meets (Pledged 0) := by
    intro k hk
    refine (loseRequests_paper (st.setConn k)).still.meets ?_
    exact Pledged.of_same h hk
  unfold onSocketClosed
  split
  · exact h
  · split
    · exact h
    · have hdown := hlost { st.conn with online := false, socket := none, heartbeat := false } rfl
      dsimp only
      split
      · exact hdown
      · rw [meets_setConn]
        exact Pledged.of_same hdown rfl

theorem renameDial_pledged (c : CallId) (target old : String) (h : st.meets (Pledged 0)) :
    (renameDial env st c target old).meets (Pledged 0) := by
  unfold renameDial
  refine doConnect_pledged ?_
  exact Pledged.of_same h rfl

theorem renameDetach_pledged (c : CallId) (target : String) (h : st.meets (Pledged 0)) :
    (renameDetach env st c target).meets (Pledged 0) := by
  obtain ⟨st₁, hconn, hlinks, heq⟩ := renameDetach_eq env st c target
  obtain ⟨armed, hclear⟩ := clearReconnectTimer_eq st.conn
  have hdetached : st₁.meets (Pledged 0) := by
    rw [ClientState.meets, hconn, hlinks]
    refine Pledged.of_same h ?_
    simp [Conn.pledge, Conn.detach, hclear]
  rw [heq]
  split
  · next sock _ =>
    have hended : Pledged 0 (st₁.conn.modifySocket sock fun s => { s with ended := true }) st₁.links :=
      Pledged.touch hdetached sock fun s => ⟨rfl, rfl⟩
    exact Pledged.of_same hended rfl
  · exact renameDial_pledged c target _ hdetached

theorem handleRenameDialed_pledged (c : CallId) (r : Except ConnectError (WelcomeInfo ν))
    (h : Pledged 0 st.conn (.dialed (.rename c) r :: st.links)) :
    (handleRenameDialed env st c r).meets (Pledged 0) := by
  have hdropped : st.meets (Pledged 0) := h.drop
  have hfinish : ∀ (k : Conn) (res : CallResult ν), k.pledge = st.conn.pledge →
      (finishRename (st.setConn k) c res).meets (Pledged 0) := by
    intro k res hk
    refine (finishRename_still (st.setConn k) c res).meets ?_
    exact Pledged.of_same hdropped hk
  unfold handleRenameDialed
  split
  · split
    · exact hfinish _ _ rfl
    · split
      · exact Pledged.of_same hdropped rfl
      · refine connect_pledged _ ?_
        exact Pledged.of_same hdropped rfl
  · exact hdropped

theorem handleEnsured_pledged (owner : Owner) (ok : Bool) (hmem : owner ∈ st.conn.ensuring)
    (h : st.meets (Pledged 0)) : (handleEnsured st owner ok).meets (Pledged 0) := by
  have hhand : Pledged (Owner.isConnect owner).toNat
      { st.conn with ensuring := st.conn.ensuring.erase owner } st.links := by
    refine Pledged.move h h.fresh rfl (Nat.le_of_eq ?_)
    have hcount := (List.perm_cons_erase hmem).countP_eq Owner.isConnect
    rw [List.countP_cons] at hcount
    unfold pledges attempts Conn.sleeps
    dsimp only
    cases hc : Owner.isConnect owner with
    | true => simp [hc] at hcount ⊢; omega
    | false => simp [hc] at hcount ⊢; omega
  unfold handleEnsured
  dsimp only
  split
  · exact openSocket_pledged hhand
  · rw [meets_setConn_push]
    refine Pledged.give ?_
    rw [isToken_failed]
    exact hhand

theorem endWait_pledged (c : CallId) (h : st.meets (Pledged 0)) :
    (endWait st c).meets (Pledged 0) := by
  have hdetach : (endDetach st c).meets (Pledged 0) := by
    unfold endDetach
    split
    · have hset : ∀ stage, (setRename st c stage).meets (Pledged 0) := fun _ => Pledged.of_same h rfl
      rw [meets_push]
      exact (hset _).push rfl
    · exact h
  unfold endWait endClose
  split
  · rw [meets_push]
    exact Pledged.push hdetach rfl
  · exact hdetach

theorem handleSocketClose_pledged (sock : ClientSocketId) (h : st.meets (Pledged 0)) :
    (handleSocketClose env st sock).meets (Pledged 0) := by
  have hwaits : ∀ (cs : List CallId) (st : ClientState ν), st.meets (Pledged 0) →
      (cs.foldl endWait st).meets (Pledged 0) := by
    intro cs
    induction cs with
    | nil => exact fun st h => h
    | cons c rest ih => exact fun st h => ih _ (endWait_pledged c h)
  unfold handleSocketClose
  split
  · split
    · exact h
    · extract_lets st₁ st₂ st₃
      have hclosed : st₁.meets (Pledged 0) := Pledged.touch h sock fun s => ⟨rfl, rfl⟩
      have hfailed : st₂.meets (Pledged 0) := failHandshake_pledged sock _ hclosed
      refine hwaits _ _ ?_
      show ClientState.meets (if _ then _ else _) _
      split
      · exact onSocketClosed_pledged _ hfailed
      · exact hfailed
  · exact h

theorem startClose_pledged (c : CallId) (h : st.meets (Pledged 0)) :
    (startClose st c).meets (Pledged 0) := by
  obtain ⟨st₁, hconn, hlinks, heq⟩ := startClose_eq st c
  obtain ⟨armed, hclear⟩ := clearReconnectTimer_eq st.conn
  have hshut : st₁.meets (Pledged 0) := by
    rw [ClientState.meets, hconn, hlinks]
    refine Pledged.of_same h ?_
    simp [Conn.pledge, Conn.shut, Conn.detach, hclear]
  rw [heq]
  split
  · next sock _ =>
    have hended : Pledged 0 (st₁.conn.modifySocket sock fun s => { s with ended := true }) st₁.links :=
      Pledged.touch hshut sock fun s => ⟨rfl, rfl⟩
    exact (Still.setStage _ c _).meets hended
  · exact (Still.finish st₁ c _).meets hshut

/-- **One promise of `connect()`, in every run.** -/
theorem pledged_keeps (env : ClientEnv) : Keeps (ν := ν) env (Pledged 0) (fun _ _ => True)
    (fun _ _ => True) (fun _ _ => True) True (fun _ => True) True where
  news _ _ _ _ h := h.drop
  connect _ w _ h := connect_pledged w h
  waits _ _ _ _ _ h := h.of_same rfl
  waits_go _ _ _ _ _ hgo := hgo
  detach _ c target _ _ h := renameDetach_pledged c target h
  forget _ _ _ _ h := h.of_same rfl
  dialed _ r h := handleDialed_pledged r h
  renameDialed _ c r h _ := handleRenameDialed_pledged c r h
  connectDone _ r h := handleConnectDone_pledged r h
  backoffFailed _ _ h := onSocketClosed_pledged none h.drop
  welcomed k js owner info r h _ := by
    have hhand := h.pop
    rw [isToken_welcomed, Nat.zero_add] at hhand
    have hsame : Pledged (Owner.isConnect owner).toNat { k with heartbeat := true, watchdog := true } js :=
      hhand.of_same rfl
    refine Pledged.give ?_
    cases r with
    | ok info' => rwa [isToken_done]
    | error err => rwa [isToken_failed]
  detached st c h := by
    have hdropped : st.meets (Pledged 0) := h.drop
    unfold handleDetached
    split
    · exact renameDial_pledged c _ _ hdropped
    · exact hdropped
  retry _ h := handleRetry_pledged h
  renameRetry st c h := by
    unfold handleRenameRetry
    split
    · refine doConnect_pledged ?_
      exact Pledged.of_same h rfl
    · exact h
  ensured _ owner ok hmem h := handleEnsured_pledged owner ok hmem h
  opened _ _ sock _ _ _ h := h.touch sock fun s => ⟨rfl, rfl⟩
  welcome _ _ _ frame hs hopen _ _ h := acceptWelcome_pledged frame hs hopen h
  refused _ sock err h := failHandshake_pledged sock err h
  helloTimeout st sock h := by
    unfold handleHelloTimeout
    split
    · split
      · exact failHandshake_pledged sock _ (Pledged.touch h sock fun s => ⟨rfl, rfl⟩)
      · exact h
    · exact h
  socketError st sock h := by
    unfold handleSocketError
    split
    · split
      · exact h
      · exact Pledged.touch (failHandshake_pledged sock _ h) sock fun s => ⟨rfl, rfl⟩
    · exact h
  socketClose _ sock _ h := handleSocketClose_pledged sock h
  backoff st t _ ht _ h := by
    unfold handleBackoff
    rw [if_pos ht]
    exact connect_pledged _ (Pledged.of_same h rfl)
  close _ c _ h := startClose_pledged c h
  endWait _ c h := endWait_pledged c h

theorem pledged_init (name : String) (rooms : List String) (reservations : List FileReservation) :
    (ClientState.init (ν := ν) name rooms reservations).meets (Pledged 0) :=
  ⟨fun _ _ => rfl, Nat.le_refl 0⟩

theorem clientStep_pledged (now : Int) (e : ClientEvent ν) (h : st.meets (Pledged 0)) :
    (clientStep env now st e).meets (Pledged 0) :=
  clientStep_meets (pledged_keeps env) e (fun _ => True.intro) (fun _ => True.intro)
    (fun _ => True.intro) (fun _ => True.intro) (fun _ _ _ _ _ _ _ => True.intro)
    (fun _ _ => True.intro) h

end Dialing

/-! ### The alias and what may change it -/

/-- The rename has its alias and no connection yet. -/
def RenameStage.isTrying : RenameStage → Bool
  | .dialing _ _ _ => true
  | .sleeping _ _ _ => true
  | _ => false

/-- A rename is on its way to a connection under its alias. -/
def Conn.renaming (k : Conn) : Prop :=
  ∃ c stage, k.renames.get? c = some stage ∧ stage.isTrying = true

def Connecting.isFallback (p : Connecting) : Bool :=
  match p.phase with
  | .fallback _ => true
  | _ => false

/-- A dial under a random alias is on its way. -/
def FallsBack (k : Conn) (js : List (Job ν)) : Prop :=
  k.connecting.any Connecting.isFallback = true ∧ js.countP Job.isConnectDone = 0

/-- The alias is `a`, or it is on trial. -/
def Named (a : String) (k : Conn) (js : List (Job ν)) : Prop :=
  k.name = a ∨ k.renaming ∨ FallsBack k js

/-- A dial under a random alias has failed, and this is handled. -/
def fallbackFails (st : ClientState ν) : ClientEvent ν → Bool
  | .microtask =>
      match st.jobs.head? with
      | some (.dialed .connect (.error _)) => st.conn.connecting.any Connecting.isFallback
      | _ => false
  | _ => false

/-- The alias a rename goes back to where it gives up. -/
def Job.goesBack (k : Conn) : Job ν → Option String
  | .dialed (.rename c) (.error err) =>
      match k.renames.get? c with
      | some (.dialing _ old _) => if renameGivesUp k c err then some old else none
      | _ => none
  | _ => none

def goesBack (st : ClientState ν) : ClientEvent ν → Option String
  | .microtask => st.jobs.head?.bind (Job.goesBack st.conn)
  | _ => none

/-- What `Named` reads of the connection. -/
def Conn.naming (k : Conn) := (k.name, k.renames, k.connecting)

namespace Named

variable {a : String} {k k' : Conn} {js js' : List (Job ν)}

theorem of_same (h : Named a k js) (hk : k'.naming = k.naming)
    (hjs : js'.countP Job.isConnectDone = js.countP Job.isConnectDone) : Named a k' js' := by
  simp only [Conn.naming, Prod.mk.injEq] at hk
  obtain ⟨hname, hrenames, hconnecting⟩ := hk
  unfold Named Conn.renaming FallsBack at *
  rw [hname, hrenames, hconnecting, hjs]
  exact h

/-- A rename that is not on trial goes to another stage, or goes away. -/
theorem stage (h : Named a k js) {c : CallId} (hname : k'.name = k.name)
    (hconnecting : k'.connecting = k.connecting)
    (hidle : ∀ stage, k.renames.get? c = some stage → stage.isTrying = false)
    (hrest : ∀ c', c' ≠ c → k'.renames.get? c' = k.renames.get? c')
    (hjs : js'.countP Job.isConnectDone = js.countP Job.isConnectDone) : Named a k' js' := by
  rcases h with h | ⟨c', stage, hstage, htrying⟩ | h
  · exact .inl (hname.trans h)
  · refine .inr (.inl ⟨c', stage, ?_, htrying⟩)
    by_cases hc : c' = c
    · rw [hc] at hstage
      rw [hidle stage hstage] at htrying
      cases htrying
    · rw [hrest c' hc]
      exact hstage
  · unfold FallsBack at h
    rw [← hconnecting, ← hjs] at h
    exact .inr (.inr h)

/-- A rename is on trial now. -/
theorem of_trying {c : CallId} {stage : RenameStage} (hstage : k.renames.get? c = some stage)
    (htrying : stage.isTrying = true) : Named a k js := .inr (.inl ⟨c, stage, hstage, htrying⟩)

end Named

section Naming

variable {env : ClientEnv} {now : Int} {st : ClientState ν} {a : String}

theorem naming_modifySocket (k : Conn) (sock : ClientSocketId) (f : ClientSocket → ClientSocket) :
    (k.modifySocket sock f).naming = k.naming := by
  unfold Conn.modifySocket
  split
  · rfl
  · rfl

theorem naming_clearHelloTimer (k : Conn) : k.clearHelloTimer.naming = k.naming := by
  unfold Conn.clearHelloTimer
  split
  · exact naming_modifySocket k _ _
  · rfl

/-- Jobs are queued that do not settle the promise of `connect()`. -/
theorem named_push {js : List (Job ν)} (h : st.meets (Named a))
    (hjs : js.countP Job.isConnectDone = 0) : (st.push js).meets (Named a) := by
  rw [meets_push]
  refine Named.of_same h rfl ?_
  have hle : (js.filter Job.isLink).countP Job.isConnectDone ≤ js.countP Job.isConnectDone :=
    List.filter_sublist.countP_le
  rw [List.countP_append]
  omega

theorem named_setConn {k : Conn} (h : st.meets (Named a)) (hk : k.naming = st.conn.naming) :
    (st.setConn k).meets (Named a) := by
  rw [meets_setConn]
  exact Named.of_same h hk rfl

theorem openSocket_named (owner : Owner) (h : st.meets (Named a)) :
    (openSocket st owner).meets (Named a) := by
  unfold openSocket
  dsimp only
  split
  · exact named_push (named_setConn h rfl) rfl
  · exact named_setConn h rfl

theorem doConnect_named (owner : Owner) (h : st.meets (Named a)) :
    (doConnect env st owner).meets (Named a) := by
  unfold doConnect
  split
  · exact named_setConn h rfl
  · exact openSocket_named owner h
  · exact named_push h rfl

theorem failHandshake_named (sock : ClientSocketId) (err : ConnectError) (h : st.meets (Named a)) :
    (failHandshake st sock err).meets (Named a) := by
  unfold failHandshake
  split
  · split
    · exact h
    · refine named_push (named_setConn h ?_) rfl
      exact (naming_modifySocket _ _ _).trans (naming_clearHelloTimer _)
  · exact h

theorem acceptWelcome_named (sock : ClientSocketId) (owner : Owner) (frame : Inbound ν)
    (h : st.meets (Named a)) : (acceptWelcome st sock owner frame).meets (Named a) := by
  unfold acceptWelcome
  extract_lets k₀ k info
  have hk : k.naming = st.conn.naming :=
    (naming_modifySocket _ _ _).trans (naming_clearHelloTimer st.conn)
  have hset : (seedPeers (st.setConn k) (frame.peers.getD [])).meets (Named a) :=
    Named.of_same h hk rfl
  exact named_push hset rfl

theorem handleWelcomed_named (owner : Owner) (info : WelcomeInfo ν) (h : st.meets (Named a)) :
    (handleWelcomed env st owner info).meets (Named a) := by
  unfold handleWelcomed
  extract_lets k st₁
  have hflushed : (flushOutbox env st₁).1.meets (Named a) :=
    (flushFrames_still env st₁ _).meets (named_setConn h rfl)
  split
  · next st₂ hres =>
    rw [hres] at hflushed
    exact named_push hflushed rfl
  · next st₂ hres =>
    rw [hres] at hflushed
    exact named_push hflushed rfl

/-- `connect()` starts without a fallback, and joins one that is under way. -/
theorem connect_named (w : Waiter) (h : st.meets (Named a)) : (connect env st w).meets (Named a) := by
  unfold connect
  dsimp only
  split
  · exact named_push h rfl
  · split
    · next p hp =>
      have hp : st.conn.connecting = some p := hp
      rw [meets_setConn]
      rcases h with h | h | ⟨hfallback, hnone⟩
      · exact .inl h
      · exact .inr (.inl h)
      · rw [hp] at hfallback
        exact .inr (.inr ⟨hfallback, hnone⟩)
    · next hnone =>
      have hnone : st.conn.connecting = none := hnone
      refine doConnect_named _ ?_
      rw [meets_setConn]
      rcases h with h | h | ⟨hfallback, -⟩
      · exact .inl h
      · exact .inr (.inl h)
      · rw [hnone] at hfallback
        cases hfallback

/-- A dial of `connect()` ends: the alias changes where a random one is tried. -/
theorem handleDialed_named (r : Except ConnectError (WelcomeInfo ν))
    (hpledged : Pledged 0 st.conn (.dialed .connect r :: st.links))
    (hnot : st.conn.connecting.any Connecting.isFallback = false) (h : st.meets (Named a)) :
    (handleDialed env st r).meets (Named a) := by
  have hhand : Pledged 1 st.conn st.links := by
    have hpop := hpledged.pop
    cases r with
    | ok info => exact hpop
    | error err => exact hpop
  have hdone : ∀ k r', k.naming = st.conn.naming →
      ((st.setConn k).push [.connectDone r']).meets (Named a) := by
    intro k r' hk
    rw [meets_setConn_push]
    simp only [Conn.naming, Prod.mk.injEq] at hk
    obtain ⟨hname, hrenames, -⟩ := hk
    rcases h with h | ⟨c, stage, hstage, htrying⟩ | ⟨hfallback, -⟩
    · exact .inl (hname.trans h)
    · exact .of_trying (by rw [hrenames]; exact hstage) htrying
    · rw [hnot] at hfallback
      cases hfallback
  unfold handleDialed
  split
  · exact h
  · next p hp =>
    have hphase : p.isFallback = false := by
      rw [hp] at hnot
      exact hnot
    dsimp only
    split
    · next first r' hfirst =>
      simp [Connecting.isFallback, hfirst] at hphase
    · exact hdone _ _ rfl
    · split
      · exact hdone st.conn _ rfl
      · split
        · rw [meets_setConn]
          rcases h with h | h | ⟨hfallback, -⟩
          · exact .inl h
          · exact .inr (.inl h)
          · rw [hnot] at hfallback
            cases hfallback
        · split
          · exact hdone _ _ rfl
          · refine doConnect_named _ ?_
            rw [meets_setConn]
            refine .inr (.inr ⟨rfl, ?_⟩)
            -- what was in hand is all there is of the promise
            have hone := hhand.one
            rw [hp, Option.isSome_some, Bool.toNat_true] at hone
            have hle : st.links.countP Job.isConnectDone ≤ st.links.countP Job.isToken := by
              refine List.countP_mono_left fun j _ hj => ?_
              simp [Job.isToken, hj]
            unfold pledges at hone
            show st.links.countP Job.isConnectDone = 0
            omega

theorem handleRetry_named (h : st.meets (Named a)) : (handleRetry env st).meets (Named a) := by
  unfold handleRetry
  split
  · next p hp =>
    split
    · next hphase =>
      refine doConnect_named _ ?_
      rw [meets_setConn]
      rcases h with h | h | ⟨hfallback, -⟩
      · exact .inl h
      · exact .inr (.inl h)
      · simp [hp, Connecting.isFallback, hphase] at hfallback
    · exact h
  · exact h

/-- The promise of `connect()` is settled: a fallback has come to its end before. -/
theorem handleConnectDone_named (r : Except ConnectError (WelcomeInfo ν))
    (h : Named a st.conn (.connectDone r :: st.links)) :
    (handleConnectDone st r).meets (Named a) := by
  have hsame : st.conn.name = a ∨ st.conn.renaming := by
    rcases h with h | h | ⟨-, hnone⟩
    · exact .inl h
    · exact .inr h
    · rw [List.countP_cons] at hnone
      simp [Job.isConnectDone] at hnone
  have hcleared : ∀ js : List (Job ν),
      ((st.setConn { st.conn with connecting := none }).push js).meets (Named a) := by
    intro js
    rw [meets_setConn_push]
    rcases hsame with h | h
    · exact .inl h
    · exact .inr (.inl h)
  unfold handleConnectDone
  split
  · rcases hsame with h | h
    · exact .inl h
    · exact .inr (.inl h)
  · dsimp only
    split
    · exact hcleared _
    · exact hcleared _

theorem onSocketClosed_named (closed : Option ClientSocketId) (h : st.meets (Named a)) :
    (onSocketClosed env st closed).meets (Named a) := by
  unfold onSocketClosed
  split
  · exact h
  · split
    · exact h
    · have hdown : (loseRequests (st.setConn { st.conn with
          online := false, socket := none, heartbeat := false })).meets (Named a) :=
        (loseRequests_paper _).still.meets (named_setConn h rfl)
      dsimp only
      split
      · exact hdown
      · exact named_setConn hdown rfl

/-! ### Renames -/

/-- A rename has taken its alias. -/
theorem renameDial_named (c : CallId) (target old : String) :
    (renameDial env st c target old).meets (Named a) := by
  unfold renameDial
  refine doConnect_named _ ?_
  exact .of_trying (Map.get?_set_self _ c _) rfl

theorem renameDetach_named (c : CallId) (target : String)
    (hidle : ∀ stage, st.conn.renames.get? c = some stage → stage.isTrying = false)
    (h : st.meets (Named a)) : (renameDetach env st c target).meets (Named a) := by
  obtain ⟨st₁, hconn, hlinks, heq⟩ := renameDetach_eq env st c target
  obtain ⟨armed, hclear⟩ := clearReconnectTimer_eq st.conn
  have hnaming : st₁.conn.naming = st.conn.naming := by
    rw [hconn]
    simp [Conn.naming, Conn.detach, hclear]
  rw [heq]
  split
  · next sock _ =>
    have hended := (naming_modifySocket st₁.conn sock fun s => { s with ended := true }).trans hnaming
    simp only [Conn.naming, Prod.mk.injEq] at hended
    obtain ⟨hname, hrenames, hconnecting⟩ := hended
    refine Named.stage h hname hconnecting hidle ?_ (by rw [← hlinks]; rfl)
    intro c' hc
    show ((st₁.conn.modifySocket sock _).renames.set c _).get? c' = _
    rw [Map.get?_set_ne _ _ hc, hrenames]
  · exact renameDial_named c target _

/-- A rename returns that is not on trial. -/
theorem finishRename_named (c : CallId) (r : CallResult ν)
    (hidle : ∀ stage, st.conn.renames.get? c = some stage → stage.isTrying = false)
    (h : st.meets (Named a)) : (finishRename st c r).meets (Named a) := by
  refine (finishRename_still st c r).meets ?_
  rw [meets_setConn]
  exact Named.stage h rfl rfl hidle (fun c' hc => Map.get?_delete_ne _ hc) rfl

theorem startRename_named (c : CallId) (newAlias : String) (hnew : st.conn.renames.get? c = none)
    (h : st.meets (Named a)) : (startRename env st c newAlias).meets (Named a) := by
  have hidle : ∀ stage, st.conn.renames.get? c = some stage → stage.isTrying = false := by
    intro stage hstage
    rw [hnew] at hstage
    cases hstage
  have hstage : (st.setStage c .rename).meets (Named a) := (Still.setStage st c .rename).meets h
  unfold startRename
  extract_lets target st₁
  split
  · exact finishRename_named c _ hidle hstage
  · split
    · exact finishRename_named c _ hidle hstage
    · split
      · refine connect_named _ ?_
        exact Named.stage hstage rfl rfl hidle (fun c' hc => Map.get?_set_ne _ _ hc) rfl
      · exact renameDetach_named c target hidle hstage

theorem handleRenameConnected_named (c : CallId) (r : Except ConnectError (WelcomeInfo ν))
    (h : st.meets (Named a)) : (handleRenameConnected env st c r).meets (Named a) := by
  have hidle : ∀ s, st.conn.renames.get? c = some s → s.isTrying = false →
      ∀ stage, st.conn.renames.get? c = some stage → stage.isTrying = false := by
    intro s hs htrying stage hstage
    rw [hs] at hstage
    rwa [← Option.some.inj hstage]
  unfold handleRenameConnected
  split
  · exact renameDetach_named c _ (hidle _ (by assumption) rfl) h
  · exact finishRename_named c _ (hidle _ (by assumption) rfl) h
  · exact finishRename_named c _ (hidle _ (by assumption) rfl) h
  · exact h

/-- A dial of a rename fails: it is tried again, or the old alias is back. -/
theorem handleRenameDialed_named (c : CallId) (err : ConnectError)
    (hback : ∀ target old attempt, st.conn.renames.get? c = some (.dialing target old attempt) →
      renameGivesUp st.conn c err = true → old = a)
    (h : st.meets (Named a)) : (handleRenameDialed env st c (.error err)).meets (Named a) := by
  unfold handleRenameDialed
  split
  · next target old attempt hstage =>
    dsimp only
    split
    · exact .of_trying (Map.get?_set_self _ c _) rfl
    · next hgives =>
      refine connect_named _ (.inl ?_)
      refine hback target old attempt hstage ?_
      rw [Bool.not_eq_true] at hgives
      simp only [renameGivesUp, hstage]
      rw [hgives]
      rfl
  · exact h

theorem handleRenameRetry_named (c : CallId) (h : st.meets (Named a)) :
    (handleRenameRetry env st c).meets (Named a) := by
  unfold handleRenameRetry
  split
  · refine doConnect_named _ ?_
    exact .of_trying (Map.get?_set_self _ c _) rfl
  · exact h

theorem handleDetached_named (c : CallId) (h : st.meets (Named a)) :
    (handleDetached env st c).meets (Named a) := by
  unfold handleDetached
  split
  · exact renameDial_named c _ _
  · exact h

theorem endWait_named (c : CallId) (h : st.meets (Named a)) : (endWait st c).meets (Named a) := by
  have hdetach : (endDetach st c).meets (Named a) := by
    unfold endDetach
    split
    · next hs =>
      refine named_push ?_ rfl
      refine Named.stage h rfl rfl ?_ (fun c' hc => Map.get?_set_ne _ _ hc) rfl
      intro stage hstage
      rw [hs] at hstage
      rw [← Option.some.inj hstage]
      rfl
    · exact h
  unfold endWait endClose
  split
  · exact named_push hdetach rfl
  · exact hdetach

theorem handleSocketClose_named (sock : ClientSocketId) (h : st.meets (Named a)) :
    (handleSocketClose env st sock).meets (Named a) := by
  have hwaits : ∀ (cs : List CallId) (st : ClientState ν), st.meets (Named a) →
      (cs.foldl endWait st).meets (Named a) := by
    intro cs
    induction cs with
    | nil => exact fun st h => h
    | cons c rest ih => exact fun st h => ih _ (endWait_named c h)
  unfold handleSocketClose
  split
  · split
    · exact h
    · extract_lets st₁ st₂ st₃
      have hclosed : st₁.meets (Named a) := named_setConn h (naming_modifySocket _ _ _)
      have hfailed : st₂.meets (Named a) := failHandshake_named sock _ hclosed
      refine hwaits _ _ ?_
      show ClientState.meets (if _ then _ else _) _
      split
      · exact onSocketClosed_named _ hfailed
      · exact hfailed
  · exact h

theorem startClose_named (c : CallId) (h : st.meets (Named a)) :
    (startClose st c).meets (Named a) := by
  obtain ⟨st₁, hconn, hlinks, heq⟩ := startClose_eq st c
  obtain ⟨armed, hclear⟩ := clearReconnectTimer_eq st.conn
  have hshut : st₁.meets (Named a) := by
    rw [ClientState.meets, hconn, hlinks]
    refine Named.of_same h ?_ rfl
    simp [Conn.naming, Conn.shut, Conn.detach, hclear]
  rw [heq]
  split
  · next sock _ =>
    have hended : (st₁.setConn (st₁.conn.modifySocket sock fun s =>
        { s with ended := true })).meets (Named a) := named_setConn hshut (naming_modifySocket _ _ _)
    exact (Still.setStage _ c _).meets hended
  · exact (Still.finish st₁ c _).meets hshut

/-! ### One step -/

variable (env now)

theorem connect_stage_named (c : CallId) (stage : Stage) (w : Waiter) (h : st.meets (Named a)) :
    (connect env (st.setStage c stage) w).meets (Named a) :=
  connect_named w ((Still.setStage st c stage).meets h)

theorem roundTrip_named (c : CallId) (use : TripUse) (frame : ClientFrame) (h : st.meets (Named a)) :
    (roundTrip env st.useId c use frame).meets (Named a) := by
  have hid : st.useId.meets (Named a) := Still.meets (.of_same rfl rfl) h
  unfold roundTrip
  split
  · exact (sendTrip_still env st.useId c use frame).meets hid
  · split
    · exact named_push ((Still.setStage _ c _).meets hid) rfl
    · exact connect_stage_named env c _ _ hid

theorem handleCall_named (c : CallId) (op : Op) (hnew : st.conn.renames.get? c = none)
    (h : st.meets (Named a)) : (handleCall env now st c op).meets (Named a) := by
  have hfinish : ∀ r, (st.finish c r).meets (Named a) := fun r => (Still.finish st c r).meets h
  cases op with
  | connect => exact connect_stage_named env c _ _ h
  | send opts =>
      unfold handleCall startSend
      dsimp only
      split
      · exact hfinish _
      · split
        · exact (issueSend_still env now st c _).meets h
        · exact connect_stage_named env c _ _ h
  | reply msgId body opts =>
      unfold handleCall startReply
      dsimp only
      split
      · exact hfinish _
      · split
        · exact (issueReply_still env now st c _).meets h
        · exact connect_stage_named env c _ _ h
  | reserve patterns reason =>
      unfold handleCall startReserve
      dsimp only
      split
      · exact hfinish _
      · exact hfinish _
      · split
        · exact roundTrip_named env c _ _ h
        · exact connect_stage_named env c _ _ h
  | release patterns =>
      unfold handleCall startRelease
      dsimp only
      split
      · exact hfinish _
      · split
        · exact roundTrip_named env c _ _ h
        · exact connect_stage_named env c _ _ h
  | join room role => exact roundTrip_named env c _ _ h
  | leave room => exact roundTrip_named env c _ _ h
  | status room => exact (startStatus_still env now st c room).meets h
  | rename newAlias => exact startRename_named c newAlias hnew h
  | close => exact startClose_named c h
  | waitAll timeoutMs signal => exact (startWaitAll_paper env now st c timeoutMs signal).still.meets h
  | cancelAllAwaited =>
      exact ((cancelAllAwaited_booked st).paper.still.trans (.finish _ c _)).meets h
  | forgetRoom room =>
      exact ((Still.of_same rfl rfl : Still st (forgetRoom st room)).trans (.finish _ c _)).meets h
  | sendActivity state => exact ((sendNotice_still env st _).trans (.finish _ c _)).meets h
  | sendRead msgId recipient => exact ((sendNotice_still env st _).trans (.finish _ c _)).meets h

theorem handleCallConnected_named (c : CallId) (info : WelcomeInfo ν) (h : st.meets (Named a)) :
    (handleCallConnected env now st c info).meets (Named a) := by
  unfold handleCallConnected
  split
  · exact (Still.finish st c _).meets h
  · exact (issueSend_still env now st c _).meets h
  · exact (issueReply_still env now st c _).meets h
  · exact roundTrip_named env c _ _ h
  · exact roundTrip_named env c _ _ h
  · exact (sendTrip_still env st c _ _).meets h
  · exact handleRenameConnected_named c _ h
  · exact h

theorem handleCallRefused_named (c : CallId) (err : ConnectError) (h : st.meets (Named a)) :
    (handleCallRefused env st c err).meets (Named a) := by
  unfold handleCallRefused
  split
  · exact (Still.finish st c _).meets h
  · exact (Still.finish st c _).meets h
  · exact (Still.finish st c _).meets h
  · exact (Still.finish st c _).meets h
  · exact (Still.finish st c _).meets h
  · exact named_push ((Still.setStage st c _).meets h) rfl
  · exact handleRenameConnected_named c _ h
  · exact h

/-- One microtask that has nothing to tell about the alias. -/
theorem handleJob_named (j : Job ν) (hpledged : Pledged 0 st.conn ([j].filter Job.isLink ++ st.links))
    (hfalls : ∀ r, j = .dialed .connect r → st.conn.connecting.any Connecting.isFallback = false)
    (hrenamed : ∀ c info target old attempt, j = .dialed (.rename c) (.ok info) →
      st.conn.renames.get? c ≠ some (.dialing target old attempt))
    (hback : ∀ old, Job.goesBack st.conn j = some old → old = a)
    (h : Named a st.conn ([j].filter Job.isLink ++ st.links)) :
    (handleJob env now st j).meets (Named a) := by
  have hdrop : Job.isConnectDone j = false → st.meets (Named a) := by
    intro hj
    refine Named.of_same h rfl ?_
    rw [List.countP_append]
    have hnone : ([j].filter Job.isLink).countP Job.isConnectDone = 0 := by
      rw [List.countP_eq_zero]
      intro x hx
      obtain rfl := List.mem_singleton.mp (List.mem_filter.mp hx).1
      simp [hj]
    omega
  cases j with
  | acked c ack => exact (handleAcked_paper st c ack).still.meets h
  | resolved w id r => exact (handleResolved_paper st w id r).still.meets h
  | connected w info =>
      cases w with
      | call c => exact handleCallConnected_named env now c info (hdrop rfl)
      | backoff => exact hdrop rfl
      | watchdog => exact hdrop rfl
  | connectFailed w err =>
      cases w with
      | call c => exact handleCallRefused_named env c err (hdrop rfl)
      | backoff => exact onSocketClosed_named none (hdrop rfl)
      | watchdog => exact hdrop rfl
  | welcomed owner info => exact handleWelcomed_named owner info (hdrop rfl)
  | dialed owner r =>
      cases owner with
      | connect => exact handleDialed_named r hpledged (hfalls r rfl) (hdrop rfl)
      | rename c =>
          cases r with
          | ok info =>
              show (handleRenameDialed env st c (.ok info)).meets (Named a)
              unfold handleRenameDialed
              split
              · next hstage => exact absurd hstage (hrenamed c info _ _ _ rfl)
              · exact hdrop rfl
          | error err =>
              refine handleRenameDialed_named c err ?_ (hdrop rfl)
              intro target old attempt hstage hgives
              exact hback old (by simp [Job.goesBack, hstage, hgives])
  | connectDone r => exact handleConnectDone_named r h
  | detached c => exact handleDetached_named c (hdrop rfl)
  | closed c => exact (handleClosed_paper st c).still.meets (hdrop rfl)

theorem handleTurn_named (e : ClientEvent ν) (h : st.meets (Named a)) :
    (handleTurn env now st e).meets (Named a) := by
  cases e with
  | ensured owner ok =>
      unfold handleTurn
      dsimp only
      split
      · unfold handleEnsured
        dsimp only
        split
        · exact openSocket_named owner (named_setConn h rfl)
        · exact named_push (named_setConn h rfl) rfl
      · exact h
  | connected sock =>
      unfold handleTurn
      dsimp only
      split
      · unfold handleConnected
        dsimp only
        split
        · exact named_setConn (Still.meets (.of_same rfl rfl) h) (naming_modifySocket _ _ _)
        · exact (Still.of_same rfl rfl : Still st st.useId).meets h
      · exact h
  | oversized sock => exact failHandshake_named sock _ h
  | helloTimeout sock =>
      show (handleHelloTimeout st sock).meets (Named a)
      unfold handleHelloTimeout
      split
      · split
        · exact failHandshake_named sock _ (named_setConn h (naming_modifySocket _ _ _))
        · exact h
      · exact h
  | failed sock =>
      show (handleSocketError st sock).meets (Named a)
      unfold handleSocketError
      split
      · split
        · exact h
        · exact named_setConn (failHandshake_named sock _ h) (naming_modifySocket _ _ _)
      · exact h
  | closed sock => exact handleSocketClose_named sock h
  | backoff t =>
      show (handleBackoff env st t).meets (Named a)
      unfold handleBackoff
      split
      · exact connect_named _ (named_setConn h rfl)
      · exact h
  | retry => exact handleRetry_named h
  | renameRetry c => exact handleRenameRetry_named c h
  | endTimeout c => exact endWait_named c h
  | watchdog =>
      show (handleWatchdog env st).meets (Named a)
      unfold handleWatchdog
      split
      · exact connect_named _ h
      · exact h
  | heartbeat => exact (handleHeartbeat_still env now st).meets h
  | ackTimeout id => exact (handleAckTimeout_paper st id).still.meets h
  | statusTimeout id => exact (handleStatusTimeout_paper st id).still.meets h
  | expire id => exact (setPending_booked st _).paper.still.meets h
  | remind id => exact (handleRemind_still env now st id).meets h
  | tick c => exact (handleTick_paper env now st c).still.meets h
  | call c op => exact h
  | abort c => exact h
  | microtask => exact h
  | line sock frame => exact h

theorem handleClientLine_named (sock : ClientSocketId) (frame : Inbound ν) (h : st.meets (Named a)) :
    (handleClientLine env now st sock frame).meets (Named a) := by
  have hread : ({ st with reading := some sock } : ClientState ν).meets (Named a) :=
    Still.meets (.of_same rfl rfl) h
  unfold handleClientLine
  split
  · split
    · exact h
    · dsimp only
      split
      · exact (onFrame_paper env now _ frame).still.meets hread
      · split
        · exact acceptWelcome_named sock _ frame hread
        · split
          · exact failHandshake_named sock _ hread
          · exact hread
  · exact h

/-- **The alias stays what it is, or on trial, until a listener hears of another.** -/
theorem clientStep_named (e : ClientEvent ν) (hpledged : st.meets (Pledged 0))
    (hquiet : st.notice env e = none) (hfalls : fallbackFails st e = false)
    (hback : ∀ old, goesBack st e = some old → old = a) (h : st.meets (Named a)) :
    (clientStep env now st e).meets (Named a) := by
  have hidle : ({ st with reading := none } : ClientState ν).meets (Named a) :=
    Still.meets (.of_same rfl rfl) h
  cases e with
  | call c op =>
      unfold clientStep
      dsimp only
      split
      · next hnew =>
        have hrename : st.conn.renames.get? c = none := by
          simp only [isNewCall, Map.has, Bool.and_eq_true, Bool.not_eq_true',
            Option.isSome_eq_false_iff, Option.isNone_iff_eq_none] at hnew
          exact hnew.2
        exact handleCall_named env now c op hrename h
      · exact h
  | abort c => exact (handleAbort_paper env now st c).still.meets h
  | microtask =>
      show (handleMicrotask env now st).meets (Named a)
      unfold handleMicrotask
      split
      · exact h
      · next job rest hjobs =>
        have hlinks : st.links = [job].filter Job.isLink ++ rest.filter Job.isLink := by
          rw [ClientState.links, hjobs, ← List.filter_append]
          rfl
        have hhead : st.jobs.head? = some job := by rw [hjobs]; rfl
        rw [ClientState.meets, hlinks] at h hpledged
        simp only [ClientState.notice, hhead, Option.bind_some] at hquiet
        refine handleJob_named env now job hpledged ?_ ?_ ?_ h
        · rintro r rfl
          cases r with
          | error err => simpa [fallbackFails, hhead] using hfalls
          | ok info =>
              cases hc : st.conn.connecting with
              | none => rfl
              | some p =>
                  obtain ⟨attempts, attempt, phase, waiters⟩ := p
                  simp only [Job.notice, hc] at hquiet
                  cases phase with
                  | fallback first => cases hquiet
                  | dialing => rfl
                  | sleeping => rfl
        · rintro c info target old attempt rfl hstage
          have hstage : st.conn.renames.get? c = some (.dialing target old attempt) := hstage
          simp [Job.notice, hstage] at hquiet
        · intro old hold
          refine hback old ?_
          simpa [goesBack, hhead] using hold
  | line sock frame => exact handleClientLine_named env now sock frame h
  | ensured | connected | oversized | helloTimeout | failed | closed | backoff | retry
  | renameRetry | endTimeout | watchdog | heartbeat | ackTimeout | statusTimeout | expire
  | remind | tick =>
      unfold clientStep
      dsimp only
      split
      · exact handleTurn_named env now _ hidle
      · exact h

end Naming

end PiMesh
