/-
Who is dialing.

An attempt to connect is one thing that moves: a `doConnect` that waits for the broker, a
socket whose handshake is not settled, a failure that is still to be reported, a retry
that sleeps, a rename that has detached.  `busy` counts them, and the invariant is that
with a client that is online there is at most one of them.

`Tokens` has room for a debt: an attempt that has been taken from one place and not yet
been put into another.  A microtask takes it from the queue, and `doConnect` puts it back.
That every promise of `connect()` and every rename that dials has exactly one token is what
makes the counting work; that the catch of a backoff timer runs before the token of a later
`connect()` is what keeps it harmless.
-/
import PiMesh.Proofs.Reconnect

namespace PiMesh

open Js Transition

variable {ν : Type} [Number ν]

/-! ### Counting -/

def Owner.isConnect (o : Owner) : Bool := decide (o = .connect)

def Owner.isRename (c : CallId) (o : Owner) : Bool := decide (o = .rename c)

/-- A dial that failed, still to be reported. -/
def Job.dialFailed (p : Owner → Bool) : Job ν → Bool
  | .dialed owner (.error _) => p owner
  | _ => false

/-- A dial that succeeded, still to be reported. -/
def Job.dialDone (p : Owner → Bool) : Job ν → Bool
  | .welcomed owner _ => p owner
  | .dialed owner (.ok _) => p owner
  | _ => false

def Job.isConnectDone : Job ν → Bool
  | .connectDone _ => true
  | _ => false

def Job.isConnectError : Job ν → Bool
  | .connectDone (.error _) => true
  | _ => false

/-- The token of the promise of `connect()`, in the queue. -/
def Job.isToken (j : Job ν) : Bool :=
  j.dialFailed Owner.isConnect || j.dialDone Owner.isConnect || j.isConnectDone

/-- Between the detach of a rename and its next dial. -/
def RenameStage.isParked : RenameStage → Bool
  | .detaching _ _ _ => true
  | .detached _ _ => true
  | .sleeping _ _ _ => true
  | _ => false

def RenameStage.isDialing : RenameStage → Bool
  | .dialing _ _ _ => true
  | _ => false

/-- No rename is between its detach and its return. -/
def Conn.free (k : Conn) : Prop := ∀ c, RenameStage.isIdle (k.renames.get? c) = true

/-- The alias ladder of `connect()` sleeps. -/
def Conn.sleeps (k : Conn) : Bool := k.connecting.any fun p => decide (p.phase = .sleeping)

/-- A socket whose handshake is not settled. -/
def ClientSocket.dials (p : Owner → Bool) (s : ClientSocket) : Bool := !s.settled && p s.owner

/-- The dials that have not succeeded. -/
def attempts (p : Owner → Bool) (k : Conn) (js : List (Job ν)) : Nat :=
  k.ensuring.countP p + k.sockets.count (ClientSocket.dials p) + js.countP (Job.dialFailed p)

/-- All that is on its way to a connection. -/
def busy (k : Conn) (js : List (Job ν)) : Nat :=
  attempts (fun _ => true) k js + js.countP Job.isConnectError + k.sleeps.toNat +
    k.renames.count RenameStage.isParked

/-- At most one attempt, and none beside a client that is online.  `debt` is an attempt in
the hands of the handler that runs. -/
structure Tokens (debt : Option Owner) (k : Conn) (js : List (Job ν)) : Prop where
  total : busy k js + debt.isSome.toNat + k.online.toNat ≤ 1
  connect : attempts Owner.isConnect k js + js.countP (Job.dialDone Owner.isConnect) +
    js.countP Job.isConnectDone + k.sleeps.toNat + (debt.any Owner.isConnect).toNat =
      k.connecting.isSome.toNat
  rename : ∀ c, attempts (Owner.isRename c) k js + js.countP (Job.dialDone (Owner.isRename c)) +
    (debt.any (Owner.isRename c)).toNat = ((k.renames.get? c).any RenameStage.isDialing).toNat
  won : ∀ c, 0 < js.countP (Job.dialDone (Owner.isRename c)) → k.online = true
  order : js.Pairwise fun a b => a.isToken = true → Job.isCatch b = false
  calm : (∃ j ∈ js, Job.isCatch j = true) → k.connecting = none → k.online = false ∧ k.free

theorem attempts_mono {p q : Owner → Bool} (h : ∀ o, p o = true → q o = true) (k : Conn)
    (js : List (Job ν)) : attempts p k js ≤ attempts q k js := by
  unfold attempts
  refine Nat.add_le_add (Nat.add_le_add (List.countP_mono_left fun o _ => h o) ?_) ?_
  · refine List.countP_mono_left fun s _ hs => ?_
    simp only [ClientSocket.dials, Bool.and_eq_true] at hs ⊢
    exact ⟨hs.1, h _ hs.2⟩
  · refine List.countP_mono_left fun j _ hj => ?_
    unfold Job.dialFailed at hj ⊢
    split at hj
    · exact h _ hj
    · cases hj

/-- An attempt has an owner. -/
theorem attempts_owner {k : Conn} {js : List (Job ν)} (h : 0 < attempts (fun _ => true) k js) :
    0 < attempts Owner.isConnect k js ∨ ∃ c, 0 < attempts (Owner.isRename c) k js := by
  have howner : ∃ o : Owner, 0 < attempts (fun x => decide (x = o)) k js := by
    unfold attempts at h ⊢
    rcases Nat.eq_zero_or_pos (k.ensuring.countP fun _ => true) with h₁ | h₁
    · rcases Nat.eq_zero_or_pos (k.sockets.count (ClientSocket.dials fun _ => true)) with h₂ | h₂
      · have h₃ : 0 < js.countP (Job.dialFailed fun _ => true) := by omega
        obtain ⟨j, hj, hp⟩ := List.countP_pos_iff.mp h₃
        unfold Job.dialFailed at hp
        split at hp
        · next owner err =>
          refine ⟨owner, Nat.lt_of_lt_of_le ?_ (Nat.le_add_left _ _)⟩
          exact List.countP_pos_iff.mpr ⟨_, hj, by simp [Job.dialFailed]⟩
        · cases hp
      · obtain ⟨s, x, hs, hx⟩ := (Map.count_pos_iff _ _).mp h₂
        refine ⟨x.owner, ?_⟩
        have hpos : 0 < k.sockets.count (ClientSocket.dials fun o => decide (o = x.owner)) := by
          refine (Map.count_pos_iff _ _).mpr ⟨s, x, hs, ?_⟩
          simpa [ClientSocket.dials] using hx
        omega
    · obtain ⟨o, ho, _⟩ := List.countP_pos_iff.mp h₁
      refine ⟨o, ?_⟩
      have hpos : 0 < k.ensuring.countP fun x => decide (x = o) :=
        List.countP_pos_iff.mpr ⟨o, ho, by simp⟩
      omega
  obtain ⟨o, ho⟩ := howner
  cases o with
  | connect => exact .inl ho
  | rename c => exact .inr ⟨c, ho⟩

namespace Tokens

variable {debt : Option Owner} {k k' : Conn} {js js' : List (Job ν)}

/-- A rename under way is on its way to a connection, or has one. -/
theorem one_of_not_free (hrename : ∀ c, attempts (Owner.isRename c) k js +
      js.countP (Job.dialDone (Owner.isRename c)) =
        ((k.renames.get? c).any RenameStage.isDialing).toNat)
    (hwon : ∀ c, 0 < js.countP (Job.dialDone (Owner.isRename c)) → k.online = true)
    (hfree : ¬ k.free) : 1 ≤ busy k js + k.online.toNat := by
  unfold Conn.free at hfree
  rw [not_forall] at hfree
  obtain ⟨c, hc⟩ := hfree
  cases hstage : k.renames.get? c with
  | none => rw [hstage] at hc; exact absurd rfl hc
  | some stage =>
      have hren := hrename c
      rw [hstage] at hc hren
      by_cases hparked : stage.isParked = true
      · have : 0 < k.renames.count RenameStage.isParked :=
          (Map.count_pos_iff _ _).mpr ⟨c, stage, hstage, hparked⟩
        unfold busy
        omega
      · have hdialing : stage.isDialing = true := by
          cases stage with
          | dialing => rfl
          | connecting => exact absurd rfl hc
          | restoring => exact absurd rfl hc
          | detaching => exact absurd rfl hparked
          | detached => exact absurd rfl hparked
          | sleeping => exact absurd rfl hparked
        simp only [Option.any_some, hdialing, Bool.toNat_true] at hren
        rcases Nat.eq_zero_or_pos (js.countP (Job.dialDone (Owner.isRename c))) with hdone | hdone
        · have hle := attempts_mono (p := Owner.isRename c) (q := fun _ => true) (fun _ _ => rfl) k js
          unfold busy
          omega
        · have hon := hwon c hdone
          rw [hon, Bool.toNat_true]
          omega

/-- Nothing is on its way where no promise of `connect()` is out and no rename is under way. -/
theorem idle (h : Tokens none k js) (hconnecting : k.connecting = none) (hfree : k.free) :
    busy k js = 0 := by
  have hconn := h.connect
  rw [hconnecting] at hconn
  simp only [Option.any_none, Bool.toNat_false, Option.isSome_none] at hconn
  have hcount : k.renames.count RenameStage.isParked = 0 := by
    refine Nat.eq_zero_of_not_pos fun hpos => ?_
    obtain ⟨c, stage, hstage, hparked⟩ := (Map.count_pos_iff _ _).mp hpos
    have hc := hfree c
    rw [hstage] at hc
    cases stage <;> cases hparked <;> cases hc
  have hattempts : attempts (fun _ => true) k js = 0 := by
    refine Nat.eq_zero_of_not_pos fun hpos => ?_
    rcases attempts_owner hpos with hc | ⟨c, hc⟩
    · omega
    · have hren := h.rename c
      have hidle := hfree c
      cases hstage : k.renames.get? c with
      | none => simp [hstage] at hren; omega
      | some stage =>
          rw [hstage] at hren hidle
          cases stage <;> cases hidle <;> simp [RenameStage.isDialing] at hren <;> omega
  have hle : js.countP Job.isConnectError ≤ js.countP Job.isConnectDone := by
    refine List.countP_mono_left fun j _ hj => ?_
    unfold Job.isConnectError at hj
    split at hj
    · rfl
    · cases hj
  unfold busy
  omega

end Tokens

/-- What `Tokens` reads of the connection beside the dials. -/
def Conn.pace (k : Conn) := (k.connecting.isSome, k.sleeps, k.renames, k.online)

/-- What `Tokens` counts in the queue beside failed dials, and where the catches are. -/
structure SameQueue (js js' : List (Job ν)) : Prop where
  done : ∀ p, js'.countP (Job.dialDone p) = js.countP (Job.dialDone p)
  connectDone : js'.countP Job.isConnectDone = js.countP Job.isConnectDone
  connectError : js'.countP Job.isConnectError = js.countP Job.isConnectError
  order : js.Pairwise (fun a b => a.isToken = true → Job.isCatch b = false) →
    js'.Pairwise fun a b => a.isToken = true → Job.isCatch b = false
  catches : (∃ j ∈ js', Job.isCatch j = true) → ∃ j ∈ js, Job.isCatch j = true

namespace Tokens

variable {debt debt' : Option Owner} {k k' : Conn} {js js' : List (Job ν)}

/-- The dials and the debt change together. -/
theorem move (h : Tokens debt k js) (hpace : k'.pace = k.pace) (hqueue : SameQueue js js')
    (hdebt : ∀ p, attempts p k' js' + (debt'.any p).toNat = attempts p k js + (debt.any p).toNat) :
    Tokens debt' k' js' := by
  simp only [Conn.pace, Prod.mk.injEq] at hpace
  obtain ⟨hconnecting, hsleeps, hrenames, honline⟩ := hpace
  have hall := hdebt fun _ => true
  simp only [Option.any_true] at hall
  refine ⟨?_, ?_, ?_, ?_, hqueue.order h.order, ?_⟩
  · have := h.total
    unfold busy at this ⊢
    rw [hqueue.connectError, hsleeps, hrenames, honline]
    omega
  · have := h.connect
    have := hdebt Owner.isConnect
    rw [hqueue.done, hqueue.connectDone, hsleeps, hconnecting]
    omega
  · intro c
    have := h.rename c
    have := hdebt (Owner.isRename c)
    rw [hqueue.done, hrenames]
    omega
  · intro c
    rw [hqueue.done, honline]
    exact h.won c
  · intro hcatch hnone
    rw [honline, Conn.free, hrenames]
    refine h.calm (hqueue.catches hcatch) ?_
    rw [← Option.isNone_iff_eq_none, ← Option.not_isSome, ← hconnecting, hnone]
    rfl

end Tokens

namespace SameQueue

theorem refl (js : List (Job ν)) : SameQueue js js :=
  ⟨fun _ => rfl, rfl, rfl, fun h => h, fun h => h⟩

/-- A job that counts for nothing here, at the end of the queue. -/
theorem push {js : List (Job ν)} {j : Job ν} (hdone : ∀ p, Job.dialDone p j = false)
    (hconnect : Job.isConnectDone j = false) (hcatch : Job.isCatch j = false) :
    SameQueue js (js ++ [j]) := by
  have herror : Job.isConnectError j = false := by
    cases j with
    | connectDone r => cases hconnect
    | _ => rfl
  refine ⟨?_, ?_, ?_, ?_, ?_⟩
  · simp [hdone]
  · simp [hconnect]
  · simp [herror]
  · intro horder
    rw [List.pairwise_append]
    refine ⟨horder, List.pairwise_singleton _ _, ?_⟩
    intro a _ b hb _
    rw [List.mem_singleton] at hb
    rw [hb, hcatch]
  · rintro ⟨j', hj', hc⟩
    rcases List.mem_append.mp hj' with hj' | hj'
    · exact ⟨j', hj', hc⟩
    · rw [List.mem_singleton] at hj'
      rw [hj', hcatch] at hc
      cases hc

/-- A job that counts for nothing here, at the front. -/
theorem pop {js : List (Job ν)} {j : Job ν} (hdone : ∀ p, Job.dialDone p j = false)
    (hconnect : Job.isConnectDone j = false) : SameQueue (j :: js) js := by
  have herror : Job.isConnectError j = false := by
    cases j with
    | connectDone r => cases hconnect
    | _ => rfl
  refine ⟨?_, ?_, ?_, ?_, ?_⟩
  · simp [hdone]
  · simp [hconnect]
  · simp [herror]
  · intro horder
    exact (List.pairwise_cons.mp horder).2
  · rintro ⟨j', hj', hc⟩
    exact ⟨j', List.mem_cons_of_mem _ hj', hc⟩

end SameQueue

/-! ### Dialing -/

section Dialing

variable {env : ClientEnv} {st : ClientState ν} {debt : Option Owner}

theorem attempts_modifySocket (p : Owner → Bool) (k : Conn) (js : List (Job ν))
    (sock : ClientSocketId) {f : ClientSocket → ClientSocket}
    (hf : ∀ s, (f s).settled = s.settled ∧ (f s).owner = s.owner) :
    attempts p (k.modifySocket sock f) js = attempts p k js := by
  unfold Conn.modifySocket
  split
  · next s hs =>
    have hcount := Map.count_set k.sockets (ClientSocket.dials p) sock (f s)
    have hsame : ClientSocket.dials p (f s) = ClientSocket.dials p s := by
      simp only [ClientSocket.dials, (hf s).1, (hf s).2]
    rw [hs, Option.any_some, hsame] at hcount
    unfold attempts
    dsimp only
    omega
  · rfl

theorem attempts_clearHelloTimer (p : Owner → Bool) (k : Conn) (js : List (Job ν)) :
    attempts p k.clearHelloTimer js = attempts p k js := by
  unfold Conn.clearHelloTimer
  split
  · exact attempts_modifySocket p k js _ fun s => ⟨rfl, rfl⟩
  · rfl

theorem pace_modifySocket (k : Conn) (sock : ClientSocketId) (f : ClientSocket → ClientSocket) :
    (k.modifySocket sock f).pace = k.pace := by
  unfold Conn.modifySocket
  split <;> rfl

theorem pace_clearHelloTimer (k : Conn) : k.clearHelloTimer.pace = k.pace := by
  unfold Conn.clearHelloTimer
  split
  · exact pace_modifySocket k _ _
  · rfl

/-- A socket is touched, but neither its owner nor whether its handshake is settled. -/
theorem Tokens.touch {k : Conn} {js : List (Job ν)} (h : Tokens debt k js) (sock : ClientSocketId)
    {f : ClientSocket → ClientSocket}
    (hf : ∀ s, (f s).settled = s.settled ∧ (f s).owner = s.owner) :
    Tokens debt (k.modifySocket sock f) js := by
  refine h.move (pace_modifySocket k sock f) (.refl js) ?_
  intro p
  rw [attempts_modifySocket p k js sock hf]

theorem attempts_push_failed (p : Owner → Bool) (k : Conn) (js : List (Job ν)) (owner : Owner)
    (err : ConnectError) :
    attempts p k (js ++ [.dialed owner (.error err)]) = attempts p k js + (p owner).toNat := by
  unfold attempts
  rw [List.countP_append, List.countP_singleton]
  cases hp : p owner with
  | true => simp [Job.dialFailed, hp]; omega
  | false => simp [Job.dialFailed, hp]

/-- A failure that is still to be reported. -/
theorem Tokens.fail {k : Conn} {js : List (Job ν)} {owner : Owner} (h : Tokens (some owner) k js)
    (err : ConnectError) : Tokens none k (js ++ [.dialed owner (.error err)]) := by
  refine h.move rfl (.push (fun _ => rfl) rfl rfl) ?_
  intro p
  rw [attempts_push_failed]
  simp

theorem attempts_open (p : Owner → Bool) {k k' : Conn} (js : List (Job ν)) {owner : Owner}
    (hfresh : k.sockets.get? k.nextSocket = none) (hensuring : k'.ensuring = k.ensuring)
    (hsockets : k'.sockets = k.sockets.set k.nextSocket { owner, helloArmed := true }) :
    attempts p k' js = attempts p k js + (p owner).toNat := by
  have hcount := Map.count_set k.sockets (ClientSocket.dials p) k.nextSocket
    { owner, helloArmed := true }
  have hnew : ClientSocket.dials p { owner, helloArmed := true } = p owner := by
    simp [ClientSocket.dials]
  rw [hfresh, Option.any_none, Bool.toNat_false, hnew] at hcount
  unfold attempts
  rw [hensuring, hsockets]
  omega

theorem attempts_ensure (p : Owner → Bool) (k : Conn) (js : List (Job ν)) (owner : Owner) :
    attempts p { k with ensuring := k.ensuring ++ [owner] } js = attempts p k js + (p owner).toNat := by
  unfold attempts
  dsimp only
  rw [List.countP_append]
  have hone : [owner].countP p = (p owner).toNat := by
    cases hp : p owner with
    | true => simp [hp]
    | false => simp [hp]
  omega

theorem openSocket_tokens {owner : Owner} (hopen : st.conn.userClosed = false)
    (hfresh : st.conn.sockets.get? st.conn.nextSocket = none)
    (h : st.meets (Tokens (some owner))) : (openSocket st owner).meets (Tokens none) := by
  unfold openSocket
  dsimp only
  rw [if_neg (by simp [hopen])]
  refine Tokens.move h rfl (.refl _) ?_
  intro p
  simp only [Option.any_none, Bool.toNat_false, Nat.add_zero, Option.any_some]
  exact attempts_open p st.links hfresh rfl rfl

/-- `doConnect` puts the attempt back. -/
theorem doConnect_tokens {owner : Owner} (hopen : st.conn.userClosed = false)
    (hfresh : st.conn.sockets.get? st.conn.nextSocket = none)
    (h : st.meets (Tokens (some owner))) : (doConnect env st owner).meets (Tokens none) := by
  unfold doConnect
  split
  · refine Tokens.move h rfl (.refl _) ?_
    intro p
    simp only [Option.any_none, Bool.toNat_false, Nat.add_zero, Option.any_some]
    exact attempts_ensure p st.conn st.links owner
  · exact openSocket_tokens hopen hfresh h
  · rw [meets_push]
    exact Tokens.fail h _

/-! ### Settling a handshake -/

theorem get?_modifySocket (k : Conn) (sock s : ClientSocketId) (f : ClientSocket → ClientSocket) :
    (k.modifySocket sock f).sockets.get? s =
      if s = sock then (k.sockets.get? sock).map f else k.sockets.get? s := by
  unfold Conn.modifySocket
  split
  · next x hx =>
    dsimp only
    rw [Map.get?_set, hx]
    rfl
  · next hnone =>
    by_cases hs : s = sock
    · rw [if_pos hs, hs, hnone]
      rfl
    · rw [if_neg hs]

/-- Clearing the deadline touches nothing of a socket but the deadline. -/
theorem get?_clearHelloTimer (k : Conn) (s : ClientSocketId) :
    ∃ armed : Bool → Bool, k.clearHelloTimer.sockets.get? s =
      (k.sockets.get? s).map fun x => { x with helloArmed := armed x.helloArmed } := by
  unfold Conn.clearHelloTimer
  split
  · next sock _ =>
    rw [get?_modifySocket]
    by_cases hs : s = sock
    · exact ⟨fun _ => false, by rw [if_pos hs, hs]⟩
    · exact ⟨id, by rw [if_neg hs]; simp⟩
  · exact ⟨id, by simp⟩

/-- A handshake that is settled is no attempt any more. -/
theorem attempts_settle (p : Owner → Bool) {k : Conn} (js : List (Job ν)) {sock : ClientSocketId}
    {s : ClientSocket} (hs : k.sockets.get? sock = some s) (hopen : s.settled = false)
    {f : ClientSocket → ClientSocket} (hf : ∀ s, (f s).settled = true) :
    attempts p (k.clearHelloTimer.modifySocket sock f) js + (p s.owner).toNat = attempts p k js := by
  obtain ⟨armed, hget⟩ := get?_clearHelloTimer k sock
  rw [hs, Option.map_some] at hget
  have hcount := Map.count_set k.clearHelloTimer.sockets (ClientSocket.dials p) sock
    (f { s with helloArmed := armed s.helloArmed })
  have hold : ClientSocket.dials p { s with helloArmed := armed s.helloArmed } = p s.owner := by
    simp [ClientSocket.dials, hopen]
  have hnew : ClientSocket.dials p (f { s with helloArmed := armed s.helloArmed }) = false := by
    simp [ClientSocket.dials, hf]
  rw [hget, Option.any_some, hold, hnew] at hcount
  have hsame := attempts_clearHelloTimer p k js
  unfold Conn.modifySocket
  rw [hget]
  unfold attempts at hsame ⊢
  dsimp only
  simp only [Bool.toNat_false] at hcount
  omega

theorem pace_settle (k : Conn) (sock : ClientSocketId) (f : ClientSocket → ClientSocket) :
    (k.clearHelloTimer.modifySocket sock f).pace = k.pace :=
  (pace_modifySocket _ _ _).trans (pace_clearHelloTimer k)

theorem failHandshake_tokens (sock : ClientSocketId) (err : ConnectError)
    (h : st.meets (Tokens debt)) : (failHandshake st sock err).meets (Tokens debt) := by
  unfold failHandshake
  split
  · next s hs =>
    split
    · exact h
    · next hopen =>
      rw [meets_setConn_push]
      refine Tokens.move h (pace_settle _ _ _) (.push (fun _ => rfl) rfl rfl) ?_
      intro p
      have hsettle := attempts_settle p st.links hs (by simpa using hopen)
        (f := fun s => { s with settled := true, destroyed := true }) (fun _ => rfl)
      have hpush := attempts_push_failed p (st.conn.clearHelloTimer.modifySocket sock fun s =>
        { s with settled := true, destroyed := true }) st.links s.owner err
      show attempts p _ (st.links ++ [.dialed s.owner (.error err)]) + _ = _
      omega
  · exact h

/-- An unsettled handshake is an attempt of its owner. -/
theorem attempts_of_unsettled {k : Conn} (js : List (Job ν)) {sock : ClientSocketId}
    {s : ClientSocket} (hs : k.sockets.get? sock = some s) (hopen : s.settled = false)
    {p : Owner → Bool} (hp : p s.owner = true) : 0 < attempts p k js := by
  have hpos : 0 < k.sockets.count (ClientSocket.dials p) :=
    (Map.count_pos_iff _ _).mpr ⟨sock, s, hs, by simp [ClientSocket.dials, hopen, hp]⟩
  unfold attempts
  omega

/-- While the catch of a backoff timer is queued and nobody connects, nobody dials. -/
theorem Tokens.quiet {k : Conn} {js : List (Job ν)} (h : Tokens none k js)
    (hcatch : ∃ j ∈ js, Job.isCatch j = true) (hnone : k.connecting = none) : busy k js = 0 :=
  h.idle hnone (h.calm hcatch hnone).2

theorem acceptWelcome_tokens {sock : ClientSocketId} {s : ClientSocket} (frame : Inbound ν)
    (hs : st.conn.sockets.get? sock = some s) (hopen : s.settled = false)
    (h : st.meets (Tokens none)) : (acceptWelcome st sock s.owner frame).meets (Tokens none) := by
  have hone : 0 < attempts (fun _ => true) st.conn st.links :=
    attempts_of_unsettled _ hs hopen rfl
  have htotal := h.total
  unfold acceptWelcome
  extract_lets k₀ k info
  have hsettle : ∀ p, attempts p k st.links + (p s.owner).toNat = attempts p st.conn st.links :=
    fun p => attempts_settle p st.links hs hopen fun _ => rfl
  have hpace : k₀.pace = st.conn.pace := pace_settle _ _ _
  simp only [Conn.pace, Prod.mk.injEq] at hpace
  obtain ⟨hconnecting, hsleeps, hrenames, honline⟩ := hpace
  have hdone : ∀ p : Owner → Bool, (st.links ++ [Job.welcomed s.owner info]).countP (Job.dialDone p) =
      st.links.countP (Job.dialDone p) + (p s.owner).toNat := by
    intro p
    rw [List.countP_append]
    have hlast : [Job.welcomed s.owner info].countP (Job.dialDone p) = (p s.owner).toNat := by
      cases hp : p s.owner with
      | true => simp [Job.dialDone, hp]
      | false => simp [Job.dialDone, hp]
    omega
  have hattempts : ∀ p, attempts p k (st.links ++ [Job.welcomed s.owner info]) =
      attempts p k st.links := by
    intro p
    simp [attempts, Job.dialFailed]
  rw [meets_push]
  show Tokens none k (st.links ++ [Job.welcomed s.owner info])
  refine ⟨?_, ?_, ?_, fun _ _ => rfl, ?_, ?_⟩
  · have hall := hsettle fun _ => true
    have hrest := hattempts fun _ => true
    unfold busy at htotal ⊢
    have hk : k.sleeps = st.conn.sleeps := hsleeps
    have hr : k.renames = st.conn.renames := hrenames
    have herr : (st.links ++ [Job.welcomed s.owner info]).countP Job.isConnectError =
        st.links.countP Job.isConnectError := by simp [Job.isConnectError]
    have hon : k.online.toNat = 1 := rfl
    rw [hk, hr, hrest, herr, hon]
    simp only [Bool.toNat_true, Option.isSome_none, Bool.toNat_false] at *
    omega
  · have hconn := h.connect
    have := hsettle Owner.isConnect
    have hk : k.sleeps = st.conn.sleeps := hsleeps
    have hc : k.connecting.isSome = st.conn.connecting.isSome := hconnecting
    have hcd : (st.links ++ [Job.welcomed s.owner info]).countP Job.isConnectDone =
        st.links.countP Job.isConnectDone := by simp [Job.isConnectDone]
    rw [hattempts, hdone, hk, hc, hcd]
    omega
  · intro c
    have hren := h.rename c
    have := hsettle (Owner.isRename c)
    have hr : k.renames = st.conn.renames := hrenames
    rw [hattempts, hdone, hr]
    omega
  · rw [List.pairwise_append]
    refine ⟨h.order, List.pairwise_singleton _ _, ?_⟩
    intro a _ b hb _
    rw [List.mem_singleton] at hb
    rw [hb]
    rfl
  · -- the catch of a timer is not in the queue while somebody dials and nobody connects
    rintro ⟨j, hj, hc⟩ hnone
    exfalso
    have hcatch : ∃ j ∈ st.links, Job.isCatch j = true := by
      rcases List.mem_append.mp hj with hj | hj
      · exact ⟨j, hj, hc⟩
      · rw [List.mem_singleton] at hj
        rw [hj] at hc
        cases hc
    have hnone : st.conn.connecting = none := by
      have hc : k.connecting.isSome = st.conn.connecting.isSome := hconnecting
      rw [hnone] at hc
      simpa using hc.symm
    have hquiet := Tokens.quiet h hcatch hnone
    unfold busy at hquiet
    omega

/-- A microtask takes a failed dial from the queue. -/
theorem Tokens.take {k : Conn} {js : List (Job ν)} {owner : Owner} {err : ConnectError}
    (h : Tokens none k (.dialed owner (.error err) :: js)) : Tokens (some owner) k js := by
  refine h.move rfl (.pop (fun _ => rfl) rfl) ?_
  intro p
  have hone : attempts p k (.dialed owner (.error err) :: js) = attempts p k js + (p owner).toNat := by
    unfold attempts
    cases hp : p owner with
    | true => simp [Job.dialFailed, hp]; omega
    | false => simp [Job.dialFailed, hp]
  rw [hone]
  simp

/-- A job that counts for nothing is run. -/
theorem Tokens.drop {k : Conn} {js : List (Job ν)} {j : Job ν} (h : Tokens debt k (j :: js))
    (hfailed : ∀ p, Job.dialFailed p j = false) (hdone : ∀ p, Job.dialDone p j = false)
    (hconnect : Job.isConnectDone j = false) : Tokens debt k js := by
  refine h.move rfl (.pop hdone hconnect) ?_
  intro p
  simp [attempts, hfailed]

/-- A job that counts for nothing is queued. -/
theorem Tokens.add {k : Conn} {js : List (Job ν)} {j : Job ν} (h : Tokens debt k js)
    (hfailed : ∀ p, Job.dialFailed p j = false) (hdone : ∀ p, Job.dialDone p j = false)
    (hconnect : Job.isConnectDone j = false) (hcatch : Job.isCatch j = false) :
    Tokens debt k (js ++ [j]) := by
  refine h.move rfl (.push hdone hconnect hcatch) ?_
  intro p
  simp [attempts, hfailed]

theorem Tokens.of_same {k k' : Conn} {js : List (Job ν)} (h : Tokens debt k js)
    (hpace : k'.pace = k.pace) (hensuring : k'.ensuring = k.ensuring)
    (hsockets : k'.sockets = k.sockets) : Tokens debt k' js := by
  refine h.move hpace (.refl js) ?_
  intro p
  simp only [attempts, hensuring, hsockets]

/-! ### The promise of `connect()` -/

section Promise

variable {k k' : Conn} {js : List (Job ν)} {c : CallId}

/-- A promise with a debt does not sleep. -/
theorem Tokens.not_sleeps (h : Tokens (some .connect) k js) : k.sleeps = false := by
  have hconn := h.connect
  have hle : k.connecting.isSome.toNat ≤ 1 := Bool.toNat_le _
  simp only [Option.any_some, Owner.isConnect, decide_true, Bool.toNat_true] at hconn
  cases hs : k.sleeps with
  | false => rfl
  | true =>
      rw [hs, Bool.toNat_true] at hconn
      omega

/-- The promise fails. -/
theorem Tokens.report (h : Tokens (some .connect) k js) (err : ConnectError) :
    Tokens none k (js ++ [.connectDone (.error err)]) := by
  have hatt : ∀ p, attempts p k (js ++ [.connectDone (.error err)]) = attempts p k js := by
    intro p
    simp [attempts, Job.dialFailed]
  have hdone : ∀ p, (js ++ [Job.connectDone (.error err)]).countP (Job.dialDone p) =
      js.countP (Job.dialDone p) := by
    intro p
    simp [Job.dialDone]
  refine ⟨?_, ?_, ?_, ?_, ?_, ?_⟩
  · have htotal := h.total
    unfold busy at htotal ⊢
    rw [hatt]
    simp [Job.isConnectError] at htotal ⊢
    omega
  · have hconn := h.connect
    rw [hatt, hdone]
    simp [Job.isConnectDone, Owner.isConnect] at hconn ⊢
    omega
  · intro c
    have hren := h.rename c
    rw [hatt, hdone]
    simp [Owner.isRename] at hren ⊢
    omega
  · intro c
    rw [hdone]
    exact h.won c
  · rw [List.pairwise_append]
    refine ⟨h.order, List.pairwise_singleton _ _, ?_⟩
    intro a _ b hb _
    rw [List.mem_singleton] at hb
    rw [hb]
    rfl
  · rintro ⟨j, hj, hc⟩
    refine h.calm ?_
    rcases List.mem_append.mp hj with hj | hj
    · exact ⟨j, hj, hc⟩
    · rw [List.mem_singleton] at hj
      rw [hj] at hc
      cases hc

/-- A step on the way to success takes the place of the one before it. -/
theorem Tokens.swap {j j' : Job ν} (h : Tokens none k (j :: js)) (hpace : k'.pace = k.pace)
    (hensuring : k'.ensuring = k.ensuring) (hsockets : k'.sockets = k.sockets)
    (hfailed : ∀ p, Job.dialFailed p j = false) (hfailed' : ∀ p, Job.dialFailed p j' = false)
    (hrename : ∀ c, Job.dialDone (Owner.isRename c) j' = Job.dialDone (Owner.isRename c) j)
    (hpromise : (Job.dialDone Owner.isConnect j').toNat + (Job.isConnectDone j').toNat =
      (Job.dialDone Owner.isConnect j).toNat + (Job.isConnectDone j).toNat)
    (herror : Job.isConnectError j' = false) (hcatch : Job.isCatch j' = false) :
    Tokens none k' (js ++ [j']) := by
  simp only [Conn.pace, Prod.mk.injEq] at hpace
  obtain ⟨hconnecting, hsleeps, hrenames, honline⟩ := hpace
  have hfront : ∀ p : Job ν → Bool, (j :: js).countP p = js.countP p + (p j).toNat := by
    intro p
    cases hp : p j <;> simp [hp]
  have hback : ∀ p : Job ν → Bool, (js ++ [j']).countP p = js.countP p + (p j').toNat := by
    intro p
    cases hp : p j' <;> simp [hp]
  have hatt : ∀ p, attempts p k' (js ++ [j']) = attempts p k (j :: js) := by
    intro p
    unfold attempts
    rw [hensuring, hsockets, hfront, hback, hfailed, hfailed']
  refine ⟨?_, ?_, ?_, ?_, ?_, ?_⟩
  · have htotal := h.total
    unfold busy at htotal ⊢
    rw [hfront] at htotal
    rw [hatt, hback, herror, hsleeps, hrenames, honline]
    simp only [Bool.toNat_false]
    omega
  · have hconn := h.connect
    rw [hfront, hfront] at hconn
    rw [hatt, hback, hback, hsleeps, hconnecting]
    omega
  · intro c
    have hren := h.rename c
    rw [hfront] at hren
    rw [hatt, hback, hrename, hrenames]
    exact hren
  · intro c
    have hwon := h.won c
    rw [hfront] at hwon
    rw [hback, hrename, honline]
    exact hwon
  · rw [List.pairwise_append]
    refine ⟨(List.pairwise_cons.mp h.order).2, List.pairwise_singleton _ _, ?_⟩
    intro a _ b hb _
    rw [List.mem_singleton] at hb
    rw [hb, hcatch]
  · rintro ⟨j₁, hj₁, hc⟩ hnone
    rw [honline, Conn.free, hrenames]
    refine h.calm ?_ ?_
    · rcases List.mem_append.mp hj₁ with hj₁ | hj₁
      · exact ⟨j₁, List.mem_cons_of_mem _ hj₁, hc⟩
      · rw [List.mem_singleton] at hj₁
        rw [hj₁, hcatch] at hc
        cases hc
    · rw [hnone] at hconnecting
      simpa using hconnecting.symm

/-- A token of the promise stands for the promise. -/
theorem Tokens.promised {j : Job ν} (h : Tokens debt k (j :: js)) (hj : j.isToken = true) :
    k.connecting.isSome = true := by
  have hconn := h.connect
  have hfront : ∀ p : Job ν → Bool, (j :: js).countP p = js.countP p + (p j).toNat := by
    intro p
    cases hp : p j <;> simp [hp]
  unfold attempts at hconn
  rw [hfront, hfront, hfront] at hconn
  have hone : 1 ≤ (Job.dialFailed Owner.isConnect j).toNat + (Job.dialDone Owner.isConnect j).toNat +
      (Job.isConnectDone j).toNat := by
    simp only [Job.isToken, Bool.or_eq_true] at hj
    rcases hj with (hj | hj) | hj
    · rw [hj, Bool.toNat_true]
      omega
    · rw [hj, Bool.toNat_true]
      omega
    · rw [hj, Bool.toNat_true]
      omega
  cases hsome : k.connecting.isSome with
  | true => rfl
  | false =>
      rw [hsome, Bool.toNat_false] at hconn
      omega

/-- The parts that stay when only the promise changes. -/
structure SamePlace (k k' : Conn) : Prop where
  ensuring : k'.ensuring = k.ensuring
  sockets : k'.sockets = k.sockets
  renames : k'.renames = k.renames
  online : k'.online = k.online

theorem SamePlace.attempts {k k' : Conn} (h : SamePlace k k') (p : Owner → Bool)
    (js : List (Job ν)) : attempts p k' js = PiMesh.attempts p k js := by
  unfold PiMesh.attempts
  rw [h.ensuring, h.sockets]

/-- The promise sleeps, wakes up or starts: the debt becomes a sleep, or the other way. -/
theorem Tokens.turn {debt' : Option Owner} (h : Tokens debt k js) (hplace : SamePlace k k')
    (hconnect : ∀ o ∈ debt, o = .connect) (hconnect' : ∀ o ∈ debt', o = .connect)
    (hbusy : k'.sleeps.toNat + debt'.isSome.toNat + busy k js + k.online.toNat ≤
      k.sleeps.toNat + 1)
    (hpromise : k'.sleeps.toNat + debt'.isSome.toNat + k.connecting.isSome.toNat =
      k.sleeps.toNat + debt.isSome.toNat + k'.connecting.isSome.toNat)
    (hsome : k'.connecting ≠ none) : Tokens debt' k' js := by
  have hany : ∀ d : Option Owner, (∀ o ∈ d, o = .connect) →
      d.any Owner.isConnect = d.isSome ∧ ∀ c, d.any (Owner.isRename c) = false := by
    intro d hd
    cases d with
    | none => exact ⟨rfl, fun _ => rfl⟩
    | some o =>
        obtain rfl := hd o rfl
        exact ⟨rfl, fun _ => rfl⟩
  refine ⟨?_, ?_, ?_, ?_, h.order, fun _ hnone => absurd hnone hsome⟩
  · unfold busy at hbusy ⊢
    rw [hplace.attempts, hplace.renames, hplace.online]
    omega
  · have hconn := h.connect
    rw [(hany _ hconnect).1] at hconn
    rw [hplace.attempts, (hany _ hconnect').1]
    omega
  · intro c
    have hren := h.rename c
    rw [(hany _ hconnect).2] at hren
    rw [hplace.attempts, hplace.renames, (hany _ hconnect').2]
    exact hren
  · intro c
    rw [hplace.online]
    exact h.won c

/-- The promise is settled, and those who wait for it hear of it. -/
theorem Tokens.settle {r : Except ConnectError (WelcomeInfo ν)} (h : Tokens none k (.connectDone r :: js))
    (hplace : SamePlace k k') (hnone : k'.connecting = none) {news : List (Job ν)}
    (hfailed : ∀ j ∈ news, ∀ p, Job.dialFailed p j = false)
    (hdone : ∀ j ∈ news, ∀ p, Job.dialDone p j = false)
    (hconnect : ∀ j ∈ news, Job.isConnectDone j = false)
    (hcatch : (∃ j ∈ news, Job.isCatch j = true) → ∃ err, r = .error err) :
    Tokens none k' (js ++ news) := by
  have hzero : ∀ p : Job ν → Bool, (∀ j ∈ news, p j = false) → (js ++ news).countP p = js.countP p := by
    intro p hp
    rw [List.countP_append]
    have : news.countP p = 0 := by
      rw [List.countP_eq_zero]
      intro j hj
      simp [hp j hj]
    omega
  have herror : ∀ j ∈ news, Job.isConnectError j = false := by
    intro j hj
    have := hconnect j hj
    cases j with
    | connectDone r => cases this
    | _ => rfl
  have hsleeps : k'.sleeps = false := by simp [Conn.sleeps, hnone]
  have hatt : ∀ p, attempts p k' (js ++ news) = attempts p k (.connectDone r :: js) := by
    intro p
    rw [hplace.attempts]
    unfold attempts
    rw [hzero _ fun j hj => hfailed j hj p, List.countP_cons_of_neg (by simp [Job.dialFailed])]
  have hdones : ∀ p, (js ++ news).countP (Job.dialDone p) =
      (Job.connectDone r :: js).countP (Job.dialDone p) := by
    intro p
    rw [hzero _ fun j hj => hdone j hj p, List.countP_cons_of_neg (by simp [Job.dialDone])]
  have hconn := h.connect
  have hcd : (Job.connectDone r :: js).countP Job.isConnectDone = js.countP Job.isConnectDone + 1 :=
    List.countP_cons_of_pos rfl
  have hle : k.connecting.isSome.toNat ≤ 1 := Bool.toNat_le _
  simp only [Option.any_none, Bool.toNat_false] at hconn
  have hce : js.countP Job.isConnectError ≤ js.countP Job.isConnectDone := by
    refine List.countP_mono_left fun j _ hj => ?_
    unfold Job.isConnectError at hj
    split at hj
    · rfl
    · cases hj
  -- the token in front was the only one, so no other is in the queue
  have hnotoken : ∀ j ∈ js, Job.isToken j = false := by
    intro j hj
    have hf : (Job.connectDone r :: js).countP (Job.dialFailed Owner.isConnect) = 0 := by
      unfold attempts at hconn
      omega
    have hd : (Job.connectDone r :: js).countP (Job.dialDone Owner.isConnect) = 0 := by omega
    have hc : js.countP Job.isConnectDone = 0 := by omega
    rw [List.countP_eq_zero] at hf hd hc
    have hf := hf j (List.mem_cons_of_mem _ hj)
    have hd := hd j (List.mem_cons_of_mem _ hj)
    have hc := hc j hj
    simp only [Bool.not_eq_true] at hf hd hc
    simp [Job.isToken, hf, hd, hc]
  refine ⟨?_, ?_, ?_, ?_, ?_, ?_⟩
  · have htotal := h.total
    have hle' : js.countP Job.isConnectError ≤ (Job.connectDone r :: js).countP Job.isConnectError :=
      List.Sublist.countP_le (List.sublist_cons_self _ _)
    unfold busy at htotal ⊢
    rw [hatt, hzero _ herror, hsleeps, hplace.renames, hplace.online]
    simp only [Bool.toNat_false] at *
    omega
  · rw [hatt, hdones, hzero _ hconnect, hsleeps, hnone]
    simp only [Bool.toNat_false, Option.any_none, Option.isSome_none] at *
    omega
  · intro c
    rw [hatt, hdones, hplace.renames]
    exact h.rename c
  · intro c
    rw [hdones, hplace.online]
    exact h.won c
  · have horder := List.pairwise_cons.mp h.order
    rw [List.pairwise_append]
    refine ⟨horder.2, ?_, ?_⟩
    · refine List.pairwise_of_forall_mem_list ?_
      intro a ha b _ htoken
      have : Job.isToken a = false := by
        simp [Job.isToken, hfailed a ha, hdone a ha, hconnect a ha]
      rw [this] at htoken
      cases htoken
    · intro a ha b _ htoken
      rw [hnotoken a ha] at htoken
      cases htoken
  · rintro ⟨j, hj, hc⟩ _
    have hnews : ∃ j ∈ news, Job.isCatch j = true := by
      rcases List.mem_append.mp hj with hj | hj
      · have := (List.pairwise_cons.mp h.order).1 j hj rfl
        rw [this] at hc
        cases hc
      · exact ⟨j, hj, hc⟩
    obtain ⟨err, rfl⟩ := hcatch hnews
    -- the failure was counted, so nothing else is on its way and the client is offline
    have htotal := h.total
    have hone : 1 ≤ (Job.connectDone (.error err) :: js).countP Job.isConnectError := by
      simp [Job.isConnectError]
    have hoff : k.online = false := by
      cases hon : k.online with
      | false => rfl
      | true =>
          rw [hon, Bool.toNat_true] at htotal
          unfold busy at htotal
          omega
    refine ⟨by rw [hplace.online]; exact hoff, ?_⟩
    by_contra hfree
    have hfree : ¬ k'.free := hfree
    have hbusy : 1 ≤ busy k' (js ++ news) + k'.online.toNat := one_of_not_free
      (fun c => by
        have hren := h.rename c
        simp only [Option.any_none, Bool.toNat_false, Nat.add_zero] at hren
        rw [hatt, hdones, hplace.renames]
        exact hren)
      (fun c => by
        rw [hdones, hplace.online]
        exact h.won c) hfree
    rw [hplace.online, hoff] at hbusy
    unfold busy at hbusy htotal
    rw [hatt, hzero _ herror, hsleeps, hplace.renames] at hbusy
    simp at htotal hbusy
    omega

end Promise

/-! ### Renames -/

section Renames

variable {k k' : Conn} {js : List (Job ν)} {c : CallId}

/-- Only the stage of one rename changed. -/
structure OneStage (c : CallId) (k k' : Conn) : Prop where
  ensuring : k'.ensuring = k.ensuring
  sockets : k'.sockets = k.sockets
  connecting : k'.connecting = k.connecting
  online : k'.online = k.online
  others : ∀ c', c' ≠ c → k'.renames.get? c' = k.renames.get? c'
  parked : k'.renames.count RenameStage.isParked +
      ((k.renames.get? c).any RenameStage.isParked).toNat =
    k.renames.count RenameStage.isParked + ((k'.renames.get? c).any RenameStage.isParked).toNat

theorem OneStage.set (k : Conn) (c : CallId) (stage : RenameStage) :
    OneStage c k { k with renames := k.renames.set c stage } := by
  refine ⟨rfl, rfl, rfl, rfl, fun c' hc => Map.get?_set_ne _ _ hc, ?_⟩
  have hcount := Map.count_set k.renames RenameStage.isParked c stage
  dsimp only
  rw [Map.get?_set_self, Option.any_some]
  exact hcount

theorem OneStage.delete (k : Conn) (c : CallId) :
    OneStage c k { k with renames := k.renames.delete c } := by
  refine ⟨rfl, rfl, rfl, rfl, fun c' hc => Map.get?_delete_ne _ hc, ?_⟩
  have hcount := Map.count_delete k.renames RenameStage.isParked c
  dsimp only
  rw [Map.get?_delete_self, Option.any_none, Bool.toNat_false]
  omega

theorem OneStage.attempts (h : OneStage c k k') (p : Owner → Bool) (js : List (Job ν)) :
    attempts p k' js = PiMesh.attempts p k js := by
  unfold PiMesh.attempts
  rw [h.ensuring, h.sockets]

theorem OneStage.sleeps (h : OneStage c k k') : k'.sleeps = k.sleeps := by
  unfold Conn.sleeps
  rw [h.connecting]

/-- The stages of all renames are idle if the one that changed is. -/
theorem OneStage.free (h : OneStage c k k') (hfree : k.free)
    (hidle : RenameStage.isIdle (k'.renames.get? c) = true) : k'.free := by
  intro c'
  by_cases hc : c' = c
  · rw [hc]
    exact hidle
  · rw [h.others c' hc]
    exact hfree c'

/-- A rename moves on: the debt is its own. -/
theorem Tokens.stage {debt' : Option Owner} (h : Tokens debt k js) (hone : OneStage c k k')
    (hdebt : ∀ o ∈ debt, o = .rename c) (hdebt' : ∀ o ∈ debt', o = .rename c)
    (hbusy : busy k js + ((k'.renames.get? c).any RenameStage.isParked).toNat + debt'.isSome.toNat +
      k.online.toNat ≤ 1 + ((k.renames.get? c).any RenameStage.isParked).toNat)
    (hdial : ((k.renames.get? c).any RenameStage.isDialing).toNat + debt'.isSome.toNat =
      ((k'.renames.get? c).any RenameStage.isDialing).toNat + debt.isSome.toNat)
    (hcalm : (∃ j ∈ js, Job.isCatch j = true) → k.connecting = none →
      RenameStage.isIdle (k'.renames.get? c) = true) : Tokens debt' k' js := by
  have hany : ∀ d : Option Owner, (∀ o ∈ d, o = .rename c) →
      d.any Owner.isConnect = false ∧ d.any (Owner.isRename c) = d.isSome ∧
        ∀ c', c' ≠ c → d.any (Owner.isRename c') = false := by
    intro d hd
    cases d with
    | none => exact ⟨rfl, rfl, fun _ _ => rfl⟩
    | some o =>
        obtain rfl := hd o rfl
        refine ⟨rfl, by simp [Owner.isRename], ?_⟩
        intro c' hc
        simpa [Owner.isRename] using fun heq => hc heq.symm
  refine ⟨?_, ?_, ?_, ?_, h.order, ?_⟩
  · have hparked := hone.parked
    unfold busy at hbusy ⊢
    rw [hone.attempts, hone.sleeps, hone.online]
    omega
  · have hconn := h.connect
    rw [(hany _ hdebt).1] at hconn
    rw [hone.attempts, hone.sleeps, hone.connecting, (hany _ hdebt').1]
    exact hconn
  · intro c'
    have hren := h.rename c'
    rw [hone.attempts]
    by_cases hc : c' = c
    · subst hc
      rw [(hany _ hdebt).2.1] at hren
      rw [(hany _ hdebt').2.1]
      omega
    · rw [(hany _ hdebt).2.2 c' hc] at hren
      rw [(hany _ hdebt').2.2 c' hc, hone.others c' hc]
      exact hren
  · intro c'
    rw [hone.online]
    exact h.won c'
  · intro hcatch hnone
    rw [hone.connecting] at hnone
    rw [hone.online]
    exact ⟨(h.calm hcatch hnone).1, hone.free (h.calm hcatch hnone).2 (hcalm hcatch hnone)⟩

/-- A rename that succeeded returns. -/
theorem Tokens.return {info : WelcomeInfo ν} (h : Tokens none k (.dialed (.rename c) (.ok info) :: js))
    (hone : OneStage c k k') (hgone : k'.renames.get? c = none) : Tokens none k' js := by
  have hatt : ∀ p, attempts p k' js = attempts p k (.dialed (.rename c) (.ok info) :: js) := by
    intro p
    rw [hone.attempts]
    unfold attempts
    rw [List.countP_cons_of_neg (by simp [Job.dialFailed])]
  have hself : (Job.dialed (.rename c) (.ok info) :: js).countP (Job.dialDone (Owner.isRename c)) =
      js.countP (Job.dialDone (Owner.isRename c)) + 1 :=
    List.countP_cons_of_pos (by simp [Job.dialDone, Owner.isRename])
  have hother : ∀ c', c' ≠ c → (Job.dialed (.rename c) (.ok info) :: js).countP
      (Job.dialDone (Owner.isRename c')) = js.countP (Job.dialDone (Owner.isRename c')) := by
    intro c' hc
    exact List.countP_cons_of_neg (by simpa [Job.dialDone, Owner.isRename] using fun heq => hc heq.symm)
  have hrenc := h.rename c
  have hle : ((k.renames.get? c).any RenameStage.isDialing).toNat ≤ 1 := Bool.toNat_le _
  simp only [Option.any_none, Bool.toNat_false, hself] at hrenc
  refine ⟨?_, ?_, ?_, ?_, (List.pairwise_cons.mp h.order).2, ?_⟩
  · have htotal := h.total
    have hparked := hone.parked
    rw [hgone, Option.any_none, Bool.toNat_false] at hparked
    have herr : (Job.dialed (.rename c) (.ok info) :: js).countP Job.isConnectError =
        js.countP Job.isConnectError := List.countP_cons_of_neg (by simp [Job.isConnectError])
    unfold busy at htotal ⊢
    rw [herr] at htotal
    rw [hatt, hone.sleeps, hone.online]
    omega
  · have hconn := h.connect
    rw [List.countP_cons_of_neg (by simp [Job.dialDone, Owner.isConnect]),
      List.countP_cons_of_neg (by simp [Job.isConnectDone])] at hconn
    rw [hatt, hone.sleeps, hone.connecting]
    exact hconn
  · intro c'
    rw [hatt]
    by_cases hc : c' = c
    · subst hc
      rw [hgone]
      simp only [Option.any_none, Bool.toNat_false]
      omega
    · have hren := h.rename c'
      rw [hother c' hc] at hren
      rw [hone.others c' hc]
      exact hren
  · intro c' hpos
    rw [hone.online]
    by_cases hc : c' = c
    · subst hc
      exact h.won c' (by omega)
    · exact h.won c' (by rw [hother c' hc]; exact hpos)
  · rintro ⟨j, hj, hcatch⟩ hnone
    rw [hone.connecting] at hnone
    have hcalm := h.calm ⟨j, List.mem_cons_of_mem _ hj, hcatch⟩ hnone
    rw [hone.online]
    refine ⟨hcalm.1, hone.free hcalm.2 ?_⟩
    rw [hgone]
    rfl

/-- A client that is online lets go of its connection, with no rename under way. -/
theorem Tokens.leave (h : Tokens none k js) (hon : k.online = true) (hfree : k.free)
    (hensuring : k'.ensuring = k.ensuring) (hsockets : k'.sockets = k.sockets)
    (hconnecting : k'.connecting = k.connecting) (hrenames : k'.renames = k.renames)
    (hoff : k'.online = false) :
    Tokens none k' js ∧ busy k' js = 0 ∧
      ((∃ j ∈ js, Job.isCatch j = true) → k'.connecting ≠ none) := by
  have hatt : ∀ p, attempts p k' js = attempts p k js := by
    intro p
    unfold attempts
    rw [hensuring, hsockets]
  have hsleeps : k'.sleeps = k.sleeps := by
    unfold Conn.sleeps
    rw [hconnecting]
  have htotal := h.total
  rw [hon, Bool.toNat_true] at htotal
  have hbusy : busy k' js = busy k js := by
    unfold busy
    rw [hatt, hsleeps, hrenames]
  have hnocatch : (∃ j ∈ js, Job.isCatch j = true) → k'.connecting ≠ none := by
    intro hcatch hnone
    rw [hconnecting] at hnone
    have := (h.calm hcatch hnone).1
    rw [hon] at this
    cases this
  refine ⟨⟨?_, ?_, ?_, ?_, h.order, fun hcatch hnone => absurd hnone (hnocatch hcatch)⟩,
    by omega, hnocatch⟩
  · rw [hbusy, hoff]
    simp only [Option.isSome_none, Bool.toNat_false] at *
    omega
  · have hconn := h.connect
    rw [hatt, hsleeps, hconnecting]
    exact hconn
  · intro c
    have hren := h.rename c
    rw [hatt, hrenames]
    exact hren
  · intro c hpos
    have hren := h.rename c
    have hidle := hfree c
    have hnot : (k.renames.get? c).any RenameStage.isDialing = false := by
      cases hstage : k.renames.get? c with
      | none => rfl
      | some stage =>
          rw [hstage] at hidle
          cases stage <;> first | rfl | cases hidle
    rw [hnot, Bool.toNat_false] at hren
    omega

end Renames

end Dialing

end PiMesh
