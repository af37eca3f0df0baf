/-
One connection at a time.

`connect()` shares one promise, so it does not compete with itself.  `rename` dials beside
that promise, and between its detach and its return nothing stops a request, a timer or a
second rename from dialing too.  Where none of them does, the client never has two
handshakes in flight or two sockets open past their welcome, and the broker knows the
socket under the alias the client goes by.

`Wired` is the part of the invariant about sockets: which one `this.socket` is, and under
which alias its hello went out.  It leans on `Tokens`, which says that whoever starts to
dial dials alone.
-/
import PiMesh.Proofs.Dialing

namespace PiMesh

open Js Transition

variable {ν : Type} [Number ν]

/-- Past its welcome, and not let go of: neither ended nor destroyed. -/
def ClientSocket.isOpen (s : ClientSocket) : Bool := s.welcomed && !s.ended && !s.destroyed

/-- Past its welcome and not ended, and its `close` has not been delivered. -/
def ClientSocket.isJoined (s : ClientSocket) : Bool := s.welcomed && !s.ended && !s.closed

/-- Whoever dials is `this.socket`, and so is whoever is open. -/
structure Plugged (k : Conn) : Prop where
  free : k.userClosed = false
  fresh : ∀ s, k.nextSocket ≤ s → k.sockets.get? s = none
  dialing : ∀ s x, k.sockets.get? s = some x → x.settled = false →
    k.socket = some s ∧ x.ended = false ∧ ∀ n, x.hello = some n → n = k.name
  others : ∀ s x, k.sockets.get? s = some x → x.isOpen = true → k.online = true ∧ k.socket = some s

/-- A client that is online has a socket, and its hello carries the alias of the client. -/
structure Wired (k : Conn) : Prop extends Plugged k where
  online : k.online = true → ∃ s x, k.socket = some s ∧ k.sockets.get? s = some x ∧
    x.isJoined = true ∧ x.hello = some k.name

/-- What `Wired` reads of the connection. -/
def Conn.wiring (k : Conn) := (k.userClosed, k.nextSocket, k.sockets, k.socket, k.online, k.name)

/-- The invariant; `debt` is an attempt in the hands of the handler that runs. -/
structure Single (debt : Option Owner) (k : Conn) (js : List (Job ν)) : Prop where
  tokens : Tokens debt k js
  wired : Wired k

/-- One socket is touched, and not in a way that opens it. -/
theorem Plugged.touch {k : Conn} (h : Plugged k) (sock : ClientSocketId)
    {f : ClientSocket → ClientSocket}
    (hdialing : ∀ x, k.sockets.get? sock = some x → (f x).settled = false →
      x.settled = false ∧ (f x).ended = x.ended ∧
        ∀ n, (f x).hello = some n → x.hello = some n ∨ n = k.name)
    (hopen : ∀ x, (f x).isOpen = true → x.isOpen = true) : Plugged (k.modifySocket sock f) := by
  cases hsock : k.sockets.get? sock with
  | none =>
      have hsame : k.modifySocket sock f = k := by
        unfold Conn.modifySocket
        rw [hsock]
      rw [hsame]
      exact h
  | some x₀ =>
      have hconn : k.modifySocket sock f = { k with sockets := k.sockets.set sock (f x₀) } := by
        unfold Conn.modifySocket
        rw [hsock]
      have hget := get?_modifySocket k sock (f := f)
      rw [hsock, Option.map_some] at hget
      rw [hconn] at hget ⊢
      refine ⟨h.free, ?_, ?_, ?_⟩
      · intro s hs
        have hs : k.nextSocket ≤ s := hs
        have hne : s ≠ sock := by
          intro heq
          have hnone := h.fresh s hs
          rw [heq, hsock] at hnone
          cases hnone
        rw [hget, if_neg hne]
        exact h.fresh s hs
      · intro s x hx hsettled
        rw [hget] at hx
        split at hx
        · next heq =>
          obtain rfl := Option.some.inj hx
          obtain ⟨hold, hended, hhello⟩ := hdialing x₀ hsock hsettled
          obtain ⟨hsocket, he, hn⟩ := h.dialing sock x₀ hsock hold
          refine ⟨by rw [heq]; exact hsocket, by rw [hended]; exact he, ?_⟩
          intro n hname
          rcases hhello n hname with hwas | hnew
          · exact hn n hwas
          · exact hnew
        · exact h.dialing s x hx hsettled
      · intro s x hx hisopen
        rw [hget] at hx
        split at hx
        · next heq =>
          obtain rfl := Option.some.inj hx
          rw [heq]
          exact h.others sock x₀ hsock (hopen x₀ hisopen)
        · exact h.others s x hx hisopen

/-- Clearing the deadline touches nothing that matters here. -/
theorem Plugged.clearHelloTimer {k : Conn} (h : Plugged k) : Plugged k.clearHelloTimer := by
  unfold Conn.clearHelloTimer
  split
  · refine h.touch _ ?_ (fun x hx => hx)
    intro x _ hsettled
    exact ⟨hsettled, rfl, fun n hn => .inl hn⟩
  · exact h

theorem parts_modifySocket (k : Conn) (sock : ClientSocketId) (f : ClientSocket → ClientSocket) :
    (k.modifySocket sock f).online = k.online ∧ (k.modifySocket sock f).socket = k.socket ∧
      (k.modifySocket sock f).name = k.name := by
  unfold Conn.modifySocket
  split
  · exact ⟨rfl, rfl, rfl⟩
  · exact ⟨rfl, rfl, rfl⟩

namespace Wired

variable {k k' : Conn}

theorem of_same (h : Wired k) (hk : k'.wiring = k.wiring) : Wired k' := by
  simp only [Conn.wiring, Prod.mk.injEq] at hk
  obtain ⟨huser, hnext, hsockets, hsocket, honline, hname⟩ := hk
  refine ⟨⟨by rw [huser]; exact h.free, ?_, ?_, ?_⟩, ?_⟩
  · rw [hnext, hsockets]
    exact h.fresh
  · rw [hsockets, hsocket, hname]
    exact h.dialing
  · rw [hsockets, hsocket, honline]
    exact h.others
  · rw [honline, hsockets, hsocket, hname]
    exact h.online

/-- One socket is touched, and not in a way that opens it or takes it from the client. -/
theorem touch (h : Wired k) (sock : ClientSocketId) {f : ClientSocket → ClientSocket}
    (hdialing : ∀ x, k.sockets.get? sock = some x → (f x).settled = false →
      x.settled = false ∧ (f x).ended = x.ended ∧
        ∀ n, (f x).hello = some n → x.hello = some n ∨ n = k.name)
    (hopen : ∀ x, (f x).isOpen = true → x.isOpen = true)
    (honline : ∀ x, k.online = true → k.sockets.get? sock = some x → k.socket = some sock →
      x.isJoined = true → (f x).isJoined = true ∧ (f x).hello = x.hello) :
    Wired (k.modifySocket sock f) := by
  refine ⟨h.toPlugged.touch sock hdialing hopen, ?_⟩
  obtain ⟨hsame, hsock, hname⟩ := parts_modifySocket k sock f
  rw [hsame, hsock, hname]
  intro hon
  obtain ⟨s, x, hsocket, hx, hjoined, hhello⟩ := h.online hon
  by_cases hs : s = sock
  · subst hs
    obtain ⟨hj, hh⟩ := honline x hon hx hsocket hjoined
    exact ⟨s, f x, hsocket, by rw [get?_modifySocket, if_pos rfl, hx]; rfl, hj,
      by rw [hh]; exact hhello⟩
  · exact ⟨s, x, hsocket, by rw [get?_modifySocket, if_neg hs]; exact hx, hjoined, hhello⟩

/-- The welcome makes the socket that was dialing the one in use. -/
theorem welcome {sock : ClientSocketId} {x : ClientSocket} {n : String} (h : Wired k)
    (hx : k.sockets.get? sock = some x) (hdial : x.settled = false) (hclosed : x.closed = false)
    (hhello : x.hello = some n) (hoff : k.online = false) :
    Wired { k.modifySocket sock fun s => { s with settled := true, welcomed := true } with
      online := true } := by
  obtain ⟨hsocket, hended, hname⟩ := h.dialing sock x hx hdial
  have hconn : (k.modifySocket sock fun s => { s with settled := true, welcomed := true }) =
      { k with sockets := k.sockets.set sock { x with settled := true, welcomed := true } } := by
    unfold Conn.modifySocket
    rw [hx]
  rw [hconn]
  have hget : ∀ s, (k.sockets.set sock { x with settled := true, welcomed := true }).get? s =
      if s = sock then some { x with settled := true, welcomed := true } else k.sockets.get? s :=
    fun s => Map.get?_set _ _ _ _
  refine ⟨⟨h.free, ?_, ?_, ?_⟩, ?_⟩
  · intro s hs
    have hs : k.nextSocket ≤ s := hs
    have hne : s ≠ sock := by
      intro heq
      have hnone := h.fresh s hs
      rw [heq, hx] at hnone
      cases hnone
    dsimp only
    rw [hget, if_neg hne]
    exact h.fresh s hs
  · intro s y hy hsettled
    dsimp only at hy
    rw [hget] at hy
    split at hy
    · obtain rfl := Option.some.inj hy
      cases hsettled
    · exact h.dialing s y hy hsettled
  · intro s y hy hisopen
    dsimp only at hy
    rw [hget] at hy
    split at hy
    · next heq => exact ⟨rfl, by rw [heq]; exact hsocket⟩
    · have := (h.others s y hy hisopen).1
      rw [hoff] at this
      cases this
  · intro _
    refine ⟨sock, _, hsocket, by dsimp only; rw [hget, if_pos rfl], ?_, ?_⟩
    · simp [ClientSocket.isJoined, hended, hclosed]
    · dsimp only
      rw [hhello, hname n hhello]

theorem clearHelloTimer (h : Wired k) : Wired k.clearHelloTimer := by
  unfold Conn.clearHelloTimer
  split
  · refine h.touch _ ?_ (fun x hx => hx) (fun x _ _ _ hj => ⟨hj, rfl⟩)
    intro x _ hsettled
    exact ⟨hsettled, rfl, fun n hn => .inl hn⟩
  · exact h

end Wired

section Moves

variable {env : ClientEnv} {st : ClientState ν} {debt : Option Owner}

/-- Whoever has a debt dials alone, and the client is offline. -/
theorem Tokens.alone {k : Conn} {js : List (Job ν)} {owner : Owner} (h : Tokens (some owner) k js) :
    k.online = false ∧ ∀ s x, k.sockets.get? s = some x → x.settled = true := by
  have htotal := h.total
  simp only [Option.isSome_some, Bool.toNat_true] at htotal
  refine ⟨?_, ?_⟩
  · cases hon : k.online with
    | false => rfl
    | true =>
        rw [hon, Bool.toNat_true] at htotal
        omega
  · intro s x hx
    by_contra hsettled
    have hpos := attempts_of_unsettled js hx (by simpa using hsettled) (p := fun _ => true) rfl
    unfold busy at htotal
    omega

theorem openSocket_single {owner : Owner} (h : st.meets (Single (some owner))) :
    (openSocket st owner).meets (Single none) := by
  have hfresh := h.wired.fresh st.conn.nextSocket (Nat.le_refl _)
  refine ⟨openSocket_tokens h.wired.free hfresh h.tokens, ?_⟩
  obtain ⟨hoff, hsettled⟩ := h.tokens.alone
  unfold openSocket
  dsimp only
  rw [if_neg (by simp [h.wired.free])]
  refine ⟨⟨h.wired.free, ?_, ?_, ?_⟩, ?_⟩
  · intro s hs
    have hs : st.conn.nextSocket + 1 ≤ s := hs
    dsimp only [conn_setConn]
    rw [Map.get?_set_ne _ _ (Nat.ne_of_gt hs)]
    exact h.wired.fresh s (Nat.le_of_succ_le hs)
  · intro s x hx hopen
    dsimp only [conn_setConn] at hx ⊢
    rw [Map.get?_set] at hx
    split at hx
    · next heq =>
      obtain rfl := Option.some.inj hx
      exact ⟨by rw [heq], rfl, fun n hn => (by cases hn)⟩
    · rw [hsettled s x hx] at hopen
      cases hopen
  · intro s x hx hopen
    dsimp only [conn_setConn] at hx
    rw [Map.get?_set] at hx
    split at hx
    · obtain rfl := Option.some.inj hx
      cases hopen
    · have := (h.wired.others s x hx hopen).1
      rw [hoff] at this
      cases this
  · intro hon
    have hon : st.conn.online = true := hon
    rw [hoff] at hon
    cases hon

theorem doConnect_single {owner : Owner} (h : st.meets (Single (some owner))) :
    (doConnect env st owner).meets (Single none) := by
  have hfresh := h.wired.fresh st.conn.nextSocket (Nat.le_refl _)
  have htokens : (doConnect env st owner).meets (Tokens none) :=
    doConnect_tokens h.wired.free hfresh h.tokens
  unfold doConnect at htokens ⊢
  split at htokens
  · exact ⟨htokens, h.wired.of_same rfl⟩
  · exact openSocket_single h
  · exact ⟨htokens, h.wired⟩

theorem failHandshake_plugged (sock : ClientSocketId) (err : ConnectError)
    (h : Plugged st.conn) : Plugged (failHandshake st sock err).conn := by
  unfold failHandshake
  split
  · split
    · exact h
    · refine h.clearHelloTimer.touch sock ?_ ?_
      · intro x _ hsettled
        cases hsettled
      · intro x hopen
        simp [ClientSocket.isOpen] at hopen
  · exact h

theorem failHandshake_single (sock : ClientSocketId) (err : ConnectError)
    (h : st.meets (Single debt)) : (failHandshake st sock err).meets (Single debt) := by
  refine ⟨failHandshake_tokens sock err h.tokens, ?_⟩
  unfold failHandshake
  split
  · split
    · exact h.wired
    · refine (h.wired.clearHelloTimer.touch sock ?_ ?_ ?_)
      · intro x _ hsettled
        cases hsettled
      · intro x hopen
        simp [ClientSocket.isOpen] at hopen
      · intro x _ _ _ hj
        exact ⟨hj, rfl⟩
  · exact h.wired

theorem acceptWelcome_single {sock : ClientSocketId} {s : ClientSocket} (frame : Inbound ν)
    (hs : st.conn.sockets.get? sock = some s) (hopen : s.settled = false)
    (hclosed : s.closed = false) (hhello : s.hello.isSome = true) (h : st.meets (Single none)) :
    (acceptWelcome st sock s.owner frame).meets (Single none) := by
  refine ⟨acceptWelcome_tokens frame hs hopen h.tokens, ?_⟩
  obtain ⟨n, hn⟩ := Option.isSome_iff_exists.mp hhello
  -- somebody dials, so the client is offline and nothing else is open
  have hoff : st.conn.online = false := by
    have htotal := h.tokens.total
    have hpos := attempts_of_unsettled st.links hs hopen (p := fun _ => true) rfl
    cases hon : st.conn.online with
    | false => rfl
    | true =>
        rw [hon, Bool.toNat_true] at htotal
        unfold busy at htotal
        omega
  obtain ⟨armed, hget⟩ := get?_clearHelloTimer st.conn sock
  rw [hs, Option.map_some] at hget
  have hpace := pace_clearHelloTimer st.conn
  simp only [Conn.pace, Prod.mk.injEq] at hpace
  exact (h.wired.clearHelloTimer.welcome hget hopen hclosed hn (hpace.2.2.2.trans hoff)).of_same rfl

/-- Nobody starts to connect while a rename is between its detach and its return. -/
def Unhurried (k : Conn) (_ : List (Job ν)) : Prop :=
  k.connecting = none → ¬ (k.online = true ∧ k.socket.isSome = true) → k.free

/-- `connect()` joins the promise that is out, or is the only one to dial. -/
theorem connect_single {w : Waiter} (hgo : st.meets Unhurried) (h : st.meets (Single none)) :
    (connect env st w).meets (Single none) := by
  unfold connect
  dsimp only
  split
  · rw [meets_push]
    exact ⟨h.tokens.add (fun _ => rfl) (fun _ => rfl) rfl rfl, h.wired⟩
  · next hlate =>
    have hlate : ¬ (st.conn.online = true ∧ st.conn.socket.isSome = true) := by simpa using hlate
    split
    · next p hp =>
      have hp : st.conn.connecting = some p := hp
      refine ⟨h.tokens.of_same ?_ rfl rfl, h.wired.of_same ?_⟩
      · simp [Conn.pace, Conn.sleeps, hp]
      · simp [Conn.wiring, h.wired.free]
    · next hnone =>
      have hnone : st.conn.connecting = none := hnone
      have hoff : st.conn.online = false := by
        cases hon : st.conn.online with
        | false => rfl
        | true =>
            obtain ⟨s, x, hsocket, -⟩ := h.wired.online hon
            exact absurd ⟨hon, by rw [hsocket]; rfl⟩ hlate
      have hbusy := h.tokens.idle hnone (hgo hnone hlate)
      refine doConnect_single ⟨?_, h.wired.of_same (by simp [Conn.wiring, h.wired.free])⟩
      refine h.tokens.turn (by constructor <;> rfl) (fun o ho => (by cases ho)) ?_ ?_ ?_ (by simp)
      · intro o ho
        exact (Option.some.inj ho).symm
      · simp [Conn.sleeps, hbusy, hoff]
      · simp [Conn.sleeps, hnone]

theorem handleDialed_single (r : Except ConnectError (WelcomeInfo ν))
    (h : Single none st.conn (.dialed .connect r :: st.links)) :
    (handleDialed env st r).meets (Single none) := by
  have hsome : st.conn.connecting.isSome = true :=
    h.tokens.promised (by cases r <;> rfl)
  unfold handleDialed
  split
  · next hnone =>
    rw [hnone] at hsome
    cases hsome
  · next p hp =>
    cases r with
    | ok info =>
        have hswap : ∀ (k' : Conn) (i : WelcomeInfo ν), k'.pace = st.conn.pace →
            k'.ensuring = st.conn.ensuring → k'.sockets = st.conn.sockets →
            Tokens none k' (st.links ++ [.connectDone (.ok i)]) := by
          intro k' i hpace hensuring hsockets
          exact h.tokens.swap hpace hensuring hsockets (fun _ => rfl) (fun _ => rfl) (fun _ => rfl)
            rfl rfl rfl
        dsimp only
        split
        · rw [meets_setConn_push]
          exact ⟨hswap _ _ (by rfl) (by rfl) (by rfl), h.wired.of_same rfl⟩
        · rw [meets_setConn_push]
          exact ⟨hswap _ _ (by rfl) (by rfl) (by rfl), h.wired.of_same rfl⟩
        · cases ‹Except.ok info = Except.error _›
    | error err =>
        have hdebt : Tokens (some .connect) st.conn st.links := h.tokens.take
        have hawake : p.phase ≠ .sleeping := by
          have := hdebt.not_sleeps
          simpa [Conn.sleeps, hp] using this
        have hstill : ∀ (k' : Conn) (p' : Connecting), k'.connecting = some p' →
            p'.phase ≠ .sleeping → SamePlace st.conn k' → Tokens (some .connect) k' st.links := by
          intro k' p' hp' hphase hplace
          refine hdebt.move ?_ (.refl _) fun q => by rw [hplace.attempts]
          simp [Conn.pace, Conn.sleeps, hp, hp', hphase, hawake, hplace.renames, hplace.online]
        have hreport : ∀ (k' : Conn) (e : ConnectError), k'.connecting = st.conn.connecting →
            SamePlace st.conn k' → Tokens none k' (st.links ++ [.connectDone (.error e)]) := by
          intro k' e hsame hplace
          exact (hstill k' p (hsame.trans hp) hawake hplace).report e
        dsimp only
        split
        · rw [meets_setConn_push]
          exact ⟨hreport _ _ (by rfl) (by constructor <;> rfl), h.wired.of_same rfl⟩
        · cases ‹Except.error err = Except.ok _›
        · split
          · rw [meets_push]
            exact ⟨hdebt.report _, h.wired⟩
          · split
            · refine ⟨hdebt.turn (by constructor <;> rfl) ?_ (fun o ho => (by cases ho)) ?_ ?_ (by simp),
                h.wired.of_same rfl⟩
              · intro o ho
                exact (Option.some.inj ho).symm
              · have htotal := hdebt.total
                simp only [Option.isSome_some, Bool.toNat_true] at htotal
                simp only [conn_setConn, Conn.sleeps, Option.any_some, decide_true, Bool.toNat_true,
                  Option.isSome_none, Bool.toNat_false]
                omega
              · simp [Conn.sleeps, hp, hawake]
            · split
              · rw [meets_setConn_push]
                exact ⟨hreport _ _ (by rfl) (by constructor <;> rfl), h.wired.of_same rfl⟩
              · refine doConnect_single ⟨hstill _ _ rfl (by simp) (by constructor <;> rfl), ?_⟩
                -- nobody dials and the client is offline, so the alias is free to change
                obtain ⟨hoff, hsettled⟩ := hdebt.alone
                refine ⟨⟨h.wired.free, h.wired.fresh, ?_, h.wired.others⟩, ?_⟩
                · intro s x hx hopen
                  rw [hsettled s x hx] at hopen
                  cases hopen
                · intro hon
                  have hon : st.conn.online = true := hon
                  rw [hoff] at hon
                  cases hon

theorem handleRetry_single (h : st.meets (Single none)) :
    (handleRetry env st).meets (Single none) := by
  unfold handleRetry
  split
  · next p hp =>
    split
    · next hphase =>
      have htotal := h.tokens.total
      have hsleeps : st.conn.sleeps = true := by simp [Conn.sleeps, hp, hphase]
      refine doConnect_single ⟨?_, h.wired.of_same rfl⟩
      refine h.tokens.turn (by constructor <;> rfl) (fun o ho => (by cases ho)) ?_ ?_ ?_ (by simp)
      · intro o ho
        exact (Option.some.inj ho).symm
      · rw [hsleeps]
        simp only [Option.isSome_none, Bool.toNat_false] at htotal
        simp [Conn.sleeps]
        omega
      · rw [hsleeps]
        simp [Conn.sleeps, hp]
    · exact h
  · exact h

theorem handleConnectDone_single (r : Except ConnectError (WelcomeInfo ν))
    (h : Single none st.conn (.connectDone r :: st.links)) :
    (handleConnectDone st r).meets (Single none) := by
  have hsome : st.conn.connecting.isSome = true := h.tokens.promised (by cases r <;> rfl)
  unfold handleConnectDone
  split
  · next hnone =>
    rw [hnone] at hsome
    cases hsome
  · next p hp =>
    dsimp only
    cases r with
    | ok info =>
        rw [meets_setConn_push]
        refine ⟨h.tokens.settle (by constructor <;> rfl) rfl ?_ ?_ ?_ ?_, h.wired.of_same rfl⟩
        · simp [Job.dialFailed]
        · simp [Job.dialDone]
        · simp [Job.isConnectDone]
        · simp [Job.isCatch]
    | error err =>
        rw [meets_setConn_push]
        refine ⟨h.tokens.settle (by constructor <;> rfl) rfl ?_ ?_ ?_ (fun _ => ⟨err, rfl⟩),
          h.wired.of_same rfl⟩
        · simp [Job.dialFailed]
        · simp [Job.dialDone]
        · simp [Job.isConnectDone]

/-! ### Losing the connection -/

/-- The connection is dropped: nobody dials, and nothing but the socket in use was open. -/
theorem Plugged.drop {k k' : Conn} (h : Plugged k)
    (hsettled : ∀ s x, k.sockets.get? s = some x → x.settled = true)
    (hopen : ∀ s x, k.sockets.get? s = some x → x.isOpen = false)
    (huser : k'.userClosed = k.userClosed) (hnext : k'.nextSocket = k.nextSocket)
    (hsockets : k'.sockets = k.sockets) (hoff : k'.online = false) : Wired k' := by
  refine ⟨⟨by rw [huser]; exact h.free, ?_, ?_, ?_⟩, ?_⟩
  · rw [hnext, hsockets]
    exact h.fresh
  · intro s x hx hdial
    rw [hsockets] at hx
    rw [hsettled s x hx] at hdial
    cases hdial
  · intro s x hx hisopen
    rw [hsockets] at hx
    rw [hopen s x hx] at hisopen
    cases hisopen
  · intro hon
    rw [hoff] at hon
    cases hon

/-- The state of `onSocketClosed` past its two checks. -/
theorem onSocketClosed_eq (env : ClientEnv) (st : ClientState ν) (closed : Option ClientSocketId)
    (hnone : st.conn.connecting = none) (hcurrent : ∀ sock ∈ closed, st.conn.socket = some sock) :
    ∃ involuntary attempt timer armed next, (onSocketClosed env st closed).conn =
        { st.conn with online := false, socket := none, heartbeat := false
                       involuntaryClose := involuntary, reconnectAttempt := attempt
                       reconnectTimer := timer, armed := armed, nextTimer := next } ∧
      (onSocketClosed env st closed).links = st.links := by
  have hlost := (loseRequests_paper (st.setConn
    { st.conn with online := false, socket := none, heartbeat := false })).still
  have hskip : (closed.any fun sock => decide (st.conn.socket ≠ some sock)) = false := by
    cases closed with
    | none => rfl
    | some sock => simp [hcurrent sock rfl]
  unfold onSocketClosed
  dsimp only
  rw [if_neg (by simp [hnone]), if_neg (by rw [hskip]; simp)]
  split
  · exact ⟨st.conn.involuntaryClose, st.conn.reconnectAttempt, st.conn.reconnectTimer,
      st.conn.armed, st.conn.nextTimer, hlost.conn, hlost.links⟩
  · refine ⟨true, st.conn.reconnectAttempt + 1, some st.conn.nextTimer,
      st.conn.armed ++ [st.conn.nextTimer], st.conn.nextTimer + 1, ?_, hlost.links⟩
    rw [conn_setConn, hlost.conn]
    rfl

/-- A client goes offline with no rename on its way to success. -/
theorem Tokens.lose {k k' : Conn} {js : List (Job ν)} (h : Tokens none k js)
    (hdone : ∀ c, js.countP (Job.dialDone (Owner.isRename c)) = 0)
    (hensuring : k'.ensuring = k.ensuring) (hsockets : k'.sockets = k.sockets)
    (hconnecting : k'.connecting = k.connecting) (hrenames : k'.renames = k.renames)
    (hoff : k'.online = false) : Tokens none k' js := by
  have hatt : ∀ p, attempts p k' js = attempts p k js := by
    intro p
    unfold attempts
    rw [hensuring, hsockets]
  have hsleeps : k'.sleeps = k.sleeps := by
    unfold Conn.sleeps
    rw [hconnecting]
  refine ⟨?_, ?_, ?_, ?_, h.order, ?_⟩
  · have htotal := h.total
    unfold busy at htotal ⊢
    rw [hatt, hsleeps, hrenames, hoff, Bool.toNat_false]
    omega
  · have hconn := h.connect
    rw [hatt, hsleeps, hconnecting]
    exact hconn
  · intro c
    have hren := h.rename c
    rw [hatt, hrenames]
    exact hren
  · intro c hpos
    rw [hdone c] at hpos
    cases hpos
  · intro hcatch hnone
    rw [hconnecting] at hnone
    refine ⟨hoff, ?_⟩
    rw [Conn.free, hrenames]
    exact (h.calm hcatch hnone).2

theorem backoffFailed_single (err : ConnectError)
    (h : Single none st.conn (.connectFailed .backoff err :: st.links)) :
    (onSocketClosed env st none).meets (Single none) := by
  have hdrop : Tokens none st.conn st.links := h.tokens.drop (fun _ => rfl) (fun _ => rfl) rfl
  cases hconnecting : st.conn.connecting with
  | some p =>
      unfold onSocketClosed
      rw [if_pos (by simp [hconnecting])]
      exact ⟨hdrop, h.wired⟩
  | none =>
      have hcatch : ∃ j ∈ (.connectFailed .backoff err :: st.links : List (Job ν)),
          Job.isCatch j = true := ⟨_, List.mem_cons_self .., rfl⟩
      have hoff := (h.tokens.calm hcatch hconnecting).1
      have hquiet := h.tokens.quiet hcatch hconnecting
      obtain ⟨involuntary, attempt, timer, armed, next, hconn, hlinks⟩ :=
        onSocketClosed_eq env st none hconnecting (fun _ hs => (by cases hs))
      rw [ClientState.meets, hconn, hlinks]
      refine ⟨hdrop.of_same ?_ rfl rfl, h.wired.toPlugged.drop ?_ ?_ rfl rfl rfl rfl⟩
      · simp [Conn.pace, Conn.sleeps, hoff]
      · intro s x hx
        by_contra hdial
        have hpos := attempts_of_unsettled (.connectFailed .backoff err :: st.links) hx
          (by simpa using hdial) (p := fun _ => true) rfl
        unfold busy at hquiet
        omega
      · intro s x hx
        cases hopen : x.isOpen with
        | false => rfl
        | true =>
            have := (h.wired.others s x hx hopen).1
            rw [hoff] at this
            cases this

/-- After a handshake failed its socket is settled and destroyed. -/
theorem failHandshake_get? (st : ClientState ν) (sock : ClientSocketId) (err : ConnectError)
    {x : ClientSocket} (hx : (failHandshake st sock err).conn.sockets.get? sock = some x) :
    x.settled = true ∧ ∃ x₀, st.conn.sockets.get? sock = some x₀ ∧
      (x₀.destroyed = true → x.destroyed = true) := by
  unfold failHandshake at hx
  split at hx
  · next s hs =>
    split at hx
    · next hsettled =>
      rw [hs] at hx
      obtain rfl := Option.some.inj hx
      exact ⟨hsettled, s, hs, fun hd => hd⟩
    · have hx : (st.conn.clearHelloTimer.modifySocket sock fun s =>
          { s with settled := true, destroyed := true }).sockets.get? sock = some x := hx
      rw [get?_modifySocket, if_pos rfl] at hx
      obtain ⟨y, -, rfl⟩ := Option.map_eq_some_iff.mp hx
      exact ⟨rfl, s, hs, fun _ => rfl⟩
  · next hnone =>
    rw [hnone] at hx
    cases hx

theorem failHandshake_done (st : ClientState ν) (sock : ClientSocketId) (err : ConnectError)
    (p : Owner → Bool) : (failHandshake st sock err).links.countP (Job.dialDone p) =
      st.links.countP (Job.dialDone p) := by
  unfold failHandshake
  split
  · split
    · rfl
    · rw [links_push, links_setConn, List.countP_append, Nat.add_eq_left]
      rfl
  · rfl

theorem endWait_single (c : CallId) (h : st.meets (Single none)) :
    (endWait st c).meets (Single none) := by
  have hdetach : (endDetach st c).meets (Single none) := by
    unfold endDetach
    split
    · next target old sock hstage =>
      rw [meets_push]
      refine ⟨Tokens.add ?_ (fun _ => rfl) (fun _ => rfl) rfl rfl, h.wired.of_same rfl⟩
      refine h.tokens.stage (.set _ c _) (fun o ho => (by cases ho)) (fun o ho => (by cases ho)) ?_ ?_ ?_
      · have htotal := h.tokens.total
        simp [setRename, hstage, RenameStage.isParked] at htotal ⊢
        omega
      · simp [setRename, hstage, RenameStage.isDialing]
      · intro hcatch hnone
        have hidle := (h.tokens.calm hcatch hnone).2 c
        rw [hstage] at hidle
        cases hidle
    · exact h
  unfold endWait endClose
  split
  · rw [meets_push]
    exact ⟨hdetach.tokens.add (fun _ => rfl) (fun _ => rfl) rfl rfl, hdetach.wired⟩
  · exact hdetach

theorem handleSocketClose_single (sock : ClientSocketId) (hlinks : st.links = [])
    (h : st.meets (Single none)) : (handleSocketClose env st sock).meets (Single none) := by
  have hwaits : ∀ (cs : List CallId) (st : ClientState ν), st.meets (Single none) →
      (cs.foldl endWait st).meets (Single none) := by
    intro cs
    induction cs with
    | nil =>
        intro st h
        exact h
    | cons c rest ih =>
        intro st h
        exact ih _ (endWait_single c h)
  unfold handleSocketClose
  split
  · next s hs =>
    split
    · exact h
    · extract_lets st₁ st₂ st₃
      refine hwaits _ _ ?_
      have htokens₁ : st₁.meets (Tokens none) := h.tokens.touch sock fun s => ⟨rfl, rfl⟩
      have htokens₂ : st₂.meets (Tokens none) := failHandshake_tokens sock _ htokens₁
      have hplugged₁ : Plugged st₁.conn := by
        refine h.wired.toPlugged.touch sock ?_ ?_
        · intro x _ hsettled
          exact ⟨hsettled, rfl, fun n hn => .inl hn⟩
        · intro x hopen
          simp [ClientSocket.isOpen] at hopen
      have hplugged₂ : Plugged st₂.conn := failHandshake_plugged sock _ hplugged₁
      -- where the close is ignored, the socket was not the one in use
      have hignored : (st.conn.online = true → st.conn.socket = some sock → s.isJoined = true → False) →
          st₂.meets (Single none) := by
        intro hnot
        refine failHandshake_single sock _ ⟨htokens₁, ?_⟩
        refine h.wired.touch sock ?_ ?_ ?_
        · intro x _ hsettled
          exact ⟨hsettled, rfl, fun n hn => .inl hn⟩
        · intro x hopen
          simp [ClientSocket.isOpen] at hopen
        · intro x hon hx hsocket hjoined
          rw [hs] at hx
          obtain rfl := Option.some.inj hx
          exact (hnot hon hsocket hjoined).elim
      have hparts : st₂.conn.connecting = st.conn.connecting ∧ st₂.conn.socket = st.conn.socket := by
        obtain ⟨hconnecting, hsocket⟩ := failHandshake_parts st₁ sock .brokerUnavailable
        have hmodify : st₁.conn.connecting = st.conn.connecting ∧ st₁.conn.socket = st.conn.socket := by
          show (Conn.modifySocket ..).connecting = _ ∧ (Conn.modifySocket ..).socket = _
          unfold Conn.modifySocket
          rw [hs]
          exact ⟨rfl, rfl⟩
        exact ⟨hconnecting.trans hmodify.1, hsocket.trans hmodify.2⟩
      show (if s.welcomed then onSocketClosed env st₂ (some sock) else st₂).meets (Single none)
      split
      · by_cases hconnecting : st.conn.connecting = none
        · by_cases hsocket : st.conn.socket = some sock
          · obtain ⟨involuntary, attempt, timer, armed, next, hconn, hlinks₂⟩ :=
              onSocketClosed_eq env st₂ (some sock) (hparts.1.trans hconnecting)
                (fun x hx => by rw [← Option.some.inj hx]; exact hparts.2.trans hsocket)
            rw [ClientState.meets, hconn, hlinks₂]
            have hself : ∀ x, st₂.conn.socket = some x → x = sock := by
              intro x hx
              rw [hparts.2, hsocket] at hx
              exact (Option.some.inj hx).symm
            refine ⟨htokens₂.lose ?_ rfl rfl rfl rfl rfl, hplugged₂.drop ?_ ?_ rfl rfl rfl rfl⟩
            · intro c
              rw [failHandshake_done]
              show st.links.countP _ = 0
              rw [hlinks]
              rfl
            · intro x y hy
              cases hsettled : y.settled with
              | true => rfl
              | false =>
                  have hx := hself x (hplugged₂.dialing x y hy hsettled).1
                  subst hx
                  rw [(failHandshake_get? st₁ x _ hy).1] at hsettled
                  cases hsettled
            · intro x y hy
              cases hopen : y.isOpen with
              | false => rfl
              | true =>
                  have hx := hself x (hplugged₂.others x y hy hopen).2
                  subst hx
                  obtain ⟨-, y₁, hy₁, hdestroyed⟩ := failHandshake_get? st₁ x _ hy
                  have hd : y₁.destroyed = true := by
                    have hy₁ : (st.conn.modifySocket x fun s =>
                      { s with destroyed := true, closed := true }).sockets.get? x = some y₁ := hy₁
                    rw [get?_modifySocket, if_pos rfl, hs] at hy₁
                    obtain rfl := Option.some.inj hy₁
                    rfl
                  simp [ClientSocket.isOpen, hdestroyed hd] at hopen
          · unfold onSocketClosed
            rw [if_neg (by simp [hparts.1, hconnecting]), if_pos (by simp [hparts.2, hsocket])]
            exact hignored fun _ hcurrent _ => hsocket hcurrent
        · unfold onSocketClosed
          rw [if_pos (by rw [hparts.1]; exact Option.isSome_iff_ne_none.mpr hconnecting)]
          -- the promise has its token, and with no job queued that is an attempt or a sleep
          have hoff : st.conn.online = false := by
            have hconn := h.tokens.connect
            have htotal := h.tokens.total
            have hle := attempts_mono (p := Owner.isConnect) (q := fun _ => true) (fun _ _ => rfl)
              st.conn st.links
            rw [Option.isSome_iff_ne_none.mpr hconnecting, hlinks] at hconn
            rw [hlinks] at hle htotal
            unfold busy at htotal
            cases hon : st.conn.online with
            | false => rfl
            | true =>
                rw [hon] at htotal
                simp only [List.countP_nil, Option.any_none, Option.isSome_none, Bool.toNat_false,
                  Bool.toNat_true] at hconn htotal
                omega
          exact hignored fun hon _ _ => by rw [hoff] at hon; cases hon
      · next hwelcomed =>
        refine hignored fun _ _ hjoined => ?_
        simp [ClientSocket.isJoined, hwelcomed] at hjoined
  · exact h

/-! ### Renames -/

/-- Nobody dials and nothing is open, so any alias will do. -/
theorem Wired.idle {k : Conn} (hfree : k.userClosed = false)
    (hfresh : ∀ s, k.nextSocket ≤ s → k.sockets.get? s = none)
    (hsettled : ∀ s x, k.sockets.get? s = some x → x.settled = true)
    (hopen : ∀ s x, k.sockets.get? s = some x → x.isOpen = false) (hoff : k.online = false) :
    Wired k := by
  refine ⟨⟨hfree, hfresh, ?_, ?_⟩, ?_⟩
  · intro s x hx hdial
    rw [hsettled s x hx] at hdial
    cases hdial
  · intro s x hx hisopen
    rw [hopen s x hx] at hisopen
    cases hisopen
  · intro hon
    rw [hoff] at hon
    cases hon

theorem settled_of_attempts {k : Conn} {js : List (Job ν)} (h : attempts (fun _ => true) k js = 0) :
    ∀ s x, k.sockets.get? s = some x → x.settled = true := by
  intro s x hx
  by_contra hdial
  have hpos := attempts_of_unsettled js hx (by simpa using hdial) (p := fun _ => true) rfl
  omega

/-- An offline client in which nobody dials goes by another alias. -/
theorem Wired.rename {k k' : Conn} (h : Wired k) (hoff : k.online = false)
    (hsettled : ∀ s x, k.sockets.get? s = some x → x.settled = true)
    (huser : k'.userClosed = k.userClosed) (hnext : k'.nextSocket = k.nextSocket)
    (hsockets : k'.sockets = k.sockets) (honline : k'.online = k.online) : Wired k' := by
  refine .idle (by rw [huser]; exact h.free) ?_ ?_ ?_ (by rw [honline]; exact hoff)
  · rw [hnext, hsockets]
    exact h.fresh
  · rw [hsockets]
    exact hsettled
  · rw [hsockets]
    intro s x hx
    cases hopen : x.isOpen with
    | false => rfl
    | true =>
        have := (h.others s x hx hopen).1
        rw [hoff] at this
        cases this

/-- The next dial of a rename, once nothing else is on its way. -/
theorem renameDial_single {c : CallId} {target old : String} (hoff : st.conn.online = false)
    (hbusy : busy st.conn st.links ≤ ((st.conn.renames.get? c).any RenameStage.isParked).toNat)
    (hnot : (st.conn.renames.get? c).any RenameStage.isDialing = false)
    (hcalm : (∃ j ∈ st.links, Job.isCatch j = true) → st.conn.connecting ≠ none)
    (h : st.meets (Single none)) : (renameDial env st c target old).meets (Single none) := by
  have hle : ((st.conn.renames.get? c).any RenameStage.isParked).toNat ≤
      st.conn.renames.count RenameStage.isParked := by
    cases hparked : (st.conn.renames.get? c).any RenameStage.isParked with
    | false => exact Nat.zero_le _
    | true =>
        obtain ⟨stage, hstage, hp⟩ := (Option.any_eq_true _ _).mp hparked
        exact (Map.count_pos_iff _ _).mpr ⟨c, stage, hstage, hp⟩
  have hattempts : attempts (fun _ => true) st.conn st.links = 0 := by
    unfold busy at hbusy
    omega
  refine doConnect_single ⟨?_, ?_⟩
  · have hset := OneStage.set st.conn c (.dialing target old 0)
    have hone : OneStage c st.conn { st.conn with
        name := target, renames := st.conn.renames.set c (.dialing target old 0) } :=
      ⟨rfl, rfl, rfl, rfl, hset.others, hset.parked⟩
    refine h.tokens.stage hone (fun o ho => (by cases ho)) ?_ ?_ ?_ ?_
    · intro o ho
      exact (Option.some.inj ho).symm
    · dsimp only [setRename, conn_setConn]
      rw [Map.get?_set_self, hoff]
      simp only [Option.any_some, RenameStage.isParked, Option.isSome_some, Bool.toNat_true,
        Bool.toNat_false]
      omega
    · simp [setRename, hnot, RenameStage.isDialing]
    · intro hcatch hnone
      exact absurd hnone (hcalm hcatch)
  · exact h.wired.rename hoff (settled_of_attempts hattempts) rfl rfl rfl rfl

theorem handleDetached_single (c : CallId) (h : Single none st.conn (.detached c :: st.links)) :
    (handleDetached env st c).meets (Single none) := by
  have hdrop : st.meets (Single none) :=
    ⟨h.tokens.drop (fun _ => rfl) (fun _ => rfl) rfl, h.wired⟩
  unfold handleDetached
  split
  · next target old hstage =>
    have hparked : 1 ≤ st.conn.renames.count RenameStage.isParked :=
      (Map.count_pos_iff _ _).mpr ⟨c, _, hstage, rfl⟩
    have htotal := hdrop.tokens.total
    refine renameDial_single ?_ ?_ (by rw [hstage]; rfl) ?_ hdrop
    · cases hon : st.conn.online with
      | false => rfl
      | true =>
          rw [hon, Bool.toNat_true] at htotal
          unfold busy at htotal
          omega
    · rw [hstage]
      simp only [Option.any_some, RenameStage.isParked, Bool.toNat_true]
      omega
    · intro hcatch hnone
      have hidle := (hdrop.tokens.calm hcatch hnone).2 c
      rw [hstage] at hidle
      cases hidle
  · exact hdrop

theorem handleRenameRetry_single (c : CallId) (h : st.meets (Single none)) :
    (handleRenameRetry env st c).meets (Single none) := by
  unfold handleRenameRetry
  split
  · next target old attempt hstage =>
    have htotal := h.tokens.total
    simp only [Option.isSome_none, Bool.toNat_false] at htotal
    refine doConnect_single ⟨?_, h.wired.of_same rfl⟩
    refine h.tokens.stage (.set _ c _) (fun o ho => (by cases ho)) ?_ ?_ ?_ ?_
    · intro o ho
      exact (Option.some.inj ho).symm
    · dsimp only [setRename, conn_setConn]
      rw [Map.get?_set_self, hstage]
      simp only [Option.any_some, RenameStage.isParked, Option.isSome_some, Bool.toNat_true,
        Bool.toNat_false]
      omega
    · simp [setRename, hstage, RenameStage.isDialing]
    · intro hcatch hnone
      have hidle := (h.tokens.calm hcatch hnone).2 c
      rw [hstage] at hidle
      cases hidle
  · exact h

/-- A rename detaches a client that is online while no other rename is under way. -/
theorem renameDetach_single (c : CallId) (target : String) (hon : st.conn.online = true)
    (hfree : st.conn.free) (h : st.meets (Single none)) :
    (renameDetach env st c target).meets (Single none) := by
  obtain ⟨st₁, hconn, hlinks, heq⟩ := renameDetach_eq env st c target
  obtain ⟨armed, hclear⟩ := clearReconnectTimer_eq st.conn
  have hdetach : st.conn.detach = { st.conn with
      reconnectTimer := none, armed, intentionallyClosed := true, heartbeat := false
      socket := none, online := false } := by
    unfold Conn.detach
    rw [hclear]
  have hleft : Tokens none st.conn.detach st.links ∧ busy st.conn.detach st.links = 0 ∧
      ((∃ j ∈ st.links, Job.isCatch j = true) → st.conn.detach.connecting ≠ none) :=
    h.tokens.leave hon hfree (by rw [hdetach]) (by rw [hdetach]) (by rw [hdetach])
      (by rw [hdetach]) (by rw [hdetach])
  obtain ⟨htokens, hbusy, hcalm⟩ := hleft
  have hattempts : attempts (fun _ => true) st.conn.detach st.links = 0 := by
    unfold busy at hbusy
    omega
  have hsettled := settled_of_attempts hattempts
  have hsame : st.conn.detach.renames.get? c = st.conn.renames.get? c := by rw [hdetach]
  have hidle : RenameStage.isIdle (st.conn.detach.renames.get? c) = true := by
    rw [hsame]
    exact hfree c
  have hstill : (st.conn.detach.renames.get? c).any RenameStage.isDialing = false ∧
      (st.conn.detach.renames.get? c).any RenameStage.isParked = false := by
    cases hstage : st.conn.detach.renames.get? c with
    | none => exact ⟨rfl, rfl⟩
    | some stage =>
        rw [hstage] at hidle
        cases stage with
        | connecting | restoring => exact ⟨rfl, rfl⟩
        | detaching | detached | dialing | sleeping => cases hidle
  have hsockets : st.conn.detach.sockets = st.conn.sockets := by rw [hdetach]
  have hfresh : ∀ s, st.conn.detach.nextSocket ≤ s → st.conn.detach.sockets.get? s = none := by
    rw [hdetach]
    exact h.wired.fresh
  have huser : st.conn.detach.userClosed = false := by
    rw [hdetach]
    exact h.wired.free
  have hoff : st.conn.detach.online = false := by rw [hdetach]
  rw [heq]
  split
  · next sock hsock =>
    obtain ⟨hsocket, -⟩ := Option.filter_eq_some_iff.mp hsock
    show Single none { st₁.conn.modifySocket sock fun s => { s with ended := true } with
      renames := (st₁.conn.modifySocket sock fun s => { s with ended := true }).renames.set c _ }
      st₁.links
    rw [hconn, hlinks]
    have htouch := htokens.touch sock (f := fun s => { s with ended := true }) fun s => ⟨rfl, rfl⟩
    have hpace := pace_modifySocket st.conn.detach sock fun s => { s with ended := true }
    simp only [Conn.pace, Prod.mk.injEq] at hpace
    obtain ⟨hconnecting, hsleeps, hrenames, honline⟩ := hpace
    have hcount : busy (st.conn.detach.modifySocket sock fun s => { s with ended := true }) st.links = 0 := by
      unfold busy at hbusy ⊢
      have hsame := attempts_modifySocket (fun _ => true) st.conn.detach st.links sock
        (f := fun s => { s with ended := true }) fun s => ⟨rfl, rfl⟩
      rw [hsame, hsleeps, hrenames]
      exact hbusy
    refine ⟨?_, ?_⟩
    · refine htouch.stage (.set _ c _) (fun o ho => (by cases ho)) (fun o ho => (by cases ho)) ?_ ?_ ?_
      · dsimp only
        rw [hcount, honline, hoff, Map.get?_set_self]
        simp [RenameStage.isParked]
      · dsimp only
        rw [hrenames, hstill.1, Map.get?_set_self]
        simp [RenameStage.isDialing]
      · intro hcatch hnone
        have hgone : st.conn.detach.connecting = none := by
          rw [hnone] at hconnecting
          simpa using hconnecting.symm
        exact absurd hgone (hcalm hcatch)
    · refine Wired.idle ?_ ?_ ?_ ?_ ?_
      · show (Conn.modifySocket ..).userClosed = false
        unfold Conn.modifySocket
        split
        · exact huser
        · exact huser
      · intro s hs
        have hs : st.conn.detach.nextSocket ≤ s := by
          refine Nat.le_trans (Nat.le_of_eq ?_) hs
          show _ = (Conn.modifySocket ..).nextSocket
          unfold Conn.modifySocket
          split
          · rfl
          · rfl
        show (Conn.modifySocket ..).sockets.get? s = none
        rw [get?_modifySocket, hfresh s hs]
        split
        · next hsame => rw [← hsame, hfresh s hs]; rfl
        · rfl
      · intro s x hx
        have hx : (Conn.modifySocket ..).sockets.get? s = some x := hx
        rw [get?_modifySocket] at hx
        split at hx
        · obtain ⟨y, hy, rfl⟩ := Option.map_eq_some_iff.mp hx
          exact hsettled _ y hy
        · exact hsettled s x hx
      · intro s x hx
        have hx : (Conn.modifySocket ..).sockets.get? s = some x := hx
        rw [get?_modifySocket] at hx
        split at hx
        · obtain ⟨y, hy, rfl⟩ := Option.map_eq_some_iff.mp hx
          simp [ClientSocket.isOpen]
        · next hne =>
          cases hopen : x.isOpen with
          | false => rfl
          | true =>
              rw [hsockets] at hx
              have hcurrent := (h.wired.others s x hx hopen).2
              rw [hsocket] at hcurrent
              exact absurd (Option.some.inj hcurrent).symm hne
      · exact honline.trans hoff
  · next hsock =>
    have hwired : Wired st.conn.detach := by
      refine .idle huser hfresh hsettled ?_ hoff
      intro s x hx
      cases hopen : x.isOpen with
      | false => rfl
      | true =>
          rw [hsockets] at hx
          have hcurrent := (h.wired.others s x hx hopen).2
          rw [Option.filter_eq_none_iff] at hsock
          have hdead := hsock s hcurrent
          simp [Conn.isAlive, hx] at hdead
          simp [ClientSocket.isOpen, hdead] at hopen
    have hmeets : st₁.meets (Single none) := by
      rw [ClientState.meets, hconn, hlinks]
      exact ⟨htokens, hwired⟩
    refine renameDial_single (by rw [hconn]; exact hoff) ?_ (by rw [hconn]; exact hstill.1) ?_ hmeets
    · rw [hconn, hlinks, hbusy]
      exact Nat.zero_le _
    · rw [hconn, hlinks]
      exact hcalm

/-- The dial of a rename returns.  Where it gives up it was the only one under way, so its
`connect()` dials alone. -/
theorem handleRenameDialed_single (c : CallId) (r : Except ConnectError (WelcomeInfo ν))
    (h : Single none st.conn (.dialed (.rename c) r :: st.links)) :
    (handleRenameDialed env st c r).meets (Single none) := by
  have hdials : (st.conn.renames.get? c).any RenameStage.isDialing = true := by
    have hren := h.tokens.rename c
    by_contra hnot
    rw [Bool.not_eq_true] at hnot
    rw [hnot] at hren
    cases r with
    | ok info => simp [Job.dialDone, Owner.isRename] at hren
    | error err => simp [attempts, Job.dialFailed, Owner.isRename] at hren
  unfold handleRenameDialed
  split
  · next target old attempt hstage =>
    cases r with
    | ok info =>
        dsimp only
        have hdelete := OneStage.delete st.conn c
        have hone : OneStage c st.conn { st.conn with
            intentionallyClosed := false, renames := st.conn.renames.delete c } :=
          ⟨rfl, rfl, rfl, rfl, hdelete.others, hdelete.parked⟩
        refine (finishRename_still _ c _).meets ?_
        exact ⟨h.tokens.return hone (Map.get?_delete_self _ _), h.wired.of_same rfl⟩
    | error err =>
        have hdebt : Tokens (some (.rename c)) st.conn st.links := h.tokens.take
        have htotal := hdebt.total
        simp only [Option.isSome_some, Bool.toNat_true] at htotal
        obtain ⟨hoff, hsettled⟩ := hdebt.alone
        dsimp only
        split
        · refine ⟨hdebt.stage (.set _ c _) ?_ (fun o ho => (by cases ho)) ?_ ?_ ?_, h.wired.of_same rfl⟩
          · intro o ho
            exact (Option.some.inj ho).symm
          · dsimp only [setRename, conn_setConn]
            rw [Map.get?_set_self, hstage, hoff]
            simp only [Option.any_some, RenameStage.isParked, Option.isSome_none, Bool.toNat_true,
              Bool.toNat_false]
            omega
          · simp [setRename, hstage, RenameStage.isDialing]
          · intro hcatch hnone
            have hidle := (hdebt.calm hcatch hnone).2 c
            rw [hstage] at hidle
            cases hidle
        · have hset := OneStage.set st.conn c (.restoring old err)
          have hone : OneStage c st.conn { st.conn with
              name := old, intentionallyClosed := true
              renames := st.conn.renames.set c (.restoring old err) } :=
            ⟨rfl, rfl, rfl, rfl, hset.others, hset.parked⟩
          have htokens : Tokens none { st.conn with
              name := old, intentionallyClosed := true
              renames := st.conn.renames.set c (.restoring old err) } st.links := by
            refine hdebt.stage hone ?_ (fun o ho => (by cases ho)) ?_ ?_ ?_
            · intro o ho
              exact (Option.some.inj ho).symm
            · dsimp only
              rw [Map.get?_set_self, hstage, hoff]
              simp only [Option.any_some, RenameStage.isParked, Option.isSome_none, Bool.toNat_false]
              omega
            · simp [hstage, RenameStage.isDialing]
            · intro _ _
              dsimp only
              rw [Map.get?_set_self]
              rfl
          refine connect_single ?_ ⟨htokens, h.wired.rename hoff hsettled rfl rfl rfl rfl⟩
          intro _ _
          by_contra hfree
          have hone' := Tokens.one_of_not_free (fun c => by simpa using htokens.rename c)
            htokens.won hfree
          have hzero : busy st.conn st.links = 0 := by omega
          have hparked := hone.parked
          dsimp only at hparked hone'
          rw [Map.get?_set_self, hstage] at hparked
          simp only [Option.any_some, RenameStage.isParked, Bool.toNat_false, Nat.add_zero] at hparked
          unfold busy at hone' hzero
          rw [hone.attempts, hone.sleeps, hparked, hoff, Bool.toNat_false] at hone'
          omega
  · next hnone =>
    cases hstage : st.conn.renames.get? c with
    | none => rw [hstage] at hdials; cases hdials
    | some stage =>
        rw [hstage] at hdials
        cases stage with
        | dialing target old attempt => exact absurd hstage (hnone target old attempt)
        | connecting | detaching | detached | sleeping | restoring => cases hdials

/-! ### The rest of the turn -/

theorem handleEnsured_single (owner : Owner) (ok : Bool) (hmem : owner ∈ st.conn.ensuring)
    (h : st.meets (Single none)) : (handleEnsured st owner ok).meets (Single none) := by
  have hdebt : Tokens (some owner) { st.conn with ensuring := st.conn.ensuring.erase owner }
      st.links := by
    refine h.tokens.move rfl (.refl _) ?_
    intro p
    have hperm := (List.perm_cons_erase hmem).countP_eq p
    rw [List.countP_cons] at hperm
    unfold attempts
    dsimp only
    cases hp : p owner with
    | true => simp [hp] at hperm ⊢; omega
    | false => simp [hp] at hperm ⊢; omega
  have hsingle : Single (some owner) { st.conn with ensuring := st.conn.ensuring.erase owner }
      st.links := ⟨hdebt, h.wired.of_same rfl⟩
  unfold handleEnsured
  dsimp only
  split
  · exact openSocket_single hsingle
  · rw [meets_setConn_push]
    exact ⟨hdebt.fail _, hsingle.wired⟩

theorem offline_of_unsettled {k : Conn} {js : List (Job ν)} {sock : ClientSocketId}
    {s : ClientSocket} (hs : k.sockets.get? sock = some s) (hdial : s.settled = false)
    (h : Tokens debt k js) : k.online = false := by
  have htotal := h.total
  have hpos := attempts_of_unsettled js hs hdial (p := fun _ => true) rfl
  cases hon : k.online with
  | false => rfl
  | true =>
      rw [hon, Bool.toNat_true] at htotal
      unfold busy at htotal
      omega

theorem opened_single {k : Conn} {js : List (Job ν)} {sock : ClientSocketId} {s : ClientSocket}
    (hs : k.sockets.get? sock = some s) (hdial : s.settled = false) (h : Single none k js) :
    Single none (k.modifySocket sock fun s => { s with hello := some k.name }) js := by
  refine ⟨h.tokens.touch sock fun s => ⟨rfl, rfl⟩, h.wired.touch sock ?_ (fun x hx => hx) ?_⟩
  · intro x _ hsettled
    exact ⟨hsettled, rfl, fun n hn => .inr (Option.some.inj hn).symm⟩
  · intro x hon
    rw [offline_of_unsettled hs hdial h.tokens] at hon
    cases hon

theorem handleHelloTimeout_single (sock : ClientSocketId) (h : st.meets (Single none)) :
    (handleHelloTimeout st sock).meets (Single none) := by
  unfold handleHelloTimeout
  split
  · split
    · refine failHandshake_single sock _ ⟨h.tokens.touch sock fun s => ⟨rfl, rfl⟩, ?_⟩
      refine h.wired.touch sock ?_ (fun x hx => hx) (fun x _ _ _ hj => ⟨hj, rfl⟩)
      intro x _ hsettled
      exact ⟨hsettled, rfl, fun n hn => .inl hn⟩
    · exact h
  · exact h

theorem handleSocketError_single (sock : ClientSocketId) (h : st.meets (Single none)) :
    (handleSocketError st sock).meets (Single none) := by
  unfold handleSocketError
  split
  · split
    · exact h
    · have hfail := failHandshake_single sock .brokerUnavailable h
      refine ⟨hfail.tokens.touch sock fun s => ⟨rfl, rfl⟩, ?_⟩
      refine hfail.wired.touch sock ?_ ?_ (fun x _ _ _ hj => ⟨hj, rfl⟩)
      · intro x _ hsettled
        exact ⟨hsettled, rfl, fun n hn => .inl hn⟩
      · intro x hopen
        simp [ClientSocket.isOpen] at hopen
  · exact h

end Moves

/-! ### Runs -/

section Runs

variable {env : ClientEnv}

/-- What the connection survives, as long as nobody dials beside a rename. -/
theorem single_keeps : Keeps env (Single (ν := ν) none) Unhurried (fun _ _ => True)
    (fun k _ => k.online = true ∧ k.free) False (fun s => s.hello.isSome = true) False where
  news k j js hj h := by
    refine ⟨h.tokens.drop ?_ ?_ ?_, h.wired⟩
    · intro p
      cases j <;> first | rfl | cases hj
    · intro p
      cases j <;> first | rfl | cases hj
    · cases j <;> first | rfl | cases hj
  connect _ _ hgo h := connect_single hgo h
  waits k js c target hnew h := by
    refine ⟨h.tokens.stage (.set k c _) (fun o ho => (by cases ho)) (fun o ho => (by cases ho)) ?_ ?_ ?_,
      h.wired.of_same rfl⟩
    · have htotal := h.tokens.total
      simpa [hnew, RenameStage.isParked] using htotal
    · simp [hnew, RenameStage.isDialing]
    · intro _ _
      dsimp only
      rw [Map.get?_set_self]
      rfl
  waits_go k js c target _ hgo := by
    intro hnone hlate
    refine (OneStage.set k c (.connecting target)).free (hgo hnone hlate) ?_
    dsimp only
    rw [Map.get?_set_self]
    rfl
  detach _ c target hde _ h := renameDetach_single c target hde.1 hde.2 h
  forget k js c hidle h := by
    have hstill : (k.renames.get? c).any RenameStage.isDialing = false ∧
        (k.renames.get? c).any RenameStage.isParked = false := by
      cases hstage : k.renames.get? c with
      | none => exact ⟨rfl, rfl⟩
      | some stage =>
          rw [hstage] at hidle
          cases stage with
          | connecting | restoring => exact ⟨rfl, rfl⟩
          | detaching | detached | dialing | sleeping => cases hidle
    refine ⟨h.tokens.stage (.delete k c) (fun o ho => (by cases ho)) (fun o ho => (by cases ho)) ?_ ?_ ?_,
      h.wired.of_same rfl⟩
    · have htotal := h.tokens.total
      dsimp only
      rw [Map.get?_delete_self, hstill.2]
      simpa using htotal
    · dsimp only
      rw [Map.get?_delete_self, hstill.1]
      rfl
    · intro _ _
      dsimp only
      rw [Map.get?_delete_self]
      rfl
  dialed _ r h := handleDialed_single r h
  renameDialed _ c r h _ := handleRenameDialed_single c r h
  connectDone _ r h := handleConnectDone_single r h
  backoffFailed _ err h := backoffFailed_single err h
  welcomed k js owner info r h hr := by
    obtain rfl : r = .ok info := hr.resolve_right fun hthrew => hthrew.2
    exact ⟨h.tokens.swap (by rfl) (by rfl) (by rfl) (fun _ => rfl) (fun _ => rfl) (fun _ => rfl) (by rfl)
      rfl rfl, h.wired.of_same rfl⟩
  detached _ c h := handleDetached_single c h
  retry _ h := handleRetry_single h
  renameRetry _ c h := handleRenameRetry_single c h
  ensured _ owner ok hmem h := handleEnsured_single owner ok hmem h
  opened _ _ _ _ hs hdial h := opened_single hs hdial h
  welcome _ _ _ frame hs hdial hclosed hhello h :=
    acceptWelcome_single frame hs hdial hclosed hhello h
  refused _ sock err h := failHandshake_single sock err h
  helloTimeout _ sock h := handleHelloTimeout_single sock h
  socketError _ sock h := handleSocketError_single sock h
  socketClose _ sock hlinks h := handleSocketClose_single sock hlinks h
  backoff st t _ ht hgo h := by
    unfold handleBackoff
    rw [if_pos ht]
    exact connect_single hgo ⟨h.tokens.of_same rfl rfl rfl, h.wired.of_same rfl⟩
  close _ _ hclose _ := hclose.elim
  endWait _ c h := endWait_single c h

/-- Nobody dials while a rename is between its detach and its return, no rename detaches
there, and what waits in the outbox can be written at the welcome.  The broker welcomes
whom it got a hello from, and nobody closes the client. -/
structure Orderly (env : ClientEnv) (st : ClientState ν) (e : ClientEvent ν) : Prop where
  dial : reachesConnect env st e = true → st.conn.connecting = none →
    ¬ (st.conn.online = true ∧ st.conn.socket.isSome = true) → st.conn.free
  detach : detaches env st e = true → st.conn.online = true ∧ st.conn.free
  flush : throws env st e = false
  asked : unasked st e = false
  stays : e.isClose = false

theorem single_run {name : String} {rooms : List String} {reservations : List FileReservation}
    {tr : ClientTrace ν} {st : ClientState ν}
    (hrun : Run (ClientStep env) (ClientState.init name rooms reservations) tr st)
    (hsafe : Meets (fun st e => Orderly env st e.2) tr) : st.meets (Single none) := by
  refine hrun.invariant (P := fun st => st.meets (Single none)) hsafe ?_ ?_
  · refine ⟨⟨Nat.zero_le 1, rfl, fun c => rfl, ?_, List.Pairwise.nil, ?_⟩, .idle rfl ?_ ?_ ?_ rfl⟩
    · intro c hpos
      cases hpos
    · rintro ⟨j, hj, _⟩
      cases hj
    · intro s _
      rfl
    · intro s x hx
      cases hx
    · intro s x hx
      cases hx
  · intro st e st' h hok hstep
    have hstep : clientStep env e.1 st e.2 = st' := hstep
    rw [← hstep]
    refine clientStep_meets single_keeps e.2 hok.dial (fun _ => True.intro) hok.detach ?_ ?_ ?_ h
    · intro hthrows
      rw [hok.flush] at hthrows
      cases hthrows
    · intro sock frame s he htype hs _
      have hasked := hok.asked
      rw [he] at hasked
      cases hhello : s.hello with
      | some name => rfl
      | none => simp [unasked, htype, hs, hhello] at hasked
    · intro c hc
      have hclose := hok.stays
      rw [hc] at hclose
      cases hclose

/-- One connection: at most one handshake, none of them beside a client that is online; at
most one socket open past its welcome; and a client that is online has its socket past the
welcome, not ended and not closed, known to the broker under the alias of the client. -/
structure OneConnection (k : Conn) : Prop where
  handshakes : k.ensuring.length + k.sockets.count (fun s => !s.settled) + k.online.toNat ≤ 1
  sockets : ∀ s s' x x', k.sockets.get? s = some x → k.sockets.get? s' = some x' →
    x.isOpen = true → x'.isOpen = true → s = s'
  online : k.online = true → ∃ s x, k.socket = some s ∧ k.sockets.get? s = some x ∧
    x.isJoined = true ∧ x.hello = some k.name ∧
    ∀ s' x', k.sockets.get? s' = some x' → x'.isOpen = true → s' = s

/-- Where nobody dials beside a rename, the client has one connection at every moment. -/
theorem one_connection {name : String} {rooms : List String}
    {reservations : List FileReservation} {tr : ClientTrace ν} {st : ClientState ν}
    (hrun : Run (ClientStep env) (ClientState.init name rooms reservations) tr st)
    (hsafe : Meets (fun st e => Orderly env st e.2) tr) : OneConnection st.conn := by
  have h := single_run hrun hsafe
  refine ⟨?_, ?_, ?_⟩
  · have htotal := h.tokens.total
    have hall : st.conn.ensuring.countP (fun _ => true) = st.conn.ensuring.length := by simp
    have hdials : ClientSocket.dials (fun _ => true) = fun s => !s.settled := by
      funext s
      simp [ClientSocket.dials]
    unfold busy attempts at htotal
    rw [hall, hdials] at htotal
    omega
  · intro s s' x x' hx hx' hopen hopen'
    have hs := (h.wired.others s x hx hopen).2
    have hs' := (h.wired.others s' x' hx' hopen').2
    rw [hs] at hs'
    exact Option.some.inj hs'
  · intro hon
    obtain ⟨s, x, hsocket, hx, hjoined, hhello⟩ := h.wired.online hon
    refine ⟨s, x, hsocket, hx, hjoined, hhello, ?_⟩
    intro s' x' hx' hopen
    have hs' := (h.wired.others s' x' hx' hopen).2
    rw [hsocket] at hs'
    exact (Option.some.inj hs').symm

end Runs

theorem free_iff (k : Conn) :
    k.renames.count (fun stage => !RenameStage.isIdle (some stage)) = 0 ↔ k.free := by
  constructor
  · intro hzero c
    by_contra hbusy
    cases hstage : k.renames.get? c with
    | none => rw [hstage] at hbusy; exact hbusy rfl
    | some stage =>
        rw [hstage, Bool.not_eq_true] at hbusy
        have hpos := (Map.count_pos_iff k.renames fun stage => !RenameStage.isIdle (some stage)).mpr
          ⟨c, stage, hstage, by simp [hbusy]⟩
        omega
  · intro hfree
    refine Nat.eq_zero_of_not_pos fun hpos => ?_
    obtain ⟨c, stage, hstage, hbusy⟩ := (Map.count_pos_iff _ _).mp hpos
    have hidle := hfree c
    rw [hstage] at hidle
    simp [hidle] at hbusy

instance (k : Conn) : Decidable k.free := decidable_of_iff _ (free_iff k)

instance (env : ClientEnv) (st : ClientState ν) (e : ClientEvent ν) :
    Decidable (Orderly env st e) :=
  decidable_of_iff
    ((reachesConnect env st e = true → st.conn.connecting.isNone = true →
        ¬ (st.conn.online = true ∧ st.conn.socket.isSome = true) → st.conn.free) ∧
      (detaches env st e = true → st.conn.online = true ∧ st.conn.free) ∧
      throws env st e = false ∧ unasked st e = false ∧ e.isClose = false)
    ⟨fun h => ⟨fun hr hn => h.1 hr (by simp [hn]), h.2.1, h.2.2.1, h.2.2.2.1, h.2.2.2.2⟩,
      fun h => ⟨fun hr hn => h.dial hr (by simpa using hn), h.detach, h.flush, h.asked, h.stays⟩⟩

/-- `alice` takes the alias `bob`. -/
def renames : List (Int × ClientEvent Int) :=
  connects 0 0 ++ [(2000, .call 1 (.rename "bob")), (2001, .closed 0), (2001, .microtask),
    (2002, .connected 1), (2003, .line 1 (inboundOf .welcome "w")), (2003, .microtask),
    (2003, .microtask)]

theorem one_connection_renamed : ∃ (tr : ClientTrace Int) (st : ClientState Int),
    Run (ClientStep referenceClient) aliceClient tr st ∧ st.conn.online = true ∧
    st.conn.name = "bob" ∧ OneConnection st.conn := by
  have hcheck : (fun r : ClientTrace Int × ClientState Int =>
      decide (∀ x ∈ r.1, Orderly referenceClient x.1 x.2.2) && r.2.conn.online &&
        decide (r.2.conn.name = "bob")) (runClient referenceClient aliceClient renames) = true := by
    decide +kernel
  simp only [Bool.and_eq_true, decide_eq_true_eq] at hcheck
  obtain ⟨⟨hsafe, hon⟩, hname⟩ := hcheck
  have hrun := run_runClient referenceClient aliceClient renames
  exact ⟨_, _, hrun, hon, hname, one_connection hrun hsafe⟩

/-- A message is sent while the rename waits for the old socket. -/
def races : List (Int × ClientEvent Int) :=
  connects 0 0 ++ [(2000, .call 1 (.rename "bob")),
    (2000, .call 2 (.send { recipient := some "carol", message := "hi" })),
    (2001, .closed 0), (2001, .microtask), (2002, .connected 1),
    (2003, .line 1 (inboundOf .welcome "w")), (2003, .microtask), (2003, .microtask),
    (2003, .microtask), (2003, .microtask), (2004, .connected 2),
    (2005, .line 2 (inboundOf .welcome "w")), (2005, .microtask), (2005, .microtask)]

/-- The send dials and the rename dials, and the broker welcomes both. -/
theorem two_connections : ∃ (tr : ClientTrace Int) (st : ClientState Int),
    Run (ClientStep referenceClient) aliceClient tr st ∧
    (∀ x ∈ tr, throws referenceClient x.1 x.2.2 = false ∧ unasked x.1 x.2.2 = false ∧
      x.2.2.isClose = false) ∧
    (∃ x ∈ tr, x.1.conn.sockets.count (fun s => !s.settled) = 2) ∧
    st.conn.sockets.count ClientSocket.isOpen = 2 ∧ ¬ OneConnection st.conn := by
  have hcheck : (fun r : ClientTrace Int × ClientState Int =>
      decide (∀ x ∈ r.1, throws referenceClient x.1 x.2.2 = false ∧ unasked x.1 x.2.2 = false ∧
        x.2.2.isClose = false) &&
      r.1.any (fun x => decide (x.1.conn.sockets.count (fun s => !s.settled) = 2)) &&
      decide (r.2.conn.sockets.count ClientSocket.isOpen = 2) &&
      ((r.2.conn.sockets.get? 1).any ClientSocket.isOpen &&
        (r.2.conn.sockets.get? 2).any ClientSocket.isOpen))
      (runClient referenceClient aliceClient races) = true := by
    decide +kernel
  simp only [Bool.and_eq_true, decide_eq_true_eq, List.any_eq_true, Option.any_eq_true] at hcheck
  obtain ⟨⟨⟨hfair, hdials⟩, hcount⟩, ⟨x₁, hx₁, hopen₁⟩, x₂, hx₂, hopen₂⟩ := hcheck
  refine ⟨_, _, run_runClient referenceClient aliceClient races, hfair, hdials, hcount, ?_⟩
  intro h
  have hsame := h.sockets 1 2 x₁ x₂ hx₁ hx₂ hopen₁ hopen₂
  cases hsame

end PiMesh
