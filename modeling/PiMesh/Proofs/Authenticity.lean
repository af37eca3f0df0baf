/-
Whose frame it is.

The broker trusts the `from` member of a line because of the socket the line came on: the
alias has a record, and the record names that socket.  What is proved here is that the
trust is earned.  A record is bound to a socket by a hello for its alias that was read from
the same socket and accepted, it stays bound to it until it goes, and while the socket is
alive no other socket can take the alias.

Nothing is assumed of the run: a socket may claim several aliases, a destroyed socket may
still deliver the rest of a chunk, an alias may come back on another socket.
-/
import PiMesh.Proofs.Deliveries

namespace PiMesh

open Js Transition BrokerState

variable {ν : Type} [Number ν] [DecidableEq ν]

/-- The alias has a record, and it names the socket. -/
def BoundTo (st : BrokerState ν) (name : String) (sock : SocketId) : Prop :=
  ∃ p, st.peers.get? name = some p ∧ p.socket = sock

/-- A token was asked for and the frame carries its digest, or none was asked for. -/
def CarriesToken (env : Env) (st : BrokerState ν) (sock : SocketId) (f : MeshFrame ν) : Prop :=
  ∀ s, st.sockets.get? sock = some s → s.tokenRequired = true →
    ∃ secret, env.cfg.brokerToken = some secret ∧ f.token = some (env.rt.sha256 secret)

/-- The event is a hello for the alias, read from the socket, and the broker accepts it. -/
structure Binds (env : Env) (sock : SocketId) (name : String) (x : BrokerState ν × Int × Event) :
    Prop where
  hello : ∃ text f, x.2.2 = .line sock text ∧ Accepted env text f ∧ f.type = .hello ∧
    f.sender = some name ∧ CarriesToken env x.1 sock f
  accepted : ∃ st', BrokerStep env x.1 x.2 st' ∧ BoundTo st' name sock

/-- The last hello that bound the alias bound it to this socket, and it has been bound to it
ever since. -/
def BoundSince (env : Env) (tr : BrokerTrace ν) (name : String) (sock : SocketId) : Prop :=
  ∃ tr₁ x tr₂, tr = tr₁ ++ x :: tr₂ ∧ Binds env sock name x ∧ ∀ y ∈ tr₂, BoundTo y.1 name sock

section Binding

variable {env : Env} {epoch : Int} {tr : BrokerTrace ν} {st st' : BrokerState ν} {name : String}
  {sock : SocketId}

theorem carriesToken_of_accepted {f : MeshFrame ν}
    (h : tokenAccepted env (st.sockets.get? sock) f.token = true) : CarriesToken env st sock f := by
  intro s hs hreq
  simp only [tokenAccepted, hs, hreq, if_true] at h
  split at h
  · next secret hsecret => exact ⟨secret, hsecret, by simpa using h⟩
  · cases h

/-- One step keeps a binding, or is the hello that makes it. -/
theorem boundTo_step {e : Int × Event} (h : Consistent False env.cfg st)
    (hstep : BrokerStep env st e st') (hbound : BoundTo st' name sock) :
    BoundTo st name sock ∨ Binds env sock name (st, e) := by
  obtain ⟨p, hp, hsock⟩ := hbound
  rcases record_step h hstep hp with ⟨p₀, hp₀, hsame⟩ | ⟨text, f, he, hacc, hopen, -⟩
  · exact .inl ⟨p₀, hp₀, hsame.socket.symm.trans hsock⟩
  · rw [hsock] at he hopen
    exact .inr ⟨⟨text, f, he, hacc, hopen.type, hopen.sender, carriesToken_of_accepted hopen.token⟩,
      st', hstep, p, hp, hsock⟩

/-- **Along every run**, a bound alias was bound by a hello from its own socket. -/
theorem boundSince_run (hrun : Run (BrokerStep env) (BrokerState.init epoch) tr st)
    (hbound : BoundTo st name sock) : BoundSince env tr name sock := by
  refine hrun.along (P := fun tr st => BoundTo st name sock → BoundSince env tr name sock)
    (Meets.trivial tr) ?_ ?_ hbound
  · intro h
    obtain ⟨p, hp, -⟩ := h
    cases hp
  · intro tr s e s' hr _ ih _ hstep h
    rcases boundTo_step (linked_run hr) hstep h with hprev | hbinds
    · obtain ⟨tr₁, x, tr₂, htr, hx, hsince⟩ := ih hprev
      refine ⟨tr₁, x, tr₂ ++ [(s, e)], by simp [htr], hx, ?_⟩
      intro y hy
      rcases List.mem_append.mp hy with hy | hy
      · exact hsince y hy
      · rw [List.mem_singleton.mp hy]
        exact hprev
    · exact ⟨tr, (s, e), [], rfl, hbinds, by simp⟩

/-- A live socket keeps its alias against every other socket. -/
theorem boundTo_unique {e : Int × Event} {sock' : SocketId} (h : Consistent False env.cfg st)
    (hbound : BoundTo st name sock) (halive : st.isDestroyed sock = false)
    (hstep : BrokerStep env st e st') (hbound' : BoundTo st' name sock') : sock' = sock := by
  obtain ⟨p, hp, rfl⟩ := hbound
  obtain ⟨q, hq, rfl⟩ := hbound'
  rcases record_step h hstep hq with ⟨p₀, hp₀, hsame⟩ | ⟨text, f, -, -, hopen, -⟩
  · obtain rfl := Option.some.inj (hp.symm.trans hp₀)
    exact hsame.socket
  · -- the hello was let in, so the alias was free: here, bound to the hello's own socket
    have hfree := hopen.free
    simp only [hp, Option.any_some, halive, Bool.not_false, Bool.and_true, bne_eq_false_iff_eq]
      at hfree
    exact hfree.symm

end Binding

/-- The frame came from the socket its sender was bound to. -/
structure Authentic (env : Env) (epoch : Int) (tr : BrokerTrace ν) (o : Origin ν) (a : String)
    (out : Members ν) (name : String) : Prop where
  reaches : o.Reaches env out name
  accepted : Accepted env o.text o.frame
  sender : o.frame.sender = some a
  signed : (getOf out "from").bind asStr = some a
  bound : BoundTo o.pre a o.sock
  history : ∃ tr₁ tr₂, tr = tr₁ ++ (o.pre, o.now, .line o.sock o.text) :: tr₂ ∧
    Run (BrokerStep env) (BrokerState.init epoch) tr₁ o.pre ∧ BoundSince env tr₁ a o.sock

/-- **Senders are who they say**: every frame that is passed on or stored was read from the
socket that its sender was bound to, by a hello from that socket which was accepted; and no
event binds an alias to another socket while its own is alive. -/
theorem senders_authentic {env : Env} {epoch : Int} {tr : BrokerTrace ν} {st : BrokerState ν}
    (hrun : Run (BrokerStep env) (BrokerState.init epoch) tr st) :
    (∀ name out, Delivered st name out → ∃ o a, Authentic env epoch tr o a out name) ∧
    (∀ w ∈ st.writes, ∀ t, frameType? w.frame = some t → t.isOwn = false →
      ∃ name out, w.delivers? = some (name, out) ∧ Delivered st name out ∧
        getOf w.frame "from" = getOf out "from") ∧
    (∀ a sock, BoundTo st a sock → st.isDestroyed sock = false →
      ∀ e st', BrokerStep env st e st' → ∀ sock', BoundTo st' a sock' → sock' = sock) := by
  refine ⟨?_, ?_, ?_⟩
  · intro name out hd
    obtain ⟨o, hmet, hreach⟩ := delivered_sent hrun hd
    obtain ⟨hsender, hrecord⟩ := authed_sender hmet.keyed hmet.authed
    obtain ⟨-, -, -, hsock, -⟩ := authed_eq_some hmet.authed
    obtain ⟨tr₁, tr₂, htr, hr⟩ := hrun.of_mem hmet.mem
    have hbound : BoundTo o.pre o.peer.name o.sock := ⟨o.peer, hrecord, hsock⟩
    refine ⟨o, o.peer.name, hreach, hmet.accepted, hsender, ?_, hbound, tr₁, tr₂, htr, hr,
      boundSince_run hr hbound⟩
    rw [hreach.keeps (by decide)]
    exact hmet.carries.1
  · intro w hw t ht hown
    obtain ⟨name, out, hd, hdel, -, hsame⟩ := delivered_of_write hrun hw ht hown
    exact ⟨name, out, hd, hdel, hsame "from" (by decide)⟩
  · intro a sock hbound halive e st' hstep sock' hbound'
    exact boundTo_unique (linked_run hrun) hbound halive hstep hbound'

/-- Socket 0 claims two aliases and is lost; alice comes back on socket 2 and writes to bob. -/
def aliceRebinds : List (Int × Event) :=
  [(1000, .connect 0 false none), (1001, .line 0 (frameLine .hello "m_1" "alice" [])),
    (1002, .line 0 (frameLine .hello "m_2" "carol" [])), (1003, .connect 1 false none),
    (1004, .line 1 (frameLine .hello "m_3" "bob" [])), (1005, .lost 0),
    (1006, .connect 2 false none), (1007, .line 2 (frameLine .hello "m_4" "alice" [])),
    (1008, .line 2 (frameLine .msg "m_5" "alice" [("to", .str "bob"), ("body", .str "hi")]))]

theorem senders_authentic_returning : ∃ (tr : BrokerTrace Int) (st : BrokerState Int),
    tr.map Prod.snd = aliceRebinds ∧
    ∃ w ∈ st.writes, ∃ out o a, w.delivers? = some ("bob", out) ∧
      Authentic (referenceEnv {}) 1 tr o a out "bob" := by
  have h : ((runBroker (referenceEnv {}) aliceRebinds).any fun r =>
      decide (WroteTo r.2 "bob" .msg)) = true := by decide +kernel
  obtain ⟨tr, st, hrun, htr, hcheck⟩ := exists_run h
  obtain ⟨w, hw, hname, htype⟩ := of_decide_eq_true hcheck
  obtain ⟨hdelivered, hwritten, -⟩ := senders_authentic hrun
  obtain ⟨name, out, hd, hdel, -⟩ := hwritten w hw .msg htype rfl
  rw [hd] at hname
  obtain rfl := Option.some.inj hname
  obtain ⟨o, a, hauthentic⟩ := hdelivered _ _ hdel
  exact ⟨tr, st, htr, w, hw, out, o, a, hd, hauthentic⟩

end PiMesh
