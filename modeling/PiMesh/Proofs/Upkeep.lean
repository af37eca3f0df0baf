/-
The saved identity follows the client.

Between two events the file names what the client had when it was last saved.  Of the rooms
and the reservations that is what it has now, unless a request has returned whose tool or
command has yet to save; of the alias, unless a rename or a fallback is on its way.  So when
nothing is under way the file and the client agree, and a reload finds what there was.

Four things break this.  The timer of an auto-release saves before its request has returned;
a leave that is answered with `not_member` takes the room away and is not saved; a random
alias that is refused is kept; and a rename that gives up goes back to an alias the file may
not have.
-/
import PiMesh.Proofs.Holdings
import PiMesh.Proofs.Aliases
import PiMesh.Proofs.Identity
import PiMesh.Client.Reference

namespace PiMesh

open Js Transition

variable {ν : Type} [Number ν]

/-! ### The statement -/

namespace UpkeepSession

/-- Every operation has completed, and no alias is on trial. -/
structure Quiet (s : UpkeepSession ν) : Prop where
  tasks : ∀ c, s.tasks.get? c = none
  renames : ∀ c, s.client.conn.renames.get? c = none
  fallback : s.client.conn.connecting.any Connecting.isFallback = false

/-- The identity as it would be saved now. -/
def identity (env : UpkeepEnv) (s : UpkeepSession ν) (savedAt : Int) : PersistedIdentity :=
  identityFromClient env.client.rt savedAt env.sessionId (s.client.identity env.client)
    (some s.preferredAlias)

/-- The identity that is read from the state directory. -/
def reload (env : UpkeepEnv) (s : UpkeepSession ν) (calls : FileCalls) (now : Int) :
    Option PersistedIdentity :=
  (MeshIdentity.load ν env.client.rt calls now s.dir env.sessionId env.identityKey).2

/-- The file holds the identity of the client, and a reload finds it. -/
def Saved (env : UpkeepEnv) (s : UpkeepSession ν) : Prop :=
  ∀ file, MeshIdentity.pathFor env.sessionId env.identityKey = some file →
    ∃ savedAt, s.dir.get? file = some (identityText (ν := ν) (s.identity env savedAt).members) ∧
      ∀ (calls : FileCalls) now, (∀ name, calls (.read name) = true) →
        (given env.identityKey = none → env.sessionId ≠ "") → s.client.conn.name ≠ "" →
        s.reload env calls now =
          some ((s.identity env savedAt).reread ν env.client.rt now env.sessionId)

/-- What was saved is what there is, once everything has completed. -/
def Follows (env : UpkeepEnv) (s : UpkeepSession ν) : Prop :=
  s.ready = true → s.Quiet → s.Saved env

end UpkeepSession

/-- The system does its part, and nothing is changed that is not saved. -/
structure KeepsStep (env : UpkeepEnv) (s : UpkeepSession ν) (x : (Int × FileCalls) × UpkeepEvent ν) :
    Prop where
  calls : ∀ call, x.1.2 call = true
  /-- The release of a timer that is acknowledged leaves the reservations as they are. -/
  released : ∀ e c merged releasing id ack, x.2 = .client e → c ∈ s.timed →
    SettlesTrip s.client e c (.release merged releasing) id ack → ack.isError = false →
    merged = s.client.ownReservations
  /-- A room that cannot be left because the client is no member was not there. -/
  left : ∀ e c room id ack, x.2 = .client e → SettlesTrip s.client e c (.leave room) id ack →
    ack.isError = true → ack.code = some (some .notMember) → room ∉ s.client.joinedRooms.elems
  /-- No random alias is refused. -/
  fallback : ∀ e, x.2 = .client e → fallbackFails s.client e = false
  /-- A rename gives up only for the alias that is saved. -/
  back : ∀ e old, x.2 = .client e → goesBack s.client e = some old → s.ready = true →
    (s.reload env x.1.2 x.1.1).map (fun id => id.name) = some old

/-! ### What holds between two events -/

namespace UpkeepSession

/-- The tool or the command that has made a round trip is still to go on. -/
def Behind (s : UpkeepSession ν) (c : CallId) : TripKind → Prop
  | .reserve => ∃ timed, s.tasks.get? c = some (.meshReserve timed)
  | .release => (∃ paths, s.tasks.get? c = some (.meshRelease paths)) ∨ c ∈ s.timed
  | .join => s.tasks.get? c = some .cmdJoin
  | .leave => s.tasks.get? c = some .cmdLeave

end UpkeepSession

/-- The rest of the task saves what its request has changed. -/
def UpkeepTask.saves : UpkeepTask → CallResult ν → Bool
  | .meshReserve _, .send (.delivered _ _ _ _ _) => true
  | .meshRelease _, .released _ (.delivered _ _ _ _ _) => true
  | .cmdJoin, .void => true
  | .cmdLeave, .void => true
  | _, _ => false

/-- Some task is about to save. -/
def UpkeepSession.Due (s : UpkeepSession ν) : Prop :=
  ∃ c task r, s.tasks.get? c = some task ∧ s.client.results.get? c = some r ∧ task.saves r = true

/-- The session as such. -/
structure UpkeepSound (env : UpkeepEnv) (s : UpkeepSession ν) : Prop where
  waits : Waits env.client.rt s.client.desk
  pledged : s.client.meets (Pledged 0)
  behind : ∀ c kind, s.client.trip c = some kind → s.Behind c kind

/-- The file holds `saved`, and what differs from that is still to be saved. -/
structure OnFile (env : UpkeepEnv) (s : UpkeepSession ν) (saved : ClientIdentity) : Prop where
  wrote : ∃ calls dir savedAt, MeshIdentity.save ν calls dir (identityFromClient env.client.rt savedAt
    env.sessionId saved (some s.preferredAlias)) env.identityKey = (s.dir, true)
  named : s.client.meets (Named saved.name)
  project : saved.projectRoomName = env.client.projectRoom
  held : s.Due ∨ saved.rooms = s.client.joinedRooms.elems ∧
    saved.reservations = s.client.ownReservations

section Client

variable {env : UpkeepEnv} {now : Int} {s : UpkeepSession ν} {saved : ClientIdentity}
  {e : ClientEvent ν} {tasks : Map CallId UpkeepTask} {timed : List CallId}

/-- The state after an event of the client, with the requests that are waited for then. -/
def UpkeepSession.moved (env : UpkeepEnv) (now : Int) (s : UpkeepSession ν) (e : ClientEvent ν)
    (tasks : Map CallId UpkeepTask) (timed : List CallId) : UpkeepSession ν :=
  { s with client := clientStep env.client now s.client e, tasks, timed }

theorem trip_tripAcked (st : ClientState ν) (c : CallId) (use : TripUse) (id : String) (ack : Ack)
    (c' : CallId) : (tripAcked st c use id ack).trip c' = if c' = c then none else st.trip c' := by
  have hfinish : ∀ (st' : ClientState ν) r, st'.calls = st.calls →
      (st'.finish c r).trip c' = if c' = c then none else st.trip c' := by
    intro st' r hcalls
    rw [trip_finish]
    unfold ClientState.trip
    rw [hcalls]
  cases use with
  | reserve merged | release merged releasing | join room role =>
      unfold tripAcked
      dsimp only
      split
      · exact hfinish st _ rfl
      · exact hfinish _ _ rfl
  | leave room =>
      unfold tripAcked
      dsimp only
      split
      · split
        · exact hfinish _ _ rfl
        · exact hfinish st _ rfl
      · exact hfinish _ _ rfl

theorem UpkeepSound.moved (hinj : Function.Injective env.client.rt.makeMsgId) (h : UpkeepSound env s)
    (hforget : ∀ c room, e ≠ .call c (.forgetRoom room))
    (htasks : ∀ c task, s.tasks.get? c = some task → tasks.get? c = some task)
    (htimed : ∀ c ∈ s.timed, c ∈ timed)
    (hcall : ∀ c op kind, e = .call c op → op.trip = some kind →
      (s.moved env now e tasks timed).Behind c kind) :
    UpkeepSound env (s.moved env now e tasks timed) := by
  refine ⟨clientStep_waits hinj e h.waits, clientStep_pledged now e h.pledged, ?_⟩
  have hold : ∀ c kind, s.client.trip c = some kind →
      (s.moved env now e tasks timed).Behind c kind := by
    intro c kind hkind
    have hbehind := h.behind c kind hkind
    cases kind with
    | reserve =>
        obtain ⟨ps, htask⟩ := hbehind
        exact ⟨ps, htasks c _ htask⟩
    | release =>
        rcases hbehind with ⟨paths, htask⟩ | hc
        · exact .inl ⟨paths, htasks c _ htask⟩
        · exact .inr (htimed c hc)
    | join => exact htasks c _ hbehind
    | leave => exact htasks c _ hbehind
  intro c kind hkind
  have hkind : (clientStep env.client now s.client e).trip c = some kind := hkind
  rcases clientStep_held env.client now s.client e hforget with hsame | ⟨c', use, id, ack, -, hstep⟩
  · rcases hsame.trips c with hnone | htrip | ⟨op, he, htrip⟩
    · rw [hnone] at hkind
      cases hkind
    · exact hold c kind (htrip.symm.trans hkind)
    · exact hcall c op kind he (htrip.symm.trans hkind)
  · rw [hstep, trip_tripAcked] at hkind
    split at hkind
    · cases hkind
    · exact hold c kind hkind

/-- What the acknowledgement of a round trip leaves to be saved. -/
theorem held_settled (hsound : UpkeepSound env s) {c : CallId} {use : TripUse} {id : String} {ack : Ack}
    (hsettles : SettlesTrip s.client e c use id ack)
    (hstep : clientStep env.client now s.client e = tripAcked s.client.pop c use id ack)
    (htasks : ∀ c task, s.tasks.get? c = some task → tasks.get? c = some task)
    (hreleased : ∀ merged releasing, use = .release merged releasing → c ∈ s.timed →
      ack.isError = false → merged = s.client.ownReservations)
    (hleft : ∀ room, use = .leave room → ack.isError = true → ack.code = some (some .notMember) →
      room ∉ s.client.joinedRooms.elems) :
    (s.moved env now e tasks timed).Due ∨
      (clientStep env.client now s.client e).joinedRooms = s.client.joinedRooms ∧
        (clientStep env.client now s.client e).ownReservations = s.client.ownReservations := by
  obtain ⟨-, -, hstage⟩ := hsettles
  have hnone : s.client.results.get? c = none := hsound.waits.apart c _ hstage
  have hbehind := hsound.behind c use.kind (trip_of_stage hstage)
  have hdue : ∀ task r, s.tasks.get? c = some task → task.saves r = true →
      (clientStep env.client now s.client e).results.get? c = some r →
      (s.moved env now e tasks timed).Due :=
    fun task r htask hsaves hr => ⟨c, task, r, htasks c task htask, hr, hsaves⟩
  have hresult : ∀ (st : ClientState ν) r, st.results = s.client.results →
      (st.finish c r).results.get? c = some r := by
    intro st r hresults
    have hhas : ¬st.results.has c = true := by rw [hresults]; exact not_has_of_none hnone
    unfold ClientState.finish
    dsimp only
    rw [if_neg hhas]
    exact Map.get?_set_self _ _ _
  rw [hstep] at hdue ⊢
  cases use with
  | reserve merged =>
      obtain ⟨ps, htask⟩ := hbehind
      unfold tripAcked at hdue ⊢
      dsimp only at hdue ⊢
      split at hdue
      · next hfailed =>
        rw [if_pos hfailed]
        exact .inr ⟨rfl, rfl⟩
      · next hok =>
        exact .inl (hdue _ _ htask rfl (hresult _ _ rfl))
  | release merged releasing =>
      unfold tripAcked at hdue ⊢
      dsimp only at hdue ⊢
      split at hdue
      · next hfailed =>
        rw [if_pos hfailed]
        exact .inr ⟨rfl, rfl⟩
      · next hok =>
        rcases hbehind with ⟨paths, htask⟩ | htimed
        · exact .inl (hdue _ _ htask rfl (hresult _ _ rfl))
        · rw [if_neg hok]
          refine .inr ⟨rfl, ?_⟩
          exact hreleased merged releasing rfl htimed (by simpa using hok)
  | join room role =>
      unfold tripAcked at hdue ⊢
      dsimp only at hdue ⊢
      split at hdue
      · next hfailed =>
        rw [if_pos hfailed]
        exact .inr ⟨rfl, rfl⟩
      · exact .inl (hdue _ _ hbehind rfl (hresult _ _ rfl))
  | leave room =>
      unfold tripAcked at hdue ⊢
      dsimp only at hdue ⊢
      split at hdue
      · next hfailed =>
        rw [if_pos hfailed]
        split
        · next hcode =>
          have hnot := hleft room rfl hfailed hcode
          have hsame : s.client.joinedRooms.delete room = s.client.joinedRooms := by
            refine Js.Set.ext (List.filter_eq_self.mpr fun x hx => ?_)
            have hne : x ≠ room := fun heq => hnot (heq ▸ hx)
            simpa using hne
          exact .inr ⟨hsame, rfl⟩
        · exact .inr ⟨rfl, rfl⟩
      · exact .inl (hdue _ _ hbehind rfl (hresult _ _ rfl))

/-- **What the file holds stays good through an event of the client that no listener hears.** -/
theorem OnFile.moved (hsound : UpkeepSound env s) (h : OnFile env s saved)
    (hforget : ∀ c room, e ≠ .call c (.forgetRoom room))
    (htasks : ∀ c task, s.tasks.get? c = some task → tasks.get? c = some task)
    (hquiet : s.client.notice env.client e = none) (hfalls : fallbackFails s.client e = false)
    (hback : ∀ old, goesBack s.client e = some old → old = saved.name)
    (hreleased : ∀ c merged releasing id ack, c ∈ s.timed →
      SettlesTrip s.client e c (.release merged releasing) id ack → ack.isError = false →
      merged = s.client.ownReservations)
    (hleft : ∀ c room id ack, SettlesTrip s.client e c (.leave room) id ack → ack.isError = true →
      ack.code = some (some .notMember) → room ∉ s.client.joinedRooms.elems) :
    OnFile env (s.moved env now e tasks timed) saved := by
  refine ⟨h.wrote, clientStep_named env.client now e hsound.pledged hquiet hfalls hback h.named,
    h.project, ?_⟩
  rcases h.held with ⟨c, task, r, htask, hr, hsaves⟩ | ⟨hrooms, hreservations⟩
  · exact .inl ⟨c, task, r, htasks c task htask,
      (clientStep_calls hsound.waits e).results c r hr, hsaves⟩
  · have hsame : ∀ st : ClientState ν, st.joinedRooms = s.client.joinedRooms →
        st.ownReservations = s.client.ownReservations →
        saved.rooms = st.joinedRooms.elems ∧ saved.reservations = st.ownReservations := by
      intro st hjoined hown
      rw [hjoined, hown]
      exact ⟨hrooms, hreservations⟩
    rcases clientStep_held env.client now s.client e hforget with hheld | ⟨c, use, id, ack, hs, hstep⟩
    · have hholdings := hheld.held
      simp only [ClientState.holdings, Prod.mk.injEq] at hholdings
      exact .inr (hsame _ hholdings.1 hholdings.2.2)
    · have hsettled : (s.moved env now e tasks timed).Due ∨ _ := held_settled hsound hs hstep htasks
        (by
          rintro merged releasing rfl htimed hok
          exact hreleased c merged releasing id ack htimed hs hok)
        (by
          rintro room rfl hfailed hcode
          exact hleft c room id ack hs hfailed hcode)
      rcases hsettled with hdue | ⟨hjoined, hown⟩
      · exact .inl hdue
      · exact .inr (hsame _ hjoined hown)

end Client

/-! ### One step -/

/-- The invariant. -/
structure Upheld (env : UpkeepEnv) (s : UpkeepSession ν) : Prop where
  sound : UpkeepSound env s
  saved : s.ready = true → ∃ saved, OnFile env s saved

section Step

variable {env : UpkeepEnv} {calls : FileCalls} {now : Int} {s : UpkeepSession ν} {file : String}
  {c next : CallId}

/-- A file is replaced where no system call fails. -/
theorem save_writes (hcalls : ∀ call, calls call = true) {id : PersistedIdentity}
    {key : Option String} (hpath : MeshIdentity.pathFor id.sessionId key = some file) (dir : StateDir) :
    (MeshIdentity.save ν calls dir id key).2 = true := by
  unfold MeshIdentity.save
  rw [hpath]
  dsimp only
  unfold replaceFile renameFile Files.rename
  dsimp only
  rw [if_pos (hcalls _), if_pos (hcalls _), Map.get?_set_self]

theorem UpkeepSound.save (h : UpkeepSound env s) (calls : FileCalls) (now : Int) :
    UpkeepSound env (s.save env calls now) := ⟨h.waits, h.pledged, h.behind⟩

/-- Whatever was there before, a save sets it right. -/
theorem Upheld.save (hpath : MeshIdentity.pathFor env.sessionId env.identityKey = some file)
    (hcalls : ∀ call, calls call = true) (h : UpkeepSound env s) (now : Int) :
    Upheld env (s.save env calls now) := by
  refine ⟨h.save calls now, fun _ => ⟨s.client.identity env.client, ?_, .inl rfl, rfl, .inr ⟨rfl, rfl⟩⟩⟩
  refine ⟨calls, s.dir, now, Prod.ext rfl ?_⟩
  exact save_writes hcalls hpath s.dir

theorem OnFile.reloaded (hexact : Exact ν) {saved : ClientIdentity} (h : OnFile env s saved) :
    ∃ savedAt, let id := identityFromClient env.client.rt savedAt env.sessionId saved (some s.preferredAlias)
      (∀ file, MeshIdentity.pathFor env.sessionId env.identityKey = some file →
        s.dir.get? file = some (identityText (ν := ν) id.members)) ∧
      ∀ (calls : FileCalls) now, (∀ name, calls (.read name) = true) → s.reload env calls now =
        if (given env.identityKey = none ∧ env.sessionId = "") ∨ saved.name = "" then none
        else some (id.reread ν env.client.rt now env.sessionId) := by
  obtain ⟨calls₀, dir₀, savedAt, hsaved⟩ := h.wrote
  refine ⟨savedAt, ?_, fun calls now hread => ?_⟩
  · intro file hfile
    obtain ⟨name, hname, htext⟩ := get?_save hsaved
    obtain rfl := Option.some.inj (hname.symm.trans hfile)
    rw [htext, pendingMembers_none]
  · exact load_saved hexact hsaved (fun _ _ => rfl) (fun _ => rfl) hread

theorem OnFile.follows (hexact : Exact ν) {saved : ClientIdentity} (h : OnFile env s saved)
    (hquiet : s.Quiet) : s.Saved env := by
  have hname : saved.name = s.client.conn.name := by
    rcases h.named with heq | ⟨c, stage, hstage, -⟩ | ⟨hfallback, -⟩
    · exact heq.symm
    · rw [hquiet.renames c] at hstage
      cases hstage
    · rw [hquiet.fallback] at hfallback
      cases hfallback
  have hheld := h.held.resolve_left fun ⟨c, task, r, htask, _⟩ => by
    rw [hquiet.tasks c] at htask
    cases htask
  have hsame : saved = s.client.identity env.client := by
    obtain ⟨name, rooms, reservations, project⟩ := saved
    obtain ⟨hrooms, hreservations⟩ := hheld
    have hproject := h.project
    dsimp only at hname hrooms hreservations hproject
    rw [hname, hrooms, hreservations, hproject]
    rfl
  obtain ⟨savedAt, htext, hreload⟩ := h.reloaded hexact
  subst hsame
  intro file hfile
  refine ⟨savedAt, htext file hfile, fun calls now hread hsession hnamed => ?_⟩
  rw [hreload calls now hread, if_neg]
  · rfl
  · rintro (⟨hkey, hempty⟩ | hempty)
    · exact hsession hkey hempty
    · exact hnamed hempty

theorem Op.trip_of_free {op : Op} (h : op.isKept = false) : op.trip = none := by
  cases op with
  | reserve | release | join | leave => cases h
  | _ => rfl

/-- A listener that saves, or none. -/
theorem Upheld.react (hinj : Function.Injective env.client.rt.makeMsgId) (hexact : Exact ν)
    (hpath : MeshIdentity.pathFor env.sessionId env.identityKey = some file) (h : Upheld env s)
    {e : ClientEvent ν} (hfree : s.isFree e = true) (hok : KeepsStep env s ((now, calls), .client e)) :
    Upheld env (s.react env calls now e) := by
  have hforget : ∀ c room, e ≠ .call c (.forgetRoom room) := by
    rintro c room rfl
    cases hfree
  have hsound : UpkeepSound env (s.moved env now e s.tasks s.timed) := by
    refine h.sound.moved hinj hforget (fun _ _ ht => ht) (fun _ hc => hc) ?_
    rintro c op kind rfl htrip
    have hkept : op.isKept = false := by
      have hboth : (!op.isKept && s.isNew c) = true := hfree
      rw [Bool.and_eq_true, Bool.not_eq_true'] at hboth
      exact hboth.1
    rw [Op.trip_of_free hkept] at htrip
    cases htrip
  unfold UpkeepSession.react
  cases hnotice : s.client.notice env.client e with
  | some notice =>
      cases notice with
      | ready =>
          have hready : UpkeepSound env { s.moved env now e s.tasks s.timed with ready := true } :=
            ⟨hsound.waits, hsound.pledged, hsound.behind⟩
          exact Upheld.save hpath hok.calls hready now
      | renamed =>
          have hnamed : UpkeepSound env { s.moved env now e s.tasks s.timed with
              preferredAlias := (clientStep env.client now s.client e).conn.name } :=
            ⟨hsound.waits, hsound.pledged, hsound.behind⟩
          exact Upheld.save hpath hok.calls hnamed now
      | aliasFallback => exact Upheld.save hpath hok.calls hsound now
  | none =>
      refine ⟨hsound, fun hready => ?_⟩
      obtain ⟨saved, hholds⟩ := h.saved hready
      refine ⟨saved, hholds.moved h.sound hforget (fun _ _ ht => ht) hnotice (hok.fallback e rfl) ?_
        (fun c merged releasing id ack => hok.released e c merged releasing id ack rfl)
        (fun c room id ack => hok.left e c room id ack rfl)⟩
      intro old hold
      obtain ⟨savedAt, -, hreload⟩ := hholds.reloaded hexact
      have hname := hok.back e old rfl hold hready
      rw [hreload calls now fun name => hok.calls _] at hname
      split at hname
      · cases hname
      · exact (Option.some.inj hname).symm

/-- A request is made, and its number is kept. -/
theorem Upheld.call (hinj : Function.Injective env.client.rt.makeMsgId) (h : Upheld env s)
    {op : Op} {tasks : Map CallId UpkeepTask} {timed : List CallId}
    (hforget : ∀ room, op ≠ .forgetRoom room)
    (htasks : ∀ c task, s.tasks.get? c = some task → tasks.get? c = some task)
    (htimed : ∀ c ∈ s.timed, c ∈ timed)
    (hcall : ∀ kind, op.trip = some kind → (s.moved env now (.call c op) tasks timed).Behind c kind) :
    Upheld env (s.moved env now (.call c op) tasks timed) := by
  have hforget' : ∀ c' room, (.call c op : ClientEvent ν) ≠ .call c' (.forgetRoom room) := by
    intro c' room heq
    injection heq with _ hop
    exact hforget room hop
  refine ⟨h.sound.moved hinj hforget' htasks htimed ?_, fun hready => ?_⟩
  · intro c' op' kind heq htrip
    injection heq with hc hop
    subst hc hop
    exact hcall kind htrip
  · obtain ⟨saved, hholds⟩ := h.saved hready
    refine ⟨saved, hholds.moved h.sound hforget' htasks rfl rfl ?_ ?_ ?_⟩
    · intro old hold
      cases hold
    · rintro c' merged releasing id ack - ⟨heq, -⟩
      cases heq
    · rintro c' room id ack ⟨heq, -⟩
      cases heq

theorem tasks_of_isNew (hnew : s.isNew c = true) : s.tasks.get? c = none := by
  simp only [UpkeepSession.isNew, Map.has, Bool.and_eq_true, Bool.not_eq_true',
    Option.isSome_eq_false_iff, Option.isNone_iff_eq_none] at hnew
  exact hnew.1.2

theorem Upheld.request (hinj : Function.Injective env.client.rt.makeMsgId) (h : Upheld env s)
    (hnew : s.isNew c = true) {op : Op} {task : UpkeepTask} (hforget : ∀ room, op ≠ .forgetRoom room)
    (htask : ∀ kind, op.trip = some kind → ∀ s' : UpkeepSession ν, s'.tasks.get? c = some task →
      s'.Behind c kind) : Upheld env (s.request env now c op task) := by
  refine h.call hinj hforget ?_ (fun _ hc => hc) fun kind hkind => htask kind hkind _ ?_
  · intro c' task' ht
    have hne : c' ≠ c := by
      rintro rfl
      rw [tasks_of_isNew hnew] at ht
      cases ht
    rw [Map.get?_set_ne _ _ hne]
    exact ht
  · exact Map.get?_set_self _ _ _

theorem Upheld.start (hinj : Function.Injective env.client.rt.makeMsgId) (h : Upheld env s)
    (hnew : s.isNew c = true) (op : UpkeepOp) : Upheld env (s.start env now c op) := by
  have hidle : ∀ (task : UpkeepTask) name, Upheld env (s.request env now c (.rename name) task) :=
    fun task name => h.request hinj hnew (fun _ heq => by cases heq) fun _ hkind => by cases hkind
  cases op with
  | meshReserve paths reason autoRelease =>
      unfold UpkeepSession.start
      dsimp only
      split
      · exact h
      · refine h.request hinj hnew (fun _ heq => by cases heq) fun kind hkind s' htask => ?_
        obtain rfl := Option.some.inj hkind
        exact ⟨_, htask⟩
  | meshRelease paths =>
      refine h.request hinj hnew (fun _ heq => by cases heq) fun kind hkind s' htask => ?_
      obtain rfl := Option.some.inj hkind
      exact .inl ⟨_, htask⟩
  | cmdJoin room role asAlias =>
      cases asAlias with
      | some name => exact hidle _ name
      | none =>
          cases room with
          | none => exact h
          | some room =>
              refine h.request hinj hnew (fun _ heq => by cases heq) fun kind hkind s' htask => ?_
              obtain rfl := Option.some.inj hkind
              exact htask
  | cmdLeave room =>
      refine h.request hinj hnew (fun _ heq => by cases heq) fun kind hkind s' htask => ?_
      obtain rfl := Option.some.inj hkind
      exact htask
  | cmdAlias newAlias => exact hidle _ newAlias
  | reclaim => exact hidle _ _

/-- The timers are not what this is about. -/
theorem UpkeepSound.timers (h : UpkeepSound env s) (timers : Js.Set String) :
    UpkeepSound env { s with reserveTimers := timers } := ⟨h.waits, h.pledged, h.behind⟩

theorem Upheld.timers (h : Upheld env s) (timers : Js.Set String) :
    Upheld env { s with reserveTimers := timers } := by
  refine ⟨h.sound.timers timers, fun hready => ?_⟩
  obtain ⟨saved, hholds⟩ := h.saved hready
  exact ⟨saved, hholds.wrote, hholds.named, hholds.project, hholds.held⟩

/-- The timer saves at once, what its request will change is not known yet. -/
theorem Upheld.autoRelease (hinj : Function.Injective env.client.rt.makeMsgId)
    (hpath : MeshIdentity.pathFor env.sessionId env.identityKey = some file)
    (hcalls : ∀ call, calls call = true) (h : Upheld env s) (pattern : String) :
    Upheld env (s.autoRelease env calls now c pattern) := by
  have hcalled : Upheld env (s.moved env now (.call c (.release (some [pattern]))) s.tasks
      (s.timed ++ [c])) := by
    refine h.call hinj (fun _ heq => by cases heq) (fun _ _ ht => ht)
      (fun _ hc => List.mem_append_left _ hc) fun kind hkind => ?_
    obtain rfl := Option.some.inj hkind
    exact .inr (List.mem_append_right _ List.mem_cons_self)
  exact Upheld.save hpath hcalls (hcalled.sound.timers (s.reserveTimers.delete pattern)) now

/-! ### The rest of a task -/

/-- A task whose request has returned is no longer needed. -/
theorem UpkeepSound.forget (h : UpkeepSound env s) {r : CallResult ν} (hr : s.client.results.get? c = some r) :
    UpkeepSound env { s with tasks := s.tasks.delete c } := by
  have hkept : ∀ c' task, c' ≠ c → s.tasks.get? c' = some task →
      (s.tasks.delete c).get? c' = some task := by
    intro c' task hne ht
    rw [Map.get?_delete_ne _ hne]
    exact ht
  refine ⟨h.waits, h.pledged, fun c' kind hkind => ?_⟩
  have hne : c' ≠ c := by
    rintro rfl
    have hkind : (s.client.calls.get? c').bind Stage.trip = some kind := hkind
    obtain ⟨stage, hstage, -⟩ := Option.bind_eq_some_iff.mp hkind
    have hnone : s.client.results.get? c' = none := h.waits.apart c' stage hstage
    rw [hr] at hnone
    cases hnone
  have hbehind := h.behind c' kind hkind
  cases kind with
  | reserve =>
      obtain ⟨ps, ht⟩ := hbehind
      exact ⟨ps, hkept c' _ hne ht⟩
  | release =>
      rcases hbehind with ⟨paths, ht⟩ | hc
      · exact .inl ⟨paths, hkept c' _ hne ht⟩
      · exact .inr hc
  | join => exact hkept c' _ hne hbehind
  | leave => exact hkept c' _ hne hbehind

theorem Upheld.forget (h : Upheld env s) {r : CallResult ν} {task : UpkeepTask}
    (hr : s.client.results.get? c = some r) (ht : s.tasks.get? c = some task)
    (hsaves : task.saves r = false) : Upheld env { s with tasks := s.tasks.delete c } := by
  refine ⟨h.sound.forget hr, fun hready => ?_⟩
  obtain ⟨saved, hholds⟩ := h.saved hready
  refine ⟨saved, hholds.wrote, hholds.named, hholds.project, ?_⟩
  rcases hholds.held with ⟨c', task', r', ht', hr', hsaves'⟩ | hheld
  · -- it was not this task that is due
    have hne : c' ≠ c := by
      rintro rfl
      rw [ht] at ht'
      rw [hr] at hr'
      obtain rfl := Option.some.inj ht'
      obtain rfl := Option.some.inj hr'
      rw [hsaves] at hsaves'
      cases hsaves'
    refine .inl ⟨c', task', r', ?_, hr', hsaves'⟩
    show (s.tasks.delete c).get? c' = some task'
    rw [Map.get?_delete_ne _ hne]
    exact ht'
  · exact .inr hheld

theorem clearReserveTimers_eq (s : UpkeepSession ν) (paths : Option (List String)) :
    ∃ timers, s.clearReserveTimers paths = { s with reserveTimers := timers } := by
  unfold UpkeepSession.clearReserveTimers
  split
  · exact ⟨_, rfl⟩
  · exact ⟨_, rfl⟩

section Finish

variable (hpath : MeshIdentity.pathFor env.sessionId env.identityKey = some file)
  (hcalls : ∀ call, calls call = true)

include hpath hcalls

theorem Upheld.keepAlias (h : Upheld env s) (r : CallResult ν) :
    Upheld env (s.keepAlias env calls now r) := by
  unfold UpkeepSession.keepAlias
  split
  · next name =>
    have hnamed : UpkeepSound env { s with preferredAlias := name } :=
      ⟨h.sound.waits, h.sound.pledged, h.sound.behind⟩
    exact Upheld.save hpath hcalls hnamed now
  · exact h

theorem keepAlias_isNew (r : CallResult ν) (c : CallId) :
    (s.keepAlias env calls now r).isNew c = s.isNew c := by
  unfold UpkeepSession.keepAlias
  split
  · rfl
  · rfl

theorem Upheld.finish (hinj : Function.Injective env.client.rt.makeMsgId) (hsound : UpkeepSound env s)
    (task : UpkeepTask) (r : CallResult ν) (hupheld : task.saves r = false → Upheld env s)
    (hnew : s.isNew next = true) : Upheld env (s.finish env calls now next task r) := by
  cases task with
  | meshReserve ps =>
      have harmed : UpkeepSound env (s.armReserveTimers ps) := hsound.timers _
      cases r with
      | send res =>
          cases res with
          | delivered => exact Upheld.save hpath hcalls harmed now
          | _ => exact hupheld rfl
      | _ => exact hupheld rfl
  | meshRelease paths =>
      obtain ⟨timers, heq⟩ := clearReserveTimers_eq s paths
      have hfailed : (UpkeepTask.meshRelease paths).saves r = false →
          Upheld env (s.clearReserveTimers paths) := by
        intro hsaves
        rw [heq]
        exact (hupheld hsaves).timers timers
      cases r with
      | released patterns res =>
          cases res with
          | delivered =>
              have hcleared : UpkeepSound env (s.clearReserveTimers paths) := by
                rw [heq]
                exact hsound.timers timers
              exact Upheld.save hpath hcalls hcleared now
          | _ => exact hfailed rfl
      | _ => exact hupheld rfl
  | joinAs room role =>
      have hkept : Upheld env (s.keepAlias env calls now r) := (hupheld rfl).keepAlias hpath hcalls r
      cases room with
      | none => exact hkept
      | some room =>
          refine hkept.request hinj ?_ (fun _ heq => by cases heq) fun kind hkind s' htask => ?_
          · rw [keepAlias_isNew hpath hcalls]
            exact hnew
          · obtain rfl := Option.some.inj hkind
            exact htask
  | cmdJoin =>
      cases r with
      | void => exact Upheld.save hpath hcalls hsound now
      | _ => exact hupheld rfl
  | cmdLeave =>
      cases r with
      | void => exact Upheld.save hpath hcalls hsound now
      | _ => exact hupheld rfl
  | cmdAlias => exact (hupheld rfl).keepAlias hpath hcalls r
  | reclaim =>
      cases r with
      | renamed name unchanged =>
          cases unchanged with
          | false => exact Upheld.save hpath hcalls hsound now
          | true => exact hupheld rfl
      | _ => exact hupheld rfl

end Finish

/-- One step that keeps the rules. -/
theorem Upheld.step (hinj : Function.Injective env.client.rt.makeMsgId) (hexact : Exact ν)
    (hpath : MeshIdentity.pathFor env.sessionId env.identityKey = some file) (h : Upheld env s)
    {x : (Int × FileCalls) × UpkeepEvent ν} {s' : UpkeepSession ν} (hok : KeepsStep env s x)
    (hstep : UpkeepStep env s x s') : Upheld env s' := by
  obtain ⟨⟨now, calls⟩, e⟩ := x
  have hstep : s.step env calls now e = some s' := hstep
  have hcalls : ∀ call, calls call = true := hok.calls
  cases e with
  | client e =>
      unfold UpkeepSession.step at hstep
      dsimp only at hstep
      split at hstep
      · next hfree =>
        obtain rfl := Option.some.inj hstep
        exact h.react hinj hexact hpath hfree hok
      · cases hstep
  | start c op =>
      unfold UpkeepSession.step at hstep
      dsimp only at hstep
      split at hstep
      · next hnew =>
        obtain rfl := Option.some.inj hstep
        exact h.start hinj hnew op
      · cases hstep
  | resume c next =>
      unfold UpkeepSession.step at hstep
      dsimp only at hstep
      split at hstep
      · next task r ht hr =>
        split at hstep
        · next hnew =>
          obtain rfl := Option.some.inj hstep
          exact Upheld.finish hpath hcalls hinj (h.sound.forget hr) task r
            (fun hsaves => h.forget hr ht hsaves) hnew
        · cases hstep
      · cases hstep
  | autoRelease c pattern =>
      unfold UpkeepSession.step at hstep
      dsimp only at hstep
      split at hstep
      · obtain rfl := Option.some.inj hstep
        exact h.autoRelease hinj hpath hcalls pattern
      · cases hstep

end Step

theorem upheld_init (env : UpkeepEnv) (name : String) (rooms : List String)
    (reservations : List FileReservation) (preferredAlias : String) (dir : StateDir) :
    Upheld env (.init (ν := ν) name rooms reservations preferredAlias dir) := by
  refine ⟨⟨waits_init _ name rooms reservations, pledged_init name rooms reservations, ?_⟩, ?_⟩
  · intro c kind hkind
    cases hkind
  · intro hready
    cases hready

/-- **The saved identity follows the client, over every run that keeps the rules.** -/
theorem identity_follows {env : UpkeepEnv} (hinj : Function.Injective env.client.rt.makeMsgId)
    (hexact : Exact ν) {name : String} {rooms : List String} {reservations : List FileReservation}
    {preferredAlias : String} {dir : StateDir}
    {tr : List (UpkeepSession ν × ((Int × FileCalls) × UpkeepEvent ν))} {s : UpkeepSession ν}
    (hrun : Run (UpkeepStep env) (.init name rooms reservations preferredAlias dir) tr s)
    (hok : Meets (KeepsStep env) tr) : s.Follows env := by
  intro hready hquiet file hpath
  have hupheld : Upheld env s := hrun.invariant hok (upheld_init env name rooms reservations _ dir)
    fun s x s' h hx hstep => h.step hinj hexact hpath hx hstep
  obtain ⟨saved, hholds⟩ := hupheld.saved hready
  exact hholds.follows hexact hquiet file hpath

/-! ### A room that is joined, and a timer that fires -/

/-- An event at which no round trip is settled that the rules are about. -/
def UpkeepSession.isPlain (s : UpkeepSession ν) : UpkeepEvent ν → Bool
  | .client e =>
      !fallbackFails s.client e && (goesBack s.client e).isNone &&
        match s.client.jobs with
        | .acked c _ :: _ =>
            match s.client.calls.get? c with
            | some (.tripAck (.release _ _) _) => false
            | some (.tripAck (.leave _) _) => false
            | _ => true
        | _ => true
  | _ => true

theorem KeepsStep.of_plain {env : UpkeepEnv} {s : UpkeepSession ν}
    {x : (Int × FileCalls) × UpkeepEvent ν} (hcalls : ∀ call, x.1.2 call = true)
    (hplain : s.isPlain x.2 = true) : KeepsStep env s x := by
  obtain ⟨⟨now, calls⟩, e⟩ := x
  have hclient : ∀ e', e = .client e' → fallbackFails s.client e' = false ∧
      goesBack s.client e' = none ∧ ∀ c use id ack, SettlesTrip s.client e' c use id ack →
        (∀ merged releasing, use ≠ .release merged releasing) ∧ ∀ room, use ≠ .leave room := by
    rintro e' rfl
    have hplain : s.isPlain (.client e') = true := hplain
    unfold UpkeepSession.isPlain at hplain
    simp only [Bool.and_eq_true, Bool.not_eq_true', Option.isNone_iff_eq_none] at hplain
    obtain ⟨⟨hfalls, hback⟩, hsettled⟩ := hplain
    refine ⟨hfalls, hback, ?_⟩
    rintro c use id ack ⟨-, ⟨rest, hjobs⟩, hstage⟩
    rw [hjobs] at hsettled
    dsimp only at hsettled
    rw [hstage] at hsettled
    constructor
    · rintro merged releasing rfl
      cases hsettled
    · rintro room rfl
      cases hsettled
  refine ⟨hcalls, ?_, ?_, fun e' he => (hclient e' he).1, ?_⟩
  · intro e' c merged releasing id ack he _ hs _
    exact absurd rfl (((hclient e' he).2.2 c _ id ack hs).1 merged releasing)
  · intro e' c room id ack he hs _ _
    exact absurd rfl (((hclient e' he).2.2 c _ id ack hs).2 room)
  · intro e' old he hold _
    rw [(hclient e' he).2.1] at hold
    cases hold

/-- `alice` with a session of her own, and a state directory where every call succeeds. -/
def aliceUpkeep : UpkeepEnv := { client := referenceClient, sessionId := "s-1" }

def aliceSession : UpkeepSession Int := .init "alice" ["default"] [] "alice" Map.empty

def working : FileCalls := fun _ => true

/-- She connects, and this happens then. -/
def connectsThen (events : List (Int × UpkeepEvent Int)) : List ((Int × FileCalls) × UpkeepEvent Int) :=
  let all : List (Int × UpkeepEvent Int) := (connects 0 0).map (fun e => (e.1, .client e.2)) ++ events
  all.map fun e => ((e.1, working), e.2)

/-- All of it is plain, and the end passes the check. -/
def runsPlainly (es : List (Int × UpkeepEvent Int)) (check : UpkeepSession Int → Bool) : Bool :=
  (follow (fun s x => UpkeepSession.step aliceUpkeep x.1.2 x.1.1 s x.2) aliceSession
    (connectsThen es)).any fun r => r.1.all (fun x => x.1.isPlain x.2.2) && check r.2

theorem Run.of_runsPlainly {es : List (Int × UpkeepEvent Int)} {check : UpkeepSession Int → Bool}
    (h : runsPlainly es check = true) :
    ∃ tr s, Run (UpkeepStep aliceUpkeep) aliceSession tr s ∧ Meets (KeepsStep aliceUpkeep) tr ∧
      check s = true := by
  obtain ⟨tr, s, hrun, htr, hfound⟩ := Run.of_check h
  rw [Bool.and_eq_true, List.all_eq_true] at hfound
  refine ⟨tr, s, hrun, fun x hx => ?_, hfound.2⟩
  refine .of_plain (fun call => ?_) (hfound.1 x hx)
  have hmem : x.2 ∈ connectsThen es := by
    rw [← htr]
    exact List.mem_map_of_mem hx
  obtain ⟨e, -, he⟩ := List.mem_map.mp hmem
  rw [← he]
  rfl

/-- Nothing is under way. -/
def UpkeepSession.isQuiet (s : UpkeepSession ν) : Bool :=
  s.tasks.keys.isEmpty && s.client.conn.renames.keys.isEmpty &&
    !s.client.conn.connecting.any Connecting.isFallback

theorem UpkeepSession.quiet_of {s : UpkeepSession ν} (h : s.isQuiet = true) : s.Quiet := by
  simp only [isQuiet, Bool.and_eq_true, List.isEmpty_iff, Bool.not_eq_true'] at h
  obtain ⟨⟨htasks, hrenames⟩, hfallback⟩ := h
  refine ⟨fun c => ?_, fun c => ?_, hfallback⟩
  · rw [Map.get?_eq_none_iff, htasks]
    exact List.not_mem_nil
  · rw [Map.get?_eq_none_iff, hrenames]
    exact List.not_mem_nil

/-- She joins a room. -/
theorem identity_follows_join : ∃ (tr : List (UpkeepSession Int × ((Int × FileCalls) × UpkeepEvent Int)))
    (s : UpkeepSession Int), Run (UpkeepStep aliceUpkeep) aliceSession tr s ∧
      s.client.joinedRooms.elems = ["default", "ops"] ∧ s.Saved aliceUpkeep := by
  have hcheck : runsPlainly [(2000, .start 1 (.cmdJoin (some "ops") .member none)),
      (2001, .client (.line 0 (inboundOf .ack "m_lqulw000_00000001"))), (2001, .client .microtask),
      (2001, .resume 1 2)]
      (fun s => s.ready && s.isQuiet && decide (s.client.joinedRooms.elems = ["default", "ops"])) =
        true := by
    decide +kernel
  obtain ⟨tr, s, hrun, hok, hfound⟩ := Run.of_runsPlainly hcheck
  simp only [Bool.and_eq_true, decide_eq_true_eq] at hfound
  obtain ⟨⟨hready, hquiet⟩, hrooms⟩ := hfound
  have hexact : Exact Int := rfl
  exact ⟨tr, s, hrun, hrooms,
    identity_follows makeMsgId_injective hexact hrun hok hready (UpkeepSession.quiet_of hquiet)⟩

/-- An event that no listener hears leaves the files alone. -/
theorem UpkeepSession.react_dir {env : UpkeepEnv} {calls : FileCalls} {now : Int}
    {s : UpkeepSession ν} {e : ClientEvent ν} (h : (s.client.notice env.client e).isNone = true) :
    (s.react env calls now e).dir = s.dir := by
  unfold react
  rw [Option.isNone_iff_eq_none.mp h]
  rfl

/-- The release of the timer is acknowledged. -/
def releaseAcked (s : UpkeepSession Int) : UpkeepSession Int :=
  (s.react aliceUpkeep working 3001 (.line 0 (inboundOf .ack "m_lqulw000_00000002"))).react aliceUpkeep
    working 3001 .microtask

/-- The timer of a reservation saves it, and then it is gone. -/
theorem timer_saves_early :
    ∃ (tr : List (UpkeepSession Int × ((Int × FileCalls) × UpkeepEvent Int)))
      (s : UpkeepSession Int), Run (UpkeepStep aliceUpkeep) aliceSession tr s ∧
        ¬ s.Follows aliceUpkeep := by
  have hcheck : runsPlainly [(2000, .start 1 (.meshReserve ["src/"] none true)),
      (2001, .client (.line 0 (inboundOf .ack "m_lqulw000_00000001"))), (2001, .client .microtask),
      (2001, .resume 1 2), (3000, .autoRelease 3 "src/")]
      (fun s => s.ready && s.tasks.keys.isEmpty &&
        !(freshReservations referenceRuntime 3001 (storedReservations (ν := Int) referenceRuntime
          (some (.arr (s.client.ownReservations.map FileReservation.json))))).isEmpty &&
        (s.client.notice referenceClient (.line 0 (inboundOf .ack "m_lqulw000_00000002"))).isNone &&
        ((s.react aliceUpkeep working 3001 (.line 0 (inboundOf .ack "m_lqulw000_00000002"))).client.notice
          referenceClient .microtask).isNone &&
        (releaseAcked s).ready && (releaseAcked s).isQuiet &&
        (releaseAcked s).client.ownReservations.isEmpty &&
        decide ((releaseAcked s).client.conn.name = "alice")) = true := by
    decide +kernel
  obtain ⟨tr, s, hrun, hok, hfound⟩ := Run.of_runsPlainly hcheck
  simp only [Bool.and_eq_true, decide_eq_true_eq] at hfound
  obtain ⟨⟨⟨⟨⟨⟨⟨⟨hready, htasks⟩, hfresh⟩, hfirst⟩, hsecond⟩, hready'⟩, hquiet⟩, hnone⟩, hname⟩ := hfound
  have hline : UpkeepStep aliceUpkeep s ((3001, working), .client (.line 0 (inboundOf .ack
      "m_lqulw000_00000002"))) _ := rfl
  have hmicro : UpkeepStep aliceUpkeep _ ((3001, working), .client .microtask) (releaseAcked s) := rfl
  refine ⟨_, releaseAcked s, (hrun.snoc hline).snoc hmicro, fun hfollows => ?_⟩
  have hexact : Exact Int := rfl
  -- what the timer has saved is what a reload finds, before and after the acknowledgement
  have hupheld : Upheld aliceUpkeep s := hrun.invariant hok
    (upheld_init aliceUpkeep "alice" ["default"] [] "alice" Map.empty)
    fun s x s' h hx hstep => h.step makeMsgId_injective hexact rfl hx hstep
  obtain ⟨saved, hholds⟩ := hupheld.saved hready
  have hheld := hholds.held.resolve_left fun ⟨c, task, r, htask, _⟩ => by
    rw [(Map.get?_eq_none_iff _ c).mpr (by rw [List.isEmpty_iff.mp htasks]; exact List.not_mem_nil)]
      at htask
    cases htask
  obtain ⟨savedAt, -, hreload⟩ := hholds.reloaded hexact
  have hsame : (releaseAcked s).reload aliceUpkeep working 3001 = s.reload aliceUpkeep working 3001 := by
    unfold UpkeepSession.reload releaseAcked
    rw [UpkeepSession.react_dir hsecond, UpkeepSession.react_dir hfirst]
  obtain ⟨savedAt', -, hlive⟩ := hfollows hready' (UpkeepSession.quiet_of hquiet) "identity-s-1.json" rfl
  have hfound := hlive working 3001 (fun _ => rfl) (fun _ => by decide) (by rw [hname]; decide)
  rw [hsame, hreload working 3001 fun _ => rfl] at hfound
  split at hfound
  · cases hfound
  · have hreservations : freshReservations referenceRuntime 3001 (storedReservations (ν := Int)
        referenceRuntime (some (.arr (saved.reservations.map FileReservation.json)))) =
        freshReservations referenceRuntime 3001 (storedReservations (ν := Int) referenceRuntime
          (some (.arr ((releaseAcked s).client.ownReservations.map FileReservation.json)))) :=
      congrArg PersistedIdentity.reservations (Option.some.inj hfound)
    rw [hheld.2, List.isEmpty_iff.mp hnone] at hreservations
    rw [hreservations] at hfresh
    exact absurd hfresh (by decide)

end PiMesh
