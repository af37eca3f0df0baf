/-
Three answers to the question which room a message goes to.

`resolveSendRoom` prefers a room shared with the target, then the project room, then the
default room, then the first room joined.  The `mesh_send` tool knows the last two only
and passes its choice on as if the caller had asked for it; `control` takes the first
room joined.  Where the preferences do not matter the three agree, and then a message for
a peer we share a room with is sent in one and the broker does not object.
-/
import PiMesh.Extension.Tools
import PiMesh.Client.Control
import PiMesh.Client.Reference
import PiMesh.Proofs.Known

namespace PiMesh

open Js

variable {ν : Type} [Number ν] [DecidableEq ν]

/-! ### What the result speaks of -/

/-- The client has the target down for the room. -/
def knownIn (st : ClientState ν) (target room : String) : Bool :=
  (st.peerRooms.get? target).any fun rooms => rooms.has room

/-- We are in a room the target is known to be in. -/
def Shares (st : ClientState ν) (target : Option String) : Prop :=
  ∃ t, target = some t ∧ ∃ room ∈ st.joinedRooms.elems, knownIn st t room = true

/-- The broker has us in the rooms we joined, and the target in the rooms we know it in. -/
structure RoomsAgree (st : ClientState ν) (target : String) (b : BrokerState ν)
    (sender : PeerRecord ν) : Prop where
  own : ∀ room ∈ st.joinedRooms.elems, ∃ role, sender.rooms.get? (.ofString room) = some role
  peer : ∀ t, b.online target = some t → ∀ room, knownIn st target room = true →
    t.rooms.has (.ofString room) = true

/-- A frame for the target in this room. -/
structure SentIn (f : MeshFrame ν) (target room : String) : Prop where
  recipient : f.recipient = some target
  room : f.room = some room
  raw : frameType? f.raw = some f.type

/-- An operation for this target whose frame is for this room follows the rule, with what
follows from that: an untargeted message stays in the project room, and one for a peer we
share a room with is sent in a shared room and not refused for want of membership. -/
structure FollowsRule (env : ClientEnv) (st : ClientState ν) (target room : Option String) :
    Prop where
  rule : room = resolveSendRoom env st target
  project : ∀ p, target = none → env.projectRoom = some p → p ∈ st.joinedRooms.elems → room = some p
  shared : ∀ t, target = some t → Shares st target →
    ∃ r, room = some r ∧ r ∈ st.joinedRooms.elems ∧ knownIn st t r = true
  member : ∀ t r, target = some t → Shares st target → room = some r →
    ∀ (benv : Env) (now : Int) (b : BrokerState ν) (sender : PeerRecord ν) (f : MeshFrame ν),
      RoomsAgree st t b sender → SentIn f t r →
        (f.type = .msg → f.broadcast ≠ some true → capTargetName benv.rt t = none →
          Withholds .notMember b (routeMsg benv now b sender f)) ∧
        (f.type = .ctl → Withholds .notMember b (handleCtl benv now b sender f))

/-! ### When they agree -/

/-- The target is known in `room`, and in no room joined before it. -/
def FirstShared (st : ClientState ν) (target : Option String) (room : String) : Prop :=
  ∃ t before after, target = some t ∧ st.joinedRooms.elems = before ++ room :: after ∧
    knownIn st t room = true ∧ ∀ r ∈ before, knownIn st t r = false

/-- The project room is not one of ours, or is this one. -/
def NoOtherProject (env : ClientEnv) (st : ClientState ν) (room : String) : Prop :=
  ∀ p, env.projectRoom = some p → p ∈ st.joinedRooms.elems → p = room

/-- The tool's room for this target is the rule's: the default room while we are in it, else
our first room, is the first one shared with the target, or none is and no other room is
the project room. -/
def ToolAgrees (env : ClientEnv) (st : ClientState ν) (target : Option String) : Prop :=
  (defaultRoom ∈ st.joinedRooms.elems ∧
    (FirstShared st target defaultRoom ∨ ¬ Shares st target ∧ NoOtherProject env st defaultRoom)) ∨
  (defaultRoom ∉ st.joinedRooms.elems ∧ ∃ room, st.joinedRooms.elems.head? = some room ∧
    (FirstShared st target room ∨ ¬ Shares st target ∧ NoOtherProject env st room))

/-- The room of a control request is the rule's: our first room is shared with the target, or
none is and it is the project room or, where that is not one of ours, the default room
unless we are not in that. -/
def ControlAgrees (env : ClientEnv) (st : ClientState ν) (target : Option String) : Prop :=
  ∃ room, st.joinedRooms.elems.head? = some room ∧
    (FirstShared st target room ∨ ¬ Shares st target ∧ NoOtherProject env st room ∧
      (env.projectRoom = some room ∨ defaultRoom ∉ st.joinedRooms.elems ∨ room = defaultRoom))

/-! ### The rule -/

variable {env : ClientEnv} {st : ClientState ν} {target : Option String} {room : String}

/-- The first of our rooms the target is known in. -/
def firstShared (st : ClientState ν) (target : Option String) : Option String :=
  target.bind fun t => st.joinedRooms.elems.find? fun r => knownIn st t r

theorem firstShared_eq_some : firstShared st target = some room ↔ FirstShared st target room := by
  unfold firstShared FirstShared
  cases target with
  | none => simp
  | some t =>
      rw [Option.bind_some, List.find?_eq_some_iff_append]
      constructor
      · rintro ⟨hknown, before, after, heq, hbefore⟩
        exact ⟨t, before, after, rfl, heq, hknown, fun r hr => by simpa using hbefore r hr⟩
      · rintro ⟨t', before, after, ht, heq, hknown, hbefore⟩
        obtain rfl := Option.some.inj ht
        exact ⟨hknown, before, after, heq, fun r hr => by simpa using hbefore r hr⟩

theorem firstShared_eq_none : firstShared st target = none ↔ ¬ Shares st target := by
  unfold firstShared Shares
  cases target with
  | none => simp
  | some t => simp [List.find?_eq_none]

theorem firstShared_mem (h : FirstShared st target room) :
    room ∈ st.joinedRooms.elems ∧ ∃ t, target = some t ∧ knownIn st t room = true := by
  obtain ⟨t, before, after, ht, heq, hknown, -⟩ := h
  exact ⟨by rw [heq]; simp, t, ht, hknown⟩

/-- The rule, on the room it finds first. -/
theorem resolveSendRoom_eq (env : ClientEnv) (st : ClientState ν) (target : Option String) :
    resolveSendRoom env st target = match firstShared st target with
      | some r => some r
      | none =>
          match env.projectRoom.filter st.joinedRooms.has with
          | some r => some r
          | none =>
              if st.joinedRooms.has defaultRoom then some defaultRoom
              else st.joinedRooms.elems.head? := rfl

/-- Whatever the rule finds is a room of ours. -/
theorem resolveSendRoom_joined (h : resolveSendRoom env st target = some room) :
    room ∈ st.joinedRooms.elems := by
  rw [resolveSendRoom_eq] at h
  split at h
  · next r hr =>
      obtain rfl := Option.some.inj h
      exact (firstShared_mem (firstShared_eq_some.mp hr)).1
  · split at h
    · next r hr =>
        obtain rfl := Option.some.inj h
        have hjoined := (Option.filter_eq_some_iff.mp hr).2
        simpa [Js.Set.has] using hjoined
    · split at h
      · next hdefault =>
          obtain rfl := Option.some.inj h
          simpa [Js.Set.has] using hdefault
      · exact List.mem_of_mem_head? h

/-- Without a shared room the rule asks for the project room next. -/
theorem resolveSendRoom_alone (hshares : ¬ Shares st target) :
    resolveSendRoom env st target = some room ↔
      (env.projectRoom = some room ∧ room ∈ st.joinedRooms.elems) ∨
      ((∀ p, env.projectRoom = some p → p ∉ st.joinedRooms.elems) ∧
        ((defaultRoom ∈ st.joinedRooms.elems ∧ room = defaultRoom) ∨
          (defaultRoom ∉ st.joinedRooms.elems ∧ st.joinedRooms.elems.head? = some room))) := by
  rw [resolveSendRoom_eq, firstShared_eq_none.mpr hshares]
  dsimp only
  cases hproject : env.projectRoom.filter st.joinedRooms.has with
  | some r =>
      obtain ⟨hr, hjoined⟩ := Option.filter_eq_some_iff.mp hproject
      have hjoined : r ∈ st.joinedRooms.elems := by simpa [Js.Set.has] using hjoined
      constructor
      · intro h
        obtain rfl := Option.some.inj h
        exact .inl ⟨hr, hjoined⟩
      · rintro (⟨h, -⟩ | ⟨h, -⟩)
        · rw [← hr, h]
        · exact absurd hjoined (h r hr)
  | none =>
      have hnone : ∀ p, env.projectRoom = some p → p ∉ st.joinedRooms.elems := by
        intro p hp hjoined
        rw [hp] at hproject
        simp [Js.Set.has, hjoined] at hproject
      by_cases hdefault : defaultRoom ∈ st.joinedRooms.elems
      · rw [if_pos (by simpa [Js.Set.has] using hdefault)]
        constructor
        · intro h
          exact .inr ⟨hnone, .inl ⟨hdefault, (Option.some.inj h).symm⟩⟩
        · rintro (⟨h, hjoined⟩ | ⟨-, ⟨-, h⟩ | ⟨h, -⟩⟩)
          · exact absurd hjoined (hnone room h)
          · rw [h]
          · exact absurd hdefault h
      · rw [if_neg (by simpa [Js.Set.has] using hdefault)]
        constructor
        · intro h
          exact .inr ⟨hnone, .inr ⟨hdefault, h⟩⟩
        · rintro (⟨h, hjoined⟩ | ⟨-, ⟨h, -⟩ | ⟨-, h⟩⟩)
          · exact absurd hjoined (hnone room h)
          · exact absurd h hdefault
          · exact h

/-- With one, it is the first. -/
theorem resolveSendRoom_shared (hshares : Shares st target) :
    resolveSendRoom env st target = some room ↔ FirstShared st target room := by
  rw [← firstShared_eq_some, resolveSendRoom_eq]
  cases hfirst : firstShared st target with
  | none => exact absurd hshares (firstShared_eq_none.mp hfirst)
  | some r => exact Iff.rfl

theorem shares_of_first (h : FirstShared st target room) : Shares st target := by
  obtain ⟨hjoined, t, ht, hknown⟩ := firstShared_mem h
  exact ⟨t, ht, room, hjoined, hknown⟩

/-! ### The three choices -/

/-- The room the rule ends at where neither a shared room nor a project room is found. -/
def Fallback (st : ClientState ν) (room : String) : Prop :=
  (defaultRoom ∈ st.joinedRooms.elems ∧ room = defaultRoom) ∨
    (defaultRoom ∉ st.joinedRooms.elems ∧ st.joinedRooms.elems.head? = some room)

theorem Fallback.joined (h : Fallback st room) : room ∈ st.joinedRooms.elems := by
  obtain ⟨hdefault, rfl⟩ | ⟨-, hhead⟩ := h
  · exact hdefault
  · exact List.mem_of_mem_head? hhead

/-- A room of ours without a shared room: the rule takes it as the project room, or as the
fallback where there is no project room. -/
theorem resolveSendRoom_own (hshares : ¬ Shares st target) (hjoined : room ∈ st.joinedRooms.elems) :
    resolveSendRoom env st target = some room ↔
      NoOtherProject env st room ∧ (env.projectRoom = some room ∨ Fallback st room) := by
  rw [resolveSendRoom_alone hshares]
  constructor
  · rintro (⟨hproject, -⟩ | ⟨hnone, hfall⟩)
    · exact ⟨fun p hp _ => Option.some.inj (hp.symm.trans hproject), .inl hproject⟩
    · exact ⟨fun p hp hin => absurd hin (hnone p hp), .inr hfall⟩
  · rintro ⟨hother, hroom⟩
    by_cases hproject : env.projectRoom = some room
    · exact .inl ⟨hproject, hjoined⟩
    · refine .inr ⟨fun p hp hin => hproject ?_, hroom.resolve_left hproject⟩
      rw [hp, hother p hp hin]

/-- Two ways to find a room of ours: it is shared and first, or nothing is shared. -/
theorem resolveSendRoom_split :
    resolveSendRoom env st target = some room ↔ FirstShared st target room ∨
      ¬ Shares st target ∧ resolveSendRoom env st target = some room := by
  by_cases hshares : Shares st target
  · rw [resolveSendRoom_shared hshares]
    exact ⟨.inl, fun h => h.resolve_right fun hc => hc.1 hshares⟩
  · exact ⟨fun h => .inr ⟨hshares, h⟩,
      fun h => (h.resolve_left fun hc => hshares (shares_of_first hc)).2⟩

/-- The tool's room for a call that names none. -/
theorem meshSendRoom_eq (hfall : Fallback st room) : meshSendRoom st none = room := by
  unfold meshSendRoom
  obtain ⟨hdefault, rfl⟩ | ⟨hdefault, hhead⟩ := hfall
  · rw [Option.getD_none, if_pos (by simpa [Js.Set.has] using hdefault)]
  · rw [Option.getD_none, if_neg (by simpa [Js.Set.has] using hdefault), hhead, Option.getD_some]

/-- Who is in no room has none to send to. -/
theorem not_resolves_of_nowhere (hhead : st.joinedRooms.elems.head? = none) (r : String) :
    some r ≠ resolveSendRoom env st target := by
  intro h
  have hin := resolveSendRoom_joined h.symm
  rw [List.head?_eq_none_iff.mp hhead] at hin
  exact List.not_mem_nil hin

/-- The tool finds the rule's room where the two agree, and nowhere else. -/
theorem toolAgrees_iff :
    some (meshSendRoom st none) = resolveSendRoom env st target ↔ ToolAgrees env st target := by
  have hagree : ∀ r, Fallback st r → (resolveSendRoom env st target = some r ↔
      FirstShared st target r ∨ ¬ Shares st target ∧ NoOtherProject env st r) := by
    intro r hfall
    rw [resolveSendRoom_split]
    refine or_congr_right (and_congr_right fun hshares => ?_)
    rw [resolveSendRoom_own hshares hfall.joined]
    exact ⟨And.left, fun h => ⟨h, .inr hfall⟩⟩
  unfold ToolAgrees
  by_cases hdefault : defaultRoom ∈ st.joinedRooms.elems
  · have hfall : Fallback st defaultRoom := .inl ⟨hdefault, rfl⟩
    rw [meshSendRoom_eq hfall, eq_comm, hagree _ hfall]
    simp [hdefault]
  · cases hhead : st.joinedRooms.elems.head? with
    | none =>
        constructor
        · exact fun h => absurd h (not_resolves_of_nowhere hhead _)
        · rintro (⟨h, -⟩ | ⟨-, r, hr, -⟩)
          · exact absurd h hdefault
          · cases hr
    | some r =>
        have hfall : Fallback st r := .inr ⟨hdefault, hhead⟩
        rw [meshSendRoom_eq hfall, eq_comm, hagree _ hfall]
        simp [hdefault]

/-- So does a control request. -/
theorem controlAgrees_iff :
    some (homeRoom st) = resolveSendRoom env st target ↔ ControlAgrees env st target := by
  unfold ControlAgrees homeRoom
  cases hhead : st.joinedRooms.elems.head? with
  | none =>
      constructor
      · exact fun h => absurd h (not_resolves_of_nowhere hhead _)
      · rintro ⟨r, hr, -⟩
        cases hr
  | some r =>
      have hjoined : r ∈ st.joinedRooms.elems := List.mem_of_mem_head? hhead
      have hfall : Fallback st r ↔ defaultRoom ∉ st.joinedRooms.elems ∨ r = defaultRoom := by
        unfold Fallback
        constructor
        · rintro (⟨-, h⟩ | ⟨h, -⟩)
          · exact .inr h
          · exact .inl h
        · rintro (h | rfl)
          · exact .inr ⟨h, hhead⟩
          · exact .inl ⟨hjoined, rfl⟩
      have hagree : resolveSendRoom env st target = some r ↔ FirstShared st target r ∨
          ¬ Shares st target ∧ NoOtherProject env st r ∧ (env.projectRoom = some r ∨
            defaultRoom ∉ st.joinedRooms.elems ∨ r = defaultRoom) := by
        rw [resolveSendRoom_split]
        refine or_congr_right (and_congr_right fun hshares => ?_)
        rw [resolveSendRoom_own hshares hjoined, hfall]
      rw [Option.getD_some, eq_comm, hagree]
      constructor
      · exact fun h => ⟨r, rfl, h⟩
      · rintro ⟨r', hr, h⟩
        obtain rfl := Option.some.inj hr
        exact h

/-- What `mesh_send` hands over names its room. -/
theorem execMeshSend_room {tool : SendTool} {p : MeshSendParams ν} {opts : SendOpts}
    (h : execMeshSend tool env st p = .ok opts) : opts.room = some (meshSendRoom st p.room) := by
  unfold execMeshSend at h
  simp only [bind, Except.bind, pure, Except.pure, throw, throwThe, MonadExceptOf.throw] at h
  repeat' split at h
  all_goals cases h <;> rfl

/-- `send` takes the room it is given, else the rule's. -/
theorem planSend_room {opts : SendOpts} {plan : SendPlan} (h : planSend env st opts = .ok plan) :
    plan.recipient = sendTarget env.rt opts ∧
      some plan.room = opts.room.orElse fun _ => resolveSendRoom env st plan.recipient := by
  unfold planSend at h
  simp only [bind, Except.bind, pure, Except.pure, throw, throwThe, MonadExceptOf.throw] at h
  repeat' split at h
  all_goals cases h
  all_goals exact ⟨rfl, (Option.filter_eq_some_iff.mp ‹_›).1.symm⟩

/-! ### What the broker says -/

theorem Tacit.withholds {b b' b'' : BrokerState ν} {code : MeshErrorCode} (h : Tacit b b')
    (h' : Withholds code b' b'') : Withholds code b b'' := by
  obtain ⟨more, heq, hmore⟩ := h
  obtain ⟨more', heq', hmore'⟩ := h'
  refine ⟨more ++ more', by rw [heq', heq, List.append_assoc], ?_⟩
  intro w hw
  rcases List.mem_append.mp hw with hw | hw
  · exact fun hr => hmore w hw hr.1
  · exact hmore' w hw

theorem frameType?_routed {raw : Members ν} (decision : PolicyDecision) (priority : MeshPriority)
    (h : frameType? raw ≠ some .error) : frameType? (routed decision priority raw).1 ≠ some .error := by
  unfold frameType? at h ⊢
  rw [getOf_routed _ _ _ (by simp)]
  exact h

section Broker

variable {benv : Env} {now : Int} {b : BrokerState ν} {sender : PeerRecord ν}

/-- A message for a peer that is, if it is online, in the room. -/
theorem routeDirect_member {f : MeshFrame ν} {name r : String}
    (hraw : frameType? f.raw ≠ some .error)
    (hpeer : ∀ t, b.online name = some t → t.rooms.has (.ofString r) = true) :
    Withholds .notMember b (routeDirect benv now b sender f r name) := by
  have hroom : ((b.online name).any fun t => !t.rooms.has (.ofString r)) = false := by
    cases honline : b.online name with
    | none => rfl
    | some t => simp [hpeer t honline]
  unfold routeDirect
  simp only [hroom, Bool.false_eq_true, if_false]
  split
  · exact refuse_withholds _ _ _ _ _ (by simp)
  · refine Withholds.before (aside_takeRate benv now b sender.name
      (rateKind (f.priority.getD .normal))).writes ?_
    split
    · exact refuse_withholds _ _ _ _ _ (by simp)
    · split
      · next code hdeny =>
          rw [evaluatePolicy_code hdeny]
          exact refuse_withholds _ _ _ _ _ (by simp)
      · split
        · exact .of_tacit (relayDirect_tacit _ _ _ _ _ _ _ _ (frameType?_routed _ _ hraw))
        · exact .of_tacit (storedAck_tacit _ _ _ _ _ _ _ _)

/-- A control request that is passed on, or whose target is gone. -/
theorem relayCtl_withholds (st : BrokerState ν) (target : PeerRef) (id : String)
    {frame : Members ν} (h : frameType? frame ≠ some .error) :
    Withholds .notMember st (relay benv now st target frame (.ctl sender.toRef target id)) := by
  have hwrite : Tacit st (attempt st target.socket frame benv.cfg.maxFrameBytes
      (.ctl sender.toRef target id)).1 := .attempt _ _ _ h
  unfold relay
  cases ha : attempt st target.socket frame benv.cfg.maxFrameBytes (.ctl sender.toRef target id) with
  | mk s ok =>
      rw [ha] at hwrite
      cases ok with
      | true => exact .of_tacit hwrite
      | false =>
          simp only [runCallback, Bool.false_eq_true, if_false]
          have hdrop : Tacit s { s with pendingCtl := s.pendingCtl.delete id } := .of_writes rfl
          refine ((hwrite.trans hdrop).trans (closeIfCurrent_tacit benv now _ target)).withholds ?_
          exact sendError_withholds _ _ _ _ _ (by simp)

variable {st : ClientState ν} {name r : String} {f : MeshFrame ν}

/-- A message in a shared room. -/
theorem routeMsg_member (hagree : RoomsAgree st name b sender) (hf : SentIn f name r)
    (hjoined : r ∈ st.joinedRooms.elems) (hknown : knownIn st name r = true) (htype : f.type = .msg)
    (hb : f.broadcast ≠ some true) (hcap : capTargetName benv.rt name = none) :
    Withholds .notMember b (routeMsg benv now b sender f) := by
  obtain ⟨role, hrole⟩ := hagree.own r hjoined
  unfold routeMsg
  rw [if_neg hb, hf.recipient, hf.room, Option.getD_some]
  simp only [hrole, hcap]
  cases role with
  | observer => exact refuse_withholds _ _ _ _ _ (by simp)
  | member =>
      refine routeDirect_member ?_ fun t ht => hagree.peer t ht r hknown
      rw [hf.raw, htype]
      simp

/-- A control request in a shared room. -/
theorem handleCtl_member (hagree : RoomsAgree st name b sender) (hf : SentIn f name r)
    (hjoined : r ∈ st.joinedRooms.elems) (hknown : knownIn st name r = true) (htype : f.type = .ctl) :
    Withholds .notMember b (handleCtl benv now b sender f) := by
  obtain ⟨role, hrole⟩ := hagree.own r hjoined
  have hraw : frameType? f.raw ≠ some .error := by
    rw [hf.raw, htype]
    simp
  unfold handleCtl
  simp only [hf.recipient, hf.room, Option.getD_some, hrole]
  cases role with
  | observer => exact refuse_withholds _ _ _ _ _ (by simp)
  | member =>
      cases honline : b.online name with
      | none => exact sendError_withholds _ _ _ _ _ (by simp)
      | some t =>
          simp only [hagree.peer t honline r hknown, Bool.not_true, Bool.false_eq_true, if_false]
          split
          · exact refuse_withholds _ _ _ _ _ (by simp)
          · have hrate := (aside_takeRate benv now b sender.name (rateKind (ctlPriority f.action))).writes
            refine Withholds.before hrate ?_
            split
            · exact refuse_withholds _ _ _ _ _ (by simp)
            · refine Withholds.before ?_ (relayCtl_withholds _ _ _ hraw)
              rfl

end Broker

/-! ### The claim -/

/-- Whoever uses the rule's room follows the rule. -/
theorem followsRule_iff {room : Option String} :
    FollowsRule env st target room ↔ room = resolveSendRoom env st target := by
  constructor
  · exact FollowsRule.rule
  · intro hrule
    have hfirst : ∀ t r, target = some t → Shares st target → room = some r →
        r ∈ st.joinedRooms.elems ∧ knownIn st t r = true := by
      intro t r ht hshares hr
      have hfound := (resolveSendRoom_shared hshares).mp (hrule.symm.trans hr)
      obtain ⟨hjoined, t', ht', hknown⟩ := firstShared_mem hfound
      obtain rfl := Option.some.inj (ht.symm.trans ht')
      exact ⟨hjoined, hknown⟩
    refine ⟨hrule, ?_, ?_, ?_⟩
    · intro p ht hp hjoined
      have halone : ¬ Shares st target := by
        rintro ⟨t, h, -⟩
        rw [ht] at h
        cases h
      rw [hrule]
      exact (resolveSendRoom_alone halone).mpr (.inl ⟨hp, hjoined⟩)
    · intro t ht hshares
      cases hroom : firstShared st target with
      | none => exact absurd hshares (firstShared_eq_none.mp hroom)
      | some r =>
          have hr : room = some r :=
            hrule.trans ((resolveSendRoom_shared hshares).mpr (firstShared_eq_some.mp hroom))
          exact ⟨r, hr, hfirst t r ht hshares hr⟩
    · intro t r ht hshares hr benv now b sender f hagree hf
      obtain ⟨hjoined, hknown⟩ := hfirst t r ht hshares hr
      exact ⟨routeMsg_member hagree hf hjoined hknown,
        handleCtl_member hagree hf hjoined hknown⟩

/-- **What `mesh_send` and `control` send follows the rule for its target exactly where their own
preferences come to the same room**; a `send` without a room follows it always. -/
theorem room_rule_iff (env : ClientEnv) (st : ClientState ν) :
    (∀ (tool : SendTool) (p : MeshSendParams ν) (opts : SendOpts) (plan : SendPlan),
      p.room = none → execMeshSend tool env st p = .ok opts → planSend env st opts = .ok plan →
        (FollowsRule env st plan.recipient (some plan.room) ↔ ToolAgrees env st plan.recipient)) ∧
    (∀ (now : Int) (opts : ControlOpts) (name : String), planControl env st opts = .ok name →
      (FollowsRule env st (some name) (ctlFrame env now st name opts).room ↔
        ControlAgrees env st (some name))) ∧
    ∀ (opts : SendOpts) (plan : SendPlan), opts.room = none → planSend env st opts = .ok plan →
      FollowsRule env st plan.recipient (some plan.room) := by
  refine ⟨fun tool p opts plan hp hexec hplan => ?_, fun now opts name _ => ?_,
    fun opts plan hroom hplan => ?_⟩
  · rw [followsRule_iff, (planSend_room hplan).2, execMeshSend_room hexec, hp]
    exact toolAgrees_iff
  · rw [followsRule_iff]
    exact controlAgrees_iff
  · rw [followsRule_iff, (planSend_room hplan).2, hroom]
    rfl

/-! ### Alice and her project -/

/-- `alice`, online, whose project room is `proj`, and who has seen `bob` there. -/
def projectClient (rooms : List String) : ClientState Int :=
  let st : ClientState Int := .init "alice" rooms []
  { st with peerRooms := st.peerRooms.set "bob" (.ofList ["proj"]), conn := { st.conn with
      socket := some 0, online := true, brokerProto := 2, sockets := Map.empty.set 0 { owner := .connect } } }

def projectEnv : ClientEnv := { referenceClient with projectRoom := some "proj" }

/-- Nothing is refused locally. -/
def openTool : SendTool := { knowsPeer := fun _ => true, checkSend := fun _ => none, reachable := true }

def helloTo (recipient : Option String) : MeshSendParams Int :=
  { recipient, message := some "hi", broadcast := recipient.isNone }

/-- What `mesh_send` passes on for it. -/
def handedOn (recipient : Option String) (room : String) : SendOpts :=
  { recipient, message := "hi", room := some room, priority := some .normal, block := some true,
    broadcast := recipient.isNone }

/-- What `send` makes of that. -/
def plannedFor (recipient : Option String) (room : String) : SendPlan :=
  { recipient, room, message := "hi", broadcast := recipient.isNone,
    timeoutMs := defaultAwaitReplyTimeoutMs }

/-- The call of `mesh_send` is sent to this target in this room. -/
def Plans (st : ClientState Int) (target : Option String) (room : String) : Prop :=
  execMeshSend openTool projectEnv st (helloTo target) = .ok (handedOn target room) ∧
    planSend projectEnv st (handedOn target room) = .ok (plannedFor target room)

/-- A request for `bob`. -/
def askBob : ControlOpts := { recipient := "bob", action := .abort, reason := some "stop" }

theorem plans_project (target : Option String) (h : target = none ∨ target = some "bob") :
    Plans (projectClient ["proj"]) target "proj" := by
  rcases h with rfl | rfl <;> exact ⟨rfl, by decide⟩

theorem plans_default (target : Option String) (h : target = none ∨ target = some "bob") :
    Plans (projectClient ["default", "proj"]) target "default" := by
  rcases h with rfl | rfl <;> exact ⟨rfl, by decide⟩

/-- In the project room alone, the tool and `control` use it. -/
theorem room_rule_project :
    (Plans (projectClient ["proj"]) (some "bob") "proj" ∧
      FollowsRule projectEnv (projectClient ["proj"]) (some "bob") (some "proj")) ∧
    (Plans (projectClient ["proj"]) none "proj" ∧
      FollowsRule projectEnv (projectClient ["proj"]) none (some "proj")) ∧
    planControl projectEnv (projectClient ["proj"]) askBob = .ok "bob" ∧
    FollowsRule projectEnv (projectClient ["proj"]) (some "bob")
      (ctlFrame projectEnv 0 (projectClient ["proj"]) "bob" askBob).room := by
  obtain ⟨htool, hcontrol, -⟩ := room_rule_iff projectEnv (projectClient ["proj"])
  have hdefault : defaultRoom ∉ (projectClient ["proj"]).joinedRooms.elems := by decide
  have hbob : FirstShared (projectClient ["proj"]) (some "bob") "proj" :=
    firstShared_eq_some.mp (by decide)
  have hnobody : ¬ Shares (projectClient ["proj"]) none := firstShared_eq_none.mp rfl
  have hproject : NoOtherProject projectEnv (projectClient ["proj"]) "proj" :=
    fun p hp _ => (Option.some.inj hp).symm
  have hdirect := plans_project (some "bob") (.inr rfl)
  have hbroadcast := plans_project none (.inl rfl)
  have hplan : planControl projectEnv (projectClient ["proj"]) askBob = .ok "bob" := rfl
  refine ⟨⟨hdirect, ?_⟩, ⟨hbroadcast, ?_⟩, hplan, ?_⟩
  · exact (htool openTool _ _ _ rfl hdirect.1 hdirect.2).mpr
      (.inr ⟨hdefault, "proj", rfl, .inl hbob⟩)
  · exact (htool openTool _ _ _ rfl hbroadcast.1 hbroadcast.2).mpr
      (.inr ⟨hdefault, "proj", rfl, .inr ⟨hnobody, hproject⟩⟩)
  · rw [hcontrol 0 askBob "bob" hplan]
    exact ⟨"proj", rfl, .inl hbob⟩

/-- In the default room as well, a broadcast leaves the project, and what is for `bob` goes to a
room he is not in. -/
theorem project_left :
    (Plans (projectClient ["default", "proj"]) none "default" ∧
      ¬ FollowsRule projectEnv (projectClient ["default", "proj"]) none (some "default")) ∧
    (Plans (projectClient ["default", "proj"]) (some "bob") "default" ∧
      ¬ FollowsRule projectEnv (projectClient ["default", "proj"]) (some "bob") (some "default")) ∧
    planControl projectEnv (projectClient ["default", "proj"]) askBob = .ok "bob" ∧
    ¬ FollowsRule projectEnv (projectClient ["default", "proj"]) (some "bob")
      (ctlFrame projectEnv 0 (projectClient ["default", "proj"]) "bob" askBob).room := by
  refine ⟨⟨plans_default none (.inl rfl), ?_⟩, ⟨plans_default (some "bob") (.inr rfl), ?_⟩, rfl, ?_⟩
  · rw [followsRule_iff]
    exact fun h => absurd h.symm (by decide)
  · rw [followsRule_iff]
    exact fun h => absurd h.symm (by decide)
  · rw [followsRule_iff]
    exact fun h => absurd h.symm (by decide)

end PiMesh
