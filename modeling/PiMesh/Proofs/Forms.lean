/-
The forms in which a frame is passed on, and whether the recipient accepts them.

The broker relays a frame as it came, or with its priority lowered, or addressed to the
peer chosen for a capability; a message that waited in a mailbox goes out under another
type.  The recipient runs the rules again on the line it gets.  Every rewrite but one
keeps the verdict.  The one is the mailbox form of a message that names its reply
targets: the rule on `replyTargets` wants the type `msg` or `reply`, and the rewrite has
just replaced it.
-/
import PiMesh.Broker.Reference
import PiMesh.Proofs.Handlers
import PiMesh.Proofs.Rules

namespace PiMesh

open Js Json BrokerState

variable {ν : Type} [Number ν] [DecidableEq ν]

/-- The forms of a frame; the flag says that it waited in a mailbox. -/
inductive Form (rt : Runtime) (f : MeshFrame ν) : Bool → Members ν → Prop
  | verbatim : Form rt f false f.raw
  | direct (decision : PolicyDecision) (hmsg : f.type = .msg) :
      Form rt f false (routed decision f.prio f.raw).1
  | capable (target cap name : String) (decision : PolicyDecision) (hmsg : f.type = .msg)
      (hbroadcast : f.broadcast ≠ some true) (hto : f.recipient = some target)
      (hcap : capTargetName rt target = some cap) (hname : isValidAlias name = true) :
      Form rt f false (routed decision f.prio (capRouted f cap name)).1
  | stored {out : Members ν} (hmsg : f.type = .msg) (h : Form rt f false out) (ref : Nat)
      (enqueuedAt : Int) : Form rt f true (mailboxFrame rt ⟨ref, out, enqueuedAt⟩)

/-- The members a recipient must find as the sender wrote them. -/
def carriedKeys : List String := ["id", "from", "room", "body", "refs"]

/-- The recipient accepts the line of `out` as the frame `recv`, with what the sender
wrote in it. -/
def Received (rt : Runtime) (sent out recv : Members ν) : Prop :=
  parseFrameLine rt (stringify (.obj out)) = .ok recv ∧
    ∀ k ∈ carriedKeys, getOf recv k = getOf sent k

/-! ### Rewrites and rules -/

section Rewrites

variable {rt : Runtime} {maxBody : Nat} {ms : Members ν}

/-- A rule for other types has nothing to object to. -/
theorem whenType_of_not_mem {types : List MeshFrameType} {rule : Rule ν} {get : Get ν} {s : String}
    (htype : get "type" = some (.str s)) (h : (types.any fun t => t.text == s) = false) :
    whenType types rule get = none := by
  simp [whenType, htype, h]

theorem optional_of {key : String} {test : Json ν → Bool} {code : MeshErrorCode} {detail : String}
    {get : Get ν} (h : ∀ v, get key = some v → test v = true) :
    optional key test code detail get = none := by
  unfold optional
  cases hg : get key with
  | none => rfl
  | some v => simp [h v hg]

/-- Whatever the priority, an accepted `reasonHash` is one. -/
theorem reasonHash_ok (h : Passes rt maxBody ms) {v : Json ν} (hv : getOf ms "reasonHash" = some v) :
    isReasonHash v = true := by
  have hforce : forceRule (getOf ms) = none := h.rule 10 rfl
  have hinterrupt : interruptRule (getOf ms) = none := h.rule 11 rfl
  unfold forceRule at hforce
  unfold interruptRule at hinterrupt
  split at hforce
  · obtain ⟨w, hw, hok⟩ := of_required hforce
    rw [hv] at hw
    rwa [Option.some.inj hw]
  · split at hinterrupt
    · cases hinterrupt
    · exact of_optional hinterrupt hv

theorem touched_downgrade : touched ["priority", "interrupt"] = [8, 10, 11] := by decide

/-- Lowering the priority. -/
theorem passes_downgrade (h : Passes rt maxBody ms) :
    Passes rt maxBody (withoutMember (withMember ms "priority" (.str "urgent")) "interrupt") := by
  have hpriority : getOf (withoutMember (withMember ms "priority" (.str "urgent")) "interrupt")
      "priority" = some (.str "urgent") := by
    simp [getOf_withoutMember, getOf_withMember]
  have hinterrupt : getOf (withoutMember (withMember ms "priority" (.str "urgent")) "interrupt")
      "interrupt" = none := by
    simp [getOf_withoutMember]
  have hreason : getOf (withoutMember (withMember ms "priority" (.str "urgent")) "interrupt")
      "reasonHash" = getOf ms "reasonHash" := by
    simp [getOf_withoutMember, getOf_withMember]
  have htext : isText (getOf (withoutMember (withMember ms "priority" (.str "urgent")) "interrupt"))
      "priority" "force" = false := by
    simp [isText, hpriority]
  refine passes_of_touched h ["priority", "interrupt"] ?_ ?_
  · intro k hk
    simp only [List.mem_cons, List.not_mem_nil, or_false, not_or] at hk
    simp [getOf_withoutMember, getOf_withMember, hk.1, hk.2]
  · rw [touched_downgrade]
    intro i hi rule hrule
    simp only [List.mem_cons, List.not_mem_nil, or_false] at hi
    rcases hi with rfl | rfl | rfl
    · obtain rfl := Option.some.inj hrule
      refine optional_of ?_
      intro v hv
      rw [hpriority] at hv
      obtain rfl := Option.some.inj hv
      show (MeshPriority.ofText? "urgent").isSome = true
      decide
    · obtain rfl := Option.some.inj hrule
      simp [forceRule, htext]
    · obtain rfl := Option.some.inj hrule
      unfold interruptRule
      rw [if_neg (by simp [isTrue, hinterrupt])]
      refine optional_of ?_
      intro v hv
      rw [hreason] at hv
      exact reasonHash_ok h hv

theorem passes_routed (decision : PolicyDecision) (priority : MeshPriority)
    (h : Passes rt maxBody ms) : Passes rt maxBody (routed decision priority ms).1 := by
  cases decision with
  | allow => exact h
  | deny code => exact h
  | downgrade => exact passes_downgrade h

/-- A message is no reply to all. -/
theorem replyAll_ne_true (h : Passes rt maxBody ms) (htype : getOf ms "type" = some (.str "msg")) :
    getOf ms "replyAll" ≠ some (.bool true) := by
  intro hc
  have hrule : replyAllRule (getOf ms) = none := h.rule 40 rfl
  unfold replyAllRule at hrule
  rw [hc] at hrule
  simp only at hrule
  split at hrule
  · cases hrule
  · simp [isText, htype] at hrule

theorem replyAllRule_of_ne {get : Get ν} {ms : Members ν} (h : Passes rt maxBody ms)
    (hsame : get "replyAll" = getOf ms "replyAll") (hne : getOf ms "replyAll" ≠ some (.bool true)) :
    replyAllRule get = none := by
  have hrule : replyAllRule (getOf ms) = none := h.rule 40 rfl
  unfold replyAllRule at hrule ⊢
  rw [hsame]
  cases hg : getOf ms "replyAll" with
  | none => rfl
  | some v =>
      rw [hg] at hrule hne
      cases v with
      | bool b =>
          cases b with
          | true => exact absurd rfl hne
          | false => rfl
      | _ => exact hrule

theorem touched_capRouted :
    touched ["to", "routedCap", "routedTo"] = [5, 14, 20, 21, 37, 39, 40, 42] := by decide

/-- Addressing a message to the peer chosen for a capability. -/
theorem passes_capRouted (h : Passes rt maxBody ms) (htype : getOf ms "type" = some (.str "msg"))
    (hbroadcast : getOf ms "broadcast" ≠ some (.bool true)) {target cap name : String}
    (hcap : capTargetName rt target = some cap) (hname : isValidAlias name = true) :
    Passes rt maxBody (withMember (withMember (withMember ms "to" (.str name)) "routedCap" (.str cap))
      "routedTo" (.str name)) := by
  have hget : ∀ k, getOf (withMember (withMember (withMember ms "to" (.str name)) "routedCap"
      (.str cap)) "routedTo" (.str name)) k
      = if k = "routedTo" then some (.str name) else if k = "routedCap" then some (.str cap)
        else if k = "to" then some (.str name) else getOf ms k := by
    intro k
    simp only [getOf_withMember]
  have hcapOk : (normalizeCaps rt [cap]).length = 1 := by
    unfold capTargetName at hcap
    simp only at hcap
    split at hcap
    · cases hcap
    · split at hcap
      · next hlen =>
          obtain rfl := Option.some.inj hcap
          exact hlen
      · cases hcap
  refine passes_of_touched h ["to", "routedCap", "routedTo"] ?_ ?_
  · intro k hk
    simp only [List.mem_cons, List.not_mem_nil, or_false, not_or] at hk
    rw [hget, if_neg hk.2.2, if_neg hk.2.1, if_neg hk.1]
  · rw [touched_capRouted]
    intro i hi rule hrule
    simp only [List.mem_cons, List.not_mem_nil, or_false] at hi
    have htype' : getOf (withMember (withMember (withMember ms "to" (.str name)) "routedCap"
        (.str cap)) "routedTo" (.str name)) "type" = some (.str "msg") := by
      rw [hget]
      simpa using htype
    rcases hi with rfl | rfl | rfl | rfl | rfl | rfl | rfl | rfl
    · obtain rfl := Option.some.inj hrule
      refine optional_of ?_
      intro v hv
      simp only [hget] at hv
      obtain rfl : (.str name : Json ν) = v := by simpa using hv
      simp [isStr, isTarget, hname]
    · obtain rfl := Option.some.inj hrule
      -- the rule looks at `to` in a reply only
      have hold : replyTargetsRule (getOf ms) = none := h.rule 14 rfl
      have hreply : getOf (withMember (withMember (withMember ms "to" (.str name)) "routedCap"
          (.str cap)) "routedTo" (.str name)) "replyTargets" = getOf ms "replyTargets" := by
        rw [hget]
        simp
      unfold replyTargetsRule at hold ⊢
      rw [hreply]
      simpa [isText, htype, htype'] using hold
    · obtain rfl := Option.some.inj hrule
      refine optional_of ?_
      intro v hv
      simp only [hget] at hv
      obtain rfl : (.str cap : Json ν) = v := by simpa using hv
      simp [isStr, hcapOk]
    · obtain rfl := Option.some.inj hrule
      refine optional_of ?_
      intro v hv
      simp only [hget] at hv
      obtain rfl : (.str name : Json ν) = v := by simpa using hv
      simp [isStr, hname]
    · obtain rfl := Option.some.inj hrule
      exact whenType_of_not_mem htype' (by decide)
    · obtain rfl := Option.some.inj hrule
      have hold : broadcastRule (getOf ms) = none := h.rule 39 rfl
      have hsame : getOf (withMember (withMember (withMember ms "to" (.str name)) "routedCap"
          (.str cap)) "routedTo" (.str name)) "broadcast" = getOf ms "broadcast" := by
        rw [hget]
        simp
      unfold broadcastRule at hold ⊢
      rw [hsame]
      cases hg : getOf ms "broadcast" with
      | none => rfl
      | some v =>
          rw [hg] at hold hbroadcast
          cases v with
          | bool b =>
              cases b with
              | true => exact absurd rfl hbroadcast
              | false => rfl
          | _ => exact hold
    · obtain rfl := Option.some.inj hrule
      refine replyAllRule_of_ne h ?_ (replyAll_ne_true h htype)
      rw [hget]
      simp
    · obtain rfl := Option.some.inj hrule
      exact whenType_of_not_mem htype' (by decide)

theorem touched_mailbox :
    touched ["type", "queuedAt"] = [1, 12, 14, 17, 37, 38, 40, 41, 42, 45, 46, 47, 48] := by decide

/-- A message has no token. -/
theorem token_eq_none (h : Passes rt maxBody ms) (htype : getOf ms "type" = some (.str "msg")) :
    getOf ms "token" = none := by
  have hrule : tokenRule (getOf ms) = none := h.rule 17 rfl
  unfold tokenRule at hrule
  cases hg : getOf ms "token" with
  | none => rfl
  | some v =>
      rw [hg] at hrule
      simp [isText, htype] at hrule

/-- **The mailbox form of a message passes exactly when it names no reply targets.** -/
theorem passes_mailbox_iff (h : Passes rt maxBody ms) (htype : getOf ms "type" = some (.str "msg"))
    (queuedAt : Json ν) :
    Passes rt maxBody (withMember (withMember ms "type" (.str "mailbox")) "queuedAt" queuedAt) ↔
      getOf ms "replyTargets" = none := by
  have hget : ∀ k, getOf (withMember (withMember ms "type" (.str "mailbox")) "queuedAt" queuedAt) k
      = if k = "queuedAt" then some queuedAt else if k = "type" then some (.str "mailbox")
        else getOf ms k := by
    intro k
    simp only [getOf_withMember]
  have htype' : getOf (withMember (withMember ms "type" (.str "mailbox")) "queuedAt" queuedAt) "type"
      = some (.str "mailbox") := by
    rw [hget]
    simp
  have htargets : getOf (withMember (withMember ms "type" (.str "mailbox")) "queuedAt" queuedAt)
      "replyTargets" = getOf ms "replyTargets" := by
    rw [hget]
    simp
  constructor
  · intro hp
    -- the rule that lets targets pass on a message rejects them here
    have hrule := hp.rule 14 rfl
    unfold replyTargetsRule at hrule
    rw [htargets] at hrule
    cases hg : getOf ms "replyTargets" with
    | none => rfl
    | some v =>
        rw [hg] at hrule
        cases v with
        | arr items =>
            simp only at hrule
            split at hrule
            · cases hrule
            · split at hrule
              · cases hrule
              · simp [isText, htype'] at hrule
        | _ => simp at hrule
  · intro hnone
    refine passes_of_touched h ["type", "queuedAt"] ?_ ?_
    · intro k hk
      simp only [List.mem_cons, List.not_mem_nil, or_false, not_or] at hk
      rw [hget, if_neg hk.2, if_neg hk.1]
    · rw [touched_mailbox]
      intro i hi rule hrule
      simp only [List.mem_cons, List.not_mem_nil, or_false] at hi
      rcases hi with rfl | rfl | rfl | rfl | rfl | rfl | rfl | rfl | rfl | rfl | rfl | rfl | rfl
      · obtain rfl := Option.some.inj hrule
        unfold required
        rw [htype']
        rfl
      · obtain rfl := Option.some.inj hrule
        exact whenType_of_not_mem htype' (by decide)
      · obtain rfl := Option.some.inj hrule
        unfold replyTargetsRule
        rw [htargets, hnone]
      · obtain rfl := Option.some.inj hrule
        have htoken : getOf (withMember (withMember ms "type" (.str "mailbox")) "queuedAt" queuedAt)
            "token" = none := by
          rw [hget]
          simpa using token_eq_none h htype
        unfold tokenRule
        rw [htoken]
      · obtain rfl := Option.some.inj hrule
        exact whenType_of_not_mem htype' (by decide)
      · obtain rfl := Option.some.inj hrule
        exact whenType_of_not_mem htype' (by decide)
      · obtain rfl := Option.some.inj hrule
        refine replyAllRule_of_ne h ?_ (replyAll_ne_true h htype)
        rw [hget]
        simp
      all_goals
        obtain rfl := Option.some.inj hrule
        exact whenType_of_not_mem htype' (by decide)

end Rewrites

/-! ### Carrying a frame over -/

section Carried

variable {rt : Runtime} {maxBody : Nat} {ms : Members ν}

theorem wire_of_isStr {p : String → Bool} {v : Json ν} (h : isStr p v = true) : wire v = v := by
  cases v <;> simp_all [isStr, wire]

/-- Strings, and arrays of them, come back as they are. -/
theorem carried_wire (h : Passes rt maxBody ms) {k : String} (hk : k ∈ carriedKeys) :
    (getOf ms k).map wire = getOf ms k := by
  have hstr : ∀ {p : String → Bool}, (∀ v, getOf ms k = some v → isStr p v = true) →
      (getOf ms k).map wire = getOf ms k := by
    intro p hp
    cases hg : getOf ms k with
    | none => rfl
    | some v => rw [Option.map_some, wire_of_isStr (hp v hg)]
  simp only [carriedKeys, List.mem_cons, List.not_mem_nil, or_false] at hk
  rcases hk with rfl | rfl | rfl | rfl | rfl
  · obtain ⟨v, hv, hok⟩ := of_required (h.rule 2 rfl)
    rw [hv, Option.map_some, wire_of_isStr hok]
  · exact hstr fun v hv => of_optional (h.rule 4 rfl) hv
  · exact hstr fun v hv => of_optional (h.rule 6 rfl) hv
  · have hbody : bodyRule rt maxBody (getOf ms) = none := h.rule 7 rfl
    unfold bodyRule at hbody
    cases hg : getOf ms "body" with
    | none => rfl
    | some v =>
        rw [hg] at hbody
        cases v with
        | str s => rfl
        | _ => simp at hbody
  · have hrefs : refsRule (getOf ms) = none := h.rule 15 rfl
    unfold refsRule at hrefs
    cases hg : getOf ms "refs" with
    | none => rfl
    | some v =>
        rw [hg] at hrefs
        cases v with
        | arr items =>
            simp only at hrefs
            split at hrefs
            · cases hrefs
            · split at hrefs
              · cases hrefs
              · next hall =>
                  simp only [Bool.not_eq_true', Bool.not_eq_false, List.all_eq_true] at hall
                  have hitems : wireItems items = items := by
                    calc wireItems items = items.map wire := wireItems_eq_map items
                      _ = items.map id :=
                        List.map_congr_left fun v hv => wire_of_isStr (hall v hv)
                      _ = items := List.map_id items
                  rw [Option.map_some, wire, hitems]
        | _ => simp at hrefs

/-- The recipient accepts a line exactly when the rules accept what was encoded, and then
finds the members that were left alone. -/
theorem received_iff {out : Members ν} (hwf : WellFormed (.obj out))
    (hsame : ∀ k ∈ carriedKeys, getOf out k = getOf ms k) (h : Passes rt maxBodyBytes ms) :
    (∃ recv, Received rt ms out recv) ↔ Passes rt maxBodyBytes out := by
  unfold Received
  have hparse : parse (stringify (.obj out)) = some (.obj (wireMembers out)) := by
    rw [parse_stringify _ hwf, wire]
  constructor
  · rintro ⟨recv, hrecv, -⟩
    obtain ⟨hp, hpass⟩ := parseFrameLine_eq_ok.mp hrecv
    rw [hparse] at hp
    obtain rfl : wireMembers out = recv := by simpa using hp
    exact passes_wire_iff.mp hpass
  · intro hp
    refine ⟨wireMembers out, parseFrameLine_eq_ok.mpr ⟨hparse, passes_wire_iff.mpr hp⟩, ?_⟩
    intro k hk
    rw [getOf_wireMembers, hsame k hk]
    exact carried_wire h hk

end Carried

/-! ### The forms -/

section Forms

variable {rt : Runtime} {text : List Char} {ms out : Members ν} {f : MeshFrame ν} {stored : Bool}

theorem wellFormed_withMember {k : String} {v : Json ν} (hv : WellFormed v)
    (h : WellFormed (.obj ms)) : WellFormed (.obj (withMember ms k v)) := by
  rw [WellFormed] at h ⊢
  exact ⟨nodup_keys_setEntry h.1, wellFormedMembers_setEntry hv h.2⟩

theorem wellFormed_withoutMember (k : String) (h : WellFormed (.obj ms)) :
    WellFormed (.obj (withoutMember ms k)) := by
  rw [WellFormed, wellFormedMembers_iff] at h ⊢
  refine ⟨h.1.sublist (List.filter_sublist.map _), ?_⟩
  intro m hm
  exact h.2 m (List.mem_filter.mp hm).1

theorem wellFormed_routed (decision : PolicyDecision) (priority : MeshPriority)
    (h : WellFormed (.obj ms)) : WellFormed (.obj (routed decision priority ms).1) := by
  cases decision with
  | allow => exact h
  | deny code => exact h
  | downgrade => exact wellFormed_withoutMember _ (wellFormed_withMember trivial h)

theorem Form.wellFormed (hform : Form rt f stored out) (h : WellFormed (.obj f.raw)) :
    WellFormed (.obj out) := by
  induction hform with
  | verbatim => exact h
  | direct decision _ => exact wellFormed_routed decision _ h
  | capable target cap name decision _ _ _ _ _ =>
      refine wellFormed_routed decision _ ?_
      exact wellFormed_withMember trivial (wellFormed_withMember trivial (wellFormed_withMember trivial h))
  | stored _ _ ref enqueuedAt ih =>
      exact wellFormed_withMember trivial (wellFormed_withMember trivial ih)

/-- No form touches a member but these. -/
theorem Form.keeps (hform : Form rt f stored out) {k : String}
    (hk : k ∉ ["type", "queuedAt", "priority", "interrupt", "to", "routedCap", "routedTo"]) :
    getOf out k = getOf f.raw k := by
  simp only [List.mem_cons, List.not_mem_nil, or_false, not_or] at hk
  obtain ⟨htype, hqueued, hpriority, hinterrupt, hto, hcap, hrouted⟩ := hk
  induction hform with
  | verbatim => rfl
  | direct => exact getOf_routed _ _ _ ⟨hpriority, hinterrupt⟩
  | capable =>
      rw [getOf_routed _ _ _ ⟨hpriority, hinterrupt⟩, getOf_capRouted f _ _ ⟨hto, hcap, hrouted⟩]
  | stored _ _ ref enqueuedAt ih =>
      simp only [mailboxFrame, getOf_withMember, hqueued, htype, if_false]
      exact ih

/-- A form that did not wait has the type it came with. -/
theorem Form.type (hform : Form rt f stored out) (hs : stored = false) :
    getOf out "type" = getOf f.raw "type" := by
  cases hform with
  | verbatim => rfl
  | direct => exact getOf_routed _ _ _ (by decide)
  | capable => rw [getOf_routed _ _ _ (by decide), getOf_capRouted f _ _ (by decide)]
  | stored => cases hs

theorem type_of_msg (hviews : Views ms f) (h : f.type = .msg) :
    getOf ms "type" = some (.str "msg") := by
  have htype := hviews.type
  rw [h] at htype
  obtain ⟨v, hv, hof⟩ := Option.bind_eq_some_iff.mp htype
  obtain ⟨s, hs, hof⟩ := Option.bind_eq_some_iff.mp hof
  cases v with
  | str t =>
      obtain rfl := Option.some.inj hs
      rw [hv, MeshFrameType.text_of_ofText? hof]
      rfl
  | _ => cases hs

theorem Reads.eq_none_iff {α : Type} {get : Get ν} {key : String} {conv : Json ν → Option α}
    {o : Option α} (h : Reads get key conv o) : get key = none ↔ o = none := by
  rcases h with ⟨h, rfl⟩ | ⟨v, a, h, -, rfl⟩
  · simp [h]
  · simp [h]

/-- The forms that did not wait in a mailbox are all accepted. -/
theorem Form.passes (hform : Form rt f stored out) (hs : stored = false) (hviews : Views f.raw f)
    (h : Passes rt maxBodyBytes f.raw) : Passes rt maxBodyBytes out := by
  cases hform with
  | verbatim => exact h
  | direct decision _ => exact passes_routed decision _ h
  | capable target cap name decision hmsg hbroadcast _ hcap hname =>
      refine passes_routed decision _ ?_
      refine passes_capRouted h (type_of_msg hviews hmsg) ?_ hcap hname
      intro hc
      refine hbroadcast ?_
      rw [← hviews.broadcast.bind, hc]
      rfl
  | stored => cases hs

/-- **The recipient accepts every form of an accepted frame, with the id, sender, room, body
and refs it was sent with, except the mailbox form of a message that names its reply
targets.** -/
theorem form_received_iff (hparse : parseFrameLine rt text = .ok ms) (hcast : castFrame ms = .ok f)
    (hform : Form rt f stored out) :
    (∃ recv, Received rt ms out recv) ↔ (stored = true → f.replyTargets = none) := by
  obtain ⟨hjson, hpass⟩ := parseFrameLine_eq_ok.mp hparse
  have hviews := castFrame_views hcast
  obtain rfl : f.raw = ms := hviews.raw
  have hkeep : ∀ k ∈ carriedKeys, getOf out k = getOf f.raw k := by
    intro k hk
    refine hform.keeps ?_
    simp only [carriedKeys, List.mem_cons, List.not_mem_nil, or_false] at hk
    rcases hk with rfl | rfl | rfl | rfl | rfl <;> decide
  rw [received_iff (hform.wellFormed (parse_wellFormed hjson)) hkeep hpass]
  cases stored with
  | false =>
      refine ⟨?_, fun _ => hform.passes rfl hviews hpass⟩
      intro _ hc
      cases hc
  | true =>
      cases hform with
      | stored hmsg hinner ref enqueuedAt =>
          have htype := (hinner.type rfl).trans (type_of_msg hviews hmsg)
          have htargets := hinner.keeps (show "replyTargets" ∉ _ by decide)
          simp only [true_implies]
          rw [mailboxFrame, MeshFrameType.text, passes_mailbox_iff (hinner.passes rfl hviews hpass) htype,
            htargets, hviews.replyTargets.eq_none_iff]

end Forms

/-- A message of alice to bob. -/
def aliceToBob (rest : Members Int) : List Char :=
  frameLine .msg "m_2" "alice" ([("to", .str "bob"), ("body", .str "hi")] ++ rest)

theorem form_received_iff_plain : ∃ (ms : Members Int) (f : MeshFrame Int),
    parseFrameLine referenceRuntime (aliceToBob []) = .ok ms ∧ castFrame ms = .ok f ∧
    ((∃ recv, Received referenceRuntime ms (mailboxFrame referenceRuntime ⟨0, f.raw, 1000⟩) recv) ↔
      (true = true → f.replyTargets = none)) := by
  have h : ((frameOf (aliceToBob [])).any fun f => decide (f.type = .msg)) = true := by
    decide +kernel
  obtain ⟨ms, f, hms, hf, hmsg⟩ := exists_frame h
  exact ⟨ms, f, hms, hf, form_received_iff hms hf (.stored (of_decide_eq_true hmsg) .verbatim 0 1000)⟩

/-- A message that names who may answer, once it has waited for bob, is a line his client
drops. -/
theorem mailbox_form_rejected : ∃ (ms : Members Int) (f : MeshFrame Int),
    parseFrameLine referenceRuntime (aliceToBob [("replyTargets", .arr [.str "bob"])]) = .ok ms ∧
    castFrame ms = .ok f ∧
    Form referenceRuntime f true (mailboxFrame referenceRuntime ⟨0, f.raw, 1000⟩) ∧
    ¬ ∃ recv, Received referenceRuntime ms (mailboxFrame referenceRuntime ⟨0, f.raw, 1000⟩) recv := by
  have h : ((frameOf (aliceToBob [("replyTargets", .arr [.str "bob"])])).any fun f =>
      decide (f.type = .msg) &&
      (parseFrameLine referenceRuntime (stringify (.obj (mailboxFrame referenceRuntime
        ⟨0, f.raw, 1000⟩))) : Except Reject (Members Int)).toOption.isNone) = true := by
    decide +kernel
  obtain ⟨ms, f, hms, hf, hcheck⟩ := exists_frame h
  obtain ⟨hmsg, hnone⟩ := Bool.and_eq_true_iff.mp hcheck
  refine ⟨ms, f, hms, hf, .stored (of_decide_eq_true hmsg) .verbatim 0 1000, ?_⟩
  rintro ⟨recv, hrecv, -⟩
  rw [hrecv] at hnone
  cases hnone

end PiMesh
