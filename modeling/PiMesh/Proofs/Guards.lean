/-
What the guards in front of a send keep to.

A call that is refused leaves the guards alone, with one exception: an urgent or forced
message draws on its own window before it finds none left in that of ordinary messages.
Where this happens the unit is gone, and nowhere else.  That two states answer alike is shown
by a relation which the calls keep: the windows agree wherever the capacity allows anything.

For the caps, what is counted is the accepted calls that drew on the window of a kind, by the
time that window started at.  A window starts later than all before it.
-/
import PiMesh.Broker.Reference
import PiMesh.Extension.Guards

namespace PiMesh

open Js Transition

/-- A call, with the state it met. -/
abbrev GuardCall := MeshGuards × (Int × GuardedSend)

namespace MeshGuards

/-- The window of a kind has a unit left. -/
def hasRoom (limits : GuardRateLimits) (g : MeshGuards) (kind : RateKind) (now : Int) : Bool :=
  decide (((windowAt g.windows kind now).count : Int) < capacity limits kind)

/-- A call is not refused before the caps. -/
def reachesCaps (rt : Runtime) (g : MeshGuards) (x : Int × GuardedSend) : Bool :=
  decide (normalizeAlias rt x.2.target ≠ normalizeAlias rt x.2.sender) &&
    decide (x.2.role ≠ some .observer) &&
    !(g.recent.get? (dupKey rt x.2)).any fun last => x.1 - last < duplicateWindowMs

/-- A call draws on its own window, and finds none left in that of ordinary messages. -/
def spills (rt : Runtime) (limits : GuardRateLimits) (g : MeshGuards) (x : Int × GuardedSend) : Bool :=
  reachesCaps rt g x && decide (rateKind x.2.priority ≠ .msg) &&
    hasRoom limits g (rateKind x.2.priority) x.1 && !hasRoom limits g .msg x.1

/-- What a list of calls is answered. -/
def answers (rt : Runtime) (limits : GuardRateLimits) :
    MeshGuards → List (Int × GuardedSend) → List GuardResult
  | _, [] => []
  | g, x :: l => (g.checkSend rt limits x.1 x.2).1 :: answers rt limits (g.checkSend rt limits x.1 x.2).2 l

end MeshGuards

open MeshGuards

namespace GuardCall

/-- The state after a call. -/
def after (rt : Runtime) (limits : GuardRateLimits) (x : GuardCall) : MeshGuards :=
  (x.1.checkSend rt limits x.2.1 x.2.2).2

def accepted (rt : Runtime) (limits : GuardRateLimits) (x : GuardCall) : Bool :=
  (x.1.checkSend rt limits x.2.1 x.2.2).1.isOk

/-- An accepted call draws on the window of a kind. -/
def draws (rt : Runtime) (limits : GuardRateLimits) (kind : RateKind) (x : GuardCall) : Bool :=
  x.accepted rt limits && (decide (kind = .msg) || decide (kind = rateKind x.2.2.priority))

/-- It draws on the window that started at a time. -/
def drawsFrom (rt : Runtime) (limits : GuardRateLimits) (kind : RateKind) (start : Int)
    (x : GuardCall) : Bool :=
  x.draws rt limits kind && decide ((windowAt x.1.windows kind x.2.1).windowStart = start)

/-- The same message to the same target. -/
def Same (rt : Runtime) (x y : GuardCall) : Prop :=
  normalizeAlias rt x.2.2.target = normalizeAlias rt y.2.2.target ∧ x.2.2.room = y.2.2.room ∧
    x.2.2.body = y.2.2.body

end GuardCall

/-- Neither a count nor an entry changed, and every later call is answered alike. -/
structure Unchanged (rt : Runtime) (limits : GuardRateLimits) (g g' : MeshGuards) : Prop where
  counts : ∀ kind t, (windowAt g'.windows kind t).count = (windowAt g.windows kind t).count
  recent : g'.recent = g.recent
  later : ∀ l, answers rt limits g' l = answers rt limits g l

/-- What is expected of the guards in a run. -/
structure GuardsHold (rt : Runtime) (limits : GuardRateLimits) (tr : List GuardCall) : Prop where
  refused : ∀ x ∈ tr, x.accepted rt limits = false → Unchanged rt limits x.1 (x.after rt limits)
  apart : tr.Pairwise (fun x y => x.2.1 ≤ y.2.1) → tr.Pairwise fun x y =>
    x.accepted rt limits = true → y.accepted rt limits = true → x.Same rt y →
      duplicateWindowMs ≤ y.2.1 - x.2.1
  drawn : ∀ x ∈ tr, ∀ kind, x.draws rt limits kind = true →
    windowAt (x.after rt limits).windows kind x.2.1 =
      { windowAt x.1.windows kind x.2.1 with count := (windowAt x.1.windows kind x.2.1).count + 1 }
  capped : ∀ kind start,
    (tr.countP fun x => x.drawsFrom rt limits kind start) ≤ (capacity limits kind).toNat

/-! ### Windows -/

section Windows

variable {limits : GuardRateLimits} {ws ws' : Map RateKind SlidingWindow} {kind kind' : RateKind}
  {now t : Int}

/-- A unit of the current window is taken. -/
def bump (ws : Map RateKind SlidingWindow) (kind : RateKind) (now : Int) :
    Map RateKind SlidingWindow :=
  ws.set kind { windowAt ws kind now with count := (windowAt ws kind now).count + 1 }

/-- The current window is kept. -/
def keep (ws : Map RateKind SlidingWindow) (kind : RateKind) (now : Int) :
    Map RateKind SlidingWindow :=
  ws.set kind (windowAt ws kind now)

theorem windowAt_congr (h : ws'.get? kind = ws.get? kind) : windowAt ws' kind t = windowAt ws kind t := by
  unfold windowAt
  rw [h]

theorem windowAt_set_ne (w : SlidingWindow) (hne : kind' ≠ kind) :
    windowAt (ws.set kind w) kind' t = windowAt ws kind' t := windowAt_congr (Map.get?_set_ne _ _ hne)

/-- The current window is not over. -/
theorem windowAt_live (ws : Map RateKind SlidingWindow) (kind : RateKind) (now : Int) :
    ¬ rateBucketWindowMs ≤ now - (windowAt ws kind now).windowStart := by
  have hpos : ¬ rateBucketWindowMs ≤ now - now := by simp [rateBucketWindowMs]
  unfold windowAt
  split
  · split
    · exact hpos
    · next hlive => exact hlive
  · exact hpos

theorem windowAt_bump (ws : Map RateKind SlidingWindow) (kind : RateKind) (now : Int) :
    windowAt (bump ws kind now) kind now =
      { windowAt ws kind now with count := (windowAt ws kind now).count + 1 } := by
  have hget : (bump ws kind now).get? kind = some
      { windowAt ws kind now with count := (windowAt ws kind now).count + 1 } := Map.get?_set_self ..
  have hlive := windowAt_live ws kind now
  rw [windowAt, hget]
  exact if_neg hlive

theorem consumeWindow_eq (limits : GuardRateLimits) (ws : Map RateKind SlidingWindow)
    (kind : RateKind) (now : Int) : consumeWindow limits ws kind now =
      if ((windowAt ws kind now).count : Int) < capacity limits kind then (true, bump ws kind now)
      else (false, keep ws kind now) := by
  unfold consumeWindow
  dsimp only
  by_cases hfull : capacity limits kind ≤ (windowAt ws kind now).count
  · rw [if_pos hfull, if_neg (by omega)]
    rfl
  · rw [if_neg hfull, if_pos (by omega)]
    rfl

/-- The windows agree wherever the capacity allows anything. -/
def Alike (limits : GuardRateLimits) (ws ws' : Map RateKind SlidingWindow) : Prop :=
  ∀ kind, 0 < capacity limits kind → ws'.get? kind = ws.get? kind

/-- No count is above the capacity. -/
def Capped (limits : GuardRateLimits) (ws : Map RateKind SlidingWindow) : Prop :=
  ∀ kind w, ws.get? kind = some w → w.count ≤ (capacity limits kind).toNat

theorem Alike.trans {ws'' : Map RateKind SlidingWindow} (h : Alike limits ws ws')
    (h' : Alike limits ws' ws'') : Alike limits ws ws'' :=
  fun kind hpos => (h' kind hpos).trans (h kind hpos)

theorem Alike.hasRoom (h : Alike limits ws ws') (kind : RateKind) (now : Int) :
    ((windowAt ws' kind now).count : Int) < capacity limits kind ↔
      ((windowAt ws kind now).count : Int) < capacity limits kind := by
  by_cases hpos : 0 < capacity limits kind
  · rw [windowAt_congr (h kind hpos)]
  · constructor
    · intro hroom
      omega
    · intro hroom
      omega

theorem Alike.set (h : Alike limits ws ws') {w w' : SlidingWindow}
    (hw : 0 < capacity limits kind → w' = w) : Alike limits (ws.set kind w) (ws'.set kind w') := by
  intro kind' hpos
  rw [Map.get?_set, Map.get?_set]
  by_cases heq : kind' = kind
  · rw [if_pos heq, if_pos heq, hw (heq ▸ hpos)]
  · rw [if_neg heq, if_neg heq, h kind' hpos]

theorem Alike.bump (h : Alike limits ws ws') :
    Alike limits (bump ws kind now) (PiMesh.bump ws' kind now) :=
  h.set fun hpos => by rw [windowAt_congr (h kind hpos)]

theorem Alike.keep (h : Alike limits ws ws') :
    Alike limits (keep ws kind now) (PiMesh.keep ws' kind now) :=
  h.set fun hpos => by rw [windowAt_congr (h kind hpos)]

/-- A window without room is kept as it is, or allows nothing at all. -/
theorem keep_alike (hfull : ¬ ((windowAt ws kind now).count : Int) < capacity limits kind) :
    Alike limits ws (keep ws kind now) := by
  intro kind' hpos
  unfold keep
  rw [Map.get?_set]
  by_cases heq : kind' = kind
  · rw [if_pos heq, heq]
    rw [heq] at hpos
    unfold windowAt at hfull ⊢
    cases hget : ws.get? kind with
    | none =>
        rw [hget] at hfull
        exact absurd hpos hfull
    | some w =>
        rw [hget] at hfull
        dsimp only at hfull ⊢
        split at hfull
        · exact absurd hpos hfull
        · next hlive => rw [if_neg hlive]
  · rw [if_neg heq]

theorem Capped.windowAt (h : Capped limits ws) (kind : RateKind) (now : Int) :
    (windowAt ws kind now).count ≤ (capacity limits kind).toNat := by
  unfold MeshGuards.windowAt
  split
  · next w hget =>
    split
    · exact Nat.zero_le _
    · exact h kind w hget
  · exact Nat.zero_le _

theorem Capped.set (h : Capped limits ws) {w : SlidingWindow}
    (hw : w.count ≤ (capacity limits kind).toNat) : Capped limits (ws.set kind w) := by
  intro kind' w' hget
  rw [Map.get?_set] at hget
  by_cases heq : kind' = kind
  · rw [if_pos heq] at hget
    obtain rfl := Option.some.inj hget
    rw [heq]
    exact hw
  · rw [if_neg heq] at hget
    exact h kind' w' hget

theorem Capped.keep (h : Capped limits ws) : Capped limits (keep ws kind now) :=
  h.set (h.windowAt kind now)

theorem Capped.bump (h : Capped limits ws)
    (hroom : ((MeshGuards.windowAt ws kind now).count : Int) < capacity limits kind) :
    Capped limits (bump ws kind now) := by
  refine h.set ?_
  show (MeshGuards.windowAt ws kind now).count + 1 ≤ _
  omega

/-- Windows that are alike count alike. -/
theorem Alike.counts (h : Alike limits ws ws') (hcapped : Capped limits ws)
    (hcapped' : Capped limits ws') (kind : RateKind) (t : Int) :
    (windowAt ws' kind t).count = (windowAt ws kind t).count := by
  by_cases hpos : 0 < capacity limits kind
  · rw [windowAt_congr (h kind hpos)]
  · have hle := hcapped.windowAt kind t
    have hle' := hcapped'.windowAt kind t
    have hzero : (capacity limits kind).toNat = 0 := by omega
    omega

end Windows

/-! ### One call -/

section Call

variable {rt : Runtime} {limits : GuardRateLimits} {g g' : MeshGuards} {x : Int × GuardedSend}

/-- What `consume` does, by what the windows have left. -/
theorem consume_cases (limits : GuardRateLimits) (g : MeshGuards) (kind : RateKind) (now : Int) :
    (hasRoom limits g kind now = false ∧
      consume limits g.windows kind now = (false, keep g.windows kind now)) ∨
    (hasRoom limits g .msg now = true ∧ kind = .msg ∧
      consume limits g.windows kind now = (true, bump g.windows .msg now)) ∨
    (kind ≠ .msg ∧ hasRoom limits g kind now = true ∧ hasRoom limits g .msg now = false ∧
      consume limits g.windows kind now = (false, keep (bump g.windows kind now) .msg now)) ∨
    (kind ≠ .msg ∧ hasRoom limits g kind now = true ∧ hasRoom limits g .msg now = true ∧
      consume limits g.windows kind now = (true, bump (bump g.windows kind now) .msg now)) := by
  unfold consume
  by_cases hmsg : kind = .msg
  · rw [if_pos hmsg, consumeWindow_eq, hmsg]
    by_cases hroom : ((windowAt g.windows .msg now).count : Int) < capacity limits .msg
    · rw [if_pos hroom]
      exact .inr (.inl ⟨by simp [hasRoom, hroom], rfl, rfl⟩)
    · rw [if_neg hroom]
      exact .inl ⟨by simp [hasRoom, Int.not_lt.mp hroom], rfl⟩
  · rw [if_neg hmsg, consumeWindow_eq]
    by_cases hroom : ((windowAt g.windows kind now).count : Int) < capacity limits kind
    · rw [if_pos hroom]
      dsimp only
      have hsame : windowAt (bump g.windows kind now) .msg now = windowAt g.windows .msg now :=
        windowAt_set_ne _ fun heq => hmsg heq.symm
      rw [consumeWindow_eq, hsame]
      have hown : hasRoom limits g kind now = true := by simp [hasRoom, hroom]
      by_cases hmsgRoom : ((windowAt g.windows .msg now).count : Int) < capacity limits .msg
      · rw [if_pos hmsgRoom]
        exact .inr (.inr (.inr ⟨hmsg, hown, by simp [hasRoom, hmsgRoom], rfl⟩))
      · rw [if_neg hmsgRoom]
        exact .inr (.inr (.inl ⟨hmsg, hown, by simp [hasRoom, Int.not_lt.mp hmsgRoom], rfl⟩))
    · rw [if_neg hroom]
      exact .inl ⟨by simp [hasRoom, Int.not_lt.mp hroom], rfl⟩

/-- What `checkSend` does: it refuses at once, or at the caps, or accepts. -/
theorem checkSend_cases (rt : Runtime) (limits : GuardRateLimits) (g : MeshGuards)
    (x : Int × GuardedSend) :
    (reachesCaps rt g x = false ∧ ∃ reason,
      g.checkSend rt limits x.1 x.2 = (.refused reason [], g)) ∨
    (reachesCaps rt g x = true ∧
      ∃ windows, consume limits g.windows (rateKind x.2.priority) x.1 = (false, windows) ∧
        g.checkSend rt limits x.1 x.2 =
          (.refused ("rate_limited:" ++ kindText (rateKind x.2.priority)) [], { g with windows })) ∨
    (reachesCaps rt g x = true ∧
      ∃ windows, consume limits g.windows (rateKind x.2.priority) x.1 = (true, windows) ∧
        g.checkSend rt limits x.1 x.2 =
          (.ok (if includesString x.2.body loopGuardKeyword then [loopGuardWarning] else []),
            { recent := pruneRecent (g.recent.set (dupKey rt x.2) x.1) x.1, windows })) := by
  unfold checkSend reachesCaps
  by_cases hself : normalizeAlias rt x.2.target = normalizeAlias rt x.2.sender
  · rw [if_pos hself]
    exact .inl ⟨by simp [hself], _, rfl⟩
  · rw [if_neg hself]
    by_cases hrole : x.2.role = some .observer
    · rw [if_pos hrole]
      exact .inl ⟨by simp [hrole], _, rfl⟩
    · rw [if_neg hrole]
      cases hdup : (g.recent.get? (dupKey rt x.2)).any fun last => x.1 - last < duplicateWindowMs with
      | true =>
          rw [if_pos rfl]
          exact .inl ⟨by simp, _, rfl⟩
      | false =>
          rw [if_neg (by simp)]
          refine .inr ?_
          rcases hconsume : consume limits g.windows (rateKind x.2.priority) x.1 with ⟨ok, windows⟩
          cases ok with
          | false => exact .inl ⟨by simp [hself, hrole], windows, rfl, rfl⟩
          | true => exact .inr ⟨by simp [hself, hrole], windows, rfl, rfl⟩

theorem accepted_iff (x : GuardCall) : x.accepted rt limits = true ↔
    reachesCaps rt x.1 x.2 = true ∧ hasRoom limits x.1 (rateKind x.2.2.priority) x.2.1 = true ∧
      hasRoom limits x.1 .msg x.2.1 = true := by
  unfold GuardCall.accepted
  rcases checkSend_cases rt limits x.1 x.2 with ⟨hcaps, reason, heq⟩ | ⟨hcaps, ws, hconsume, heq⟩ |
    ⟨hcaps, ws, hconsume, heq⟩
  · rw [heq, hcaps]
    simp [GuardResult.isOk]
  · rw [heq]
    rcases consume_cases limits x.1 (rateKind x.2.2.priority) x.2.1 with ⟨hroom, hc⟩ | ⟨-, -, hc⟩ |
      ⟨-, -, hroom, hc⟩ | ⟨-, -, -, hc⟩
    · simp [GuardResult.isOk, hroom]
    · rw [hc] at hconsume
      cases hconsume
    · simp [GuardResult.isOk, hroom]
    · rw [hc] at hconsume
      cases hconsume
  · rw [heq]
    rcases consume_cases limits x.1 (rateKind x.2.2.priority) x.2.1 with ⟨-, hc⟩ | ⟨hroom, hkind, hc⟩ |
      ⟨-, -, -, hc⟩ | ⟨-, hown, hroom, hc⟩
    · rw [hc] at hconsume
      cases hconsume
    · simp [GuardResult.isOk, hcaps, hkind, hroom]
    · rw [hc] at hconsume
      cases hconsume
    · simp [GuardResult.isOk, hcaps, hown, hroom]

variable (rt limits) in
/-- What a call does to the window of a kind. -/
theorem windows_after (x : GuardCall) (kind : RateKind) :
    ((x.after rt limits).windows.get? kind = x.1.windows.get? kind ∧
      x.draws rt limits kind = false) ∨
    ((x.after rt limits).windows.get? kind = some (windowAt x.1.windows kind x.2.1) ∧
      x.draws rt limits kind = false) ∨
    ((x.after rt limits).windows.get? kind = some { windowAt x.1.windows kind x.2.1 with
        count := (windowAt x.1.windows kind x.2.1).count + 1 } ∧
      hasRoom limits x.1 kind x.2.1 = true) := by
  unfold GuardCall.draws GuardCall.accepted GuardCall.after
  rcases checkSend_cases rt limits x.1 x.2 with ⟨-, reason, heq⟩ | ⟨-, ws, hconsume, heq⟩ |
    ⟨-, ws, hconsume, heq⟩
  · rw [heq]
    exact .inl ⟨rfl, rfl⟩
  · rw [heq]
    rcases consume_cases limits x.1 (rateKind x.2.2.priority) x.2.1 with ⟨-, hc⟩ | ⟨-, -, hc⟩ |
      ⟨hne, hown, -, hc⟩ | ⟨-, -, -, hc⟩
    · obtain ⟨-, rfl⟩ := Prod.mk.inj (hconsume.symm.trans hc)
      by_cases hkind : kind = rateKind x.2.2.priority
      · rw [hkind]
        exact .inr (.inl ⟨Map.get?_set_self .., rfl⟩)
      · exact .inl ⟨Map.get?_set_ne _ _ hkind, rfl⟩
    · rw [hc] at hconsume
      cases hconsume
    · obtain ⟨-, rfl⟩ := Prod.mk.inj (hconsume.symm.trans hc)
      by_cases hmsg : kind = .msg
      · have hsame : windowAt (bump x.1.windows (rateKind x.2.2.priority) x.2.1) .msg x.2.1 =
            windowAt x.1.windows .msg x.2.1 := windowAt_set_ne _ fun heq => hne heq.symm
        rw [hmsg, ← hsame]
        exact .inr (.inl ⟨Map.get?_set_self .., rfl⟩)
      · by_cases hkind : kind = rateKind x.2.2.priority
        · rw [hkind]
          refine .inr (.inr ⟨?_, hown⟩)
          exact (Map.get?_set_ne _ _ hne).trans (Map.get?_set_self ..)
        · exact .inl ⟨(Map.get?_set_ne _ _ hmsg).trans (Map.get?_set_ne _ _ hkind), rfl⟩
    · rw [hc] at hconsume
      cases hconsume
  · rw [heq]
    rcases consume_cases limits x.1 (rateKind x.2.2.priority) x.2.1 with ⟨-, hc⟩ | ⟨hroom, hown, hc⟩ |
      ⟨-, -, -, hc⟩ | ⟨hne, hown, hroom, hc⟩
    · rw [hc] at hconsume
      cases hconsume
    · obtain ⟨-, rfl⟩ := Prod.mk.inj (hconsume.symm.trans hc)
      by_cases hmsg : kind = .msg
      · rw [hmsg]
        exact .inr (.inr ⟨Map.get?_set_self .., hroom⟩)
      · exact .inl ⟨Map.get?_set_ne _ _ hmsg, by simp [hmsg, hown]⟩
    · rw [hc] at hconsume
      cases hconsume
    · obtain ⟨-, rfl⟩ := Prod.mk.inj (hconsume.symm.trans hc)
      by_cases hmsg : kind = .msg
      · have hsame : windowAt (bump x.1.windows (rateKind x.2.2.priority) x.2.1) .msg x.2.1 =
            windowAt x.1.windows .msg x.2.1 := windowAt_set_ne _ fun heq => hne heq.symm
        rw [hmsg, ← hsame]
        exact .inr (.inr ⟨Map.get?_set_self .., hroom⟩)
      · by_cases hkind : kind = rateKind x.2.2.priority
        · rw [hkind]
          refine .inr (.inr ⟨?_, hown⟩)
          exact (Map.get?_set_ne _ _ hne).trans (Map.get?_set_self ..)
        · exact .inl ⟨(Map.get?_set_ne _ _ hmsg).trans (Map.get?_set_ne _ _ hkind),
            by simp [hmsg, hkind]⟩

variable (rt) in
theorem capped_after (x : GuardCall) (h : Capped limits x.1.windows) :
    Capped limits (x.after rt limits).windows := by
  intro kind w hget
  rcases windows_after rt limits x kind with ⟨hsame, -⟩ | ⟨hkept, -⟩ |
    ⟨hbumped, hroom⟩
  · rw [hsame] at hget
    exact h kind w hget
  · rw [hkept] at hget
    obtain rfl := Option.some.inj hget
    exact h.windowAt kind x.2.1
  · rw [hbumped] at hget
    obtain rfl := Option.some.inj hget
    have hroom : ((windowAt x.1.windows kind x.2.1).count : Int) < capacity limits kind := by
      simpa [hasRoom] using hroom
    show (windowAt x.1.windows kind x.2.1).count + 1 ≤ _
    omega

end Call

/-! ### Refusals -/

section Refusals

variable {rt : Runtime} {limits : GuardRateLimits} {g g' : MeshGuards}

theorem consumeWindow_alike {ws ws' : Map RateKind SlidingWindow} (h : Alike limits ws ws')
    (kind : RateKind) (now : Int) :
    (consumeWindow limits ws' kind now).1 = (consumeWindow limits ws kind now).1 ∧
      Alike limits (consumeWindow limits ws kind now).2 (consumeWindow limits ws' kind now).2 := by
  rw [consumeWindow_eq, consumeWindow_eq]
  by_cases hroom : ((windowAt ws kind now).count : Int) < capacity limits kind
  · rw [if_pos hroom, if_pos ((h.hasRoom kind now).mpr hroom)]
    exact ⟨rfl, h.bump⟩
  · rw [if_neg hroom, if_neg (fun hc => hroom ((h.hasRoom kind now).mp hc))]
    exact ⟨rfl, h.keep⟩

theorem consume_alike {ws ws' : Map RateKind SlidingWindow} (h : Alike limits ws ws')
    (kind : RateKind) (now : Int) :
    (consume limits ws' kind now).1 = (consume limits ws kind now).1 ∧
      Alike limits (consume limits ws kind now).2 (consume limits ws' kind now).2 := by
  unfold consume
  split
  · exact consumeWindow_alike h .msg now
  · obtain ⟨hsame, halike⟩ := consumeWindow_alike h kind now
    rcases hown : consumeWindow limits ws kind now with ⟨ok, windows⟩
    rcases hown' : consumeWindow limits ws' kind now with ⟨ok', windows'⟩
    rw [hown, hown'] at hsame halike
    dsimp only at hsame halike
    rw [hsame]
    cases ok with
    | false => exact ⟨rfl, halike⟩
    | true => exact consumeWindow_alike halike .msg now

variable (rt) in
/-- Guards that are alike answer alike, and stay alike. -/
theorem checkSend_alike (hrecent : g'.recent = g.recent) (h : Alike limits g.windows g'.windows)
    (now : Int) (input : GuardedSend) :
    (g'.checkSend rt limits now input).1 = (g.checkSend rt limits now input).1 ∧
      (g'.checkSend rt limits now input).2.recent = (g.checkSend rt limits now input).2.recent ∧
      Alike limits (g.checkSend rt limits now input).2.windows
        (g'.checkSend rt limits now input).2.windows := by
  obtain ⟨hsame, halike⟩ := consume_alike h (rateKind input.priority) now
  unfold checkSend
  rw [hrecent]
  split
  · exact ⟨rfl, hrecent, h⟩
  · split
    · exact ⟨rfl, hrecent, h⟩
    · split
      · exact ⟨rfl, hrecent, h⟩
      · rcases hown : consume limits g.windows (rateKind input.priority) now with ⟨ok, windows⟩
        rcases hown' : consume limits g'.windows (rateKind input.priority) now with ⟨ok', windows'⟩
        rw [hown, hown'] at hsame halike
        dsimp only at hsame halike
        rw [hsame]
        cases ok with
        | false => exact ⟨rfl, rfl, halike⟩
        | true => exact ⟨rfl, rfl, halike⟩

theorem answers_alike (hrecent : g'.recent = g.recent) (h : Alike limits g.windows g'.windows)
    (l : List (Int × GuardedSend)) : answers rt limits g' l = answers rt limits g l := by
  induction l generalizing g g' with
  | nil => rfl
  | cons x l ih =>
      obtain ⟨hresult, hrecent', halike⟩ := checkSend_alike rt hrecent h x.1 x.2
      rw [answers, answers, hresult, ih hrecent' halike]

/-- A refused call that does not spill leaves the guards alike. -/
theorem refused_alike (x : GuardCall) (hrefused : x.accepted rt limits = false)
    (hspills : spills rt limits x.1 x.2 = false) :
    (x.after rt limits).recent = x.1.recent ∧
      Alike limits x.1.windows (x.after rt limits).windows := by
  unfold GuardCall.accepted at hrefused
  unfold GuardCall.after
  rcases checkSend_cases rt limits x.1 x.2 with ⟨-, reason, heq⟩ | ⟨hcaps, ws, hconsume, heq⟩ |
    ⟨-, ws, -, heq⟩
  · rw [heq]
    exact ⟨rfl, fun _ _ => rfl⟩
  · rw [heq]
    refine ⟨rfl, ?_⟩
    rcases consume_cases limits x.1 (rateKind x.2.2.priority) x.2.1 with ⟨hroom, hc⟩ | ⟨-, -, hc⟩ |
      ⟨hne, hown, hroom, -⟩ | ⟨-, -, -, hc⟩
    · obtain ⟨-, rfl⟩ := Prod.mk.inj (hconsume.symm.trans hc)
      exact keep_alike (by simpa [hasRoom] using hroom)
    · rw [hc] at hconsume
      cases hconsume
    · simp [spills, hcaps, hne, hown, hroom] at hspills
    · rw [hc] at hconsume
      cases hconsume
  · rw [heq] at hrefused
    cases hrefused

/-- **A refused call leaves everything as it was, unless it spills.** -/
theorem unchanged_iff (x : GuardCall) (hcapped : Capped limits x.1.windows)
    (hrefused : x.accepted rt limits = false) :
    Unchanged rt limits x.1 (x.after rt limits) ↔ spills rt limits x.1 x.2 = false := by
  constructor
  · intro hunchanged
    rw [Bool.eq_false_iff]
    intro hspills
    have hcount := hunchanged.counts (rateKind x.2.2.priority) x.2.1
    simp only [spills, Bool.and_eq_true, Bool.not_eq_true', decide_eq_true_eq] at hspills
    obtain ⟨⟨⟨hcaps, hne⟩, hown⟩, hroom⟩ := hspills
    have hafter : (x.after rt limits).windows =
        keep (bump x.1.windows (rateKind x.2.2.priority) x.2.1) .msg x.2.1 := by
      unfold GuardCall.after
      rcases checkSend_cases rt limits x.1 x.2 with ⟨hnot, -⟩ | ⟨-, ws, hconsume, heq⟩ |
        ⟨-, ws, hconsume, heq⟩
      · rw [hcaps] at hnot
        cases hnot
      · rw [heq]
        rcases consume_cases limits x.1 (rateKind x.2.2.priority) x.2.1 with ⟨hfull, -⟩ |
          ⟨hfree, -⟩ | ⟨-, -, -, hc⟩ | ⟨-, -, hfree, -⟩
        · rw [hown] at hfull
          cases hfull
        · rw [hroom] at hfree
          cases hfree
        · exact (Prod.mk.inj (hconsume.symm.trans hc)).2
        · rw [hroom] at hfree
          cases hfree
      · unfold GuardCall.accepted at hrefused
        rw [heq] at hrefused
        cases hrefused
    have hbumped : windowAt (x.after rt limits).windows (rateKind x.2.2.priority) x.2.1 =
        windowAt (bump x.1.windows (rateKind x.2.2.priority) x.2.1) (rateKind x.2.2.priority) x.2.1 := by
      rw [hafter]
      exact windowAt_set_ne _ hne
    rw [hbumped, windowAt_bump] at hcount
    simp at hcount
  · intro hspills
    obtain ⟨hrecent, halike⟩ := refused_alike x hrefused hspills
    refine ⟨fun kind t => ?_, hrecent, answers_alike hrecent halike⟩
    exact halike.counts hcapped (capped_after rt x hcapped) kind t

end Refusals

/-! ### Repetitions -/

section Repetitions

variable {rt : Runtime} {limits : GuardRateLimits} {g : MeshGuards} {tr : List GuardCall}

theorem get?_pruneRecent {recent : Map String Int} {key : String} {last : Int} (now : Int)
    (h : recent.get? key = some last) :
    (pruneRecent recent now).get? key = some last ∨ duplicateWindowMs ≤ now - last := by
  unfold pruneRecent
  split
  · exact .inl h
  · dsimp only
    rw [Map.get?_foldl_delete]
    by_cases hold : duplicateWindowMs ≤ now - last
    · exact .inr hold
    · refine .inl ?_
      rw [if_neg ?_, h]
      rintro hmem
      obtain ⟨e, he, rfl⟩ := List.mem_map.mp hmem
      obtain ⟨hentry, hlate⟩ := List.mem_filter.mp he
      have hget : recent.get? e.1 = some e.2 := (Map.mem_entries_iff _ _ _).mp hentry
      obtain rfl := Option.some.inj (h.symm.trans hget)
      exact hold (of_decide_eq_true hlate)

/-- A message is remembered, or was sent long ago. -/
def KnownSend (rt : Runtime) (tr : List GuardCall) (g : MeshGuards) (x : GuardCall) : Prop :=
  (∃ last, g.recent.get? (dupKey rt x.2.2) = some last ∧ x.2.1 ≤ last) ∨
    ∃ y ∈ tr, duplicateWindowMs ≤ y.2.1 - x.2.1

theorem dupKey_of_same {x y : GuardCall} (h : x.Same rt y) :
    dupKey rt x.2.2 = dupKey rt y.2.2 := by
  obtain ⟨htarget, hroom, hbody⟩ := h
  unfold dupKey
  rw [htarget, hroom, hbody]

/-- The next call keeps what is remembered. -/
theorem KnownSend.call {x y : GuardCall} (h : KnownSend rt tr y.1 x) (hle : x.2.1 ≤ y.2.1) :
    KnownSend rt (tr ++ [y]) (y.after rt limits) x := by
  rcases h with ⟨last, hlast, hx⟩ | ⟨z, hz, hlate⟩
  · unfold GuardCall.after
    rcases checkSend_cases rt limits y.1 y.2 with ⟨-, reason, heq⟩ | ⟨-, ws, -, heq⟩ | ⟨-, ws, -, heq⟩
    · rw [heq]
      exact .inl ⟨last, hlast, hx⟩
    · rw [heq]
      exact .inl ⟨last, hlast, hx⟩
    · rw [heq]
      have hset : ∃ last, (y.1.recent.set (dupKey rt y.2.2) y.2.1).get? (dupKey rt x.2.2) = some last ∧
          x.2.1 ≤ last := by
        rw [Map.get?_set]
        split
        · exact ⟨y.2.1, rfl, hle⟩
        · exact ⟨last, hlast, hx⟩
      obtain ⟨last', hlast', hx'⟩ := hset
      rcases get?_pruneRecent y.2.1 hlast' with hkept | hlate
      · exact .inl ⟨last', hkept, hx'⟩
      · exact .inr ⟨y, by simp, by omega⟩
  · exact .inr ⟨z, List.mem_append_left _ hz, hlate⟩

/-- An accepted call is remembered. -/
theorem remembered_accepted {y : GuardCall} (haccepted : y.accepted rt limits = true) :
    KnownSend rt (tr ++ [y]) (y.after rt limits) y := by
  unfold GuardCall.accepted at haccepted
  unfold GuardCall.after
  rcases checkSend_cases rt limits y.1 y.2 with ⟨-, reason, heq⟩ | ⟨-, ws, -, heq⟩ | ⟨-, ws, -, heq⟩
  · rw [heq] at haccepted
    cases haccepted
  · rw [heq] at haccepted
    cases haccepted
  · rw [heq]
    have hset : (y.1.recent.set (dupKey rt y.2.2) y.2.1).get? (dupKey rt y.2.2) = some y.2.1 :=
      Map.get?_set_self ..
    rcases get?_pruneRecent y.2.1 hset with hkept | hlate
    · exact .inl ⟨y.2.1, hkept, le_refl _⟩
    · exact .inr ⟨y, by simp, hlate⟩

/-- A call that gets past the check is late enough after the same message. -/
theorem KnownSend.apart {x y : GuardCall} (h : KnownSend rt tr y.1 x)
    (hmono : ∀ z ∈ tr, z.2.1 ≤ y.2.1) (haccepted : y.accepted rt limits = true) (hsame : x.Same rt y) :
    duplicateWindowMs ≤ y.2.1 - x.2.1 := by
  obtain ⟨hcaps, -⟩ := (accepted_iff y).mp haccepted
  rcases h with ⟨last, hlast, hx⟩ | ⟨z, hz, hlate⟩
  · simp only [reachesCaps, Bool.and_eq_true, Bool.not_eq_true'] at hcaps
    have hfresh := hcaps.2
    rw [← dupKey_of_same hsame, hlast] at hfresh
    simp only [Option.any_some, decide_eq_false_iff_not, not_lt] at hfresh
    omega
  · have hle := hmono z hz
    omega

theorem repetitions_apart (hrun : Run (GuardsStep rt limits) {} tr g)
    (hmono : tr.Pairwise fun x y => x.2.1 ≤ y.2.1) :
    (∀ x ∈ tr, x.accepted rt limits = true → KnownSend rt tr g x) ∧
    tr.Pairwise fun x y => x.accepted rt limits = true → y.accepted rt limits = true →
      x.Same rt y → duplicateWindowMs ≤ y.2.1 - x.2.1 := by
  induction hrun with
  | nil => exact ⟨fun _ hx => (by cases hx), .nil⟩
  | @snoc tr g g' e hrun hstep ih =>
      obtain ⟨hmono, -, hlast⟩ := List.pairwise_append.mp hmono
      have hlast : ∀ x ∈ tr, x.2.1 ≤ e.1 := fun x hx => hlast x hx _ (List.mem_singleton_self _)
      obtain ⟨hremembered, hapart⟩ := ih hmono
      obtain rfl : GuardCall.after rt limits (g, e) = g' := hstep
      constructor
      · intro x hx haccepted
        rcases List.mem_append.mp hx with hx | hx
        · exact (hremembered x hx haccepted).call (hlast x hx)
        · obtain rfl := List.mem_singleton.mp hx
          exact remembered_accepted haccepted
      · refine List.pairwise_append.mpr ⟨hapart, List.pairwise_singleton _ _, ?_⟩
        intro x hx y hy hxaccepted hyaccepted hsame
        obtain rfl := List.mem_singleton.mp hy
        exact (hremembered x hx hxaccepted).apart hlast hyaccepted hsame

end Repetitions

/-! ### Caps -/

section Caps

variable {rt : Runtime} {limits : GuardRateLimits} {g : MeshGuards} {tr : List GuardCall}
  {kind : RateKind}

theorem drawn_after (x : GuardCall) (hdraws : x.draws rt limits kind = true) :
    windowAt (x.after rt limits).windows kind x.2.1 =
      { windowAt x.1.windows kind x.2.1 with
        count := (windowAt x.1.windows kind x.2.1).count + 1 } := by
  rcases windows_after rt limits x kind with ⟨-, hnot⟩ | ⟨-, hnot⟩ | ⟨hbumped, -⟩
  · rw [hdraws] at hnot
    cases hnot
  · rw [hdraws] at hnot
    cases hnot
  · have hsame : (bump x.1.windows kind x.2.1).get? kind = (x.after rt limits).windows.get? kind := by
      rw [hbumped]
      exact Map.get?_set_self ..
    rw [← windowAt_congr (t := x.2.1) hsame, windowAt_bump]

/-- How many calls drew on the window of a kind that started at a time. -/
def drawnFrom (rt : Runtime) (limits : GuardRateLimits) (tr : List GuardCall) (kind : RateKind)
    (start : Int) : Nat :=
  tr.countP fun x => x.drawsFrom rt limits kind start

/-- The window counts those that drew on it, and nothing drew on a later one. -/
def Tallied (rt : Runtime) (limits : GuardRateLimits) (tr : List GuardCall) (kind : RateKind)
    (w : SlidingWindow) : Prop :=
  drawnFrom rt limits tr kind w.windowStart ≤ w.count ∧
    ∀ start, w.windowStart < start → drawnFrom rt limits tr kind start = 0

structure WindowTally (rt : Runtime) (limits : GuardRateLimits) (tr : List GuardCall) (g : MeshGuards) :
    Prop where
  capped : Capped limits g.windows
  kept : ∀ kind w, g.windows.get? kind = some w → Tallied rt limits tr kind w
  fresh : ∀ kind, g.windows.get? kind = none → ∀ start, drawnFrom rt limits tr kind start = 0
  all : ∀ kind start, drawnFrom rt limits tr kind start ≤ (capacity limits kind).toNat

theorem drawnFrom_snoc (x : GuardCall) (kind : RateKind) (start : Int) :
    drawnFrom rt limits (tr ++ [x]) kind start =
      drawnFrom rt limits tr kind start + (x.drawsFrom rt limits kind start).toNat := by
  unfold drawnFrom
  rw [List.countP_append, List.countP_singleton]
  cases x.drawsFrom rt limits kind start with
  | true => rfl
  | false => rfl

namespace WindowTally

/-- The window that is current at a time. -/
theorem current (h : WindowTally rt limits tr g) (kind : RateKind) (now : Int) :
    Tallied rt limits tr kind (windowAt g.windows kind now) := by
  unfold windowAt
  split
  · next w hget =>
    obtain ⟨hcount, hlater⟩ := h.kept kind w hget
    split
    · next hover =>
      -- a window that is over started earlier
      have hstart : w.windowStart < now := by
        unfold rateBucketWindowMs at hover
        omega
      exact ⟨Nat.le_of_eq (hlater now hstart), fun start hs => hlater start (hstart.trans hs)⟩
    · exact ⟨hcount, hlater⟩
  · next hget => exact ⟨Nat.le_of_eq (h.fresh kind hget now), fun start _ => h.fresh kind hget start⟩

theorem call (h : WindowTally rt limits tr g) (e : Int × GuardedSend) :
    WindowTally rt limits (tr ++ [(g, e)]) (GuardCall.after rt limits (g, e)) := by
  have hcapped := capped_after rt (g, e) h.capped
  -- a call that does not draw on a kind leaves its numbers alone
  have hsame : ∀ kind, GuardCall.draws rt limits kind (g, e) = false → ∀ start,
      drawnFrom rt limits (tr ++ [(g, e)]) kind start = drawnFrom rt limits tr kind start := by
    intro kind hdraws start
    rw [drawnFrom_snoc, GuardCall.drawsFrom, hdraws]
    rfl
  have hone : ∀ kind start, start ≠ (windowAt g.windows kind e.1).windowStart →
      drawnFrom rt limits (tr ++ [(g, e)]) kind start = drawnFrom rt limits tr kind start := by
    intro kind start hne
    rw [drawnFrom_snoc]
    have hnot : GuardCall.drawsFrom rt limits kind start (g, e) = false := by
      simp [GuardCall.drawsFrom, Ne.symm hne]
    rw [hnot]
    rfl
  have hle : ∀ kind start, drawnFrom rt limits (tr ++ [(g, e)]) kind start ≤
      drawnFrom rt limits tr kind start + 1 := by
    intro kind start
    rw [drawnFrom_snoc]
    have := Bool.toNat_le (GuardCall.drawsFrom rt limits kind start (g, e))
    omega
  have hcurrent := fun kind => h.current kind e.1
  refine ⟨hcapped, ?_, ?_, ?_⟩
  · intro kind w hget
    rcases windows_after rt limits (g, e) kind with ⟨hkept, hdraws⟩ |
      ⟨hkept, hdraws⟩ | ⟨hbumped, -⟩
    · rw [hkept] at hget
      obtain ⟨hcount, hlater⟩ := h.kept kind w hget
      exact ⟨by rw [hsame kind hdraws]; exact hcount,
        fun start hs => by rw [hsame kind hdraws]; exact hlater start hs⟩
    · rw [hkept] at hget
      obtain rfl := Option.some.inj hget
      obtain ⟨hcount, hlater⟩ := hcurrent kind
      exact ⟨by rw [hsame kind hdraws]; exact hcount,
        fun start hs => by rw [hsame kind hdraws]; exact hlater start hs⟩
    · rw [hbumped] at hget
      obtain rfl := Option.some.inj hget
      obtain ⟨hcount, hlater⟩ := hcurrent kind
      refine ⟨(hle kind _).trans (Nat.succ_le_succ hcount), fun start hs => ?_⟩
      rw [hone kind start (ne_of_gt hs)]
      exact hlater start hs
  · intro kind hget start
    rcases windows_after rt limits (g, e) kind with ⟨hkept, hdraws⟩ |
      ⟨hkept, -⟩ | ⟨hbumped, -⟩
    · rw [hkept] at hget
      rw [hsame kind hdraws]
      exact h.fresh kind hget start
    · rw [hkept] at hget
      cases hget
    · rw [hbumped] at hget
      cases hget
  · intro kind start
    rcases windows_after rt limits (g, e) kind with ⟨-, hdraws⟩ | ⟨-, hdraws⟩ |
      ⟨-, hroom⟩
    · rw [hsame kind hdraws]
      exact h.all kind start
    · rw [hsame kind hdraws]
      exact h.all kind start
    · by_cases hstart : start = (windowAt g.windows kind e.1).windowStart
      · have hroom : ((windowAt g.windows kind e.1).count : Int) < capacity limits kind := by
          simpa [hasRoom] using hroom
        have hcount := (hcurrent kind).1
        rw [← hstart] at hcount
        have := hle kind start
        omega
      · rw [hone kind start hstart]
        exact h.all kind start

theorem run (hrun : Run (GuardsStep rt limits) {} tr g) : WindowTally rt limits tr g := by
  refine hrun.along (Meets.trivial tr) ?_ fun tr s e s' _ _ hs _ hstep => ?_
  · exact ⟨fun _ _ hget => (by cases hget), fun _ _ hget => (by cases hget), fun _ _ _ => rfl,
      fun _ _ => Nat.zero_le _⟩
  · obtain rfl : GuardCall.after rt limits (s, e) = s' := hstep
    exact hs.call e

end WindowTally

end Caps

/-- **The guards of a session hold where no call spills, and only there.** -/
theorem guards_hold_iff {rt : Runtime} {limits : GuardRateLimits} {tr : List GuardCall}
    {g : MeshGuards} (hrun : Run (GuardsStep rt limits) {} tr g) :
    GuardsHold rt limits tr ↔ Meets (fun g x => spills rt limits g x = false) tr := by
  have hcapped : ∀ x ∈ tr, Capped limits x.1.windows := by
    intro x hx
    obtain ⟨tr₁, -, -, hrun₁⟩ := hrun.of_mem hx
    exact (WindowTally.run hrun₁).capped
  constructor
  · intro hholds x hx
    cases haccepted : GuardCall.accepted rt limits x with
    | false => exact (unchanged_iff x (hcapped x hx) haccepted).mp (hholds.refused x hx haccepted)
    | true =>
        obtain ⟨-, -, hroom⟩ := (accepted_iff x).mp haccepted
        simp [spills, hroom]
  · intro hcalm
    refine ⟨fun x hx hrefused => ?_, fun hmono => (repetitions_apart hrun hmono).2, ?_, ?_⟩
    · exact (unchanged_iff x (hcapped x hx) hrefused).mpr (hcalm x hx)
    · exact fun x _ kind hdraws => drawn_after x hdraws
    · exact (WindowTally.run hrun).all

/-! ### A minute's messages -/

/-- The run of the guards over a list of calls. -/
def runGuards (rt : Runtime) (limits : GuardRateLimits) :
    MeshGuards → List (Int × GuardedSend) → List GuardCall × MeshGuards
  | g, [] => ([], g)
  | g, x :: l =>
      let (tr, g') := runGuards rt limits (g.checkSend rt limits x.1 x.2).2 l
      ((g, x) :: tr, g')

theorem run_runGuards (rt : Runtime) (limits : GuardRateLimits) (g : MeshGuards)
    (calls : List (Int × GuardedSend)) :
    Run (GuardsStep rt limits) g (runGuards rt limits g calls).1 (runGuards rt limits g calls).2 := by
  induction calls generalizing g with
  | nil => exact .nil
  | cons x l ih => exact .cons rfl (ih _)

/-- Thirty messages to as many peers, and a forced one. -/
def forcedLast : List (Int × GuardedSend) :=
  ((List.range 30).map fun (i : Nat) => ((i : Int), ({
    sender := "alice", target := String.ofList [Char.ofNat (97 + i), '1'], room := "r", body := "go" } :
      GuardedSend))) ++
  [(30, { sender := "alice", target := "bob", room := "r", body := "stop", priority := .force })]

/-- The reference runtime, with short digests. -/
def shortDigests : Runtime := { referenceRuntime with sha256 := id }

/-- The forced message is refused, and the one forced message of the minute is gone. -/
theorem refused_force_spends :
    Run (GuardsStep shortDigests {}) {} (runGuards shortDigests {} {} forcedLast).1
        (runGuards shortDigests {} {} forcedLast).2 ∧
      ¬ GuardsHold shortDigests {} (runGuards shortDigests {} {} forcedLast).1 := by
  have hrun := run_runGuards shortDigests {} {} forcedLast
  refine ⟨hrun, fun hholds => ?_⟩
  have hlast : (runGuards shortDigests {} {} forcedLast).1.any (fun x =>
      !x.accepted shortDigests {} && spills shortDigests {} x.1 x.2) = true := by decide +kernel
  obtain ⟨x, hx, hspills⟩ := List.any_eq_true.mp hlast
  simp only [Bool.and_eq_true, Bool.not_eq_true'] at hspills
  obtain ⟨tr₁, -, -, hrun₁⟩ := hrun.of_mem hx
  have hcapped : Capped {} x.1.windows := (WindowTally.run hrun₁).capped
  have hnot := (unchanged_iff x hcapped hspills.1).mp (hholds.refused x hx hspills.1)
  rw [hnot] at hspills
  cases hspills.2

/-- A message and its repetition. -/
theorem guards_hold_repeated :
    GuardsHold shortDigests {} (runGuards shortDigests {} {}
      [(0, { sender := "alice", target := "bob", room := defaultRoom, body := "go" }),
        (5000, { sender := "alice", target := "@Bob", room := defaultRoom, body := "go" })]).1 := by
  refine (guards_hold_iff (run_runGuards shortDigests {} {} _)).mpr ?_
  intro x hx
  have hcalm : ((runGuards shortDigests {} {}
      [(0, { sender := "alice", target := "bob", room := defaultRoom, body := "go" }),
        (5000, { sender := "alice", target := "@Bob", room := defaultRoom, body := "go" })]).1.all
      fun x => !spills shortDigests {} x.1 x.2) = true := by decide +kernel
  simpa using List.all_eq_true.mp hcalm x hx

end PiMesh
