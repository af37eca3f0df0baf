/-
What the token buckets let through.

Every alias has three buckets, and a call of `checkRate` visits all of them: it refills
each and takes a token from its own and from that of the messages, or from none.  So each
bucket goes through visits of `Lib/TokenBucket.lean`, and the calls accepted of a kind are
among the visits that took a token from its bucket.
-/
import PiMesh.Broker.State
import PiMesh.Lib.TokenBucket
import Mathlib.Data.List.Induction

namespace PiMesh

open Js TokenBuckets

/-! ### Calls -/

/-- A call of `checkRate`. -/
structure RateCall where
  /-- `alias`. -/
  name : String
  kind : RateKind
  /-- What `Date.now()` answers where the call makes the buckets. -/
  clock : Int
  now : Int
deriving DecidableEq

/-- `capacity`. -/
def RateLimits.capacity (limits : RateLimits) : RateKind → ℚ
  | .msg => limits.msgPerMin
  | .urgent => limits.urgentPerMin
  | .force => limits.forcePerMin

def PeerRates.bucket (r : PeerRates) : RateKind → TokenBucket
  | .msg => r.msg
  | .urgent => r.urgent
  | .force => r.force

/-- The buckets with nothing but the refill. -/
def PeerRates.refill (r : PeerRates) (limits : RateLimits) (now : Int) : PeerRates :=
  ⟨PiMesh.refill r.msg limits.msgPerMin now, PiMesh.refill r.urgent limits.urgentPerMin now,
    PiMesh.refill r.force limits.forcePerMin now⟩

/-- The buckets after a list of calls, none having been made before. -/
def ratesAfter (limits : RateLimits) (calls : List RateCall) : Map String PeerRates :=
  calls.foldl (fun rates c => (checkRate rates c.name c.kind limits c.clock c.now).2) .empty

/-- The answer to a call that comes after these. -/
def accepts (limits : RateLimits) (calls : List RateCall) (c : RateCall) : Bool :=
  (checkRate (ratesAfter limits calls) c.name c.kind limits c.clock c.now).1

/-- The calls of a window that are accepted. -/
def acceptedIn (limits : RateLimits) : List RateCall → List RateCall → List RateCall
  | _, [] => []
  | calls, c :: rest =>
      if accepts limits calls c then c :: acceptedIn limits (calls ++ [c]) rest
      else acceptedIn limits (calls ++ [c]) rest

def callsOf (name : String) (calls : List RateCall) : List RateCall :=
  calls.filter fun c => c.name = name

/-- The running maximum of the clock. -/
def latest (now : Int) (calls : List RateCall) : Int := calls.foldl (fun m c => max m c.now) now

/-- By how much the running maximum grows after the first call of a window. -/
def advance (calls : List RateCall) (c : RateCall) (rest : List RateCall) : Int :=
  latest (latest c.now (callsOf c.name calls)) (callsOf c.name rest) -
    latest c.now (callsOf c.name calls)

structure RateLimits.Positive (limits : RateLimits) : Prop where
  msg : 0 < limits.msgPerMin
  urgent : 0 < limits.urgentPerMin
  force : 0 < limits.forcePerMin

/-- What the limits promise of every sequence of calls. -/
structure Throttled (limits : RateLimits) : Prop where
  within : ∀ calls name r, (ratesAfter limits calls).get? name = some r → ∀ kind,
    0 ≤ (r.bucket kind).tokens ∧ (r.bucket kind).tokens ≤ limits.capacity kind
  refused : ∀ calls c, accepts limits calls c = false →
    ratesAfter limits (calls ++ [c]) = (ratesAfter limits calls).set c.name
      ((getRates (ratesAfter limits calls) c.name limits c.clock).refill limits c.now)
  window : ∀ calls c rest kind,
    ((acceptedIn limits calls (c :: rest)).countP (fun x => x.name = c.name ∧ x.kind = kind) : ℚ) ≤
      limits.capacity kind * (1 + advance calls c rest / rateBucketWindowMs)
  together : ∀ calls c rest,
    ((acceptedIn limits calls (c :: rest)).countP (fun x => x.name = c.name) : ℚ) ≤
      limits.capacity .msg * (1 + advance calls c rest / rateBucketWindowMs)
  apart : ∀ calls c,
    (ratesAfter limits calls).get? c.name = (ratesAfter limits (callsOf c.name calls)).get? c.name ∧
      accepts limits calls c = accepts limits (callsOf c.name calls) c

/-! ### One call -/

section Call

variable {limits : RateLimits}

theorem RateLimits.Positive.capacity (h : limits.Positive) (kind : RateKind) :
    0 < limits.capacity kind := by
  cases kind with
  | msg => exact h.msg
  | urgent => exact h.urgent
  | force => exact h.force

/-- The tokens gained in a millisecond. -/
def RateLimits.rate (limits : RateLimits) (kind : RateKind) : ℚ :=
  limits.capacity kind / rateBucketWindowMs

theorem RateLimits.Positive.rate_nonneg (h : limits.Positive) (kind : RateKind) :
    0 ≤ limits.rate kind := by
  refine div_nonneg (h.capacity kind).le ?_
  show (0 : ℚ) ≤ ((60000 : Int) : ℚ)
  norm_num

def TokenBucket.level (b : TokenBucket) : Bucket ℚ := ⟨b.tokens, b.lastRefillAt⟩

theorem refill_level {cap : ℚ} (hcap : 0 < cap) (b : TokenBucket) (now : Int) :
    (refill b cap now).level = b.level.refill cap (cap / rateBucketWindowMs) now := by
  unfold refill Bucket.refill
  rw [if_neg (not_le.mpr hcap)]
  have hcast : ((now : ℚ) - b.level.stamp ≤ 0) ↔ now - b.lastRefillAt ≤ 0 := by
    show (now : ℚ) - (b.lastRefillAt : ℚ) ≤ 0 ↔ _
    rw [← Int.cast_sub]
    exact Int.cast_nonpos
  by_cases hle : now - b.lastRefillAt ≤ 0
  · rw [if_pos (hcast.mpr hle)]
    simp only [if_pos hle]
  · rw [if_neg fun hc => hle (hcast.mp hc)]
    simp only [if_neg hle]
    show Bucket.mk (min cap (b.tokens + _)) _ = Bucket.mk (min cap (b.tokens + _)) _
    have hgain : ((now - b.lastRefillAt : Int) : ℚ) / rateBucketWindowMs * cap =
        ((now : ℚ) - b.level.stamp) * (cap / rateBucketWindowMs) := by
      rw [Int.cast_sub]
      show ((now : ℚ) - (b.lastRefillAt : ℚ)) / _ * cap = ((now : ℚ) - (b.lastRefillAt : ℚ)) * _
      ring
    rw [hgain]

theorem refill_bucket (h : limits.Positive) (r : PeerRates) (now : Int) (kind : RateKind) :
    ((r.refill limits now).bucket kind).level =
      (r.bucket kind).level.refill (limits.capacity kind) (limits.rate kind) now := by
  cases kind with
  | msg => exact refill_level h.msg r.msg now
  | urgent => exact refill_level h.urgent r.urgent now
  | force => exact refill_level h.force r.force now

/-- A call takes a token from the bucket of this kind. -/
def RateCall.draws (c : RateCall) (kind : RateKind) : Bool := c.kind = kind || kind = .msg

/-- A token less in the bucket of this kind, and in that of the messages. -/
def PeerRates.spend (r : PeerRates) : RateKind → PeerRates
  | .msg => { r with msg := r.msg.take }
  | .urgent => { r with urgent := r.urgent.take, msg := r.msg.take }
  | .force => { r with force := r.force.take, msg := r.msg.take }

theorem checkRate_eq (rates : Map String PeerRates) (name : String) (kind : RateKind)
    (limits : RateLimits) (clock now : Int) (r : PeerRates)
    (hr : (getRates rates name limits clock).refill limits now = r) :
    checkRate rates name kind limits clock now =
      if 1 ≤ (r.bucket kind).tokens ∧ 1 ≤ r.msg.tokens then (true, rates.set name (r.spend kind))
      else (false, rates.set name r) := by
  subst hr
  cases kind with
  | msg =>
      by_cases hm : 1 ≤ ((getRates rates name limits clock).refill limits now).msg.tokens
      · rw [if_pos ⟨hm, hm⟩]
        exact if_neg (not_lt.mpr hm)
      · rw [if_neg fun hc => hm hc.1]
        exact if_pos (not_le.mp hm)
  | urgent =>
      by_cases hm : 1 ≤ ((getRates rates name limits clock).refill limits now).urgent.tokens ∧
          1 ≤ ((getRates rates name limits clock).refill limits now).msg.tokens
      · refine Eq.trans (if_neg ?_) (if_pos hm).symm
        exact not_or.mpr ⟨not_lt.mpr hm.1, not_lt.mpr hm.2⟩
      · refine Eq.trans (if_pos ?_) (if_neg hm).symm
        exact (not_and_or.mp hm).imp not_le.mp not_le.mp
  | force =>
      by_cases hm : 1 ≤ ((getRates rates name limits clock).refill limits now).force.tokens ∧
          1 ≤ ((getRates rates name limits clock).refill limits now).msg.tokens
      · refine Eq.trans (if_neg ?_) (if_pos hm).symm
        exact not_or.mpr ⟨not_lt.mpr hm.1, not_lt.mpr hm.2⟩
      · refine Eq.trans (if_pos ?_) (if_neg hm).symm
        exact (not_and_or.mp hm).imp not_le.mp not_le.mp

theorem spend_bucket (r : PeerRates) (c : RateCall) (kind : RateKind) :
    ((r.spend c.kind).bucket kind) =
      if c.draws kind then (r.bucket kind).take else r.bucket kind := by
  obtain ⟨name, own, clock, now⟩ := c
  cases own <;> cases kind <;> rfl

/-- The buckets a call leaves: those of the other aliases as they were, and of each of its own
what a visit makes of it. -/
theorem checkRate_visits (h : limits.Positive) (rates : Map String PeerRates) (c : RateCall) :
    ∃ r', (checkRate rates c.name c.kind limits c.clock c.now).2 = rates.set c.name r' ∧
      ∀ kind, (r'.bucket kind).level =
          ((getRates rates c.name limits c.clock).bucket kind).level.visit (limits.capacity kind)
            (limits.rate kind)
            (c.now, (checkRate rates c.name c.kind limits c.clock c.now).1 && c.draws kind) ∧
        ((checkRate rates c.name c.kind limits c.clock c.now).1 = true → c.draws kind = true →
          1 ≤ (((getRates rates c.name limits c.clock).bucket kind).level.refill
            (limits.capacity kind) (limits.rate kind) c.now).tokens) := by
  have hfill := refill_bucket h (getRates rates c.name limits c.clock) c.now
  rw [checkRate_eq rates c.name c.kind limits c.clock c.now _ rfl]
  generalize (getRates rates c.name limits c.clock).refill limits c.now = r at hfill
  split
  · next hone =>
      refine ⟨r.spend c.kind, rfl, fun kind => ?_⟩
      rw [spend_bucket, Bool.true_and, ← hfill kind]
      constructor
      · unfold Bucket.visit
        rw [← hfill kind]
        split <;> rfl
      · intro _ hdraws
        rcases Bool.or_eq_true_iff.mp hdraws with hkind | hkind
        · rw [← of_decide_eq_true hkind]
          exact hone.1
        · rw [of_decide_eq_true hkind]
          exact hone.2
  · refine ⟨r, rfl, fun kind => ⟨?_, fun hc => by cases hc⟩⟩
    unfold Bucket.visit
    rw [Bool.false_and, if_neg Bool.false_ne_true]
    exact hfill kind

end Call

/-! ### Sequences of calls -/

section Calls

variable {limits : RateLimits} {calls : List RateCall} {name : String} {kind : RateKind}

theorem ratesAfter_snoc (limits : RateLimits) (calls : List RateCall) (c : RateCall) :
    ratesAfter limits (calls ++ [c]) =
      (checkRate (ratesAfter limits calls) c.name c.kind limits c.clock c.now).2 := by
  unfold ratesAfter
  rw [List.foldl_append]
  rfl

theorem getRates_some {rates : Map String PeerRates} {r : PeerRates} (h : rates.get? name = some r)
    (limits : RateLimits) (clock : Int) : getRates rates name limits clock = r := by
  unfold getRates
  rw [h]

/-- All buckets are within their bounds. -/
def InBounds (limits : RateLimits) (rates : Map String PeerRates) : Prop :=
  ∀ name r, rates.get? name = some r → ∀ kind, (r.bucket kind).level.Within (limits.capacity kind)

theorem inBounds_getRates (h : limits.Positive) {rates : Map String PeerRates}
    (hin : InBounds limits rates) (name : String) (clock : Int) (kind : RateKind) :
    ((getRates rates name limits clock).bucket kind).level.Within (limits.capacity kind) := by
  cases hget : rates.get? name with
  | some r =>
      rw [getRates_some hget]
      exact hin name r hget kind
  | none =>
      -- a new bucket is full
      have hnew : ((getRates rates name limits clock).bucket kind).level.tokens =
          limits.capacity kind := by
        unfold getRates
        rw [hget]
        cases kind <;> rfl
      exact ⟨hnew ▸ (h.capacity kind).le, hnew.le⟩

theorem inBounds_ratesAfter (h : limits.Positive) (calls : List RateCall) :
    InBounds limits (ratesAfter limits calls) := by
  induction calls using List.reverseRecOn with
  | nil => exact fun _ _ hc => by cases hc
  | append_singleton calls c ih =>
      obtain ⟨r', heq, hr'⟩ := checkRate_visits h (ratesAfter limits calls) c
      intro name r hr kind
      rw [ratesAfter_snoc, heq, Map.get?_set] at hr
      split at hr
      · obtain rfl := Option.some.inj hr
        rw [(hr' kind).1]
        refine Bucket.within_visit (h.rate_nonneg kind) (inBounds_getRates h ih c.name c.clock kind) ?_
        intro hdrew
        obtain ⟨hyes, hdraws⟩ := Bool.and_eq_true_iff.mp hdrew
        exact (hr' kind).2 hyes hdraws
      · exact ih name r hr kind

/-- The visits of one bucket in a window. -/
def visitsOf (limits : RateLimits) (name : String) (kind : RateKind) :
    List RateCall → List RateCall → List (ℚ × Bool)
  | _, [] => []
  | calls, c :: rest =>
      if c.name = name then
        ((c.now : ℚ), accepts limits calls c && c.draws kind) ::
          visitsOf limits name kind (calls ++ [c]) rest
      else visitsOf limits name kind (calls ++ [c]) rest

/-- A bucket that is there goes through its visits. -/
theorem visitsOf_spec (h : limits.Positive) (name : String) (kind : RateKind) (window : List RateCall)
    {r : PeerRates} (hr : (ratesAfter limits calls).get? name = some r) :
    ∃ r', (ratesAfter limits (calls ++ window)).get? name = some r' ∧
      (r'.bucket kind).level = (r.bucket kind).level.visits (limits.capacity kind) (limits.rate kind)
        (visitsOf limits name kind calls window) ∧
      Bucket.Honest (limits.capacity kind) (limits.rate kind) (r.bucket kind).level
        (visitsOf limits name kind calls window) := by
  induction window generalizing calls r with
  | nil =>
      rw [List.append_nil]
      exact ⟨r, hr, rfl, True.intro⟩
  | cons c rest ih =>
      obtain ⟨r₁, heq, hr₁⟩ := checkRate_visits h (ratesAfter limits calls) c
      have hsplit : calls ++ c :: rest = (calls ++ [c]) ++ rest := by simp
      by_cases hn : c.name = name
      · subst hn
        have hget : (ratesAfter limits (calls ++ [c])).get? c.name = some r₁ := by
          rw [ratesAfter_snoc, heq, Map.get?_set_self]
        obtain ⟨r', hr', hlevel, hhonest⟩ := ih hget
        rw [getRates_some hr] at hr₁
        have hvisits : visitsOf limits c.name kind calls (c :: rest) =
            ((c.now : ℚ), accepts limits calls c && c.draws kind) ::
              visitsOf limits c.name kind (calls ++ [c]) rest := if_pos rfl
        rw [hsplit, hvisits]
        rw [(hr₁ kind).1] at hlevel hhonest
        refine ⟨r', hr', hlevel, fun hdrew => ?_, hhonest⟩
        obtain ⟨hyes, hdraws⟩ := Bool.and_eq_true_iff.mp hdrew
        exact (hr₁ kind).2 hyes hdraws
      · have hget : (ratesAfter limits (calls ++ [c])).get? name = some r := by
          rw [ratesAfter_snoc, heq, Map.get?_set_ne _ _ (Ne.symm hn)]
          exact hr
        obtain ⟨r', hr', hlevel, hhonest⟩ := ih hget
        have hvisits : visitsOf limits name kind calls (c :: rest) =
            visitsOf limits name kind (calls ++ [c]) rest := if_neg hn
        rw [hsplit, hvisits]
        exact ⟨r', hr', hlevel, hhonest⟩

/-- A call that is accepted took a token from the bucket of its kind. -/
theorem acceptedIn_le (limits : RateLimits) (name : String) (kind : RateKind)
    (calls window : List RateCall) :
    (acceptedIn limits calls window).countP (fun x => x.name = name ∧ x.kind = kind) ≤
      (visitsOf limits name kind calls window).countP Prod.snd := by
  induction window generalizing calls with
  | nil => exact Nat.le_refl _
  | cons c rest ih =>
      have hrest := ih (calls ++ [c])
      unfold acceptedIn visitsOf
      by_cases hn : c.name = name
      · rw [if_pos hn, List.countP_cons]
        by_cases hyes : accepts limits calls c = true
        · rw [if_pos hyes, List.countP_cons, hyes]
          by_cases hk : c.kind = kind
          · simp only [hn, hk, RateCall.draws, and_self, decide_true, if_true, Bool.true_or, Bool.true_and]
            omega
          · simp only [hn, hk, and_false, decide_false, Bool.false_eq_true, if_false]
            omega
        · rw [if_neg hyes]
          omega
      · rw [if_neg hn]
        by_cases hyes : accepts limits calls c = true
        · rw [if_pos hyes, List.countP_cons, if_neg (by simp [hn])]
          exact hrest
        · rw [if_neg hyes]
          exact hrest

/-- Every call that is accepted took a token from the bucket of the messages. -/
theorem accepted_together_le (limits : RateLimits) (name : String) (calls window : List RateCall) :
    (acceptedIn limits calls window).countP (fun x => x.name = name) ≤
      (visitsOf limits name .msg calls window).countP Prod.snd := by
  induction window generalizing calls with
  | nil => exact Nat.le_refl _
  | cons c rest ih =>
      have hrest := ih (calls ++ [c])
      unfold acceptedIn visitsOf
      by_cases hn : c.name = name
      · rw [if_pos hn, List.countP_cons]
        by_cases hyes : accepts limits calls c = true
        · rw [if_pos hyes, List.countP_cons, hyes]
          simp only [hn, RateCall.draws, decide_true, if_true, Bool.or_true, Bool.true_and]
          omega
        · rw [if_neg hyes]
          omega
      · rw [if_neg hn]
        by_cases hyes : accepts limits calls c = true
        · rw [if_pos hyes, List.countP_cons, if_neg (by simp [hn])]
          exact hrest
        · rw [if_neg hyes]
          exact hrest

/-! ### The clock -/

theorem foldl_visitsOf (limits : RateLimits) (name : String) (kind : RateKind)
    (calls window : List RateCall) (t : ℚ) :
    (visitsOf limits name kind calls window).foldl (fun m v => max m v.1) t =
      (callsOf name window).foldl (fun m c => max m (c.now : ℚ)) t := by
  induction window generalizing calls t with
  | nil => rfl
  | cons c rest ih =>
      unfold visitsOf callsOf
      by_cases hn : c.name = name
      · rw [if_pos hn, List.filter_cons_of_pos (by simp [hn]), List.foldl_cons, List.foldl_cons]
        exact ih _ _
      · rw [if_neg hn, List.filter_cons_of_neg (by simp [hn])]
        exact ih _ _

/-- A running maximum that starts higher grows less. -/
theorem foldl_max_sub_le (l : List RateCall) {t : Int} {u : ℚ} (h : (t : ℚ) ≤ u) :
    l.foldl (fun m c => max m (c.now : ℚ)) u - u ≤ ((latest t l - t : Int) : ℚ) := by
  induction l generalizing t u with
  | nil => simp [latest]
  | cons c rest ih =>
      have hmax : ((max t c.now : Int) : ℚ) ≤ max u (c.now : ℚ) := by
        rw [Int.cast_max]
        exact max_le_max h (le_refl _)
      have hrest := ih hmax
      have hstep : max u (c.now : ℚ) - u ≤ ((max t c.now : Int) : ℚ) - t := by
        rw [Int.cast_max]
        rcases le_total u (c.now : ℚ) with hu | hu
        · rw [max_eq_right hu]
          have := le_max_right (t : ℚ) (c.now : ℚ)
          linarith
        · rw [max_eq_left hu]
          have := le_max_left (t : ℚ) (c.now : ℚ)
          linarith
      have hlatest : latest t (c :: rest) = latest (max t c.now) rest := rfl
      rw [List.foldl_cons, hlatest]
      push_cast at hrest hstep ⊢
      linarith

/-- No refill is behind a call that was made. -/
theorem now_le_stamp (h : limits.Positive) (calls : List RateCall) :
    ∀ x ∈ calls, ∃ r, (ratesAfter limits calls).get? x.name = some r ∧
      ∀ kind, (x.now : ℚ) ≤ (r.bucket kind).level.stamp := by
  induction calls using List.reverseRecOn with
  | nil => exact fun _ hx => by cases hx
  | append_singleton calls c ih =>
      obtain ⟨r', heq, hr'⟩ := checkRate_visits h (ratesAfter limits calls) c
      intro x hx
      rw [ratesAfter_snoc, heq]
      by_cases hn : x.name = c.name
      · refine ⟨r', by rw [hn, Map.get?_set_self], fun kind => ?_⟩
        rw [(hr' kind).1, Bucket.stamp_visit]
        rcases List.mem_append.mp hx with hx | hx
        · obtain ⟨r, hr, hle⟩ := ih x hx
          rw [hn] at hr
          rw [getRates_some hr]
          exact (hle kind).trans (le_max_left _ _)
        · rw [List.mem_singleton] at hx
          subst hx
          exact le_max_right _ _
      · rcases List.mem_append.mp hx with hx | hx
        · obtain ⟨r, hr, hle⟩ := ih x hx
          exact ⟨r, by rw [Map.get?_set_ne _ _ hn]; exact hr, hle⟩
        · rw [List.mem_singleton] at hx
          exact absurd (congrArg RateCall.name hx) hn

theorem latest_le {t : Int} {u : ℚ} {l : List RateCall} (ht : (t : ℚ) ≤ u)
    (h : ∀ x ∈ l, (x.now : ℚ) ≤ u) : ((latest t l : Int) : ℚ) ≤ u := by
  induction l generalizing t with
  | nil => exact ht
  | cons c rest ih =>
      refine ih ?_ fun x hx => h x (List.mem_cons_of_mem _ hx)
      rw [Int.cast_max]
      exact max_le ht (h c List.mem_cons_self)

/-! ### The bounds -/

/-- The tokens a window takes from one bucket. -/
theorem drawn_le (h : limits.Positive) (calls : List RateCall) (c : RateCall) (rest : List RateCall)
    (kind : RateKind) :
    ((visitsOf limits c.name kind calls (c :: rest)).countP Prod.snd : ℚ) ≤
      limits.capacity kind * (1 + advance calls c rest / rateBucketWindowMs) := by
  obtain ⟨r₁, heq, hr₁⟩ := checkRate_visits h (ratesAfter limits calls) c
  have hget : (ratesAfter limits (calls ++ [c])).get? c.name = some r₁ := by
    rw [ratesAfter_snoc, heq, Map.get?_set_self]
  obtain ⟨-, -, -, hhonest⟩ := visitsOf_spec h c.name kind rest hget
  have hvisits : visitsOf limits c.name kind calls (c :: rest) =
      ((c.now : ℚ), accepts limits calls c && c.draws kind) ::
        visitsOf limits c.name kind (calls ++ [c]) rest := if_pos rfl
  have hin := inBounds_getRates h (inBounds_ratesAfter h calls) c.name c.clock kind
  -- the bucket the window starts with
  generalize hb : ((getRates (ratesAfter limits calls) c.name limits c.clock).bucket kind).level = b
    at hr₁ hin
  have hwindow : Bucket.Honest (limits.capacity kind) (limits.rate kind) b
      (((c.now : ℚ), accepts limits calls c && c.draws kind) ::
        visitsOf limits c.name kind (calls ++ [c]) rest) := by
    have hfirst := hr₁ kind
    rw [hb] at hfirst
    rw [hfirst.1] at hhonest
    refine ⟨fun hdrew => ?_, hhonest⟩
    obtain ⟨hyes, hdraws⟩ := Bool.and_eq_true_iff.mp hdrew
    exact hfirst.2 hyes hdraws
  have htaken := Bucket.taken_le (h.rate_nonneg kind) hin hwindow
  rw [← hvisits] at htaken
  -- the clock of its calls moves the stamp
  have hstart : ((latest c.now (callsOf c.name calls) : Int) : ℚ) ≤ max b.stamp (c.now : ℚ) := by
    refine latest_le (le_max_right _ _) fun x hx => ?_
    obtain ⟨hx, hn⟩ := List.mem_filter.mp hx
    obtain ⟨r, hr, hle⟩ := now_le_stamp h calls x hx
    rw [of_decide_eq_true hn] at hr
    rw [← hb, getRates_some hr]
    exact (hle kind).trans (le_max_left _ _)
  have hgrow := foldl_max_sub_le (callsOf c.name rest) hstart
  have hend : (b.visits (limits.capacity kind) (limits.rate kind)
      (visitsOf limits c.name kind calls (c :: rest))).stamp =
      (callsOf c.name rest).foldl (fun m x => max m (x.now : ℚ)) (max b.stamp (c.now : ℚ)) := by
    rw [Bucket.stamp_visits, foldl_visitsOf]
    unfold callsOf
    rw [List.filter_cons_of_pos (by simp), List.foldl_cons]
  rw [hend] at htaken
  have hrate := mul_le_mul_of_nonneg_left hgrow (h.rate_nonneg kind)
  calc ((visitsOf limits c.name kind calls (c :: rest)).countP Prod.snd : ℚ)
      ≤ limits.capacity kind + limits.rate kind * (advance calls c rest : ℚ) := by
        unfold advance
        linarith
    _ = limits.capacity kind * (1 + advance calls c rest / rateBucketWindowMs) := by
        unfold RateLimits.rate
        ring

/-- A call reads the buckets of its own alias only. -/
theorem checkRate_own {rates rates' : Map String PeerRates} {c : RateCall}
    (h : rates.get? c.name = rates'.get? c.name) (limits : RateLimits) :
    (checkRate rates c.name c.kind limits c.clock c.now).1 =
        (checkRate rates' c.name c.kind limits c.clock c.now).1 ∧
      (checkRate rates c.name c.kind limits c.clock c.now).2.get? c.name =
        (checkRate rates' c.name c.kind limits c.clock c.now).2.get? c.name := by
  have hsame : getRates rates' c.name limits c.clock = getRates rates c.name limits c.clock := by
    unfold getRates
    rw [h]
  rw [checkRate_eq rates c.name c.kind limits c.clock c.now _ rfl,
    checkRate_eq rates' c.name c.kind limits c.clock c.now _ (by rw [hsame])]
  split
  · exact ⟨rfl, by rw [Map.get?_set_self, Map.get?_set_self]⟩
  · exact ⟨rfl, by rw [Map.get?_set_self, Map.get?_set_self]⟩

/-- The buckets of an alias see its own calls only. -/
theorem ratesAfter_own (limits : RateLimits) (calls : List RateCall) (name : String) :
    (ratesAfter limits calls).get? name = (ratesAfter limits (callsOf name calls)).get? name := by
  induction calls using List.reverseRecOn with
  | nil => rfl
  | append_singleton calls c ih =>
      unfold callsOf at ih ⊢
      rw [List.filter_append]
      by_cases hn : c.name = name
      · subst hn
        have hone : [c].filter (fun x => x.name = c.name) = [c] := List.filter_eq_self.mpr (by simp)
        rw [hone, ratesAfter_snoc, ratesAfter_snoc]
        exact (checkRate_own ih limits).2
      · have hnone : [c].filter (fun x => x.name = name) = [] := List.filter_eq_nil_iff.mpr (by simp [hn])
        have hother : (checkRate (ratesAfter limits calls) c.name c.kind limits c.clock c.now).2.get? name =
            (ratesAfter limits calls).get? name := by
          rw [checkRate_eq _ c.name c.kind limits c.clock c.now _ rfl]
          split
          · exact Map.get?_set_ne _ _ (Ne.symm hn)
          · exact Map.get?_set_ne _ _ (Ne.symm hn)
        rw [hnone, List.append_nil, ratesAfter_snoc, hother]
        exact ih

/-- **The token buckets bound what an alias can send.** -/
theorem checkRate_throttles (limits : RateLimits) (h : limits.Positive) : Throttled limits where
  within calls name r hr kind := inBounds_ratesAfter h calls name r hr kind
  refused calls c hno := by
    have heq := checkRate_eq (ratesAfter limits calls) c.name c.kind limits c.clock c.now _ rfl
    rw [ratesAfter_snoc]
    unfold accepts at hno
    split at heq
    · rw [heq] at hno
      cases hno
    · rw [heq]
  window calls c rest kind := by
    refine le_trans ?_ (drawn_le h calls c rest kind)
    exact_mod_cast acceptedIn_le limits c.name kind calls (c :: rest)
  together calls c rest := by
    refine le_trans ?_ (drawn_le h calls c rest .msg)
    exact_mod_cast accepted_together_le limits c.name calls (c :: rest)
  apart calls c :=
    ⟨ratesAfter_own limits calls c.name, (checkRate_own (ratesAfter_own limits calls c.name) limits).1⟩

/-- The limits of a broker without a policy. -/
theorem checkRate_throttles_default : Throttled {} :=
  checkRate_throttles {} ⟨by decide, by decide, by decide⟩

end Calls

end PiMesh
