/-
Token buckets.

A bucket holds tokens and the time of its last refill.  Refilling adds `rate` tokens for
each unit of time that has passed since, up to the capacity, and a clock that stalls or
goes back adds nothing.  One quantity carries the bound on what can be taken in a window:

    tokens - rate * stamp

A refill never raises it, since what is added is at most what the stamp advances by, and
taking a token lowers it by one.
-/
import Mathlib.Algebra.Order.Field.Basic
import Mathlib.Tactic.Linarith
import Mathlib.Tactic.Ring

namespace TokenBuckets

variable {K : Type} [Field K] [LinearOrder K] [IsStrictOrderedRing K]

structure Bucket (K : Type) where
  tokens : K
  stamp : K

namespace Bucket

/-- The refill at time `now`. -/
def refill (cap rate : K) (b : Bucket K) (now : K) : Bucket K :=
  if now - b.stamp ≤ 0 then b else ⟨min cap (b.tokens + (now - b.stamp) * rate), now⟩

def take (b : Bucket K) : Bucket K := { b with tokens := b.tokens - 1 }

/-- A refill, and a token taken or not. -/
def visit (cap rate : K) (b : Bucket K) (v : K × Bool) : Bucket K :=
  if v.2 then (b.refill cap rate v.1).take else b.refill cap rate v.1

/-- The bucket after a list of visits. -/
def visits (cap rate : K) (b : Bucket K) (l : List (K × Bool)) : Bucket K :=
  l.foldl (visit cap rate) b

variable {cap rate now : K} {b : Bucket K}

theorem stamp_refill (cap rate : K) (b : Bucket K) (now : K) :
    (b.refill cap rate now).stamp = max b.stamp now := by
  unfold refill
  by_cases h : now - b.stamp ≤ 0
  · rw [if_pos h, max_eq_left (sub_nonpos.mp h)]
  · rw [if_neg h, max_eq_right (sub_pos.mp (not_le.mp h)).le]

theorem stamp_visit (cap rate : K) (b : Bucket K) (v : K × Bool) :
    (b.visit cap rate v).stamp = max b.stamp v.1 := by
  unfold visit
  split
  · exact stamp_refill cap rate b v.1
  · exact stamp_refill cap rate b v.1

theorem stamp_visits (cap rate : K) (b : Bucket K) (l : List (K × Bool)) :
    (b.visits cap rate l).stamp = l.foldl (fun m v => max m v.1) b.stamp := by
  induction l generalizing b with
  | nil => rfl
  | cons v rest ih =>
      show ((b.visit cap rate v).visits cap rate rest).stamp = _
      rw [ih, stamp_visit, List.foldl_cons]

omit [IsStrictOrderedRing K] in
theorem refill_le_cap (h : b.tokens ≤ cap) : (b.refill cap rate now).tokens ≤ cap := by
  unfold refill
  split
  · exact h
  · exact min_le_left _ _

theorem le_refill (hrate : 0 ≤ rate) (h : b.tokens ≤ cap) : b.tokens ≤ (b.refill cap rate now).tokens := by
  unfold refill
  split
  · exact le_refl _
  · next hpos =>
      have hgain := mul_nonneg (not_le.mp hpos).le hrate
      exact le_min h (by linarith)

/-- A refill does not raise `tokens - rate * stamp`. -/
theorem refill_potential (cap rate : K) (b : Bucket K) (now : K) :
    (b.refill cap rate now).tokens - rate * (b.refill cap rate now).stamp ≤
      b.tokens - rate * b.stamp := by
  unfold refill
  split
  · exact le_refl _
  · have hmin := min_le_right cap (b.tokens + (now - b.stamp) * rate)
    show min cap (b.tokens + (now - b.stamp) * rate) - rate * now ≤ _
    calc min cap (b.tokens + (now - b.stamp) * rate) - rate * now
        ≤ b.tokens + (now - b.stamp) * rate - rate * now := sub_le_sub_right hmin _
      _ = b.tokens - rate * b.stamp := by ring

/-- Each token taken lowers it by one. -/
theorem visits_potential (cap rate : K) (b : Bucket K) (l : List (K × Bool)) :
    (l.countP Prod.snd : K) + ((b.visits cap rate l).tokens - rate * (b.visits cap rate l).stamp) ≤
      b.tokens - rate * b.stamp := by
  induction l generalizing b with
  | nil => simp [visits]
  | cons v rest ih =>
      have hrest := ih (b.visit cap rate v)
      have hfill := refill_potential cap rate b v.1
      show ((v :: rest).countP Prod.snd : K) + (((b.visit cap rate v).visits cap rate rest).tokens -
        rate * ((b.visit cap rate v).visits cap rate rest).stamp) ≤ _
      by_cases htook : v.2 = true
      · have hvisit : b.visit cap rate v = (b.refill cap rate v.1).take := if_pos htook
        rw [List.countP_cons_of_pos htook, Nat.cast_add, Nat.cast_one]
        rw [hvisit] at hrest ⊢
        have htake : (b.refill cap rate v.1).take.tokens = (b.refill cap rate v.1).tokens - 1 := rfl
        have hstamp : (b.refill cap rate v.1).take.stamp = (b.refill cap rate v.1).stamp := rfl
        rw [htake, hstamp] at hrest
        linarith
      · have hvisit : b.visit cap rate v = b.refill cap rate v.1 := if_neg htook
        rw [List.countP_cons_of_neg htook]
        rw [hvisit] at hrest ⊢
        linarith

/-- Tokens are taken only where there is one. -/
def Honest (cap rate : K) (b : Bucket K) : List (K × Bool) → Prop
  | [] => True
  | v :: rest => (v.2 = true → 1 ≤ (b.refill cap rate v.1).tokens) ∧ Honest cap rate (b.visit cap rate v) rest

/-- A bucket within its bounds. -/
def Within (cap : K) (b : Bucket K) : Prop := 0 ≤ b.tokens ∧ b.tokens ≤ cap

variable (now) in
theorem within_refill (hrate : 0 ≤ rate) (h : b.Within cap) : (b.refill cap rate now).Within cap :=
  ⟨h.1.trans (le_refill hrate h.2), refill_le_cap h.2⟩

theorem within_visit (hrate : 0 ≤ rate) (h : b.Within cap) {v : K × Bool}
    (hhonest : v.2 = true → 1 ≤ (b.refill cap rate v.1).tokens) : (b.visit cap rate v).Within cap := by
  have hfill := within_refill v.1 hrate h
  unfold visit
  split
  · next htook =>
      have hone := hhonest htook
      refine ⟨?_, ?_⟩
      · show 0 ≤ (b.refill cap rate v.1).tokens - 1
        linarith
      · show (b.refill cap rate v.1).tokens - 1 ≤ cap
        linarith [hfill.2]
  · exact hfill

theorem within_visits (hrate : 0 ≤ rate) (h : b.Within cap) {l : List (K × Bool)}
    (hhonest : Honest cap rate b l) : (b.visits cap rate l).Within cap := by
  induction l generalizing b with
  | nil => exact h
  | cons v rest ih => exact ih (within_visit hrate h hhonest.1) hhonest.2

/-- **A window starts with a full bucket at most, and after that only refills count.** -/
theorem taken_le (hrate : 0 ≤ rate) (h : b.Within cap) {v : K × Bool} {rest : List (K × Bool)}
    (hhonest : Honest cap rate b (v :: rest)) :
    ((v :: rest).countP Prod.snd : K) ≤
      cap + rate * ((b.visits cap rate (v :: rest)).stamp - max b.stamp v.1) := by
  -- the first visit is cut into its refill and what is taken then
  have hfill := within_refill v.1 hrate h
  have hagain : (b.refill cap rate v.1).visits cap rate (v :: rest) = b.visits cap rate (v :: rest) := by
    have hidle : (b.refill cap rate v.1).refill cap rate v.1 = b.refill cap rate v.1 := by
      have hstamp : v.1 - (b.refill cap rate v.1).stamp ≤ 0 := by
        rw [stamp_refill]
        exact sub_nonpos.mpr (le_max_right _ _)
      exact if_pos hstamp
    show visits cap rate (visit cap rate _ v) rest = visits cap rate (visit cap rate b v) rest
    unfold visit
    rw [hidle]
  have hpotential := visits_potential cap rate (b.refill cap rate v.1) (v :: rest)
  have hend := within_visits hrate h hhonest
  rw [hagain, stamp_refill] at hpotential
  linarith [hfill.2, hend.1]

end Bucket

end TokenBuckets
