/-
Times as text.

Day, year, month and date of a time are computed as the language defines them: a year is the last
one that does not begin after the day.  `toISOString` writes a year of four digits as it is and any
other one with a sign and six.  Between the years 0 and 9999 the order of the texts is the order of
the days, which is what a reader relies on that sorts files by the dates in their names.
-/
import Mathlib.Data.String.Basic
import Mathlib.Algebra.GroupWithZero.Nat
import Mathlib.Data.List.Lex

namespace Js

/-! ### Days and years -/

def msPerDay : Int := 86400000

/-- `Day(t)`. -/
def dayOf (t : Int) : Int := t / msPerDay

/-- `DayFromYear(y)`. -/
def dayFromYear (y : Int) : Int :=
  365 * (y - 1970) + (y - 1969) / 4 - (y - 1901) / 100 + (y - 1601) / 400

/-- The year of a day. -/
def yearOfDay (d : Int) : Int :=
  let y := 1970 + 400 * d / 146097
  if d < dayFromYear y then y - 1 else if d < dayFromYear (y + 1) then y else y + 1

/-- `YearFromTime(t)`. -/
def yearOf (t : Int) : Int := yearOfDay (dayOf t)

def isLeapYear (y : Int) : Bool := y % 4 == 0 && y % 100 != 0 || y % 400 == 0

def monthDays (leap : Bool) : List Nat :=
  [31, if leap then 29 else 28, 31, 30, 31, 30, 31, 31, 30, 31, 30, 31]

/-- The month and the date of a day, the months numbered from `m` on. -/
def monthAndDate : List Nat → Nat → Nat → Nat × Nat
  | [], m, day => (m, day + 1)
  | n :: rest, m, day => if day < n then (m, day + 1) else monthAndDate rest (m + 1) (day - n)

/-- `MonthFromTime(t) + 1` and `DateFromTime(t)`. -/
def monthDateOf (t : Int) : Nat × Nat :=
  monthAndDate (monthDays (isLeapYear (yearOf t))) 1 (dayOf t - dayFromYear (yearOf t)).toNat

/-! ### Text -/

/-- The last `k` digits of `n`. -/
def lastDigits : Nat → Nat → List Char
  | 0, _ => []
  | k + 1, n => lastDigits k (n / 10) ++ [Nat.digitChar (n % 10)]

def yearText (y : Int) : List Char :=
  if 0 ≤ y ∧ y ≤ 9999 then lastDigits 4 y.toNat
  else (if y < 0 then '-' else '+') :: lastDigits 6 y.natAbs

def dateText (t : Int) : List Char :=
  yearText (yearOf t) ++ '-' :: (lastDigits 2 (monthDateOf t).1 ++
    '-' :: lastDigits 2 (monthDateOf t).2)

/-- `toISOString`, of a time the clock can show. -/
def toISOString (t : Int) : String :=
  let ms := (t % msPerDay).toNat
  String.ofList (dateText t ++ 'T' :: (lastDigits 2 (ms / 3600000) ++
    ':' :: (lastDigits 2 (ms / 60000 % 60) ++ ':' :: (lastDigits 2 (ms / 1000 % 60) ++
      '.' :: (lastDigits 3 (ms % 1000) ++ ['Z'])))))

/-- `toISOString().slice(0, 10)`. -/
def isoDate (t : Int) : String := String.ofList ((toISOString t).toList.take 10)

/-- The year has four digits. -/
def FourDigitYear (t : Int) : Prop := 0 ≤ yearOf t ∧ yearOf t ≤ 9999

instance (t : Int) : Decidable (FourDigitYear t) := inferInstanceAs (Decidable (_ ∧ _))

example : toISOString 1704067200000 = "2024-01-01T00:00:00.000Z" ∧
    toISOString (-1) = "1969-12-31T23:59:59.999Z" := by decide

/-! ### The year of a day -/

theorem yearOfDay_spec (d : Int) :
    dayFromYear (yearOfDay d) ≤ d ∧ d < dayFromYear (yearOfDay d + 1) := by
  unfold yearOfDay dayFromYear
  dsimp only
  split_ifs with hbefore hwithin
  · rw [Int.sub_add_cancel]
    omega
  · omega
  · omega

theorem dayFromYear_mono {y y' : Int} (h : y ≤ y') : dayFromYear y ≤ dayFromYear y' := by
  unfold dayFromYear
  omega

theorem yearOfDay_mono {d d' : Int} (h : d ≤ d') : yearOfDay d ≤ yearOfDay d' := by
  by_contra hlt
  have hstart := dayFromYear_mono (show yearOfDay d' + 1 ≤ yearOfDay d by omega)
  have hspec := yearOfDay_spec d
  have hspec' := yearOfDay_spec d'
  omega

theorem dayFromYear_succ (y : Int) :
    dayFromYear (y + 1) = dayFromYear y + ((monthDays (isLeapYear y)).sum : Nat) := by
  unfold dayFromYear isLeapYear
  by_cases hleap : (y % 4 == 0 && y % 100 != 0 || y % 400 == 0) = true
  · rw [hleap]
    simp only [Bool.or_eq_true, Bool.and_eq_true, beq_iff_eq, bne_iff_ne] at hleap
    simp only [monthDays, if_true, List.sum_cons, List.sum_nil]
    omega
  · rw [Bool.not_eq_true _ |>.mp hleap]
    simp only [Bool.or_eq_true, Bool.and_eq_true, beq_iff_eq, bne_iff_ne] at hleap
    simp only [monthDays, List.sum_cons, List.sum_nil]
    simp
    omega

/-! ### Months -/

/-- Months and dates, the earlier first. -/
def NotLater (a b : Nat × Nat) : Prop := a.1 < b.1 ∨ a.1 = b.1 ∧ a.2 ≤ b.2

theorem monthAndDate_ge (months : List Nat) : ∀ m day, m ≤ (monthAndDate months m day).1 := by
  induction months with
  | nil =>
      intro m day
      exact Nat.le_refl _
  | cons n rest ih =>
      intro m day
      rw [monthAndDate]
      split
      · exact Nat.le_refl _
      · exact Nat.le_trans (Nat.le_succ m) (ih (m + 1) (day - n))

theorem monthAndDate_mono (months : List Nat) : ∀ m, ∀ {day day' : Nat}, day ≤ day' →
    NotLater (monthAndDate months m day) (monthAndDate months m day') := by
  induction months with
  | nil =>
      intro m day day' h
      exact .inr ⟨rfl, Nat.succ_le_succ h⟩
  | cons n rest ih =>
      intro m day day' h
      rw [monthAndDate, monthAndDate]
      by_cases hday : day < n
      · rw [if_pos hday]
        by_cases hday' : day' < n
        · rw [if_pos hday']
          exact .inr ⟨rfl, Nat.succ_le_succ h⟩
        · rw [if_neg hday']
          exact .inl (Nat.lt_of_lt_of_le (Nat.lt_succ_self m) (monthAndDate_ge rest (m + 1) _))
      · rw [if_neg hday, if_neg (by omega : ¬ day' < n)]
        exact ih (m + 1) (by omega)

theorem monthAndDate_lt (months : List Nat) : ∀ m day, (∀ n ∈ months, n ≤ 31) →
    day < months.sum → (monthAndDate months m day).1 < m + months.length ∧
      (monthAndDate months m day).2 ≤ 31 := by
  induction months with
  | nil =>
      intro m day _ h
      simp at h
  | cons n rest ih =>
      intro m day hall h
      rw [List.forall_mem_cons] at hall
      rw [List.sum_cons] at h
      rw [monthAndDate, List.length_cons]
      split
      · next hday =>
          have hn := hall.1
          exact ⟨by omega, by omega⟩
      · have hrest := ih (m + 1) (day - n) hall.2 (by omega)
        exact ⟨by omega, hrest.2⟩

theorem monthDateOf_lt (t : Int) : (monthDateOf t).1 < 100 ∧ (monthDateOf t).2 < 100 := by
  have hspec := yearOfDay_spec (dayOf t)
  rw [dayFromYear_succ] at hspec
  have hall : ∀ n ∈ monthDays (isLeapYear (yearOf t)), n ≤ 31 := by
    cases isLeapYear (yearOf t) <;> decide
  have hlt := monthAndDate_lt (monthDays (isLeapYear (yearOf t))) 1
    (dayOf t - dayFromYear (yearOf t)).toNat hall (by
      unfold yearOf
      omega)
  have hlength : (monthDays (isLeapYear (yearOf t))).length = 12 := rfl
  unfold monthDateOf
  omega

theorem monthDateOf_mono {t t' : Int} (h : t ≤ t') (hyear : yearOf t = yearOf t') :
    NotLater (monthDateOf t) (monthDateOf t') := by
  have hday : dayOf t ≤ dayOf t' := by
    unfold dayOf msPerDay
    omega
  unfold monthDateOf
  rw [hyear]
  exact monthAndDate_mono _ 1 (by omega)

theorem yearOf_mono {t t' : Int} (h : t ≤ t') : yearOf t ≤ yearOf t' := by
  refine yearOfDay_mono ?_
  unfold dayOf msPerDay
  omega

/-! ### The order of the texts -/

theorem append_lt_append {a b : List Char} (hlength : a.length = b.length) (h : a < b)
    (c d : List Char) : a ++ c < b ++ d := by
  induction a generalizing b with
  | nil =>
      obtain rfl : b = [] := List.length_eq_zero_iff.mp hlength.symm
      exact absurd h (List.lt_irrefl _)
  | cons x a ih =>
      cases b with
      | nil => simp at hlength
      | cons y b =>
          rw [List.cons_append, List.cons_append, List.cons_lt_cons_iff]
          rcases List.cons_lt_cons_iff.mp h with hxy | ⟨hxy, hab⟩
          · exact .inl hxy
          · exact .inr ⟨hxy, ih (Nat.succ.inj hlength) hab⟩

theorem append_lt_append_left (a : List Char) {c d : List Char} (h : c < d) : a ++ c < a ++ d := by
  induction a with
  | nil => exact h
  | cons x a ih => exact List.cons_lt_cons_iff.mpr (.inr ⟨rfl, ih⟩)

theorem length_lastDigits (k n : Nat) : (lastDigits k n).length = k := by
  induction k generalizing n with
  | zero => rfl
  | succ k ih => simp [lastDigits, ih]

theorem isDigit_lastDigits (k n : Nat) : ∀ c ∈ lastDigits k n, c.isDigit = true := by
  induction k generalizing n with
  | zero =>
      intro c h
      simp [lastDigits] at h
  | succ k ih =>
      intro c h
      rw [lastDigits, List.mem_append, List.mem_singleton] at h
      rcases h with h | rfl
      · exact ih (n / 10) c h
      · have hdigits : ∀ i < 10, (Nat.digitChar i).isDigit = true := by decide
        exact hdigits _ (Nat.mod_lt _ (by decide))

theorem lastDigits_lt {k n m : Nat} (h : n < m) (hm : m < 10 ^ k) :
    lastDigits k n < lastDigits k m := by
  induction k generalizing n m with
  | zero => omega
  | succ k ih =>
      rw [lastDigits, lastDigits]
      by_cases hhead : n / 10 < m / 10
      · have hlengths : (lastDigits k (n / 10)).length = (lastDigits k (m / 10)).length := by
          rw [length_lastDigits, length_lastDigits]
        exact append_lt_append hlengths (ih hhead (by omega)) _ _
      · obtain hsame : n / 10 = m / 10 := by omega
        rw [hsame]
        refine append_lt_append_left _ (List.cons_lt_cons_iff.mpr (.inl ?_))
        have hdigits : ∀ i < 10, ∀ j < 10, i < j → Nat.digitChar i < Nat.digitChar j := by decide
        exact hdigits _ (Nat.mod_lt _ (by decide)) _ (Nat.mod_lt _ (by decide)) (by omega)

/-- Of two days with years of four digits, the earlier one has the smaller text. -/
theorem dateText_mono {t t' : Int} (h : t ≤ t') (ht : FourDigitYear t) (ht' : FourDigitYear t') :
    dateText t < dateText t' ∨ dateText t = dateText t' := by
  have hyears := yearOf_mono h
  have hlengths : ∀ k n m, (lastDigits k n).length = (lastDigits k m).length := by
    intro k n m
    rw [length_lastDigits, length_lastDigits]
  unfold FourDigitYear at ht ht'
  unfold dateText yearText
  rw [if_pos ht, if_pos ht']
  by_cases hyear : yearOf t = yearOf t'
  · have hbounds := monthDateOf_lt t'
    rcases monthDateOf_mono h hyear with hmonth | ⟨hmonth, hdate⟩
    · refine .inl ?_
      rw [hyear]
      refine append_lt_append_left _ (List.cons_lt_cons_iff.mpr (.inr ⟨rfl, ?_⟩))
      exact append_lt_append (hlengths 2 _ _) (lastDigits_lt hmonth hbounds.1) _ _
    · rcases Nat.lt_or_eq_of_le hdate with hdate | hdate
      · refine .inl ?_
        rw [hyear, hmonth]
        refine append_lt_append_left _ (List.cons_lt_cons_iff.mpr (.inr ⟨rfl, ?_⟩))
        refine append_lt_append_left _ (List.cons_lt_cons_iff.mpr (.inr ⟨rfl, ?_⟩))
        exact lastDigits_lt hdate hbounds.2
      · rw [hyear, hmonth, hdate]
        exact .inr rfl
  · have hlt : (yearOf t).toNat < (yearOf t').toNat := by omega
    exact .inl (append_lt_append (hlengths 4 _ _) (lastDigits_lt hlt (by omega)) _ _)

theorem length_dateText {t : Int} (ht : FourDigitYear t) : (dateText t).length = 10 := by
  unfold FourDigitYear at ht
  unfold dateText yearText
  rw [if_pos ht]
  simp [length_lastDigits]

theorem toList_isoDate {t : Int} (ht : FourDigitYear t) : (isoDate t).toList = dateText t := by
  unfold isoDate toISOString
  rw [String.toList_ofList, String.toList_ofList, ← length_dateText ht, List.take_left]

end Js
