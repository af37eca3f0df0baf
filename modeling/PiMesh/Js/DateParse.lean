/-
Dates read back.

`Date.parse` of a date at midnight.  The engine takes every month up to the twelfth and every date
up to the thirty-first; a date behind the end of its month is a day of the next one.  For the years
that have four digits this is the inverse of how a date is written.
-/
import PiMesh.Js.Date

namespace Js

/-- The numbers in a text of the form `\d{4}-\d{2}-\d{2}`. -/
def readDate : List Char → Option (Nat × Nat × Nat)
  | [y₁, y₂, y₃, y₄, '-', m₁, m₂, '-', d₁, d₂] =>
      if [y₁, y₂, y₃, y₄, m₁, m₂, d₁, d₂].all Char.isDigit then
        some (Nat.ofDigitChars 10 [y₁, y₂, y₃, y₄] 0, Nat.ofDigitChars 10 [m₁, m₂] 0,
          Nat.ofDigitChars 10 [d₁, d₂] 0)
      else none
  | _ => none

/-- The day of a date, the months of its year before it counted. -/
def dayOfDate (y m d : Nat) : Int :=
  dayFromYear y + (((monthDays (isLeapYear y)).take (m - 1)).sum : Nat) + (d - 1)

/-- `Date.parse(date + "T00:00:00.000Z")`. -/
def midnightOf (date : List Char) : Option Int :=
  match readDate date with
  | none => none
  | some (y, m, d) =>
      if 1 ≤ m ∧ m ≤ 12 ∧ 1 ≤ d ∧ d ≤ 31 then some (dayOfDate y m d * msPerDay) else none

theorem ofDigitChars_lastDigits {k n : Nat} (h : n < 10 ^ k) :
    Nat.ofDigitChars 10 (lastDigits k n) 0 = n := by
  induction k generalizing n with
  | zero =>
      have hzero : n = 0 := by simpa using h
      rw [hzero]
      rfl
  | succ k ih =>
      have hlast : n % 10 < 10 := Nat.mod_lt n (by decide)
      rw [lastDigits, Nat.ofDigitChars_append, ih (by omega),
        Nat.ofDigitChars_cons_digitChar_of_lt_ten hlast, Nat.ofDigitChars_nil]
      omega

/-- The months before a day's month and its date give the day back. -/
theorem monthAndDate_spec (months : List Nat) : ∀ m day, day < months.sum →
    (months.take ((monthAndDate months m day).1 - m)).sum + ((monthAndDate months m day).2 - 1)
      = day ∧ 1 ≤ (monthAndDate months m day).2 := by
  induction months with
  | nil =>
      intro m day h
      simp at h
  | cons n rest ih =>
      intro m day h
      rw [List.sum_cons] at h
      rw [monthAndDate]
      by_cases hday : day < n
      · rw [if_pos hday]
        simp
      · rw [if_neg hday]
        have hrest := ih (m + 1) (day - n) (by omega)
        have hge := monthAndDate_ge rest (m + 1) (day - n)
        obtain ⟨k, hk⟩ : ∃ k, (monthAndDate rest (m + 1) (day - n)).1 - m = k + 1 :=
          ⟨(monthAndDate rest (m + 1) (day - n)).1 - (m + 1), by omega⟩
        have hk' : (monthAndDate rest (m + 1) (day - n)).1 - (m + 1) = k := by omega
        rw [hk'] at hrest
        rw [hk, List.take_succ_cons, List.sum_cons]
        exact ⟨by omega, hrest.2⟩

theorem day_within (t : Int) :
    (dayOf t - dayFromYear (yearOf t)).toNat < (monthDays (isLeapYear (yearOf t))).sum ∧
      0 ≤ dayOf t - dayFromYear (yearOf t) := by
  have hspec := yearOfDay_spec (dayOf t)
  rw [dayFromYear_succ] at hspec
  unfold yearOf
  omega

theorem dayOfDate_monthDateOf {t : Int} (ht : FourDigitYear t) :
    dayOfDate (yearOf t).toNat (monthDateOf t).1 (monthDateOf t).2 = dayOf t := by
  obtain ⟨hlt, hstart⟩ := day_within t
  have hyear : ((yearOf t).toNat : Int) = yearOf t := Int.toNat_of_nonneg ht.1
  obtain ⟨hsum, hdate⟩ := monthAndDate_spec _ 1 _ hlt
  unfold dayOfDate
  rw [hyear]
  unfold monthDateOf
  omega

/-- The month and the date of a day are such that the engine takes them. -/
theorem monthDateOf_bounds (t : Int) : 1 ≤ (monthDateOf t).1 ∧ (monthDateOf t).1 ≤ 12 ∧
    1 ≤ (monthDateOf t).2 ∧ (monthDateOf t).2 ≤ 31 := by
  have hlt := (day_within t).1
  have hall : ∀ n ∈ monthDays (isLeapYear (yearOf t)), n ≤ 31 := by
    cases isLeapYear (yearOf t) <;> decide
  have hbounds := monthAndDate_lt _ 1 _ hall hlt
  have hlength : (monthDays (isLeapYear (yearOf t))).length = 12 := rfl
  have hge := monthAndDate_ge (monthDays (isLeapYear (yearOf t))) 1
    (dayOf t - dayFromYear (yearOf t)).toNat
  have hspec := monthAndDate_spec _ 1 _ hlt
  unfold monthDateOf
  omega

theorem readDate_dateText {t : Int} (ht : FourDigitYear t) :
    readDate (dateText t) = some ((yearOf t).toNat, (monthDateOf t).1, (monthDateOf t).2) := by
  have hbounds := monthDateOf_bounds t
  have hyear := ofDigitChars_lastDigits (k := 4) (n := (yearOf t).toNat) (by
    unfold FourDigitYear at ht
    omega)
  have hmonth := ofDigitChars_lastDigits (k := 2) (n := (monthDateOf t).1) (by omega)
  have hdate := ofDigitChars_lastDigits (k := 2) (n := (monthDateOf t).2) (by omega)
  have hdigits : ∀ k n, (lastDigits k n).all Char.isDigit = true := by
    intro k n
    rw [List.all_eq_true]
    exact isDigit_lastDigits k n
  have hall : (lastDigits 4 (yearOf t).toNat ++ (lastDigits 2 (monthDateOf t).1 ++
      lastDigits 2 (monthDateOf t).2)).all Char.isDigit = true := by
    rw [List.all_append, List.all_append, hdigits, hdigits, hdigits]
    rfl
  have hread : readDate (dateText t)
      = if (lastDigits 4 (yearOf t).toNat ++ (lastDigits 2 (monthDateOf t).1 ++
          lastDigits 2 (monthDateOf t).2)).all Char.isDigit then
          some (Nat.ofDigitChars 10 (lastDigits 4 (yearOf t).toNat) 0,
            Nat.ofDigitChars 10 (lastDigits 2 (monthDateOf t).1) 0,
            Nat.ofDigitChars 10 (lastDigits 2 (monthDateOf t).2) 0)
        else none := by
    have hyear' : 0 ≤ yearOf t ∧ yearOf t ≤ 9999 := ht
    unfold dateText yearText
    rw [if_pos hyear']
    rfl
  rw [hread, if_pos hall, hyear, hmonth, hdate]

/-- **A date is read back as the beginning of its day.** -/
theorem midnightOf_dateText {t : Int} (ht : FourDigitYear t) :
    midnightOf (dateText t) = some (dayOf t * msPerDay) := by
  unfold midnightOf
  rw [readDate_dateText ht]
  dsimp only
  rw [if_pos (monthDateOf_bounds t), dayOfDate_monthDateOf ht]

end Js
