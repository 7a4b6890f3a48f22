import Mathlib.Tactic

/-!
# The calendar

The Gregorian calendar, forward from 1970-01-01. `nextDay` is the rule of the calendar, and
`ofDays n` applies it `n` times. `dayNumber` counts the days from 1970-01-01 to a date by
years and months, and finds the `n` of a date (`dayNumber_ofDays`). Dates of before the year
10000 are those with `n < 2932897` (`year_ofDays_le`).
-/

namespace Choreography

def isLeap (year : ℕ) : Bool := year % 4 = 0 && (year % 100 ≠ 0 || year % 400 = 0)

/-- The days of a month. -/
def daysIn (year month : ℕ) : ℕ :=
  if month = 2 then if isLeap year then 29 else 28
  else if month = 4 ∨ month = 6 ∨ month = 9 ∨ month = 11 then 30
  else 31

/-- A date of the calendar. -/
structure Date where
  year : ℕ
  month : ℕ
  day : ℕ
  month_pos : 1 ≤ month
  month_le : month ≤ 12
  day_pos : 1 ≤ day
  day_le : day ≤ daysIn year month

/-- The days of the years before `year`, from the year 0. -/
def daysBeforeYear (year : ℕ) : ℕ :=
  365 * year + (year + 3) / 4 - (year + 99) / 100 + (year + 399) / 400

/-- The days of the months before `month`. -/
def daysBeforeMonth (year month : ℕ) : ℕ :=
  ((List.range (month - 1)).map fun i => daysIn year (i + 1)).sum

/-- The days from 1970-01-01 to a date. -/
def dayNumber (year month day : ℕ) : ℤ :=
  daysBeforeYear year + daysBeforeMonth year month + day - 1 - daysBeforeYear 1970

theorem daysBeforeYear_succ (year : ℕ) :
    daysBeforeYear (year + 1) = daysBeforeYear year + if isLeap year then 366 else 365 := by
  have h₄ : (year + 1 + 3) / 4 = (year + 3) / 4 + if year % 4 = 0 then 1 else 0 := by
    split_ifs <;> omega
  have h₁ : (year + 1 + 99) / 100 = (year + 99) / 100 + if year % 100 = 0 then 1 else 0 := by
    split_ifs <;> omega
  have h₅ : (year + 1 + 399) / 400 = (year + 399) / 400 + if year % 400 = 0 then 1 else 0 := by
    split_ifs <;> omega
  have hle : (year + 99) / 100 ≤ 365 * year + (year + 3) / 4 := by omega
  -- every fourth year is a leap year, and every 400th is a 100th
  have h₄₁ : year % 100 = 0 → year % 4 = 0 := by omega
  have h₁₅ : year % 400 = 0 → year % 100 = 0 := by omega
  unfold daysBeforeYear isLeap
  rw [h₄, h₁, h₅]
  generalize (year + 3) / 4 = a, (year + 99) / 100 = b, (year + 399) / 400 = c at hle
  by_cases c₄ : year % 4 = 0 <;> by_cases c₁ : year % 100 = 0 <;>
    by_cases c₅ : year % 400 = 0 <;> simp_all <;> omega

theorem daysBeforeMonth_succ (year : ℕ) {month : ℕ} (h : 1 ≤ month) :
    daysBeforeMonth year (month + 1) = daysBeforeMonth year month + daysIn year month := by
  obtain ⟨m, rfl⟩ := Nat.exists_eq_add_of_le' h
  simp [daysBeforeMonth, List.range_succ]

theorem daysBeforeMonth_december (year : ℕ) :
    daysBeforeMonth year 12 + daysIn year 12 = if isLeap year then 366 else 365 := by
  cases h : isLeap year <;> simp [daysBeforeMonth, daysIn, h, List.range_succ]

theorem one_le_daysIn (year month : ℕ) : 1 ≤ daysIn year month := by
  unfold daysIn
  split_ifs <;> decide

theorem daysIn_le (year month : ℕ) : daysIn year month ≤ 31 := by
  unfold daysIn
  split_ifs <;> decide

namespace Date

/-- 1970-01-01. -/
def epoch : Date := ⟨1970, 1, 1, le_rfl, by decide, le_rfl, by decide⟩

/-- The day after a date. -/
def nextDay (d : Date) : Date :=
  if hday : d.day < daysIn d.year d.month then
    ⟨d.year, d.month, d.day + 1, d.month_pos, d.month_le, Nat.succ_pos _, hday⟩
  else if hmonth : d.month < 12 then
    ⟨d.year, d.month + 1, 1, Nat.succ_pos _, hmonth, le_rfl, one_le_daysIn _ _⟩
  else ⟨d.year + 1, 1, 1, le_rfl, by decide, le_rfl, one_le_daysIn _ _⟩

/-- The date `n` days after 1970-01-01. -/
def ofDays (n : ℕ) : Date := nextDay^[n] epoch

theorem dayNumber_nextDay (d : Date) :
    dayNumber d.nextDay.year d.nextDay.month d.nextDay.day =
      dayNumber d.year d.month d.day + 1 := by
  have hday := d.day_le
  have hmonth := d.month_le
  unfold nextDay
  split_ifs with h₁ h₂
  · simp only [dayNumber]
    omega
  · simp only [dayNumber, daysBeforeMonth_succ d.year d.month_pos]
    omega
  · -- the 31st of December
    have hlast : d.month = 12 := by omega
    have hyear := daysBeforeMonth_december d.year
    have hfirst : daysBeforeMonth (d.year + 1) 1 = 0 := rfl
    rw [hlast] at h₁ hday
    simp only [dayNumber, hlast, hfirst, daysBeforeYear_succ d.year]
    omega

theorem dayNumber_ofDays (n : ℕ) :
    dayNumber (ofDays n).year (ofDays n).month (ofDays n).day = n := by
  induction n with
  | zero => decide
  | succ n ih =>
    rw [ofDays, Function.iterate_succ_apply', dayNumber_nextDay, ← ofDays, ih]
    push_cast
    ring

/-- The 2932897 days from 1970-01-01 on are of years before 10000. -/
theorem year_ofDays_le {n : ℕ} (h : n < 2932897) : (ofDays n).year ≤ 9999 := by
  by_contra hyear
  have hn := dayNumber_ofDays n
  have hday := (ofDays n).day_pos
  have hbefore : 3652425 ≤ daysBeforeYear (ofDays n).year := by
    unfold daysBeforeYear
    omega
  have hepoch : daysBeforeYear 1970 = 719528 := by decide
  unfold dayNumber at hn
  omega

end Date

end Choreography
