import Mathlib.Data.Int.ConditionallyCompleteOrder
import Mathlib.Data.Int.Order.Basic
import Mathlib.Order.ConditionallyCompleteLattice.Basic
import Mathlib.Order.Monotone.Basic
import Mathlib.Data.Prod.Lex
import Mathlib.Tactic.Common

/-!
# Dates of the Gregorian calendar

A date is a year, a month and a day; it has a number, in days. Dates have the order of their years,
months and days, which is the order of their numbers (`CivilDate.dayNumber_lt_iff`).
-/

namespace MeetilyLocal

/-- A year with a 29th of February. -/
def isLeap (y : ℤ) : Bool := y % 4 = 0 ∧ (y % 100 ≠ 0 ∨ y % 400 = 0)

/-- How many days a month has; the months have the numbers from 1 to 12. -/
def daysInMonth (leap : Bool) : ℕ → ℕ
  | 2 => if leap then 29 else 28
  | 4 | 6 | 9 | 11 => 30
  | 1 | 3 | 5 | 7 | 8 | 10 | 12 => 31
  | _ => 0

/-- How many days of a year are before a month. -/
def daysBeforeMonth (leap : Bool) : ℕ → ℕ
  | 0 => 0
  | m + 1 => daysBeforeMonth leap m + daysInMonth leap m

/-- How many days there are from the first one of the year 1 to a year. -/
def daysBeforeYear (y : ℤ) : ℤ := 365 * (y - 1) + (y - 1) / 4 - (y - 1) / 100 + (y - 1) / 400

/-- A date. -/
structure CivilDate : Type where
  year : ℤ
  month : ℕ
  day : ℕ
  month_mem : 1 ≤ month ∧ month ≤ 12
  day_mem : 1 ≤ day ∧ day ≤ daysInMonth (isLeap year) month
  deriving DecidableEq

theorem daysBeforeMonth_mono (leap : Bool) : Monotone (daysBeforeMonth leap) :=
  monotone_nat_of_le_succ fun _ => Nat.le_add_right _ _

theorem daysInMonth_le (leap : Bool) (m : ℕ) : daysInMonth leap m ≤ 31 := by
  rw [daysInMonth.eq_def]
  split <;> first | omega | (split <;> omega)

/-- A year has 365 days, and one more if it is a leap year. -/
theorem daysBeforeYear_succ (y : ℤ) :
    daysBeforeYear (y + 1) = daysBeforeYear y + daysBeforeMonth (isLeap y) 13 := by
  have hyear : (daysBeforeMonth (isLeap y) 13 : ℤ) =
      if y % 4 = 0 ∧ (y % 100 ≠ 0 ∨ y % 400 = 0) then 366 else 365 := by
    rw [isLeap]
    split_ifs with h
    · rw [decide_eq_true h]
      rfl
    · rw [decide_eq_false h]
      rfl
  rw [hyear, daysBeforeYear, daysBeforeYear]
  split <;> omega

theorem daysBeforeYear_mono : Monotone daysBeforeYear := by
  apply monotone_int_of_le_succ
  intro y
  rw [daysBeforeYear_succ]
  omega

namespace CivilDate

variable {a b : CivilDate}

/-- The number of a date: that of the first day of the year 1 is 1. -/
def dayNumber (a : CivilDate) : ℤ :=
  daysBeforeYear a.year + daysBeforeMonth (isLeap a.year) a.month + a.day

/-- Years, months and days, in lexicographic order. -/
def fields (a : CivilDate) : ℤ ×ₗ ℕ ×ₗ ℕ := toLex (a.year, toLex (a.month, a.day))

theorem fields_injective : Function.Injective fields := by
  intro a b h
  cases a
  cases b
  simp only [fields, toLex_inj, Prod.mk_inj] at h
  obtain ⟨rfl, rfl, rfl⟩ := h
  rfl

/-- The day is one of its month. -/
theorem day_le (a : CivilDate) : daysBeforeMonth (isLeap a.year) a.month + a.day ≤
    daysBeforeMonth (isLeap a.year) (a.month + 1) :=
  Nat.add_le_add_left a.day_mem.2 _

theorem dayNumber_lt (h : a.fields < b.fields) : a.dayNumber < b.dayNumber := by
  have hday := a.day_le
  have hpos := b.day_mem.1
  rw [fields, fields, Prod.Lex.toLex_lt_toLex, Prod.Lex.toLex_lt_toLex] at h
  rw [dayNumber, dayNumber]
  rcases h with hyear | ⟨hyear, hmonth | ⟨hmonth, hdays⟩⟩
  · have hend : daysBeforeMonth (isLeap a.year) (a.month + 1) ≤ daysBeforeMonth (isLeap a.year) 13 :=
      daysBeforeMonth_mono _ (Nat.succ_le_succ a.month_mem.2)
    have hnext : daysBeforeYear (a.year + 1) ≤ daysBeforeYear b.year := daysBeforeYear_mono hyear
    rw [daysBeforeYear_succ] at hnext
    omega
  · simp only at hyear hmonth
    have hnext : daysBeforeMonth (isLeap a.year) (a.month + 1) ≤
        daysBeforeMonth (isLeap a.year) b.month := daysBeforeMonth_mono _ hmonth
    rw [← hyear]
    omega
  · simp only at hyear hmonth hdays
    rw [← hyear, ← hmonth]
    omega

/-- **Dates** have the order of their numbers. -/
theorem dayNumber_lt_iff : a.dayNumber < b.dayNumber ↔ a.fields < b.fields := by
  constructor
  · intro h
    by_contra hnot
    rcases (not_lt.mp hnot).lt_or_eq with hlt | heq
    · exact lt_asymm h (dayNumber_lt hlt)
    · rw [fields_injective heq] at h
      exact lt_irrefl _ h
  · exact dayNumber_lt

theorem dayNumber_injective : Function.Injective dayNumber := by
  intro a b h
  apply fields_injective
  rcases lt_trichotomy a.fields b.fields with hlt | heq | hlt
  · exact absurd h (dayNumber_lt hlt).ne
  · exact heq
  · exact absurd h (dayNumber_lt hlt).ne'

end CivilDate

end MeetilyLocal
