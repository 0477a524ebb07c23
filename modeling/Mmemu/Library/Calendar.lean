import Mathlib.Algebra.BigOperators.Group.Finset.Basic
import Mathlib.Algebra.Order.BigOperators.Group.Finset

/-!
# The Gregorian calendar

Days are numbered from the first of January of some year on. The day after a date has the next
number, whether it is in the same month, the next month or the next year.
-/
namespace Mmemu.Library.Calendar
open Finset

def Leap (year : ℕ) : Prop := year % 4 = 0 ∧ (year % 100 ≠ 0 ∨ year % 400 = 0)

instance (year : ℕ) : Decidable (Leap year) := inferInstanceAs (Decidable (_ ∧ _))

def monthDays (year month : ℕ) : ℕ :=
  if month = 2 then if Leap year then 29 else 28
  else if month = 4 ∨ month = 6 ∨ month = 9 ∨ month = 11 then 30 else 31

def yearDays (year : ℕ) : ℕ := ∑ k ∈ range 12, monthDays year (k + 1)

structure Date where
  year : ℕ
  month : ℕ
  day : ℕ
  deriving DecidableEq, Repr

/-- A date that there is. -/
structure Date.Valid (d : Date) : Prop where
  month : 1 ≤ d.month ∧ d.month ≤ 12
  day : 1 ≤ d.day ∧ d.day ≤ monthDays d.year d.month

/-- The days from the first of January of `epoch` to a date. -/
def Date.number (epoch : ℕ) (d : Date) : ℕ :=
  ∑ k ∈ range (d.year - epoch), yearDays (epoch + k) +
    ∑ k ∈ range (d.month - 1), monthDays d.year (k + 1) + (d.day - 1)

variable (epoch : ℕ) {year month day : ℕ}

theorem number_next_day (first : 1 ≤ day) :
    Date.number epoch ⟨year, month, day + 1⟩ = Date.number epoch ⟨year, month, day⟩ + 1 := by
  simp only [Date.number]
  omega

theorem monthDays_pos : 1 ≤ monthDays year month := by
  unfold monthDays
  split <;> split <;> decide

theorem number_next_month (first : 1 ≤ month) :
    Date.number epoch ⟨year, month + 1, 1⟩ =
      Date.number epoch ⟨year, month, monthDays year month⟩ + 1 := by
  have some_ : 1 ≤ monthDays year month := monthDays_pos
  have sum := sum_range_succ (fun k => monthDays year (k + 1)) (month - 1)
  rw [Nat.sub_add_cancel first] at sum
  simp only [Date.number, Nat.add_sub_cancel, sum]
  omega

theorem number_next_year (since : epoch ≤ year) :
    Date.number epoch ⟨year + 1, 1, 1⟩ = Date.number epoch ⟨year, 12, monthDays year 12⟩ + 1 := by
  have months : yearDays year = ∑ k ∈ range 11, monthDays year (k + 1) + monthDays year 12 :=
    sum_range_succ (fun k => monthDays year (k + 1)) 11
  have december : monthDays year 12 = 31 := by simp [monthDays]
  have years := sum_range_succ (fun k => yearDays (epoch + k)) (year - epoch)
  rw [Nat.add_sub_cancel' since] at years
  simp only [Date.number, Nat.sub_add_comm since, years, months, december]
  simp
  omega

/-- A date lies within its month and its year. -/
theorem number_bounds {d : Date} (valid : d.Valid) :
    ∑ k ∈ range (d.month - 1), monthDays d.year (k + 1) + (d.day - 1) < yearDays d.year := by
  obtain ⟨⟨first, last⟩, one, most⟩ := valid
  have sum := sum_range_succ (fun k => monthDays d.year (k + 1)) (d.month - 1)
  rw [Nat.sub_add_cancel first] at sum
  have within : ∑ k ∈ range d.month, monthDays d.year (k + 1) ≤ yearDays d.year :=
    sum_le_sum_of_subset (range_subset_range.mpr last)
  omega

/-- Dates of so many years have numbers below the days of these years. -/
theorem number_lt (years : ℕ) {d : Date} (valid : d.Valid) (since : epoch ≤ d.year)
    (until_ : d.year < epoch + years) :
    d.number epoch < ∑ k ∈ range years, yearDays (epoch + k) := by
  have sum := sum_range_succ (fun k => yearDays (epoch + k)) (d.year - epoch)
  rw [Nat.add_sub_cancel' since] at sum
  have within : ∑ k ∈ range (d.year - epoch + 1), yearDays (epoch + k) ≤
      ∑ k ∈ range years, yearDays (epoch + k) :=
    sum_le_sum_of_subset (range_subset_range.mpr (by omega))
  have := number_bounds valid
  rw [Date.number]
  omega

end Mmemu.Library.Calendar
