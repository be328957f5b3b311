import Mathlib.Algebra.BigOperators.Fin

/-!
# Months of the proleptic Gregorian calendar

Days and months are counted from January 1970. Month `k` begins on the day
`monthStart k` and has `monthLength k` days, so the months divide the days.
-/

namespace Calendar

def isLeap (year : ℕ) : Bool := year % 4 = 0 && (year % 100 ≠ 0 || year % 400 = 0)

def yearOf (k : ℕ) : ℕ := 1970 + k / 12

def monthOf (k : ℕ) : ℕ := k % 12 + 1

/-- How many days a month has. -/
def monthLength (k : ℕ) : ℕ :=
  if monthOf k = 2 then (if isLeap (yearOf k) then 29 else 28)
  else if monthOf k = 4 ∨ monthOf k = 6 ∨ monthOf k = 9 ∨ monthOf k = 11 then 30
  else 31

/-- The first day of a month. -/
def monthStart : ℕ → ℕ
  | 0 => 0
  | k + 1 => monthStart k + monthLength k

theorem monthStart_succ (k : ℕ) : monthStart (k + 1) = monthStart k + monthLength k := rfl

theorem monthLength_bounds (k : ℕ) : 28 ≤ monthLength k ∧ monthLength k ≤ 31 := by
  unfold monthLength
  split_ifs <;> omega

theorem monthStart_strictMono : StrictMono monthStart := by
  apply strictMono_nat_of_lt_succ
  intro k
  have h := monthLength_bounds k
  rw [monthStart_succ]
  omega

def monthIndex (day : ℕ) : ℕ := Nat.findGreatest (fun k => monthStart k ≤ day) day

theorem monthStart_monthIndex_le (day : ℕ) : monthStart (monthIndex day) ≤ day :=
  Nat.findGreatest_spec (P := fun k => monthStart k ≤ day) (Nat.zero_le day) (Nat.zero_le day)

/-- The day of the month; the first is 1. -/
def dayOfMonth (day : ℕ) : ℕ := day - monthStart (monthIndex day) + 1

example : monthStart (12 * 50 + 2) = 18322 := by decide +kernel

end Calendar
