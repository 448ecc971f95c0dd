import Mathlib.Logic.Function.Iterate
import Mathlib.Tactic

/-!
# The Gregorian calendar

Dates of the calendar, extended to all years, and the days between them.  A date after a number of
days is what counting one day at a time from the first of January 1970 gives; the day count of a
date is a formula for this number.
-/

namespace Calendar

/-- A year with a 29th of February. -/
def isLeap (year : Int) : Bool := decide (4 ∣ year ∧ (¬100 ∣ year ∨ 400 ∣ year))

/-- The days of a year. -/
def yearLength (year : Int) : Nat := if isLeap year then 366 else 365

/-- The days of a month; January is month 0. -/
def monthLength (leap : Bool) : Nat → Nat
  | 1 => if leap then 29 else 28
  | 3 | 5 | 8 | 10 => 30
  | _ => 31

/-- The days before a month. -/
def monthStart (leap : Bool) : Nat → Nat
  | 0 => 0
  | month + 1 => monthStart leap month + monthLength leap month

/-- The days before a year. -/
def yearStart (year : Int) : Int :=
  365 * year + (year - 1) / 4 - (year - 1) / 100 + (year - 1) / 400

theorem monthLength_pos (leap : Bool) (month : Nat) : 0 < monthLength leap month := by
  rw [monthLength.eq_def]
  split <;> (try split) <;> decide

theorem monthStart_twelve (year : Int) : monthStart (isLeap year) 12 = yearLength year := by
  rw [yearLength]
  cases isLeap year <;> rfl

theorem yearStart_succ (year : Int) : yearStart (year + 1) = yearStart year + yearLength year := by
  simp only [yearStart, yearLength, isLeap, decide_eq_true_eq]
  split <;> push_cast <;> omega

theorem yearStart_mono {year year' : Int} (le : year ≤ year') :
    yearStart year ≤ yearStart year' := by
  simp only [yearStart]
  omega

theorem yearLength_bounds (year : Int) : 365 ≤ yearLength year ∧ yearLength year ≤ 366 := by
  rw [yearLength]
  split <;> decide

theorem yearStart_add_le {year year' : Int} (before : year < year') :
    yearStart year + 365 ≤ yearStart year' := by
  have bounds := yearLength_bounds year
  have step := yearStart_succ year
  have le := yearStart_mono (Int.add_one_le_of_lt before)
  omega

theorem yearLength_add_succ (year : Int) : yearLength year + yearLength (year + 1) ≤ 731 := by
  simp only [yearLength, isLeap, decide_eq_true_eq]
  split <;> split <;> omega

theorem yearStart_add (year : Int) (years : Nat) :
    yearStart year + 365 * years ≤ yearStart (year + years) ∧
      yearStart (year + years) ≤ yearStart year + 366 * years := by
  induction years with
  | zero => simp
  | succ years induction =>
      have bounds := yearLength_bounds (year + years)
      have step := yearStart_succ (year + years)
      rw [Nat.cast_succ, ← Int.add_assoc, step]
      omega

theorem year_unique {year year' day day' : Int} (pos : 0 ≤ day) (lt : day < yearLength year)
    (pos' : 0 ≤ day') (lt' : day' < yearLength year')
    (same : yearStart year + day = yearStart year' + day') : year = year' ∧ day = day' := by
  have start := yearStart_succ year
  have start' := yearStart_succ year'
  rcases lt_trichotomy year year' with before | rfl | before
  · have := yearStart_mono (Int.add_one_le_of_lt before)
    omega
  · exact ⟨rfl, Int.add_left_cancel same⟩
  · have := yearStart_mono (Int.add_one_le_of_lt before)
    omega

/-- A date; January is month 0. -/
structure Date where
  year : Int
  month : Nat
  day : Nat
  month_lt : month < 12
  day_pos : 0 < day
  day_le : day ≤ monthLength (isLeap year) month

namespace Date

/-- The day of the year; the first of January is day 0. -/
def yday (date : Date) : Nat := monthStart (isLeap date.year) date.month + (date.day - 1)

/-- The days since the first of January 1970. -/
def dayCount (date : Date) : Int := yearStart date.year - yearStart 1970 + date.yday

/-- The day after. -/
def next (date : Date) : Date :=
  if more : date.day < monthLength (isLeap date.year) date.month then
    { date with day := date.day + 1, day_pos := Nat.succ_pos _, day_le := more }
  else if early : date.month < 11 then
    ⟨date.year, date.month + 1, 1, Nat.succ_lt_succ early, Nat.one_pos, monthLength_pos _ _⟩
  else ⟨date.year + 1, 0, 1, by decide, Nat.one_pos, monthLength_pos _ _⟩

/-- The day before. -/
def previous (date : Date) : Date :=
  if more : 1 < date.day then
    { date with
      day := date.day - 1, day_pos := Nat.sub_pos_of_lt more
      day_le := (Nat.sub_le _ _).trans date.day_le }
  else if date.month ≠ 0 then
    ⟨date.year, date.month - 1, _, (Nat.sub_le _ _).trans_lt date.month_lt, monthLength_pos _ _,
      le_rfl⟩
  else ⟨date.year - 1, 11, _, by decide, monthLength_pos _ _, le_rfl⟩

theorem monthStart_le (date : Date) :
    monthStart (isLeap date.year) (date.month + 1) ≤ yearLength date.year := by
  have mono : Monotone (monthStart (isLeap date.year)) :=
    monotone_nat_of_le_succ fun _ => Nat.le_add_right _ _
  rw [← monthStart_twelve]
  exact mono date.month_lt

theorem yday_lt (date : Date) : date.yday < yearLength date.year := by
  have le := date.monthStart_le
  have day_pos := date.day_pos
  have day_le := date.day_le
  simp only [monthStart, yday] at le ⊢
  omega

theorem dayCount_next (date : Date) : date.next.dayCount = date.dayCount + 1 := by
  have day_pos := date.day_pos
  have day_le := date.day_le
  rw [next]
  split
  · simp only [dayCount, yday]
    omega
  split
  · simp only [dayCount, yday, monthStart]
    omega
  · have month_eq : date.month = 11 := by
      have := date.month_lt
      omega
    have whole : monthStart (isLeap date.year) 11 + monthLength (isLeap date.year) 11 =
        yearLength date.year := monthStart_twelve date.year
    simp only [dayCount, yday, yearStart_succ, month_eq, monthStart] at *
    omega

theorem dayCount_previous (date : Date) : date.previous.dayCount = date.dayCount + -1 := by
  have day_pos := date.day_pos
  rw [previous]
  split
  · simp only [dayCount, yday]
    omega
  split
  · have month_eq : date.month = date.month - 1 + 1 := by omega
    have step : monthStart (isLeap date.year) date.month =
        monthStart (isLeap date.year) (date.month - 1) +
          monthLength (isLeap date.year) (date.month - 1) := by
      rw [month_eq]
      rfl
    have pos := monthLength_pos (isLeap date.year) (date.month - 1)
    simp only [dayCount, yday]
    omega
  · have month_zero : monthStart (isLeap date.year) date.month = 0 := by
      rw [show date.month = 0 by omega]
      rfl
    have start := yearStart_succ (date.year - 1)
    rw [Int.sub_add_cancel] at start
    have whole : monthStart (isLeap (date.year - 1)) 11 + monthLength (isLeap (date.year - 1)) 11 =
        yearLength (date.year - 1) := monthStart_twelve _
    have pos := monthLength_pos (isLeap (date.year - 1)) 11
    simp only [dayCount, yday]
    omega

end Date

/-- The first of January 1970. -/
def epoch : Date := ⟨1970, 0, 1, by decide, Nat.one_pos, by decide⟩

/-- The date after a number of days from the first of January 1970, which may be negative. -/
def dateAfter : Int → Date
  | .ofNat days => Date.next^[days] epoch
  | .negSucc days => Date.previous^[days + 1] epoch

theorem dayCount_iterate {step : Date → Date} {change : Int}
    (changes : ∀ date, (step date).dayCount = date.dayCount + change) (times : Nat) (date : Date) :
    (step^[times] date).dayCount = date.dayCount + times * change := by
  induction times with
  | zero => simp
  | succ times induction =>
      rw [Function.iterate_succ_apply', changes, induction]
      push_cast
      ring

theorem dayCount_dateAfter (days : Int) : (dateAfter days).dayCount = days := by
  have start : epoch.dayCount = 0 := rfl
  cases days with
  | ofNat days =>
      rw [dateAfter, dayCount_iterate Date.dayCount_next, start, Int.ofNat_eq_natCast]
      omega
  | negSucc days =>
      rw [dateAfter, dayCount_iterate Date.dayCount_previous, start, Int.negSucc_eq]
      push_cast
      omega

end Calendar
