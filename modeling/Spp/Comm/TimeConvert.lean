import Spp.Lib.Calendar
import Spp.Lib.MachineInt

/-!
# Calendar time, `time_convert`

`comm/tbase/time_convert.cpp` converts a time in seconds to the fields of `struct tm`, at an offset
to the seconds since 1970.  It guesses the year by years of 365 days and corrects the guess by the
leap days until the day is in the year.

All operations are on 64-bit integers, and one whose value does not fit is a failure (`none`).  A
quotient is rounded towards zero.
-/

namespace Spp

/-- `struct tm` -/
structure Tm where
  sec : Int
  min : Int
  hour : Int
  mday : Int
  mon : Int
  year : Int
  wday : Int
  yday : Int

namespace TimeConvert

/-! ## The conversion -/

/-- `__isleap` -/
def isleap (y : Int) : Bool := y.tmod 4 = 0 ∧ (y.tmod 100 ≠ 0 ∨ y.tmod 400 = 0)

/-- `DIV` -/
def div (a b : Int) : Int := a.tdiv b - if a.tmod b < 0 then 1 else 0

/-- `LEAPS_THRU_END_OF` -/
def leapsThruEndOf (y : Int) : Int := div y 4 - div y 100 + div y 400

/-- `__mon_yday` -/
def monYday (leap : Bool) (month : Nat) : Nat :=
  if leap then [0, 31, 60, 91, 121, 152, 182, 213, 244, 274, 305, 335, 366].getD month 0
  else [0, 31, 59, 90, 120, 151, 181, 212, 243, 273, 304, 334, 365].getD month 0

/-- The loop for an offset that goes back behind the day. -/
def carryDown (days rem : Int) : Int × Int :=
  if rem < 0 then carryDown (days - 1) (rem + 86400) else (days, rem)
termination_by (-rem).toNat

/-- The loop for an offset that goes beyond the day. -/
def carryUp (days rem : Int) : Int × Int :=
  if 86400 ≤ rem then carryUp (days + 1) (rem - 86400) else (days, rem)
termination_by rem.toNat

/-- The day is not one of the year. -/
def Outside (days y : Int) : Prop := days < 0 ∨ (if isleap y then 366 else 365) ≤ days

instance (days y : Int) : Decidable (Outside days y) := instDecidableOr

/-- The year that a round guesses. -/
def guess (days y : Int) : Int := y + days.tdiv 365 - if days.tmod 365 < 0 then 1 else 0

/-- The days that are left after a round. -/
def adjust (days y : Int) : Int :=
  days - ((guess days y - y) * 365 + leapsThruEndOf (guess days y - 1) - leapsThruEndOf (y - 1))

/-- All that a round computes. -/
def roundValues (days y : Int) : List Int :=
  let yg := guess days y
  [y + days.tdiv 365, yg, yg - y, (yg - y) * 365, yg - 1, leapsThruEndOf (yg - 1),
    (yg - y) * 365 + leapsThruEndOf (yg - 1), y - 1, leapsThruEndOf (y - 1),
    (yg - y) * 365 + leapsThruEndOf (yg - 1) - leapsThruEndOf (y - 1), adjust days y]

theorem div_eq (a : Int) {b : Int} (pos : 0 < b) : div a b = a / b := by
  have nonneg := Int.emod_nonneg a pos.ne'
  have lt := Int.emod_lt_of_pos a pos
  have abs : (b.natAbs : Int) = b := Int.natAbs_of_nonneg pos.le
  rw [div, Int.tdiv_eq_ediv, Int.tmod_eq_emod, Int.sign_eq_one_of_pos pos]
  by_cases exact : 0 ≤ a ∨ b ∣ a
  · rw [if_pos exact, if_neg (by rw [if_pos exact]; omega)]
    omega
  · rw [if_neg exact, if_pos (by rw [if_neg exact]; omega)]
    omega

theorem isleap_eq (y : Int) : isleap y = Calendar.isLeap y := by
  simp only [isleap, Calendar.isLeap, Int.dvd_iff_tmod_eq_zero, ne_eq]

theorem leapsThruEndOf_eq (y : Int) : leapsThruEndOf y = y / 4 - y / 100 + y / 400 := by
  rw [leapsThruEndOf, div_eq _ (by decide), div_eq _ (by decide), div_eq _ (by decide)]

theorem outside_iff (days y : Int) :
    Outside days y ↔ days < 0 ∨ (Calendar.yearLength y : Int) ≤ days := by
  rw [Outside, isleap_eq, Calendar.yearLength]
  split <;> rfl

theorem guess_eq (days y : Int) : guess days y = y + days / 365 := by
  rw [guess, Int.add_sub_assoc, ← div_eq days (by decide)]
  rfl

theorem adjust_eq (days y : Int) :
    adjust days y = days - (Calendar.yearStart (guess days y) - Calendar.yearStart y) := by
  rw [adjust, leapsThruEndOf_eq, leapsThruEndOf_eq, Calendar.yearStart, Calendar.yearStart]
  omega

theorem adjust_descends {days y : Int} (outside : Outside days y) :
    ¬Outside (adjust days y) (guess days y) ∨ (adjust days y).natAbs < days.natAbs := by
  have length := Calendar.yearLength_bounds y
  rw [outside_iff] at outside ⊢
  rw [adjust_eq, guess_eq]
  rcases outside with negative | beyond
  · obtain ⟨years, years_eq⟩ : ∃ years : Nat, days / 365 = -(years : Int) :=
      ⟨(-(days / 365)).toNat, by omega⟩
    rw [years_eq, ← Int.sub_eq_add_neg]
    -- going back by one or two years can leave as many days as before
    obtain rfl | rfl | many : years = 1 ∨ years = 2 ∨ 3 ≤ years := by omega
    · have step := Calendar.yearStart_succ (y - 1)
      have length := Calendar.yearLength_bounds (y - 1)
      rw [Int.sub_add_cancel] at step
      rw [Nat.cast_one]
      omega
    · have step := Calendar.yearStart_succ (y - 2)
      have step' := Calendar.yearStart_succ (y - 2 + 1)
      have two := Calendar.yearLength_add_succ (y - 2)
      have length := Calendar.yearLength_bounds (y - 2)
      have length' := Calendar.yearLength_bounds (y - 2 + 1)
      rw [show y - 2 + 1 + 1 = y by omega] at step'
      rw [Nat.cast_ofNat]
      omega
    · have bounds := Calendar.yearStart_add (y - years) years
      rw [Int.sub_add_cancel] at bounds
      omega
  · obtain ⟨years, years_eq⟩ : ∃ years : Nat, days / 365 = years :=
      ⟨(days / 365).toNat, by omega⟩
    have bounds := Calendar.yearStart_add y years
    rw [years_eq]
    omega

/-- The loop over the years. -/
def yearLoop (days y : Int) : Option (Int × Int) :=
  if Outside days y then
    if ∀ value ∈ roundValues days y, int64 value = some value then
      yearLoop (adjust days y) (guess days y)
    else none
  else some (days, y)
termination_by if Outside days y then days.natAbs + 1 else 0
decreasing_by
  rename_i outside _
  rw [if_pos outside]
  split
  case isTrue again =>
    exact Nat.succ_lt_succ ((adjust_descends outside).resolve_left (not_not.2 again))
  case isFalse => exact Nat.succ_pos _

/-- The loop over the months. -/
def monthLoop (leap : Bool) (days : Int) : Nat → Option Nat
  | 0 => if days < monYday leap 0 then none else some 0
  | y + 1 => if days < monYday leap (y + 1) then monthLoop leap days y else some (y + 1)

end TimeConvert

open TimeConvert

/-- `time_convert`: what it returns, and `*tp` after it. -/
def timeConvert (t offset : Int) (tp : Tm) : Option (Int × Tm) := do
  let rem ← int64 (t.tmod 86400 + offset)
  let (days, rem) := carryDown (t.tdiv 86400) rem
  let (days, rem) := carryUp days rem
  let tp := { tp with
    hour := rem.tdiv 3600, min := (rem.tmod 3600).tdiv 60, sec := (rem.tmod 3600).tmod 60 }
  let wday := (4 + days).tmod 7
  let tp := { tp with wday := if wday < 0 then wday + 7 else wday }
  let (days, y) ← yearLoop days 1970
  let tp := { tp with year := i32 (y - 1900) }
  if tp.year ≠ y - 1900 then
    return (0, tp)
  let mon ← monthLoop (isleap y) days 11
  return (1, { tp with yday := days, mon := mon, mday := days - monYday (isleap y) mon + 1 })

/-- `localtime_r_nl`: the result, unless it returns `NULL`. -/
def localtimeRNl (timep : Int) (result : Tm) : Option (Option Tm) :=
  (timeConvert timep 28800 result).map fun (ret, result) => if ret ≠ 0 then some result else none

/-! ## The result -/

/-- The fields of `struct tm` at a number of seconds after the beginning of 1970. -/
def calendarTime (seconds : Int) : Tm :=
  let date := Calendar.dateAfter (seconds / 86400)
  { sec := seconds % 60
    min := seconds % 3600 / 60
    hour := seconds % 86400 / 3600
    mday := date.day
    mon := date.month
    year := date.year - 1900
    wday := (seconds / 86400 + 4) % 7
    yday := date.yday }

namespace Tm

/-- The day of the year by the month and the day of the month. -/
def monthDay (tm : Tm) : Int :=
  Calendar.monthStart (Calendar.isLeap (tm.year + 1900)) tm.mon.toNat + (tm.mday - 1)

/-- The days since 1970 by the date. -/
def dayCount (tm : Tm) : Int :=
  Calendar.yearStart (tm.year + 1900) - Calendar.yearStart 1970 + tm.monthDay

/-- The seconds since 1970 by the date and the time. -/
def seconds (tm : Tm) : Int := tm.dayCount * 86400 + tm.hour * 3600 + tm.min * 60 + tm.sec

/-- The fields are in their ranges, and the days of the year and of the week are those of the
date. -/
structure Valid (tm : Tm) : Prop where
  sec_range : 0 ≤ tm.sec ∧ tm.sec < 60
  min_range : 0 ≤ tm.min ∧ tm.min < 60
  hour_range : 0 ≤ tm.hour ∧ tm.hour < 24
  mon_range : 0 ≤ tm.mon ∧ tm.mon < 12
  mday_range : 1 ≤ tm.mday ∧
    tm.mday ≤ Calendar.monthLength (Calendar.isLeap (tm.year + 1900)) tm.mon.toNat
  yday_eq : tm.yday = tm.monthDay
  wday_eq : tm.wday = (tm.dayCount + 4) % 7

end Tm

namespace TimeConvert

theorem monYday_eq {leap : Bool} {month : Nat} (lt : month < 12) :
    monYday leap month = Calendar.monthStart leap month := by
  have table : ∀ leap, ∀ month < 12, monYday leap month = Calendar.monthStart leap month := by
    decide
  exact table leap month lt

theorem carryDown_spec (days rem : Int) : 0 ≤ (carryDown days rem).2 ∧
    86400 * (carryDown days rem).1 + (carryDown days rem).2 = 86400 * days + rem := by
  fun_induction carryDown days rem with
  | case1 days rem negative induction | case2 days rem nonneg => omega

theorem carryUp_spec {days rem : Int} (nonneg : 0 ≤ rem) :
    0 ≤ (carryUp days rem).2 ∧ (carryUp days rem).2 < 86400 ∧
      86400 * (carryUp days rem).1 + (carryUp days rem).2 = 86400 * days + rem := by
  fun_induction carryUp days rem with
  | case1 days rem beyond induction =>
      have := induction (by omega)
      omega
  | case2 days rem within => omega

theorem int64_of_small {value : Int} (lower : -9000000000000000000 ≤ value)
    (upper : value ≤ 9000000000000000000) : int64 value = some value :=
  if_pos (by omega)

theorem leapsThruEndOf_bounds (y : Int) :
    -(y.natAbs : Int) - 1 ≤ leapsThruEndOf y ∧ leapsThruEndOf y ≤ y.natAbs + 1 := by
  rw [leapsThruEndOf_eq]
  omega

theorem roundValues_fit {days y : Int} (days_small : days.natAbs ≤ 1000000000000000)
    (y_small : y.natAbs ≤ 10000000000000) :
    ∀ value ∈ roundValues days y, int64 value = some value := by
  have trunc := Int.natAbs_tdiv_le_natAbs days 365
  have guessed := guess_eq days y
  have leaps := leapsThruEndOf_bounds (guess days y - 1)
  have leaps' := leapsThruEndOf_bounds (y - 1)
  intro value member
  simp only [roundValues, adjust, List.mem_cons, List.not_mem_nil, or_false] at member
  rcases member with rfl | rfl | rfl | rfl | rfl | rfl | rfl | rfl | rfl | rfl | rfl
  all_goals exact int64_of_small (by omega) (by omega)

theorem yearLoop_spec {days y : Int} (days_small : days.natAbs ≤ 200000000000000)
    (start_small : (Calendar.yearStart y + days).natAbs ≤ 200000000000000) :
    ∃ days' y', yearLoop days y = some (days', y') ∧ 0 ≤ days' ∧
      days' < Calendar.yearLength y' ∧
      Calendar.yearStart y' + days' = Calendar.yearStart y + days := by
  fun_induction yearLoop days y with
  | case1 days y outside fits induction =>
      have kept : Calendar.yearStart (guess days y) + adjust days y =
          Calendar.yearStart y + days := by
        rw [adjust_eq]
        omega
      have adjusted : (adjust days y).natAbs ≤ 200000000000000 := by
        rcases adjust_descends outside with inside | fewer
        · have length := Calendar.yearLength_bounds (guess days y)
          rw [outside_iff] at inside
          omega
        · omega
      rw [← kept] at start_small ⊢
      exact induction adjusted start_small
  | case2 days y outside overflow =>
      have y_small : y.natAbs ≤ 10000000000000 := by
        rw [Calendar.yearStart] at start_small
        omega
      exact absurd (roundValues_fit (by omega) y_small) overflow
  | case3 days y inside =>
      rw [outside_iff] at inside
      exact ⟨days, y, rfl, by omega, by omega, rfl⟩

theorem monthLoop_eq {leap : Bool} {days : Int} {month y : Nat} (le : month ≤ y) (lt : y < 12)
    (start : Calendar.monthStart leap month ≤ days)
    (before : days < Calendar.monthStart leap (month + 1)) :
    monthLoop leap days y = some month := by
  induction y with
  | zero =>
      obtain rfl := Nat.le_zero.1 le
      rw [monthLoop, monYday_eq lt, if_neg (not_lt.2 start)]
  | succ y induction =>
      rw [monthLoop, monYday_eq lt]
      obtain rfl | earlier := Nat.eq_or_lt_of_le le
      · rw [if_neg (not_lt.2 start)]
      · have mono : Monotone (Calendar.monthStart leap) :=
          monotone_nat_of_le_succ fun _ => Nat.le_add_right _ _
        have later : Calendar.monthStart leap (month + 1) ≤ Calendar.monthStart leap (y + 1) :=
          mono earlier
        rw [if_pos (by omega)]
        exact induction (Nat.le_of_lt_succ earlier) (Nat.lt_of_succ_lt lt)

theorem wday_eq (days : Int) :
    (if (4 + days).tmod 7 < 0 then (4 + days).tmod 7 + 7 else (4 + days).tmod 7) =
      (days + 4) % 7 := by
  rw [Int.tmod_eq_emod]
  split <;> split <;> omega

theorem carry_eq (t offset : Int) :
    let down := carryDown (t.tdiv 86400) (t.tmod 86400 + offset)
    carryUp down.1 down.2 = ((t + offset) / 86400, (t + offset) % 86400) := by
  intro down
  have whole := Int.mul_tdiv_add_tmod t 86400
  have down_spec : 0 ≤ down.2 ∧ 86400 * down.1 + down.2 = 86400 * t.tdiv 86400 + _ :=
    carryDown_spec _ _
  have up_spec := @carryUp_spec down.1 down.2 down_spec.1
  ext <;> dsimp only <;> omega

theorem yearLoop_date (date : Calendar.Date) (small : date.dayCount.natAbs < 100000000000000) :
    yearLoop date.dayCount 1970 = some ((date.yday : Int), date.year) := by
  have start : Calendar.yearStart 1970 = 719527 := by decide
  obtain ⟨days, y, returned, nonneg, lt, kept⟩ :=
    @yearLoop_spec date.dayCount 1970 (by omega) (by rw [start]; omega)
  have same : Calendar.yearStart y + days = Calendar.yearStart date.year + date.yday := by
    rw [kept, Calendar.Date.dayCount]
    omega
  obtain ⟨rfl, rfl⟩ := Calendar.year_unique nonneg lt (Int.natCast_nonneg date.yday)
    (Int.ofNat_lt.2 date.yday_lt) same
  exact returned

theorem monthLoop_date (date : Calendar.Date) :
    monthLoop (isleap date.year) date.yday 11 = some date.month := by
  have day_pos := date.day_pos
  have day_le := date.day_le
  have yday_eq : date.yday =
    Calendar.monthStart (Calendar.isLeap date.year) date.month + (date.day - 1) := rfl
  have next_month : Calendar.monthStart (Calendar.isLeap date.year) (date.month + 1) =
    Calendar.monthStart (Calendar.isLeap date.year) date.month +
      Calendar.monthLength (Calendar.isLeap date.year) date.month := rfl
  rw [isleap_eq]
  exact monthLoop_eq (Nat.le_of_lt_succ date.month_lt) (by decide) (by omega) (by omega)

theorem mday_date (date : Calendar.Date) :
    (date.yday : Int) - monYday (isleap date.year) date.month + 1 = date.day := by
  have day_pos := date.day_pos
  rw [isleap_eq, monYday_eq date.month_lt, Calendar.Date.yday]
  omega

theorem timeConvert_eq {t offset : Int} (small : t.natAbs + offset.natAbs < 2 ^ 62)
    (fits : i32 (calendarTime (t + offset)).year = (calendarTime (t + offset)).year) (tp : Tm) :
    timeConvert t offset tp = some (1, calendarTime (t + offset)) := by
  have rem_eq : int64 (t.tmod 86400 + offset) = some (t.tmod 86400 + offset) := by
    have lower := Int.lt_tmod_of_pos t (show (0 : Int) < 86400 by decide)
    have upper := Int.tmod_lt_of_pos t (show (0 : Int) < 86400 by decide)
    exact int64_of_small (by omega) (by omega)
  have count := Calendar.dayCount_dateAfter ((t + offset) / 86400)
  have year_eq := yearLoop_date (Calendar.dateAfter ((t + offset) / 86400)) (by omega)
  have month_eq := monthLoop_date (Calendar.dateAfter ((t + offset) / 86400))
  have mday_eq := mday_date (Calendar.dateAfter ((t + offset) / 86400))
  have time_nonneg := Int.emod_nonneg (t + offset) (show (86400 : Int) ≠ 0 by decide)
  have hour_nonneg := Int.emod_nonneg (t + offset) (show (3600 : Int) ≠ 0 by decide)
  have min_eq : (t + offset) % 86400 % 3600 = (t + offset) % 3600 :=
    Int.emod_emod_of_dvd _ (by decide)
  have sec_eq : (t + offset) % 3600 % 60 = (t + offset) % 60 := Int.emod_emod_of_dvd _ (by decide)
  rw [count] at year_eq
  rw [calendarTime] at fits ⊢
  simp only [timeConvert, rem_eq, Option.bind_eq_bind, Option.bind_some, carry_eq, wday_eq, year_eq,
    Int.tmod_eq_emod_of_nonneg time_nonneg, Int.tdiv_eq_ediv_of_nonneg time_nonneg,
    Int.tmod_eq_emod_of_nonneg hour_nonneg, Int.tdiv_eq_ediv_of_nonneg hour_nonneg, fits, ne_eq,
    not_true_eq_false, if_false, month_eq, mday_eq, min_eq, sec_eq]
  rfl

end TimeConvert

section Result

variable (seconds : Int)

theorem monthDay_calendarTime :
    (calendarTime seconds).monthDay = (Calendar.dateAfter (seconds / 86400)).yday := by
  have day_pos := (Calendar.dateAfter (seconds / 86400)).day_pos
  simp only [Tm.monthDay, calendarTime, Int.sub_add_cancel, Int.toNat_natCast, Calendar.Date.yday]
  omega

theorem dayCount_calendarTime : (calendarTime seconds).dayCount = seconds / 86400 := by
  rw [Tm.dayCount, monthDay_calendarTime]
  simp only [calendarTime, Int.sub_add_cancel]
  exact Calendar.dayCount_dateAfter _

theorem seconds_calendarTime : (calendarTime seconds).seconds = seconds := by
  rw [Tm.seconds, dayCount_calendarTime]
  simp only [calendarTime]
  omega

theorem valid_calendarTime : (calendarTime seconds).Valid where
  sec_range := by
    simp only [calendarTime]
    omega
  min_range := by
    simp only [calendarTime]
    omega
  hour_range := by
    simp only [calendarTime]
    omega
  mon_range := ⟨Int.natCast_nonneg _, Int.ofNat_lt.2 (Calendar.Date.month_lt _)⟩
  mday_range := by
    simp only [calendarTime, Int.sub_add_cancel, Int.toNat_natCast]
    exact ⟨Int.ofNat_le.2 (Calendar.Date.day_pos _), Int.ofNat_le.2 (Calendar.Date.day_le _)⟩
  yday_eq := (monthDay_calendarTime seconds).symm
  wday_eq := by
    rw [dayCount_calendarTime]
    rfl

end Result

/-- `time_convert` gives the date and the time of `t + offset`, if the year fits. -/
theorem timeConvert_calendarTime {t offset : Int} (small : t.natAbs + offset.natAbs < 2 ^ 62)
    (lower : -2147483648 ≤ (calendarTime (t + offset)).year)
    (upper : (calendarTime (t + offset)).year < 2147483648) (tp : Tm) :
    timeConvert t offset tp = some (1, calendarTime (t + offset)) ∧
      (calendarTime (t + offset)).Valid ∧ (calendarTime (t + offset)).seconds = t + offset := by
  have fits : i32 (calendarTime (t + offset)).year = (calendarTime (t + offset)).year := by
    unfold i32
    omega
  exact ⟨timeConvert_eq small fits tp, valid_calendarTime _, seconds_calendarTime _⟩

/-- The last second of 1969 was on a Wednesday. -/
theorem timeConvert_before_epoch :
    timeConvert (-1) 0 ⟨0, 0, 0, 0, 0, 0, 0, 0⟩ = some (1, ⟨59, 59, 23, 31, 11, 69, 3, 364⟩) :=
  (timeConvert_calendarTime (by decide) (by decide) (by decide) ⟨0, 0, 0, 0, 0, 0, 0, 0⟩).1

/-- `localtime_r_nl` is eight hours ahead, in all years that fit. -/
theorem localtimeRNl_eq {timep : Int} (small : timep.natAbs < 4000000000000000000)
    (fits : i32 (calendarTime (timep + 28800)).year = (calendarTime (timep + 28800)).year)
    (result : Tm) : localtimeRNl timep result = some (some (calendarTime (timep + 28800))) := by
  have converted : timeConvert timep 28800 result = some (1, calendarTime (timep + 28800)) :=
    timeConvert_eq (by omega) fits result
  rw [localtimeRNl, converted]
  rfl

/-- The evening of the last but one day of 1969, a Tuesday. -/
theorem localtimeRNl_eq_before_epoch :
    localtimeRNl (-118801) ⟨0, 0, 0, 0, 0, 0, 0, 0⟩ =
      some (some ⟨59, 59, 22, 30, 11, 69, 2, 363⟩) :=
  localtimeRNl_eq (by decide) (by decide) ⟨0, 0, 0, 0, 0, 0, 0, 0⟩

end Spp
