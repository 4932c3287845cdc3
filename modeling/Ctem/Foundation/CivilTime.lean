import Mathlib.Order.Basic
import Mathlib.Tactic.Cases
import Mathlib.Tactic.SplitIfs

/-!
# Civil time

The calendar of a millisecond count, in the proleptic Gregorian calendar and without leap
seconds.  Days are counted from 1 January of the year 0.

* `yearOfDay` is the year a day is in: the last one that does not begin behind it.
* `CivilTime` is a date and a time of day, with the ranges of its parts as fields.
* `toMillis_ofMillis`: the parts of a count determine it.
-/

namespace Ctem
namespace Foundation

/-! ## Years -/

/-- The days before the first one of a year. -/
def dayFromYear (y : Nat) : Nat :=
  365 * y + (y + 3) / 4 - (y + 99) / 100 + (y + 399) / 400

def IsLeapYear (y : Nat) : Prop :=
  y % 4 = 0 ∧ (y % 100 ≠ 0 ∨ y % 400 = 0)

instance (y : Nat) : Decidable (IsLeapYear y) := by
  unfold IsLeapYear
  infer_instance

/-- One in a leap year. -/
def leapDay (y : Nat) : Nat :=
  if IsLeapYear y then 1 else 0

theorem leapDay_le (y : Nat) : leapDay y ≤ 1 := by
  unfold leapDay
  split <;> omega

theorem dayFromYear_succ (y : Nat) : dayFromYear (y + 1) = dayFromYear y + 365 + leapDay y := by
  have hfour : (y + 1 + 3) / 4 = (y + 3) / 4 + if y % 4 = 0 then 1 else 0 := by
    split <;> omega
  have hhundred : (y + 1 + 99) / 100 = (y + 99) / 100 + if y % 100 = 0 then 1 else 0 := by
    split <;> omega
  have hlong : (y + 1 + 399) / 400 = (y + 399) / 400 + if y % 400 = 0 then 1 else 0 := by
    split <;> omega
  have hmore : (y + 99) / 100 ≤ (y + 3) / 4 := by omega
  have hdivides : (y % 400 = 0 → y % 100 = 0) ∧ (y % 100 = 0 → y % 4 = 0) := by omega
  unfold dayFromYear leapDay IsLeapYear
  rw [hfour, hhundred, hlong]
  generalize (y + 3) / 4 = a at hmore ⊢
  generalize (y + 99) / 100 = b at hmore ⊢
  by_cases hquad : y % 4 = 0
  · by_cases hcentury : y % 100 = 0
    · by_cases hcycle : y % 400 = 0
      · simp only [hquad, hcentury, hcycle, ne_eq, not_true_eq_false, or_true, and_true, if_true]
        omega
      · simp only [hquad, hcentury, hcycle, ne_eq, not_true_eq_false, or_false, and_false,
          if_true, if_false]
        omega
    · have hcycle : ¬ y % 400 = 0 := fun h => hcentury (hdivides.1 h)
      simp only [hquad, hcentury, hcycle, ne_eq, not_false_eq_true, true_or, and_true,
        if_true, if_false]
      omega
  · have hcentury : ¬ y % 100 = 0 := fun h => hquad (hdivides.2 h)
    have hcycle : ¬ y % 400 = 0 := fun h => hcentury (hdivides.1 h)
    simp only [hquad, hcentury, hcycle, false_and, if_false]
    omega

/-- A year begins within two days of where the mean year puts it. -/
theorem dayFromYear_bounds (y : Nat) :
    146097 * y ≤ 400 * dayFromYear y + 396 ∧ 400 * dayFromYear y ≤ 146097 * y + 699 := by
  unfold dayFromYear
  omega

/-- The year of a day.  The mean year is right up to a year. -/
def yearOfDay (n : Nat) : Nat :=
  let y := n * 400 / 146097
  if n < dayFromYear y then y - 1 else if dayFromYear (y + 1) ≤ n then y + 1 else y

theorem yearOfDay_spec (n : Nat) :
    dayFromYear (yearOfDay n) ≤ n ∧ n < dayFromYear (yearOfDay n + 1) := by
  unfold yearOfDay
  simp only
  generalize hmean : n * 400 / 146097 = y
  have hy := dayFromYear_bounds y
  split_ifs with hbefore hbehind
  · have hzero : y ≠ 0 := by
      rintro rfl
      exact Nat.not_lt_zero n hbefore
    have hprev := dayFromYear_bounds (y - 1)
    rw [Nat.sub_add_cancel (Nat.one_le_iff_ne_zero.mpr hzero)]
    omega
  · have hnext := dayFromYear_bounds (y + 1 + 1)
    omega
  · omega

/-- The day of the year of a day. -/
def dayOfYear (n : Nat) : Nat :=
  n - dayFromYear (yearOfDay n)

theorem dayOfYear_lt (n : Nat) : dayOfYear n < 365 + leapDay (yearOfDay n) := by
  have hspec := yearOfDay_spec n
  rw [dayFromYear_succ] at hspec
  unfold dayOfYear
  omega

/-! ## Months -/

/-- The days of a common year before a month; the thirteenth is the next year. -/
def monthStarts : List Nat :=
  [0, 0, 31, 59, 90, 120, 151, 181, 212, 243, 273, 304, 334]

/-- The days of the year before a month. -/
def monthStart (leap month : Nat) : Nat :=
  monthStarts.getD month 365 + if 2 < month then leap else 0

def monthLength (leap month : Nat) : Nat :=
  monthStart leap (month + 1) - monthStart leap month

/-- The last of the months from `month` on, `later` of them behind it, that begins by the day. -/
def monthFrom (leap d : Nat) : Nat → Nat → Nat
  | 0, month => month
  | later + 1, month =>
      if d < monthStart leap (month + 1) then month else monthFrom leap d later (month + 1)

/-- The month of a day of the year. -/
def monthOfDay (leap d : Nat) : Nat :=
  monthFrom leap d 11 1

theorem monthFrom_spec {leap d : Nat} (later month : Nat) (hbegun : monthStart leap month ≤ d)
    (hend : d < monthStart leap (month + later + 1)) :
    (month ≤ monthFrom leap d later month ∧ monthFrom leap d later month ≤ month + later) ∧
      monthStart leap (monthFrom leap d later month) ≤ d ∧
        d < monthStart leap (monthFrom leap d later month + 1) := by
  induction later generalizing month with
  | zero => exact ⟨⟨Nat.le_refl _, Nat.le_refl _⟩, hbegun, hend⟩
  | succ later ih =>
      unfold monthFrom
      by_cases hnext : d < monthStart leap (month + 1)
      · rw [if_pos hnext]
        exact ⟨⟨Nat.le_refl _, by omega⟩, hbegun, hnext⟩
      · rw [if_neg hnext]
        have hsum : month + 1 + later + 1 = month + (later + 1) + 1 := by omega
        obtain ⟨⟨hfirst, hlast⟩, hspec⟩ := ih (month + 1) (Nat.not_lt.mp hnext) (hsum ▸ hend)
        exact ⟨⟨by omega, by omega⟩, hspec⟩

theorem monthOfDay_spec {leap d : Nat} (hd : d < 365 + leap) :
    (1 ≤ monthOfDay leap d ∧ monthOfDay leap d ≤ 12) ∧
      monthStart leap (monthOfDay leap d) ≤ d ∧ d < monthStart leap (monthOfDay leap d + 1) :=
  monthFrom_spec 11 1 (Nat.zero_le d) hd

theorem dayOfMonth_range {leap d : Nat} (hd : d < 365 + leap) :
    1 ≤ d - monthStart leap (monthOfDay leap d) + 1 ∧
      d - monthStart leap (monthOfDay leap d) + 1 ≤ monthLength leap (monthOfDay leap d) := by
  have hmonth := (monthOfDay_spec hd).2
  unfold monthLength
  omega

/-! ## Dates and times -/

/-- A date and a time of day. -/
structure CivilTime where
  year : Nat
  month : Nat
  day : Nat
  hour : Nat
  minute : Nat
  second : Nat
  millisecond : Nat
  month_range : 1 ≤ month ∧ month ≤ 12
  day_range : 1 ≤ day ∧ day ≤ monthLength (leapDay year) month
  hour_lt : hour < 24
  minute_lt : minute < 60
  second_lt : second < 60
  millisecond_lt : millisecond < 1000

def millisPerDay : Nat := 86400000

namespace CivilTime

/-- The days before the date. -/
def dayNumber (c : CivilTime) : Nat :=
  dayFromYear c.year + monthStart (leapDay c.year) c.month + (c.day - 1)

/-- The milliseconds of the day before the time. -/
def timeOfDay (c : CivilTime) : Nat :=
  ((c.hour * 60 + c.minute) * 60 + c.second) * 1000 + c.millisecond

def toMillis (c : CivilTime) : Nat :=
  c.dayNumber * millisPerDay + c.timeOfDay

/-- The date and the time of a count. -/
def ofMillis (t : Nat) : CivilTime :=
  let n := t / millisPerDay
  let r := t % millisPerDay
  let leap := leapDay (yearOfDay n)
  { year := yearOfDay n
    month := monthOfDay leap (dayOfYear n)
    day := dayOfYear n - monthStart leap (monthOfDay leap (dayOfYear n)) + 1
    hour := r / 3600000
    minute := r / 60000 % 60
    second := r / 1000 % 60
    millisecond := r % 1000
    month_range := (monthOfDay_spec (dayOfYear_lt n)).1
    day_range := dayOfMonth_range (dayOfYear_lt n)
    hour_lt := by
      have hr : r < 86400000 := Nat.mod_lt _ (by decide)
      omega
    minute_lt := Nat.mod_lt _ (by decide)
    second_lt := Nat.mod_lt _ (by decide)
    millisecond_lt := Nat.mod_lt _ (by decide) }

theorem dayNumber_ofMillis (t : Nat) : (ofMillis t).dayNumber = t / millisPerDay := by
  have hyear := (yearOfDay_spec (t / millisPerDay)).1
  have hmonth := (monthOfDay_spec (dayOfYear_lt (t / millisPerDay))).2.1
  have hday : dayOfYear (t / millisPerDay) =
      t / millisPerDay - dayFromYear (yearOfDay (t / millisPerDay)) := rfl
  unfold dayNumber ofMillis
  simp only
  omega

theorem timeOfDay_ofMillis (t : Nat) : (ofMillis t).timeOfDay = t % millisPerDay := by
  have hr : t % millisPerDay < millisPerDay := Nat.mod_lt _ (by decide)
  unfold timeOfDay ofMillis
  simp only
  generalize t % millisPerDay = r at hr ⊢
  unfold millisPerDay at hr
  omega

/-- **The parts of a count.** -/
theorem toMillis_ofMillis (t : Nat) : (ofMillis t).toMillis = t := by
  unfold toMillis
  rw [dayNumber_ofMillis, timeOfDay_ofMillis]
  exact Nat.div_add_mod' t millisPerDay

/-- Before the year 10000 a year has four digits. -/
theorem year_ofMillis_lt {t : Nat} (h : t < dayFromYear 10000 * millisPerDay) :
    (ofMillis t).year < 10000 := by
  have hday : t / millisPerDay < dayFromYear 10000 := Nat.div_lt_of_lt_mul (by rwa [Nat.mul_comm])
  have hspec := (yearOfDay_spec (t / millisPerDay)).1
  change yearOfDay (t / millisPerDay) < 10000
  by_contra hlarge
  have hmono : dayFromYear 10000 ≤ dayFromYear (yearOfDay (t / millisPerDay)) := by
    generalize yearOfDay (t / millisPerDay) = y at hlarge ⊢
    unfold dayFromYear
    omega
  omega

end CivilTime

end Foundation
end Ctem
