import Testplan.Timestamp
/-!
# Days and dates

A date is found from the number of its day in steps: the cycle of 400 years, the year of the
cycle, the month, the day.  Each step is found by a division that is only nearly right, so what
has to be shown of each is that the day lies between the first day of what was found and the
first day of what comes next (`yearOfCycle_spec`, `monthOfYear_spec`).  Then the date is one of
the calendar, and its day number is the one that it was found from (`dateOf_spec`).
-/
namespace Testplan.Timestamp

/-! ## Years -/

/-- The days of a cycle of 400 years, counted from March, before a year of the cycle. -/
def daysBefore (year : Nat) : Nat := 365 * year + year / 4 - year / 100 + year / 400

/-- The year of a cycle that a day of the cycle is in. -/
def yearOfCycle (day : Nat) : Nat := (day - day / 1460 + day / 36524 - day / 146096) / 365

theorem yearOfCycle_mono {a b : Nat} (h : a ≤ b) (hb : b < 146097) :
    yearOfCycle a ≤ yearOfCycle b := by
  have hfour : a - a / 1460 ≤ b - b / 1460 := by omega
  have hcentury : a / 36524 ≤ b / 36524 := by omega
  refine Nat.div_le_div_right ?_
  by_cases hlast : b = 146096
  · subst hlast
    omega
  · omega

theorem yearOfCycle_ends : ∀ year < 400, yearOfCycle (daysBefore year) = year ∧
    yearOfCycle (daysBefore (year + 1) - 1) = year := by
  decide +kernel

/-- **A day of the cycle is in its year.** -/
theorem yearOfCycle_spec {day : Nat} (h : day < 146097) :
    yearOfCycle day < 400 ∧ daysBefore (yearOfCycle day) ≤ day ∧
      day < daysBefore (yearOfCycle day + 1) := by
  have hyear : yearOfCycle day < 400 := by
    unfold yearOfCycle
    omega
  refine ⟨hyear, Nat.le_of_not_lt fun hbefore => ?_, Nat.lt_of_not_le fun hafter => ?_⟩
  · -- else the day is in the year before at the latest
    obtain ⟨y, hy⟩ : ∃ y, yearOfCycle day = y + 1 := by
      refine Nat.exists_eq_add_one.mpr (Nat.pos_of_ne_zero fun hzero => ?_)
      rw [hzero] at hbefore
      exact absurd hbefore (Nat.not_lt_zero _)
    rw [hy] at hbefore hyear
    have hends : daysBefore (y + 1) < 146097 := by
      unfold daysBefore
      omega
    have hle := yearOfCycle_mono (a := day) (b := daysBefore (y + 1) - 1) (by omega) (by omega)
    rw [(yearOfCycle_ends y (by omega)).2, hy] at hle
    omega
  · -- else the day is in the next year at the earliest
    by_cases hlast : yearOfCycle day + 1 < 400
    · have hle := yearOfCycle_mono hafter h
      rw [(yearOfCycle_ends _ hlast).1] at hle
      omega
    · have hend : yearOfCycle day + 1 = 400 := by omega
      rw [hend] at hafter
      exact absurd hafter (Nat.not_le_of_lt h)

/-- Only the last day of a leap year is the 366th, counted from March. -/
theorem daysBefore_succ (year : Nat) (h : year < 400) (cycle : Int) :
    daysBefore (year + 1) = daysBefore year +
      (if isLeapYear (year + cycle * 400 + 1) then 366 else 365) := by
  unfold isLeapYear daysBefore
  simp only [Bool.and_eq_true, Bool.or_eq_true, decide_eq_true_eq]
  split <;> omega

/-! ## Months -/

/-- The days of a year, counted from March, before a month. -/
def daysBeforeMonth (month : Nat) : Nat := (153 * month + 2) / 5

/-- The month of a year, counted from March, that a day of the year is in. -/
def monthOfYear (day : Nat) : Nat := (5 * day + 2) / 153

/-- **A day of the year is in its month.** -/
theorem monthOfYear_spec {day : Nat} (h : day < 366) :
    monthOfYear day < 12 ∧ daysBeforeMonth (monthOfYear day) ≤ day ∧
      day < daysBeforeMonth (monthOfYear day + 1) := by
  unfold monthOfYear daysBeforeMonth
  omega

/-! ## Dates -/

/-- The month of the calendar, which begins with January. -/
def calendarMonth (month : Nat) : Nat := if month < 10 then month + 3 else month - 9

/-- The year of the calendar that a month of a year counted from March is in. -/
def calendarYear (year : Int) (month : Nat) : Int :=
  if calendarMonth month ≤ 2 then year + 1 else year

/-- The day number of a date that is given by its place in a cycle. -/
theorem dayNumber_calendar (cycle : Int) {year month : Nat} (hyear : year < 400)
    (hmonth : month < 12) (day : Nat) :
    dayNumber (calendarYear (year + cycle * 400) month) (calendarMonth month) day =
      cycle * 146097 + daysBefore year + daysBeforeMonth month + day - 1 - 719468 := by
  have hback : (if calendarMonth month ≤ 2 then calendarYear (year + cycle * 400) month - 1
      else calendarYear (year + cycle * 400) month) = year + cycle * 400 := by
    unfold calendarYear
    split <;> omega
  have hcycle : (year + cycle * 400 : Int).fdiv 400 = cycle := by
    rw [Int.fdiv_eq_ediv_of_nonneg _ (by omega)]
    omega
  have hmarch : (calendarMonth month + 9) % 12 = month := by
    unfold calendarMonth
    split <;> omega
  unfold dayNumber
  dsimp only
  rw [hback, hcycle, hmarch]
  unfold daysBefore daysBeforeMonth
  omega

/-- The length of a month other than February. -/
theorem daysInMonth_calendar {month : Nat} (h : month < 11) (year : Int) :
    daysInMonth year (calendarMonth month) =
      daysBeforeMonth (month + 1) - daysBeforeMonth month := by
  have hlengths : ∀ m < 11, calendarMonth m ≠ 2 ∧ (if calendarMonth m = 4 ∨ calendarMonth m = 6 ∨
      calendarMonth m = 9 ∨ calendarMonth m = 11 then 30 else 31) =
        daysBeforeMonth (m + 1) - daysBeforeMonth m := by decide
  rw [daysInMonth, if_neg (hlengths month h).1, (hlengths month h).2]

/-- The last day of a month: that before the next month, but in February that before the next
year. -/
theorem le_daysInMonth {cycle : Int} {year month day : Nat} (hyear : year < 400)
    (hmonth : month < 12) (hday : daysBeforeMonth month + day ≤ daysBeforeMonth (month + 1))
    (hend : daysBefore year + daysBeforeMonth month + day ≤ daysBefore (year + 1)) :
    day ≤ daysInMonth (calendarYear (year + cycle * 400) month) (calendarMonth month) := by
  rw [daysBefore_succ year hyear cycle] at hend
  by_cases hlast : month = 11
  · subst hlast
    have hfebruary : calendarMonth 11 = 2 := rfl
    have hnext : calendarYear (year + cycle * 400) 11 = year + cycle * 400 + 1 := rfl
    rw [daysInMonth, hfebruary, hnext, if_pos rfl]
    unfold daysBeforeMonth at hend
    split at hend <;> simp only [*, if_true, if_false, Bool.false_eq_true] <;> omega
  · rw [daysInMonth_calendar (by omega)]
    omega

theorem daysInMonth_le (year : Int) (month : Nat) : daysInMonth year month ≤ 31 := by
  unfold daysInMonth
  split
  · split <;> decide
  · split <;> decide

/-- **Every day has a date of the calendar**, and is the day of this date. -/
theorem dateOf_spec (days : Int) : ∃ year month day, dateOf days = (year, month, day) ∧
    1 ≤ month ∧ month ≤ 12 ∧ 1 ≤ day ∧ day ≤ daysInMonth year month ∧
    dayNumber year month day = days := by
  have hdiv : (days + 719468).fdiv 146097 = (days + 719468) / 146097 :=
    Int.fdiv_eq_ediv_of_nonneg _ (by omega)
  obtain ⟨cycle, hcycle⟩ : ∃ cycle, (days + 719468).fdiv 146097 = cycle := ⟨_, rfl⟩
  obtain ⟨d, hd⟩ : ∃ d : Nat, (days + 719468 - cycle * 146097).toNat = d := ⟨_, rfl⟩
  obtain ⟨hdays, hlt⟩ : days = cycle * 146097 + d - 719468 ∧ d < 146097 := by omega
  obtain ⟨hyear, hfirst, hlast⟩ := yearOfCycle_spec hlt
  have hlength := daysBefore_succ (yearOfCycle d) hyear 0
  have hdayOfYear : d - daysBefore (yearOfCycle d) < 366 := by split at hlength <;> omega
  obtain ⟨hmonth, hfirstOfMonth, hlastOfMonth⟩ := monthOfYear_spec hdayOfYear
  have hdate : dateOf days =
      (calendarYear (yearOfCycle d + cycle * 400) (monthOfYear (d - daysBefore (yearOfCycle d))),
        calendarMonth (monthOfYear (d - daysBefore (yearOfCycle d))),
        d - daysBefore (yearOfCycle d) -
          daysBeforeMonth (monthOfYear (d - daysBefore (yearOfCycle d))) + 1) := by
    have hbefore : daysBefore (yearOfCycle d) =
        365 * yearOfCycle d + yearOfCycle d / 4 - yearOfCycle d / 100 := by
      unfold daysBefore
      omega
    rw [hbefore]
    unfold dateOf
    dsimp only
    rw [hcycle, hd]
    rfl
  generalize hm : monthOfYear (d - daysBefore (yearOfCycle d)) = month at *
  refine ⟨_, _, _, hdate, ?_, ?_, by omega, ?_, ?_⟩
  · unfold calendarMonth
    split <;> omega
  · unfold calendarMonth
    split <;> omega
  · exact le_daysInMonth hyear hmonth (by omega) (by omega)
  · rw [dayNumber_calendar cycle hyear hmonth]
    omega

end Testplan.Timestamp
