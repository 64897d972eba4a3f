import Mathlib.Data.Int.Order.Basic

/-!
# The proleptic Gregorian calendar

Dates, the number of days since 1970-01-01, weekdays, and the instants of a date in nanoseconds.

* `Date`, `Moment` — a date carries the proof that its month and day exist, a moment that its
  time of day does;
* `Date.toDays_injective`, `Moment.instant_injective` — dates and moments are told apart by their
  numbers;
* `exists_date` — every day of the year, 29 February included, falls on every weekday between 2000
  and 2024;
* `Moment.exists_later` — and does so again and again, every 400 years.
-/

set_option autoImplicit false

namespace Calendar

def isLeap (year : Int) : Bool := year % 4 == 0 && (year % 100 != 0 || year % 400 == 0)

def monthLength (leap : Bool) : Nat → Nat
  | 1 => 31
  | 2 => if leap then 29 else 28
  | 3 => 31
  | 4 => 30
  | 5 => 31
  | 6 => 30
  | 7 => 31
  | 8 => 31
  | 9 => 30
  | 10 => 31
  | 11 => 30
  | 12 => 31
  | _ => 0

/-- The days of a year before a month. -/
def daysBeforeMonth (leap : Bool) : Nat → Nat
  | 0 => 0
  | month + 1 => daysBeforeMonth leap month + monthLength leap month

/-- The days before a year, up to a constant. -/
def daysBeforeYear (year : Int) : Int :=
  365 * year + (year - 1) / 4 - (year - 1) / 100 + (year - 1) / 400

structure Date where
  year : Int
  month : Nat
  day : Nat
  month_pos : 1 ≤ month
  month_le : month ≤ 12
  day_pos : 1 ≤ day
  day_le : day ≤ monthLength (isLeap year) month

/-- Days since 1970-01-01. -/
def Date.toDays (x : Date) : Int :=
  daysBeforeYear x.year - daysBeforeYear 1970 + daysBeforeMonth (isLeap x.year) x.month + x.day - 1

/-- The weekday, 0 for Sunday; 1970-01-01 was a Thursday. -/
def Date.weekday (x : Date) : Nat := ((x.toDays + 4) % 7).toNat

/-- A date and a time of day. -/
structure Moment where
  date : Date
  hour : Nat
  minute : Nat
  second : Nat
  hour_lt : hour < 24
  minute_lt : minute < 60
  second_lt : second < 60

/-- Nanoseconds since 1970-01-01T00:00:00Z. -/
def Moment.instant (x : Moment) : Int :=
  (86400 * x.date.toDays + 3600 * x.hour + 60 * x.minute + x.second) * 1000000000

theorem Date.weekday_lt (x : Date) : x.weekday < 7 := by
  unfold Date.weekday
  omega

/-! ## Lengths -/

theorem monthLength_le_leap (leap : Bool) (month : Nat) :
    monthLength leap month ≤ monthLength true month := by
  cases leap with
  | true => exact Nat.le_refl _
  | false =>
    by_cases h : month = 2
    · subst h
      decide
    · unfold monthLength
      split <;> first | exact Nat.le_refl _ | contradiction

theorem daysBeforeMonth_mono (leap : Bool) {m n : Nat} (h : m ≤ n) :
    daysBeforeMonth leap m ≤ daysBeforeMonth leap n := by
  induction h with
  | refl => exact Nat.le_refl _
  | step _ ih => exact Nat.le_trans ih (Nat.le_add_right _ _)

theorem daysBeforeMonth_thirteen (leap : Bool) :
    daysBeforeMonth leap 13 = if leap then 366 else 365 := by
  cases leap <;> rfl

theorem daysBeforeYear_succ (year : Int) :
    daysBeforeYear (year + 1) = daysBeforeYear year + if isLeap year then 366 else 365 := by
  unfold daysBeforeYear isLeap
  by_cases h4 : year % 4 = 0
  · by_cases h100 : year % 100 = 0
    · by_cases h400 : year % 400 = 0
      · simp [h4, h400]
        omega
      · simp [h4, h100, h400]
        omega
    · simp [h4, h100]
      omega
  · simp [h4]
    omega

theorem daysBeforeYear_mono {y z : Int} (h : y ≤ z) : daysBeforeYear y ≤ daysBeforeYear z := by
  unfold daysBeforeYear
  rcases Int.lt_or_eq_of_le h with hlt | rfl
  · omega
  · omega

/-- A day of a month comes before the next month. -/
theorem Date.dayOfYear_le (x : Date) :
    daysBeforeMonth (isLeap x.year) x.month + x.day ≤
      daysBeforeMonth (isLeap x.year) (x.month + 1) :=
  Nat.add_le_add_left x.day_le _

/-- A date comes before the next year. -/
theorem Date.toDays_lt (x : Date) :
    x.toDays < daysBeforeYear (x.year + 1) - daysBeforeYear 1970 := by
  have hday := x.dayOfYear_le
  have hle := x.month_le
  have hmonth := daysBeforeMonth_mono (isLeap x.year) (show x.month + 1 ≤ 13 by omega)
  have hyear := daysBeforeMonth_thirteen (isLeap x.year)
  rw [daysBeforeYear_succ]
  unfold Date.toDays
  split at hyear <;> rename_i hleap <;> simp only [hleap, if_true] at * <;> omega

theorem Date.le_toDays (x : Date) : daysBeforeYear x.year - daysBeforeYear 1970 ≤ x.toDays := by
  have hday := x.day_pos
  unfold Date.toDays
  omega

/-! ## Dates by their number -/

/-- Two dates of different years have different numbers. -/
theorem Date.toDays_lt_of_year {x y : Date} (h : x.year < y.year) : x.toDays < y.toDays := by
  have hx := x.toDays_lt
  have hy := y.le_toDays
  have hmono := daysBeforeYear_mono (Int.add_one_le_of_lt h)
  omega

/-- Two dates of different months of a year have different numbers. -/
theorem Date.toDays_lt_of_month {x y : Date} (hyear : x.year = y.year) (h : x.month < y.month) :
    x.toDays < y.toDays := by
  have hx := x.dayOfYear_le
  have hmono := daysBeforeMonth_mono (isLeap x.year) (show x.month + 1 ≤ y.month from h)
  have hy := y.day_pos
  unfold Date.toDays
  rw [← hyear]
  omega

theorem Date.toDays_injective {x y : Date} (h : x.toDays = y.toDays) : x = y := by
  have hyear : x.year = y.year := by
    rcases Int.lt_trichotomy x.year y.year with hlt | heq | hlt
    · have := Date.toDays_lt_of_year hlt
      omega
    · exact heq
    · have := Date.toDays_lt_of_year hlt
      omega
  have hmonth : x.month = y.month := by
    rcases Nat.lt_trichotomy x.month y.month with hlt | heq | hlt
    · have := Date.toDays_lt_of_month hyear hlt
      omega
    · exact heq
    · have := Date.toDays_lt_of_month hyear.symm hlt
      omega
  have hday : x.day = y.day := by
    unfold Date.toDays at h
    rw [hyear, hmonth] at h
    omega
  cases x
  cases y
  simp only at hyear hmonth hday
  subst hyear hmonth hday
  rfl

/-- An instant has one date and one time of day. -/
theorem Moment.instant_injective {x y : Moment} (h : x.instant = y.instant) : x = y := by
  obtain ⟨xdate, xh, xm, xs, hxh, hxm, hxs⟩ := x
  obtain ⟨ydate, yh, ym, ys, hyh, hym, hys⟩ := y
  simp only [Moment.instant] at h
  have hdate : xdate = ydate := Date.toDays_injective (by omega)
  have hhour : xh = yh := by omega
  have hminute : xm = ym := by omega
  have hsecond : xs = ys := by omega
  subst hdate hhour hminute hsecond
  rfl

/-! ## Weekdays -/

/-- The years 2000, 2004, …, 2024 are leap years. -/
theorem isLeap_2000 {k : Int} (h0 : 0 ≤ k) (h6 : k ≤ 6) : isLeap (2000 + 4 * k) = true := by
  have h4 : (2000 + 4 * k) % 4 = 0 := by omega
  by_cases hk : k = 0
  · subst hk
    rfl
  · have h100 : (2000 + 4 * k) % 100 ≠ 0 := by omega
    simp [isLeap, h4, h100]

/-- From one of them to the next a date moves on by 1461 days, that is, by five weekdays. -/
theorem daysBeforeYear_2000 {k : Int} (h0 : 0 ≤ k) (h6 : k ≤ 6) :
    daysBeforeYear (2000 + 4 * k) = daysBeforeYear 2000 + 1461 * k := by
  unfold daysBeforeYear
  omega

/-- **Every day of the year falls on every weekday** within 25 years. -/
theorem exists_date {month day weekday : Nat} (hm : 1 ≤ month) (hm' : month ≤ 12) (hd : 1 ≤ day)
    (hd' : day ≤ monthLength true month) (hw : weekday < 7) :
    ∃ x : Date, (2000 ≤ x.year ∧ x.year ≤ 2024) ∧ x.month = month ∧ x.day = day ∧
      x.weekday = weekday := by
  -- its number in the year 2000, and the years to go until the weekday fits
  let b : Int := daysBeforeYear 2000 - daysBeforeYear 1970 + daysBeforeMonth true month + day - 1
  let k : Int := (3 * (weekday - (b + 4))) % 7
  have h0 : 0 ≤ k := by omega
  have h6 : k ≤ 6 := by omega
  have hleap := isLeap_2000 h0 h6
  refine ⟨⟨2000 + 4 * k, month, day, hm, hm', hd, by rw [hleap]; exact hd'⟩,
    ⟨by simp only; omega, by simp only; omega⟩, rfl, rfl, ?_⟩
  have hdays : daysBeforeYear (2000 + 4 * k) - daysBeforeYear 1970 +
      daysBeforeMonth true month + day - 1 = b + 1461 * k := by
    have := daysBeforeYear_2000 h0 h6
    omega
  unfold Date.weekday Date.toDays
  simp only [hleap, hdays]
  omega

/-! ## The cycle of 400 years -/

theorem isLeap_cycle (year : Int) (n : Nat) : isLeap (year + 400 * n) = isLeap year := by
  have h4 : (year + 400 * n) % 4 = year % 4 := by omega
  have h100 : (year + 400 * n) % 100 = year % 100 := by omega
  have h400 : (year + 400 * n) % 400 = year % 400 := by omega
  rw [isLeap, h4, h100, h400, isLeap]

/-- The date `400 * n` years later. -/
def Date.cycles (x : Date) (n : Nat) : Date where
  year := x.year + 400 * n
  month := x.month
  day := x.day
  month_pos := x.month_pos
  month_le := x.month_le
  day_pos := x.day_pos
  day_le := by
    rw [isLeap_cycle]
    exact x.day_le

/-- 400 years are 146097 days, which are whole weeks. -/
theorem Date.toDays_cycles (x : Date) (n : Nat) : (x.cycles n).toDays = x.toDays + 146097 * n := by
  simp only [Date.toDays, Date.cycles, isLeap_cycle, daysBeforeYear]
  omega

theorem Date.weekday_cycles (x : Date) (n : Nat) : (x.cycles n).weekday = x.weekday := by
  unfold Date.weekday
  rw [Date.toDays_cycles]
  omega

def Moment.cycles (x : Moment) (n : Nat) : Moment := { x with date := x.date.cycles n }

/-- **Every moment recurs** after any instant, on the same day of the year and of the week. -/
theorem Moment.exists_later (x : Moment) (now : Int) : ∃ n, now < (x.cycles n).instant := by
  refine ⟨(now - x.instant).toNat + 1, ?_⟩
  have hle := Int.self_le_toNat (now - x.instant)
  simp only [Moment.instant, Moment.cycles, Date.toDays_cycles] at *
  omega

end Calendar
