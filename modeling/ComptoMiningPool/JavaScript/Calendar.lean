import Mathlib.Tactic

/-
This file counts the seconds of the calendar. A second has a date and a time of day, and they determine the
second.
-/

namespace JavaScript

/-- The day of the first of January, counted from the first of January of 1970. -/
def dayFromYear (year : ℤ) : ℤ :=
  365 * (year - 1970) + (year - 1969) / 4 - (year - 1901) / 100 + (year - 1601) / 400

def daysInYear (year : ℤ) : ℤ :=
  if year % 4 ≠ 0 then 365
  else if year % 100 ≠ 0 then 366
  else if year % 400 ≠ 0 then 365
  else 366

def inLeapYear (year : ℤ) : ℤ := daysInYear year - 365

/-- The mean length of a year gives the year of a day or a year next to it. -/
def yearFromDay (day : ℤ) : ℤ :=
  let guess := 400 * day / 146097 + 1970
  if day < dayFromYear guess then guess - 1
  else if dayFromYear (guess + 1) ≤ day then guess + 1
  else guess

def monthLengths (leap : ℤ) : List ℤ := [31, 28 + leap, 31, 30, 31, 30, 31, 31, 30, 31, 30, 31]

/-- The days of a year before a month. January is month one. -/
def dayFromMonth (leap : ℤ) (month : ℕ) : ℤ := ((monthLengths leap).take (month - 1)).sum

/-- The number of months that end before a day. -/
def monthsBefore : List ℤ → ℤ → ℕ
  | [], _ => 0
  | length :: rest, day => if day < length then 0 else monthsBefore rest (day - length) + 1

def monthFromDay (leap day : ℤ) : ℕ := monthsBefore (monthLengths leap) day + 1

/-- A date of the calendar with a time of day. Year zero precedes year one. -/
structure DateFields where
  year : ℤ
  month : ℕ
  day : ℕ
  hour : ℕ
  minute : ℕ
  second : ℕ

namespace DateFields

/-- The fields are in the ranges of a date. -/
structure Valid (fields : DateFields) : Prop where
  month : 1 ≤ fields.month ∧ fields.month ≤ 12
  day : 1 ≤ fields.day ∧ fields.day ≤ 31
  hour : fields.hour < 24
  minute : fields.minute < 60
  second : fields.second < 60

instance (fields : DateFields) : Decidable fields.Valid :=
  decidable_of_iff
    ((1 ≤ fields.month ∧ fields.month ≤ 12) ∧ (1 ≤ fields.day ∧ fields.day ≤ 31) ∧ fields.hour < 24 ∧
      fields.minute < 60 ∧ fields.second < 60)
    ⟨fun ⟨month, day, hour, minute, second⟩ => ⟨month, day, hour, minute, second⟩,
      fun valid => ⟨valid.month, valid.day, valid.hour, valid.minute, valid.second⟩⟩

/-- The days since the start of 1970. -/
def toDay (fields : DateFields) : ℤ :=
  dayFromYear fields.year + dayFromMonth (inLeapYear fields.year) fields.month + fields.day - 1

/-- The seconds since the start of 1970. -/
def toSecond (fields : DateFields) : ℤ :=
  86400 * fields.toDay + 3600 * fields.hour + 60 * fields.minute + fields.second

def ofSecond (second : ℤ) : DateFields :=
  let day := second / 86400
  let time := (second % 86400).toNat
  let year := yearFromDay day
  let leap := inLeapYear year
  let month := monthFromDay leap (day - dayFromYear year)
  { year, month
    day := (day - dayFromYear year - dayFromMonth leap month).toNat + 1
    hour := time / 3600
    minute := time / 60 % 60
    second := time % 60 }

end DateFields

theorem inLeapYear_mem (year : ℤ) : 0 ≤ inLeapYear year ∧ inLeapYear year ≤ 1 := by
  unfold inLeapYear daysInYear
  split_ifs <;> omega

theorem dayFromYear_succ (year : ℤ) : dayFromYear (year + 1) = dayFromYear year + daysInYear year := by
  unfold dayFromYear daysInYear
  split_ifs <;> omega

/-- The year of a day starts at the day or before, and the next year starts after it. -/
theorem yearFromDay_spec (day : ℤ) :
    dayFromYear (yearFromDay day) ≤ day ∧ day < dayFromYear (yearFromDay day + 1) := by
  have near : dayFromYear (400 * day / 146097 + 1970 - 1) ≤ day ∧
      day < dayFromYear (400 * day / 146097 + 1970 + 1 + 1) := by
    unfold dayFromYear
    omega
  unfold yearFromDay
  simp only
  split_ifs with early late
  · rw [Int.sub_add_cancel]
    exact ⟨near.1, early⟩
  · exact ⟨late, near.2⟩
  · omega

theorem day_in_year (day : ℤ) :
    0 ≤ day - dayFromYear (yearFromDay day) ∧
      day - dayFromYear (yearFromDay day) < 365 + inLeapYear (yearFromDay day) := by
  have bounds := yearFromDay_spec day
  rw [dayFromYear_succ] at bounds
  unfold inLeapYear
  omega

/-- A day is in the month after the months that end before it. -/
theorem monthsBefore_spec {lengths : List ℤ} (short : ∀ length ∈ lengths, length ≤ 31) {day : ℤ}
    (inYear : 0 ≤ day ∧ day < lengths.sum) :
    monthsBefore lengths day < lengths.length ∧
      (lengths.take (monthsBefore lengths day)).sum ≤ day ∧
        day < (lengths.take (monthsBefore lengths day)).sum + 31 := by
  induction lengths generalizing day with
  | nil =>
      rw [List.sum_nil] at inYear
      omega
  | cons length rest ih =>
      rw [monthsBefore]
      split
      case isTrue inMonth =>
          have shortMonth := short length List.mem_cons_self
          simp only [List.length_cons, List.take_zero, List.sum_nil]
          omega
      case isFalse late =>
          rw [List.sum_cons] at inYear
          have later := @ih (fun other member => short other (List.mem_cons_of_mem _ member)) (day - length)
            (by omega)
          simp only [List.length_cons, List.take_succ_cons, List.sum_cons]
          omega

theorem sum_monthLengths (leap : ℤ) : (monthLengths leap).sum = 365 + leap := by
  simp only [monthLengths, List.sum_cons, List.sum_nil]
  ring

/-- A day of a year is in its month. -/
theorem monthFromDay_spec {leap day : ℤ} (isLeap : 0 ≤ leap ∧ leap ≤ 1)
    (inYear : 0 ≤ day ∧ day < 365 + leap) :
    (1 ≤ monthFromDay leap day ∧ monthFromDay leap day ≤ 12) ∧
      dayFromMonth leap (monthFromDay leap day) ≤ day ∧
        day < dayFromMonth leap (monthFromDay leap day) + 31 := by
  rw [← sum_monthLengths] at inYear
  have short : ∀ length ∈ monthLengths leap, length ≤ 31 := by
    simp only [monthLengths, List.forall_mem_cons, List.not_mem_nil, false_implies, implies_true, and_true]
    omega
  have spec := monthsBefore_spec short inYear
  have twelve : (monthLengths leap).length = 12 := rfl
  unfold monthFromDay dayFromMonth
  rw [Nat.add_sub_cancel]
  omega

namespace DateFields

theorem valid_ofSecond (second : ℤ) : (ofSecond second).Valid := by
  have inMonth := monthFromDay_spec (inLeapYear_mem _) (day_in_year (second / 86400))
  constructor
  · exact inMonth.1
  all_goals
    simp only [ofSecond]
    omega

theorem toDay_ofSecond (second : ℤ) : (ofSecond second).toDay = second / 86400 := by
  have inMonth := monthFromDay_spec (inLeapYear_mem _) (day_in_year (second / 86400))
  simp only [ofSecond, toDay]
  omega

/-- The fields of a second determine the second. -/
theorem toSecond_ofSecond (second : ℤ) : (ofSecond second).toSecond = second := by
  rw [toSecond, toDay_ofSecond]
  simp only [ofSecond]
  omega

theorem dayFromMonth_le (month : ℕ) {leap other : ℤ} (isLeap : 0 ≤ leap ∧ leap ≤ 1)
    (isOther : 0 ≤ other ∧ other ≤ 1) : dayFromMonth leap month ≤ dayFromMonth other month + 1 := by
  unfold dayFromMonth monthLengths
  generalize month - 1 = passed
  rcases passed with _ | _ | passed
  · simp only [List.take_zero, List.sum_nil]
    omega
  · simp only [List.take_succ_cons, List.take_zero, List.sum_cons, List.sum_nil]
    omega
  · simp only [List.take_succ_cons, List.sum_cons]
    omega

/-- A year before the first, mirrored into the common era, moves a date by almost a year at least. -/
theorem toSecond_mirrored {fields : DateFields} (early : fields.year ≤ 0) :
    fields.toSecond + 86400 * 364 ≤ toSecond { fields with year := 1 - fields.year } := by
  have month := dayFromMonth_le fields.month (inLeapYear_mem fields.year)
    (inLeapYear_mem (1 - fields.year))
  have year : dayFromYear fields.year + 365 ≤ dayFromYear (1 - fields.year) := by
    unfold dayFromYear
    omega
  simp only [toSecond, toDay]
  omega

end DateFields

end JavaScript
