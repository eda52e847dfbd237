import ComptoMiningPool.JavaScript.DateText
import ComptoMiningPool.JavaScript.TimeZone

/-
This file models dates. A date is written in local time to the second, and a text is read as local time.
-/

namespace JavaScript

/-- A time in milliseconds. It is in the range of dates. -/
structure TimeValue where
  milliseconds : ℤ
  within : |milliseconds| ≤ 8640000000000000

/-- An invalid date has no time. -/
abbrev Date := Option TimeValue

def timeClip (milliseconds : ℤ) : Date :=
  if within : |milliseconds| ≤ 8640000000000000 then some ⟨milliseconds, within⟩ else none

def TimeValue.second (value : TimeValue) : ℤ := value.milliseconds / 1000

namespace Date

variable (zone : TimeZone)

def toLocaleString (value : TimeValue) : String :=
  (DateFields.ofSecond (zone.localSecond value.second)).enUsText

/-- This is `new Date(value)`. The value `null` is the number zero. -/
def new : Option String → Date
  | none => timeClip 0
  | some text => (DateFields.parse text).bind fun fields => timeClip (1000 * zone.utc fields.toSecond)

end Date

/-- A clipped time is a second of a time in range exactly when it is that second. -/
theorem second_timeClip {value : TimeValue} {second : ℤ} :
    (timeClip (1000 * second)).map TimeValue.second = some value.second ↔ second = value.second := by
  have exact : 1000 * second / 1000 = second := Int.mul_ediv_cancel_left second (by decide)
  constructor
  · intro same
    obtain ⟨clipped, isClipped, isSecond⟩ := Option.map_eq_some_iff.mp same
    rw [timeClip] at isClipped
    split at isClipped
    · cases isClipped
      rw [← isSecond, TimeValue.second, exact]
    · cases isClipped
  · intro same
    have within := abs_le.mp value.within
    rw [TimeValue.second] at same
    have inRange : |1000 * second| ≤ 8640000000000000 := abs_le.mpr (by omega)
    rw [timeClip, dif_pos inRange, Option.map_some, TimeValue.second, TimeValue.second, exact, same]

namespace Date

variable {zone : TimeZone} {value : TimeValue}

/-- A second is not found from its local time in a mirrored year. -/
theorem utc_mirrored_ne {fields : DateFields} {second : ℤ} (early : fields.year ≤ 0)
    (isShown : zone.localSecond second = fields.toSecond) :
    zone.utc (DateFields.toSecond { fields with year := 1 - fields.year }) ≠ second := by
  intro same
  have later := DateFields.toSecond_mirrored early
  have near := abs_lt.mp (zone.utc_near (DateFields.toSecond { fields with year := 1 - fields.year }))
  have within := abs_lt.mp (zone.within second)
  rw [same] at near
  rw [TimeZone.localSecond] at isShown
  omega

/-- A local text gives its second exactly when its year is shown and the second shows its local time first. -/
theorem new_toLocaleString :
    (new zone (some (toLocaleString zone value))).map TimeValue.second = some value.second ↔
      0 < (DateFields.ofSecond (zone.localSecond value.second)).year ∧ zone.ShownFirst value.second := by
  rw [toLocaleString, new, DateFields.parse_enUsText (DateFields.valid_ofSecond _), Option.bind_some,
    second_timeClip]
  by_cases common : 0 < (DateFields.ofSecond (zone.localSecond value.second)).year
  · have isShown : ((DateFields.ofSecond (zone.localSecond value.second)).shownYear : ℤ) =
        (DateFields.ofSecond (zone.localSecond value.second)).year := by
      rw [DateFields.shownYear, if_pos common]
      exact Int.toNat_of_nonneg (by omega)
    rw [isShown, DateFields.toSecond_ofSecond, TimeZone.utc_localSecond, and_iff_right common]
  · have isShown : ((DateFields.ofSecond (zone.localSecond value.second)).shownYear : ℤ) =
        1 - (DateFields.ofSecond (zone.localSecond value.second)).year := by
      rw [DateFields.shownYear, if_neg common]
      exact Int.toNat_of_nonneg (by omega)
    rw [isShown, iff_false_right fun shown => common shown.1]
    exact utc_mirrored_ne (not_lt.mp common) (DateFields.toSecond_ofSecond _).symm

/-- A text in universal time is read as local time. -/
theorem new_databaseText {second : ℤ} (common : 0 ≤ (DateFields.ofSecond second).year) :
    new zone (some (DateFields.ofSecond second).databaseText) = timeClip (1000 * zone.utc second) := by
  rw [new, DateFields.parse_databaseText (DateFields.valid_ofSecond second) common, Option.bind_some,
    DateFields.toSecond_ofSecond]

end Date

end JavaScript
