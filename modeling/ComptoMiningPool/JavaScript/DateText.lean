import ComptoMiningPool.JavaScript.Calendar

/-
This file writes dates in two formats and reads them back. A format is a list of numbers, each followed by
a mark.
-/

namespace JavaScript

/-- A number is written with leading zeros up to a width, and a mark follows it. -/
structure NumberField where
  width : ℕ
  mark : String

/-- A text does not continue a number. -/
def EndsNumber (text : List Char) : Prop := ∀ c ∈ text.head?, c.isDigit = false

instance : (text : List Char) → Decidable (EndsNumber text)
  | [] => isTrue nofun
  | c :: _ => decidable_of_iff (c.isDigit = false)
      (by simp only [EndsNumber, List.head?_cons, Option.mem_some_iff, forall_eq'])

def decimal (width value : ℕ) : List Char := (Nat.toDigits 10 value).leftpad width '0'

/-- The number at the start of a text, and the text after the mark of the number. -/
def readNumber (mark : String) (text : List Char) : Option (ℕ × List Char) :=
  let digits := text.takeWhile Char.isDigit
  let rest := text.dropWhile Char.isDigit
  if digits ≠ [] ∧ mark.toList.isPrefixOf rest then
    some (Nat.ofDigitChars 10 digits 0, rest.drop mark.toList.length)
  else none

def writeNumbers : List NumberField → List ℕ → List Char
  | field :: format, number :: numbers =>
      decimal field.width number ++ (field.mark.toList ++ writeNumbers format numbers)
  | _, _ => []

/-- The numbers of a text that has a format and nothing after it. -/
def readNumbers : List NumberField → List Char → Option (List ℕ)
  | [], text => if text = [] then some [] else none
  | field :: format, text => do
      let (number, rest) ← readNumber field.mark text
      let numbers ← readNumbers format rest
      pure (number :: numbers)

/-- Every number of a format ends at its mark, or at the end of the text. -/
def Marked : List NumberField → Prop
  | [] => True
  | field :: format =>
      EndsNumber field.mark.toList ∧ (field.mark.toList = [] → format = []) ∧ Marked format

/-- Two formats have the same marks up to a place where they have different ones. -/
def Disagree : List NumberField → List NumberField → Prop
  | left :: lefts, right :: rights =>
      (¬ left.mark.toList <+: right.mark.toList ∧ ¬ right.mark.toList <+: left.mark.toList) ∨
        (left.mark = right.mark ∧ Disagree lefts rights)
  | _, _ => False

theorem isDigit_of_mem_decimal {width value : ℕ} : ∀ c ∈ decimal width value, c.isDigit = true := by
  intro c member
  rcases List.mem_append.mp member with zero | digit
  · rw [List.eq_of_mem_replicate zero]
    decide
  · exact Nat.isDigit_of_mem_toDigits (by decide) (by decide) digit

theorem decimal_ne_nil (width value : ℕ) : decimal width value ≠ [] :=
  List.append_ne_nil_of_right_ne_nil _ Nat.toDigits_ne_nil

theorem ofDigitChars_decimal (width value : ℕ) : Nat.ofDigitChars 10 (decimal width value) 0 = value := by
  rw [decimal, List.leftpad, Nat.ofDigitChars_append, Nat.ofDigitChars_replicate_zero, Nat.mul_zero,
    Nat.ofDigitChars_ten_toDigits]

section Reading

variable {width value : ℕ} {mark : String} {rest : List Char}

theorem takeWhile_of_endsNumber (ends : EndsNumber rest) : rest.takeWhile Char.isDigit = [] := by
  cases rest with
  | nil => rfl
  | cons c rest => rw [List.takeWhile_cons_of_neg (by rw [ends c rfl]; decide)]

theorem dropWhile_of_endsNumber (ends : EndsNumber rest) : rest.dropWhile Char.isDigit = rest := by
  cases rest with
  | nil => rfl
  | cons c rest => rw [List.dropWhile_cons_of_neg (by rw [ends c rfl]; decide)]

theorem readNumber_decimal (ends : EndsNumber rest) :
    readNumber mark (decimal width value ++ rest) =
      if mark.toList.isPrefixOf rest then some (value, rest.drop mark.toList.length) else none := by
  rw [readNumber, List.takeWhile_append_of_pos isDigit_of_mem_decimal,
    List.dropWhile_append_of_pos isDigit_of_mem_decimal, takeWhile_of_endsNumber ends,
    dropWhile_of_endsNumber ends, List.append_nil, ofDigitChars_decimal]
  simp only [ne_eq, decimal_ne_nil, not_false_eq_true, true_and]

end Reading

section Formats

variable {field : NumberField} {format : List NumberField}

theorem Marked.endsNumber (marked : Marked (field :: format)) (numbers : List ℕ) :
    EndsNumber (field.mark.toList ++ writeNumbers format numbers) := by
  obtain ⟨ends, last, _⟩ := marked
  cases isMark : field.mark.toList with
  | nil =>
      rw [last isMark]
      intro c member
      cases member
  | cons first mark =>
      rw [isMark] at ends
      exact ends

/-- The numbers of a text are the numbers that were written. -/
theorem readNumbers_writeNumbers {numbers : List ℕ} (marked : Marked format)
    (length : numbers.length = format.length) :
    readNumbers format (writeNumbers format numbers) = some numbers := by
  induction format generalizing numbers with
  | nil =>
      rw [List.length_eq_zero_iff.mp length]
      rfl
  | cons field format ih =>
      cases numbers with
      | nil => cases length
      | cons number numbers =>
          rw [writeNumbers, readNumbers, readNumber_decimal (marked.endsNumber numbers),
            if_pos (List.isPrefixOf_iff_prefix.mpr (List.prefix_append _ _)), List.drop_left]
          change (readNumbers format (writeNumbers format numbers)).bind _ = _
          rw [ih marked.2.2 (Nat.succ.inj length)]
          rfl

/-- A text is not read in a format that disagrees with its own. -/
theorem readNumbers_of_disagree {other : List NumberField} {numbers : List ℕ} (marked : Marked format)
    (disagree : Disagree other format) (length : numbers.length = format.length) :
    readNumbers other (writeNumbers format numbers) = none := by
  induction format generalizing other numbers with
  | nil => cases other <;> exact disagree.elim
  | cons field format ih =>
      cases numbers with
      | nil => cases length
      | cons number numbers =>
          cases other with
          | nil => exact disagree.elim
          | cons otherField other =>
              rw [writeNumbers, readNumbers, readNumber_decimal (marked.endsNumber numbers)]
              rcases disagree with ⟨notLeft, notRight⟩ | ⟨same, disagree⟩
              · have notPrefix :
                    ¬ otherField.mark.toList <+: field.mark.toList ++ writeNumbers format numbers := by
                  intro isPrefix
                  rcases List.prefix_or_prefix_of_prefix isPrefix (List.prefix_append _ _) with left | right
                  · exact notLeft left
                  · exact notRight right
                rw [if_neg (fun found => notPrefix (List.isPrefixOf_iff_prefix.mp found))]
                rfl
              · rw [same, if_pos (List.isPrefixOf_iff_prefix.mpr (List.prefix_append _ _)), List.drop_left]
                change (readNumbers other (writeNumbers format numbers)).bind _ = _
                rw [ih marked.2.2 disagree (Nat.succ.inj length)]
                rfl

end Formats

/-- This is the format M/D/YYYY, h:MM:SS of a half of the day. -/
def enUsFormat (half : String) : List NumberField :=
  [⟨0, "/"⟩, ⟨0, "/"⟩, ⟨0, ", "⟩, ⟨0, ":"⟩, ⟨2, ":"⟩, ⟨2, half⟩]

/-- This is the format YYYY-MM-DD HH:MM:SS. -/
def databaseFormat : List NumberField := [⟨4, "-"⟩, ⟨2, "-"⟩, ⟨2, " "⟩, ⟨2, ":"⟩, ⟨2, ":"⟩, ⟨2, ""⟩]

theorem marked_enUsFormat {half : String} (ends : EndsNumber half.toList) : Marked (enUsFormat half) := by
  have marks : EndsNumber "/".toList ∧ EndsNumber ", ".toList ∧ EndsNumber ":".toList := by decide
  refine ⟨marks.1, nofun, marks.1, nofun, marks.2.1, nofun, marks.2.2, nofun, marks.2.2, nofun, ends, ?_⟩
  exact ⟨fun _ => rfl, trivial⟩

theorem marked_databaseFormat : Marked databaseFormat := by
  have marks : EndsNumber "-".toList ∧ EndsNumber " ".toList ∧ EndsNumber ":".toList ∧ EndsNumber "".toList := by
    decide
  refine ⟨marks.1, nofun, marks.1, nofun, marks.2.1, nofun, marks.2.2.1, nofun, marks.2.2.1, nofun, ?_⟩
  exact ⟨marks.2.2.2, fun _ => rfl, trivial⟩

namespace DateFields

/-- The first hour of a half of the day is hour twelve. -/
def clockHour (fields : DateFields) : ℕ := (fields.hour + 11) % 12 + 1

/-- A year before the first is counted backwards, and its era is not shown. -/
def shownYear (fields : DateFields) : ℕ :=
  if 0 < fields.year then fields.year.toNat else (1 - fields.year).toNat

def half (fields : DateFields) : String := if fields.hour < 12 then " AM" else " PM"

def enUsText (fields : DateFields) : String :=
  String.ofList (writeNumbers (enUsFormat fields.half)
    [fields.month, fields.day, fields.shownYear, fields.clockHour, fields.minute, fields.second])

def databaseText (fields : DateFields) : String :=
  String.ofList (writeNumbers databaseFormat
    [fields.year.toNat, fields.month, fields.day, fields.hour, fields.minute, fields.second])

def ofEnUs (noon : ℕ) : List ℕ → Option DateFields
  | [month, day, year, hour, minute, second] =>
      if 1 ≤ hour ∧ hour ≤ 12 then some ⟨year, month, day, hour % 12 + noon, minute, second⟩ else none
  | _ => none

def ofDatabase : List ℕ → Option DateFields
  | [year, month, day, hour, minute, second] => some ⟨year, month, day, hour, minute, second⟩
  | _ => none

/-- A text is read in the format that it has. -/
def parse (text : String) : Option DateFields :=
  let morning := (readNumbers (enUsFormat " AM") text.toList).bind (ofEnUs 0)
  let afternoon := (readNumbers (enUsFormat " PM") text.toList).bind (ofEnUs 12)
  let database := (readNumbers databaseFormat text.toList).bind ofDatabase
  ((morning.or afternoon).or database).filter fun fields => fields.Valid

variable {fields : DateFields}

theorem ofEnUs_clockHour (month day year minute second : ℕ) (noon : ℕ) :
    ofEnUs noon [month, day, year, fields.clockHour, minute, second] =
      some ⟨year, month, day, fields.hour % 12 + noon, minute, second⟩ := by
  have hour : fields.clockHour % 12 = fields.hour % 12 := by
    rw [clockHour]
    omega
  rw [ofEnUs, if_pos, hour]
  rw [clockHour]
  omega

/-- The text of a date in the common era is read as the date. -/
theorem parse_enUsText (valid : fields.Valid) :
    parse fields.enUsText = some { fields with year := fields.shownYear } := by
  have inDay := valid.hour
  have shownValid : Valid { fields with year := fields.shownYear } :=
    ⟨valid.month, valid.day, valid.hour, valid.minute, valid.second⟩
  rw [parse, enUsText, String.toList_ofList]
  by_cases early : fields.hour < 12
  · rw [half, if_pos early, readNumbers_writeNumbers (marked_enUsFormat (by decide)) rfl, Option.bind_some,
      ofEnUs_clockHour, Nat.mod_eq_of_lt early]
    exact Option.filter_some_pos (decide_eq_true shownValid)
  · have disagree : Disagree (enUsFormat " AM") (enUsFormat " PM") := by
      simp only [enUsFormat, Disagree]
      decide
    have hour : fields.hour % 12 + 12 = fields.hour := by omega
    rw [half, if_neg early, readNumbers_of_disagree (marked_enUsFormat (by decide)) disagree rfl,
      readNumbers_writeNumbers (marked_enUsFormat (by decide)) rfl, Option.bind_none, Option.bind_some,
      ofEnUs_clockHour, hour]
    exact Option.filter_some_pos (decide_eq_true shownValid)

theorem parse_databaseText (valid : fields.Valid) (common : 0 ≤ fields.year) :
    parse fields.databaseText = some fields := by
  have disagree (half : String) : Disagree (enUsFormat half) databaseFormat := by
    simp only [enUsFormat, databaseFormat, Disagree]
    left
    decide
  rw [parse, databaseText, String.toList_ofList, readNumbers_of_disagree marked_databaseFormat (disagree _) rfl,
    readNumbers_of_disagree marked_databaseFormat (disagree _) rfl,
    readNumbers_writeNumbers marked_databaseFormat rfl, Option.bind_some, ofDatabase,
    Int.toNat_of_nonneg common]
  exact Option.filter_some_pos (decide_eq_true valid)

end DateFields

end JavaScript
