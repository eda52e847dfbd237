import ComptoMiningPool.JavaScript.Date

/-
This file models the dates of a row of the client table. The entity and the database write them as texts, and
one transformer reads both.
-/

namespace ComptoMiningPool

open JavaScript

namespace DateTimeTransformer

/-- An absent date stays absent. -/
def «to» (zone : TimeZone) (value : Option TimeValue) : Option String := value.map (Date.toLocaleString zone)

/-- The result is always a date. -/
def «from» (zone : TimeZone) (value : Option String) : Date := Date.new zone value

end DateTimeTransformer

/-- The `DATETIME` of the database covers the years of its format. -/
def datetime (second : ℤ) : Option String :=
  let fields := DateFields.ofSecond second
  if 0 ≤ fields.year ∧ fields.year ≤ 9999 then some fields.databaseText else none

inductive DateWriter where
  | transformer
  | database

structure DateWrite where
  writer : DateWriter
  instant : TimeValue

/-- The text that a writer stores. -/
def DateWrite.text (zone : TimeZone) (write : DateWrite) : Option String :=
  match write.writer with
  | .transformer => DateTimeTransformer.«to» zone (some write.instant)
  | .database => datetime write.instant.second

/-- A column stores a text or `NULL`. The last write of the column is kept beside it. -/
structure DateCell where
  stored : Option String
  written : Option DateWrite

/-- The columns of a tracked entity and the start time of a client. -/
inductive DateColumn where
  | startTime
  | createdAt
  | updatedAt
  | deletedAt
  deriving DecidableEq

/-- The dates of one row. -/
abbrev DateRow := DateColumn → DateCell

namespace DateRow

variable (zone : TimeZone)

def write (column : DateColumn) (write : DateWrite) (row : DateRow) : DateRow :=
  Function.update row column ⟨write.text zone, some write⟩

/-- The client sets its start time, and the database sets the other dates of a row that is not deleted. -/
def insert (startTime now : TimeValue) : DateRow :=
  let empty : DateRow := fun _ => ⟨none, none⟩
  ((empty.write zone .startTime ⟨.transformer, startTime⟩).write zone .createdAt ⟨.database, now⟩).write zone
    .updatedAt ⟨.database, now⟩

/-- An undefined `deletedAt` leaves its column alone. -/
def heartbeat (updatedAt : TimeValue) (row : DateRow) : DateRow :=
  row.write zone .updatedAt ⟨.transformer, updatedAt⟩

/-- The database dates an update that does not set `updatedAt`. -/
def updateBestDifficulty (now : TimeValue) (row : DateRow) : DateRow :=
  row.write zone .updatedAt ⟨.database, now⟩

def delete (now : TimeValue) (row : DateRow) : DateRow :=
  (row.write zone .deletedAt ⟨.database, now⟩).write zone .updatedAt ⟨.database, now⟩

/-- A comparison of texts with `NULL` does not hold. -/
def isBefore : Option String → Option String → Bool
  | some left, some right => left < right
  | _, _ => false

def killDeadClients (now : TimeValue) (row : DateRow) : DateRow :=
  let fiveMinutes := (now.milliseconds - 5 * 60 * 1000) / 1000
  if (row .deletedAt).stored.isNone && isBefore (row .updatedAt).stored (datetime fiveMinutes) then
    row.delete zone now
  else row

end DateRow

/-- The calls that reach a row after its insertion. -/
inductive RowCall where
  | heartbeat (updatedAt : TimeValue)
  | updateBestDifficulty (now : TimeValue)
  | delete (now : TimeValue)
  | killDeadClients (now : TimeValue)

def RowCall.apply (zone : TimeZone) : RowCall → DateRow → DateRow
  | .heartbeat updatedAt => DateRow.heartbeat zone updatedAt
  | .updateBestDifficulty now => DateRow.updateBestDifficulty zone now
  | .delete now => DateRow.delete zone now
  | .killDeadClients now => DateRow.killDeadClients zone now

/-- The row after its insertion and later calls. -/
def rowAfter (zone : TimeZone) (startTime now : TimeValue) (calls : List RowCall) : DateRow :=
  calls.foldl (fun row call => call.apply zone row) (DateRow.insert zone startTime now)

/-- The property of a column is the date that the transformer returns. It is never absent. -/
def DateCell.read (zone : TimeZone) (cell : DateCell) : Option Date :=
  some (DateTimeTransformer.«from» zone cell.stored)

/-- A column reads back the instant of its last write to the second, or the absence of a write. -/
def ReadsBack (zone : TimeZone) (cell : DateCell) : Prop :=
  (cell.read zone).map (Option.map TimeValue.second) = cell.written.map fun write => some write.instant.second

/-- The instants that each writer hands on to the reader. -/
def DateWrite.Kept (zone : TimeZone) (write : DateWrite) : Prop :=
  match write.writer with
  | .transformer => 0 < (DateFields.ofSecond (zone.localSecond write.instant.second)).year ∧
      zone.ShownFirst write.instant.second
  | .database =>
      (0 ≤ (DateFields.ofSecond write.instant.second).year ∧
          (DateFields.ofSecond write.instant.second).year ≤ 9999) ∧
        ((zone.offset write.instant.second = 0 ∧ zone.ShownFirst write.instant.second) ∨
          ((∀ other, zone.localSecond other ≠ write.instant.second) ∧
            zone.offsetBefore write.instant.second = 0))

/-- The stored text of a column is the text of its last write. -/
def Recorded (zone : TimeZone) (cell : DateCell) : Prop :=
  cell.stored = cell.written.bind (DateWrite.text zone)

/-- Each column has its writers, and only a deletion is missing. -/
structure WellWritten (startTime now : TimeValue) (row : DateRow) : Prop where
  startTime : (row .startTime).written = some ⟨.transformer, startTime⟩
  createdAt : (row .createdAt).written = some ⟨.database, now⟩
  updatedAt : ∃ write, (row .updatedAt).written = some write
  deletedAt : ∀ write, (row .deletedAt).written = some write → write.writer = .database

section Rows

variable {zone : TimeZone} {row : DateRow}

theorem recorded_write (recorded : ∀ column, Recorded zone (row column)) (target : DateColumn)
    (write : DateWrite) (column : DateColumn) : Recorded zone (row.write zone target write column) := by
  rw [DateRow.write]
  by_cases same : column = target
  · rw [same, Function.update_self]
    rfl
  · rw [Function.update_of_ne same]
    exact recorded column

theorem recorded_insert (startTime now : TimeValue) (column : DateColumn) :
    Recorded zone (DateRow.insert zone startTime now column) := by
  have empty (column : DateColumn) : Recorded zone ((fun _ => ⟨none, none⟩ : DateRow) column) := rfl
  exact recorded_write (recorded_write (recorded_write empty _ _) _ _) _ _ column

theorem recorded_apply (recorded : ∀ column, Recorded zone (row column)) (call : RowCall) (column : DateColumn) :
    Recorded zone (call.apply zone row column) := by
  have deleted (now : TimeValue) := recorded_write (recorded_write recorded .deletedAt ⟨.database, now⟩)
    .updatedAt ⟨.database, now⟩ column
  cases call with
  | heartbeat updatedAt => exact recorded_write recorded _ _ column
  | updateBestDifficulty now => exact recorded_write recorded _ _ column
  | delete now => exact deleted now
  | killDeadClients now =>
      rw [RowCall.apply, DateRow.killDeadClients]
      split
      · exact deleted now
      · exact recorded column

/-- In every run, each column stores the text of its last write. -/
theorem recorded_rowAfter (startTime now : TimeValue) (calls : List RowCall) (column : DateColumn) :
    Recorded zone (rowAfter zone startTime now calls column) := by
  induction calls using List.reverseRecOn generalizing column with
  | nil => exact recorded_insert startTime now column
  | append_singleton calls call ih =>
      rw [rowAfter, List.foldl_append]
      exact recorded_apply ih call column

end Rows

section Writers

variable {zone : TimeZone} {startTime now : TimeValue} {row : DateRow}

theorem WellWritten.dated (kept : WellWritten startTime now row) (write : DateWrite) :
    WellWritten startTime now (row.write zone .updatedAt write) where
  startTime := kept.startTime
  createdAt := kept.createdAt
  updatedAt := ⟨write, rfl⟩
  deletedAt := kept.deletedAt

theorem WellWritten.deleted (kept : WellWritten startTime now row) (instant : TimeValue) :
    WellWritten startTime now (row.delete zone instant) where
  startTime := kept.startTime
  createdAt := kept.createdAt
  updatedAt := ⟨⟨.database, instant⟩, rfl⟩
  deletedAt := by
    intro write written
    cases written
    rfl

theorem WellWritten.apply (kept : WellWritten startTime now row) (call : RowCall) :
    WellWritten startTime now (call.apply zone row) := by
  cases call with
  | heartbeat updatedAt => exact kept.dated _
  | updateBestDifficulty instant => exact kept.dated _
  | delete instant => exact kept.deleted instant
  | killDeadClients instant =>
      rw [RowCall.apply, DateRow.killDeadClients]
      split
      · exact kept.deleted instant
      · exact kept

/-- In every run, the start time is the entity's, and the creation and every deletion are the database's. -/
theorem wellWritten_rowAfter (zone : TimeZone) (startTime now : TimeValue) (calls : List RowCall) :
    WellWritten startTime now (rowAfter zone startTime now calls) := by
  induction calls using List.reverseRecOn with
  | nil =>
      refine ⟨rfl, rfl, ⟨_, rfl⟩, ?_⟩
      intro write written
      cases written
  | append_singleton calls call ih =>
      rw [rowAfter, List.foldl_append]
      exact ih.apply call

end Writers

section Reading

variable {zone : TimeZone} {cell : DateCell} {write : DateWrite}

/-- An absent date is read as the epoch. -/
theorem not_readsBack_of_absent (absent : cell.written = none) : ¬ ReadsBack zone cell := by
  rw [ReadsBack, absent, DateCell.read, Option.map_some, Option.map_none]
  exact Option.some_ne_none _

theorem readsBack_iff_second (recorded : Recorded zone cell) (written : cell.written = some write) :
    ReadsBack zone cell ↔
      (Date.new zone (write.text zone)).map TimeValue.second = some write.instant.second := by
  have stored : cell.stored = write.text zone := by
    rw [recorded, written, Option.bind_some]
  rw [ReadsBack, DateCell.read, written, stored, DateTimeTransformer.«from», Option.map_some, Option.map_some,
    Option.some_inj]

/-- A date of the database is read as local time. A year out of the format is read as the epoch. -/
theorem new_datetime {value : TimeValue} :
    (Date.new zone (datetime value.second)).map TimeValue.second = some value.second ↔
      (DateWrite.mk .database value).Kept zone := by
  change _ ↔ _ ∧ _
  rw [datetime]
  split
  case isTrue common => rw [Date.new_databaseText common.1, second_timeClip, TimeZone.utc_self, and_iff_right common]
  case isFalse outside =>
      rw [iff_false_right fun kept => outside kept.1]
      change ¬ (timeClip (1000 * 0)).map TimeValue.second = some value.second
      rw [second_timeClip]
      intro epoch
      rw [← epoch] at outside
      exact outside (by decide)

/-- A write is read back exactly when its writer hands its instant on. -/
theorem new_text_iff :
    (Date.new zone (write.text zone)).map TimeValue.second = some write.instant.second ↔ write.Kept zone := by
  rcases write with ⟨writer, instant⟩
  cases writer with
  | transformer => exact Date.new_toLocaleString
  | database => exact new_datetime

/-- A zone whose clock is never set hands on the dates of the database when it is universal time. -/
theorem kept_constant {offset : ℤ} (within : |offset| < 86400) {value : TimeValue} :
    (DateWrite.mk .database value).Kept (TimeZone.constant offset within) ↔
      (0 ≤ (DateFields.ofSecond value.second).year ∧ (DateFields.ofSecond value.second).year ≤ 9999) ∧
        offset = 0 := by
  apply and_congr_right
  intro common
  have found : (TimeZone.constant offset within).utc value.second = value.second ↔ offset = 0 := by
    rw [TimeZone.utc_constant]
    omega
  rw [← found, TimeZone.utc_self]

end Reading

def oneHourAhead : TimeZone := TimeZone.constant 3600 (by decide)

def firstInsertion : TimeValue := ⟨1700000000000, by decide⟩

end ComptoMiningPool
