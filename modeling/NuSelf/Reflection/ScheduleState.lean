/-
  The persisted schedule state and its strict decoder.

  One record says when the latest reflection was published and how many were on its day.  The
  decoder takes no field that it does not know, none of another type, no missing one.  Times and
  dates are texts in the record; `PydanticTime` is what is relied on of the library that writes and
  reads them.  `decode_toRecord` is the round trip.

  A time is a number of microseconds, a date a number of days.
-/
import NuSelf.Storage.Collection

namespace NuSelf.Reflection

open NuSelf.Lib NuSelf.Storage

/-- How times and dates are written into JSON and read back in strict mode. -/
structure PydanticTime where
  dumpDatetime : Int → String
  dumpDate : Int → String
  /-- A time that carries its offset; any other text is refused. -/
  parseDatetime : String → Option Int
  parseDate : String → Option Int
  parse_dumpDatetime : ∀ t, parseDatetime (dumpDatetime t) = some t
  parse_dumpDate : ∀ d, parseDate (dumpDate d) = some d

structure ReflectionScheduleState where
  timestamp : Int
  daily_count : Nat
  daily_date : Int
  title : Option String := none
  body : Option String := none
  deriving DecidableEq

structure ReflectionScheduleStateError where
  deriving DecidableEq

namespace ReflectionScheduleState

variable (time : PydanticTime)

/-! ## Writing -/

/-- A text field, left out where there is none. -/
def optionalRow (field : String) : Option String → List (String × Json)
  | none => []
  | some text => [(field, .str text)]

def toRecord (state : ReflectionScheduleState) : Record where
  rows := [("schema_version", .int 1), ("timestamp", .str (time.dumpDatetime state.timestamp)),
    ("daily_count", .int state.daily_count), ("daily_date", .str (time.dumpDate state.daily_date))]
      ++ optionalRow "title" state.title ++ optionalRow "body" state.body
  nodup := by
    rcases state with ⟨_, _, _, title, body⟩
    cases title <;> cases body <;> simp [optionalRow]

/-! ## Reading -/

/-- A string that the parser takes. -/
def readParsed (parse : String → Option Int) : Option Json → Option Int
  | some (.str text) => parse text
  | _ => none

/-- `int` with `ge=0`: a JSON integer, no boolean and no float. -/
def readCount : Option Json → Option Nat
  | some (.int n) => if 0 ≤ n then some n.toNat else none
  | _ => none

/-- `str | None = None`. -/
def readOptionalText : Option Json → Option (Option String)
  | none | some .null => some none
  | some (.str text) => some (some text)
  | _ => none

def fields : List String :=
  ["schema_version", "timestamp", "daily_count", "daily_date", "title", "body"]

/-- `model_validate_json`. -/
def validate (record : Record) : Option ReflectionScheduleState :=
  if (record.keys.all fun key => decide (key ∈ fields)) ∧
      record.get "schema_version" = some (.int 1) then do
    let timestamp ← readParsed time.parseDatetime (record.get "timestamp")
    let daily_count ← readCount (record.get "daily_count")
    let daily_date ← readParsed time.parseDate (record.get "daily_date")
    let title ← readOptionalText (record.get "title")
    let body ← readOptionalText (record.get "body")
    return { timestamp, daily_count, daily_date, title, body }
  else none

/-- `decode_reflection_schedule_state`; the record has its id in front. -/
def decode : Option Record →
    Except ReflectionScheduleStateError (Option ReflectionScheduleState)
  | none => .ok none
  | some record =>
    match validate time (record.erase "id") with
    | some state => .ok (some state)
    | none => .error ⟨⟩

/-! ## The round trip -/

variable {time}

theorem readCount_natCast (n : Nat) : readCount (some (.int n)) = some n := by
  rw [readCount, if_pos (Int.natCast_nonneg n), Int.toNat_natCast]

theorem validate_toRecord (state : ReflectionScheduleState) :
    validate time (state.toRecord time) = some state := by
  rcases state with ⟨timestamp, daily_count, daily_date, title, body⟩
  cases title <;> cases body <;>
    simp [validate, toRecord, optionalRow, fields, Table.keys, Table.get, lookup_row, readParsed,
      readCount_natCast, readOptionalText, time.parse_dumpDatetime, time.parse_dumpDate]

/-- **The round trip**: what is written is what is decoded. -/
theorem decode_toRecord (state : ReflectionScheduleState) :
    decode time (some (state.toRecord time)) = .ok (some state) := by
  have herase : (state.toRecord time).erase "id" = state.toRecord time := by
    refine Table.erase_of_none _ ?_
    rcases state with ⟨timestamp, daily_count, daily_date, title, body⟩
    cases title <;> cases body <;> simp [toRecord, optionalRow, Table.get, lookup_row]
  rw [decode, herase, validate_toRecord]

end ReflectionScheduleState
end NuSelf.Reflection
