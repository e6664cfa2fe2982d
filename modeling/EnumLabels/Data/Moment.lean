import EnumLabels.Decimal.Layout

/-!
# Calendar dates and times

Data read from YAML may hold a date, or a date with a time of day and an offset from universal
time. Only days of the calendar from year 1 to year 9999 are moments.

Two times with offsets are the same when they are the same instant of universal time. A time
without an offset is never the same as one with an offset, nor as a date.
-/

namespace EnumLabels

/-- A time of day with its offset from universal time in minutes, if it states one. -/
structure Clock where
  hour : Nat
  minute : Nat
  second : Nat
  microsecond : Nat
  offset : Option Int
  deriving DecidableEq, Repr

/-- A date, with a time of day or without. -/
structure Moment where
  year : Nat
  month : Nat
  day : Nat
  clock : Option Clock
  deriving DecidableEq, Repr

/-- Which part of a moment is out of range. -/
inductive MomentFault where
  | offset (minutes : Int)
  | year (n : Nat)
  | month
  | day
  | hour
  | minute
  | second
  deriving DecidableEq, Repr

namespace Moment

/-- Whether a year has a leap day. -/
def isLeap (year : Nat) : Bool := year % 4 = 0 && (year % 100 ≠ 0 || year % 400 = 0)

/-- The number of days in a month of the calendar. -/
def daysInMonth (year month : Nat) : Nat :=
  if month = 2 then if isLeap year then 29 else 28
  else if month ∈ [4, 6, 9, 11] then 30
  else 31

/-- The part of a time of day that is out of range, if any. -/
def clockFault? (c : Clock) : Option MomentFault :=
  if 23 < c.hour then some .hour
  else if 59 < c.minute then some .minute
  else if 59 < c.second then some .second
  else none

/-- The part of a date that is out of range, if any. -/
def dateFault? (m : Moment) : Option MomentFault :=
  if m.year < 1 ∨ 9999 < m.year then some (.year m.year)
  else if m.month < 1 ∨ 12 < m.month then some .month
  else if m.day < 1 ∨ daysInMonth m.year m.month < m.day then some .day
  else none

/-- The first part of a moment that is out of range, if any. Offsets are shorter than a day. -/
def fault? (m : Moment) : Option MomentFault :=
  match m.clock with
  | none => m.dateFault?
  | some c =>
    match c.offset with
    | none => m.dateFault? <|> clockFault? c
    | some o =>
      if o ≤ -1440 ∨ 1440 ≤ o then some (.offset o) else m.dateFault? <|> clockFault? c

/-- The number of days before a date of the calendar. -/
def daysBefore (m : Moment) : Nat :=
  let past := m.year - 1
  365 * past + past / 4 - past / 100 + past / 400 +
    ((List.range m.month).drop 1).foldl (fun sum month => sum + daysInMonth m.year month) 0 + m.day

/-- The microseconds of universal time up to a time with the given offset. -/
def instant (m : Moment) (c : Clock) (offset : Int) : Int :=
  (((m.daysBefore * 24 + c.hour) * 60 + c.minute - offset) * 60 + c.second) * 1000000 +
    c.microsecond

/-- Whether two moments are the same. -/
def same (m n : Moment) : Bool :=
  match m.clock, n.clock with
  | some c, some d =>
    match c.offset, d.offset with
    | some o, some p => m.instant c o == n.instant d p
    | _, _ => m == n
  | _, _ => m == n

/-- A number with at least `width` digits. -/
def padded (width n : Nat) : String :=
  let ds := Decimal.digits n
  String.ofList (List.replicate (width - ds.length) '0' ++ ds)

/-- The offset in the form `+hh:mm`. -/
def offsetText (offset : Int) : String :=
  (if offset < 0 then "-" else "+") ++ padded 2 (offset.natAbs / 60) ++ ":" ++
    padded 2 (offset.natAbs % 60)

/-- The moment in the form `yyyy-mm-dd`, followed by `hh:mm:ss` and what is finer or an offset. -/
def text (m : Moment) : String :=
  let date := padded 4 m.year ++ "-" ++ padded 2 m.month ++ "-" ++ padded 2 m.day
  match m.clock with
  | none => date
  | some c =>
    date ++ " " ++ padded 2 c.hour ++ ":" ++ padded 2 c.minute ++ ":" ++ padded 2 c.second ++
      (if c.microsecond = 0 then "" else "." ++ padded 6 c.microsecond) ++
      (match c.offset with
      | none => ""
      | some o => offsetText o)

/-- A length of time in minutes as messages show it, in days and seconds. -/
def shownSpan (minutes : Int) : String :=
  let days := minutes.fdiv 1440
  let seconds := minutes.fmod 1440 * 60
  let parts :=
    (if days = 0 then [] else ["days=" ++ toString days]) ++
      (if seconds = 0 then [] else ["seconds=" ++ toString seconds])
  "datetime.timedelta(" ++ (if parts.isEmpty then "0" else ", ".intercalate parts) ++ ")"

/-- The offset as messages show it. -/
def shownOffset (offset : Int) : String :=
  if offset = 0 then "datetime.timezone.utc"
  else "datetime.timezone(" ++ shownSpan offset ++ ")"

/-- The moment as messages show it. -/
def shown (m : Moment) : String :=
  let date := toString m.year ++ ", " ++ toString m.month ++ ", " ++ toString m.day
  match m.clock with
  | none => "datetime.date(" ++ date ++ ")"
  | some c =>
    "datetime.datetime(" ++ date ++ ", " ++ toString c.hour ++ ", " ++ toString c.minute ++
      (if c.second = 0 ∧ c.microsecond = 0 then "" else ", " ++ toString c.second) ++
      (if c.microsecond = 0 then "" else ", " ++ toString c.microsecond) ++
      (match c.offset with
      | none => ""
      | some o => ", tzinfo=" ++ shownOffset o) ++ ")"

end Moment

/-- The words for a part of a moment that is out of range. -/
def MomentFault.message : MomentFault → String
  | offset minutes =>
    "offset must be a timedelta strictly between -timedelta(hours=24) and timedelta(hours=24), " ++
      "not " ++ Moment.shownSpan minutes ++ "."
  | year n => "year " ++ toString n ++ " is out of range"
  | month => "month must be in 1..12"
  | day => "day is out of range for month"
  | hour => "hour must be in 0..23"
  | minute => "minute must be in 0..59"
  | second => "second must be in 0..59"

end EnumLabels
