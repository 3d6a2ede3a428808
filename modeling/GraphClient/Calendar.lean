import GraphClient.Text.Integer

/-!
Date-times of the proleptic Gregorian calendar and the instants they denote, in nanoseconds since
1970-01-01 00:00 UTC.
-/
namespace GraphClient

structure Date where
  year : Int
  month : Nat
  day : Nat
deriving DecidableEq, Repr

namespace Date

def isLeap (year : Int) : Bool := year % 4 == 0 && (year % 100 != 0 || year % 400 == 0)

def daysIn (year : Int) (month : Nat) : Nat :=
  if month = 2 then (if isLeap year then 29 else 28) else if month ∈ [4, 6, 9, 11] then 30 else 31

/-- Years have at most four digits, before or after year zero. -/
def Valid (d : Date) : Prop :=
  -9999 ≤ d.year ∧ d.year ≤ 9999 ∧ 1 ≤ d.month ∧ d.month ≤ 12 ∧ 1 ≤ d.day ∧ d.day ≤ daysIn d.year d.month

instance (d : Date) : Decidable d.Valid := inferInstanceAs (Decidable (_ ∧ _))

/-- Days since 1970-01-01; the year is counted from March, so that a leap day ends it. -/
def toDays (d : Date) : Int :=
  let y := if d.month ≤ 2 then d.year - 1 else d.year
  let m : Int := if d.month ≤ 2 then d.month + 9 else d.month - 3
  let era := y / 400
  let yearOfEra := y % 400
  let dayOfYear := (153 * m + 2) / 5 + d.day - 1
  era * 146097 + (yearOfEra * 365 + yearOfEra / 4 - yearOfEra / 100 + dayOfYear) - 719468

def ofDays (days : Int) : Date :=
  let z := days + 719468
  let era := z / 146097
  let dayOfEra := z % 146097
  let yearOfEra := (dayOfEra - dayOfEra / 1460 + dayOfEra / 36524 - dayOfEra / 146096) / 365
  let dayOfYear := dayOfEra - (365 * yearOfEra + yearOfEra / 4 - yearOfEra / 100)
  let m := (5 * dayOfYear + 2) / 153
  let month := if m < 10 then m + 3 else m - 9
  { year := yearOfEra + era * 400 + (if month ≤ 2 then 1 else 0)
    month := month.toNat, day := (dayOfYear - (153 * m + 2) / 5 + 1).toNat }

def text (d : Date) : String :=
  (if d.year < 0 then "-" else "") ++ Text.padded 4 d.year.natAbs ++ "-" ++ Text.padded 2 d.month ++ "-" ++
    Text.padded 2 d.day

end Date

structure DateTime where
  date : Date
  hour : Nat
  minute : Nat
  second : Nat
  nano : Nat
deriving DecidableEq, Repr

namespace DateTime

def Valid (t : DateTime) : Prop :=
  t.date.Valid ∧ t.hour < 24 ∧ t.minute < 60 ∧ t.second < 60 ∧ t.nano < 1000000000

instance (t : DateTime) : Decidable t.Valid := inferInstanceAs (Decidable (_ ∧ _))

def nanosPerDay : Int := 86400000000000

def instant (t : DateTime) : Int :=
  t.date.toDays * nanosPerDay + (((t.hour * 60 + t.minute) * 60 + t.second : Nat) : Int) * 1000000000 + t.nano

def ofInstant (n : Int) : DateTime :=
  let rest := n % nanosPerDay
  let seconds := (rest / 1000000000).toNat
  { date := .ofDays (n / nanosPerDay)
    hour := seconds / 3600, minute := seconds / 60 % 60, second := seconds % 60
    nano := (rest % 1000000000).toNat }

def fractionText (nano : Nat) : String :=
  let digits := (Text.padded 9 nano).toList
  match (digits.reverse.dropWhile (· == '0')).reverse with
  | [] => "0"
  | ds => String.ofList ds

/-- The hour is not padded. -/
def text (t : DateTime) : String :=
  t.date.text ++ " " ++ toString t.hour ++ ":" ++ Text.padded 2 t.minute ++ ":" ++ Text.padded 2 t.second ++ "." ++
    fractionText t.nano

def utcText (t : DateTime) : String := t.text ++ " +00:00:00"

end DateTime

/-- A date-time at an offset from UTC, in seconds east of it. -/
structure ZonedTime where
  clock : DateTime
  offset : Int
  clock_valid : clock.Valid
  offset_bound : -93599 ≤ offset ∧ offset ≤ 93599

namespace ZonedTime

def instant (t : ZonedTime) : Int := t.clock.instant - t.offset * 1000000000

/-- The same instant in UTC; none where UTC is already in a year of five digits. -/
def utc? (t : ZonedTime) : Option DateTime :=
  let u := DateTime.ofInstant t.instant
  if -9999 ≤ u.date.year ∧ u.date.year ≤ 9999 then some u else none

end ZonedTime
end GraphClient
