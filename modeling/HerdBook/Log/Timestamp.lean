import HerdBook.Fault
import HerdBook.Number.Decimal
import HerdBook.Value.Equality

/-!
# Points in time

A point in time as a date and a time of day in universal time, from the seconds since the
beginning of 1970, and the two ways in which log lines write it.
-/

namespace HerdBook

/-- A date and a time of day. -/
structure Timestamp where
  year : Int
  month : Nat
  day : Nat
  hour : Nat
  minute : Nat
  second : Nat
  microsecond : Nat
  deriving DecidableEq, Inhabited

namespace Timestamp

/-- The date that is the given number of days after the first of January 1970. Years are counted
from March, so that the leap day is the last of its year, and grouped by four hundred. -/
def dateOf (days : Int) : Int × Nat × Nat :=
  let shifted := days + 719468
  let era := Int.fdiv shifted 146097
  let dayOfEra := (Int.fmod shifted 146097).toNat
  let yearOfEra :=
    (dayOfEra - dayOfEra / 1460 + dayOfEra / 36524 - dayOfEra / 146096) / 365
  let dayOfYear := dayOfEra - (365 * yearOfEra + yearOfEra / 4 - yearOfEra / 100)
  let monthFromMarch := (5 * dayOfYear + 2) / 153
  let day := dayOfYear - (153 * monthFromMarch + 2) / 5 + 1
  let month := if monthFromMarch < 10 then monthFromMarch + 3 else monthFromMarch - 9
  let year := (yearOfEra : Int) + era * 400
  (if month ≤ 2 then year + 1 else year, month, day)

/-- The point in time that is the given number of seconds and microseconds after the beginning of
1970. -/
def ofSeconds (seconds : Int) (microsecond : Nat) : Timestamp :=
  let (year, month, day) := dateOf (Int.fdiv seconds 86400)
  let rest := (Int.fmod seconds 86400).toNat
  ⟨year, month, day, rest / 3600, rest / 60 % 60, rest % 60, microsecond⟩

/-- The seconds and microseconds of a number of seconds; the fraction is rounded to the nearest
microsecond, a half to the even one. -/
def split (seconds : Rat) : Int × Nat :=
  let whole := Int.tdiv seconds.num seconds.den
  let fraction := (Binary64.ofRat ((seconds - whole) * 1000000)).toRat?.getD 0
  let rounded : Int := Binary64.divideEven fraction.num.natAbs fraction.den
  let micros := if fraction < 0 then -rounded else rounded
  (whole + Int.fdiv micros 1000000, (Int.fmod micros 1000000).toNat)

/-- The first number that is too large for a count of seconds, which has 64 bits. -/
def secondsLimit : Int := 0x8000000000000000

/-- The first number that is too large for a count of years, which has 32 bits. -/
def yearsLimit : Int := 0x80000000

/-- The seconds that a value stands for, as far as points in time are counted. -/
def secondsOf (v : Value) : Except Fault Rat :=
  match v.amount? with
  | some (.exact q) =>
    if -secondsLimit ≤ q.floor ∧ q < secondsLimit then .ok q else .error (.misuse .overflow)
  | some (.infinite _) => .error (.misuse .overflow)
  | some .nan => .error (.misuse .value)
  | none => .error (.misuse .type)

/-- The time itself if its year is one that the calendar has a date for. -/
def checked (t : Timestamp) : Except Fault Timestamp :=
  if -yearsLimit ≤ t.year - 1900 ∧ t.year - 1900 < yearsLimit then .ok t
  else .error (.misuse .system)

/-- A number with at least the given count of digits. -/
def padded (width n : Nat) : String :=
  let digits := Decimal.digitChars n
  String.ofList (List.replicate (width - digits.length) '0' ++ digits)

/-- The month and the day, each after a hyphen. -/
def dayOfYear (t : Timestamp) : String := "-" ++ padded 2 t.month ++ "-" ++ padded 2 t.day

/-- The time of day, with the parts joined by colons. -/
def time (t : Timestamp) : String :=
  padded 2 t.hour ++ ":" ++ padded 2 t.minute ++ ":" ++ padded 2 t.second

/-- The international form, with four digits for the year and the offset from universal time, and
with microseconds unless there are none. -/
def iso (t : Timestamp) : String :=
  let fraction := if t.microsecond = 0 then "" else "." ++ padded 6 t.microsecond
  padded 4 t.year.toNat ++ t.dayOfYear ++ "T" ++ t.time ++ fraction ++ "+00:00"

/-- The form at the start of a line of text, with as many digits for the year as it has. -/
def plain (t : Timestamp) : String := toString t.year ++ t.dayOfYear ++ " " ++ t.time

end Timestamp

end HerdBook
