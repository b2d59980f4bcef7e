import DecimalCalc.Binary64.Basic
import DecimalCalc.Error
/-!
# Moments in a log

A line of a log begins with the date and the time of day of its record.  The
microseconds are written only where there are any.
-/

namespace DecimalCalc.Log

open Numeral

/-- A point in time: microseconds since the beginning of 1970. -/
structure Moment where
  microseconds : Int
deriving DecidableEq, Repr

namespace Moment

/-- The nearest integer to a quotient, a half going to the even one. -/
def roundedInt (num : Int) (den : Nat) : Int :=
  let n : Int := Binary64.roundedQuotient num.natAbs den
  if num < 0 then -n else n

/-- The moment of a number of milliseconds, which clocks hold as a floating point number
of seconds. -/
def ofMilliseconds (ms : Int) : Moment :=
  match Binary64.ofRatio ms 1000 with
  | .finite negative m q =>
    let n : Int := m * twoTo q.toNat * 1000000
    ⟨roundedInt (if negative then -n else n) (twoTo (-q).toNat)⟩
  | _ => ⟨ms * 1000⟩

/-- Year, month and day of a number of days since the beginning of 1970: the days are
counted in eras of four hundred years that begin with a March. -/
def civil (days : Int) : Int × Nat × Nat :=
  let shifted := days + 719468
  let era := shifted / 146097
  let dayOfEra := (shifted % 146097).toNat
  let yearOfEra :=
    (dayOfEra - dayOfEra / 1460 + dayOfEra / 36524 - dayOfEra / 146096) / 365
  let dayOfYear := dayOfEra - (365 * yearOfEra + yearOfEra / 4 - yearOfEra / 100)
  let monthIndex := (5 * dayOfYear + 2) / 153
  let day := dayOfYear - (153 * monthIndex + 2) / 5 + 1
  let month := if monthIndex < 10 then monthIndex + 3 else monthIndex - 9
  let year : Int := yearOfEra + era * 400
  (if month ≤ 2 then year + 1 else year, month, day)

/-- The days since the beginning of 1970. -/
def days (t : Moment) : Int := t.microseconds / 1000000 / 86400

/-- The year of a number of days, if it and the year of the day before have four digits. -/
def checkYear (days : Int) : Except Failure Unit :=
  let year := (civil days).1
  if year < 1 ∨ 9999 < year then .error (.fault (.yearOutOfRange year))
  else if (civil (days - 1)).1 < 1 then .error (.fault (.yearOutOfRange 0))
  else .ok ()

/-- Date and time of day in universal time. -/
def text (t : Moment) : Except Failure String := do
  checkYear t.days
  let micros := (t.microseconds % 1000000).toNat
  let (year, month, day) := civil t.days
  let second := (t.microseconds / 1000000 % 86400).toNat
  let date := paddedText 4 year.toNat ++ "-" ++ paddedText 2 month ++ "-" ++ paddedText 2 day
  let time := paddedText 2 (second / 3600) ++ ":" ++ paddedText 2 (second / 60 % 60) ++ ":" ++
    paddedText 2 (second % 60)
  return date ++ "T" ++ time ++ (if micros = 0 then "" else "." ++ paddedText 6 micros)

/-- A whole line of a log, of a level named by the caller. -/
def line (t : Moment) (levelName logger message : String) : Except Failure String := do
  return (← t.text) ++ " [" ++ levelName ++ "] " ++ logger ++ ": " ++ message

end Moment

end DecimalCalc.Log
