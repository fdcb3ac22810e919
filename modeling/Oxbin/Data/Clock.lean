import Mathlib.Algebra.Ring.Int.Defs
import Oxbin.Data.Json

/-!
# The text of an instant

`time.Time.MarshalJSON` writes an instant in UTC as RFC 3339 with the fraction of the second that it
has.  It fails outside of the years 0 to 9999.
-/

namespace Oxbin.Clock

/-- The year, the month and the day of the month of a day, counted from 1970-01-01.  Years are
counted from March on, so that the leap day is the last one of its year. -/
def civil (days : Int) : Int × Int × Int :=
  let shifted := days + 719468
  let era := shifted / 146097
  let dayOfEra := shifted - era * 146097
  let yearOfEra := (dayOfEra - dayOfEra / 1460 + dayOfEra / 36524 - dayOfEra / 146096) / 365
  let dayOfYear := dayOfEra - (365 * yearOfEra + yearOfEra / 4 - yearOfEra / 100)
  let month := (5 * dayOfYear + 2) / 153
  let day := dayOfYear - (153 * month + 2) / 5 + 1
  let year := yearOfEra + era * 400
  if month < 10 then (year, month + 3, day) else (year + 1, month - 9, day)

/-- The digits of a natural number, with leading zeros up to a width. -/
def padded (width : Nat) (value : Int) : List Char :=
  let digits := Nat.toDigits 10 value.toNat
  List.replicate (width - digits.length) '0' ++ digits

/-- The fraction of a second, without trailing zeros. -/
def fraction (nanos : Int) : List Char :=
  if nanos = 0 then []
  else '.' :: ((padded 9 nanos).reverse.dropWhile fun digit => digit = '0').reverse

/-- `time.Time.MarshalJSON` for nanoseconds since 1970. -/
def timestamp (nanos : Int) : Option Json :=
  let seconds := nanos / 1000000000
  let (year, month, day) := civil (seconds / 86400)
  let second := seconds % 86400
  if 0 ≤ year ∧ year ≤ 9999 then
    some <| .str <| String.ofList <|
      padded 4 year ++ '-' :: padded 2 month ++ '-' :: padded 2 day ++
        'T' :: padded 2 (second / 3600) ++ ':' :: padded 2 (second / 60 % 60) ++
        ':' :: padded 2 (second % 60) ++ fraction (nanos % 1000000000) ++ ['Z']
  else none

end Oxbin.Clock
