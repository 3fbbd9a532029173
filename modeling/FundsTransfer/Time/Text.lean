import FundsTransfer.Text.Digits
import FundsTransfer.Time.Calendar
import FundsTransfer.Time.Timestamp

/-!
# The text of a timestamp

A timestamp is written as date and time with a `T` between them and a `Z` behind, with
as many digits of the second as it needs out of none, three, six and nine.  A leap
second is second 60.  Years of more than four digits and years before the first one
carry a sign.
-/

namespace FundsTransfer.Timestamp

open Text

/-- The digits of the nanoseconds behind a point, in groups of three, without groups of zeros at the
end. -/
def fractionDigits (n : Nat) : List Char :=
  if n = 0 then []
  else if n % 1000000 = 0 then '.' :: padded 3 (n / 1000000)
  else if n % 1000 = 0 then '.' :: padded 6 (n / 1000)
  else '.' :: padded 9 n

/-- The digits of a year. -/
def yearDigits (year : Int) : List Char :=
  if 0 ≤ year ∧ year ≤ 9999 then padded 4 year.natAbs
  else (if year < 0 then '-' else '+') :: padded 4 year.natAbs

/-- The text of a timestamp. -/
def text (t : Timestamp) : List Char :=
  let date := CivilDate.ofDays (t.second / 86400)
  let s := (t.second % 86400).toNat
  let leap := 1000000000 ≤ t.nanosecond
  let second := s % 60 + (if leap then 1 else 0)
  let nanosecond := if leap then t.nanosecond - 1000000000 else t.nanosecond
  yearDigits date.year ++ '-' :: padded 2 date.month.toNat ++ '-' :: padded 2 date.day.toNat ++
    'T' :: padded 2 (s / 3600) ++ ':' :: padded 2 (s / 60 % 60) ++ ':' :: padded 2 second ++
    fractionDigits nanosecond ++ ['Z']

/-- The text of a timestamp as a string. -/
def toText (t : Timestamp) : String := String.ofList t.text

end FundsTransfer.Timestamp
