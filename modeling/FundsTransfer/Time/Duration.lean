import FundsTransfer.Text.Digits

/-!
# Durations

Time limits are durations in whole nanoseconds.  A duration is written in the largest of
the units seconds, milliseconds, microseconds and nanoseconds in which it has a whole
part, with the remaining digits after a point and no zeros at the end.
-/

namespace FundsTransfer

/-- A length of time. -/
structure Duration where
  /-- The length in nanoseconds. -/
  nanoseconds : Nat
deriving DecidableEq, Repr, Inhabited

namespace Duration

open Text

/-- A number of milliseconds. -/
def ofMilliseconds (n : Nat) : Duration := ⟨n * 1000000⟩

/-- The fraction `part / 10 ^ places` behind a point, without zeros at the end, and nothing at all
when it is zero. -/
def fractionText (part places : Nat) : List Char :=
  match ((padded places part).reverse.dropWhile (· == '0')).reverse with
  | [] => []
  | ds => '.' :: ds

/-- A duration in units of `10 ^ places` nanoseconds. -/
def inUnits (n places : Nat) (unit : String) : String :=
  let whole := n / Nat.pow 10 places
  let part := n % Nat.pow 10 places
  String.ofList (digits whole ++ (if part = 0 then [] else fractionText part places)) ++ unit

/-- The text of a duration. -/
def toText (d : Duration) : String :=
  let n := d.nanoseconds
  if 1000000000 ≤ n then inUnits n 9 "s"
  else if 1000000 ≤ n then inUnits n 6 "ms"
  else if 1000 ≤ n then inUnits n 3 "µs"
  else inUnits n 0 "ns"

end Duration

end FundsTransfer
