import FundsTransfer.Decimal.Text

/-!
# Decimals with an exponent

A decimal in a data file may also be written `1.5e3`.  A negative exponent only moves
the point: it raises the scale.  A positive one lowers the scale as far as it goes and
multiplies by ten for the rest; such a number is kept without fraction digits.  An
exponent beyond 28 and a result beyond the limits of a decimal are refused, and nothing
is rounded on this way.
-/

namespace FundsTransfer.Decimal

open Text

/-- A natural number of at most 32 bits in digits, with an optional plus sign. -/
def readExponent (s : List Char) : Option Nat :=
  let ds := match s with
    | '+' :: r => r
    | r => r
  if ds.isEmpty || !ds.all Char.isDigit then none
  else if digitsValue ds < 0x100000000 then some (digitsValue ds) else none

/-- A decimal times ten to a power of at most 28. -/
def raise? (d : Decimal) (e : Nat) : Option Decimal :=
  if e ≤ d.scale then ofParts? d.negative d.mantissa (d.scale - e)
  else ofParts? d.negative (d.mantissa * Nat.pow 10 (e - d.scale)) 0

/-- A decimal divided by ten to a power. -/
def lower? (d : Decimal) (e : Nat) : Option Decimal :=
  ofParts? d.negative d.mantissa (d.scale + e)

/-- A decimal with its point moved as an exponent behind its mark says. -/
def move? (d : Decimal) : List Char → Option Decimal
  | '-' :: ds => (readExponent ds).bind fun e => if e ≤ 28 then lower? d e else none
  | ds => (readExponent ds).bind fun e => if e ≤ 28 then raise? d e else none

/-- Whether an exponent follows. -/
def isMark (c : Char) : Bool := c = 'e' || c = 'E'

/-- The decimal that a text with an exponent spells. -/
def ofScientific? (s : List Char) : Option Decimal :=
  match s.dropWhile (!isMark ·) with
  | [] => none
  | _ :: exponent =>
    match ofText .round (s.takeWhile (!isMark ·)) with
    | .ok d => move? d exponent
    | .error _ => none

/-- The decimal that a text in a data file spells: in plain digits, rounded if need be, or with
an exponent. -/
def ofDataText? (s : List Char) : Option Decimal :=
  match ofText .round s with
  | .ok d => some d
  | .error _ => ofScientific? s

end FundsTransfer.Decimal
