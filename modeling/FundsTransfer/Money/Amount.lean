import FundsTransfer.Money.Error
import FundsTransfer.Text.Blank

/-!
# Amounts typed by a client

An amount is written in plain notation, `123` or `123.45`, and is positive.  Signs,
exponents, separators and bare points (`.5`, `5.`) are refused, and so is every digit
after the point beyond the number that the currency allows.  What is accepted is held
exactly; nothing is rounded.

The checks run in a fixed order, and the first that fails names the error: blanks
around the amount go, then empty text, a sign, the place of the point, the characters
before and behind it, the number of digits after it, the size, and zero.
-/

namespace FundsTransfer

open Text

/-- An amount split at its first point, the point itself dropped.  There is no fraction without a
point. -/
def splitAtPoint (s : List Char) : List Char × Option (List Char) :=
  match s.dropWhile (· != '.') with
  | [] => (s, none)
  | _ :: fraction => (s.takeWhile (· != '.'), some fraction)

/-- The two sides of the point of an amount.  A point with nothing on one side is refused, and so is
a second one. -/
def amountSides (s : List Char) : Except MoneyError (List Char × List Char) :=
  match splitAtPoint s with
  | (whole, none) => .ok (whole, [])
  | (whole, some fraction) =>
    if fraction.contains '.' then .error (.invalidFormat "multiple decimal points")
    else if whole.isEmpty then
      .error (.invalidFormat "missing leading zero (e.g., use 0.5 instead of .5)")
    else if fraction.isEmpty then
      .error (.invalidFormat "missing fractional part (e.g., use 5.0 instead of 5.)")
    else .ok (whole, fraction)

/-- The amount that a text without blanks around it spells. -/
def readAmount (s : List Char) (maxDecimals : Nat) : Except MoneyError Decimal :=
  match s with
  | [] => .error (.invalidFormat "empty string")
  | '-' :: _ => .error .invalidAmount
  | '+' :: _ => .error .invalidAmount
  | _ =>
    match amountSides s with
    | .error e => .error e
    | .ok (whole, fraction) =>
      if !whole.all Char.isDigit then
        .error (.invalidFormat ("invalid character in whole part: " ++ String.ofList whole))
      else if !fraction.all Char.isDigit then
        .error (.invalidFormat ("invalid character in fractional part: " ++ String.ofList fraction))
      else if maxDecimals < fraction.length then
        .error (.precisionOverflow fraction.length maxDecimals)
      else
        match Decimal.ofTextExact s with
        | .error e => .error (.invalidFormat e.message)
        | .ok amount => if amount.isZero then .error .invalidAmount else .ok amount

/-- The positive amount that a client's text spells, with at most `maxDecimals` digits after the
point. -/
def parseAmount (s : String) (maxDecimals : Nat) : Except MoneyError Decimal :=
  readAmount (trim s.toList) maxDecimals

end FundsTransfer
