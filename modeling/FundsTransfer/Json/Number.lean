import FundsTransfer.Binary64.Basic
import FundsTransfer.Text.Digits

/-!
# Numbers in JSON

A number without point and exponent that fits 64 bits is a whole number.  Every other
number is a binary floating-point number, worked out as follows.  Its digits make a
significand of at most 64 bits, which takes digits as long as they fit.  A digit before
the point that does not fit raises the power of ten, and one behind it is ignored, with
all that follow.  The significand becomes a floating-point number, and is multiplied or
divided by the power of ten, itself a floating-point number.  Each of these steps rounds
to nearest, so the result can be off by a little from the number as written.

A result that is too large is no number: `Number.ofToken?` is `none`.
-/

namespace FundsTransfer.Json

open Text

/-- The parts of a number as written. -/
structure NumberToken where
  /-- Whether there is a minus sign. -/
  negative : Bool
  /-- The digits before the point. -/
  whole : List Char
  /-- The digits behind the point, if there is one. -/
  fraction : Option (List Char)
  /-- Whether the exponent is negative, and its digits, if there is one. -/
  exponent : Option (Bool × List Char)
deriving DecidableEq

/-- A number. -/
inductive Number where
  /-- A whole number in the range of 64 bits, with or without sign. -/
  | whole (n : Int)
  /-- A floating-point number. -/
  | float (x : Binary64)
deriving DecidableEq

namespace Number

/-- The digits before the point, taken into a significand while they fit.  Yields the significand
and the number of digits that did not fit. -/
def takeWhole (significand : Nat) : List Char → Nat × Nat
  | [] => (significand, 0)
  | c :: rest =>
    let next := significand * 10 + digitValue c
    if next < 0x10000000000000000 then takeWhole next rest else (significand, rest.length + 1)

/-- The digits behind the point, taken into a significand while they fit.  Yields the significand
and the number of digits taken. -/
def takeFraction (significand : Nat) : List Char → Nat × Nat
  | [] => (significand, 0)
  | c :: rest =>
    let next := significand * 10 + digitValue c
    if next < 0x10000000000000000 then
      let (s, n) := takeFraction next rest
      (s, n + 1)
    else (significand, 0)

/-- A natural number as a magnitude. -/
def magnitudeOf (n : Nat) : Magnitude :=
  (Magnitude.nearest? (n * Binary64.unit) 1).getD .zero

/-- A power of ten that is in the range of floating-point numbers, as a magnitude. -/
def powerOfTen (n : Nat) : Magnitude := magnitudeOf (Nat.pow 10 n)

/-- A finite result. -/
def finite? : Binary64 → Option Binary64
  | .finite n m => some (.finite n m)
  | _ => none

/-- A significand times a power of ten, unless it is too large. -/
def scale? (negative : Bool) (significand : Nat) (e : Int) : Option Binary64 :=
  let f := magnitudeOf significand
  if f.isZero then some (.finite negative .zero)
  else if 308 < e then none
  else if 0 ≤ e then finite? (.mul negative f (powerOfTen e.toNat))
  else if -308 ≤ e then finite? (.div negative f (powerOfTen (-e).toNat))
  else if -616 ≤ e then
    match Binary64.div negative f (powerOfTen 308) with
    | .finite _ g => finite? (.div negative g (powerOfTen (-e - 308).toNat))
    | _ => none
  else some (.finite negative .zero)

/-- The exponent behind its mark, or the sign of one that does not fit 32 bits. -/
def exponentOf : Option (Bool × List Char) → Except Bool Int
  | none => .ok 0
  | some (negative, ds) =>
    let n := digitsValue ds
    if 0x80000000 ≤ n then .error negative else .ok (if negative then -(n : Int) else n)

/-- A number with a point, an exponent or too many digits. -/
def float? (t : NumberToken) : Option Binary64 :=
  let (significand, dropped) := takeWhole 0 t.whole
  let (significand, taken) := takeFraction significand (t.fraction.getD [])
  match exponentOf t.exponent with
  | .ok e => scale? t.negative significand ((dropped : Int) - taken + e)
  | .error negativeExponent =>
    if significand != 0 && !negativeExponent then none
    else some (.finite t.negative .zero)

/-- A number without point and exponent, if it fits. -/
def whole? (t : NumberToken) : Option Int :=
  let n := digitsValue t.whole
  if t.fraction.isSome || t.exponent.isSome then none
  else if t.negative then (if 0 < n ∧ n ≤ 0x8000000000000000 then some (-(n : Int)) else none)
  else if n < 0x10000000000000000 then some n
  else none

/-- The number that a token stands for, unless it is too large. -/
def ofToken? (t : NumberToken) : Option Number :=
  match whole? t with
  | some n => some (.whole n)
  | none => (float? t).map .float

end Number

end FundsTransfer.Json
