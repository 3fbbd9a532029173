import FundsTransfer.Rounding

/-!
# Binary floating-point numbers

Exchange rates arrive as 64-bit floating-point numbers.  `Binary64` holds such a number
as what it is: a sign, a whole mantissa below 2^53 and a power of two, next to the
infinities and the one value that is no number.  The exponent is counted from the
smallest one, so every finite magnitude is a whole number of *units*, and a unit is
2^-1074.  A mantissa below 2^52 occurs with the smallest exponent only, so each
magnitude has one form.

`ofRatio` is the number nearest to a quotient of natural numbers, the even mantissa of
two equally near, and infinite from the first quotient on that rounds past the largest
mantissa.
-/

namespace FundsTransfer

/-- A finite magnitude, `mantissa * 2 ^ exponent` units of 2^-1074. -/
structure Magnitude where
  /-- The digits. -/
  mantissa : Nat
  /-- The power of two, counted from the smallest. -/
  exponent : Nat
  /-- The digits fit 53 bits. -/
  mantissa_lt : mantissa < 0x20000000000000
  /-- The power of two is within the range. -/
  exponent_le : exponent ≤ 2045
  /-- The mantissa uses all its bits unless the exponent is the smallest. -/
  normal : 0x10000000000000 ≤ mantissa ∨ exponent = 0
deriving DecidableEq

/-- A binary floating-point number of 64 bits. -/
inductive Binary64 where
  /-- The value that is no number. -/
  | nan
  /-- An infinity. -/
  | infinite (negative : Bool)
  /-- A finite number. -/
  | finite (negative : Bool) (magnitude : Magnitude)
deriving DecidableEq

namespace Magnitude

/-- The magnitude zero. -/
def zero : Magnitude := ⟨0, 0, by decide, by decide, .inr rfl⟩

/-- The magnitude in units of 2^-1074. -/
def units (m : Magnitude) : Nat := m.mantissa * Nat.pow 2 m.exponent

/-- The magnitude with these parts, if they are in the one form it has. -/
def ofParts? (mantissa exponent : Nat) : Option Magnitude :=
  if h : mantissa < 0x20000000000000 ∧ exponent ≤ 2045 ∧
      (0x10000000000000 ≤ mantissa ∨ exponent = 0) then
    some ⟨mantissa, exponent, h.1, h.2.1, h.2.2⟩
  else none

/-- The smallest exponent at which a number of units fits 53 bits, when rounded down. -/
def exponentFor (units : Nat) : Nat := Nat.log2 units - 52

/-- The magnitude nearest to `num / den` units, or `none` past the largest. -/
def nearest? (num den : Nat) : Option Magnitude :=
  let e := exponentFor (num / den)
  let m := roundHalfEven num (den * Nat.pow 2 e)
  if m = 0x20000000000000 then ofParts? 0x10000000000000 (e + 1) else ofParts? m e

/-- Whether the magnitude is zero. -/
def isZero (m : Magnitude) : Bool := m.mantissa == 0

end Magnitude

namespace Binary64

/-- The number of units in one. -/
def unit : Nat := Nat.pow 2 1074

/-- A finite magnitude with a sign, or the infinity where there is none. -/
def ofMagnitude? (negative : Bool) : Option Magnitude → Binary64
  | some m => .finite negative m
  | none => .infinite negative

/-- The number nearest to `num / den`, with a sign. -/
def ofRatio (negative : Bool) (num den : Nat) : Binary64 :=
  ofMagnitude? negative (Magnitude.nearest? (num * unit) den)

/-- The number nearest to `n * 10 ^ e`, with a sign. -/
def ofScaled (negative : Bool) (n : Nat) (e : Int) : Binary64 :=
  match e with
  | .ofNat k => ofRatio negative (n * Nat.pow 10 k) 1
  | .negSucc k => ofRatio negative n (Nat.pow 10 (k + 1))

/-- Whether the number is neither infinite nor no number. -/
def isFinite : Binary64 → Bool
  | .finite .. => true
  | _ => false

/-- The number one. -/
def one : Binary64 := ofRatio false 1 1

instance : Inhabited Binary64 := ⟨one⟩

/-! ## Products and quotients

Only the magnitudes of numbers read from a text are multiplied and divided, so both
operations are defined on magnitudes. -/

/-- The number nearest to the product of two magnitudes, with a sign. -/
def mul (negative : Bool) (a b : Magnitude) : Binary64 :=
  ofRatio negative (a.units * b.units) (unit * unit)

/-- The number nearest to the quotient of two magnitudes, with a sign. -/
def div (negative : Bool) (a b : Magnitude) : Binary64 :=
  ofRatio negative a.units b.units

end Binary64

end FundsTransfer
