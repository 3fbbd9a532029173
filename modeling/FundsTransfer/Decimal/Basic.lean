import FundsTransfer.Rounding

/-!
# Decimals

Money is counted in decimals: a sign, a mantissa of at most 96 bits and a scale of at
most 28, which stand for `± mantissa / 10 ^ scale`.  The scale belongs to a decimal, so
`1.50` and `1.5` are two decimals with the same value, and the sign of a zero is kept,
though it has no bearing on the value.  `Decimal.toRat` is the value.

Only negation makes a negative zero.  Reading and adding give zeros without a sign.
-/

namespace FundsTransfer

/-- A decimal number with its scale. -/
structure Decimal where
  /-- The sign. -/
  negative : Bool
  /-- All digits, without the point. -/
  mantissa : Nat
  /-- The number of digits after the point. -/
  scale : Nat
  /-- The digits fit 96 bits. -/
  mantissa_lt : mantissa < 0x1000000000000000000000000
  /-- There are at most 28 digits after the point. -/
  scale_le : scale ≤ 28
deriving DecidableEq

namespace Decimal

/-- The number zero without fraction digits. -/
def zero : Decimal := ⟨false, 0, 0, by decide, by decide⟩

instance : Inhabited Decimal := ⟨zero⟩

/-- The decimal with these parts, if they are within the limits. -/
def ofParts? (negative : Bool) (mantissa scale : Nat) : Option Decimal :=
  if h : mantissa < 0x1000000000000000000000000 ∧ scale ≤ 28 then
    some ⟨negative, mantissa, scale, h.1, h.2⟩
  else none

/-- A natural number below 2^64 as a decimal without fraction digits. -/
def ofNat64 (negative : Bool) (n : Nat) (h : n < 0x10000000000000000) : Decimal :=
  ⟨negative, n, 0, Nat.lt_trans h (by decide), by decide⟩

/-- All digits with the sign. -/
def signed (d : Decimal) : Int := if d.negative then -(d.mantissa : Int) else d.mantissa

/-- The value as a rational number. -/
def toRat (d : Decimal) : Rat := mkRat d.signed (Nat.pow 10 d.scale)

/-- Whether the value is zero. -/
def isZero (d : Decimal) : Bool := d.mantissa == 0

/-- Whether the value is above zero. -/
def isPositive (d : Decimal) : Bool := !d.negative && d.mantissa != 0

/-- The digits the value has at a scale that is at least its own. -/
def digitsAt (d : Decimal) (scale : Nat) : Int := d.signed * (Nat.pow 10 (scale - d.scale) : Nat)

/-- Whether two decimals have the same value, whatever their scales. -/
def sameValue (a b : Decimal) : Bool :=
  a.signed * (Nat.pow 10 b.scale : Nat) == b.signed * (Nat.pow 10 a.scale : Nat)

/-- The same magnitude at the same scale with the opposite sign. -/
def negate (d : Decimal) : Decimal := { d with negative := !d.negative }

/-! ## What the operations do to the value -/

/-- Negation turns the signed digits around. -/
@[simp] theorem signed_negate (d : Decimal) : d.negate.signed = -d.signed := by
  cases d with
  | mk n m s _ _ => cases n <;> simp [negate, signed]

/-- Negation keeps the scale. -/
@[simp] theorem scale_negate (d : Decimal) : d.negate.scale = d.scale := rfl

/-- A decimal is above zero exactly when its signed digits are. -/
theorem isPositive_iff (d : Decimal) : d.isPositive = true ↔ 0 < d.signed := by
  cases d with
  | mk n m s _ _ =>
    simp only [isPositive, signed, Bool.and_eq_true, Bool.not_eq_true', bne_iff_ne]
    cases n with
    | true => simp only [Bool.true_eq_false, false_and, false_iff, if_true]; omega
    | false => simp only [true_and, Bool.false_eq_true, if_false]; omega

/-- Two decimals have the same value exactly when the rational numbers agree. -/
theorem sameValue_iff (a b : Decimal) : a.sameValue b = true ↔ a.toRat = b.toRat := by
  have ha : Nat.pow 10 a.scale ≠ 0 := Nat.pos_iff_ne_zero.mp (Nat.pow_pos (by decide))
  have hb : Nat.pow 10 b.scale ≠ 0 := Nat.pos_iff_ne_zero.mp (Nat.pow_pos (by decide))
  rw [sameValue, toRat, toRat, Rat.mkRat_eq_iff ha hb, beq_iff_eq]

end Decimal

end FundsTransfer
