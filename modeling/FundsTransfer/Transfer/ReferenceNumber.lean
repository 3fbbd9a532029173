/-!
# Reference numbers made up

A transfer that comes without a reference number gets one.  It is a number of 128 bits,
the milliseconds since 1970 in the upper 48 and random bits below, written in 26 digits
to the base 32.  The digits are the decimal digits and the capital letters without I, L,
O and U, in ascending order, so reference numbers sort by the time they were made.
-/

namespace FundsTransfer

/-- The 32 digits in ascending order. -/
def referenceDigits : List Char := "0123456789ABCDEFGHJKMNPQRSTVWXYZ".toList

/-- A number in a fixed count of digits to the base 32, most significant first. -/
def base32 (n : Nat) : (width : Nat) → List Char
  | 0 => []
  | width + 1 => base32 (n / 32) width ++ [referenceDigits.getD (n % 32) '0']

/-- The reference number made at a time in milliseconds with 80 random bits. -/
def referenceNumber (milliseconds random : Nat) : String :=
  let upper := milliseconds % Nat.pow 2 48
  let lower := random % Nat.pow 2 80
  String.ofList (base32 (upper * Nat.pow 2 80 + lower) 26)

/-- A number has as many digits as asked for. -/
theorem length_base32 (n width : Nat) : (base32 n width).length = width := by
  induction width generalizing n with
  | zero => rfl
  | succ k ih => simp [base32, ih]

/-- A reference number has 26 characters. -/
theorem length_referenceNumber (milliseconds random : Nat) :
    (referenceNumber milliseconds random).length = 26 := by
  simp [referenceNumber, length_base32]

end FundsTransfer
