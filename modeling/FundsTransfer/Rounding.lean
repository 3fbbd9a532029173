/-!
# Rounding a quotient

Two kinds of number here hold fewer digits than the exact result of an operation has:
decimals, when a sum outgrows them, and binary floating-point numbers.  Both take the
nearest whole quotient and the even one of two that are equally near.

`roundHalfEven_mul` says that an exact quotient is not changed, and
`roundHalfEven_le_succ` and `le_roundHalfEven` that the result is one of the two whole
numbers around the quotient.
-/

namespace FundsTransfer

/-- The whole number nearest to `num / den`, and the even one of two equally near. -/
def roundHalfEven (num den : Nat) : Nat :=
  let q := num / den
  let r := num % den
  if 2 * r < den ∨ (2 * r = den ∧ q % 2 = 0) then q else q + 1

/-- An exact quotient is not changed. -/
theorem roundHalfEven_mul (q : Nat) {den : Nat} (h : 0 < den) :
    roundHalfEven (q * den) den = q := by
  simp [roundHalfEven, Nat.mul_div_cancel q h, h]

/-- Division by one rounds nothing. -/
theorem roundHalfEven_one (n : Nat) : roundHalfEven n 1 = n := by
  simpa using @roundHalfEven_mul n 1 (by decide)

/-- The result is at least the quotient rounded down. -/
theorem le_roundHalfEven (num den : Nat) : num / den ≤ roundHalfEven num den := by
  simp only [roundHalfEven]
  split <;> omega

/-- The result is at most one above the quotient rounded down. -/
theorem roundHalfEven_le_succ (num den : Nat) : roundHalfEven num den ≤ num / den + 1 := by
  simp only [roundHalfEven]
  split <;> omega

end FundsTransfer
