import FundsTransfer.Proofs.Decimal.Exact
import Mathlib.Tactic.NormNum
import Mathlib.Tactic.Ring

/-!
# The limits of a sum

A sum with too many digits drops those after the point, and when its whole part is still
too long there is no sum.  `add?_eq_none_iff` says from which value on: from
`overflowThreshold`, which lies half a unit above the largest whole number that a decimal
holds.  What lies below is rounded down to that number, and the threshold itself is a tie
whose even side is out of reach.

Digits are dropped from a long sum only, so rounding never takes all of it away:
`isZero_add?_iff` says that a sum is zero exactly when the two sides cancel.
-/

namespace FundsTransfer

/-- Rounding reaches an even number from half a unit below it on. -/
theorem le_roundHalfEven_iff {num den limit : Nat} (hden : 0 < den) (heven : limit % 2 = 0)
    (hlimit : 0 < limit) :
    limit ≤ roundHalfEven num den ↔ (2 * limit - 1) * den ≤ 2 * num := by
  have hnum : den * (num / den) + num % den = num := Nat.div_add_mod num den
  have hrest : num % den < den := Nat.mod_lt num hden
  unfold roundHalfEven
  dsimp only
  generalize num / den = q at hnum ⊢
  generalize num % den = r at hnum hrest ⊢
  obtain hbelow | heq | habove : q + 2 ≤ limit ∨ q + 1 = limit ∨ limit ≤ q := by omega
  · have hgap : (2 * q + 3) * den ≤ (2 * limit - 1) * den := Nat.mul_le_mul_right den (by omega)
    have hexpand : (2 * q + 3) * den = 2 * (den * q) + 3 * den := by ring
    constructor
    · intro h
      split at h <;> omega
    · omega
  · have hexpand : (2 * limit - 1) * den = 2 * (den * q) + den := by
      have : 2 * limit - 1 = 2 * q + 1 := by omega
      rw [this]
      ring
    rw [hexpand]
    constructor
    · intro h
      split at h <;> omega
    · intro h
      rw [if_neg (by omega)]
      omega
  · have hgap : (2 * limit - 1) * den ≤ 2 * q * den := Nat.mul_le_mul_right den (by omega)
    have hexpand : 2 * q * den = 2 * (den * q) := by ring
    constructor
    · omega
    · intro _
      split <;> omega

namespace Decimal

/-! ## Digits that fit -/

/-- What fits with some digits dropped fits with more digits dropped. -/
theorem roundHalfEven_lt_of_le {m j k : Nat} (hjk : j ≤ k)
    (h : roundHalfEven m (Nat.pow 10 j) < 0x1000000000000000000000000) :
    roundHalfEven m (Nat.pow 10 k) < 0x1000000000000000000000000 := by
  induction k, hjk using Nat.le_induction with
  | base => exact h
  | succ k _ ih =>
      have hlow := le_roundHalfEven m (Nat.pow 10 k)
      have hhigh := roundHalfEven_le_succ m (Nat.pow 10 (k + 1))
      have hdiv : m / Nat.pow 10 (k + 1) = m / Nat.pow 10 k / 10 := (Nat.div_div_eq_div_mul ..).symm
      omega

/-- Nothing fits when not even the whole part does. -/
theorem shorten?_eq_none_iff (negative : Bool) (m : Nat) {kept dropped : Nat} (hkept : kept ≤ 28) :
    shorten? negative m kept dropped = none ↔
      0x1000000000000000000000000 ≤ roundHalfEven m (Nat.pow 10 (kept + dropped)) := by
  induction kept generalizing dropped with
  | zero =>
      rw [shorten?, ofParts?, Nat.zero_add]
      by_cases hfits : roundHalfEven m (Nat.pow 10 dropped) < 0x1000000000000000000000000
      · rw [dif_pos ⟨hfits, Nat.zero_le 28⟩]
        exact ⟨fun h => absurd h (by simp), fun h => absurd h (Nat.not_le.2 hfits)⟩
      · rw [dif_neg fun h => hfits h.1]
        exact ⟨fun _ => Nat.not_lt.1 hfits, fun _ => rfl⟩
  | succ k ih =>
      rw [shorten?, ofParts?]
      by_cases hfits : roundHalfEven m (Nat.pow 10 dropped) < 0x1000000000000000000000000
      · have := roundHalfEven_lt_of_le (Nat.le_add_left dropped (k + 1)) hfits
        rw [dif_pos ⟨hfits, hkept⟩]
        simp only [reduceCtorEq, false_iff]
        omega
      · rw [dif_neg fun h => hfits h.1]
        have hplaces : k + 1 + dropped = k + (dropped + 1) := by omega
        rw [hplaces]
        exact ih (Nat.le_of_succ_le hkept)

/-- Digits are dropped from a long number only, so something is left of it. -/
theorem mantissa_ne_zero_of_shorten? {negative : Bool} {m kept dropped : Nat} {d : Decimal}
    (hkept : kept ≤ 28) (hm : 0 < m / Nat.pow 10 dropped)
    (h : shorten? negative m kept dropped = some d) : d.mantissa ≠ 0 := by
  have hlow := le_roundHalfEven m (Nat.pow 10 dropped)
  have hhigh := roundHalfEven_le_succ m (Nat.pow 10 dropped)
  induction kept generalizing dropped with
  | zero =>
      rw [shorten?, ofParts?] at h
      split at h
      · cases h
        show roundHalfEven m (Nat.pow 10 dropped) ≠ 0
        omega
      · cases h
  | succ k ih =>
      rw [shorten?, ofParts?] at h
      by_cases hfits : roundHalfEven m (Nat.pow 10 dropped) < 0x1000000000000000000000000
      · rw [dif_pos ⟨hfits, hkept⟩] at h
        cases h
        show roundHalfEven m (Nat.pow 10 dropped) ≠ 0
        omega
      · -- a number that does not fit has many more digits than the one that is dropped
        rw [dif_neg fun h => hfits h.1] at h
        have hdiv : m / Nat.pow 10 (dropped + 1) = m / Nat.pow 10 dropped / 10 :=
          (Nat.div_div_eq_div_mul ..).symm
        exact ih (Nat.le_of_succ_le hkept) (by omega) h (le_roundHalfEven ..)
          (roundHalfEven_le_succ ..)

/-! ## Sums -/

theorem isZero_iff (d : Decimal) : d.isZero = true ↔ d.toRat = 0 := by
  refine ⟨toRat_of_isZero, fun h => ?_⟩
  have hsigned : d.signed = 0 := (Rat.mkRat_eq_zero (pow_ne_zero _)).1 h
  have hmantissa : d.mantissa = 0 := by rw [← natAbs_signed, hsigned, Int.natAbs_zero]
  simpa [isZero] using hmantissa

/-- A sum is zero exactly when the two sides cancel. -/
theorem isZero_add?_iff {a b c : Decimal} (h : a.add? b = some c) :
    c.isZero = true ↔ a.toRat + b.toRat = 0 := by
  constructor
  · intro hc
    unfold add? at h
    split at h
    · rename_i hzero
      cases h
      rw [toRat_of_isZero hzero, toRat_of_isZero hc, add_zero]
    split at h
    · rename_i hzero
      cases h
      rw [toRat_of_isZero hzero, toRat_of_isZero hc, add_zero]
    have hscale : max a.scale b.scale ≤ 28 := Nat.max_le.mpr ⟨a.scale_le, b.scale_le⟩
    rw [toRat_add_toRat a b (Nat.le_max_left _ _) (Nat.le_max_right _ _),
      Rat.mkRat_eq_zero (pow_ne_zero _)]
    dsimp only at h
    generalize a.digitsAt _ + b.digitsAt _ = sum at h ⊢
    by_contra hsum
    refine mantissa_ne_zero_of_shorten? hscale ?_ h (by simpa [isZero] using hc)
    rw [Nat.pow, Nat.div_one]
    exact Int.natAbs_pos.2 hsum
  · intro hcancel
    -- nothing has to be dropped from a zero, so the sum has exactly the value
    have hvalue : c.toRat = a.toRat + b.toRat :=
      (toRat_add?_iff h).2 ⟨zero, by rw [hcancel, toRat_of_isZero rfl]⟩
    rw [isZero_iff, hvalue, hcancel]

/-- The least value too large for a decimal, half a unit above the largest number that fits. -/
def overflowThreshold : Rat := 2 ^ 96 - 1 / 2

theorem abs_toRat_lt (d : Decimal) : |d.toRat| < overflowThreshold := by
  have hpow : (1 : Rat) ≤ 10 ^ d.scale := one_le_pow₀ (by norm_num)
  have hmantissa : (d.mantissa : Rat) ≤ 2 ^ 96 - 1 := by
    have : d.mantissa + 1 ≤ 2 ^ 96 := d.mantissa_lt
    have hcast : (d.mantissa : Rat) + 1 ≤ 2 ^ 96 := by exact_mod_cast this
    linarith
  have hvalue : |d.toRat| = d.mantissa / 10 ^ d.scale := by
    rw [toRat, Rat.mkRat_eq_div, abs_div, ← Int.cast_abs, Int.abs_eq_natAbs, natAbs_signed,
      Nat.pow_eq, Nat.cast_pow, abs_of_pos (a := ((10 : Nat) : Rat) ^ d.scale) (by positivity)]
    norm_num
  have hle : |d.toRat| ≤ d.mantissa := by
    rw [hvalue]
    exact div_le_self (Nat.cast_nonneg _) hpow
  unfold overflowThreshold
  linarith

/-- Digits at a scale round to too large a whole number from the threshold on. -/
theorem le_roundHalfEven_iff_threshold (n : Int) (scale : Nat) :
    0x1000000000000000000000000 ≤ roundHalfEven n.natAbs (Nat.pow 10 scale) ↔
      overflowThreshold ≤ |mkRat n (Nat.pow 10 scale)| := by
  have hpow : 0 < Nat.pow 10 scale := Nat.pow_pos (by decide)
  have hpos : (0 : Rat) < (Nat.pow 10 scale : Nat) := by exact_mod_cast hpow
  have hvalue : |mkRat n (Nat.pow 10 scale)| = n.natAbs / (Nat.pow 10 scale : Nat) := by
    rw [Rat.mkRat_eq_div, abs_div, abs_of_pos hpos, Nat.cast_natAbs, Int.cast_abs]
  rw [le_roundHalfEven_iff hpow (by decide) (by decide), hvalue, le_div_iff₀ hpos,
    ← Nat.cast_le (α := Rat)]
  unfold overflowThreshold
  push_cast
  constructor
  · intro h
    norm_num at h ⊢
    linarith
  · intro h
    norm_num at h ⊢
    linarith

/-- There is no sum exactly when the value is too large for a decimal. -/
theorem add?_eq_none_iff (a b : Decimal) :
    a.add? b = none ↔ overflowThreshold ≤ |a.toRat + b.toRat| := by
  unfold add?
  split
  · rename_i hzero
    rw [toRat_of_isZero hzero, zero_add]
    exact ⟨fun h => absurd h (by simp), fun h => absurd b.abs_toRat_lt (not_lt.2 h)⟩
  split
  · rename_i hzero
    rw [toRat_of_isZero hzero, add_zero]
    exact ⟨fun h => absurd h (by simp), fun h => absurd a.abs_toRat_lt (not_lt.2 h)⟩
  dsimp only
  rw [toRat_add_toRat a b (Nat.le_max_left _ _) (Nat.le_max_right _ _),
    shorten?_eq_none_iff _ _ (Nat.max_le.mpr ⟨a.scale_le, b.scale_le⟩), Nat.add_zero]
  exact le_roundHalfEven_iff_threshold ..

end Decimal

end FundsTransfer
