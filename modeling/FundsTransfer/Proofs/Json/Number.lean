import FundsTransfer.Json.Number
import FundsTransfer.Proofs.Binary64.Shortest
import FundsTransfer.Proofs.Decimal.DataText
import FundsTransfer.Proofs.Money.Rate

/-!
# Numbers in JSON

`NumberToken.value` is the number that a token means.  A whole number of 64 bits is just this number,
`value_of_whole?`.

Every other number becomes a floating-point number first.  With at most fifteen digits and a power of
ten that is small, `NumberToken.IsShort`, nothing is rounded on the way but the result,
`float?_of_isShort`: the digits and the power of ten are floating-point numbers themselves.  So the
floating-point number is the nearest one, and is written in the same digits again.
-/

namespace FundsTransfer

open Text

namespace Json.NumberToken

/-- All digits, before the point and behind it. -/
def digits (t : NumberToken) : Nat := digitsValue (t.whole ++ t.fraction.getD [])

/-- The exponent as written. -/
def exponentValue (t : NumberToken) : Int :=
  match t.exponent with
  | none => 0
  | some (negative, ds) => if negative then -(digitsValue ds : Int) else digitsValue ds

/-- The power of ten at the last digit. -/
def power (t : NumberToken) : Int := t.exponentValue - (t.fraction.getD []).length

/-- The number that is meant. -/
def value (t : NumberToken) : Rat := Decimal.withMinus t.negative (t.digits * 10 ^ t.power)

/-- There are at most fifteen digits, and not many places before the point or behind it. -/
structure IsShort (t : NumberToken) : Prop where
  digits_lt : t.digits < 10 ^ 15
  exponent_lt : t.exponentValue.natAbs < 2 ^ 31
  le_power : -22 ≤ t.power
  power_le : t.power ≤ 22

theorem value_of_whole? {t : NumberToken} {i : Int} (h : Number.whole? t = some i) :
    t.value = i := by
  simp only [Number.whole?] at h
  split at h
  · cases h
  · rename_i hplain
    rw [Bool.or_eq_true, not_or, Bool.not_eq_true, Bool.not_eq_true, Option.isSome_eq_false_iff,
      Option.isSome_eq_false_iff, Option.isNone_iff_eq_none, Option.isNone_iff_eq_none] at hplain
    have hdigits : t.digits = digitsValue t.whole := by
      rw [digits, hplain.1, Option.getD_none, List.append_nil]
    have hpower : t.power = 0 := by
      rw [power, exponentValue, hplain.1, hplain.2]
      rfl
    rw [value, hdigits, hpower, zpow_zero, mul_one]
    split at h
    · rename_i hnegative
      split at h
      · cases h
        rw [hnegative, Decimal.withMinus, if_pos rfl]
        push_cast
        rfl
      · cases h
    · rename_i hpositive
      split at h
      · cases h
        rw [Bool.not_eq_true] at hpositive
        rw [hpositive, Decimal.withMinus, if_neg Bool.false_ne_true]
        push_cast
        rfl
      · cases h

end Json.NumberToken

/-! ## Floating-point numbers that are exact -/

/-- Every number of at most 53 bits, times a power of two, is a magnitude. -/
theorem Magnitude.exists_units {c s : Nat} (hc : c < 0x20000000000000) (hs : s ≤ 2045) :
    ∃ m : Magnitude, m.units = c * 2 ^ s := by
  induction s generalizing c with
  | zero => exact ⟨⟨c, 0, hc, hs, .inr rfl⟩, rfl⟩
  | succ s ih =>
      by_cases hnormal : 0x10000000000000 ≤ c
      · exact ⟨⟨c, s + 1, hc, hs, .inl hnormal⟩, rfl⟩
      · obtain ⟨m, hm⟩ := ih (c := 2 * c) (by omega) (by omega)
        refine ⟨m, hm.trans ?_⟩
        rw [Nat.pow_succ]
        ring

namespace Json.Number

open Binary64

theorem units_magnitudeOf {n c s : Nat} (hn : n = c * 2 ^ s) (hc : c < 0x20000000000000)
    (hs : s ≤ 900) : (magnitudeOf n).units = n * unit := by
  obtain ⟨p, hp, hunit⟩ := exists_unit
  obtain ⟨m, hm⟩ := Magnitude.exists_units hc (s := s + p) (by omega)
  have hsame : n * unit = m.units := by
    rw [hm, hn, hunit, Nat.pow_eq, Nat.pow_add]
    ring
  rw [magnitudeOf, hsame, m.nearest?_units, Option.getD_some]

theorem units_powerOfTen {k : Nat} (hk : k ≤ 22) : (powerOfTen k).units = 10 ^ k * unit := by
  have hfive : 5 ^ k < 0x20000000000000 :=
    Nat.lt_of_le_of_lt (Nat.pow_le_pow_right (by decide) hk) (by decide)
  exact units_magnitudeOf (by rw [Nat.pow_eq, ← Nat.mul_pow]) hfive (by omega)

/-! ## The way of a short number -/

theorem finite?_eq_some {x y : Binary64} (h : finite? x = some y) : x = y ∧ ∃ n m, y = .finite n m := by
  unfold finite? at h
  split at h
  · cases h
    exact ⟨rfl, _, _, rfl⟩
  · cases h

/-- With exact operands there is one rounding, that of the result. -/
theorem scale?_eq (negative : Bool) {n : Nat} {e : Int} (hpos : 0 < n) (hn : n < 10 ^ 15)
    (hle : -22 ≤ e) (he : e ≤ 22) : scale? negative n e = finite? (ofScaled negative n e) := by
  have hunits : (magnitudeOf n).units = n * unit :=
    units_magnitudeOf (s := 0) (by rw [Nat.pow_zero, Nat.mul_one]) (by omega) (by decide)
  have hnonzero : ¬ (magnitudeOf n).isZero = true := by
    intro hzero
    have hmantissa : (magnitudeOf n).mantissa = 0 := by simpa [Magnitude.isZero] using hzero
    rw [Magnitude.units, hmantissa, Nat.zero_mul] at hunits
    have := Nat.mul_pos hpos unit_pos
    omega
  rw [scale?]
  simp only [if_neg hnonzero]
  rw [if_neg (by omega)]
  by_cases hsign : 0 ≤ e
  · obtain ⟨k, rfl⟩ := Int.eq_ofNat_of_zero_le hsign
    rw [if_pos hsign, mul, hunits, Int.toNat_natCast, units_powerOfTen (by omega),
      ofScaled_eq negative n (a := k) (b := 0) (by omega)]
    refine congrArg finite? (ofRatio_congr negative (Nat.mul_pos unit_pos unit_pos)
      (pow_ten_pos 0) ?_)
    simp only [Nat.pow_eq]
    ring
  · obtain ⟨k, hk⟩ := Int.eq_ofNat_of_zero_le (show 0 ≤ -e by omega)
    obtain rfl : e = -(k : Int) := by omega
    rw [if_neg hsign, if_pos (by omega), div, hunits, Int.neg_neg, Int.toNat_natCast,
      units_powerOfTen (by omega), ofScaled_neg]
    refine congrArg finite? (ofRatio_congr negative (Nat.mul_pos (pow_ten_pos k) unit_pos)
      (pow_ten_pos k) ?_)
    simp only [Nat.pow_eq]
    ring

theorem takeWhole_eq {n : Nat} {s : List Char} (h : digitsFrom n s < 0x10000000000000000) :
    takeWhole n s = (digitsFrom n s, 0) := by
  induction s generalizing n with
  | nil => rfl
  | cons c r ih =>
      have hnext : n * 10 + digitValue c < 0x10000000000000000 :=
        Nat.lt_of_le_of_lt (le_digitsFrom _ r) h
      rw [takeWhole]
      simp only [if_pos hnext]
      exact ih h

theorem takeFraction_eq {n : Nat} {s : List Char} (h : digitsFrom n s < 0x10000000000000000) :
    takeFraction n s = (digitsFrom n s, s.length) := by
  induction s generalizing n with
  | nil => rfl
  | cons c r ih =>
      have hnext : n * 10 + digitValue c < 0x10000000000000000 :=
        Nat.lt_of_le_of_lt (le_digitsFrom _ r) h
      have hrest : takeFraction (n * 10 + digitValue c) r =
          (digitsFrom (n * 10 + digitValue c) r, r.length) := ih h
      rw [takeFraction]
      simp only [if_pos hnext, hrest, List.length_cons]
      rfl

theorem exponentOf_eq {t : NumberToken} (h : t.exponentValue.natAbs < 2 ^ 31) :
    exponentOf t.exponent = .ok t.exponentValue := by
  unfold NumberToken.exponentValue at h ⊢
  cases hexponent : t.exponent with
  | none => rfl
  | some exponent =>
      obtain ⟨negative, ds⟩ := exponent
      have hsmall : digitsValue ds < 0x80000000 := by
        simp only [hexponent] at h
        split at h
        · omega
        · omega
      simp only [exponentOf]
      rw [if_neg (by omega)]

/-- A short number becomes the floating-point number nearest to it. -/
theorem float?_of_isShort {t : NumberToken} (ht : t.IsShort) :
    float? t = if t.digits = 0 then some (.finite t.negative .zero)
      else finite? (ofScaled t.negative t.digits t.power) := by
  have hdigits : digitsFrom (digitsFrom 0 t.whole) (t.fraction.getD []) = t.digits := by
    rw [← digitsFrom_append]
    rfl
  have hlt := ht.digits_lt
  have hwhole : takeWhole 0 t.whole = (digitsFrom 0 t.whole, 0) := by
    refine takeWhole_eq ?_
    have := le_digitsFrom (digitsFrom 0 t.whole) (t.fraction.getD [])
    omega
  have hfraction : takeFraction (digitsFrom 0 t.whole) (t.fraction.getD []) =
      (t.digits, (t.fraction.getD []).length) := by
    rw [takeFraction_eq (by omega), hdigits]
  have hpower : ((0 : Nat) : Int) - (t.fraction.getD []).length + t.exponentValue = t.power := by
    rw [NumberToken.power]
    omega
  simp only [float?, hwhole, hfraction, exponentOf_eq ht.exponent_lt, hpower]
  split
  · rename_i hzero
    have hisZero : (magnitudeOf 0).isZero = true := by decide +kernel
    rw [hzero, scale?]
    simp only [hisZero, if_true]
  · exact scale?_eq t.negative (by omega) hlt ht.le_power ht.power_le

/-- The text of this number is a numeral with the value of the digits. -/
theorem exists_numeral_of_isShort {t : NumberToken} (ht : t.IsShort) {x : Binary64}
    (h : float? t = some x) :
    ∃ numeral : Numeral, x.text = minused t.negative numeral.text ∧
      numeral.value = t.digits * 10 ^ t.power := by
  rw [float?_of_isShort ht] at h
  split at h
  · rename_i hzero
    cases h
    refine ⟨.ofNat 0 0, rfl, ?_⟩
    rw [Numeral.value, Numeral.mantissa_ofNat, hzero]
    simp
  · obtain ⟨hscaled, negative, m, rfl⟩ := finite?_eq_some h
    obtain ⟨rfl, hback⟩ := readsBack_of_ofScaled hscaled
    obtain ⟨numeral, htext, hvalue⟩ :=
      exists_numeral_of_readsBack (by omega) ht.digits_lt ht.le_power hback
    exact ⟨numeral, by rw [Binary64.text, htext, minused], hvalue⟩

end Json.Number

end FundsTransfer
