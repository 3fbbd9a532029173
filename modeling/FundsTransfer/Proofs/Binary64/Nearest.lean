import FundsTransfer.Binary64.Basic
import Mathlib.Algebra.Order.Field.Rat
import Mathlib.Tactic.Ring

/-!
# The nearest floating-point number

A quotient is rounded to a magnitude in two steps: the exponent is taken from the whole part of
the quotient, and the quotient is divided by that power of two and rounded.  Both steps look at
the value of the quotient only, so it does not matter how it is written, `nearest?_congr`, and
a magnitude is nearest to itself, `nearest?_units`.

A number in digits is such a quotient, too.  `ofScaled_eq` takes its power of ten apart, and
`ofScaled_congr` says that only the value of the digits counts.
-/

namespace FundsTransfer

/-- A quotient and the same quotient in larger terms are rounded alike. -/
theorem roundHalfEven_mul_mul {c : Nat} (hc : 0 < c) (num den : Nat) :
    roundHalfEven (c * num) (c * den) = roundHalfEven num den := by
  have hquotient : c * num / (c * den) = num / den := Nat.mul_div_mul_left num den hc
  have hrest : c * num % (c * den) = c * (num % den) := Nat.mul_mod_mul_left c num den
  have htwice : 2 * (c * (num % den)) = c * (2 * (num % den)) := by ring
  have hlt : 2 * (c * (num % den)) < c * den ↔ 2 * (num % den) < den := by
    rw [htwice]
    exact Nat.mul_lt_mul_left hc
  have heq : 2 * (c * (num % den)) = c * den ↔ 2 * (num % den) = den := by
    rw [htwice]
    exact Nat.mul_right_inj (Nat.pos_iff_ne_zero.1 hc)
  simp only [roundHalfEven, hquotient, hrest, hlt, heq]

namespace Magnitude

theorem ofParts?_mantissa (m : Magnitude) : ofParts? m.mantissa m.exponent = some m := by
  rw [ofParts?, dif_pos ⟨m.mantissa_lt, m.exponent_le, m.normal⟩]

/-- The exponent of a magnitude is the smallest at which its units fit. -/
theorem exponentFor_units (m : Magnitude) : exponentFor m.units = m.exponent := by
  have hbound := m.mantissa_lt
  rw [exponentFor, units]
  rcases m.normal with hnormal | hsmall
  · have hne : m.mantissa * Nat.pow 2 m.exponent ≠ 0 :=
      Nat.mul_ne_zero (by omega) (Nat.pos_iff_ne_zero.1 (Nat.pow_pos (by decide)))
    have hlog : Nat.log2 (m.mantissa * Nat.pow 2 m.exponent) = 52 + m.exponent := by
      rw [Nat.log2_eq_iff hne, Nat.pow_eq]
      constructor
      · rw [Nat.pow_add]
        exact Nat.mul_le_mul_right _ hnormal
      · rw [show 52 + m.exponent + 1 = 53 + m.exponent by omega, Nat.pow_add]
        exact Nat.mul_lt_mul_of_pos_right hbound (Nat.pow_pos (by decide))
    omega
  · rw [hsmall, Nat.pow_eq, Nat.pow_zero, Nat.mul_one]
    rcases Nat.eq_zero_or_pos m.mantissa with hzero | hpos
    · rw [hzero, Nat.log2_zero]
    · have := (Nat.log2_lt (k := 53) (Nat.pos_iff_ne_zero.1 hpos)).2 hbound
      omega

/-- A magnitude is nearest to itself. -/
theorem nearest?_units (m : Magnitude) : nearest? m.units 1 = some m := by
  have hround : roundHalfEven m.units (1 * Nat.pow 2 m.exponent) = m.mantissa := by
    rw [Nat.one_mul]
    exact roundHalfEven_mul m.mantissa (Nat.pow_pos (by decide))
  have hbound := m.mantissa_lt
  simp only [nearest?, Nat.div_one, exponentFor_units, hround]
  rw [if_neg (by omega), ofParts?_mantissa]

theorem nearest?_mul_mul {c : Nat} (hc : 0 < c) (num den : Nat) :
    nearest? (c * num) (c * den) = nearest? num den := by
  simp only [nearest?, Nat.mul_div_mul_left num den hc, Nat.mul_assoc c den,
    roundHalfEven_mul_mul hc]

/-- Quotients of one value have one nearest magnitude. -/
theorem nearest?_congr {num den num' den' : Nat} (hden : 0 < den) (hden' : 0 < den')
    (h : num * den' = num' * den) : nearest? num den = nearest? num' den' := by
  calc nearest? num den = nearest? (den' * num) (den' * den) := (nearest?_mul_mul hden' _ _).symm
    _ = nearest? (den * num') (den * den') := by
      rw [Nat.mul_comm den' num, h, Nat.mul_comm num' den, Nat.mul_comm den' den]
    _ = nearest? num' den' := nearest?_mul_mul hden _ _

theorem eq_zero_of_mantissa {m : Magnitude} (h : m.mantissa = 0) : m = zero := by
  rcases m with ⟨mantissa, exponent, _, _, hnormal⟩
  dsimp only at h
  have hexponent : exponent = 0 := by omega
  cases h
  cases hexponent
  rfl

end Magnitude

namespace Binary64

theorem pow_ten_pos (n : Nat) : 0 < Nat.pow 10 n := Nat.pow_pos (by decide)

theorem pow_two_pos (n : Nat) : 0 < Nat.pow 2 n := Nat.pow_pos (by decide)

theorem unit_pos : 0 < unit := by
  unfold unit
  apply pow_two_pos

/-- The power of two that the unit is, under a name, so that nothing works it out. -/
theorem exists_unit : ∃ p : Nat, p = 1074 ∧ unit = Nat.pow 2 p := by
  obtain ⟨p, hp⟩ : ∃ p : Nat, p = 1074 := ⟨_, rfl⟩
  refine ⟨p, hp, ?_⟩
  unfold unit
  rw [← hp]

theorem ofRatio_congr {num den num' den' : Nat} (negative : Bool) (hden : 0 < den)
    (hden' : 0 < den') (h : num * den' = num' * den) :
    ofRatio negative num den = ofRatio negative num' den' := by
  rw [ofRatio, ofRatio, Magnitude.nearest?_congr hden hden' (by
    calc num * unit * den' = num * den' * unit := by ring
      _ = num' * unit * den := by rw [h]; ring)]

/-- A number in digits is a quotient, however its power of ten is taken apart. -/
theorem ofScaled_eq (negative : Bool) (n : Nat) {e : Int} {a b : Nat} (h : e = (a : Int) - b) :
    ofScaled negative n e = ofRatio negative (n * Nat.pow 10 a) (Nat.pow 10 b) := by
  cases e with
  | ofNat k =>
      have hk : k + b = a := by
        have : (Int.ofNat k) = (k : Int) := rfl
        omega
      refine ofRatio_congr negative Nat.one_pos (pow_ten_pos b) ?_
      simp only [Nat.pow_eq]
      rw [← hk, Nat.pow_add]
      ring
  | negSucc k =>
      have hk : a + (k + 1) = b := by
        have : (Int.negSucc k) = -((k : Int) + 1) := Int.negSucc_eq k
        omega
      refine ofRatio_congr negative (pow_ten_pos _) (pow_ten_pos b) ?_
      simp only [Nat.pow_eq]
      rw [← hk, Nat.pow_add]
      ring

/-- A zero behind the digits is one more power of ten. -/
theorem ofScaled_mul_ten (negative : Bool) (n : Nat) (e : Int) :
    ofScaled negative (n * 10) e = ofScaled negative n (e + 1) := by
  obtain ⟨a, b, rfl⟩ : ∃ a b : Nat, e = (a : Int) - b := ⟨e.toNat, (-e).toNat, by omega⟩
  rw [ofScaled_eq negative (n * 10) (a := a) (b := b) rfl,
    ofScaled_eq negative n (a := a + 1) (b := b) (by omega)]
  refine ofRatio_congr negative (pow_ten_pos b) (pow_ten_pos b) ?_
  simp only [Nat.pow_eq, Nat.pow_succ]
  ring

/-- Digits behind a point divide by a power of ten. -/
theorem ofScaled_neg (negative : Bool) (n scale : Nat) :
    ofScaled negative n (-(scale : Int)) = ofRatio negative n (Nat.pow 10 scale) := by
  rw [ofScaled_eq negative n (a := 0) (b := scale) (by omega)]
  simp

/-- Digits of one value have one nearest number. -/
theorem ofScaled_congr (negative : Bool) {n scale n' scale' : Nat}
    (h : n * 10 ^ scale' = n' * 10 ^ scale) :
    ofScaled negative n (-(scale : Int)) = ofScaled negative n' (-(scale' : Int)) := by
  rw [ofScaled_neg, ofScaled_neg]
  exact ofRatio_congr negative (pow_ten_pos _) (pow_ten_pos _) h

/-- A finite magnitude is nearest to its units. -/
theorem ofRatio_units (negative : Bool) (m : Magnitude) :
    ofRatio negative m.units unit = .finite negative m := by
  have hself : Magnitude.nearest? (m.units * unit) unit = some m := by
    rw [Magnitude.nearest?_congr unit_pos Nat.one_pos (by ring), m.nearest?_units]
  rw [ofRatio, hself]
  rfl

theorem ofRatio_zero (negative : Bool) {den : Nat} (hden : 0 < den) :
    ofRatio negative 0 den = .finite negative .zero := by
  rw [← ofRatio_units negative .zero]
  refine ofRatio_congr negative hden unit_pos ?_
  simp [Magnitude.units, Magnitude.zero]

/-! ## Values -/

end Binary64

/-- The value of a magnitude. -/
def Magnitude.toRat (m : Magnitude) : Rat := mkRat m.units Binary64.unit

theorem Magnitude.toRat_nonneg (m : Magnitude) : 0 ≤ m.toRat := by
  rw [Magnitude.toRat, Rat.mkRat_eq_div, Int.cast_natCast]
  exact div_nonneg (Nat.cast_nonneg _) (Nat.cast_nonneg _)

theorem Magnitude.toRat_pos_iff (m : Magnitude) : 0 < m.toRat ↔ m ≠ .zero := by
  have hunit : (0 : Rat) < (Binary64.unit : Nat) := Nat.cast_pos.2 Binary64.unit_pos
  rw [Magnitude.toRat, Rat.mkRat_eq_div, Int.cast_natCast]
  constructor
  · rintro h rfl
    have hzero : Magnitude.zero.units = 0 := rfl
    rw [hzero, Nat.cast_zero, zero_div] at h
    exact absurd h (lt_irrefl 0)
  · intro hne
    have hmantissa : m.mantissa ≠ 0 := fun h => hne (Magnitude.eq_zero_of_mantissa h)
    have hunits : 0 < m.units :=
      Nat.mul_pos (Nat.pos_of_ne_zero hmantissa) (Binary64.pow_two_pos _)
    exact div_pos (Nat.cast_pos.2 hunits) hunit

namespace Binary64

/-- The value of a finite number. -/
def toRat? : Binary64 → Option Rat
  | .finite negative m => some (if negative then -m.toRat else m.toRat)
  | _ => none

theorem toRat?_finite_false (m : Magnitude) : toRat? (.finite false m) = some m.toRat := by
  simp only [toRat?, Bool.false_eq_true, if_false]

/-- The numbers with a value above zero are the finite ones without sign other than zero. -/
theorem exists_pos_iff (x : Binary64) :
    (∃ v, x.toRat? = some v ∧ 0 < v) ↔ ∃ m, x = .finite false m ∧ m ≠ .zero := by
  constructor
  · rintro ⟨v, hv, hpos⟩
    cases x with
    | nan => simp [toRat?] at hv
    | infinite => simp [toRat?] at hv
    | finite negative m =>
        simp only [toRat?, Option.some.injEq] at hv
        subst hv
        cases negative with
        | false =>
            simp only [Bool.false_eq_true, if_false] at hpos
            exact ⟨m, rfl, m.toRat_pos_iff.1 hpos⟩
        | true =>
            simp only [if_true] at hpos
            exact absurd hpos (not_lt.2 (neg_nonpos.2 m.toRat_nonneg))
  · rintro ⟨m, rfl, hne⟩
    exact ⟨m.toRat, toRat?_finite_false m, m.toRat_pos_iff.2 hne⟩

end Binary64

end FundsTransfer
