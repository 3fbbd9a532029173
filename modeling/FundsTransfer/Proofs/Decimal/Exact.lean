import FundsTransfer.Decimal.Sum
import Mathlib.Algebra.Order.Field.Rat
import Mathlib.Tactic.FieldSimp
import Mathlib.Tactic.Linarith
import Mathlib.Tactic.Positivity

/-!
# When a sum is exact

A sum is rounded only when it has to be.  `toRat_add?_iff` says when: a sum has exactly
the value of its two sides together when any decimal has this value.  Otherwise no answer
could be right, and the one that comes is rounded.

A sum drops digits one by one until the rest fits, so this rests on `shorten?_exact`: when
the digits from some place on are zeros and those before it fit, what stops at an earlier
place has dropped zeros only.

`toRat_add?_of_lt` is the case for books that stay small.  When both sides have few
fraction digits and the sum stays far enough below the limit, it is exact, and it has few
fraction digits again.
-/

namespace FundsTransfer.Decimal

/-! ## Values at a scale -/

theorem pow_ne_zero (n : Nat) : Nat.pow 10 n ≠ 0 :=
  Nat.pos_iff_ne_zero.mp (Nat.pow_pos (by decide))

theorem natAbs_signed (d : Decimal) : d.signed.natAbs = d.mantissa := by
  unfold signed
  split <;> omega

/-- The value of a decimal is given by its digits at any larger scale. -/
theorem toRat_eq_digitsAt (d : Decimal) {scale : Nat} (h : d.scale ≤ scale) :
    d.toRat = mkRat (d.digitsAt scale) (Nat.pow 10 scale) := by
  have hpow : Nat.pow 10 d.scale * Nat.pow 10 (scale - d.scale) = Nat.pow 10 scale := by
    show 10 ^ d.scale * 10 ^ (scale - d.scale) = 10 ^ scale
    rw [← Nat.pow_add, Nat.add_sub_cancel' h]
  rw [toRat, digitsAt, ← hpow, Rat.mkRat_mul_right (pow_ne_zero _)]

/-- Two values are added at a scale that is large enough for both. -/
theorem toRat_add_toRat (a b : Decimal) {scale : Nat} (ha : a.scale ≤ scale)
    (hb : b.scale ≤ scale) :
    a.toRat + b.toRat = mkRat (a.digitsAt scale + b.digitsAt scale) (Nat.pow 10 scale) := by
  have hpow := pow_ne_zero scale
  rw [a.toRat_eq_digitsAt ha, b.toRat_eq_digitsAt hb, Rat.mkRat_add_mkRat _ _ hpow hpow,
    ← Int.add_mul, Rat.mkRat_mul_right hpow]

/-- A decimal has a value that is given at a scale when the digits agree after both are moved to a
common scale. -/
theorem toRat_eq_mkRat_iff (d : Decimal) (n : Int) (scale : Nat) :
    d.toRat = mkRat n (Nat.pow 10 scale) ↔
      d.signed * (Nat.pow 10 scale : Nat) = n * (Nat.pow 10 d.scale : Nat) := by
  rw [toRat, Rat.mkRat_eq_iff (pow_ne_zero _) (pow_ne_zero _)]

theorem toRat_of_isZero {d : Decimal} (h : d.isZero = true) : d.toRat = 0 := by
  have hm : d.mantissa = 0 := by simpa [isZero] using h
  have hs : d.signed = 0 := by
    unfold signed
    split <;> omega
  rw [toRat, hs, Rat.zero_mkRat]

@[simp] theorem toRat_negate (d : Decimal) : d.negate.toRat = -d.toRat := by
  rw [toRat, toRat, signed_negate, scale_negate, Rat.neg_mkRat]

theorem toRat_pos_of_isPositive {d : Decimal} (h : d.isPositive = true) : 0 < d.toRat := by
  have hsigned : (0 : Rat) < d.signed := by exact_mod_cast (isPositive_iff d).1 h
  have hpow : (0 : Rat) < (Nat.pow 10 d.scale : Nat) := by
    exact_mod_cast Nat.pos_of_ne_zero (pow_ne_zero d.scale)
  rw [toRat, Rat.mkRat_eq_div]
  exact div_pos hsigned hpow

theorem toRat_nonneg_of_isPositive {d : Decimal} (h : d.isPositive = true) : 0 ≤ d.toRat :=
  (toRat_pos_of_isPositive h).le

/-! ## Dropping zeros -/

/-- The decimals tried on the way to one that fits drop zeros only. -/
theorem shorten?_exact (negative : Bool) {m M j kept dropped : Nat}
    (hm : m = M * 10 ^ (dropped + j)) (hM : M < 0x1000000000000000000000000) (hj : j ≤ kept)
    (hkept : kept ≤ 28) :
    ∃ d, shorten? negative m kept dropped = some d ∧ d.negative = negative ∧
      d.mantissa * 10 ^ (kept + dropped) = m * 10 ^ d.scale := by
  induction kept generalizing j dropped with
  | zero =>
      cases Nat.le_zero.1 hj
      have hround : roundHalfEven m (Nat.pow 10 dropped) = M := by
        rw [hm]
        exact roundHalfEven_mul M (Nat.pow_pos (by decide))
      refine ⟨⟨negative, M, 0, hM, by decide⟩, ?_, rfl, ?_⟩
      · rw [shorten?, hround]
        exact dif_pos ⟨hM, by decide⟩
      · show M * 10 ^ (0 + dropped) = m * 10 ^ 0
        rw [hm, Nat.add_zero, Nat.zero_add, Nat.pow_zero, Nat.mul_one]
  | succ k ih =>
      have hround : roundHalfEven m (Nat.pow 10 dropped) = M * 10 ^ j := by
        rw [hm, Nat.add_comm dropped j, Nat.pow_add, ← Nat.mul_assoc]
        exact roundHalfEven_mul _ (Nat.pow_pos (by decide))
      rw [shorten?, hround]
      by_cases hfits : M * 10 ^ j < 0x1000000000000000000000000
      · refine ⟨⟨negative, M * 10 ^ j, k + 1, hfits, hkept⟩, ?_, rfl, ?_⟩
        · rw [ofParts?, dif_pos ⟨hfits, hkept⟩]
        · show M * 10 ^ j * 10 ^ (k + 1 + dropped) = m * 10 ^ (k + 1)
          rw [hm, Nat.mul_assoc, Nat.mul_assoc, ← Nat.pow_add, ← Nat.pow_add]
          congr 2
          omega
      · -- digits that do not fit yet end in a zero, which the next try drops
        obtain ⟨j', rfl⟩ : ∃ j', j = j' + 1 := by
          cases j with
          | zero =>
              rw [Nat.pow_zero, Nat.mul_one] at hfits
              exact absurd hM hfits
          | succ j' => exact ⟨j', rfl⟩
        have hnone : ofParts? negative (M * 10 ^ (j' + 1)) (k + 1) = none :=
          dif_neg fun h => hfits h.1
        have hm' : m = M * 10 ^ (dropped + 1 + j') := by
          rw [hm]
          congr 2
          omega
        rw [hnone]
        obtain ⟨d, hd, hnegative, hvalue⟩ := ih hm' (Nat.le_of_succ_le_succ hj)
          (Nat.le_of_succ_le hkept)
        refine ⟨d, hd, hnegative, ?_⟩
        rw [← hvalue]
        congr 2
        omega

/-! ## Sums -/

/-- Some decimal has the value. -/
def Representable (q : Rat) : Prop := ∃ d : Decimal, d.toRat = q

/-- The digits of a value that some decimal has are few, up to zeros at the end, and so are those
behind the point. -/
theorem Representable.exists_digits {n : Int} {scale : Nat}
    (h : Representable (mkRat n (Nat.pow 10 scale))) :
    ∃ M j, n.natAbs = M * 10 ^ j ∧ M < 0x1000000000000000000000000 ∧ j ≤ scale ∧
      scale ≤ j + 28 := by
  obtain ⟨d, h⟩ := h
  rw [toRat_eq_mkRat_iff] at h
  have habs : d.mantissa * 10 ^ scale = n.natAbs * 10 ^ d.scale := by
    have := congrArg Int.natAbs h
    rwa [Int.natAbs_mul, Int.natAbs_mul, natAbs_signed] at this
  have hscale := d.scale_le
  by_cases hle : d.scale ≤ scale
  · refine ⟨d.mantissa, scale - d.scale, ?_, d.mantissa_lt, Nat.sub_le _ _, by omega⟩
    have hpow : 10 ^ scale = 10 ^ (scale - d.scale) * 10 ^ d.scale := by
      rw [← Nat.pow_add, Nat.sub_add_cancel hle]
    rw [hpow, ← Nat.mul_assoc] at habs
    exact (Nat.mul_right_cancel (Nat.pow_pos (by decide)) habs).symm
  · refine ⟨n.natAbs, 0, (Nat.mul_one _).symm, ?_, Nat.zero_le _, by omega⟩
    have hpow : 10 ^ d.scale = 10 ^ (d.scale - scale) * 10 ^ scale := by
      rw [← Nat.pow_add, Nat.sub_add_cancel (by omega)]
    rw [hpow, ← Nat.mul_assoc] at habs
    have hmantissa := Nat.mul_right_cancel (Nat.pow_pos (by decide)) habs
    have hone : 1 ≤ 10 ^ (d.scale - scale) := Nat.pow_pos (by decide)
    have hbound := Nat.le_mul_of_pos_right n.natAbs hone
    have := d.mantissa_lt
    omega

theorem signed_of_natAbs {d : Decimal} {n : Int} {scale : Nat}
    (hnegative : d.negative = decide (n < 0))
    (h : d.mantissa * 10 ^ scale = n.natAbs * 10 ^ d.scale) :
    d.signed * (10 ^ scale : Nat) = n * (10 ^ d.scale : Nat) := by
  have hcast : (d.mantissa : Int) * (10 ^ scale : Nat) = n.natAbs * (10 ^ d.scale : Nat) := by
    exact_mod_cast h
  unfold signed
  rw [hnegative]
  by_cases hn : n < 0
  · have hnat : (n.natAbs : Int) = -n := by omega
    rw [hnat] at hcast
    simp only [hn, decide_true, if_true, Int.neg_mul, hcast, Int.neg_neg]
  · have hnat : (n.natAbs : Int) = n := by omega
    rw [hnat] at hcast
    simp only [hn, decide_false, Bool.false_eq_true, if_false, hcast]

/-- A sum is exact when any decimal has its value. -/
theorem toRat_add?_iff {a b c : Decimal} (h : a.add? b = some c) :
    c.toRat = a.toRat + b.toRat ↔ Representable (a.toRat + b.toRat) := by
  refine ⟨fun hc => ⟨c, hc⟩, fun hd => ?_⟩
  unfold add? at h
  split at h
  · rename_i hzero
    cases h
    rw [toRat_of_isZero hzero, Rat.zero_add]
  split at h
  · rename_i hzero
    cases h
    rw [toRat_of_isZero hzero, Rat.add_zero]
  have hscale : max a.scale b.scale ≤ 28 := Nat.max_le.mpr ⟨a.scale_le, b.scale_le⟩
  rw [toRat_add_toRat a b (Nat.le_max_left _ _) (Nat.le_max_right _ _)] at hd ⊢
  dsimp only at h
  generalize max a.scale b.scale = scale at h hd hscale ⊢
  generalize a.digitsAt scale + b.digitsAt scale = sum at h hd ⊢
  obtain ⟨M, j, hm, hM, hj, -⟩ := hd.exists_digits
  rw [← Nat.zero_add j] at hm
  obtain ⟨c', hc', hnegative, hvalue⟩ := shorten?_exact (decide (sum < 0)) hm hM hj hscale
  rw [hc'] at h
  cases h
  rw [toRat_eq_mkRat_iff]
  exact signed_of_natAbs hnegative hvalue

/-- The sum of a number and its negation is there, and is zero. -/
theorem exists_sum?_negate (d : Decimal) :
    ∃ sum, sum? [d.negate, d] = some sum ∧ sum.isZero = true := by
  have hsum : sum? [d.negate, d] = d.negate.add? d := by
    show (d.negate.add? d).bind some = _
    exact bind_pure (d.negate.add? d)
  rw [hsum, add?]
  by_cases hzero : d.isZero = true
  · have hnegate : d.negate.isZero = true := hzero
    exact ⟨d, by rw [if_pos hnegate], hzero⟩
  · have hnegate : ¬ d.negate.isZero = true := hzero
    have hdigits : d.negate.digitsAt (max d.negate.scale d.scale)
        + d.digitsAt (max d.negate.scale d.scale) = 0 := by
      rw [digitsAt, digitsAt, scale_negate, signed_negate, Int.neg_mul, Int.add_left_neg]
    have hscale : max d.negate.scale d.scale ≤ 28 := max_le d.scale_le d.scale_le
    rw [if_neg hnegate, if_neg hzero]
    dsimp only
    rw [hdigits]
    exact ⟨_, shorten?_of_fits (by decide) hscale, rfl⟩

/-- Digits at a scale are below the limit when their value is at a larger one. -/
theorem natAbs_lt_of_abs_lt {n : Int} {s scale : Nat} (hs : s ≤ scale)
    (h : |mkRat n (Nat.pow 10 s)| * 10 ^ scale < 2 ^ 96) :
    n.natAbs < 0x1000000000000000000000000 := by
  have hvalue : (n.natAbs : Rat) = |mkRat n (Nat.pow 10 s)| * 10 ^ s := by
    rw [Rat.mkRat_eq_div, abs_div, Nat.cast_natAbs, Int.cast_abs, Nat.pow_eq, Nat.cast_pow,
      abs_of_pos (a := ((10 : Nat) : Rat) ^ s) (by positivity)]
    field_simp
    norm_num
  have hpow : (10 : Rat) ^ s ≤ 10 ^ scale := pow_le_pow_right₀ (by norm_num) hs
  have hle : (n.natAbs : Rat) < 2 ^ 96 := by
    calc (n.natAbs : Rat) = |mkRat n (Nat.pow 10 s)| * 10 ^ s := hvalue
      _ ≤ |mkRat n (Nat.pow 10 s)| * 10 ^ scale :=
        mul_le_mul_of_nonneg_left hpow (abs_nonneg _)
      _ < 2 ^ 96 := h
  exact_mod_cast hle

/-- The digits of a sum that stays below the limit at a scale large enough for both sides. -/
theorem natAbs_sum_lt {a b : Decimal} {scale : Nat} (ha : a.scale ≤ scale) (hb : b.scale ≤ scale)
    (hbound : |a.toRat + b.toRat| * 10 ^ scale < 2 ^ 96) :
    (a.digitsAt (max a.scale b.scale) + b.digitsAt (max a.scale b.scale)).natAbs
      < 0x1000000000000000000000000 := by
  rw [toRat_add_toRat a b (Nat.le_max_left _ _) (Nat.le_max_right _ _)] at hbound
  exact natAbs_lt_of_abs_lt (max_le ha hb) hbound

/-- A sum that stays below the limit at a scale large enough for both sides is exact, and this scale
is large enough for it. -/
theorem toRat_add?_of_lt {a b c : Decimal} {scale : Nat} (ha : a.scale ≤ scale)
    (hb : b.scale ≤ scale) (h : a.add? b = some c)
    (hbound : |a.toRat + b.toRat| * 10 ^ scale < 2 ^ 96) :
    c.toRat = a.toRat + b.toRat ∧ c.scale ≤ scale := by
  by_cases hazero : a.isZero = true
  · rw [add?, if_pos hazero] at h
    cases h
    exact ⟨by rw [toRat_of_isZero hazero, zero_add], hb⟩
  by_cases hbzero : b.isZero = true
  · rw [add?, if_neg hazero, if_pos hbzero] at h
    cases h
    exact ⟨by rw [toRat_of_isZero hbzero, add_zero], ha⟩
  have hsum := toRat_add_toRat a b (Nat.le_max_left _ _) (Nat.le_max_right _ _)
  obtain ⟨hsigned, hscale⟩ := signed_add?_of_fits (by simpa using hazero) (by simpa using hbzero)
    (natAbs_sum_lt ha hb hbound) h
  refine ⟨?_, hscale ▸ max_le ha hb⟩
  rw [hsum, toRat, hsigned, hscale]

/-- Such a sum is there. -/
theorem exists_add?_of_lt {a b : Decimal} {scale : Nat} (ha : a.scale ≤ scale)
    (hb : b.scale ≤ scale) (hbound : |a.toRat + b.toRat| * 10 ^ scale < 2 ^ 96) :
    ∃ c, a.add? b = some c ∧ c.toRat = a.toRat + b.toRat ∧ c.scale ≤ scale := by
  obtain ⟨c, hc⟩ : ∃ c, a.add? b = some c := by
    unfold add?
    split
    · exact ⟨b, rfl⟩
    split
    · exact ⟨a, rfl⟩
    · exact ⟨_, shorten?_of_fits (natAbs_sum_lt ha hb hbound) (max_le a.scale_le b.scale_le)⟩
  exact ⟨c, hc, toRat_add?_of_lt ha hb hc hbound⟩

end FundsTransfer.Decimal
