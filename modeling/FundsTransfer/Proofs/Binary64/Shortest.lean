import FundsTransfer.Proofs.Binary64.Text
import Mathlib.Tactic.FieldSimp
import Mathlib.Tactic.Linarith

/-!
# Few digits are kept

A number in at most fifteen digits survives the way through a floating-point number: the number
nearest to it is written in digits of the same value again, `exists_numeral_of_readsBack`.  Fifteen
digits lie further apart than floating-point numbers do, so no others are as close, `eq_of_near`,
and the search for the fewest digits cannot pass them by, `exists_firstHit`.

Up to the last step, all of this is about values in units of 10^-1074, which are whole numbers.
-/

namespace FundsTransfer

/-- A rounded quotient is off by half the divisor at most. -/
theorem roundHalfEven_close (num : Nat) {den : Nat} (hden : 0 < den) :
    2 * num ≤ 2 * (roundHalfEven num den * den) + den ∧
      2 * (roundHalfEven num den * den) ≤ 2 * num + den := by
  have hdivision := Nat.div_add_mod num den
  rw [Nat.mul_comm] at hdivision
  have hrest := Nat.mod_lt num hden
  simp only [roundHalfEven]
  split
  · omega
  · rw [Nat.add_mul, Nat.one_mul]
    omega

namespace Magnitude

/-- The nearest magnitude is off by half a unit of its last place at most. -/
theorem nearest?_close {num den : Nat} {m : Magnitude} (hden : 0 < den)
    (h : nearest? num den = some m) :
    2 * num ≤ 2 * (m.units * den) + den * 2 ^ m.exponent ∧
      2 * (m.units * den) ≤ 2 * num + den * 2 ^ m.exponent := by
  have hparts : ∀ {mantissa exponent : Nat}, ofParts? mantissa exponent = some m →
      m.mantissa = mantissa ∧ m.exponent = exponent := by
    intro mantissa exponent hm
    unfold ofParts? at hm
    split at hm
    · cases hm
      exact ⟨rfl, rfl⟩
    · cases hm
  have hpow : ∀ e, 0 < den * Nat.pow 2 e := fun e => Nat.mul_pos hden (Nat.pow_pos (by decide))
  have hclose := roundHalfEven_close num (hpow (exponentFor (num / den)))
  simp only [nearest?] at h
  generalize exponentFor (num / den) = e at h hclose
  split at h
  · rename_i htop
    obtain ⟨hmantissa, hexponent⟩ := hparts h
    rw [htop] at hclose
    have hunits : m.units * den = 0x20000000000000 * (den * Nat.pow 2 e) := by
      rw [units, hmantissa, hexponent, Nat.pow_eq, Nat.pow_eq, Nat.pow_succ]
      ring
    have hexp : den * 2 ^ m.exponent = 2 * (den * Nat.pow 2 e) := by
      rw [hexponent, Nat.pow_eq, Nat.pow_succ]
      ring
    rw [hunits, hexp]
    omega
  · obtain ⟨hmantissa, hexponent⟩ := hparts h
    have hunits : m.units * den = m.mantissa * (den * Nat.pow 2 e) := by
      rw [units, hexponent]
      ring
    rw [← hmantissa, ← hunits, ← hexponent] at hclose
    exact hclose

end Magnitude

namespace Binary64

open Text

/-! ## Digits that are close -/

/-- A value is off by one part in 2^53 at most. -/
structure Near (v d : Nat) : Prop where
  above : 0x20000000000000 * d ≤ (0x20000000000000 + 1) * v
  below : (0x20000000000000 - 1) * v ≤ 0x20000000000000 * d

/-- Values in fifteen digits, and a bit more, are further apart. -/
theorem le_mul_sub {n n' a b : Nat} (hn : n ≤ 2 * 10 ^ 15) (hn' : n' ≤ 2 * 10 ^ 15)
    (h : n * 10 ^ a < n' * 10 ^ b) :
    n' * 10 ^ b ≤ 2 * 10 ^ 15 * (n' * 10 ^ b - n * 10 ^ a) := by
  rcases Nat.le_total b a with hle | hle
  · obtain ⟨k, rfl⟩ := Nat.exists_eq_add_of_le hle
    have hsplit : n * 10 ^ (b + k) = n * 10 ^ k * 10 ^ b := by
      rw [Nat.pow_add, Nat.mul_comm (10 ^ b), Nat.mul_assoc]
    rw [hsplit] at h ⊢
    have hlt : n * 10 ^ k < n' := Nat.lt_of_mul_lt_mul_right h
    rw [← Nat.sub_mul, ← Nat.mul_assoc]
    exact Nat.mul_le_mul_right _ (by omega)
  · obtain ⟨k, rfl⟩ := Nat.exists_eq_add_of_le hle
    have hsplit : n' * 10 ^ (a + k) = n' * 10 ^ k * 10 ^ a := by
      rw [Nat.pow_add, Nat.mul_comm (10 ^ a), Nat.mul_assoc]
    rw [hsplit] at h ⊢
    have hlt : n < n' * 10 ^ k := Nat.lt_of_mul_lt_mul_right h
    rw [← Nat.sub_mul, ← Nat.mul_assoc]
    refine Nat.mul_le_mul_right _ ?_
    cases k with
    | zero =>
        rw [Nat.pow_zero, Nat.mul_one] at hlt ⊢
        omega
    | succ k =>
        rw [Nat.pow_succ, ← Nat.mul_assoc] at hlt ⊢
        omega

/-- Only one value in that many digits is near. -/
theorem eq_of_near {v n n' a b : Nat} (hn : n ≤ 2 * 10 ^ 15) (hn' : n' ≤ 2 * 10 ^ 15)
    (h : Near v (n * 10 ^ a)) (h' : Near v (n' * 10 ^ b)) :
    n * 10 ^ a = n' * 10 ^ b := by
  have hnot : ∀ {n n' a b : Nat}, n ≤ 2 * 10 ^ 15 → n' ≤ 2 * 10 ^ 15 → Near v (n * 10 ^ a) →
      Near v (n' * 10 ^ b) → ¬ n * 10 ^ a < n' * 10 ^ b := by
    intro n n' a b hn hn' h h' hlt
    have hapart := le_mul_sub hn hn' hlt
    have hbelow := h.below
    have habove := h'.above
    have hbelow' := h'.below
    omega
  exact Nat.le_antisymm (Nat.le_of_not_lt (hnot hn' hn h' h)) (Nat.le_of_not_lt (hnot hn hn' h h'))

/-! ## Digits that read back are close -/

theorem nearest?_of_ofRatio {negative negative' : Bool} {num den : Nat} {m : Magnitude}
    (h : ofRatio negative num den = .finite negative' m) :
    negative' = negative ∧ Magnitude.nearest? (num * unit) den = some m := by
  unfold ofRatio at h
  generalize Magnitude.nearest? (num * unit) den = nearest at h ⊢
  cases nearest with
  | none => cases h
  | some m' =>
      cases h
      exact ⟨rfl, rfl⟩

/-- With a sign, too, digits read back to the magnitude of the number that is nearest to them. -/
theorem readsBack_of_ofScaled {negative negative' : Bool} {n : Nat} {e : Int} {m : Magnitude}
    (h : ofScaled negative n e = .finite negative' m) : negative' = negative ∧ ReadsBack m n e := by
  obtain ⟨a, b, rfl⟩ : ∃ a b : Nat, e = (a : Int) - b := ⟨e.toNat, (-e).toNat, by omega⟩
  rw [ofScaled_eq negative n rfl] at h
  obtain ⟨hsign, hnearest⟩ := nearest?_of_ofRatio h
  refine ⟨hsign, ?_⟩
  rw [ReadsBack, ofScaled_eq false n rfl, ofRatio, hnearest]
  rfl

/-- What a magnitude is nearest to is off by half a unit of its last place at most.  With units of
`2 ^ -p`, values are counted in `10 ^ -p`. -/
theorem ReadsBack.close {m : Magnitude} {n k p : Nat} (hunit : unit = Nat.pow 2 p)
    (h : ReadsBack m n ((k : Int) - p)) :
    2 * (n * 10 ^ k) ≤ 2 * (m.units * Nat.pow 5 p) + Nat.pow 5 p * 2 ^ m.exponent ∧
      2 * (m.units * Nat.pow 5 p) ≤ 2 * (n * 10 ^ k) + Nat.pow 5 p * 2 ^ m.exponent := by
  rw [ReadsBack, ofScaled_eq false n (a := k) (b := p) rfl] at h
  have hclose := Magnitude.nearest?_close (pow_ten_pos p) (nearest?_of_ofRatio h).2
  have hten : Nat.pow 10 p = Nat.pow 5 p * unit := by
    rw [hunit, Nat.pow_eq, Nat.pow_eq, Nat.pow_eq, ← Nat.mul_pow]
  have hunits : m.units * Nat.pow 10 p = m.units * Nat.pow 5 p * unit := by
    rw [hten, Nat.mul_assoc]
  have hlast : Nat.pow 10 p * 2 ^ m.exponent = Nat.pow 5 p * 2 ^ m.exponent * unit := by
    rw [hten]
    ring
  have hcancel : ∀ a b c : Nat, 2 * (a * unit) ≤ 2 * (b * unit) + c * unit →
      2 * a ≤ 2 * b + c := by
    intro a b c h
    refine Nat.le_of_mul_le_mul_right (c := unit) ?_ unit_pos
    rwa [Nat.add_mul, Nat.mul_assoc, Nat.mul_assoc]
  rw [hunits, hlast] at hclose
  exact ⟨hcancel _ _ _ hclose.1, hcancel _ _ _ hclose.2⟩

/-- A value that is not too small is near to its magnitude. -/
theorem ReadsBack.near {m : Magnitude} {n k p j : Nat} (hunit : unit = Nat.pow 2 p)
    (h : ReadsBack m n ((k : Int) - p)) (hn : 0 < n) (hp : p ≤ k + j)
    (hj : 0x20000000000000 * 5 ^ j ≤ 2 ^ k) :
    Near (m.units * Nat.pow 5 p) (n * 10 ^ k) := by
  obtain ⟨habove, hbelow⟩ := h.close hunit
  have hfive : 0 < Nat.pow 5 p := Nat.pow_pos (by decide)
  have hnormal : 0x10000000000000 ≤ m.mantissa := by
    rcases m.normal with hnormal | hsmall
    · exact hnormal
    · by_contra hlt
      have hlarge : 0x20000000000000 * Nat.pow 5 p ≤ n * 10 ^ k := by
        calc 0x20000000000000 * Nat.pow 5 p ≤ 0x20000000000000 * 5 ^ (k + j) :=
              Nat.mul_le_mul_left _ (Nat.pow_le_pow_right (by decide) hp)
          _ = 0x20000000000000 * 5 ^ j * 5 ^ k := by rw [Nat.pow_add]; ring
          _ ≤ 2 ^ k * 5 ^ k := Nat.mul_le_mul_right _ hj
          _ = 10 ^ k := (Nat.mul_pow 2 5 k).symm
          _ ≤ n * 10 ^ k := Nat.le_mul_of_pos_left _ hn
      have hunits : m.units = m.mantissa := by
        rw [Magnitude.units, hsmall, Nat.pow_eq, Nat.pow_zero, Nat.mul_one]
      rw [hunits, hsmall, Nat.pow_zero, Nat.mul_one] at habove
      have := Nat.mul_le_mul_right (Nat.pow 5 p) (show m.mantissa ≤ 0x10000000000000 by omega)
      omega
  have hlast : 0x10000000000000 * (Nat.pow 5 p * 2 ^ m.exponent) ≤ m.units * Nat.pow 5 p := by
    calc 0x10000000000000 * (Nat.pow 5 p * 2 ^ m.exponent)
        ≤ m.mantissa * (Nat.pow 5 p * 2 ^ m.exponent) := Nat.mul_le_mul_right _ hnormal
      _ = m.units * Nat.pow 5 p := by
        have hpow : Nat.pow 2 m.exponent = 2 ^ m.exponent := rfl
        rw [Magnitude.units, hpow]
        ring
  constructor
  · omega
  · omega

/-! ## The search -/

theorem onGrid?_eq {m : Magnitude} {v k n : Nat} (h : onGrid? m v k = some n) :
    n ≤ v / 10 ^ k + 1 := by
  simp only [onGrid?, Nat.pow_eq] at h
  split at h
  · split at h
    · cases h
      exact Nat.le_succ _
    · cases h
      exact Nat.le_refl _
  · cases h
    exact Nat.le_succ _
  · cases h
    exact Nat.le_refl _
  · cases h

theorem readsBack_of_onGrid?_eq_none {m : Magnitude} {v k : Nat} (h : onGrid? m v k = none) :
    readsBack m (v / 10 ^ k) k = false ∧ readsBack m (v / 10 ^ k + 1) k = false := by
  simp only [onGrid?, Nat.pow_eq] at h
  split at h
  · split at h
    · cases h
    · cases h
  · cases h
  · cases h
  · rename_i hbelow habove
    exact ⟨hbelow, habove⟩

/-- Digits that are near and read back are a hit, or next to one. -/
theorem exists_onGrid? {m : Magnitude} {v n k : Nat} (hn : n ≤ 10 ^ 15) (h : Near v (n * 10 ^ k))
    (hback : readsBack m n k = true) : ∃ n', onGrid? m v k = some n' := by
  have hneighbour : n = v / 10 ^ k ∨ n = v / 10 ^ k + 1 := by
    have hpow : 0 < 10 ^ k := Nat.pow_pos (by decide)
    have hle : n * 10 ^ k ≤ 10 ^ 15 * 10 ^ k := Nat.mul_le_mul_right _ hn
    obtain ⟨habove, hbelow⟩ := h
    have hlower : v / 10 ^ k < n + 1 := by
      rw [Nat.div_lt_iff_lt_mul hpow, Nat.add_mul]
      omega
    have hupper : n - 1 ≤ v / 10 ^ k := by
      rw [Nat.le_div_iff_mul_le hpow, Nat.sub_mul]
      omega
    omega
  refine Option.ne_none_iff_exists'.1 fun hnone => ?_
  obtain ⟨hbelow, habove⟩ := readsBack_of_onGrid?_eq_none hnone
  rcases hneighbour with heq | heq
  · rw [heq, hbelow] at hback
    cases hback
  · rw [heq, habove] at hback
    cases hback

/-- The search ends on the grid of a hit, or before. -/
theorem exists_firstHit {m : Magnitude} {v j : Nat} (hhit : ∃ n, onGrid? m v j = some n)
    {tries k : Nat} (hj : j ≤ k) (htries : k < j + tries) :
    ∃ n k', firstHit m v tries k = (n, k') ∧ j ≤ k' ∧ onGrid? m v k' = some n := by
  induction tries generalizing k with
  | zero => omega
  | succ tries ih =>
      rw [firstHit]
      cases hgrid : onGrid? m v k with
      | some n => exact ⟨n, k, rfl, hj, hgrid⟩
      | none =>
          have hne : j ≠ k := by
            rintro rfl
            obtain ⟨n, hn⟩ := hhit
            rw [hgrid] at hn
            cases hn
          exact ih (by omega) (by omega)

/-! ## The shortest digits -/

/-- What reads back is near, unless it is far below one. -/
theorem near_of_readsBack {m : Magnitude} {n k : Nat} (hn : 0 < n) (hk : 1050 ≤ k)
    (h : ReadsBack m n ((k : Int) - 1074)) : Near (decimalUnits m) (n * 10 ^ k) := by
  have hsmall : 0x20000000000000 * 5 ^ 24 ≤ 2 ^ k :=
    Nat.le_trans (by decide : 0x20000000000000 * 5 ^ 24 ≤ 2 ^ 109)
      (Nat.pow_le_pow_right (by decide) (by omega))
  obtain ⟨p, hp, hunit⟩ := exists_unit
  have hdecimal : decimalUnits m = m.units * Nat.pow 5 p := by
    unfold decimalUnits
    rw [← hp]
  have h : ReadsBack m n ((k : Int) - p) := by
    rw [hp]
    exact h
  rw [hdecimal]
  exact h.near hunit hn (by omega) hsmall

theorem ne_zero_of_near {m : Magnitude} {d : Nat} (hd : 0 < d) (h : Near (decimalUnits m) d) :
    m ≠ .zero := by
  intro hm
  have hunits : m.units = 0 := by
    rw [hm]
    rfl
  have hzero : decimalUnits m = 0 := by
    unfold decimalUnits
    exact Nat.mul_eq_zero.2 (.inl hunits)
  have habove := h.above
  rw [hzero] at habove
  omega

/-- The shortest digits of the number nearest to a value in at most fifteen digits have this
value. -/
theorem exists_hit {m : Magnitude} {n k : Nat} (hn : 10 ≤ n) (hn' : n ≤ 10 ^ 15)
    (hk : 1050 ≤ k) (h : ReadsBack m n ((k : Int) - 1074)) :
    ∃ n' k', shortest m = ofHit (n', k') ∧ n' * 10 ^ k' = n * 10 ^ k := by
  have hnear := near_of_readsBack (Nat.lt_of_lt_of_le (by decide) hn) hk h
  have habove := hnear.above
  have hbelow := hnear.below
  have hpow : 0 < 10 ^ k := Nat.pow_pos (by decide)
  have hle : n * 10 ^ k ≤ 10 ^ 15 * 10 ^ k := Nat.mul_le_mul_right _ hn'
  have hge : 10 * 10 ^ k ≤ n * 10 ^ k := Nat.mul_le_mul_right _ hn
  have hm : m ≠ .zero := ne_zero_of_near (by omega) hnear
  have hlength : ∀ {j}, 0 < j → ((digits (decimalUnits m)).length ≤ j ↔ decimalUnits m < 10 ^ j) :=
    fun hj => Nat.length_toDigits_le_iff (by decide) hj
  have hstart : k ≤ (digits (decimalUnits m)).length - 1 := by
    by_contra hlt
    have := (hlength (j := k) (by omega)).1 (by omega)
    omega
  have hend : (digits (decimalUnits m)).length - 1 < k + 17 := by
    have hsplit : 10 ^ (k + 17) = 10 ^ 17 * 10 ^ k := by rw [Nat.pow_add, Nat.mul_comm]
    have := (hlength (j := k + 17) (by omega)).2 (by omega)
    omega
  obtain ⟨n', k', hhit, hk', hgrid⟩ :=
    exists_firstHit (exists_onGrid? hn' hnear (readsBack_iff.2 h)) hstart hend
  refine ⟨n', k', by rw [shortest, hhit], ?_⟩
  have hback := readsBack_of_onGrid? hgrid
  have hfew : n' ≤ 2 * 10 ^ 15 := by
    have hgrids : decimalUnits m / 10 ^ k' ≤ decimalUnits m / 10 ^ k :=
      Nat.div_le_div_left (Nat.pow_le_pow_right (by decide) hk') hpow
    have hquotient : decimalUnits m / 10 ^ k < 10 ^ 15 + 1 := by
      rw [Nat.div_lt_iff_lt_mul hpow]
      omega
    have := onGrid?_eq hgrid
    omega
  exact eq_of_near hfew (by omega)
    (near_of_readsBack (hback.pos hm) (Nat.le_trans hk hk') hback) hnear

theorem value_ofHit (hit : Nat × Nat) :
    ((ofHit hit).1 : Rat) * 10 ^ (ofHit hit).2 = hit.1 * 10 ^ ((hit.2 : Int) - 1074) := by
  rw [ofHit]
  split
  · rename_i hten
    have hcomm : (hit.2 : Int) + 1 - 1074 = (hit.2 : Int) - 1074 + 1 := by omega
    rw [hten, hcomm, zpow_add_one₀ (by norm_num)]
    push_cast
    ring
  · rfl

theorem value_pointed (n : Nat) (e : Int) :
    mkRat (n * 10 ^ e.toNat : Nat) (Nat.pow 10 (-e).toNat) = n * 10 ^ e := by
  rw [Rat.mkRat_eq_div, Nat.pow_eq]
  push_cast
  rcases Int.le_total 0 e with he | he
  · obtain ⟨k, rfl⟩ := Int.eq_ofNat_of_zero_le he
    simp
  · obtain ⟨k, hk⟩ := Int.eq_ofNat_of_zero_le (Int.neg_nonneg_of_nonpos he)
    obtain rfl : e = -(k : Int) := by omega
    simp [div_eq_mul_inv]

/-- The number nearest to a value in at most fifteen digits is written as a numeral of this value,
unless it is far below one. -/
theorem exists_numeral_of_readsBack {m : Magnitude} {n : Nat} {e : Int} (hn : 0 < n)
    (hn' : n < 10 ^ 15) (he : -22 ≤ e) (h : ReadsBack m n e) :
    ∃ numeral : Numeral, magnitudeText m = numeral.text ∧ numeral.value = n * 10 ^ e := by
  obtain ⟨n', k, hten, hfew, hk, hvalue, hback⟩ : ∃ n' k : Nat, 10 ≤ n' ∧ n' ≤ 10 ^ 15 ∧
      1050 ≤ k ∧ (n' : Rat) * 10 ^ ((k : Int) - 1074) = n * 10 ^ e ∧
      ReadsBack m n' ((k : Int) - 1074) := by
    by_cases hten : 10 ≤ n
    · have hk : ((e + 1074).toNat : Int) - 1074 = e := by omega
      exact ⟨n, (e + 1074).toNat, hten, by omega, by omega, by rw [hk], by rwa [hk]⟩
    · have hk : ((e + 1073).toNat : Int) - 1074 = e - 1 := by omega
      refine ⟨n * 10, (e + 1073).toNat, by omega, by omega, by omega, ?_, ?_⟩
      · rw [hk, zpow_sub_one₀ (by norm_num)]
        push_cast
        field_simp
      · rw [hk, readsBack_mul_ten, Int.sub_add_cancel]
        exact h
  obtain ⟨n'', k', hshortest, hsame⟩ := exists_hit hten hfew hk hback
  have hm : m ≠ .zero :=
    ne_zero_of_near (Nat.mul_pos (by omega) (Nat.pow_pos (by decide)))
      (near_of_readsBack (by omega) hk hback)
  refine ⟨.ofNat _ _, by rw [magnitudeText_eq hm, Numeral.text_ofNat], ?_⟩
  rw [Numeral.value, Numeral.mantissa_ofNat, Numeral.scale_ofNat, value_pointed, hshortest,
    value_ofHit, ← hvalue, zpow_sub₀ (by norm_num), zpow_sub₀ (by norm_num), zpow_natCast,
    zpow_natCast, ← mul_div_assoc, ← mul_div_assoc]
  congr 1
  exact_mod_cast hsame

end Binary64

end FundsTransfer
