import FundsTransfer.Binary64.Text
import FundsTransfer.Proofs.Binary64.Nearest
import FundsTransfer.Proofs.Text.Numeral

/-!
# The text of a finite number

A finite number is written in plain notation, and what is written rounds to the number.  The
search for the fewest digits looks for nothing else, and where it ends without a hit, the exact
digits take its place.  `exists_pointed` is all of this.

A numeral is read as its digits and the power of ten of its point, `ofText?_text`.  So a
number whose numeral is within the limits of a decimal is read back, `ofText?_of_fits`.
-/

namespace FundsTransfer.Binary64

open Text

/-! ## Digits that read back -/

/-- Digits with a power of ten of which a magnitude is the nearest. -/
def ReadsBack (m : Magnitude) (n : Nat) (e : Int) : Prop :=
  ofScaled false n e = .finite false m

theorem readsBack_iff {m : Magnitude} {n k : Nat} :
    readsBack m n k = true ↔ ReadsBack m n ((k : Int) - 1074) := by
  rw [readsBack, ReadsBack, decide_eq_true_iff]

/-- Moving a zero from the digits to the power of ten changes nothing. -/
theorem readsBack_mul_ten {m : Magnitude} {n : Nat} {e : Int} :
    ReadsBack m (n * 10) e ↔ ReadsBack m n (e + 1) := by
  rw [ReadsBack, ReadsBack, ofScaled_mul_ten]

/-- The units of a magnitude are as many units of ten as the power of five says. -/
theorem readsBack_units_mul {m : Magnitude} {p : Nat} (hunit : unit = Nat.pow 2 p) :
    ReadsBack m (m.units * Nat.pow 5 p) (-(p : Int)) := by
  rw [ReadsBack, ofScaled_neg, ← ofRatio_units false m]
  refine ofRatio_congr false (pow_ten_pos p) unit_pos ?_
  rw [hunit]
  simp only [Nat.pow_eq]
  rw [show (10 : Nat) = 5 * 2 from rfl, Nat.mul_pow, Nat.mul_assoc]

/-- The exact digits read back. -/
theorem readsBack_decimalUnits (m : Magnitude) : ReadsBack m (decimalUnits m) (((0 : Nat) : Int) - 1074) := by
  have hexponent : ((0 : Nat) : Int) - 1074 = -((1074 : Nat) : Int) := by omega
  rw [hexponent]
  unfold decimalUnits
  apply readsBack_units_mul
  unfold unit
  exact Eq.refl _

/-- A neighbour on a grid is taken only if it reads back. -/
theorem readsBack_of_onGrid? {m : Magnitude} {value k n : Nat} (h : onGrid? m value k = some n) :
    ReadsBack m n ((k : Int) - 1074) := by
  simp only [onGrid?] at h
  split at h
  · rename_i hbelow habove
    split at h
    · cases h
      exact readsBack_iff.1 hbelow
    · cases h
      exact readsBack_iff.1 habove
  · rename_i hbelow _
    cases h
    exact readsBack_iff.1 hbelow
  · rename_i _ habove
    cases h
    exact readsBack_iff.1 habove
  · cases h

/-- Whatever the search ends with reads back, if its value does. -/
theorem readsBack_firstHit {m : Magnitude} {value : Nat}
    (hvalue : ReadsBack m value (((0 : Nat) : Int) - 1074)) (tries k : Nat) :
    ReadsBack m (firstHit m value tries k).1 (((firstHit m value tries k).2 : Int) - 1074) := by
  induction tries generalizing k with
  | zero =>
      rw [firstHit]
      exact hvalue
  | succ tries ih =>
      rw [firstHit]
      cases hgrid : onGrid? m value k with
      | some n => exact readsBack_of_onGrid? hgrid
      | none => exact ih (k - 1)

theorem ReadsBack.ofHit {m : Magnitude} {hit : Nat × Nat}
    (h : ReadsBack m hit.1 ((hit.2 : Int) - 1074)) :
    ReadsBack m (ofHit hit).1 (ofHit hit).2 := by
  unfold Binary64.ofHit
  split
  · rename_i hten
    have hcomm : (hit.2 : Int) + 1 - 1074 = (hit.2 : Int) - 1074 + 1 := by omega
    rw [hten] at h
    rw [hcomm]
    exact readsBack_mul_ten.1 h
  · exact h

theorem readsBack_shortest (m : Magnitude) : ReadsBack m (shortest m).1 (shortest m).2 := by
  unfold shortest
  exact (readsBack_firstHit (readsBack_decimalUnits m) _ _).ofHit

/-- Only zero is nearest to zero. -/
theorem ReadsBack.pos {m : Magnitude} {n : Nat} {e : Int} (h : ReadsBack m n e) (hm : m ≠ .zero) :
    0 < n := by
  refine Nat.pos_of_ne_zero fun hzero => hm ?_
  subst hzero
  obtain ⟨a, b, rfl⟩ : ∃ a b : Nat, e = (a : Int) - b := ⟨e.toNat, (-e).toNat, by omega⟩
  rw [ReadsBack, ofScaled_eq false 0 (a := a) (b := b) rfl, Nat.zero_mul,
    ofRatio_zero false (pow_ten_pos b)] at h
  injection h with _ hm
  exact hm.symm

/-! ## The numeral of a magnitude -/

/-- Zeros behind digits multiply by ten. -/
theorem digits_append_zeros {n : Nat} (hn : 0 < n) (k : Nat) :
    digits n ++ List.replicate k '0' = digits (n * 10 ^ k) := by
  induction k with
  | zero => simp
  | succ k ih =>
      have hpos : 0 < n * 10 ^ k := Nat.mul_pos hn (Nat.pow_pos (by decide))
      have hstep : digits (n * 10 ^ k * 10) = digits (n * 10 ^ k) ++ ['0'] := by
        rw [digits, Nat.toDigits_of_base_le (by decide) (by omega), Nat.mul_div_cancel _ (by decide),
          Nat.mul_mod_left]
        rfl
      rw [List.replicate_succ', ← List.append_assoc, ih, ← hstep, Nat.pow_succ, Nat.mul_assoc]

theorem pointed_zero (n : Nat) : pointed n 0 = digits n := by
  have hpos : 0 < (digits n).length := Nat.length_toDigits_pos
  rw [pointed, if_pos rfl, padded, Nat.sub_eq_zero_of_le (by omega)]
  rfl

/-- In positional notation, digits with any power of ten are digits with a point. -/
theorem positional_eq {n : Nat} (hn : 0 < n) (e : Int) :
    positional n e = pointed (n * 10 ^ e.toNat) (-e).toNat := by
  cases e with
  | ofNat k =>
      have hscale : (-(Int.ofNat k)).toNat = 0 := by simp
      rw [positional, digits_append_zeros hn, hscale, pointed_zero]
      rfl
  | negSucc k =>
      have hscale : (-(Int.negSucc k)).toNat = k + 1 := rfl
      rw [positional, hscale, Int.toNat_negSucc, Nat.pow_zero, Nat.mul_one]

theorem magnitudeText_eq {m : Magnitude} (hm : m ≠ .zero) :
    magnitudeText m =
      pointed ((shortest m).1 * 10 ^ (shortest m).2.toNat) (-(shortest m).2).toNat := by
  have hisZero : ¬ m.isZero = true := fun h =>
    hm (Magnitude.eq_zero_of_mantissa (by simpa [Magnitude.isZero] using h))
  rw [magnitudeText, if_neg hisZero, positional_eq ((readsBack_shortest m).pos hm)]

/-- A magnitude is written in digits with a point, and it is nearest to their value. -/
theorem exists_pointed (m : Magnitude) :
    ∃ k scale : Nat, magnitudeText m = pointed k scale ∧ ReadsBack m k (-(scale : Int)) ∧
      (k = 0 ↔ m = .zero) := by
  by_cases hm : m = .zero
  · subst hm
    refine ⟨0, 0, rfl, ?_, by simp⟩
    rw [ReadsBack, ofScaled_neg, ofRatio_zero false (pow_ten_pos 0)]
  · have hback := readsBack_shortest m
    refine ⟨_, _, magnitudeText_eq hm, ?_, ?_⟩
    · rw [ReadsBack, ← hback, ofScaled_neg,
        ofScaled_eq false (shortest m).1 (a := (shortest m).2.toNat) (b := (-(shortest m).2).toNat)
          (by omega)]
      rfl
    · simp [hm, Nat.pos_iff_ne_zero.1 (hback.pos hm)]

/-! ## Reading a numeral -/

theorem takeWhile_isDigit {s t : List Char} (hs : ∀ c ∈ s, c.isDigit = true)
    (ht : t.head?.all (!·.isDigit) = true) :
    (s ++ t).takeWhile Char.isDigit = s ∧ (s ++ t).dropWhile Char.isDigit = t := by
  rw [List.takeWhile_append_of_pos hs, List.dropWhile_append_of_pos hs]
  cases t with
  | nil => simp
  | cons c t => simp_all

/-- The digits of a numeral are taken with the power of ten of its point. -/
theorem readDigits_text (negative : Bool) (n : Numeral) :
    readDigits negative n.text = some (ofDigits negative n.mantissa (-(n.scale : Int))) := by
  have hwhole := takeWhile_isDigit (t := if n.fraction = [] then [] else '.' :: n.fraction)
    n.isDigit_whole (by split <;> rfl)
  have hfraction := takeWhile_isDigit (t := []) n.isDigit_fraction rfl
  rw [List.append_nil] at hfraction
  simp only [readDigits, Numeral.text, hwhole.1, hwhole.2]
  by_cases hpoint : n.fraction = []
  · simp [hpoint, n.whole_ne_nil, Numeral.mantissa, Numeral.scale]
  · simp [hpoint, hfraction.1, hfraction.2, Numeral.mantissa, Numeral.scale]

/-- A numeral is no name. -/
theorem readUnsigned_text (negative : Bool) (n : Numeral) :
    readUnsigned negative n.text = readDigits negative n.text := by
  obtain ⟨c, r, htext, hc⟩ := n.exists_text_eq_cons
  have hlower : c.toLower = c := by
    simp only [Char.isDigit, Bool.and_eq_true, decide_eq_true_eq] at hc
    refine dif_neg ?_
    rintro ⟨hle, -⟩
    exact absurd (UInt32.le_trans hle hc.2) (by decide)
  have hname : ∀ d : Char, d.isDigit = false → c ≠ d := by
    rintro d hd rfl
    exact absurd hc (by simp [hd])
  rw [htext, readUnsigned, List.map_cons, hlower]
  split
  · rename_i heq
    exact absurd (List.cons.inj heq).1 (hname 'n' rfl)
  · rename_i heq
    exact absurd (List.cons.inj heq).1 (hname 'i' rfl)
  · rename_i heq
    exact absurd (List.cons.inj heq).1 (hname 'i' rfl)
  · rfl

theorem ofText?_text (n : Numeral) :
    ofText? n.text = some (ofDigits false n.mantissa (-(n.scale : Int))) := by
  rw [← readDigits_text, ← readUnsigned_text]
  obtain ⟨c, r, htext, hc⟩ := n.exists_text_eq_cons
  rw [htext]
  unfold ofText?
  split
  · rename_i heq
    cases heq
    exact absurd hc (by decide)
  · rename_i heq
    cases heq
    exact absurd hc (by decide)
  · rfl

/-- A number whose numeral is within the limits of a decimal is read back. -/
theorem ofText?_of_fits {m : Magnitude} {n : Numeral} (hfits : n.Fits)
    (hback : ReadsBack m n.mantissa (-(n.scale : Int))) :
    ofText? n.text = some (.finite false m) := by
  rw [ofText?_text, ofDigits]
  by_cases hzero : n.mantissa = 0
  · rw [if_pos hzero]
    rw [hzero, ReadsBack, ofScaled_neg, ofRatio_zero false (pow_ten_pos n.scale)] at hback
    rw [hback]
  · have hlength : (digits n.mantissa).length ≤ 29 := by
      refine (Nat.length_toDigits_le_iff (by decide) (by decide)).2 ?_
      exact Nat.lt_trans hfits.mantissa_lt (by decide)
    have hscale := hfits.scale_le
    rw [if_neg hzero, if_neg (by omega), if_neg (by omega), hback]

end FundsTransfer.Binary64
