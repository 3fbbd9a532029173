import FundsTransfer.Decimal.Text
import FundsTransfer.Proofs.Text.Numeral

/-!
# Reading a numeral

A decimal is read digit by digit, and every digit is asked whether it still fits.  A numeral in
plain notation is read in full when all its digits fit, whatever is to happen to a digit that
does not, and then it is the decimal with its digits and its scale: `ofText_text`.  When one
does not fit and is to be refused, there is no decimal, `ofTextExact_text`.

Since a decimal is written as a numeral, it is read back, `ofText_decimal`.  Only a zero loses
its sign.
-/

namespace FundsTransfer.Decimal

open Text

variable {excess : Excess} {seen : Bool} {m scale : Nat} {s : List Char}

/-! ## Digits behind the point -/

/-- Digits that fit are all taken. -/
theorem readFraction_digits (hs : ∀ c ∈ s, c.isDigit = true) (hseen : seen = true ∨ s ≠ [])
    (hm : digitsFrom m s < 0x1000000000000000000000000) (hscale : scale + s.length ≤ 28) :
    readFraction excess seen m scale s = .ok (digitsFrom m s, scale + s.length) := by
  induction s generalizing seen m scale with
  | nil =>
      have hseen : seen = true := by simpa using hseen
      simp [readFraction, hseen, digitsFrom]
  | cons c r ih =>
      have hc := hs c (by simp)
      have hnext : m * 10 + digitValue c < 0x1000000000000000000000000 :=
        Nat.lt_of_le_of_lt (le_digitsFrom _ r) hm
      rw [List.length_cons] at hscale
      have hroom : scale ≠ 28 := by omega
      have hrest : readFraction excess true (m * 10 + digitValue c) (scale + 1) r =
          .ok (digitsFrom (m * 10 + digitValue c) r, scale + 1 + r.length) :=
        ih (fun d hd => hs d (by simp [hd])) (.inl rfl) hm (by omega)
      simp only [readFraction, hroom, hc, hnext, if_true, if_false, hrest, List.length_cons]
      congr 2
      omega

/-- Digits that do not fit are refused. -/
theorem readFraction_refuses (hs : ∀ c ∈ s, c.isDigit = true)
    (hm : m < 0x1000000000000000000000000) (hscale : scale ≤ 28)
    (h : 0x1000000000000000000000000 ≤ digitsFrom m s ∨ 28 < scale + s.length) :
    readFraction .refuse seen m scale s = .error .tooPrecise := by
  induction s generalizing seen m scale with
  | nil =>
      have : digitsFrom m [] = m := rfl
      simp only [List.length_nil] at h
      omega
  | cons c r ih =>
      have hc := hs c (by simp)
      rw [List.length_cons] at h
      by_cases hroom : scale = 28
      · simp [readFraction, hroom]
      by_cases hnext : m * 10 + digitValue c < 0x1000000000000000000000000
      · have hrest : readFraction .refuse true (m * 10 + digitValue c) (scale + 1) r =
            .error .tooPrecise :=
          ih (fun d hd => hs d (by simp [hd])) hnext (by omega) (h.imp id fun h => by omega)
        simp only [readFraction, hroom, hc, hnext, if_true, if_false, hrest]
      · simp only [readFraction, hroom, hc, hnext, if_true, if_false]

/-! ## Digits before the point -/

/-- Digits that fit are all taken. -/
theorem readWhole_digits (hs : ∀ c ∈ s, c.isDigit = true)
    (hm : digitsFrom m s < 0x1000000000000000000000000) (rest : List Char) :
    readWhole excess seen m (s ++ rest) =
      readWhole excess (seen || !s.isEmpty) (digitsFrom m s) rest := by
  induction s generalizing seen m with
  | nil => simp [digitsFrom]
  | cons c r ih =>
      have hc := hs c (by simp)
      have hnext : m * 10 + digitValue c < 0x1000000000000000000000000 :=
        Nat.lt_of_le_of_lt (le_digitsFrom _ r) hm
      have hrest : readWhole excess true (m * 10 + digitValue c) (r ++ rest) =
          readWhole excess (true || !r.isEmpty) (digitsFrom (m * 10 + digitValue c) r) rest :=
        ih (fun d hd => hs d (by simp [hd])) hm
      rw [List.cons_append]
      simp only [readWhole, hc, hnext, if_true, hrest, Bool.true_or, List.isEmpty_cons,
        Bool.not_false, Bool.or_true]
      rfl

/-- Digits that do not fit are refused in any case. -/
theorem readWhole_refuses (hs : ∀ c ∈ s, c.isDigit = true)
    (hm : m < 0x1000000000000000000000000)
    (h : 0x1000000000000000000000000 ≤ digitsFrom m s) (rest : List Char) :
    readWhole excess seen m (s ++ rest) = .error .tooManyDigits := by
  induction s generalizing seen m with
  | nil =>
      have : digitsFrom m [] = m := rfl
      omega
  | cons c r ih =>
      have hc := hs c (by simp)
      rw [List.cons_append]
      by_cases hnext : m * 10 + digitValue c < 0x1000000000000000000000000
      · have hrest : readWhole excess true (m * 10 + digitValue c) (r ++ rest) =
            .error .tooManyDigits :=
          ih (fun d hd => hs d (by simp [hd])) hnext h
        simp only [readWhole, hc, hnext, if_true, hrest]
      · simp only [readWhole, hc, hnext, if_true, if_false]

/-! ## Numerals -/

theorem mantissa_eq (n : Numeral) :
    n.mantissa = digitsFrom (digitsValue n.whole) n.fraction := by
  rw [Numeral.mantissa, digitsValue, digitsFrom_append]
  rfl

/-- The digits of a numeral that fits are all taken. -/
theorem readWhole_text (n : Numeral) (h : n.Fits) :
    readWhole excess false 0 n.text = .ok (n.mantissa, n.scale) := by
  have hmantissa := h.mantissa_lt
  rw [mantissa_eq] at hmantissa ⊢
  have hwhole : digitsFrom 0 n.whole < 0x1000000000000000000000000 :=
    Nat.lt_of_le_of_lt (le_digitsFrom _ n.fraction) hmantissa
  have hseen : (false || !n.whole.isEmpty) = true := by simpa using n.whole_ne_nil
  rw [Numeral.text, readWhole_digits n.isDigit_whole hwhole, hseen]
  by_cases hfraction : n.fraction = []
  · simp [hfraction, readWhole, Numeral.scale, digitsFrom, digitsValue]
  · have hpoint : ('.' : Char).isDigit = false := by decide
    rw [if_neg hfraction]
    simp only [readWhole, hpoint, Bool.false_eq_true, if_false, if_true]
    have hscale : 0 + n.fraction.length ≤ 28 := (Nat.zero_add _).symm ▸ h.scale_le
    have hread : readFraction excess true (digitsValue n.whole) 0 n.fraction =
        .ok (digitsFrom (digitsValue n.whole) n.fraction, 0 + n.fraction.length) :=
      readFraction_digits n.isDigit_fraction (.inl rfl) hmantissa hscale
    rw [Nat.zero_add] at hread
    exact hread

/-- A digit of a numeral that does not fit is refused. -/
theorem readWhole_text_refuses (n : Numeral) (h : ¬ n.Fits) :
    ∃ e, readWhole .refuse false 0 n.text = .error e := by
  rw [Numeral.text]
  by_cases hwhole : digitsFrom 0 n.whole < 0x1000000000000000000000000
  · have hover : 0x1000000000000000000000000 ≤ digitsFrom (digitsFrom 0 n.whole) n.fraction ∨
        28 < 0 + n.fraction.length := by
      rw [Nat.zero_add]
      by_contra hfits
      refine h ⟨?_, ?_⟩
      · rw [mantissa_eq]
        exact Nat.lt_of_not_le fun hle => hfits (.inl hle)
      · exact Nat.le_of_not_lt fun hlt => hfits (.inr hlt)
    have hfraction : n.fraction ≠ [] := by
      rintro hnil
      have hsame : digitsFrom (digitsFrom 0 n.whole) [] = digitsFrom 0 n.whole := rfl
      rw [hnil, hsame, List.length_nil] at hover
      omega
    have hpoint : ('.' : Char).isDigit = false := by decide
    refine ⟨.tooPrecise, ?_⟩
    rw [readWhole_digits n.isDigit_whole hwhole, if_neg hfraction]
    simp only [readWhole, hpoint, Bool.false_eq_true, if_false, if_true]
    exact readFraction_refuses n.isDigit_fraction hwhole (Nat.zero_le _) hover
  · exact ⟨_, readWhole_refuses n.isDigit_whole (by decide) (Nat.le_of_not_lt hwhole) _⟩

/-- A decimal has the parts of which it is made. -/
theorem eq_of_ofParts? {negative : Bool} {m scale : Nat} {d : Decimal}
    (h : ofParts? negative m scale = some d) :
    d.negative = negative ∧ d.mantissa = m ∧ d.scale = scale := by
  unfold ofParts? at h
  split at h
  · cases h
    exact ⟨rfl, rfl, rfl⟩
  · cases h

theorem ofParts?_of_withSign {negative : Bool} {m scale : Nat} {d : Decimal}
    (h : withSign negative (m, scale) = .ok d) :
    ofParts? (negative && m != 0) m scale = some d := by
  simp only [withSign] at h
  split at h
  · rename_i hparts
    cases h
    exact hparts
  · cases h

theorem withSign_of_fits (negative : Bool) (n : Numeral) (h : n.Fits) :
    withSign negative (n.mantissa, n.scale) =
      .ok { n.toDecimal h with negative := negative && n.mantissa != 0 } := by
  rw [withSign, ofParts?, dif_pos ⟨h.mantissa_lt, h.scale_le⟩]
  rfl

/-- A numeral does not start with a sign. -/
theorem ofText_unsigned (n : Numeral) :
    ofText excess n.text = readWhole excess false 0 n.text >>= withSign false := by
  obtain ⟨c, r, htext, hc⟩ := n.exists_text_eq_cons
  rw [htext]
  unfold ofText
  split
  · rename_i heq
    cases heq
    exact absurd hc (by decide)
  · rename_i heq
    cases heq
    exact absurd hc (by decide)
  · rfl

/-- A numeral that fits is the decimal with its digits and its scale. -/
theorem ofText_text (n : Numeral) (h : n.Fits) : ofText excess n.text = .ok (n.toDecimal h) := by
  rw [ofText_unsigned, readWhole_text n h]
  exact withSign_of_fits false n h

/-- Behind a minus sign it is the negated decimal, but for a zero. -/
theorem ofText_minus (n : Numeral) (h : n.Fits) :
    ofText excess ('-' :: n.text) =
      .ok { n.toDecimal h with negative := n.mantissa != 0 } := by
  show readWhole excess false 0 n.text >>= withSign true = _
  rw [readWhole_text n h]
  exact withSign_of_fits true n h

/-- A numeral that does not fit is no decimal. -/
theorem ofTextExact_refuses (n : Numeral) (h : ¬ n.Fits) : ∃ e, ofTextExact n.text = .error e := by
  obtain ⟨e, he⟩ := readWhole_text_refuses n h
  exact ⟨e, by rw [ofTextExact, ofText_unsigned, he]; rfl⟩

theorem ofTextExact_minus_refuses (n : Numeral) (h : ¬ n.Fits) :
    ∃ e, ofTextExact ('-' :: n.text) = .error e := by
  obtain ⟨e, he⟩ := readWhole_text_refuses n h
  refine ⟨e, ?_⟩
  show readWhole .refuse false 0 n.text >>= withSign true = _
  rw [he]
  rfl

/-! ## Decimals -/

/-- The numeral as which the digits of a decimal are written. -/
def numeral (d : Decimal) : Numeral := .ofNat d.mantissa d.scale

theorem fits_numeral (d : Decimal) : d.numeral.Fits :=
  ⟨by simpa [numeral] using d.mantissa_lt, by simpa [numeral] using d.scale_le⟩

theorem text_eq (d : Decimal) :
    d.text = (if d.negative then ['-'] else []) ++ d.numeral.text := by
  rw [text, numeral, Numeral.text_ofNat]

/-- A decimal is read back, but for the sign of a zero. -/
theorem ofText_decimal (d : Decimal) :
    ofText excess d.text = .ok { d with negative := d.negative && d.mantissa != 0 } := by
  have hmantissa : d.numeral.mantissa = d.mantissa := Numeral.mantissa_ofNat _ _
  have hscale : d.numeral.scale = d.scale := Numeral.scale_ofNat _ _
  rw [text_eq]
  cases hnegative : d.negative with
  | false =>
      refine (ofText_text d.numeral d.fits_numeral).trans ?_
      simp [Numeral.toDecimal, hmantissa, hscale]
  | true =>
      refine (ofText_minus d.numeral d.fits_numeral).trans ?_
      simp [Numeral.toDecimal, hmantissa, hscale]

end FundsTransfer.Decimal
