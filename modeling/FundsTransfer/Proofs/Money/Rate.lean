import FundsTransfer.Money.Rate
import FundsTransfer.Proofs.Binary64.Text
import FundsTransfer.Proofs.Decimal.Exact
import FundsTransfer.Proofs.Decimal.Reading

/-!
# Which exchange rates are accepted

A rate is taken at its text, so the question is which texts are decimals.  Every finite number is
written as a numeral with or without a minus sign, and such a text is a decimal exactly when
its digits are within the limits, `FitsDecimal`.  The decimal is written as the same numeral again,
and that is why nothing is lost: what is written rounds to the rate.

A minus sign in front of a zero is the one thing that the decimal does not keep.  No rate with a
sign is accepted, so this is seen in the refusals only.
-/

namespace FundsTransfer

open Text

/-! ## Texts within the limits -/

/-- There are at most 28 digits behind the point of a text, and all its digits together spell a
number of at most 96 bits. -/
def FitsDecimal (t : List Char) : Prop :=
  ((t.dropWhile (· != '.')).drop 1).length ≤ 28 ∧ digitsValue (t.filter Char.isDigit) < 2 ^ 96

/-- A text with a minus sign in front of it or without. -/
def minused (negative : Bool) (s : List Char) : List Char := (if negative then ['-'] else []) ++ s

theorem length_fraction_minused (negative : Bool) (n : Numeral) :
    (((minused negative n.text).dropWhile (· != '.')).drop 1).length = n.scale := by
  have hdigit : ∀ c : Char, c.isDigit = true → (c != '.') = true := by
    intro c hc
    simp only [bne_iff_ne, ne_eq]
    rintro rfl
    exact absurd hc (by decide)
  have hwhole : ∀ c ∈ (if negative then ['-'] else []) ++ n.whole, (c != '.') = true := by
    intro c hc
    rcases List.mem_append.1 hc with hc | hc
    · cases negative <;> simp_all
    · exact hdigit c (n.isDigit_whole c hc)
  rw [minused, Numeral.text, ← List.append_assoc, List.dropWhile_append_of_pos hwhole]
  by_cases hfraction : n.fraction = []
  · simp [hfraction, Numeral.scale]
  · simp [hfraction, Numeral.scale]

theorem filter_isDigit_minused (negative : Bool) (n : Numeral) :
    (minused negative n.text).filter Char.isDigit = n.whole ++ n.fraction := by
  have hwhole := List.filter_eq_self.2 n.isDigit_whole
  have hfraction := List.filter_eq_self.2 n.isDigit_fraction
  have hsign : (if negative then ['-'] else []).filter Char.isDigit = [] := by
    cases negative <;> rfl
  have hpoint : (if n.fraction = [] then [] else '.' :: n.fraction).filter Char.isDigit =
      n.fraction := by
    by_cases hnil : n.fraction = []
    · simp [hnil]
    · rw [if_neg hnil, List.filter_cons_of_neg (by decide), hfraction]
  rw [minused, Numeral.text, List.filter_append, List.filter_append, hsign, hwhole, hpoint,
    List.nil_append]

theorem fitsDecimal_iff (negative : Bool) (n : Numeral) :
    FitsDecimal (minused negative n.text) ↔ n.Fits := by
  rw [FitsDecimal, length_fraction_minused, filter_isDigit_minused]
  constructor
  · rintro ⟨hscale, hmantissa⟩
    exact ⟨hmantissa, hscale⟩
  · rintro ⟨hmantissa, hscale⟩
    exact ⟨hscale, hmantissa⟩

/-! ## The decimal of a rate -/

/-- The numeral of a magnitude. -/
structure Magnitude.Written (m : Magnitude) (n : Numeral) : Prop where
  text_eq : Binary64.magnitudeText m = n.text
  pointed_eq : pointed n.mantissa n.scale = n.text
  readsBack : Binary64.ReadsBack m n.mantissa (-(n.scale : Int))
  eq_zero_iff : n.mantissa = 0 ↔ m = .zero

theorem Magnitude.exists_written (m : Magnitude) : ∃ n, m.Written n := by
  obtain ⟨k, scale, htext, hback, hzero⟩ := Binary64.exists_pointed m
  refine ⟨.ofNat k scale, ?_, ?_, ?_, ?_⟩
  · rw [htext, Numeral.text_ofNat]
  · rw [Numeral.mantissa_ofNat, Numeral.scale_ofNat, Numeral.text_ofNat]
  · simpa using hback
  · simpa using hzero

namespace Magnitude.Written

variable {m : Magnitude} {n : Numeral}

theorem text_finite (h : m.Written n) (negative : Bool) :
    (Binary64.finite negative m).text = minused negative n.text := by
  rw [Binary64.text, h.text_eq, minused]

/-- A number within the limits is read, and only above zero it is a rate. -/
theorem exchangeRate_of_fits (h : m.Written n) (hfits : n.Fits) (negative : Bool) :
    exchangeRate (.finite negative m) =
      if negative = false ∧ m ≠ .zero then .ok (n.toDecimal hfits)
      else .error (.invalidRate { n.toDecimal hfits with negative := negative && n.mantissa != 0 }) := by
  have hread : Decimal.ofTextExact (minused negative n.text) =
      .ok { n.toDecimal hfits with negative := negative && n.mantissa != 0 } := by
    cases negative with
    | false => exact Decimal.ofText_text n hfits
    | true => exact Decimal.ofText_minus n hfits
  have hfinite : (Binary64.finite negative m).isFinite = true := rfl
  simp only [exchangeRate, if_pos hfinite, h.text_finite, hread]
  cases negative with
  | false => simp [Decimal.isPositive, h.eq_zero_iff, Numeral.toDecimal]
  | true => simp [Decimal.isPositive]

/-- A number beyond the limits is not read. -/
theorem exchangeRate_refuses (h : m.Written n) (hfits : ¬ n.Fits) (negative : Bool) :
    exchangeRate (.finite negative m) = .error (.rateNotRepresentable (.finite negative m)) := by
  have hread : ∃ e, Decimal.ofTextExact (minused negative n.text) = .error e := by
    cases negative with
    | false => exact Decimal.ofTextExact_refuses n hfits
    | true => exact Decimal.ofTextExact_minus_refuses n hfits
  obtain ⟨e, he⟩ := hread
  have hfinite : (Binary64.finite negative m).isFinite = true := rfl
  simp only [exchangeRate, if_pos hfinite, h.text_finite, he]

end Magnitude.Written

/-! ## Rates and their decimals -/

theorem exchangeRate_of_toRat?_eq_none {r : Binary64} (h : r.toRat? = none) :
    exchangeRate r = .error (.rateNotRepresentable r) := by
  cases r with
  | nan => rfl
  | infinite => rfl
  | finite => simp [Binary64.toRat?] at h

theorem eq_finite_of_toRat? {r : Binary64} {v : Rat} (h : r.toRat? = some v) :
    ∃ negative m, r = .finite negative m := by
  cases r with
  | nan => simp [Binary64.toRat?] at h
  | infinite => simp [Binary64.toRat?] at h
  | finite negative m => exact ⟨negative, m, rfl⟩

/-- Where an accepted rate and its decimal come from. -/
theorem exists_of_exchangeRate {r : Binary64} {d : Decimal} (h : exchangeRate r = .ok d) :
    ∃ m n, r = .finite false m ∧ m ≠ .zero ∧ m.Written n ∧ ∃ hfits, d = n.toDecimal hfits := by
  cases hvalue : r.toRat? with
  | none => simp [exchangeRate_of_toRat?_eq_none hvalue] at h
  | some v =>
      obtain ⟨negative, m, rfl⟩ := eq_finite_of_toRat? hvalue
      obtain ⟨n, hn⟩ := m.exists_written
      by_cases hfits : n.Fits
      · rw [hn.exchangeRate_of_fits hfits] at h
        split at h
        · rename_i hpos
          cases h
          exact ⟨m, n, by rw [hpos.1], hpos.2, hn, hfits, rfl⟩
        · cases h
      · rw [hn.exchangeRate_refuses hfits] at h
        cases h

theorem exchangeRate_ok_iff (r : Binary64) :
    (∃ d, exchangeRate r = .ok d) ↔ (∃ v, r.toRat? = some v ∧ 0 < v) ∧ FitsDecimal r.text := by
  rw [Binary64.exists_pos_iff]
  constructor
  · rintro ⟨d, hd⟩
    obtain ⟨m, n, rfl, hm, hn, hfits, -⟩ := exists_of_exchangeRate hd
    exact ⟨⟨m, rfl, hm⟩, by rwa [hn.text_finite, fitsDecimal_iff]⟩
  · rintro ⟨⟨m, rfl, hm⟩, hfits⟩
    obtain ⟨n, hn⟩ := m.exists_written
    rw [hn.text_finite, fitsDecimal_iff] at hfits
    exact ⟨n.toDecimal hfits, by rw [hn.exchangeRate_of_fits hfits, if_pos ⟨rfl, hm⟩]⟩

/-- The decimal of a rate is written as the rate, and its text is read as the rate. -/
theorem text_of_exchangeRate {r : Binary64} {d : Decimal} (h : exchangeRate r = .ok d) :
    d.text = r.text ∧ Binary64.ofText? d.text = some r := by
  obtain ⟨m, n, rfl, -, hn, hfits, rfl⟩ := exists_of_exchangeRate h
  have htext : (n.toDecimal hfits).text = n.text := hn.pointed_eq
  rw [htext, hn.text_finite]
  exact ⟨rfl, Binary64.ofText?_of_fits hfits hn.readsBack⟩

/-- Only one rate has a decimal of this value. -/
theorem exchangeRate_injective {r r' : Binary64} {d d' : Decimal} (h : exchangeRate r = .ok d)
    (h' : exchangeRate r' = .ok d') (hvalue : d.toRat = d'.toRat) : r = r' := by
  obtain ⟨m, n, rfl, -, hn, hfits, rfl⟩ := exists_of_exchangeRate h
  obtain ⟨m', n', rfl, -, hn', hfits', rfl⟩ := exists_of_exchangeRate h'
  have hsame : n.mantissa * 10 ^ n'.scale = n'.mantissa * 10 ^ n.scale := by
    rw [Numeral.toRat_toDecimal, Numeral.toRat_toDecimal, Numeral.value, Numeral.value,
      Rat.mkRat_eq_iff (Decimal.pow_ne_zero _) (Decimal.pow_ne_zero _)] at hvalue
    exact_mod_cast hvalue
  rw [← hn.readsBack, ← hn'.readsBack]
  exact Binary64.ofScaled_congr false hsame

/-- No decimal above zero is named in a refusal. -/
theorem isPositive_of_invalidRate {r : Binary64} {d : Decimal}
    (h : exchangeRate r = .error (.invalidRate d)) : d.isPositive = false := by
  unfold exchangeRate at h
  split at h
  · split at h
    · cases h
    · split at h
      · cases h
      · rename_i hpos
        cases h
        simpa using hpos
  · cases h

theorem Decimal.toRat_nonpos_of_isPositive {d : Decimal} (h : d.isPositive = false) :
    d.toRat ≤ 0 := by
  have hsigned : ¬ 0 < d.signed := by
    rw [← Decimal.isPositive_iff, h]
    exact Bool.false_ne_true
  have hnonpos : (d.signed : Rat) ≤ 0 := by exact_mod_cast not_lt.1 hsigned
  rw [Decimal.toRat, Rat.mkRat_eq_div]
  exact div_nonpos_of_nonpos_of_nonneg hnonpos (Nat.cast_nonneg _)

/-- A number that is not above zero is named in the refusal, as a decimal. -/
theorem exchangeRate_invalid {r : Binary64} {v : Rat} (hv : r.toRat? = some v) (hle : v ≤ 0)
    (hfits : FitsDecimal r.text) :
    ∃ d, exchangeRate r = .error (.invalidRate d) ∧ d.toRat ≤ 0 := by
  obtain ⟨negative, m, rfl⟩ := eq_finite_of_toRat? hv
  obtain ⟨n, hn⟩ := m.exists_written
  rw [hn.text_finite, fitsDecimal_iff] at hfits
  have hpos : ¬ (negative = false ∧ m ≠ .zero) := by
    rintro ⟨rfl, hm⟩
    obtain ⟨w, hw, hlt⟩ := (Binary64.exists_pos_iff (.finite false m)).2 ⟨m, rfl, hm⟩
    rw [hv] at hw
    cases hw
    exact absurd hle (not_le.2 hlt)
  have hinvalid := hn.exchangeRate_of_fits hfits negative
  rw [if_neg hpos] at hinvalid
  exact ⟨_, hinvalid, Decimal.toRat_nonpos_of_isPositive (isPositive_of_invalidRate hinvalid)⟩

theorem exchangeRate_not_representable {r : Binary64}
    (h : r.toRat? = none ∨ ¬ FitsDecimal r.text) :
    exchangeRate r = .error (.rateNotRepresentable r) := by
  cases hvalue : r.toRat? with
  | none => exact exchangeRate_of_toRat?_eq_none hvalue
  | some v =>
      obtain ⟨negative, m, rfl⟩ := eq_finite_of_toRat? hvalue
      obtain ⟨n, hn⟩ := m.exists_written
      rw [hvalue, hn.text_finite, fitsDecimal_iff] at h
      exact hn.exchangeRate_refuses (by simpa using h) negative

/-- A rate is accepted exactly when it is a positive number whose text is within the limits of a
decimal.  Its decimal is written the same, so the rate can be read from it again, and no two
rates have decimals of one value.  A number that is not positive is refused as such if its
text is within the limits, and everything else is refused as beyond them. -/
theorem exchangeRate_exact (r : Binary64) :
    ((∃ d, exchangeRate r = .ok d) ↔ (∃ v, r.toRat? = some v ∧ 0 < v) ∧ FitsDecimal r.text) ∧
    (∀ d, exchangeRate r = .ok d → d.text = r.text ∧ Binary64.ofText? d.text = some r) ∧
    (∀ r' d d', exchangeRate r = .ok d → exchangeRate r' = .ok d' → d.toRat = d'.toRat → r = r') ∧
    (∀ v, r.toRat? = some v → v ≤ 0 → FitsDecimal r.text →
      ∃ d, exchangeRate r = .error (.invalidRate d) ∧ d.toRat ≤ 0) ∧
    (r.toRat? = none ∨ ¬ FitsDecimal r.text →
      exchangeRate r = .error (.rateNotRepresentable r)) :=
  ⟨exchangeRate_ok_iff r, fun _ h => text_of_exchangeRate h,
    fun _ _ _ h h' hvalue => exchangeRate_injective h h' hvalue,
    fun _ hv hle hfits => exchangeRate_invalid hv hle hfits, exchangeRate_not_representable⟩

/-- The floating-point number nearest to `1.08` is accepted as `1.08`, which is read back as this
number. -/
theorem rate_accepted :
    ∃ d : Decimal, exchangeRate (.ofRatio false 27 25) = .ok d ∧ d.toText = "1.08" ∧
      Binary64.ofText? d.text = some (.ofRatio false 27 25) := by
  have haccepted : exchangeRate (.ofRatio false 27 25) = .ok ⟨false, 108, 2, by decide, by decide⟩ := by
    decide +kernel
  obtain ⟨-, htext, -⟩ := exchangeRate_exact (.ofRatio false 27 25)
  exact ⟨_, haccepted, by decide +kernel, (htext _ haccepted).2⟩

end FundsTransfer
