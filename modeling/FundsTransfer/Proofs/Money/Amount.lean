import FundsTransfer.Money.Amount
import FundsTransfer.Proofs.Decimal.Exact
import FundsTransfer.Proofs.Decimal.Reading
import Mathlib.Data.List.TakeWhile

/-!
# Which amounts are accepted

What a client types is looked at twice.  The first look is at its characters: it has to be a
numeral in plain notation, without a sign, an exponent or a separator.  The second look is
that of decimals, which know signs and separators and have limits of their own.  So what is
accepted in the end is a numeral of a positive number with few enough digits behind the
point, if its digits, zeros included, are within the limits of a decimal.  That is all:
`parseAmount_exact` says that it is accepted exactly then, and that it is not rounded.

The look at the characters is at two sides of a point, `amountSides`.  When both sides are digits,
they are those of a numeral, `numeral_of_amountSides`.
-/

namespace FundsTransfer

open Text

/-! ## The two sides of the point -/

theorem splitAtPoint_of_not_mem {s : List Char} (h : '.' ∉ s) : splitAtPoint s = (s, none) := by
  have hdrop : s.dropWhile (· != '.') = [] := by
    refine List.dropWhile_eq_nil_iff.2 fun c hc => ?_
    simpa using fun heq : c = '.' => h (heq ▸ hc)
  rw [splitAtPoint, hdrop]

theorem splitAtPoint_of_point {whole : List Char} (fraction : List Char) (h : '.' ∉ whole) :
    splitAtPoint (whole ++ '.' :: fraction) = (whole, some fraction) := by
  have hwhole : ∀ c ∈ whole, (c != '.') = true := by
    intro c hc
    simpa using fun heq : c = '.' => h (heq ▸ hc)
  rw [splitAtPoint, List.dropWhile_append_of_pos hwhole, List.takeWhile_append_of_pos hwhole]
  simp

theorem not_mem_of_isDigit {s : List Char} (hs : ∀ c ∈ s, c.isDigit = true) : '.' ∉ s := by
  intro h
  exact absurd (hs _ h) (by decide)

/-- The sides of a numeral are its digits before and behind the point. -/
theorem amountSides_text (n : Numeral) : amountSides n.text = .ok (n.whole, n.fraction) := by
  have hwhole := not_mem_of_isDigit n.isDigit_whole
  by_cases hfraction : n.fraction = []
  · rw [amountSides, Numeral.text, if_pos hfraction, List.append_nil,
      splitAtPoint_of_not_mem hwhole, hfraction]
  · have hmore := not_mem_of_isDigit n.isDigit_fraction
    rw [amountSides, Numeral.text, if_neg hfraction, splitAtPoint_of_point _ hwhole]
    simp [hmore, n.whole_ne_nil, hfraction]

/-- Sides that are digits are those of a numeral. -/
theorem numeral_of_amountSides {s whole fraction : List Char} (hne : s ≠ [])
    (h : amountSides s = .ok (whole, fraction)) (hwhole : ∀ c ∈ whole, c.isDigit = true)
    (hfraction : ∀ c ∈ fraction, c.isDigit = true) :
    ∃ n : Numeral, s = n.text ∧ n.fraction = fraction := by
  by_cases hpoint : '.' ∈ s
  · obtain ⟨before, behind, rfl, hbefore⟩ := List.eq_append_cons_of_mem hpoint
    rw [amountSides, splitAtPoint_of_point _ hbefore] at h
    simp only at h
    split at h
    · cases h
    split at h
    · cases h
    rename_i hempty
    split at h
    · cases h
    rename_i hnone
    cases h
    refine ⟨⟨whole, fraction, by simpa using hempty, hwhole, hfraction⟩, ?_, rfl⟩
    rw [Numeral.text, if_neg (by simpa using hnone)]
  · rw [amountSides, splitAtPoint_of_not_mem hpoint] at h
    cases h
    refine ⟨⟨s, [], hne, hwhole, hfraction⟩, ?_, rfl⟩
    rw [Numeral.text, if_pos rfl, List.append_nil]

/-! ## Amounts without blanks -/

/-- A numeral is read after its digits behind the point have been counted. -/
theorem readAmount_text (n : Numeral) (max : Nat) :
    readAmount n.text max =
      if max < n.scale then .error (.precisionOverflow n.scale max)
      else match Decimal.ofTextExact n.text with
        | .error e => .error (.invalidFormat e.message)
        | .ok amount => if amount.isZero then .error .invalidAmount else .ok amount := by
  have hwhole : n.whole.all Char.isDigit = true := List.all_eq_true.2 n.isDigit_whole
  have hfraction : n.fraction.all Char.isDigit = true := List.all_eq_true.2 n.isDigit_fraction
  have hsides := amountSides_text n
  obtain ⟨c, r, htext, hc⟩ := n.exists_text_eq_cons
  rw [htext] at hsides ⊢
  unfold readAmount
  split
  · rename_i heq
    cases heq
  · rename_i heq
    cases heq
    exact absurd hc (by decide)
  · rename_i heq
    cases heq
    exact absurd hc (by decide)
  · simp only [hsides, hwhole, hfraction, Bool.not_true, Bool.false_eq_true, if_false,
      Numeral.scale]
    rfl

/-- Whatever is accepted is a numeral. -/
theorem numeral_of_readAmount {s : List Char} {max : Nat} {d : Decimal}
    (h : readAmount s max = .ok d) : ∃ n : Numeral, s = n.text := by
  unfold readAmount at h
  split at h
  · cases h
  · cases h
  · cases h
  rename_i hne _ _
  split at h
  · cases h
  rename_i whole fraction hsides
  split at h
  · cases h
  rename_i hwhole
  split at h
  · cases h
  rename_i hfraction
  obtain ⟨n, hn, -⟩ := numeral_of_amountSides hne hsides (by simpa using hwhole)
    (by simpa using hfraction)
  exact ⟨n, hn⟩

/-- The numerals that are accepted as amounts, and the amounts. -/
structure Numeral.Accepted (n : Numeral) (max : Nat) (d : Decimal) : Prop where
  scale_le : n.scale ≤ max
  fits : n.Fits
  mantissa_pos : 0 < n.mantissa
  eq_toDecimal : d = n.toDecimal fits

theorem readAmount_text_eq_ok_iff (n : Numeral) (max : Nat) (d : Decimal) :
    readAmount n.text max = .ok d ↔ n.Accepted max d := by
  rw [readAmount_text]
  constructor
  · intro h
    split at h
    · cases h
    rename_i hscale
    by_cases hfits : n.Fits
    · have hread : Decimal.ofTextExact n.text = .ok (n.toDecimal hfits) :=
        Decimal.ofText_text n hfits
      simp only [hread] at h
      split at h
      · cases h
      rename_i hzero
      cases h
      exact ⟨Nat.le_of_not_lt hscale, hfits,
        Nat.pos_of_ne_zero (by simpa [Decimal.isZero] using hzero), rfl⟩
    · obtain ⟨e, he⟩ := Decimal.ofTextExact_refuses n hfits
      simp only [he] at h
      cases h
  · rintro ⟨hscale, hfits, hpos, rfl⟩
    have hread : Decimal.ofTextExact n.text = .ok (n.toDecimal hfits) :=
      Decimal.ofText_text n hfits
    have hzero : ¬ (n.toDecimal hfits).isZero = true := by
      simpa [Decimal.isZero] using Nat.pos_iff_ne_zero.1 hpos
    rw [if_neg (Nat.not_lt.2 hscale)]
    simp only [hread, if_neg hzero]

theorem readAmount_eq_ok_iff (s : List Char) (max : Nat) (d : Decimal) :
    readAmount s max = .ok d ↔ ∃ n : Numeral, s = n.text ∧ n.Accepted max d := by
  constructor
  · intro h
    obtain ⟨n, rfl⟩ := numeral_of_readAmount h
    exact ⟨n, rfl, (readAmount_text_eq_ok_iff n max d).1 h⟩
  · rintro ⟨n, rfl, haccepted⟩
    exact (readAmount_text_eq_ok_iff n max d).2 haccepted

/-! ## What an amount is -/

section

variable {n : Numeral} {max : Nat} {d : Decimal}

theorem Numeral.Accepted.isPositive (h : n.Accepted max d) : d.isPositive = true := by
  rw [h.eq_toDecimal]
  simpa [Decimal.isPositive] using Nat.pos_iff_ne_zero.1 h.mantissa_pos

theorem Numeral.Accepted.text (h : n.Accepted max d) : d.text = n.trimmed.text := by
  rw [h.eq_toDecimal, ← n.pointed_mantissa]
  rfl

/-- The characters of a numeral are no blanks. -/
theorem trim_text (n : Numeral) : trim n.text = n.text := by
  refine trim_of_no_blank fun c hc => ?_
  rcases List.mem_append.1 hc with hc | hc
  · exact isBlank_of_isDigit (n.isDigit_whole c hc)
  split at hc
  · cases hc
  rcases List.mem_cons.1 hc with rfl | hc
  · decide
  · exact isBlank_of_isDigit (n.isDigit_fraction c hc)

/-- A positive decimal is the amount that its text spells. -/
theorem accepted_numeral (hpos : d.isPositive = true) (hscale : d.scale ≤ max) :
    d.text = d.numeral.text ∧ d.numeral.Accepted max d := by
  have hmantissa : d.numeral.mantissa = d.mantissa := Numeral.mantissa_ofNat _ _
  have hsame : d.numeral.scale = d.scale := Numeral.scale_ofNat _ _
  simp only [Decimal.isPositive, Bool.and_eq_true, Bool.not_eq_true', bne_iff_ne, ne_eq] at hpos
  refine ⟨?_, ?_, d.fits_numeral, ?_, ?_⟩
  · rw [d.text_eq, hpos.1]
    rfl
  · rwa [hsame]
  · rw [hmantissa]
    exact Nat.pos_of_ne_zero hpos.2
  · rcases d with ⟨negative, mantissa, scale, _, _⟩
    simp only [Numeral.toDecimal, hmantissa, hsame, Decimal.mk.injEq, and_true]
    exact hpos.1

end

/-- A text is accepted as an amount exactly when it is, without the blanks around it, a numeral of
a positive number that has few enough digits behind the point, and digits within the limits of a
decimal.  The amount then is exactly the number that is written, at the scale at which it is
written, and its text is the numeral without superfluous zeros in front.  So the text of a
positive decimal is accepted, with enough digits allowed, and yields the decimal. -/
theorem parseAmount_exact (s : String) (max : Nat) :
    (∀ d, parseAmount s max = .ok d ↔ ∃ n : Numeral, trim s.toList = n.text ∧
      n.scale ≤ max ∧ n.scale ≤ 28 ∧ 0 < n.mantissa ∧ n.mantissa < 2 ^ 96 ∧
        d.negative = false ∧ d.mantissa = n.mantissa ∧ d.scale = n.scale) ∧
    (∀ d, parseAmount s max = .ok d → ∃ n : Numeral, trim s.toList = n.text ∧
      d.isPositive = true ∧ d.toRat = n.value ∧ d.scale = n.scale ∧ d.text = n.trimmed.text) ∧
    ∀ d : Decimal, d.isPositive = true → d.scale ≤ max → parseAmount d.toText max = .ok d := by
  refine ⟨fun d => ?_, fun d hd => ?_, fun d hpos hscale => ?_⟩
  · rw [parseAmount, readAmount_eq_ok_iff]
    refine exists_congr fun n => and_congr_right fun _ => ?_
    constructor
    · rintro ⟨hscale, hfits, hpos, rfl⟩
      exact ⟨hscale, hfits.scale_le, hpos, hfits.mantissa_lt, rfl, rfl, rfl⟩
    · rintro ⟨hmax, hscale, hpos, hlt, hnegative, hmantissa, hsame⟩
      refine ⟨hmax, ⟨hlt, hscale⟩, hpos, ?_⟩
      rcases d with ⟨negative, mantissa, scale, _, _⟩
      cases hnegative
      cases hmantissa
      cases hsame
      rfl
  · obtain ⟨n, htext, h⟩ := (readAmount_eq_ok_iff _ _ _).1 hd
    exact ⟨n, htext, h.isPositive, by simp [h.eq_toDecimal], by simp [h.eq_toDecimal], h.text⟩
  · obtain ⟨htext, haccepted⟩ := accepted_numeral hpos hscale
    refine (readAmount_eq_ok_iff _ _ _).2 ⟨d.numeral, ?_, haccepted⟩
    rw [Decimal.toText, String.toList_ofList, htext, trim_text]

/-- The largest mantissa with as many digits behind the point as there may be is accepted, also with
zeros in front and blanks around it, and its text is read back. -/
theorem full_amount_accepted :
    ∃ d : Decimal, d.isPositive = true ∧ d.scale ≤ 28 ∧
      parseAmount "\u2003007.9228162514264337593543950335\t" 28 = .ok d ∧
      d.toText = "7.9228162514264337593543950335" ∧ parseAmount d.toText 28 = .ok d := by
  let d : Decimal := ⟨false, 79228162514264337593543950335, 28, by decide, by decide⟩
  obtain ⟨-, -, hback⟩ := parseAmount_exact "" 28
  exact ⟨d, by decide, by decide, by decide +kernel, by decide +kernel,
    hback d (by decide) (by decide)⟩

end FundsTransfer
