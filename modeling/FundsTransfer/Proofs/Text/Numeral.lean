import FundsTransfer.Decimal.Basic
import FundsTransfer.Text.Blank
import FundsTransfer.Text.Digits
import Mathlib.Algebra.Order.Ring.Nat
import Mathlib.Data.List.Basic
import Mathlib.Data.List.Induction

/-!
# Numerals in plain notation

A `Numeral` is what a person would call a number written out: digits, and behind a point more
digits.  It is not a number, since `1.5`, `1.50` and `01.5` are three numerals for one number.
What it spells is the mantissa and the scale of a decimal, if they are within the limits.

A decimal is written as one of its numerals, the one without superfluous zeros in front.  So
`pointed` undoes what reading does up to those zeros, `pointed_mantissa`, and every result
of `pointed` is the text of a numeral, `text_ofNat`.
-/

namespace FundsTransfer.Text

/-! ## Digits -/

/-- A digit is no blank. -/
theorem isBlank_of_isDigit {c : Char} (h : c.isDigit = true) : isBlank c = false := by
  simp only [Char.isDigit, Bool.and_eq_true, decide_eq_true_eq, ge_iff_le, UInt32.le_iff_toNat_le]
    at h
  have h48 : ('0' : Char).val.toNat = 48 := rfl
  have h57 : ('9' : Char).val.toNat = 57 := rfl
  have hval : c.toNat = c.val.toNat := rfl
  simp only [isBlank, Bool.or_eq_false_iff, Bool.and_eq_false_iff, decide_eq_false_iff_not,
    beq_eq_false_iff_ne]
  omega

theorem digitValue_lt {c : Char} (h : c.isDigit = true) : digitValue c < 10 := by
  simp only [Char.isDigit, Bool.and_eq_true, decide_eq_true_eq, ge_iff_le, UInt32.le_iff_toNat_le]
    at h
  simp only [digitValue, Char.toNat]
  have : ('9' : Char).val.toNat = 57 := rfl
  have : ('0' : Char).val.toNat = 48 := rfl
  omega

theorem digitChar_digitValue {c : Char} (h : c.isDigit = true) :
    Nat.digitChar (digitValue c) = c := by
  have hlt := digitValue_lt h
  simp only [Char.isDigit, Bool.and_eq_true, decide_eq_true_eq, ge_iff_le, UInt32.le_iff_toNat_le]
    at h
  apply Char.toNat_inj.1
  rw [Nat.toNat_digitChar_of_lt_ten hlt]
  simp only [digitValue, Char.toNat] at hlt ⊢
  have : ('0' : Char).val.toNat = 48 := rfl
  omega

/-- Reading goes on from a number as if it stood in front of the digits. -/
theorem digitsFrom_eq (n : Nat) (s : List Char) :
    digitsFrom n s = n * 10 ^ s.length + digitsValue s := by
  rw [digitsValue, digitsFrom_eq_ofDigitChars, digitsFrom_eq_ofDigitChars,
    Nat.ofDigitChars_eq_ofDigitChars_zero, Nat.mul_comm]

theorem digitsValue_append (s t : List Char) :
    digitsValue (s ++ t) = digitsValue s * 10 ^ t.length + digitsValue t := by
  rw [digitsValue, digitsFrom_append, digitsFrom_eq]
  rfl

theorem digitsValue_cons (c : Char) (s : List Char) :
    digitsValue (c :: s) = digitValue c * 10 ^ s.length + digitsValue s := by
  rw [← List.singleton_append, digitsValue_append]
  simp [digitsValue, digitsFrom]

theorem le_digitsFrom (n : Nat) (s : List Char) : n ≤ digitsFrom n s := by
  rw [digitsFrom_eq]
  exact Nat.le_trans (Nat.le_mul_of_pos_right n (Nat.pow_pos (by decide))) (Nat.le_add_right _ _)

theorem digitsValue_lt {s : List Char} (hs : ∀ c ∈ s, c.isDigit = true) :
    digitsValue s < 10 ^ s.length := by
  induction s using List.reverseRecOn with
  | nil => decide
  | append_singleton s c ih =>
      have hc := digitValue_lt (hs c (by simp))
      have hs' := ih fun d hd => hs d (by simp [hd])
      rw [digitsValue_append_singleton, List.length_append, List.length_singleton, Nat.pow_succ]
      omega

/-- A first digit other than zero makes the number as long as its digits. -/
theorem le_digitsValue {c : Char} {s : List Char} (hc : c.isDigit = true) (hne : c ≠ '0') :
    10 ^ s.length ≤ digitsValue (c :: s) := by
  have hvalue : digitValue c ≠ 0 := fun h =>
    hne ((digitChar_digitValue hc).symm.trans (by rw [h]; rfl))
  rw [digitsValue_cons]
  exact Nat.le_trans (Nat.le_mul_of_pos_left _ (Nat.pos_of_ne_zero hvalue)) (Nat.le_add_right _ _)

/-- There is no zero in front of the digits of a number. -/
theorem head?_digits {n : Nat} (h : 1 < (digits n).length) : (digits n).head? ≠ some '0' := by
  intro hhead
  have hdigit : ∀ c ∈ digits n, c.isDigit = true := fun c hc => isDigit_of_mem_digits hc
  have hvalue := digitsValue_digits n
  have hlength := Nat.length_toDigits_le_iff (b := 10) (n := n) (k := (digits n).length - 1)
    (by decide) (by omega)
  rw [← digits] at hlength
  cases hdigits : digits n with
  | nil => simp [hdigits] at h
  | cons c r =>
      rw [hdigits] at hdigit hvalue hlength hhead
      cases hhead
      have hlt : n < 10 ^ r.length := by
        rw [← hvalue]
        exact digitsValue_lt fun c hc => hdigit c (List.mem_cons_of_mem _ hc)
      have hshort := hlength.2 hlt
      rw [List.length_cons, Nat.add_sub_cancel] at hshort
      omega

theorem digitsValue_cons_zero (s : List Char) : digitsValue ('0' :: s) = digitsValue s := rfl

/-! ## Numbers with zeros in front -/

theorem digitsFrom_replicate_zero (n : Nat) :
    digitsFrom 0 (List.replicate n '0') = 0 := by
  rw [digitsFrom_eq_ofDigitChars, Nat.ofDigitChars_replicate_zero, Nat.mul_zero]

@[simp] theorem digitsValue_padded (width n : Nat) : digitsValue (padded width n) = n := by
  rw [padded, digitsValue, digitsFrom_append, digitsFrom_replicate_zero]
  exact digitsValue_digits n

theorem isDigit_of_mem_padded {width n : Nat} {c : Char} (h : c ∈ padded width n) :
    c.isDigit = true := by
  rcases List.mem_append.1 h with h | h
  · rw [List.eq_of_mem_replicate h]
    rfl
  · exact isDigit_of_mem_digits h

theorem length_padded (width n : Nat) :
    (padded width n).length = max width (digits n).length := by
  rw [padded, List.length_append, List.length_replicate]
  omega

theorem padded_ne_nil (width n : Nat) : padded width n ≠ [] := by
  have hpos : 0 < (digits n).length := Nat.length_toDigits_pos
  intro h
  have := congrArg List.length h
  rw [length_padded, List.length_nil] at this
  omega

/-- A number that fits the width takes exactly the width. -/
theorem length_padded_of_lt {width n : Nat} (hwidth : 0 < width) (h : n < 10 ^ width) :
    (padded width n).length = width := by
  have := (Nat.length_toDigits_le_iff (b := 10) (by decide) hwidth).2 h
  rw [length_padded, digits]
  omega

/-- One more digit at the end. -/
theorem padded_concat {width : Nat} (hwidth : 0 < width) (n : Nat) {d : Nat} (hd : d < 10) :
    padded (width + 1) (n * 10 + d) = padded width n ++ [Nat.digitChar d] := by
  cases n with
  | zero =>
      have hzero : digits 0 = ['0'] := rfl
      have hsingle : digits (0 * 10 + d) = [Nat.digitChar d] := by
        rw [Nat.zero_mul, Nat.zero_add]
        exact Nat.toDigits_of_lt_base hd
      simp only [padded, hzero, hsingle, List.length_singleton, Nat.add_sub_cancel]
      rw [← List.replicate_succ', Nat.sub_add_cancel hwidth]
  | succ n =>
      have hconcat : digits ((n + 1) * 10 + d) = digits (n + 1) ++ [Nat.digitChar d] := by
        rw [digits, Nat.toDigits_of_base_le (by decide) (by omega)]
        congr 2
        · omega
        · congr 1
          omega
      simp only [padded, hconcat, List.length_append, List.length_singleton, List.append_assoc,
        Nat.add_sub_add_right]

/-- Digits are the number they spell, written with as many digits. -/
theorem padded_digitsValue {s : List Char} (hs : ∀ c ∈ s, c.isDigit = true) (hne : s ≠ []) :
    padded s.length (digitsValue s) = s := by
  induction s using List.reverseRecOn with
  | nil => exact absurd rfl hne
  | append_singleton s c ih =>
      have hc := hs c (by simp)
      have hs' : ∀ d ∈ s, d.isDigit = true := fun d hd => hs d (by simp [hd])
      rw [digitsValue_append_singleton, List.length_append, List.length_singleton]
      cases s with
      | nil =>
          have hdigits : digits (digitValue c) = [c] := by
            rw [digits, Nat.toDigits_of_lt_base (digitValue_lt hc), digitChar_digitValue hc]
          have hzero : digitsValue [] * 10 + digitValue c = digitValue c := Nat.zero_add _
          rw [hzero, padded, hdigits]
          rfl
      | cons d r =>
          rw [padded_concat (by simp) _ (digitValue_lt hc), ih hs' (by simp),
            digitChar_digitValue hc]

/-- Without a zero in front, a smaller width makes no difference. -/
theorem padded_of_head_ne_zero {s : List Char} {width : Nat} (hs : ∀ c ∈ s, c.isDigit = true)
    (hne : s ≠ []) (hwidth : width ≤ s.length) (hhead : width < s.length → s.head? ≠ some '0') :
    padded width (digitsValue s) = s := by
  have hfull := padded_digitsValue hs hne
  rcases Nat.lt_or_eq_of_le hwidth with hlt | rfl
  · cases s with
    | nil => exact absurd rfl hne
    | cons c r =>
        have hc : c ≠ '0' := fun h => hhead hlt (by simp [h])
        have hlength : r.length < (digits (digitsValue (c :: r))).length := by
          rcases Nat.eq_zero_or_pos r.length with hzero | hpos
          · rw [hzero]
            exact Nat.length_toDigits_pos
          · refine Nat.lt_of_not_le fun hle => ?_
            have := (Nat.length_toDigits_le_iff (by decide) hpos).1 hle
            exact absurd (le_digitsValue (s := r) (hs c (by simp)) hc) (by omega)
        rw [List.length_cons] at hwidth
        have hnone : ∀ w ≤ r.length + 1, padded w (digitsValue (c :: r)) =
            digits (digitsValue (c :: r)) := by
          intro w hw
          rw [padded, Nat.sub_eq_zero_of_le (by omega)]
          rfl
        rw [hnone width hwidth, ← hnone (c :: r).length (by simp), hfull]
  · exact hfull

end FundsTransfer.Text

namespace FundsTransfer

open Text

/-- A number in plain notation. -/
structure Numeral where
  /-- The digits before the point. -/
  whole : List Char
  /-- The digits behind the point.  Without any, there is no point. -/
  fraction : List Char
  /-- There is a digit before the point. -/
  whole_ne_nil : whole ≠ []
  /-- Before the point there is nothing else. -/
  isDigit_whole : ∀ c ∈ whole, c.isDigit = true
  /-- Behind the point there is nothing else. -/
  isDigit_fraction : ∀ c ∈ fraction, c.isDigit = true

namespace Numeral

/-- The text. -/
def text (n : Numeral) : List Char :=
  n.whole ++ if n.fraction = [] then [] else '.' :: n.fraction

/-- The number that all digits spell. -/
def mantissa (n : Numeral) : Nat := digitsValue (n.whole ++ n.fraction)

/-- The number of digits behind the point. -/
def scale (n : Numeral) : Nat := n.fraction.length

/-- The number that is meant. -/
def value (n : Numeral) : Rat := mkRat n.mantissa (Nat.pow 10 n.scale)

/-- The digits are within the limits of a decimal. -/
structure Fits (n : Numeral) : Prop where
  mantissa_lt : n.mantissa < 0x1000000000000000000000000
  scale_le : n.scale ≤ 28

instance (n : Numeral) : Decidable n.Fits :=
  decidable_of_iff (n.mantissa < 0x1000000000000000000000000 ∧ n.scale ≤ 28)
    ⟨fun h => ⟨h.1, h.2⟩, fun h => ⟨h.1, h.2⟩⟩

/-- The decimal with the digits and the scale of a numeral. -/
def toDecimal (n : Numeral) (h : n.Fits) : Decimal :=
  ⟨false, n.mantissa, n.scale, h.mantissa_lt, h.scale_le⟩

@[simp] theorem negative_toDecimal (n : Numeral) (h : n.Fits) :
    (n.toDecimal h).negative = false := rfl

@[simp] theorem mantissa_toDecimal (n : Numeral) (h : n.Fits) :
    (n.toDecimal h).mantissa = n.mantissa := rfl

@[simp] theorem scale_toDecimal (n : Numeral) (h : n.Fits) :
    (n.toDecimal h).scale = n.scale := rfl

@[simp] theorem toRat_toDecimal (n : Numeral) (h : n.Fits) : (n.toDecimal h).toRat = n.value := rfl

/-- A numeral starts with a digit. -/
theorem exists_text_eq_cons (n : Numeral) : ∃ c r, n.text = c :: r ∧ c.isDigit = true := by
  cases hwhole : n.whole with
  | nil => exact absurd hwhole n.whole_ne_nil
  | cons c r =>
      refine ⟨c, r ++ if n.fraction = [] then [] else '.' :: n.fraction, ?_,
        n.isDigit_whole c (by simp [hwhole])⟩
      rw [text, hwhole, List.cons_append]

/-! ## Zeros in front -/

/-- Digits without superfluous zeros in front. -/
def significant : List Char → List Char
  | '0' :: d :: r => significant (d :: r)
  | s => s

theorem digitsValue_significant (s t : List Char) :
    digitsValue (significant s ++ t) = digitsValue (s ++ t) := by
  fun_induction significant s with
  | case1 d r ih => rw [ih, List.cons_append, List.cons_append, digitsValue_cons_zero]; rfl
  | case2 => rfl

theorem significant_ne_nil {s : List Char} (h : s ≠ []) : significant s ≠ [] := by
  fun_induction significant s with
  | case1 d r ih => exact ih (by simp)
  | case2 => exact h

theorem mem_of_mem_significant {s : List Char} {c : Char} (h : c ∈ significant s) : c ∈ s := by
  fun_induction significant s with
  | case1 d r ih => exact List.mem_cons_of_mem _ (ih h)
  | case2 => exact h

/-- Only a single zero is left in front. -/
theorem head?_significant {s : List Char} (h : 1 < (significant s).length) :
    (significant s).head? ≠ some '0' := by
  fun_induction significant s with
  | case1 d r ih => exact ih h
  | case2 s hs =>
      cases s with
      | nil => simp
      | cons c r =>
          cases r with
          | nil => simp at h
          | cons d r =>
              intro hhead
              cases hhead
              exact hs d r rfl

/-- The numeral without superfluous zeros in front. -/
def trimmed (n : Numeral) : Numeral where
  whole := significant n.whole
  fraction := n.fraction
  whole_ne_nil := significant_ne_nil n.whole_ne_nil
  isDigit_whole c h := n.isDigit_whole c (mem_of_mem_significant h)
  isDigit_fraction := n.isDigit_fraction

/-- Superfluous zeros make no difference to the number. -/
@[simp] theorem mantissa_trimmed (n : Numeral) : n.trimmed.mantissa = n.mantissa :=
  digitsValue_significant n.whole n.fraction

/-! ## Numbers and their numerals -/

theorem isDigit_digits (n : Numeral) : ∀ c ∈ n.whole ++ n.fraction, c.isDigit = true := by
  intro c hc
  rcases List.mem_append.1 hc with hc | hc
  · exact n.isDigit_whole c hc
  · exact n.isDigit_fraction c hc

/-- What a numeral spells is written as the numeral, but for superfluous zeros in front. -/
theorem pointed_mantissa (n : Numeral) : pointed n.mantissa n.scale = n.trimmed.text := by
  have hwhole : 0 < n.trimmed.whole.length := List.length_pos_of_ne_nil n.trimmed.whole_ne_nil
  have hpadded : padded (n.scale + 1) n.mantissa = n.trimmed.whole ++ n.fraction := by
    rw [← n.mantissa_trimmed]
    refine padded_of_head_ne_zero n.trimmed.isDigit_digits (by simp [n.trimmed.whole_ne_nil]) ?_
      fun hlt => ?_
    · rw [List.length_append]
      exact Nat.add_comm _ _ ▸ Nat.add_le_add_right hwhole _
    · rw [List.head?_append_of_ne_nil _ n.trimmed.whole_ne_nil]
      refine head?_significant ?_
      rw [List.length_append] at hlt
      have hscale : n.scale = n.trimmed.fraction.length := rfl
      show 1 < n.trimmed.whole.length
      omega
  simp only [pointed, hpadded, text]
  by_cases hfraction : n.fraction = []
  · rw [if_pos (by rw [scale, hfraction]; rfl), if_pos (show n.trimmed.fraction = [] from hfraction)]
    rw [hfraction]
  · have hscale : n.scale ≠ 0 := fun h => hfraction (List.length_eq_zero_iff.1 h)
    have hlength : (n.trimmed.whole ++ n.fraction).length - n.scale = n.trimmed.whole.length := by
      rw [List.length_append]
      exact Nat.add_sub_cancel _ n.fraction.length
    rw [if_neg hscale, if_neg (show n.trimmed.fraction ≠ [] from hfraction), hlength,
      List.take_left, List.drop_left]
    rfl

/-- The numeral as which a number is written at a scale. -/
def ofNat (n scale : Nat) : Numeral where
  whole := (padded (scale + 1) n).take ((padded (scale + 1) n).length - scale)
  fraction := (padded (scale + 1) n).drop ((padded (scale + 1) n).length - scale)
  whole_ne_nil := by
    have := length_padded (scale + 1) n
    rw [← List.length_pos_iff, List.length_take]
    omega
  isDigit_whole c h := isDigit_of_mem_padded (List.mem_of_mem_take h)
  isDigit_fraction c h := isDigit_of_mem_padded (List.mem_of_mem_drop h)

@[simp] theorem mantissa_ofNat (n scale : Nat) : (ofNat n scale).mantissa = n := by
  rw [mantissa, ofNat, List.take_append_drop, digitsValue_padded]

@[simp] theorem scale_ofNat (n scale : Nat) : (ofNat n scale).scale = scale := by
  have := length_padded (scale + 1) n
  rw [Numeral.scale, ofNat, List.length_drop]
  omega

/-- A number is written as its numeral. -/
theorem text_ofNat (n scale : Nat) : (ofNat n scale).text = pointed n scale := by
  have hscale := scale_ofNat n scale
  have hnil : (ofNat n scale).fraction = [] ↔ scale = 0 := by
    rw [← List.length_eq_zero_iff, ← Numeral.scale, hscale]
  by_cases hzero : scale = 0
  · subst hzero
    rw [text, if_pos (hnil.2 rfl), pointed, if_pos rfl, List.append_nil]
    exact List.take_length
  · rw [text, if_neg (mt hnil.1 hzero), pointed, if_neg hzero]
    rfl

end Numeral

end FundsTransfer
