import FundsTransfer.Decimal.Scientific
import FundsTransfer.Proofs.Decimal.Rounding
import Mathlib.Tactic.FieldSimp

/-!
# Decimals in data files

A text in a data file may have a sign and an exponent.  `textValue?` is the number that it means,
whether or not some decimal has this value.

A text without an exponent is taken exactly if and only if some decimal has its value,
`ofDataText?_exact_iff`.  An exponent moves the point, which is exact, so of any text
`ofDataText?_cases` says that it is taken exactly, or else that it has a character in excess and
nothing behind this one matters, not even the exponent.
-/

namespace FundsTransfer.Decimal

open Text

/-! ## Values with a sign -/

/-- A value with a minus sign or without. -/
def withMinus (negative : Bool) (q : Rat) : Rat := if negative then -q else q

theorem Representable.withMinus {q : Rat} (h : Representable q) (negative : Bool) :
    Representable (withMinus negative q) := by
  obtain ⟨d, rfl⟩ := h
  cases negative with
  | false => exact ⟨d, rfl⟩
  | true => exact ⟨d.negate, toRat_negate d⟩

theorem withMinus_withMinus (negative : Bool) (q : Rat) :
    withMinus negative (withMinus negative q) = q := by
  cases negative with
  | false => rfl
  | true => exact neg_neg q

theorem withMinus_mul (negative : Bool) (q r : Rat) :
    withMinus negative q * r = withMinus negative (q * r) := by
  cases negative with
  | false => rfl
  | true => exact neg_mul q r

/-- Digits with a scale are divided by a power of ten. -/
theorem mkRat_pow (m scale : Nat) : mkRat m (Nat.pow 10 scale) = m / 10 ^ scale := by
  rw [Rat.mkRat_eq_div, Nat.pow_eq]
  push_cast
  rfl

theorem toRat_eq (d : Decimal) :
    d.toRat = withMinus d.negative (mkRat d.mantissa (Nat.pow 10 d.scale)) := by
  rw [toRat, signed]
  cases d.negative with
  | false => rfl
  | true => simp [withMinus, Rat.neg_mkRat]

theorem toRat_of_ofParts? {negative : Bool} {m scale : Nat} {d : Decimal}
    (h : ofParts? negative m scale = some d) :
    d.toRat = withMinus negative (mkRat m (Nat.pow 10 scale)) := by
  obtain ⟨hnegative, hmantissa, hscale⟩ := eq_of_ofParts? h
  rw [toRat_eq, hnegative, hmantissa, hscale]

/-- A zero without its sign has the same value. -/
theorem toRat_of_withSign {negative : Bool} {read : Nat × Nat} {d : Decimal}
    (h : withSign negative read = .ok d) :
    d.toRat = withMinus negative (mkRat read.1 (Nat.pow 10 read.2)) := by
  obtain ⟨m, scale⟩ := read
  rw [toRat_of_ofParts? (ofParts?_of_withSign h)]
  by_cases hm : m = 0
  · cases negative <;> simp [withMinus, hm]
  · have hsign : (negative && m != 0) = negative := by simp [hm]
    rw [hsign]

/-! ## Signs and exponents -/

/-- The sign of a text, and what is behind it. -/
def unsigned : List Char → Bool × List Char
  | '-' :: s => (true, s)
  | '+' :: s => (false, s)
  | s => (false, s)

/-- What is behind a plus sign, if there is one. -/
def afterPlus : List Char → List Char
  | '+' :: s => s
  | s => s

/-- The number that the digits of an exponent spell, behind a plus sign or without. -/
def exponentDigits? (s : List Char) : Option Nat :=
  if (afterPlus s).isEmpty || !(afterPlus s).all Char.isDigit then none
  else some (digitsValue (afterPlus s))

/-- The number that an exponent behind its mark means. -/
def exponentValue? : List Char → Option Int
  | '-' :: s => (exponentDigits? s).map fun n : Nat => -(n : Int)
  | s => (exponentDigits? s).map fun n : Nat => (n : Int)

/-- The number that a text without a sign means, if it means one. -/
def unsignedValue? (s : List Char) : Option Rat :=
  if IsPlain (s.takeWhile (!isMark ·)) then
    match s.dropWhile (!isMark ·) with
    | [] => some (plainValue (s.takeWhile (!isMark ·)))
    | _ :: e => (exponentValue? e).map fun k => plainValue (s.takeWhile (!isMark ·)) * 10 ^ k
  else none

/-- The number that a text means, if it means one. -/
def textValue? (s : List Char) : Option Rat :=
  (unsignedValue? (unsigned s).2).map (withMinus (unsigned s).1)

theorem unsigned_of_head {s : List Char} (h : ∀ c ∈ s.head?, c ≠ '-' ∧ c ≠ '+') :
    unsigned s = (false, s) := by
  unfold unsigned
  split
  · exact absurd rfl (h '-' rfl).1
  · exact absurd rfl (h '+' rfl).2
  · rfl

/-- A text has a sign in front, or starts with something else. -/
inductive Signed : List Char → Prop
  | minus (s : List Char) : Signed ('-' :: s)
  | plus (s : List Char) : Signed ('+' :: s)
  | none {s : List Char} : (∀ c ∈ s.head?, c ≠ '-' ∧ c ≠ '+') → Signed s

theorem Signed.of (s : List Char) : Signed s := by
  by_cases h : ∀ c ∈ s.head?, c ≠ '-' ∧ c ≠ '+'
  · exact .none h
  · cases s with
    | nil => simp at h
    | cons c s =>
        have hc : c = '-' ∨ c = '+' := by
          by_contra hne
          exact h fun d hd => by
            cases hd
            exact not_or.1 hne
        rcases hc with rfl | rfl
        · exact .minus s
        · exact .plus s

theorem ofText_eq (excess : Excess) (s : List Char) :
    ofText excess s = readWhole excess false 0 (unsigned s).2 >>= withSign (unsigned s).1 := by
  cases Signed.of s with
  | minus s => rfl
  | plus s => rfl
  | none h =>
      rw [unsigned_of_head h]
      unfold ofText
      split
      · exact absurd rfl (h '-' rfl).1
      · exact absurd rfl (h '+' rfl).2
      · rfl

/-- What is read behind the sign makes the decimal. -/
theorem exists_of_ofText {s : List Char} {d : Decimal} (h : ofText .round s = .ok d) :
    ∃ read, readWhole .round false 0 (unsigned s).2 = .ok read ∧
      withSign (unsigned s).1 read = .ok d := by
  rw [ofText_eq] at h
  cases hread : readWhole .round false 0 (unsigned s).2 with
  | error e =>
      rw [hread] at h
      cases h
  | ok read =>
      rw [hread] at h
      exact ⟨read, rfl, h⟩

/-- A text in digits with a sign is taken exactly if and only if some decimal has its value. -/
theorem toRat_ofText_iff {s : List Char} {d : Decimal} (h : ofText .round s = .ok d) :
    d.toRat = withMinus (unsigned s).1 (plainValue (unsigned s).2) ↔
      Representable (withMinus (unsigned s).1 (plainValue (unsigned s).2)) := by
  obtain ⟨read, hread, hsign⟩ := exists_of_ofText h
  refine ⟨fun hd => ⟨d, hd⟩, fun hvalue => ?_⟩
  have hback := hvalue.withMinus (unsigned s).1
  rw [withMinus_withMinus] at hback
  rw [toRat_of_withSign hsign, (textRead hread).exact hback]

/-- The value of a text in digits that is taken is within the range of decimals. -/
theorem plainValue_lt_of_ofText {s : List Char} {d : Decimal} (h : ofText .round s = .ok d) :
    plainValue (unsigned s).2 < 2 ^ 96 := by
  obtain ⟨read, hread, hsign⟩ := exists_of_ofText h
  have hmantissa : read.1 < 2 ^ 96 := by
    obtain ⟨-, hmantissa, -⟩ := eq_of_ofParts? (ofParts?_of_withSign hsign)
    rw [← hmantissa]
    exact d.mantissa_lt
  have hlt := (textRead hread).digits_lt hmantissa
  have hpow : (0 : Rat) < 10 ^ plainScale (unsigned s).2 := by positivity
  rw [plainValue, mkRat_pow, div_lt_iff₀ hpow]
  exact_mod_cast hlt

/-- A text is taken as the number that it means, or up to a character in excess. -/
theorem ofText_cases {s : List Char} {d : Decimal} (h : ofText .round s = .ok d) :
    IsPlain (unsigned s).2 ∧ d.toRat = withMinus (unsigned s).1 (plainValue (unsigned s).2) ∨
    ∃ p c r, s = p ++ c :: r ∧
      InExcess (digitsValue (figures (unsigned p).2)) (plainScale (unsigned p).2) c ∧
      ∀ r', ofText .round (p ++ c :: r') = .ok d := by
  obtain ⟨read, hread, hsign⟩ := exists_of_ofText h
  cases textRead hread with
  | full hplain hfull =>
      refine .inl ⟨hplain, ?_⟩
      rw [toRat_of_withSign hsign, hfull, plainValue]
  | cut p c r hsplit _ _ _ hexcess _ hrest =>
      right
      have hofText : ∀ {t : List Char}, unsigned t = ((unsigned s).1, p) →
          (∀ r', unsigned (t ++ c :: r') = ((unsigned s).1, p ++ c :: r')) →
          InExcess (digitsValue (figures (unsigned t).2)) (plainScale (unsigned t).2) c ∧
            ∀ r', ofText .round (t ++ c :: r') = .ok d := by
        intro t hbefore hunsigned
        refine ⟨by rwa [hbefore], fun r' => ?_⟩
        rw [ofText_eq, hunsigned, hrest]
        exact hsign
      cases Signed.of s with
      | minus t => exact ⟨'-' :: p, c, r, congrArg ('-' :: ·) hsplit, hofText rfl fun _ => rfl⟩
      | plus t => exact ⟨'+' :: p, c, r, congrArg ('+' :: ·) hsplit, hofText rfl fun _ => rfl⟩
      | none hhead =>
          rw [unsigned_of_head hhead] at hsplit hofText
          have hsplit : s = p ++ c :: r := hsplit
          have hhead : ∀ {t : List Char}, t.head? = s.head? ∨ t = [] → unsigned t = (false, t) := by
            intro t ht
            refine unsigned_of_head fun x hx => ?_
            rcases ht with ht | rfl
            · exact hhead x (ht ▸ hx)
            · cases hx
          refine ⟨p, c, r, hsplit, hofText (hhead ?_) fun r' => hhead (.inl ?_)⟩
          · cases p with
            | nil => exact .inr rfl
            | cons y p => exact .inl (by rw [hsplit]; rfl)
          · rw [hsplit]
            cases p <;> rfl

/-! ## Exponents -/

/-- Raising moves the point to the right. -/
theorem toRat_raise? {d r : Decimal} {e : Nat} (h : raise? d e = some r) :
    r.toRat = d.toRat * 10 ^ (e : Int) := by
  rw [toRat_eq d, withMinus_mul, mkRat_pow, zpow_natCast]
  unfold raise? at h
  split at h
  · rename_i hle
    rw [toRat_of_ofParts? h, mkRat_pow, pow_sub₀ _ (by norm_num) hle]
    congr 1
    field_simp
  · rename_i hlt
    have hpow : (10 : Rat) ^ e = 10 ^ (e - d.scale) * 10 ^ d.scale := by
      rw [← pow_add, Nat.sub_add_cancel (by omega)]
    rw [toRat_of_ofParts? h, mkRat_pow, hpow, Nat.pow_eq]
    push_cast
    congr 1
    field_simp

/-- Lowering moves the point to the left. -/
theorem toRat_lower? {d r : Decimal} {e : Nat} (h : lower? d e = some r) :
    r.toRat = d.toRat * 10 ^ (-(e : Int)) := by
  rw [toRat_eq d, withMinus_mul, toRat_of_ofParts? h, mkRat_pow, mkRat_pow, zpow_neg, zpow_natCast,
    pow_add]
  congr 1
  field_simp

theorem exponentDigits?_of_readExponent {s : List Char} {n : Nat} (h : readExponent s = some n) :
    exponentDigits? s = some n := by
  have h : (if (afterPlus s).isEmpty || !(afterPlus s).all Char.isDigit then none
      else if digitsValue (afterPlus s) < 0x100000000 then some (digitsValue (afterPlus s))
      else none) = some n := h
  unfold exponentDigits?
  split at h
  · cases h
  · rename_i hdigits
    rw [if_neg hdigits]
    split at h
    · exact h
    · cases h

theorem toRat_move? {m d : Decimal} {s : List Char} (h : move? m s = some d) :
    ∃ k, exponentValue? s = some k ∧ d.toRat = m.toRat * 10 ^ k := by
  unfold move? at h
  split at h
  · rename_i ds
    obtain ⟨e, he, h⟩ := Option.bind_eq_some_iff.1 h
    refine ⟨-(e : Int), ?_, ?_⟩
    · rw [exponentValue?, exponentDigits?_of_readExponent he]
      rfl
    split at h
    · exact toRat_lower? h
    · cases h
  · rename_i hminus
    obtain ⟨e, he, h⟩ := Option.bind_eq_some_iff.1 h
    refine ⟨(e : Int), ?_, ?_⟩
    · rw [exponentValue?, exponentDigits?_of_readExponent he]
      · rfl
      · exact hminus
    split at h
    · exact toRat_raise? h
    · cases h

/-- The mantissa and the power of ten that are read of a text with an exponent. -/
theorem exists_of_ofScientific? {s : List Char} {d : Decimal} (h : ofScientific? s = some d) :
    ∃ b c e m k, s = b ++ c :: e ∧ isMark c = true ∧
      ofText .round b = .ok m ∧ exponentValue? e = some k ∧ d.toRat = m.toRat * 10 ^ k := by
  have hsplit : s = s.takeWhile (!isMark ·) ++ s.dropWhile (!isMark ·) :=
    List.takeWhile_append_dropWhile.symm
  unfold ofScientific? at h
  cases hdrop : s.dropWhile (!isMark ·) with
  | nil =>
      rw [hdrop] at h
      cases h
  | cons c e =>
      rw [hdrop] at h hsplit
      have hmark : isMark c = true := by
        have hc := List.head_dropWhile_not (!isMark ·) (l := s) (by simp [hdrop])
        simpa [hdrop] using hc
      cases hmantissa : ofText .round (s.takeWhile (!isMark ·)) with
      | error =>
          simp only [hmantissa] at h
          cases h
      | ok m =>
          simp only [hmantissa] at h
          obtain ⟨k, hk, hd⟩ := toRat_move? h
          exact ⟨_, c, e, m, k, hsplit, hmark, hmantissa, hk, hd⟩

/-! ## Texts in data files -/

theorem isMark_of_isFigure {c : Char} (hc : IsFigure c ∨ c = '.') : isMark c = false := by
  cases hmark : isMark c with
  | false => rfl
  | true =>
      have hmark : c = 'e' ∨ c = 'E' := by simpa [isMark] using hmark
      rcases hmark with rfl | rfl
      · rcases hc with (hc | hc) | hc <;> exact absurd hc (by decide)
      · rcases hc with (hc | hc) | hc <;> exact absurd hc (by decide)

theorem unsigned_mark {b e : List Char} {c : Char} (hc : isMark c = true) :
    unsigned (b ++ c :: e) = ((unsigned b).1, (unsigned b).2 ++ c :: e) := by
  cases Signed.of b with
  | minus => rfl
  | plus => rfl
  | none hhead =>
      rw [unsigned_of_head hhead]
      refine unsigned_of_head fun x hx => ?_
      cases b with
      | nil =>
          cases hx
          constructor
          · rintro rfl
            exact absurd hc (by decide)
          · rintro rfl
            exact absurd hc (by decide)
      | cons y b => exact hhead x hx

theorem unsignedValue?_plain {s : List Char} (hs : IsPlain s) :
    unsignedValue? s = some (plainValue s) := by
  have hnone : ∀ c ∈ s, (!isMark c) = true := fun c hc => by
    simpa using isMark_of_isFigure (hs.mem c hc)
  have htake : s.takeWhile (!isMark ·) = s := List.takeWhile_eq_self_iff.2 hnone
  have hdrop : s.dropWhile (!isMark ·) = [] := List.dropWhile_eq_nil_iff.2 hnone
  rw [unsignedValue?, htake, hdrop, if_pos hs]

theorem textValue?_plain {s : List Char} (hs : IsPlain (unsigned s).2) :
    textValue? s = some (withMinus (unsigned s).1 (plainValue (unsigned s).2)) := by
  rw [textValue?, unsignedValue?_plain hs, Option.map_some]

theorem unsignedValue?_mark {s e : List Char} {c : Char} (hs : IsPlain s) (hc : isMark c = true) :
    unsignedValue? (s ++ c :: e) = (exponentValue? e).map fun k => plainValue s * 10 ^ k := by
  have hnone : ∀ c ∈ s, (!isMark c) = true := fun c hc => by
    simpa using isMark_of_isFigure (hs.mem c hc)
  have htake : (s ++ c :: e).takeWhile (!isMark ·) = s := by
    rw [List.takeWhile_append_of_pos hnone]
    simp [hc]
  have hdrop : (s ++ c :: e).dropWhile (!isMark ·) = c :: e := by
    rw [List.dropWhile_append_of_pos hnone]
    simp [hc]
  rw [unsignedValue?, htake, hdrop, if_pos hs]

theorem ofDataText?_of_ok {s : List Char} {d : Decimal} (h : ofText .round s = .ok d) :
    ofDataText? s = some d := by
  rw [ofDataText?, h]

/-- A text is read in plain digits, or else with an exponent. -/
theorem ofText_or_ofScientific? {s : List Char} {d : Decimal} (h : ofDataText? s = some d) :
    ofText .round s = .ok d ∨
      (∃ e, ofText .round s = .error e) ∧ ofScientific? s = some d := by
  unfold ofDataText? at h
  split at h
  · rename_i hs
    cases h
    exact .inl hs
  · rename_i e hs
    exact .inr ⟨⟨e, hs⟩, h⟩

/-- A text is taken up to a character in excess, and nothing behind this character matters. -/
inductive CutOff (s : List Char) (d : Decimal) : Prop
  | intro (p : List Char) (c : Char) (r : List Char) : s = p ++ c :: r →
      InExcess (digitsValue (figures (unsigned p).2)) (plainScale (unsigned p).2) c →
      (∀ r', ofDataText? (p ++ c :: r') = some d) → CutOff s d

/-- A text is taken as the number that it means, or up to a character in excess. -/
theorem ofDataText?_cases {s : List Char} {d : Decimal} (h : ofDataText? s = some d) :
    textValue? s = some d.toRat ∨ CutOff s d := by
  rcases ofText_or_ofScientific? h with hs | ⟨⟨e, hs⟩, hscientific⟩
  · rcases ofText_cases hs with ⟨hplain, hd⟩ | ⟨p, c, r, hsplit, hexcess, hrest⟩
    · left
      rw [textValue?_plain hplain, hd]
    · exact .inr (.intro p c r hsplit hexcess fun r' => ofDataText?_of_ok (hrest r'))
  · obtain ⟨b, c, e, m, k, rfl, hc, hm, hk, hd⟩ := exists_of_ofScientific? hscientific
    rcases ofText_cases hm with ⟨hplain, hvalue⟩ | ⟨p, x, r, rfl, -, hrest⟩
    · left
      rw [textValue?, unsigned_mark hc, unsignedValue?_mark hplain hc, hk, Option.map_some,
        Option.map_some, hd, hvalue, withMinus_mul]
    · -- with a character in excess before it, the exponent would not have been looked at
      have hok := hrest (r ++ c :: e)
      rw [← List.cons_append, ← List.append_assoc, hs] at hok
      cases hok

/-- A text without an exponent is taken exactly if and only if some decimal has its value. -/
theorem ofDataText?_exact_iff {s : List Char} {d : Decimal} (h : ofDataText? s = some d)
    (hplain : IsPlain (unsigned s).2) :
    ∃ q, textValue? s = some q ∧ (d.toRat = q ↔ Representable q) := by
  refine ⟨_, textValue?_plain hplain, ?_⟩
  rcases ofText_or_ofScientific? h with hs | ⟨-, hscientific⟩
  · exact toRat_ofText_iff hs
  · obtain ⟨b, c, e, m, k, rfl, hc, -⟩ := exists_of_ofScientific? hscientific
    rw [unsigned_mark hc] at hplain
    have hno := isMark_of_isFigure (hplain.mem c (by simp))
    rw [hc] at hno
    cases hno

end FundsTransfer.Decimal
