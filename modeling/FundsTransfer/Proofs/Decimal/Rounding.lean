import FundsTransfer.Proofs.Decimal.Exact
import FundsTransfer.Proofs.Decimal.Reading
import Mathlib.Data.List.TakeWhile
import Mathlib.Tactic.Ring

/-!
# Reading with rounding

A text that holds more digits than a decimal can is not refused when it is read with rounding.
Digits before the point are all taken, and digits behind it up to the first in excess, which
rounds those before it.  What follows that one is not looked at: `textRead` says that
it could be anything, so a second point, an exponent or no number at all makes no difference
there.

Still, nothing is lost if nothing has to be.  When some decimal has the value of the whole text,
everything from the character in excess on is zeros, `tail_eq_zero`, and so the text is taken
exactly, `TextRead.exact`.
-/

namespace FundsTransfer.Decimal

open Text

/-! ## Texts in digits -/

/-- A digit, or the separator that is skipped between digits. -/
def IsFigure (c : Char) : Prop := c.isDigit = true ∨ c = '_'

/-- The digits of a text. -/
def figures (s : List Char) : List Char := s.filter Char.isDigit

@[simp] theorem figures_append (s t : List Char) : figures (s ++ t) = figures s ++ figures t :=
  List.filter_append ..

theorem figures_cons_of_isDigit {c : Char} (hc : c.isDigit = true) (s : List Char) :
    figures (c :: s) = c :: figures s := List.filter_cons_of_pos hc

theorem isDigit_of_mem_figures {s : List Char} {c : Char} (hc : c ∈ figures s) :
    c.isDigit = true := (List.mem_filter.1 hc).2

/-- The mantissa and the scale after the digits of a text behind the point. -/
def taken (m scale : Nat) (s : List Char) : Nat × Nat :=
  (digitsFrom m (figures s), scale + (figures s).length)

theorem taken_cons_of_isDigit {c : Char} (hc : c.isDigit = true) (m scale : Nat) (s : List Char) :
    taken m scale (c :: s) = taken (m * 10 + digitValue c) (scale + 1) s := by
  rw [taken, taken, figures_cons_of_isDigit hc, List.length_cons, Nat.add_right_comm scale,
    Nat.add_assoc]
  rfl

/-! ## What is cut off -/

/-- A character that is in excess behind digits that make a mantissa and a scale. -/
inductive InExcess (m scale : Nat) (c : Char) : Prop
  /-- There are 28 digits behind the point already. -/
  | place : scale = 28 → c.isDigit = true ∨ c = '_' ∨ c = '.' → InExcess m scale c
  /-- With this digit the mantissa would need more than 96 bits. -/
  | digit : scale < 28 → c.isDigit = true → 2 ^ 96 ≤ m * 10 + digitValue c → InExcess m scale c

/-- The digit by which is rounded.  A separator and a second point round as a zero. -/
def roundingDigit (c : Char) : Nat := if c.isDigit then digitValue c else 0

/-- What reading does with one more character behind the point, whatever follows it. -/
inductive FractionStep (seen : Bool) (m scale : Nat) (c : Char) : Prop
  /-- The character is in excess. -/
  | excess : InExcess m scale c →
      (∀ r, readFraction .round seen m scale (c :: r) = roundBy (roundingDigit c) m scale) →
      FractionStep seen m scale c
  /-- The digit is taken. -/
  | digit : scale < 28 → c.isDigit = true → m * 10 + digitValue c < 2 ^ 96 →
      (∀ r, readFraction .round seen m scale (c :: r) =
        readFraction .round true (m * 10 + digitValue c) (scale + 1) r) →
      FractionStep seen m scale c
  /-- The separator is skipped. -/
  | separator : c = '_' → (∀ r, readFraction .round seen m scale (c :: r) =
        readFraction .round seen m scale r) → FractionStep seen m scale c
  /-- The character does not belong. -/
  | malformed : (∀ r, readFraction .round seen m scale (c :: r) = .error .malformed) →
      FractionStep seen m scale c

theorem fractionStep (seen : Bool) (m : Nat) (c : Char) {scale : Nat} (hscale : scale ≤ 28) :
    FractionStep seen m scale c := by
  by_cases hplace : scale = 28
  · by_cases hdigit : c.isDigit = true
    · exact .excess (.place hplace (.inl hdigit)) fun r => by
        simp [readFraction, hplace, hdigit, roundingDigit]
    · by_cases hc : c = '_' ∨ c = '.'
      · exact .excess (.place hplace (.inr hc)) fun r => by
          simp [readFraction, hplace, hdigit, hc, roundingDigit]
      · exact .malformed fun r => by simp [readFraction, hplace, hdigit, hc]
  · by_cases hdigit : c.isDigit = true
    · by_cases hfits : m * 10 + digitValue c < 2 ^ 96
      · exact .digit (by omega) hdigit hfits fun r => by
          simp only [readFraction, if_neg hplace, if_pos hdigit]
          exact if_pos hfits
      · exact .excess (.digit (by omega) hdigit (by omega)) fun r => by
          simp only [readFraction, if_neg hplace, if_pos hdigit, roundingDigit]
          exact if_neg hfits
    · by_cases hc : c = '_' ∧ seen = true
      · exact .separator hc.1 fun r => by
          simp only [readFraction, if_neg hplace, if_neg hdigit, if_pos hc]
      · exact .malformed fun r => by
          simp only [readFraction, if_neg hplace, if_neg hdigit, if_neg hc]

/-- Digits behind the point are taken to the end, or up to a character in excess.  Nothing behind
that character matters. -/
inductive FractionRead (seen : Bool) (m scale : Nat) (s : List Char) (read : Nat × Nat) : Prop
  | full : (∀ c ∈ s, IsFigure c) → (seen = true ∨ figures s ≠ []) → read = taken m scale s →
      FractionRead seen m scale s read
  | cut (p : List Char) (c : Char) (r : List Char) : s = p ++ c :: r → (∀ c ∈ p, IsFigure c) →
      (taken m scale p).1 < 2 ^ 96 → InExcess (taken m scale p).1 (taken m scale p).2 c →
      roundBy (roundingDigit c) (taken m scale p).1 (taken m scale p).2 = .ok read →
      (∀ r', readFraction .round seen m scale (p ++ c :: r') = .ok read) →
      FractionRead seen m scale s read

theorem fractionRead {seen : Bool} {m scale : Nat} {s : List Char} {read : Nat × Nat}
    (hm : m < 2 ^ 96) (hscale : scale ≤ 28) (h : readFraction .round seen m scale s = .ok read) :
    FractionRead seen m scale s read := by
  induction s generalizing seen m scale with
  | nil =>
      simp only [readFraction] at h
      split at h
      · rename_i hseen
        cases h
        exact .full (by simp) (.inl hseen) rfl
      · cases h
  | cons c r ih =>
      have hcons : ∀ {p : List Char}, IsFigure c → (∀ d ∈ p, IsFigure d) →
          ∀ d ∈ c :: p, IsFigure d := fun hc hp => List.forall_mem_cons.2 ⟨hc, hp⟩
      cases fractionStep seen m c hscale with
      | excess hexcess hstep =>
          rw [hstep r] at h
          exact .cut [] c r rfl (by simp) hm hexcess h fun r' => (hstep r').trans h
      | digit hroom hdigit hfits hstep =>
          rw [hstep r] at h
          have htaken := taken_cons_of_isDigit hdigit m scale
          cases ih hfits hroom h with
          | full hr hseen hread =>
              refine .full (hcons (.inl hdigit) hr) (.inr ?_) (by rw [hread, htaken])
              simp [figures_cons_of_isDigit hdigit]
          | cut p d t hs hp hlt hexcess hround hrest =>
              rw [← htaken] at hlt hexcess hround
              refine .cut (c :: p) d t (by rw [hs]; rfl) (hcons (.inl hdigit) hp) hlt hexcess hround
                fun r' => ?_
              rw [List.cons_append, hstep, hrest]
      | separator hc hstep =>
          subst hc
          rw [hstep r] at h
          cases ih hm hscale h with
          | full hr hseen hread => exact .full (hcons (.inr rfl) hr) hseen hread
          | cut p d t hs hp hlt hexcess hround hrest =>
              refine .cut ('_' :: p) d t (by rw [hs]; rfl) (hcons (.inr rfl) hp) hlt hexcess hround
                fun r' => ?_
              rw [List.cons_append, hstep, hrest]
      | malformed hstep =>
          rw [hstep r] at h
          cases h

/-- Digits before the point are all taken, up to the end or the point. -/
inductive WholeRead (seen : Bool) (m : Nat) (s : List Char) (read : Nat × Nat) : Prop
  | full : (∀ c ∈ s, IsFigure c) → (seen = true ∨ figures s ≠ []) →
      read = (digitsFrom m (figures s), 0) → WholeRead seen m s read
  | point (w f : List Char) (seen' : Bool) : s = w ++ '.' :: f → (∀ c ∈ w, IsFigure c) →
      digitsFrom m (figures w) < 2 ^ 96 → (seen' = true → seen = true ∨ figures w ≠ []) →
      readFraction .round seen' (digitsFrom m (figures w)) 0 f = .ok read →
      (∀ f', readWhole .round seen m (w ++ '.' :: f') =
        readFraction .round seen' (digitsFrom m (figures w)) 0 f') → WholeRead seen m s read

theorem wholeRead {seen : Bool} {m : Nat} {s : List Char} {read : Nat × Nat} (hm : m < 2 ^ 96)
    (h : readWhole .round seen m s = .ok read) : WholeRead seen m s read := by
  induction s generalizing seen m with
  | nil =>
      simp only [readWhole] at h
      split at h
      · rename_i hseen
        cases h
        exact .full (by simp) (.inl hseen) rfl
      · cases h
  | cons c r ih =>
      have hcons : ∀ {p : List Char}, IsFigure c → (∀ d ∈ p, IsFigure d) →
          ∀ d ∈ c :: p, IsFigure d := fun hc hp => List.forall_mem_cons.2 ⟨hc, hp⟩
      by_cases hdigit : c.isDigit = true
      · have hfigures := figures_cons_of_isDigit hdigit
        by_cases hfits : m * 10 + digitValue c < 0x1000000000000000000000000
        · have hstep : ∀ t, readWhole .round seen m (c :: t) =
              readWhole .round true (m * 10 + digitValue c) t := fun t => by
            simp only [readWhole, if_pos hdigit, if_pos hfits]
          rw [hstep] at h
          cases ih hfits h with
          | full hr hseen hread =>
              exact .full (hcons (.inl hdigit) hr) (.inr (by simp [hfigures]))
                (by rw [hread, hfigures]; rfl)
          | point w f seen' hs hw hlt hseen hread hrest =>
              refine .point (c :: w) f seen' (by rw [hs]; rfl) (hcons (.inl hdigit) hw) ?_
                (fun _ => .inr (by simp [hfigures])) ?_ fun f' => ?_
              · rw [hfigures]
                exact hlt
              · rw [hfigures]
                exact hread
              · rw [List.cons_append, hstep, hrest, hfigures]
                rfl
        · simp only [readWhole, if_pos hdigit, if_neg hfits] at h
          cases h
      by_cases hpoint : c = '.'
      · subst hpoint
        have hstep : ∀ t, readWhole .round seen m ('.' :: t) =
            readFraction .round seen m 0 t := fun t => by
          simp only [readWhole, if_neg hdigit, if_true]
        exact .point [] r seen rfl (by simp) hm .inl ((hstep r).symm.trans h) hstep
      by_cases hseparator : c = '_' ∧ seen = true
      · obtain ⟨rfl, hseen⟩ := hseparator
        have hstep : ∀ t, readWhole .round seen m ('_' :: t) = readWhole .round seen m t :=
          fun t => by simp [readWhole, hseen, Char.isDigit]
        rw [hstep] at h
        cases ih hm h with
        | full hr hseen hread => exact .full (hcons (.inr rfl) hr) hseen hread
        | point w f seen' hs hw hlt hseen hread hrest =>
            refine .point ('_' :: w) f seen' (by rw [hs]; rfl) (hcons (.inr rfl) hw) hlt hseen hread
              fun f' => ?_
            rw [List.cons_append, hstep, hrest]
            rfl
      · simp only [readWhole, if_neg hdigit, if_neg hpoint, if_neg hseparator] at h
        cases h

/-! ## Texts of numbers -/

/-- Digits and separators with at most one point. -/
structure IsPlain (s : List Char) : Prop where
  mem : ∀ c ∈ s, IsFigure c ∨ c = '.'
  point : s.count '.' ≤ 1
  digit : figures s ≠ []

theorem isPlain_iff {s : List Char} :
    IsPlain s ↔ (s.all fun c => c.isDigit || c == '_' || c == '.') = true ∧ s.count '.' ≤ 1 ∧
      (figures s).isEmpty = false := by
  simp only [List.all_eq_true, Bool.or_eq_true, beq_iff_eq, List.isEmpty_eq_false_iff]
  exact ⟨fun h => ⟨h.mem, h.point, h.digit⟩, fun h => ⟨h.1, h.2.1, h.2.2⟩⟩

instance (s : List Char) : Decidable (IsPlain s) := decidable_of_iff _ isPlain_iff.symm

/-- The number of digits behind the point. -/
def plainScale (s : List Char) : Nat := (figures (s.dropWhile (· != '.'))).length

/-- The number that a text in digits means. -/
def plainValue (s : List Char) : Rat := mkRat (digitsValue (figures s)) (Nat.pow 10 (plainScale s))

theorem ne_point_of_isFigure {c : Char} (hc : IsFigure c) : c ≠ '.' := by
  rintro rfl
  rcases hc with hc | hc
  · exact absurd hc (by decide)
  · exact absurd hc (by decide)

theorem count_point_of_isFigure {s : List Char} (hs : ∀ c ∈ s, IsFigure c) : s.count '.' = 0 :=
  List.count_eq_zero.2 fun hmem => ne_point_of_isFigure (hs _ hmem) rfl

theorem plainScale_of_isFigure {s : List Char} (hs : ∀ c ∈ s, IsFigure c) : plainScale s = 0 := by
  have hdrop : s.dropWhile (· != '.') = [] := by
    refine List.dropWhile_eq_nil_iff.2 fun c hc => ?_
    simpa using ne_point_of_isFigure (hs c hc)
  rw [plainScale, hdrop]
  rfl

theorem plainScale_point {w : List Char} (hw : ∀ c ∈ w, IsFigure c) (f : List Char) :
    plainScale (w ++ '.' :: f) = (figures f).length := by
  have hdrop : (w ++ '.' :: f).dropWhile (· != '.') = '.' :: f := by
    rw [List.dropWhile_append_of_pos fun c hc => by simpa using ne_point_of_isFigure (hw c hc)]
    simp
  rw [plainScale, hdrop]
  rfl

theorem taken_point {w : List Char} (hw : ∀ c ∈ w, IsFigure c) (f : List Char) :
    taken (digitsFrom 0 (figures w)) 0 f =
      (digitsValue (figures (w ++ '.' :: f)), plainScale (w ++ '.' :: f)) := by
  have hfigures : figures ('.' :: f) = figures f := rfl
  rw [plainScale_point hw, figures_append, hfigures, digitsValue, digitsFrom_append, taken,
    Nat.zero_add]

/-- A text is taken to its end, or up to a character in excess behind a point.  Nothing behind that
character matters. -/
inductive TextRead (s : List Char) (read : Nat × Nat) : Prop
  | full : IsPlain s → read = (digitsValue (figures s), plainScale s) → TextRead s read
  | cut (p : List Char) (c : Char) (r : List Char) : s = p ++ c :: r →
      (∀ c ∈ p, IsFigure c ∨ c = '.') → p.count '.' = 1 → digitsValue (figures p) < 2 ^ 96 →
      InExcess (digitsValue (figures p)) (plainScale p) c →
      roundBy (roundingDigit c) (digitsValue (figures p)) (plainScale p) = .ok read →
      (∀ r', readWhole .round false 0 (p ++ c :: r') = .ok read) → TextRead s read

theorem textRead {s : List Char} {read : Nat × Nat} (h : readWhole .round false 0 s = .ok read) :
    TextRead s read := by
  cases wholeRead (by decide) h with
  | full hs hseen hread =>
      refine .full ⟨fun c hc => .inl (hs c hc), ?_, ?_⟩ ?_
      · rw [count_point_of_isFigure hs]
        decide
      · simpa using hseen
      · rw [hread, plainScale_of_isFigure hs]
        rfl
  | point w f seen' hs hw hlt hseen hread hrest =>
      subst hs
      have hmem : ∀ {t : List Char}, (∀ c ∈ t, IsFigure c) →
          ∀ c ∈ w ++ '.' :: t, IsFigure c ∨ c = '.' := by
        intro t ht c hc
        rcases List.mem_append.1 hc with hc | hc
        · exact .inl (hw c hc)
        · rcases List.mem_cons.1 hc with rfl | hc
          · exact .inr rfl
          · exact .inl (ht c hc)
      have hcount : ∀ {t : List Char}, (∀ c ∈ t, IsFigure c) → (w ++ '.' :: t).count '.' = 1 := by
        intro t ht
        rw [List.count_append, List.count_cons_self, count_point_of_isFigure hw,
          count_point_of_isFigure ht]
      cases fractionRead hlt (by decide) hread with
      | full hf hseen' hread =>
          refine .full ⟨hmem hf, by rw [hcount hf], ?_⟩ (by rw [hread, taken_point hw])
          rw [figures_append]
          rcases hseen' with hseen' | hne
          · have hne : figures w ≠ [] := by simpa using hseen hseen'
            simp [hne]
          · have hfigures : figures ('.' :: f) = figures f := rfl
            simp [hfigures, hne]
      | cut p c r hf hp hlt hexcess hround hcut =>
          rw [taken_point hw] at hlt hexcess hround
          refine .cut (w ++ '.' :: p) c r (by rw [hf]; simp) (hmem hp) (hcount hp) hlt hexcess hround
            fun r' => ?_
          have happend : w ++ '.' :: p ++ c :: r' = w ++ '.' :: (p ++ c :: r') := by simp
          rw [happend, hrest, hcut]

/-! ## When nothing is lost -/

theorem digitsValue_figures_lt (s : List Char) :
    digitsValue (figures s) < 10 ^ (figures s).length :=
  digitsValue_lt fun _ hc => isDigit_of_mem_figures hc

/-- Rounding by a zero changes nothing. -/
theorem roundBy_zero {m scale : Nat} (hm : m < 2 ^ 96) : roundBy 0 m scale = .ok (m, scale) := by
  rw [roundBy]
  exact if_pos hm

/-- Behind a point, further digits are further digits behind the point. -/
theorem plainScale_append {p : List Char} (hp : '.' ∈ p) (t : List Char) :
    plainScale (p ++ t) = plainScale p + (figures t).length := by
  have hne : ¬ (p.dropWhile (· != '.')).isEmpty = true := by
    simp only [List.isEmpty_iff, List.dropWhile_eq_nil_iff]
    intro h
    simpa using h _ hp
  rw [plainScale, List.dropWhile_append, if_neg hne, figures_append, List.length_append]
  rfl

/-- If some decimal has the value of all digits, those from a character in excess on are zeros. -/
theorem tail_eq_zero {m scale len tail M j : Nat} (hvalue : m * 10 ^ len + tail = M * 10 ^ j)
    (hM : M < 2 ^ 96) (hj : scale + len ≤ j + 28) (htail : tail < 10 ^ len)
    (hexcess : scale = 28 ∨ ∃ l, len = l + 1 ∧ 2 ^ 96 * 10 ^ l ≤ m * 10 ^ len + tail) :
    tail = 0 := by
  have hle : len ≤ j := by
    rcases hexcess with hplace | ⟨l, rfl, hlarge⟩
    · omega
    · by_contra hlt
      have hpow : 10 ^ j ≤ 10 ^ l := Nat.pow_le_pow_right (by decide) (by omega)
      have hsmall : M * 10 ^ j < 2 ^ 96 * 10 ^ l :=
        Nat.lt_of_le_of_lt (Nat.mul_le_mul_left M hpow)
          (Nat.mul_lt_mul_of_pos_right hM (Nat.pow_pos (by decide)))
      omega
  have hdvd : 10 ^ len ∣ m * 10 ^ len + tail := by
    rw [hvalue]
    exact Dvd.dvd.mul_left (Nat.pow_dvd_pow 10 hle) M
  have htaildvd : 10 ^ len ∣ tail := (Nat.dvd_add_right (Nat.dvd_mul_left _ m)).1 hdvd
  exact Nat.eq_zero_of_dvd_of_lt htaildvd htail

/-- A text in digits is taken exactly if some decimal has its value. -/
theorem TextRead.exact {s : List Char} {read : Nat × Nat} (h : TextRead s read)
    (hvalue : Representable (plainValue s)) : mkRat read.1 (Nat.pow 10 read.2) = plainValue s := by
  cases h with
  | full _ hread => rw [hread, plainValue]
  | cut p c r hsplit _ hpoint hlt hexcess hround _ =>
      have hmem : '.' ∈ p := List.count_pos_iff.1 (by omega)
      have htail := digitsValue_figures_lt (c :: r)
      have hdigits : digitsValue (figures s) = digitsValue (figures p) *
          10 ^ (figures (c :: r)).length + digitsValue (figures (c :: r)) := by
        rw [hsplit, figures_append, digitsValue_append]
      have hscale : plainScale s = plainScale p + (figures (c :: r)).length := by
        rw [hsplit, plainScale_append hmem]
      obtain ⟨M, j, hM, hMlt, -, hj⟩ := hvalue.exists_digits
      rw [Int.natAbs_natCast, hdigits] at hM
      rw [hscale] at hj
      have hzero : digitsValue (figures (c :: r)) = 0 := by
        refine tail_eq_zero hM hMlt hj htail ?_
        cases hexcess with
        | place hplace _ => exact .inl hplace
        | digit _ hc hlarge =>
            refine .inr ⟨(figures r).length, by rw [figures_cons_of_isDigit hc]; rfl, ?_⟩
            rw [figures_cons_of_isDigit hc, digitsValue_cons, List.length_cons]
            calc 2 ^ 96 * 10 ^ (figures r).length
                ≤ (digitsValue (figures p) * 10 + digitValue c) * 10 ^ (figures r).length :=
                  Nat.mul_le_mul_right _ hlarge
              _ = digitsValue (figures p) * 10 ^ ((figures r).length + 1) +
                  digitValue c * 10 ^ (figures r).length := by ring
              _ ≤ digitsValue (figures p) * 10 ^ ((figures r).length + 1) +
                  (digitValue c * 10 ^ (figures r).length + digitsValue (figures r)) :=
                  Nat.add_le_add_left (Nat.le_add_right _ _) _
      have hnext : roundingDigit c = 0 := by
        rw [roundingDigit]
        split
        · rename_i hc
          rw [figures_cons_of_isDigit hc, digitsValue_cons] at hzero
          have hpow : 0 < 10 ^ (figures r).length := Nat.pow_pos (by decide)
          have hproduct : digitValue c * 10 ^ (figures r).length = 0 := by omega
          exact (Nat.mul_eq_zero.1 hproduct).resolve_right (by omega)
        · rfl
      rw [hnext, roundBy_zero hlt] at hround
      cases hround
      rw [plainValue, hdigits, hscale, hzero, Nat.add_zero, Nat.pow_eq, Nat.pow_eq, Nat.pow_add,
        Nat.cast_mul, Rat.mkRat_mul_right (Nat.pos_iff_ne_zero.1 (Nat.pow_pos (by decide)))]

/-- The value of a text that was taken is within the range of decimals. -/
theorem TextRead.digits_lt {s : List Char} {read : Nat × Nat} (h : TextRead s read)
    (hread : read.1 < 2 ^ 96) : digitsValue (figures s) < 2 ^ 96 * 10 ^ plainScale s := by
  cases h with
  | full _ hfull =>
      rw [hfull] at hread
      exact Nat.lt_of_lt_of_le hread (Nat.le_mul_of_pos_right _ (Nat.pow_pos (by decide)))
  | cut p c r hsplit _ hpoint hlt _ _ _ =>
      have hmem : '.' ∈ p := List.count_pos_iff.1 (by omega)
      have htail := digitsValue_figures_lt (c :: r)
      rw [hsplit, plainScale_append hmem, figures_append, digitsValue_append]
      generalize (figures (c :: r)).length = len at htail ⊢
      calc digitsValue (figures p) * 10 ^ len + digitsValue (figures (c :: r))
          < (digitsValue (figures p) + 1) * 10 ^ len := by
            rw [Nat.add_mul, Nat.one_mul]
            exact Nat.add_lt_add_left htail _
        _ ≤ 2 ^ 96 * 10 ^ len := Nat.mul_le_mul_right _ hlt
        _ ≤ 2 ^ 96 * 10 ^ (plainScale p + len) :=
            Nat.mul_le_mul_left _ (Nat.pow_le_pow_right (by decide) (Nat.le_add_left _ _))

end FundsTransfer.Decimal
