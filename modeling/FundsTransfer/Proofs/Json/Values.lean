import FundsTransfer.Json.Decoder
import FundsTransfer.Proofs.Decimal.DataText
import FundsTransfer.Proofs.Json.Codec
import FundsTransfer.Proofs.Time.Text

/-!
# Numbers, texts, decimals and timestamps are read back

A whole number is read back if it fits 64 bits with a sign, and texts and truth values are read back
without any condition.  A decimal is written as a text, and what its text does not tell is the sign
of a zero.  But no decimal that was read has such a sign, however it was spelled:
`unsigned_of_decimal` goes through the spellings.
-/

namespace FundsTransfer

open Text

/-! ## Whole numbers, truth values and texts -/

/-- A number that fits 64 bits with a sign. -/
def IsInt64 (n : Int) : Prop := -(2 ^ 63 : Int) ≤ n ∧ n < 2 ^ 63

namespace Json

theorem number_integer {n : Int} (h : IsInt64 n) :
    Decoder.number (integer n).toNode = .ok (.whole n) := by
  obtain ⟨hlow, hhigh⟩ := h
  have hdigits : digitsValue (digits n.natAbs) = n.natAbs := digitsValue_digits _
  have hwhole : Number.whole? ⟨decide (n < 0), digits n.natAbs, none, none⟩ = some n := by
    simp only [Number.whole?, hdigits, Option.isSome_none, Bool.or_self, Bool.false_eq_true,
      if_false, decide_eq_true_eq]
    split
    · rw [if_pos (by omega)]
      congr 1
      omega
    · rw [if_pos (by omega)]
      congr 1
      omega
  rw [toNode, Decoder.number, Number.ofToken?, hwhole]
  rfl

theorem faithful_int64 : Faithful integer Decoder.int64 IsInt64 where
  decode_encode n hn := by
    simp only [Decoder.int64, number_integer hn]
    exact if_pos hn
  valid node n hn := by
    simp only [Decoder.int64] at hn
    split at hn
    · split at hn
      · rename_i hrange
        cases hn
        exact hrange
      · cases hn
    · cases hn

theorem faithful_bool : Faithful bool Decoder.bool fun _ => True where
  decode_encode _ _ := rfl
  valid _ _ _ := trivial

theorem faithful_string : Faithful string Decoder.string fun _ => True where
  decode_encode _ _ := rfl
  valid _ _ _ := trivial

end Json

/-! ## Decimals -/

namespace Decimal

/-- A decimal that is no zero with a sign. -/
def Unsigned (d : Decimal) : Prop := d.isZero = true → d.negative = false

theorem unsigned_of_ofParts? {negative : Bool} {m scale : Nat} {d : Decimal}
    (h : ofParts? negative m scale = some d) (hm : m = 0 → negative = false) : d.Unsigned := by
  obtain ⟨hnegative, hmantissa, -⟩ := eq_of_ofParts? h
  intro hzero
  rw [hnegative]
  exact hm (by simpa [isZero, hmantissa] using hzero)

theorem unsigned_of_withSign {negative : Bool} {digits : Nat × Nat} {d : Decimal}
    (h : withSign negative digits = .ok d) : d.Unsigned :=
  unsigned_of_ofParts? (ofParts?_of_withSign h) fun hm => by simp [hm]

theorem unsigned_of_ofText {excess : Excess} {s : List Char} {d : Decimal}
    (h : ofText excess s = .ok d) : d.Unsigned := by
  rw [ofText_eq] at h
  obtain ⟨digits, -, h⟩ := Json.ok_of_bind h
  exact unsigned_of_withSign h

theorem Unsigned.raise? {d d' : Decimal} {e : Nat} (hd : d.Unsigned) (h : d.raise? e = some d') :
    d'.Unsigned := by
  unfold Decimal.raise? at h
  split at h
  · exact unsigned_of_ofParts? h fun hm => hd (by simp [isZero, hm])
  · refine unsigned_of_ofParts? h fun hm => hd ?_
    rcases Nat.mul_eq_zero.1 hm with hm | hm
    · simp [isZero, hm]
    · exact absurd hm (Nat.pos_iff_ne_zero.1 (Nat.pow_pos (by decide)))

theorem Unsigned.lower? {d d' : Decimal} {e : Nat} (hd : d.Unsigned) (h : d.lower? e = some d') :
    d'.Unsigned :=
  unsigned_of_ofParts? h fun hm => hd (by simp [isZero, hm])

theorem Unsigned.move? {d d' : Decimal} {s : List Char} (hd : d.Unsigned)
    (h : d.move? s = some d') : d'.Unsigned := by
  unfold Decimal.move? at h
  split at h
  · obtain ⟨e, -, he⟩ := Option.bind_eq_some_iff.1 h
    split at he
    · exact hd.lower? he
    · cases he
  · obtain ⟨e, -, he⟩ := Option.bind_eq_some_iff.1 h
    split at he
    · exact hd.raise? he
    · cases he

theorem unsigned_of_ofScientific? {s : List Char} {d : Decimal} (h : ofScientific? s = some d) :
    d.Unsigned := by
  unfold ofScientific? at h
  split at h
  · cases h
  · split at h
    · rename_i hd
      exact (unsigned_of_ofText hd).move? h
    · cases h

theorem unsigned_of_ofDataText? {s : List Char} {d : Decimal} (h : ofDataText? s = some d) :
    d.Unsigned := by
  unfold ofDataText? at h
  split at h
  · rename_i hs
    cases h
    exact unsigned_of_ofText hs
  · exact unsigned_of_ofScientific? h

end Decimal

namespace Json

theorem ok_of_ofOption {α : Type} {o : Option α} {a : α} (h : Decoder.ofOption o = .ok a) :
    o = some a := by
  cases o with
  | none => cases h
  | some b =>
      cases h
      rfl

theorem ofText_of_decimalOf {x : Binary64} {d : Decimal}
    (h : Decoder.decimalOf (.float x) = .ok d) : Decimal.ofText .round x.text = .ok d := by
  simp only [Decoder.decimalOf] at h
  split at h
  · rename_i hread
    cases h
    exact hread
  · cases h

/-- No decimal that was read is a zero with a sign. -/
theorem unsigned_of_decimal {n : Node} {d : Decimal} (h : Decoder.decimal n = .ok d) :
    d.Unsigned := by
  unfold Decoder.decimal at h
  split at h
  · exact Decimal.unsigned_of_ofDataText? (ok_of_ofOption h)
  · obtain ⟨number, -, h⟩ := ok_of_bind h
    cases number with
    | whole i =>
        refine Decimal.unsigned_of_ofParts? (ok_of_ofOption h) fun hi => ?_
        simp only [decide_eq_false_iff_not]
        omega
    | float x => exact Decimal.unsigned_of_ofText (ofText_of_decimalOf h)

theorem faithful_decimal : Faithful Decimal.toJson Decoder.decimal Decimal.Unsigned where
  decode_encode d hd := by
    have hread : Decimal.ofText .round d.text = .ok d := by
      rw [Decimal.ofText_decimal]
      congr 1
      rcases d with ⟨negative, m, scale, hm, hs⟩
      simp only [Decimal.mk.injEq, and_true]
      cases negative with
      | false => rfl
      | true =>
          by_contra hzero
          exact absurd (hd (by simpa [Decimal.isZero] using hzero)) (by simp)
    rw [Decimal.toJson, toNode, Decoder.decimal, Decimal.ofDataText?, Decimal.toText,
      String.toList_ofList, hread]
    rfl
  valid _ _ h := unsigned_of_decimal h

/-! ## Timestamps -/

theorem faithful_timestamp :
    Faithful Timestamp.toJson Decoder.timestamp Timestamp.Representable where
  decode_encode t ht := by
    rw [Timestamp.toJson, toNode, Decoder.timestamp, Timestamp.toText, String.toList_ofList,
      Timestamp.ofText?_text ht]
    rfl
  valid n t h := by
    unfold Decoder.timestamp at h
    split at h
    · exact Timestamp.representable_of_ofText? (ok_of_ofOption h)
    · cases h

end Json

end FundsTransfer
