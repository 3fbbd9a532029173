import FundsTransfer.Json.RowDecoder
import FundsTransfer.Proofs.Json.Number
import FundsTransfer.Proofs.Json.Values

/-!
# The amount of a request

A request for a transfer gives its amount as a number or a text, in an object or an array.
`amount_of_request` says what is made of it.

An amount is not always the number that is given.  A text is read with rounding, and a number that
is not a whole number of 64 bits becomes a floating-point number first.  So a text with 29
digits behind the point is accepted with another amount, `long_amount_altered`.  The exact cases are
those that occur in practice: whole numbers, numbers in at most fifteen digits, and texts without an
exponent whose value some decimal has.
-/

namespace FundsTransfer

open Text Json

/-! ## Nodes -/

/-- The token of a number. -/
def Json.Node.token? : Node → Option NumberToken
  | .number t => some t
  | _ => none

/-- The characters of a text. -/
def Json.Node.text? : Node → Option String
  | .string u => u
  | _ => none

theorem eq_number_of_token? {n : Option Node} {t : NumberToken} (h : n.bind Node.token? = some t) :
    n = some (.number t) := by
  obtain ⟨a, rfl, ha⟩ := Option.bind_eq_some_iff.1 h
  cases a with
  | number t' =>
      cases ha
      rfl
  | null | bool | string | array | object | mistake => cases ha

theorem eq_string_of_text? {n : Option Node} {u : String} (h : n.bind Node.text? = some u) :
    n = some (.string (some u)) := by
  obtain ⟨a, rfl, ha⟩ := Option.bind_eq_some_iff.1 h
  cases a with
  | string u' =>
      cases ha
      rfl
  | null | bool | number | array | object | mistake => cases ha

/-! ## Numbers -/

namespace Decimal

theorem plainValue_text (n : Numeral) : plainValue n.text = n.value := by
  have hfigures : figures n.text = n.whole ++ n.fraction := filter_isDigit_minused false n
  have hwhole : ∀ c ∈ n.whole, IsFigure c := fun c hc => .inl (n.isDigit_whole c hc)
  have hscale : plainScale n.text = n.scale := by
    by_cases hfraction : n.fraction = []
    · have htext : n.text = n.whole := by rw [Numeral.text, if_pos hfraction, List.append_nil]
      rw [htext, plainScale_of_isFigure hwhole, Numeral.scale, hfraction]
      rfl
    · rw [Numeral.text, if_neg hfraction, plainScale_point hwhole, figures,
        List.filter_eq_self.2 n.isDigit_fraction, Numeral.scale]
  rw [plainValue, hfigures, hscale]
  rfl

theorem unsigned_minused (negative : Bool) (n : Numeral) :
    unsigned (minused negative n.text) = (negative, n.text) := by
  cases negative with
  | true => rfl
  | false =>
      obtain ⟨c, r, htext, hc⟩ := n.exists_text_eq_cons
      refine unsigned_of_head fun x hx => ?_
      rw [htext] at hx
      cases hx
      constructor
      · rintro rfl
        exact absurd hc (by decide)
      · rintro rfl
        exact absurd hc (by decide)

/-- Few digits with a power of ten that is not too small are the value of a decimal, if this value is
in the range. -/
theorem representable_of_lt {n : Nat} {e : Int} (hn : n < 2 ^ 96) (he : -28 ≤ e)
    (h : (n : Rat) * 10 ^ e < 2 ^ 96) : Representable (n * 10 ^ e) := by
  rcases Int.le_total 0 e with hsign | hsign
  · obtain ⟨k, rfl⟩ := Int.eq_ofNat_of_zero_le hsign
    rw [zpow_natCast] at h ⊢
    have hlt : n * 10 ^ k < 0x1000000000000000000000000 := by exact_mod_cast h
    refine ⟨⟨false, n * 10 ^ k, 0, hlt, by decide⟩, ?_⟩
    rw [toRat_eq, withMinus, if_neg Bool.false_ne_true, mkRat_pow, pow_zero, div_one]
    push_cast
    rfl
  · obtain ⟨k, hk⟩ := Int.eq_ofNat_of_zero_le (show 0 ≤ -e by omega)
    obtain rfl : e = -(k : Int) := by omega
    refine ⟨⟨false, n, k, hn, by omega⟩, ?_⟩
    rw [toRat_eq, withMinus, if_neg Bool.false_ne_true, mkRat_pow, zpow_neg, zpow_natCast,
      div_eq_mul_inv]

end Decimal

/-- A short number is taken exactly. -/
theorem toRat_of_isShort {t : NumberToken} (ht : t.IsShort) {x : Binary64} {d : Decimal}
    (hx : Number.float? t = some x) (h : Decimal.ofText .round x.text = .ok d) :
    d.toRat = t.value := by
  obtain ⟨n, htext, hvalue⟩ := Number.exists_numeral_of_isShort ht hx
  have hlt := Decimal.plainValue_lt_of_ofText h
  have hiff := Decimal.toRat_ofText_iff h
  rw [htext, Decimal.unsigned_minused] at hlt hiff
  simp only [Decimal.plainValue_text, hvalue] at hlt hiff
  have hdigits := ht.digits_lt
  have hpower := ht.le_power
  exact hiff.2 ((Decimal.representable_of_lt (by omega) (by omega) hlt).withMinus _)

/-- What a number is taken as. -/
theorem decimal_number {t : NumberToken} {d : Decimal}
    (h : Decoder.decimal (.number t) = .ok d) :
    (∃ i, Number.whole? t = some i ∧ d.toRat = t.value) ∨
    Number.whole? t = none ∧
      ∃ x, Number.float? t = some x ∧ Decimal.ofText .round x.text = .ok d := by
  obtain ⟨number, hnumber, hd⟩ := ok_of_bind h
  have hnumber : Number.ofToken? t = some number := ok_of_ofOption hnumber
  unfold Number.ofToken? at hnumber
  cases hwhole : Number.whole? t with
  | some i =>
      rw [hwhole] at hnumber
      cases hnumber
      refine .inl ⟨i, rfl, ?_⟩
      have hparts := Decimal.toRat_of_ofParts? (ok_of_ofOption hd)
      rw [t.value_of_whole? hwhole, hparts, Decimal.mkRat_pow, pow_zero, div_one]
      by_cases hi : i < 0
      · have habs : ((i.natAbs : Int) : Rat) = -i := by
          rw [Int.ofNat_natAbs_of_nonpos hi.le]
          push_cast
          rfl
        rw [decide_eq_true hi, Decimal.withMinus, if_pos rfl, ← Int.cast_natCast, habs, neg_neg]
      · rw [decide_eq_false hi, Decimal.withMinus, if_neg Bool.false_ne_true, ← Int.cast_natCast,
          Int.natAbs_of_nonneg (not_lt.1 hi)]
  | none =>
      rw [hwhole] at hnumber
      obtain ⟨x, hx, rfl⟩ := Option.map_eq_some_iff.1 hnumber
      exact .inr ⟨rfl, x, hx, ofText_of_decimalOf hd⟩

/-! ## Requests -/

/-- The amount of a request is made of what is given for it. -/
theorem TransferParams.exists_given {n : Node} {p : TransferParams}
    (h : TransferParams.shape.decoder n = .ok p) :
    ∃ a, TransferParams.shape.given "amount" n = some a ∧ Decoder.decimal a = .ok p.amount := by
  obtain ⟨known, hparts, hbuild⟩ := exists_parts h
  obtain ⟨_, _, h₁, -, rfl⟩ := exists_of_seq hbuild
  obtain ⟨_, _, h₂, -, rfl⟩ := exists_of_seq h₁
  obtain ⟨_, _, h₃, -, rfl⟩ := exists_of_seq h₂
  obtain ⟨_, _, h₄, -, rfl⟩ := exists_of_seq h₃
  obtain ⟨_, amount, h₅, hamount, rfl⟩ := exists_of_seq h₄
  obtain ⟨_, _, h₆, -, rfl⟩ := exists_of_seq h₅
  obtain ⟨_, _, h₇, -, rfl⟩ := exists_of_seq (f := pure TransferParams.mk) h₆
  cases h₇
  obtain ⟨a, ha, hdecimal⟩ := exists_of_required hamount
  exact ⟨a, by rw [← hparts.lookup rfl, ha], hdecimal⟩

/-- The amount of every accepted request is made of what is given for it, a number or a text.

A whole number of 64 bits is taken exactly, and so is a number in at most fifteen digits with a small
power of ten.  Any other number is taken at the shortest text of its floating-point number, which is
read with rounding.

A text without an exponent is taken exactly if and only if some decimal has its value.  Any text is
taken as the number that it means, or else only up to a character in excess, so that nothing behind
this character matters. -/
theorem amount_of_request {s : String} {p : TransferParams}
    (h : decode TransferParams.shape.decoder s = .ok p) :
    (∃ t : NumberToken,
      TransferParams.shape.given "amount" (readNode s.toList).1 = some (.number t) ∧
      ((Number.whole? t).isSome ∨ t.IsShort → p.amount.toRat = t.value) ∧
      (Number.whole? t = none →
        ∃ x, Number.float? t = some x ∧ Decimal.ofText .round x.text = .ok p.amount)) ∨
    ∃ u : String,
      TransferParams.shape.given "amount" (readNode s.toList).1 = some (.string (some u)) ∧
      (Decimal.IsPlain (Decimal.unsigned u.toList).2 → ∃ q, Decimal.textValue? u.toList = some q ∧
        (p.amount.toRat = q ↔ Decimal.Representable q)) ∧
      (Decimal.textValue? u.toList = some p.amount.toRat ∨ Decimal.CutOff u.toList p.amount) := by
  obtain ⟨a, hgiven, hdecimal⟩ := TransferParams.exists_given (node_of_decode h)
  cases a with
  | number t =>
      refine .inl ⟨t, hgiven, ?_⟩
      rcases decimal_number hdecimal with ⟨i, hi, hvalue⟩ | ⟨hnone, x, hx, hread⟩
      · exact ⟨fun _ => hvalue, fun hnone => by rw [hi] at hnone; cases hnone⟩
      · refine ⟨fun hexact => ?_, fun _ => ⟨x, hx, hread⟩⟩
        rcases hexact with hwhole | hshort
        · rw [hnone] at hwhole
          cases hwhole
        · exact toRat_of_isShort hshort hx hread
  | string u =>
      cases u with
      | none => cases hdecimal
      | some u =>
          have hread := ok_of_ofOption hdecimal
          exact .inr ⟨u, hgiven, Decimal.ofDataText?_exact_iff hread, Decimal.ofDataText?_cases hread⟩
  | null => cases hdecimal
  | bool => cases hdecimal
  | array => cases hdecimal
  | object => cases hdecimal
  | mistake => cases hdecimal

/-- No floating-point number has the value of `0.1`, and yet it is taken exactly. -/
theorem tenth_taken_exactly :
    ∃ (p : TransferParams) (t : NumberToken),
      decode TransferParams.shape.decoder "[1, 2, 0.1, \"EUR\"]" = .ok p ∧
      TransferParams.shape.given "amount" (readNode "[1, 2, 0.1, \"EUR\"]".toList).1 =
        some (.number t) ∧ t.value = mkRat 1 10 ∧ p.amount.toRat = t.value := by
  have hread : decode TransferParams.shape.decoder "[1, 2, 0.1, \"EUR\"]" =
      .ok ⟨1, 2, ⟨false, 1, 1, by decide, by decide⟩, "EUR", .one, none, none⟩ := by
    decide +kernel
  have hgiven : TransferParams.shape.given "amount" (readNode "[1, 2, 0.1, \"EUR\"]".toList).1 =
      some (.number ⟨false, ['0'], some ['1'], none⟩) := eq_number_of_token? (by decide +kernel)
  have hshort : NumberToken.IsShort ⟨false, ['0'], some ['1'], none⟩ :=
    ⟨by decide, by decide, by decide, by decide⟩
  rcases amount_of_request hread with ⟨t, ht, hexact, -⟩ | ⟨u, hu, -⟩
  · rw [hgiven] at ht
    cases ht
    have hvalue := hexact (.inr hshort)
    exact ⟨_, _, hread, hgiven, hvalue.symm, hvalue⟩
  · rw [hgiven] at hu
    cases hu

/-- A text with 29 digits behind the point is accepted, and the amount is another number. -/
theorem long_amount_altered :
    ∃ (s : String) (p : TransferParams) (u : String) (q : Rat),
      s = "\x7b\"sender_account_id\":1,\"receiver_account_id\":2," ++
        "\"amount\":\"1.00000000000000000000000000005\",\"currency_code\":\"EUR\"\x7d" ∧
      decode TransferParams.shape.decoder s = .ok p ∧
      TransferParams.shape.given "amount" (readNode s.toList).1 = some (.string (some u)) ∧
      Decimal.textValue? u.toList = some q ∧ p.amount.toRat ≠ q := by
  let u := "1.00000000000000000000000000005"
  have hunsigned : Decimal.unsigned u.toList = (false, u.toList) := by decide +kernel
  have hdigits : digitsValue (Decimal.figures u.toList) = 100000000000000000000000000005 := by
    decide +kernel
  have hscale : Decimal.plainScale u.toList = 29 := by decide +kernel
  have hvalue : Decimal.textValue? u.toList =
      some (mkRat 100000000000000000000000000005 (Nat.pow 10 29)) := by
    rw [Decimal.textValue?_plain (by decide +kernel), hunsigned, Decimal.plainValue, hdigits, hscale]
    rfl
  refine ⟨_, ⟨1, 2, ⟨false, 10000000000000000000000000001, 28, by decide, by decide⟩, "EUR", .one,
    none, none⟩, u, _, rfl, ?_, ?_, hvalue, ?_⟩
  · decide +kernel
  · exact eq_string_of_text? (by decide +kernel)
  · rw [ne_eq, Decimal.toRat_eq_mkRat_iff]
    decide +kernel

end FundsTransfer
