import FundsTransfer.Decimal.Basic

/-!
# Sums of decimals

A sum is taken at the larger of the two scales.  When its digits do not fit a decimal,
the fewest trailing digits are dropped that make it fit, with one rounding from the
exact sum.  When even the whole part does not fit, there is no sum: `add?` is `none`.
A zero gives way to the other side with its scale and sign, so adding a zero never
changes a number, not even its text.

`signed_add?_of_fits` is the exact case: when the digits fit at the larger scale, the
sum is exact.
-/

namespace FundsTransfer.Decimal

/-- The number `m / 10 ^ (kept + dropped)` with at most `kept` digits after the point: digits are
dropped one by one until the rest fits. -/
def shorten? (negative : Bool) (m : Nat) : (kept dropped : Nat) → Option Decimal
  | 0, dropped => ofParts? negative (roundHalfEven m (Nat.pow 10 dropped)) 0
  | kept + 1, dropped =>
    match ofParts? negative (roundHalfEven m (Nat.pow 10 dropped)) (kept + 1) with
    | some d => some d
    | none => shorten? negative m kept (dropped + 1)

/-- The sum of two decimals, or `none` when its whole part does not fit a decimal. -/
def add? (a b : Decimal) : Option Decimal :=
  if a.isZero then some b
  else if b.isZero then some a
  else
    let scale := max a.scale b.scale
    let sum := a.digitsAt scale + b.digitsAt scale
    shorten? (decide (sum < 0)) sum.natAbs scale 0

/-- The running sum of a list of decimals from zero, or `none` as soon as a partial sum does not
fit. -/
def sum? (ds : List Decimal) : Option Decimal := ds.foldlM add? zero

/-! ## The exact case -/

/-- Digits that fit are not dropped. -/
theorem shorten?_of_fits {negative : Bool} {m scale : Nat} (hm : m < 0x1000000000000000000000000)
    (hs : scale ≤ 28) :
    shorten? negative m scale 0 = some ⟨negative, m, scale, hm, hs⟩ := by
  have h : ofParts? negative m scale = some ⟨negative, m, scale, hm, hs⟩ := dif_pos ⟨hm, hs⟩
  cases scale with
  | zero => rw [shorten?, Nat.pow, roundHalfEven_one, h]
  | succ k => rw [shorten?, Nat.pow, roundHalfEven_one, h]

/-- A sum whose digits fit at the larger scale is exact there. -/
theorem signed_add?_of_fits {a b c : Decimal} (ha : a.isZero = false) (hb : b.isZero = false)
    (h : (a.digitsAt (max a.scale b.scale) + b.digitsAt (max a.scale b.scale)).natAbs
      < 0x1000000000000000000000000)
    (hc : a.add? b = some c) :
    c.signed = a.digitsAt (max a.scale b.scale) + b.digitsAt (max a.scale b.scale) ∧
      c.scale = max a.scale b.scale := by
  have hs : max a.scale b.scale ≤ 28 := Nat.max_le.mpr ⟨a.scale_le, b.scale_le⟩
  simp only [add?, ha, hb, Bool.false_eq_true, if_false, shorten?_of_fits h hs,
    Option.some.injEq] at hc
  subst hc
  refine ⟨?_, rfl⟩
  simp only [signed, decide_eq_true_eq]
  split <;> omega

end FundsTransfer.Decimal
