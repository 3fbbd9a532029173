/-!
# Digits

Numbers are written and read in the ten ASCII digits.  `digitsValue` is the number a
list of digits spells, most significant first, and `digits` writes a number without
superfluous zeros.  `digitsValue_digits` says that the two fit together.
-/

namespace FundsTransfer.Text

/-- The number an ASCII digit stands for. -/
def digitValue (c : Char) : Nat := c.toNat - '0'.toNat

/-- The number a list of digits spells, continuing from a number already read. -/
def digitsFrom (n : Nat) (s : List Char) : Nat := s.foldl (fun n c => n * 10 + digitValue c) n

/-- The number a list of digits spells. -/
def digitsValue (s : List Char) : Nat := digitsFrom 0 s

/-- The digits of a number, without superfluous zeros in front. -/
def digits (n : Nat) : List Char := Nat.toDigits 10 n

/-- The digits of a number, with zeros in front up to a given width. -/
def padded (width n : Nat) : List Char :=
  let ds := digits n
  List.replicate (width - ds.length) '0' ++ ds

/-- The text of an integer, with a minus sign when it is negative. -/
def intDigits (n : Int) : List Char :=
  if n < 0 then '-' :: digits n.natAbs else digits n.natAbs

/-- The text of an integer as a string. -/
def intText (n : Int) : String := String.ofList (intDigits n)

/-- The digits of a number with a point before the last `scale` of them, and at least one digit
before the point. -/
def pointed (n scale : Nat) : List Char :=
  let ds := padded (scale + 1) n
  if scale = 0 then ds else ds.take (ds.length - scale) ++ '.' :: ds.drop (ds.length - scale)

/-- A text with blanks in front up to a given width. -/
def alignRight (width : Nat) (s : String) : String :=
  String.ofList (List.replicate (width - s.length) ' ') ++ s

/-! ## Reading what was written -/

/-- Reading continues over a concatenation. -/
theorem digitsFrom_append (n : Nat) (s t : List Char) :
    digitsFrom n (s ++ t) = digitsFrom (digitsFrom n s) t := by
  simp [digitsFrom]

/-- One more digit multiplies by ten and adds. -/
theorem digitsValue_append_singleton (s : List Char) (c : Char) :
    digitsValue (s ++ [c]) = digitsValue s * 10 + digitValue c := by
  simp [digitsValue, digitsFrom]

/-- The digits of a number are ASCII digits. -/
theorem isDigit_of_mem_digits {n : Nat} {c : Char} (h : c ∈ digits n) : c.isDigit = true :=
  Nat.isDigit_of_mem_toDigits (by decide) (by decide) h

/-- Reading as the standard library does. -/
theorem digitsFrom_eq_ofDigitChars (n : Nat) (s : List Char) :
    digitsFrom n s = Nat.ofDigitChars 10 s n := by
  induction s generalizing n with
  | nil => simp [digitsFrom]
  | cons c r ih =>
    have := ih (n * 10 + digitValue c)
    simp only [digitsFrom, List.foldl_cons, Nat.ofDigitChars_cons] at this ⊢
    rw [this, Nat.mul_comm]
    rfl

/-- A number's digits spell the number. -/
theorem digitsValue_digits (n : Nat) : digitsValue (digits n) = n := by
  simp [digitsValue, digitsFrom_eq_ofDigitChars, digits, Nat.ofDigitChars_ten_toDigits]

end FundsTransfer.Text
