import FundsTransfer.Text.Digits

/-!
# Whole numbers of 64 bits in a text

A whole number is digits behind an optional sign.  It is read digit by digit, and the
first thing that is wrong counts: a character that is no digit, or a number that has
become too large or too small.
-/

namespace FundsTransfer.Text

/-- Why a text is no whole number of 64 bits. -/
inductive IntegerError where
  /-- There is nothing. -/
  | empty
  /-- There is something else than digits. -/
  | invalidDigit
  /-- The number is too large. -/
  | tooLarge
  /-- The number is too small. -/
  | tooSmall
deriving DecidableEq, Repr

/-- What people are told. -/
def IntegerError.message : IntegerError → String
  | empty => "cannot parse integer from empty string"
  | invalidDigit => "invalid digit found in string"
  | tooLarge => "number too large to fit in target type"
  | tooSmall => "number too small to fit in target type"

/-- The number that digits spell behind those already read, up to a limit. -/
def readDigits (limit : Nat) (excess : IntegerError) (n : Nat) :
    List Char → Except IntegerError Nat
  | [] => .ok n
  | c :: rest =>
    if !c.isDigit then .error .invalidDigit
    else
      let n := n * 10 + digitValue c
      if limit < n then .error excess else readDigits limit excess n rest

/-- The whole number of 64 bits that a text spells. -/
def readInt64 (s : String) : Except IntegerError Int :=
  match s.toList with
  | [] => .error .empty
  | ['+'] => .error .invalidDigit
  | ['-'] => .error .invalidDigit
  | '-' :: ds => (readDigits 0x8000000000000000 .tooSmall 0 ds).map fun n => -(n : Int)
  | '+' :: ds => (readDigits (0x7FFFFFFFFFFFFFFF) .tooLarge 0 ds).map Int.ofNat
  | ds => (readDigits (0x7FFFFFFFFFFFFFFF) .tooLarge 0 ds).map Int.ofNat

end FundsTransfer.Text
