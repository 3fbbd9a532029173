import FundsTransfer.Decimal.Basic
import FundsTransfer.Text.Digits

/-!
# Decimal text

A decimal is written with exactly as many digits after the point as its scale says, at
least one digit before the point, and a minus sign when its sign is negative, zero
included.

Reading takes an optional sign, digits, and at most one point; an underscore may stand
anywhere after the first digit and is skipped.  A digit before the point that does not
fit is always refused.  For a digit after the point that does not fit, either because
it is the 29th or because the mantissa would need more than 96 bits, there are two
policies.  `Excess.refuse` reads exactly or not at all.  `Excess.round` uses the first
such digit to round, a five or more upwards, and looks at nothing behind it.
-/

namespace FundsTransfer.Decimal

open Text

/-- The text of a decimal. -/
def text (d : Decimal) : List Char :=
  (if d.negative then ['-'] else []) ++ pointed d.mantissa d.scale

/-- The text of a decimal as a string. -/
def toText (d : Decimal) : String := String.ofList d.text

/-- Why a text is no decimal. -/
inductive ReadError where
  /-- The digits before the point do not fit 96 bits. -/
  | tooManyDigits
  /-- A digit after the point does not fit. -/
  | tooPrecise
  /-- The text has no digit, or a character that does not belong. -/
  | malformed
deriving DecidableEq, Repr

/-- What people are told about a text that is no decimal. -/
def ReadError.message : ReadError → String
  | .tooManyDigits => "Invalid decimal: overflow from too many digits"
  | .tooPrecise => "Number has a high precision that can not be represented."
  | .malformed => "Invalid decimal: unknown character"

/-- What happens to a digit after the point that does not fit. -/
inductive Excess where
  /-- The text is refused. -/
  | refuse
  /-- The digit rounds the ones before it, and the text ends there. -/
  | round
deriving DecidableEq, Repr

/-- The mantissa and scale after rounding by the next digit, a five or more upwards.  When the
rounded mantissa no longer fits, one more digit is dropped. -/
def roundBy (next m scale : Nat) : Except ReadError (Nat × Nat) :=
  let r := if 5 ≤ next then m + 1 else m
  if r < 0x1000000000000000000000000 then .ok (r, scale)
  else if scale = 0 then .error .tooManyDigits
  else .ok ((r + 4) / 10, scale - 1)

/-- The digits after the point, continuing from a mantissa and a scale.  `seen` says whether
there was a digit already. -/
def readFraction (excess : Excess) (seen : Bool) (m scale : Nat) :
    List Char → Except ReadError (Nat × Nat)
  | [] => if seen then .ok (m, scale) else .error .malformed
  | c :: rest =>
    if scale = 28 then
      match excess with
      | .refuse => .error .tooPrecise
      | .round =>
        if c.isDigit then roundBy (digitValue c) m scale
        else if c = '_' ∨ c = '.' then roundBy 0 m scale
        else .error .malformed
    else if c.isDigit then
      let m' := m * 10 + digitValue c
      if m' < 0x1000000000000000000000000 then readFraction excess true m' (scale + 1) rest
      else
        match excess with
        | .refuse => .error .tooPrecise
        | .round => roundBy (digitValue c) m scale
    else if c = '_' ∧ seen then readFraction excess seen m scale rest
    else .error .malformed

/-- The digits before the point, and what follows the point. -/
def readWhole (excess : Excess) (seen : Bool) (m : Nat) :
    List Char → Except ReadError (Nat × Nat)
  | [] => if seen then .ok (m, 0) else .error .malformed
  | c :: rest =>
    if c.isDigit then
      let m' := m * 10 + digitValue c
      if m' < 0x1000000000000000000000000 then readWhole excess true m' rest
      else .error .tooManyDigits
    else if c = '.' then readFraction excess seen m 0 rest
    else if c = '_' ∧ seen then readWhole excess seen m rest
    else .error .malformed

/-- The decimal with a sign in front of the digits read.  A zero has no sign. -/
def withSign (negative : Bool) : Nat × Nat → Except ReadError Decimal
  | (m, scale) =>
    match ofParts? (negative && m != 0) m scale with
    | some d => .ok d
    | none => .error .tooPrecise

/-- The decimal that a text spells. -/
def ofText (excess : Excess) : List Char → Except ReadError Decimal
  | '-' :: rest => readWhole excess false 0 rest >>= withSign true
  | '+' :: rest => readWhole excess false 0 rest >>= withSign false
  | s => readWhole excess false 0 s >>= withSign false

/-- The decimal that a text spells exactly. -/
def ofTextExact (s : List Char) : Except ReadError Decimal := ofText .refuse s

end FundsTransfer.Decimal
