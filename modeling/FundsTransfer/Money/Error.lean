import FundsTransfer.Binary64.Text
import FundsTransfer.Decimal.Text

/-!
# Errors of money conversion

An amount that a client types and an exchange rate that a client computes become
decimals, or one of these errors says why not.
-/

namespace FundsTransfer

/-- Why an amount or a rate is refused. -/
inductive MoneyError where
  /-- The amount has more digits after the point than the currency allows.  How many it has is any
number: a text of 2 ^ 32 digits and more is counted exactly, not in a counter of 32 bits. -/
  | precisionOverflow (provided max : Nat)
  /-- The amount is signed or zero. -/
  | invalidAmount
  /-- The amount is not written in plain digits. -/
  | invalidFormat (message : String)
  /-- The rate is no finite number or needs more digits than a decimal holds. -/
  | rateNotRepresentable (rate : Binary64)
  /-- The rate is not above zero. -/
  | invalidRate (rate : Decimal)
deriving DecidableEq

namespace MoneyError

/-- What people are told. -/
def message : MoneyError → String
  | .precisionOverflow provided max =>
    "Precision overflow: provided " ++ toString provided ++ " decimals, max allowed " ++
      toString max
  | .invalidAmount => "Amount must be positive"
  | .invalidFormat m => "Invalid format: " ++ m
  | .rateNotRepresentable rate =>
    "Exchange rate " ++ rate.toText ++ " is not representable as a decimal"
  | .invalidRate rate => "Exchange rate must be positive, got " ++ rate.toText

end MoneyError

end FundsTransfer
