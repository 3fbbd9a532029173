import FundsTransfer.Money.Error

/-!
# Exchange rates

A rate comes as a floating-point number and is stored as a decimal.  It is taken at its
shortest text, `1.08` and not `1.0800000000000000710…`, and that text is read exactly.
A rate whose text needs more digits than a decimal holds is refused, never rounded.
-/

namespace FundsTransfer

/-- The decimal form of an exchange rate. -/
def exchangeRate (rate : Binary64) : Except MoneyError Decimal :=
  if rate.isFinite then
    match Decimal.ofTextExact rate.text with
    | .error _ => .error (.rateNotRepresentable rate)
    | .ok d => if d.isPositive then .ok d else .error (.invalidRate d)
  else .error (.rateNotRepresentable rate)

end FundsTransfer
