import FundsTransfer.Decimal.Text
import FundsTransfer.Work.Basic

/-!
# Balances

A balance is only ever changed by adding to it in one query.  When a transfer changes
two balances, the account with the lower number comes first, whichever side sends.  So
any two transfers over the same pair of accounts take the two rows in the same order,
and neither waits for a row that the other holds while it holds one itself.
-/

namespace FundsTransfer

/-- The event of a balance changed. -/
def balanceEvent (account : Int) (delta : Decimal) (row : Account) : Log.Event :=
  ⟨.debug, .balance, "Balance updated",
    [("account_id", .integer account), ("delta", .plain delta.toText),
     ("balance", .plain row.balance.toText)]⟩

/-- Adds to the balance of an account. -/
def applyDelta (account : Int) (delta : Decimal) : Work Account := do
  let row ← Work.require (.addBalance account delta) (.storage (.updateBalance account))
  Work.emit (balanceEvent account delta row)
  pure row

/-- Two accounts in the order in which their rows are taken. -/
def lockOrder (a b : Int) : Int × Int := if a ≤ b then (a, b) else (b, a)

/-- Takes the amount from the sender and gives it to the receiver, lower account first.  Yields the
sender and the receiver. -/
def updateBothBalances (sender receiver : Int) (amount : Decimal) : Work (Account × Account) :=
  if (lockOrder sender receiver).1 = sender then do
    let s ← applyDelta sender amount.negate
    let r ← applyDelta receiver amount
    pure (s, r)
  else do
    let r ← applyDelta receiver amount
    let s ← applyDelta sender amount.negate
    pure (s, r)

end FundsTransfer
