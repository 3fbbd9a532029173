import FundsTransfer.Money.Rate
import FundsTransfer.Text.Blank
import FundsTransfer.Transfer.Error

/-!
# What a transfer is asked with

A caller names two accounts, an amount and a currency, and may add an exchange rate, a
reference number and a description.  `TransferParams.validate` checks everything that
can be checked without a store.  The first check that fails names the error, in the
order amount, accounts, currency, rate, reference.
-/

namespace FundsTransfer

/-- A request to move money. -/
structure TransferParams where
  /-- The sending account. -/
  sender : Int
  /-- The receiving account. -/
  receiver : Int
  /-- The amount to move. -/
  amount : Decimal
  /-- The code of the currency. -/
  currency : String
  /-- The exchange rate, stored as given. -/
  exchangeRate : Binary64
  /-- The reference number, made up when absent. -/
  reference : Option String
  /-- A description. -/
  description : Option String
deriving DecidableEq, Inhabited

/-- A request that passed every check which needs no store, with its rate as a decimal. -/
structure ValidTransfer where
  /-- The sending account. -/
  sender : Int
  /-- The receiving account. -/
  receiver : Int
  /-- The amount to move. -/
  amount : Decimal
  /-- The code of the currency. -/
  currency : String
  /-- The exchange rate. -/
  exchangeRate : Decimal
  /-- The reference number, made up when absent. -/
  reference : Option String
  /-- A description. -/
  description : Option String
deriving DecidableEq, Inhabited

/-- Whether a text can be the code of a currency: one to ten ASCII letters and digits. -/
def isCurrencyCode (code : String) : Bool :=
  !code.isEmpty && code.length ≤ 10 && code.toList.all Char.isAlphanum

namespace TransferParams

/-- Everything that can be checked without a store. -/
def validate (p : TransferParams) : Except TransferError ValidTransfer :=
  if !p.amount.isPositive then .error .invalidAmount
  else if p.sender = p.receiver then .error .sameAccount
  else if !isCurrencyCode p.currency then .error (.invalidCurrencyCode p.currency)
  else
    match FundsTransfer.exchangeRate p.exchangeRate with
    | .error e => .error (.invalidExchangeRate e)
    | .ok rate =>
      if p.reference.any (fun r => Text.allBlank r.toList) then .error .emptyReferenceNumber
      else
        .ok
          { sender := p.sender, receiver := p.receiver, amount := p.amount, currency := p.currency,
            exchangeRate := rate, reference := p.reference, description := p.description }

end TransferParams

end FundsTransfer
