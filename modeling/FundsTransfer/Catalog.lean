import FundsTransfer.Money.Rate
import FundsTransfer.Row

/-!
# The catalog

Statuses, types and currencies that the engine knows by itself.  A row of a reference
table is written from here when its code is first used; a code that the catalog does not
know gets a placeholder.

A transfer goes from `PENDING` to `COMPLETED` within one unit of work, so a committed
transfer is never seen pending.  The other statuses and types are there for other uses
of the tables.
-/

namespace FundsTransfer

/-! ## Statuses -/

/-- The statuses the engine knows. -/
inductive StatusCode where
  /-- Under way. -/
  | pending
  /-- Done. -/
  | completed
  /-- Failed. -/
  | failed
  /-- Called off. -/
  | cancelled
  /-- Taken back. -/
  | reversed
deriving DecidableEq, Repr

namespace StatusCode

/-- All statuses in catalog order. -/
def all : List StatusCode := [pending, completed, failed, cancelled, reversed]

/-- The code of a status in its table. -/
def text : StatusCode → String
  | pending => "PENDING"
  | completed => "COMPLETED"
  | failed => "FAILED"
  | cancelled => "CANCELLED"
  | reversed => "REVERSED"

/-- What a status means. -/
def description : StatusCode → String
  | pending => "Transaction is pending"
  | completed => "Transaction completed successfully"
  | failed => "Transaction failed"
  | cancelled => "Transaction was cancelled"
  | reversed => "Transaction was reversed"

/-- Whether no other status follows. -/
def isTerminal : StatusCode → Bool
  | pending => false
  | _ => true

/-- The status with a code. -/
def ofText? (code : String) : Option StatusCode := all.find? (·.text == code)

end StatusCode

/-- The description a status gets when its row is written. -/
def statusDescription (code : String) : String :=
  match StatusCode.ofText? code with
  | some s => s.description
  | none => "Unknown transaction status"

/-! ## Types -/

/-- The types of transactions the engine knows. -/
inductive TypeCode where
  /-- From one account to another. -/
  | transfer
  /-- Into an account. -/
  | deposit
  /-- Out of an account. -/
  | withdrawal
  /-- To somebody else. -/
  | payment
  /-- A payment given back. -/
  | refund
  /-- A correction by hand. -/
  | adjustment
  /-- A fee. -/
  | fee
  /-- Interest. -/
  | interest
deriving DecidableEq, Repr

namespace TypeCode

/-- All types in catalog order. -/
def all : List TypeCode :=
  [transfer, deposit, withdrawal, payment, refund, adjustment, fee, interest]

/-- The code of a type in its table. -/
def text : TypeCode → String
  | transfer => "TRANSFER"
  | deposit => "DEPOSIT"
  | withdrawal => "WITHDRAWAL"
  | payment => "PAYMENT"
  | refund => "REFUND"
  | adjustment => "ADJUSTMENT"
  | fee => "FEE"
  | interest => "INTEREST"

/-- What a type means. -/
def description : TypeCode → String
  | transfer => "Transfer between accounts"
  | deposit => "Deposit into account"
  | withdrawal => "Withdrawal from account"
  | payment => "Payment to a third party"
  | refund => "Refund of a previous payment"
  | adjustment => "Manual balance adjustment"
  | fee => "Fee charged to account"
  | interest => "Interest credited to account"

/-- The type with a code. -/
def ofText? (code : String) : Option TypeCode := all.find? (·.text == code)

end TypeCode

/-- The description a type gets when its row is written. -/
def typeDescription (code : String) : String :=
  match TypeCode.ofText? code with
  | some t => t.description
  | none => "Unknown transaction type"

/-! ## Currencies -/

/-- A currency the engine knows. -/
structure KnownCurrency where
  /-- The code. -/
  code : String
  /-- The name. -/
  name : String
  /-- The symbol. -/
  symbol : String
  /-- The rate against the dollar. -/
  rate : Binary64

namespace KnownCurrency

/-- All currencies in catalog order. -/
def all : List KnownCurrency :=
  [⟨"USD", "US Dollar", "$", .one⟩,
   ⟨"EUR", "Euro", "€", .ofScaled false 108 (-2)⟩,
   ⟨"GBP", "British Pound", "£", .ofScaled false 126 (-2)⟩,
   ⟨"JPY", "Japanese Yen", "¥", .ofScaled false 67 (-4)⟩]

/-- The currency with a code. -/
def ofCode? (code : String) : Option KnownCurrency := all.find? (·.code == code)

end KnownCurrency

/-- What the row of a currency is written from when its code is first used.  An unknown code gets a
placeholder name and the rate one. -/
def newCurrency (code : String) : Except MoneyError NewCurrency :=
  match KnownCurrency.ofCode? code with
  | some known => (exchangeRate known.rate).map fun rate =>
      { code, name := known.name, symbol := some known.symbol, exchangeRate := rate }
  | none => (exchangeRate .one).map fun rate =>
      { code, name := "Unknown Currency", symbol := none, exchangeRate := rate }

end FundsTransfer
