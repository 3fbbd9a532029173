import FundsTransfer.Decimal.Basic
import FundsTransfer.Text.Digits
import FundsTransfer.Time.Timestamp

/-!
# Rows

The rows that the engine reads and writes: accounts, transactions with their ledger
entries, and the three reference tables, which hold the statuses and types a transaction
may have and the currencies.  Next to a row type stands what a caller supplies to have
such a row written.  Numbers and clock columns are filled in by the store.
-/

namespace FundsTransfer

/-- An account.  Only additions change its balance. -/
structure Account where
  /-- The number that other rows refer to. -/
  id : Int
  /-- The owner. -/
  user : Int
  /-- The number that people see. -/
  number : String
  /-- The type of account. -/
  type : String
  /-- The currency of the balance. -/
  currency : String
  /-- The balance. -/
  balance : Decimal
  /-- The interest rate. -/
  interestRate : Decimal
  /-- How far the balance may fall below zero. -/
  overdraftLimit : Decimal
  /-- Whether the account is open. -/
  isActive : Bool
  /-- When the row was written. -/
  createdAt : Timestamp
  /-- When the row was last changed. -/
  updatedAt : Timestamp
deriving DecidableEq, Inhabited

/-- One side of a movement of money.  An entry never changes. -/
structure Entry where
  /-- The number of the entry. -/
  id : Int
  /-- The account. -/
  account : Option Int
  /-- The transaction it belongs to. -/
  transaction : Option Int
  /-- The amount, negative on the sending account. -/
  amount : Decimal
  /-- When the row was written. -/
  createdAt : Timestamp
deriving DecidableEq, Inhabited

/-- What an entry is written from. -/
structure NewEntry where
  /-- The account. -/
  account : Int
  /-- The transaction it belongs to. -/
  transaction : Int
  /-- The amount, negative on the sending account. -/
  amount : Decimal
deriving DecidableEq, Inhabited

/-- A transaction. -/
structure Transaction where
  /-- The number that other rows refer to. -/
  id : Int
  /-- The sending account. -/
  sender : Option Int
  /-- The receiving account. -/
  receiver : Option Int
  /-- The code of its type. -/
  type : String
  /-- The amount moved. -/
  amount : Decimal
  /-- The code of the currency. -/
  currency : String
  /-- The exchange rate the caller gave. -/
  exchangeRate : Decimal
  /-- The code of its status. -/
  status : String
  /-- A description. -/
  description : Option String
  /-- The reference number. -/
  reference : Option String
  /-- The date of the transaction. -/
  date : Timestamp
  /-- When the row was written. -/
  createdAt : Timestamp
  /-- When the row was last changed. -/
  updatedAt : Timestamp
deriving DecidableEq, Inhabited

/-- What a transaction is written from.  Its date is not part of this.  A caller would read the
clock for it just before it asks, and nothing decides by it, so the store dates the row itself. -/
structure NewTransaction where
  /-- The sending account. -/
  sender : Int
  /-- The receiving account. -/
  receiver : Int
  /-- The code of its type. -/
  type : String
  /-- The amount to move. -/
  amount : Decimal
  /-- The code of the currency. -/
  currency : String
  /-- The exchange rate. -/
  exchangeRate : Decimal
  /-- The code of its status. -/
  status : String
  /-- A description. -/
  description : Option String
  /-- The reference number. -/
  reference : String
deriving DecidableEq, Inhabited

/-- A status that transactions may have. -/
structure TransactionStatus where
  /-- The code. -/
  code : String
  /-- What it means. -/
  description : String
  /-- Whether it is in use. -/
  isActive : Bool
deriving DecidableEq, Inhabited

/-- A type that transactions may have. -/
structure TransactionType where
  /-- The code. -/
  code : String
  /-- What it means. -/
  description : String
  /-- Whether it is in use. -/
  isActive : Bool
deriving DecidableEq, Inhabited

/-- A currency. -/
structure Currency where
  /-- The code. -/
  code : String
  /-- The name. -/
  name : String
  /-- The symbol. -/
  symbol : Option String
  /-- Whether it is in use. -/
  isActive : Bool
  /-- The rate against the main currency. -/
  exchangeRate : Decimal
  /-- When the row was last changed. -/
  updatedAt : Timestamp
deriving DecidableEq, Inhabited

/-- What a currency is written from. -/
structure NewCurrency where
  /-- The code. -/
  code : String
  /-- The name. -/
  name : String
  /-- The symbol. -/
  symbol : Option String
  /-- The rate against the main currency. -/
  exchangeRate : Decimal
deriving DecidableEq, Inhabited

/-- The number people see of the account with an id: `ACC` and the id in ten digits. -/
def accountNumber (id : Nat) : String := "ACC" ++ String.ofList (Text.padded 10 id)

/-- An open account of the common type, with no interest and no overdraft. -/
def Account.checking (id : Nat) (user : Int) (currency : String) (balance : Decimal)
    (now : Timestamp) : Account where
  id := id
  user := user
  number := accountNumber id
  type := "CHECKING"
  currency := currency
  balance := balance
  interestRate := .zero
  overdraftLimit := .zero
  isActive := true
  createdAt := now
  updatedAt := now

end FundsTransfer
