import FundsTransfer.Row
import FundsTransfer.Store.Error

/-!
# Queries

The engine talks to its store in thirteen queries and no others.  `Query.Answer` is what
a query brings when the store does not refuse it.  A keyed read of a missing row is an
answer and no refusal, so it brings an option.

A query runs inside a unit of work.  Nothing of it shows outside before the commit.
-/

namespace FundsTransfer

/-- A request to the store inside a unit of work. -/
inductive Query where
  /-- Reads an account. -/
  | account (id : Int)
  /-- Adds to the balance of an open account and reads it back. -/
  | addBalance (id : Int) (delta : Decimal)
  /-- Writes a transaction. -/
  | createTransaction (new : NewTransaction)
  /-- Reads a transaction. -/
  | transaction (id : Int)
  /-- Changes the status of a transaction and reads it back. -/
  | setStatus (id : Int) (code : String)
  /-- Writes an entry. -/
  | createEntry (new : NewEntry)
  /-- Reads the entries of a transaction, oldest first. -/
  | entries (transaction : Int)
  /-- Reads a status. -/
  | status (code : String)
  /-- Writes a status, and is refused when there is one with the code. -/
  | createStatus (code description : String)
  /-- Reads a type. -/
  | type (code : String)
  /-- Writes a type, and is refused when there is one with the code. -/
  | createType (code description : String)
  /-- Reads a currency. -/
  | currency (code : String)
  /-- Writes a currency, and is refused when there is one with the code. -/
  | createCurrency (new : NewCurrency)
deriving DecidableEq

namespace Query

/-- What a query brings when it is not refused. -/
@[reducible] def Answer : Query → Type
  | account _ => Option Account
  | addBalance .. => Account
  | createTransaction _ => Transaction
  | transaction _ => Option Transaction
  | setStatus .. => Transaction
  | createEntry _ => Entry
  | entries _ => List Entry
  | status _ => Option TransactionStatus
  | createStatus .. => TransactionStatus
  | type _ => Option TransactionType
  | createType .. => TransactionType
  | currency _ => Option Currency
  | createCurrency _ => Currency

end Query

/-- The kinds of request a store can be sent. -/
inductive Request where
  /-- Opens a unit of work. -/
  | begin
  /-- Publishes a unit of work. -/
  | commit
  /-- Takes a unit of work back. -/
  | rollback
  /-- Reads an account. -/
  | account
  /-- Adds to a balance. -/
  | addBalance
  /-- Writes a transaction. -/
  | createTransaction
  /-- Reads a transaction. -/
  | transaction
  /-- Changes the status of a transaction. -/
  | setStatus
  /-- Writes an entry. -/
  | createEntry
  /-- Reads entries. -/
  | entries
  /-- Reads a status. -/
  | status
  /-- Writes a status. -/
  | createStatus
  /-- Reads a type. -/
  | type
  /-- Writes a type. -/
  | createType
  /-- Reads a currency. -/
  | currency
  /-- Writes a currency. -/
  | createCurrency
deriving DecidableEq, Repr

/-- The kind of a query. -/
def Query.request : Query → Request
  | account _ => .account
  | addBalance .. => .addBalance
  | createTransaction _ => .createTransaction
  | transaction _ => .transaction
  | setStatus .. => .setStatus
  | createEntry _ => .createEntry
  | entries _ => .entries
  | status _ => .status
  | createStatus .. => .createStatus
  | type _ => .type
  | createType .. => .createType
  | currency _ => .currency
  | createCurrency _ => .createCurrency

end FundsTransfer
