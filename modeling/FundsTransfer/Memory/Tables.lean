import FundsTransfer.Memory.Table
import FundsTransfer.Row

/-!
# The tables of the store in memory

Accounts and transactions by number, entries in the order in which they were written,
and the three reference tables by code.  The numbers are counted from one.
-/

namespace FundsTransfer.Memory

/-- All rows of the store, with the last numbers given out. -/
structure Tables where
  /-- The accounts by number. -/
  accounts : Table Int Account
  /-- The transactions by number. -/
  transactions : Table Int Transaction
  /-- The entries, oldest first. -/
  entries : List Entry
  /-- The statuses by code. -/
  statuses : Table String TransactionStatus
  /-- The types by code. -/
  types : Table String TransactionType
  /-- The currencies by code. -/
  currencies : Table String Currency
  /-- The number of the last account. -/
  lastAccount : Nat
  /-- The number of the last transaction. -/
  lastTransaction : Nat
  /-- The number of the last entry. -/
  lastEntry : Nat
deriving DecidableEq

namespace Tables

/-- No rows at all. -/
def empty : Tables := ⟨.empty, .empty, [], .empty, .empty, .empty, 0, 0, 0⟩

instance : Inhabited Tables := ⟨empty⟩

/-- Opens an account with a balance, outside any unit of work. -/
def openAccount (t : Tables) (now : Timestamp) (user : Int) (currency : String)
    (balance : Decimal) : Account × Tables :=
  let id := t.lastAccount + 1
  let account := Account.checking id user currency balance now
  (account, { t with lastAccount := id, accounts := t.accounts.put id account })

/-- Closes an account, if there is one with the number. -/
def deactivate (t : Tables) (id : Int) : Tables :=
  match t.accounts.find? id with
  | some a => { t with accounts := t.accounts.put id { a with isActive := false } }
  | none => t

/-- The entries of a transaction, oldest first. -/
def entriesOf (t : Tables) (transaction : Int) : List Entry :=
  t.entries.filter fun e => e.transaction == some transaction

/-- Whether a transaction carries a reference number. -/
def hasReference (t : Tables) (reference : String) : Bool :=
  t.transactions.rows.any fun r => r.reference == some reference

/-- Writes a transaction under the next number.  Its date is the time at which it is written. -/
def insertTransaction (t : Tables) (now : Timestamp) (new : NewTransaction) :
    Transaction × Tables :=
  let id := t.lastTransaction + 1
  let row : Transaction :=
    { id := id, sender := some new.sender, receiver := some new.receiver, type := new.type,
      amount := new.amount, currency := new.currency, exchangeRate := new.exchangeRate,
      status := new.status, description := new.description, reference := some new.reference,
      date := now, createdAt := now, updatedAt := now }
  (row, { t with lastTransaction := id, transactions := t.transactions.put id row })

/-- Writes an entry under the next number. -/
def insertEntry (t : Tables) (now : Timestamp) (new : NewEntry) : Entry × Tables :=
  let id := t.lastEntry + 1
  let row : Entry :=
    { id := id, account := some new.account, transaction := some new.transaction,
      amount := new.amount, createdAt := now }
  (row, { t with lastEntry := id, entries := t.entries ++ [row] })

end Tables

end FundsTransfer.Memory
