import FundsTransfer.Decimal.Text
import FundsTransfer.Json.Value
import FundsTransfer.Time.Text
import FundsTransfer.Transfer.Coordinator

/-!
# Rows in JSON

A row is an object with one member per column, in the order of the columns.  Decimals
and timestamps are texts, so no digit is lost to a reader that takes numbers for
floating point, and an absent value is `null`.
-/

namespace FundsTransfer

/-- A decimal in JSON. -/
def Decimal.toJson (d : Decimal) : Json := .string d.toText

/-- A timestamp in JSON. -/
def Timestamp.toJson (t : Timestamp) : Json := .string t.toText

namespace Json

/-- A value that may be absent. -/
def ofOption {α : Type} (f : α → Json) : Option α → Json
  | some a => f a
  | none => null

/-- A list of values. -/
def ofList {α : Type} (f : α → Json) (items : List α) : Json := array (items.map f)

end Json

/-- An account in JSON. -/
def Account.toJson (a : Account) : Json := .object
  [("account_id", .integer a.id),
   ("user_id", .integer a.user),
   ("account_number", .string a.number),
   ("account_type", .string a.type),
   ("currency_code", .string a.currency),
   ("balance", a.balance.toJson),
   ("interest_rate", a.interestRate.toJson),
   ("overdraft_limit", a.overdraftLimit.toJson),
   ("is_active", .bool a.isActive),
   ("created_at", a.createdAt.toJson),
   ("updated_at", a.updatedAt.toJson)]

/-- An entry in JSON. -/
def Entry.toJson (e : Entry) : Json := .object
  [("entry_id", .integer e.id),
   ("account_id", .ofOption .integer e.account),
   ("transaction_id", .ofOption .integer e.transaction),
   ("amount", e.amount.toJson),
   ("created_at", e.createdAt.toJson)]

/-- A transaction in JSON. -/
def Transaction.toJson (t : Transaction) : Json := .object
  [("transaction_id", .integer t.id),
   ("from_account_id", .ofOption .integer t.sender),
   ("to_account_id", .ofOption .integer t.receiver),
   ("type_code", .string t.type),
   ("amount", t.amount.toJson),
   ("currency_code", .string t.currency),
   ("exchange_rate", t.exchangeRate.toJson),
   ("status_code", .string t.status),
   ("description", .ofOption .string t.description),
   ("reference_number", .ofOption .string t.reference),
   ("transaction_date", t.date.toJson),
   ("created_at", t.createdAt.toJson),
   ("updated_at", t.updatedAt.toJson)]

/-- A status in JSON. -/
def TransactionStatus.toJson (s : TransactionStatus) : Json := .object
  [("status_code", .string s.code),
   ("description", .string s.description),
   ("is_active", .bool s.isActive)]

/-- A type in JSON. -/
def TransactionType.toJson (t : TransactionType) : Json := .object
  [("type_code", .string t.code),
   ("description", .string t.description),
   ("is_active", .bool t.isActive)]

/-- A currency in JSON. -/
def Currency.toJson (c : Currency) : Json := .object
  [("currency_code", .string c.code),
   ("currency_name", .string c.name),
   ("symbol", .ofOption .string c.symbol),
   ("is_active", .bool c.isActive),
   ("exchange_rate", c.exchangeRate.toJson),
   ("last_updated_at", c.updatedAt.toJson)]

/-- The result of a transfer in JSON. -/
def TransferResult.toJson (r : TransferResult) : Json := .object
  [("transaction", r.transaction.toJson),
   ("from_entry", r.fromEntry.toJson),
   ("to_entry", r.toEntry.toJson),
   ("from_account", r.fromAccount.toJson),
   ("to_account", r.toAccount.toJson),
   ("status", r.status.toJson),
   ("transaction_type", r.transactionType.toJson),
   ("currency", r.currency.toJson)]

/-- An audited transaction in JSON. -/
def LedgerAudit.toJson (a : LedgerAudit) : Json := .object
  [("transaction", a.transaction.toJson),
   ("entries", .ofList Entry.toJson a.entries),
   ("entry_sum", a.entrySum.toJson)]

end FundsTransfer
