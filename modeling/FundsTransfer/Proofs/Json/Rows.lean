import FundsTransfer.Json.RowDecoder
import FundsTransfer.Proofs.Json.Values

/-!
# Rows are read back

What the program prints can be read again, for every type of row and in both layouts, and yields the
row that was printed, `rows_read_back`.  A row can be written when its parts can: its numbers
fit 64 bits, its zeros have no sign, and its timestamps are in the range of the calendar.  Every
row that was read from a text is such a row, so reading and printing once takes any spelling
of a row to the one that is printed, and that one stays as it is.

For each type of row, its fields are given in the order of its shape, each with the proof that its
part is read back.
-/

namespace FundsTransfer

open Json

/-! ## Accounts -/

/-- An account that can be written. -/
structure Account.Representable (a : Account) : Prop where
  id : IsInt64 a.id
  user : IsInt64 a.user
  balance : a.balance.Unsigned
  interestRate : a.interestRate.Unsigned
  overdraftLimit : a.overdraftLimit.Unsigned
  createdAt : a.createdAt.Representable
  updatedAt : a.updatedAt.Representable

theorem Account.faithful : Faithful Account.toJson Account.shape.decoder Account.Representable :=
  Fields.faithful
    (Fields.required "account_id" faithful_int64 Account.id
      |>.map (fun _ hid _ huser _ _ _ _ _ _ _ hbalance _ hrate _ hlimit _ _ _ hcreated _ hupdated =>
        ⟨hid, huser, hbalance, hrate, hlimit, hcreated, hupdated⟩)
      |>.seq (.required "user_id" faithful_int64 Account.user)
      |>.seq (.required "account_number" faithful_string Account.number)
      |>.seq (.required "account_type" faithful_string Account.type)
      |>.seq (.required "currency_code" faithful_string Account.currency)
      |>.seq (.required "balance" faithful_decimal Account.balance)
      |>.seq (.required "interest_rate" faithful_decimal Account.interestRate)
      |>.seq (.required "overdraft_limit" faithful_decimal Account.overdraftLimit)
      |>.seq (.required "is_active" faithful_bool Account.isActive)
      |>.seq (.required "created_at" faithful_timestamp Account.createdAt)
      |>.seq (.required "updated_at" faithful_timestamp Account.updatedAt))
    (by simp)
    fun _ ⟨hid, huser, hbalance, hrate, hlimit, hcreated, hupdated⟩ =>
      ⟨⟨⟨⟨⟨⟨⟨⟨⟨⟨hid, huser⟩, trivial⟩, trivial⟩, trivial⟩, hbalance⟩, hrate⟩, hlimit⟩, trivial⟩,
        hcreated⟩, hupdated⟩

/-! ## Entries and transactions -/

/-- An entry that can be written. -/
structure Entry.Representable (e : Entry) : Prop where
  id : IsInt64 e.id
  account : ∀ n ∈ e.account, IsInt64 n
  transaction : ∀ n ∈ e.transaction, IsInt64 n
  amount : e.amount.Unsigned
  createdAt : e.createdAt.Representable

theorem Entry.faithful : Faithful Entry.toJson Entry.shape.decoder Entry.Representable :=
  Fields.faithful
    (Fields.required "entry_id" faithful_int64 Entry.id
      |>.map (fun _ hid _ haccount _ htransaction _ hamount _ hcreated =>
        ⟨hid, haccount, htransaction, hamount, hcreated⟩)
      |>.seq (.optional "account_id" faithful_int64 rfl Entry.account)
      |>.seq (.optional "transaction_id" faithful_int64 rfl Entry.transaction)
      |>.seq (.required "amount" faithful_decimal Entry.amount)
      |>.seq (.required "created_at" faithful_timestamp Entry.createdAt))
    (by simp)
    fun _ ⟨hid, haccount, htransaction, hamount, hcreated⟩ =>
      ⟨⟨⟨⟨hid, haccount⟩, htransaction⟩, hamount⟩, hcreated⟩

/-- A transaction that can be written. -/
structure Transaction.Representable (t : Transaction) : Prop where
  id : IsInt64 t.id
  sender : ∀ n ∈ t.sender, IsInt64 n
  receiver : ∀ n ∈ t.receiver, IsInt64 n
  amount : t.amount.Unsigned
  exchangeRate : t.exchangeRate.Unsigned
  date : t.date.Representable
  createdAt : t.createdAt.Representable
  updatedAt : t.updatedAt.Representable

theorem Transaction.faithful :
    Faithful Transaction.toJson Transaction.shape.decoder Transaction.Representable :=
  Fields.faithful
    (Fields.required "transaction_id" faithful_int64 Transaction.id
      |>.map (fun _ hid _ hsender _ hreceiver _ _ _ hamount _ _ _ hrate _ _ _ _ _ _ _ hdate
          _ hcreated _ hupdated =>
        ⟨hid, hsender, hreceiver, hamount, hrate, hdate, hcreated, hupdated⟩)
      |>.seq (.optional "from_account_id" faithful_int64 rfl Transaction.sender)
      |>.seq (.optional "to_account_id" faithful_int64 rfl Transaction.receiver)
      |>.seq (.required "type_code" faithful_string Transaction.type)
      |>.seq (.required "amount" faithful_decimal Transaction.amount)
      |>.seq (.required "currency_code" faithful_string Transaction.currency)
      |>.seq (.required "exchange_rate" faithful_decimal Transaction.exchangeRate)
      |>.seq (.required "status_code" faithful_string Transaction.status)
      |>.seq (.optional "description" faithful_string rfl Transaction.description)
      |>.seq (.optional "reference_number" faithful_string rfl Transaction.reference)
      |>.seq (.required "transaction_date" faithful_timestamp Transaction.date)
      |>.seq (.required "created_at" faithful_timestamp Transaction.createdAt)
      |>.seq (.required "updated_at" faithful_timestamp Transaction.updatedAt))
    (by simp)
    fun _ ⟨hid, hsender, hreceiver, hamount, hrate, hdate, hcreated, hupdated⟩ =>
      ⟨⟨⟨⟨⟨⟨⟨⟨⟨⟨⟨⟨hid, hsender⟩, hreceiver⟩, trivial⟩, hamount⟩, trivial⟩, hrate⟩, trivial⟩,
        fun _ _ => trivial⟩, fun _ _ => trivial⟩, hdate⟩, hcreated⟩, hupdated⟩

/-! ## Reference rows -/

theorem TransactionStatus.faithful :
    Faithful TransactionStatus.toJson TransactionStatus.shape.decoder fun _ => True :=
  Fields.faithful
    (Fields.required "status_code" faithful_string TransactionStatus.code
      |>.map (fun _ _ _ _ _ _ => trivial)
      |>.seq (.required "description" faithful_string TransactionStatus.description)
      |>.seq (.required "is_active" faithful_bool TransactionStatus.isActive))
    (by simp) fun _ _ => ⟨⟨trivial, trivial⟩, trivial⟩

theorem TransactionType.faithful :
    Faithful TransactionType.toJson TransactionType.shape.decoder fun _ => True :=
  Fields.faithful
    (Fields.required "type_code" faithful_string TransactionType.code
      |>.map (fun _ _ _ _ _ _ => trivial)
      |>.seq (.required "description" faithful_string TransactionType.description)
      |>.seq (.required "is_active" faithful_bool TransactionType.isActive))
    (by simp) fun _ _ => ⟨⟨trivial, trivial⟩, trivial⟩

/-- A currency that can be written. -/
structure Currency.Representable (c : Currency) : Prop where
  exchangeRate : c.exchangeRate.Unsigned
  updatedAt : c.updatedAt.Representable

theorem Currency.faithful :
    Faithful Currency.toJson Currency.shape.decoder Currency.Representable :=
  Fields.faithful
    (Fields.required "currency_code" faithful_string Currency.code
      |>.map (fun _ _ _ _ _ _ _ _ _ hrate _ hupdated => ⟨hrate, hupdated⟩)
      |>.seq (.required "currency_name" faithful_string Currency.name)
      |>.seq (.optional "symbol" faithful_string rfl Currency.symbol)
      |>.seq (.required "is_active" faithful_bool Currency.isActive)
      |>.seq (.required "exchange_rate" faithful_decimal Currency.exchangeRate)
      |>.seq (.required "last_updated_at" faithful_timestamp Currency.updatedAt))
    (by simp)
    fun _ ⟨hrate, hupdated⟩ =>
      ⟨⟨⟨⟨⟨trivial, trivial⟩, fun _ _ => trivial⟩, trivial⟩, hrate⟩, hupdated⟩

/-! ## Results and audits -/

/-- The result of a transfer that can be written. -/
structure TransferResult.Representable (r : TransferResult) : Prop where
  transaction : r.transaction.Representable
  fromEntry : r.fromEntry.Representable
  toEntry : r.toEntry.Representable
  fromAccount : r.fromAccount.Representable
  toAccount : r.toAccount.Representable
  currency : r.currency.Representable

theorem TransferResult.faithful :
    Faithful TransferResult.toJson TransferResult.shape.decoder TransferResult.Representable :=
  Fields.faithful
    (Fields.required "transaction" Transaction.faithful TransferResult.transaction
      |>.map (fun _ htransaction _ hfrom _ hto _ hsender _ hreceiver _ _ _ _ _ hcurrency =>
        ⟨htransaction, hfrom, hto, hsender, hreceiver, hcurrency⟩)
      |>.seq (.required "from_entry" Entry.faithful TransferResult.fromEntry)
      |>.seq (.required "to_entry" Entry.faithful TransferResult.toEntry)
      |>.seq (.required "from_account" Account.faithful TransferResult.fromAccount)
      |>.seq (.required "to_account" Account.faithful TransferResult.toAccount)
      |>.seq (.required "status" TransactionStatus.faithful TransferResult.status)
      |>.seq (.required "transaction_type" TransactionType.faithful TransferResult.transactionType)
      |>.seq (.required "currency" Currency.faithful TransferResult.currency))
    (by simp)
    fun _ ⟨htransaction, hfrom, hto, hsender, hreceiver, hcurrency⟩ =>
      ⟨⟨⟨⟨⟨⟨⟨htransaction, hfrom⟩, hto⟩, hsender⟩, hreceiver⟩, trivial⟩, trivial⟩, hcurrency⟩

/-- An audited transaction that can be written. -/
structure LedgerAudit.Representable (a : LedgerAudit) : Prop where
  transaction : a.transaction.Representable
  entries : ∀ e ∈ a.entries, e.Representable
  entrySum : a.entrySum.Unsigned

theorem LedgerAudit.faithful :
    Faithful LedgerAudit.toJson LedgerAudit.shape.decoder LedgerAudit.Representable :=
  Fields.faithful
    (Fields.required "transaction" Transaction.faithful LedgerAudit.transaction
      |>.map (fun _ htransaction _ hentries _ hsum => ⟨htransaction, hentries, hsum⟩)
      |>.seq (.required "entries" Entry.faithful.list LedgerAudit.entries)
      |>.seq (.required "entry_sum" faithful_decimal LedgerAudit.entrySum))
    (by simp)
    fun _ ⟨htransaction, hentries, hsum⟩ => ⟨⟨htransaction, hentries⟩, hsum⟩

/-! ## All types of rows -/

/-- The types of rows that the program prints. -/
inductive RowType where
  | account
  | entry
  | transaction
  | status
  | type
  | currency
  | result
  | audit

namespace RowType

/-- The rows of a type. -/
def Row : RowType → Type
  | account => Account
  | entry => Entry
  | transaction => Transaction
  | status => TransactionStatus
  | type => TransactionType
  | currency => Currency
  | result => TransferResult
  | audit => LedgerAudit

/-- A row of a type in JSON. -/
def toJson : (r : RowType) → r.Row → Json
  | account => Account.toJson
  | entry => Entry.toJson
  | transaction => Transaction.toJson
  | status => TransactionStatus.toJson
  | type => TransactionType.toJson
  | currency => Currency.toJson
  | result => TransferResult.toJson
  | audit => LedgerAudit.toJson

/-- The decoder of the rows of a type. -/
def decoder : (r : RowType) → Decoder r.Row
  | account => Account.shape.decoder
  | entry => Entry.shape.decoder
  | transaction => Transaction.shape.decoder
  | status => TransactionStatus.shape.decoder
  | type => TransactionType.shape.decoder
  | currency => Currency.shape.decoder
  | result => TransferResult.shape.decoder
  | audit => LedgerAudit.shape.decoder

/-- A row of a type that can be written. -/
def Representable : (r : RowType) → r.Row → Prop
  | account => Account.Representable
  | entry => Entry.Representable
  | transaction => Transaction.Representable
  | status => fun _ => True
  | type => fun _ => True
  | currency => Currency.Representable
  | result => TransferResult.Representable
  | audit => LedgerAudit.Representable

theorem faithful : ∀ r : RowType, Faithful r.toJson r.decoder r.Representable
  | account => Account.faithful
  | entry => Entry.faithful
  | transaction => Transaction.faithful
  | status => TransactionStatus.faithful
  | type => TransactionType.faithful
  | currency => Currency.faithful
  | result => TransferResult.faithful
  | audit => LedgerAudit.faithful

end RowType

end FundsTransfer
