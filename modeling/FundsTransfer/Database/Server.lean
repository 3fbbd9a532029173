import FundsTransfer.Database.Data
import FundsTransfer.Store.Query
import FundsTransfer.Trigger

/-!
# The stand-in database

A database server inside the process, for rehearsals and for a program that has no
server to talk to.  A transaction works on a private copy of the tables, which a commit
publishes.  A statement that fails aborts its transaction: every further statement fails
until the transaction ends, and a commit then publishes nothing.

The numbers of accounts, transactions and entries come from counters that a rollback
does not turn back.  An insertion takes its number before any check.  The checks follow
the schema: a positive amount, a new reference number, and rows that exist behind every
reference, column by column.  The widths of the text columns are not checked, and a text
of any length is stored.  The server has no clock either: every column that holds a time
reads as the epoch.

Triggers disturb single statements.  A statement can fail with a given error instead of
running, return no rows and do nothing, or insert a reference row that somebody else
seems to have inserted just before.  An aborted transaction pays attention to triggers
only when it ends.
-/

namespace FundsTransfer.Database

open Data

/-- The statements that triggers wait for. -/
inductive Statement where
  /-- A request of a unit of work. -/
  | request (r : Request)
  /-- A connection. -/
  | connect
  /-- A sign of life. -/
  | health
deriving DecidableEq, Repr

/-- What a trigger does to a statement. -/
structure Effect where
  /-- The error with which it fails. -/
  failure : Option DatabaseError
  /-- Whether it returns no rows and does nothing. -/
  empty : Bool
  /-- Whether an insertion into a reference table loses a race. -/
  race : Bool
deriving DecidableEq

/-- The last numbers given out. -/
structure Counters where
  /-- The number of the last account. -/
  account : Nat
  /-- The number of the last transaction. -/
  transaction : Nat
  /-- The number of the last entry. -/
  entry : Nat
deriving DecidableEq

/-- A database server. -/
structure Server where
  /-- The tables as they were last published. -/
  published : Data
  /-- The last numbers given out. -/
  counters : Counters
  /-- The triggers that have not fired. -/
  triggers : List (Trigger Statement Effect)
  /-- Whether the schema is there. -/
  migrated : Bool

/-- A transaction that is open. -/
structure OpenTransaction where
  /-- Its copy of the tables. -/
  data : Data
  /-- Whether a statement failed. -/
  aborted : Bool

namespace Server

/-- A server without rows, and nothing that disturbs it. -/
def fresh : Server := ⟨.empty, ⟨0, 0, 0⟩, [], false⟩

instance : Inhabited Server := ⟨fresh⟩

/-- The effect that a statement sets off, if it does. -/
def takeEffect (s : Server) (statement : Statement) : Option Effect × Server :=
  let (effect, triggers) := Trigger.take statement s.triggers
  (effect, { s with triggers })

/-- The effect that a statement sets off, and the error if it makes the statement fail. -/
def attempt (s : Server) (statement : Statement) : Except DatabaseError (Option Effect) × Server :=
  let (effect, s) := s.takeEffect statement
  match effect.bind (·.failure) with
  | some e => (.error e, s)
  | none => (.ok effect, s)

/-- Opens an account, outside any transaction. -/
def openAccount (s : Server) (user : Int) (currency : String) (balance : Decimal) :
    Nat × Server :=
  let id := s.counters.account + 1
  let account := Account.checking id user currency balance .epoch
  (id, { s with
    counters := { s.counters with account := id }
    published := { s.published with accounts := insert s.published.accounts account } })

/-- Closes an account, outside any transaction. -/
def deactivate (s : Server) (id : Int) : Server :=
  let accounts := s.published.accounts.map fun rows =>
    rows.map fun a => if a.id = id then { a with isActive := false } else a
  { s with published := { s.published with accounts } }

/-- Begins a transaction. -/
def begin (s : Server) : Except DatabaseError OpenTransaction × Server :=
  match s.attempt (.request .begin) with
  | (.ok _, s) => (.ok ⟨s.published, false⟩, s)
  | (.error e, s) => (.error e, s)

/-- Ends a transaction and publishes it, unless a statement failed in it. -/
def commit (s : Server) (t : OpenTransaction) : Except DatabaseError Unit × Server :=
  match s.attempt (.request .commit) with
  | (.ok _, s) => (.ok (), if t.aborted then s else { s with published := t.data })
  | (.error e, s) => (.error e, s)

/-- Ends a transaction and discards it. -/
def rollback (s : Server) : Except DatabaseError Unit × Server :=
  match s.attempt (.request .rollback) with
  | (.ok _, s) => (.ok (), s)
  | (.error e, s) => (.error e, s)

/-- Gives a sign of life. -/
def health (s : Server) : Except DatabaseError Unit × Server :=
  match s.attempt .health with
  | (.ok _, s) => (.ok (), s)
  | (.error e, s) => (.error e, s)

/-- Lets a client in. -/
def connect (s : Server) : Except DatabaseError Unit × Server :=
  match s.attempt .connect with
  | (.ok _, s) => (.ok (), s)
  | (.error e, s) => (.error e, s)

/-- Sets the schema up in a transaction of its own, the first time. -/
def migrate (s : Server) : Except DatabaseError Unit × Server :=
  if s.migrated then (.ok (), s)
  else
    match s.begin with
    | (.error e, s) => (.error e, s)
    | (.ok t, s) =>
      match s.commit t with
      | (.ok (), s) => (.ok (), { s with migrated := true })
      | (.error e, s) => (.error e, s)

end Server

/-! ## Statements -/

/-- The error of every statement in an aborted transaction. -/
def abortedError : DatabaseError :=
  .reported (some "25P02")
    "current transaction is aborted, commands ignored until end of transaction block" none

/-- The error of a row that breaks a check. -/
def checkError (table constraint : String) : DatabaseError :=
  .reported (some "23514")
    ("new row for relation \"" ++ table ++ "\" violates check constraint \"" ++ constraint ++ "\"")
    (some constraint)

/-- The error of a key that exists. -/
def uniqueError (constraint : String) : DatabaseError :=
  .reported (some "23505")
    ("duplicate key value violates unique constraint \"" ++ constraint ++ "\"") (some constraint)

/-- The error of a column that refers to a row that is not there. -/
def foreignKeyError (table column : String) : DatabaseError :=
  let constraint := table ++ "_" ++ column ++ "_fkey"
  .reported (some "23503")
    ("insert or update on table \"" ++ table ++ "\" violates foreign key constraint \"" ++
      constraint ++ "\"")
    (some constraint)

/-- The error of a number that a column cannot hold. -/
def overflowError : DatabaseError :=
  .reported (some "22003") "numeric field overflow" none

namespace Data

/-- Whether there is an account with a number. -/
def hasAccount (d : Data) (id : Option Int) : Bool :=
  match id with
  | none => true
  | some id => (rowsOf d.accounts).any (·.id == id)

/-- Whether there is a transaction with a number. -/
def hasTransaction (d : Data) (id : Int) : Bool := (rowsOf d.transactions).any (·.id == id)

/-- The first column of a transaction that refers to a row that is not there. -/
def danglingColumn? (d : Data) (t : Transaction) : Option String :=
  if !d.hasAccount t.sender then some "from_account_id"
  else if !d.hasAccount t.receiver then some "to_account_id"
  else if !(rowsOf d.types).any (·.code == t.type) then some "type_code"
  else if !(rowsOf d.currencies).any (·.code == t.currency) then some "currency_code"
  else if !(rowsOf d.statuses).any (·.code == t.status) then some "status_code"
  else none

/-- What a transaction row breaks, if anything: a check, the reference number, or a column that
refers to a row.  How long its texts are is not looked at. -/
def transactionFault? (d : Data) (t : Transaction) : Option DatabaseError :=
  if !t.amount.isPositive then some (checkError "transactions" "transactions_amount_check")
  else if (rowsOf d.transactions).any (·.reference == t.reference) then
    some (uniqueError "transactions_reference_number_key")
  else (d.danglingColumn? t).map (foreignKeyError "transactions")

end Data

/-! ## Running a statement -/

/-- What a statement brings: its error, or the rows it returns and the tables after it. -/
abbrev Reply (ρ : Type) := Except DatabaseError (List ρ × Data)

/-- The rows that the statement of a query returns. -/
@[reducible] def Returned : Query → Type
  | .account _ => Account
  | .addBalance .. => Account
  | .createTransaction _ => Transaction
  | .transaction _ => Transaction
  | .setStatus .. => Transaction
  | .createEntry _ => Entry
  | .entries _ => Entry
  | .status _ => TransactionStatus
  | .createStatus .. => TransactionStatus
  | .type _ => TransactionType
  | .createType .. => TransactionType
  | .currency _ => Currency
  | .createCurrency _ => Currency

/-- Adds to the balance of an open account. -/
def runAddBalance (d : Data) (id : Int) (delta : Decimal) : Reply Account :=
  match (rowsOf d.accounts).find? fun a => a.id == id && a.isActive with
  | none => .ok ([], { d with accounts := mention d.accounts })
  | some a =>
    match exactSum? a.balance (crossing delta) with
    | none => .error overflowError
    | some balance =>
      let a := { a with balance }
      .ok ([readAccount a],
        { d with accounts := update d.accounts (·.id == id) fun _ => a })

/-- Inserts a transaction under a number.  Its date is the epoch, like every clock column. -/
def runCreateTransaction (d : Data) (id : Nat) (new : NewTransaction) : Reply Transaction :=
  let row : Transaction :=
    { id := id, sender := some new.sender, receiver := some new.receiver, type := new.type,
      amount := crossing new.amount, currency := new.currency,
      exchangeRate := crossing new.exchangeRate, status := new.status,
      description := new.description, reference := some new.reference, date := .epoch,
      createdAt := .epoch, updatedAt := .epoch }
  match d.transactionFault? row with
  | some e => .error e
  | none => .ok ([readTransaction row], { d with transactions := insert d.transactions row })

/-- Changes the status of a transaction. -/
def runSetStatus (d : Data) (id : Int) (code : String) : Reply Transaction :=
  match (rowsOf d.transactions).find? (·.id == id) with
  | none => .ok ([], { d with transactions := mention d.transactions })
  | some t =>
    let t := { t with status := code }
    match d.danglingColumn? t with
    | some column => .error (foreignKeyError "transactions" column)
    | none =>
      .ok ([readTransaction t],
        { d with transactions := update d.transactions (·.id == id) fun _ => t })

/-- Inserts an entry under a number. -/
def runCreateEntry (d : Data) (id : Nat) (new : NewEntry) : Reply Entry :=
  let row : Entry :=
    { id := id, account := some new.account, transaction := some new.transaction,
      amount := crossing new.amount, createdAt := .epoch }
  if !d.hasAccount (some new.account) then .error (foreignKeyError "entries" "account_id")
  else if !d.hasTransaction new.transaction then
    .error (foreignKeyError "entries" "transaction_id")
  else .ok ([readEntry row], { d with entries := insert d.entries row })

/-- Inserts a reference row, unless its code exists.  An insertion that loses a race returns no
row, either. -/
def runCreateReference {ρ : Type} (race : Bool) (table : Option (List ρ)) (codeOf : ρ → String)
    (row : ρ) : List ρ × Option (List ρ) :=
  if (rowsOf table).any (codeOf · == codeOf row) then ([], mention table)
  else (if race then [] else [row], insert table row)

/-- Runs the statement of a query. -/
def runQuery (d : Data) (c : Counters) (race : Bool) : (q : Query) → Reply (Returned q) × Counters
  | .account id =>
    (.ok (((rowsOf d.accounts).filter (·.id == id)).map readAccount,
      { d with accounts := mention d.accounts }), c)
  | .addBalance id delta => (runAddBalance d id delta, c)
  | .createTransaction new =>
    let id := c.transaction + 1
    (runCreateTransaction d id new, { c with transaction := id })
  | .transaction id =>
    (.ok (((rowsOf d.transactions).filter (·.id == id)).map readTransaction,
      { d with transactions := mention d.transactions }), c)
  | .setStatus id code => (runSetStatus d id code, c)
  | .createEntry new =>
    let id := c.entry + 1
    (runCreateEntry d id new, { c with entry := id })
  | .entries transaction =>
    (.ok (((rowsOf d.entries).filter (·.transaction == some transaction)).map readEntry,
      { d with entries := mention d.entries }), c)
  | .status code =>
    (.ok ((rowsOf d.statuses).filter (·.code == code),
      { d with statuses := mention d.statuses }), c)
  | .createStatus code description =>
    let (rows, statuses) := runCreateReference race d.statuses (·.code) ⟨code, description, true⟩
    (.ok (rows, { d with statuses }), c)
  | .type code =>
    (.ok ((rowsOf d.types).filter (·.code == code), { d with types := mention d.types }), c)
  | .createType code description =>
    let (rows, types) := runCreateReference race d.types (·.code) ⟨code, description, true⟩
    (.ok (rows, { d with types }), c)
  | .currency code =>
    (.ok (((rowsOf d.currencies).filter (·.code == code)).map readCurrency,
      { d with currencies := mention d.currencies }), c)
  | .createCurrency new =>
    let (rows, currencies) := runCreateReference race d.currencies (·.code)
      ⟨new.code, new.name, new.symbol, true, crossing new.exchangeRate, .epoch⟩
    (.ok (rows, { d with currencies }), c)

namespace Server

/-- Runs the statement of a query in a transaction: the rows it returns or its error, and the
transaction after it. -/
def run (s : Server) (t : OpenTransaction) (q : Query) :
    Except DatabaseError (List (Returned q)) × OpenTransaction × Server :=
  if t.aborted then (.error abortedError, t, s)
  else
    match s.attempt (.request q.request) with
    | (.error e, s) => (.error e, { t with aborted := true }, s)
    | (.ok effect, s) =>
      if effect.any (·.empty) then (.ok [], t, s)
      else
        match runQuery t.data s.counters (effect.any (·.race)) q with
        | (.ok (rows, data), counters) => (.ok rows, { t with data }, { s with counters })
        | (.error e, counters) => (.error e, { t with aborted := true }, { s with counters })

end Server

end FundsTransfer.Database
