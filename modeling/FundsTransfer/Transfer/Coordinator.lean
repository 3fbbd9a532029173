import FundsTransfer.Transfer.Balance
import FundsTransfer.Transfer.Ledger
import FundsTransfer.Transfer.Params
import FundsTransfer.Transfer.Reference
import FundsTransfer.Work.Job

/-!
# The coordinator of transfers

A transfer is checked, and then done in one unit of work: the reference rows are
resolved, the transaction is written as pending, then its debit and its credit, then
the two balances change, lower account first, and the transaction is completed.  Any
failure takes the whole unit of work back.  So a transfer is stored fully or not at
all.  The coordinator does not retry.

The reference number of a transfer that comes without one is made up outside and passed
in, so all of this is a function of its arguments.
-/

namespace FundsTransfer

/-- Everything a committed transfer brought about. -/
structure TransferResult where
  /-- The transaction. -/
  transaction : Transaction
  /-- The debit on the sender. -/
  fromEntry : Entry
  /-- The credit on the receiver. -/
  toEntry : Entry
  /-- The sender. -/
  fromAccount : Account
  /-- The receiver. -/
  toAccount : Account
  /-- The status of the transaction. -/
  status : TransactionStatus
  /-- The type of the transaction. -/
  transactionType : TransactionType
  /-- The currency of the transaction. -/
  currency : Currency
deriving DecidableEq, Inhabited

/-- The event of a step that wrote the transaction. -/
def stepEvent (message : String) (transaction : Int) (step : TransferStep) : Log.Event :=
  ⟨.debug, .coordinator, message,
    [("transaction_id", .integer transaction), ("step", .plain step.label)]⟩

/-- The steps of a transfer inside its unit of work. -/
def runTransfer (t : ValidTransfer) (reference description : String) : Work TransferResult := do
  let refs ← transferReferences t.currency
  let pending ← Work.require
    (.createTransaction
      { sender := t.sender, receiver := t.receiver, type := refs.transferType.code,
        amount := t.amount, currency := refs.currency.code, exchangeRate := t.exchangeRate,
        status := refs.pending.code, description := some description, reference })
    (.storage .createTransaction)
  Work.emit (stepEvent "Transaction pending" pending.id .createTransaction)
  let (fromEntry, toEntry) ← writeEntries pending.id t.sender t.receiver t.amount
  let (fromAccount, toAccount) ← updateBothBalances t.sender t.receiver t.amount
  let transaction ← Work.require (.setStatus pending.id refs.completed.code)
    (.storage .updateStatus)
  Work.emit (stepEvent "Transaction completed" pending.id .updateStatus)
  pure
    { transaction, fromEntry, toEntry, fromAccount, toAccount, status := refs.completed,
      transactionType := refs.transferType, currency := refs.currency }

/-- The settings of a coordinator. -/
structure Coordinator where
  /-- The longest time a unit of work may take. -/
  timeout : Option Duration
  /-- The description of transfers that come without one. -/
  description : String
deriving DecidableEq

namespace Coordinator

/-- No limit, and the common description. -/
def default : Coordinator := ⟨none, "Fund Transfer"⟩

instance : Inhabited Coordinator := ⟨default⟩

/-- The event of a transfer begun. -/
def startedEvent (t : ValidTransfer) (reference : String) : Log.Event :=
  ⟨.debug, .coordinator, "Transfer started",
    [("from", .integer t.sender), ("to", .integer t.receiver),
     ("amount", .plain t.amount.toText), ("currency", .plain t.currency),
     ("reference", .plain reference)]⟩

/-- The event of a transfer committed. -/
def committedEvent (r : TransferResult) (reference : String) : Log.Event :=
  ⟨.info, .coordinator, "Transfer committed",
    [("transaction_id", .integer r.transaction.id), ("reference", .plain reference),
     ("from", .integer r.fromAccount.id), ("to", .integer r.toAccount.id),
     ("amount", .plain r.transaction.amount.toText)]⟩

/-- The event of a transfer that failed. -/
def abortedEvent (e : TransferError) (reference : String) : Log.Event :=
  ⟨.warn, .coordinator, "Transfer aborted",
    [("reference", .plain reference), ("code", .quoted e.code),
     ("retryable", .flag e.isRetryable), ("error", .plain e.message)]⟩

/-- The event of a ledger that passed its audit. -/
def verifiedEvent (transaction : Int) (audit : LedgerAudit) : Log.Event :=
  ⟨.debug, .coordinator, "Ledger verified",
    [("transaction_id", .integer transaction), ("entries", .integer audit.entries.length)]⟩

/-- Moves money.  `generated` is the reference number of a transfer that comes without one. -/
def transfer (c : Coordinator) (generated : String) (p : TransferParams) : Job TransferResult :=
  match p.validate with
  | .error e => .done (.error e)
  | .ok t =>
    let reference := t.reference.getD generated
    .log (startedEvent t reference)
      ((Job.execute c.timeout
        (runTransfer t reference (t.description.getD c.description))).andThen fun
          | .ok r => .log (committedEvent r reference) (.done (.ok r))
          | .error e => .log (abortedEvent e reference) (.done (.error e)))

/-- Reads a transaction back and audits it. -/
def verify (c : Coordinator) (transaction : Int) : Job LedgerAudit :=
  (Job.execute c.timeout (readLedger transaction)).andThen fun
    | .ok audit => .log (verifiedEvent transaction audit) (.done (.ok audit))
    | .error e => .done (.error e)

/-- Resolves a status in a unit of work of its own. -/
def resolveStatus (c : Coordinator) (code : String) : Job TransactionStatus :=
  Job.execute c.timeout (Reference.statuses.resolve code)

/-- Resolves a type in a unit of work of its own. -/
def resolveType (c : Coordinator) (code : String) : Job TransactionType :=
  Job.execute c.timeout (Reference.types.resolve code)

/-- Resolves a currency in a unit of work of its own. -/
def resolveCurrency (c : Coordinator) (code : String) : Job Currency :=
  Job.execute c.timeout (Reference.currencies.resolve code)

/-- Seeds the catalog in a unit of work of its own. -/
def seed (c : Coordinator) : Job SeededCatalog :=
  Job.execute c.timeout seedCatalog

end Coordinator

end FundsTransfer
