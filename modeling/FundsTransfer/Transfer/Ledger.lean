import FundsTransfer.Decimal.Sum
import FundsTransfer.Decimal.Text
import FundsTransfer.Work.Basic

/-!
# Ledger entries and their audit

A transfer writes two entries: a debit, the negated amount on the sender, and a credit,
the amount on the receiver.  The audit reads a transaction back and checks that it has
exactly these two.  The first check that fails is the reason it gives, in the order
number of entries, sum, debit, credit.

The audit compares values and not scales, and an entry without an account matches a
transaction without one.
-/

namespace FundsTransfer

/-- A transaction that passed its audit, with its entries. -/
structure LedgerAudit where
  /-- The transaction. -/
  transaction : Transaction
  /-- Its entries, oldest first. -/
  entries : List Entry
  /-- Their sum. -/
  entrySum : Decimal
deriving DecidableEq, Inhabited

/-- The event of an entry written. -/
def entryEvent (message : String) (transaction account : Int) (entry : Entry) : Log.Event :=
  ⟨.debug, .ledger, message,
    [("transaction_id", .integer transaction), ("account_id", .integer account),
     ("amount", .plain entry.amount.toText)]⟩

/-- Writes the debit and then the credit of a transfer. -/
def writeEntries (transaction sender receiver : Int) (amount : Decimal) :
    Work (Entry × Entry) := do
  let debit ← Work.require (.createEntry ⟨sender, transaction, amount.negate⟩)
    (.storage .debitEntry)
  Work.emit (entryEvent "Debit entry written" transaction sender debit)
  let credit ← Work.require (.createEntry ⟨receiver, transaction, amount⟩)
    (.storage .creditEntry)
  Work.emit (entryEvent "Credit entry written" transaction receiver credit)
  pure (debit, credit)

/-- Whether one of the entries moves an amount on an account. -/
def hasEntry (entries : List Entry) (account : Option Int) (amount : Decimal) : Bool :=
  entries.any fun e => e.account == account && e.amount.sameValue amount

/-- The sum of the entries of a transaction, if they are one debit and one credit of its amount. -/
def auditEntries (t : Transaction) (entries : List Entry) : Outcome Decimal :=
  match Decimal.sum? (entries.map Entry.amount) with
  | none => .overflow
  | some sum =>
    let amount := t.amount.toText
    if entries.length ≠ 2 then
      .error (.ledgerImbalance t.id sum
        ("expected 2 entries, found " ++ toString entries.length))
    else if !sum.isZero then
      .error (.ledgerImbalance t.id sum ("entries sum to " ++ sum.toText))
    else if !hasEntry entries t.sender t.amount.negate then
      .error (.ledgerImbalance t.id sum
        ("no debit of " ++ amount ++ " on the sending account"))
    else if !hasEntry entries t.receiver t.amount then
      .error (.ledgerImbalance t.id sum
        ("no credit of " ++ amount ++ " on the receiving account"))
    else .ok sum

/-- Reads a transaction with its entries and audits them. -/
def readLedger (transaction : Int) : Work LedgerAudit := do
  let found ← Work.require (.transaction transaction) (.storage .readLedger)
  match found with
  | none => .fail (.transactionNotFound transaction)
  | some t =>
    let entries ← Work.require (.entries transaction) (.storage .readLedger)
    let entrySum ← Work.ofOutcome (auditEntries t entries)
    pure ⟨t, entries, entrySum⟩

end FundsTransfer
