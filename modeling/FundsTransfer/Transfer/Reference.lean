import FundsTransfer.Catalog
import FundsTransfer.Work.Basic

/-!
# Reference rows

A status, a type or a currency is fetched by its code when it is needed, and written
from the catalog when it is not there.  Writing can lose against somebody else who
writes the same code at the same time.  The store then refuses the row as a duplicate
and stays usable, and the winner's row is fetched.

`resolve` does this for any of the three tables, and `transferReferences` for the four
rows that a transfer needs, always in the same order.
-/

namespace FundsTransfer

/-- A reference table as the engine uses it. -/
structure Reference (ρ : Type) where
  /-- Which table it is. -/
  table : ReferenceTable
  /-- The code of a row. -/
  codeOf : ρ → String
  /-- Reads the row with a code. -/
  fetch : String → Work (Except StoreError (Option ρ))
  /-- Writes the row for a code from the catalog. -/
  create : String → Except TransferError (Work (Except StoreError ρ))

namespace Reference

/-- The statuses. -/
def statuses : Reference TransactionStatus where
  table := .status
  codeOf := TransactionStatus.code
  fetch code := .ask (.status code)
  create code := .ok (.ask (.createStatus code (statusDescription code)))

/-- The types. -/
def types : Reference TransactionType where
  table := .type
  codeOf := TransactionType.code
  fetch code := .ask (.type code)
  create code := .ok (.ask (.createType code (typeDescription code)))

/-- The currencies. -/
def currencies : Reference Currency where
  table := .currency
  codeOf := Currency.code
  fetch code := .ask (.currency code)
  create code :=
    match newCurrency code with
    | .ok new => .ok (.ask (.createCurrency new))
    | .error e => .error (.invalidExchangeRate e)

variable {ρ : Type} (r : Reference ρ)

/-- The event of a row written. -/
def createdEvent (code : String) : Log.Event :=
  ⟨.debug, .reference, "Reference row created",
    [("table", .quoted r.table.label), ("code", .quoted code)]⟩

/-- The event of a row that somebody else wrote first. -/
def lostRaceEvent (code : String) : Log.Event :=
  ⟨.warn, .reference, "Lost reference creation race, re-fetching",
    [("table", .quoted r.table.label), ("code", .quoted code)]⟩

/-- Reads the row with a code, or stops. -/
def fetchOrFail (code : String) : Work (Option ρ) := do
  match ← r.fetch code with
  | .ok row => pure row
  | .error e => .fail (.referenceData r.table code e)

/-- Reads the row that somebody else wrote. -/
def refetch (code : String) : Work ρ := do
  match ← r.fetchOrFail code with
  | some row => pure row
  | none => .fail (.referenceVanished r.table code)

/-- Writes the row for a code, or reads it when somebody else was first. -/
def createOrRefetch (code : String) : Work ρ := do
  let create ← Work.ofExcept (r.create code)
  match ← create with
  | .ok row => .log (r.createdEvent code) (pure row)
  | .error e =>
    if e.isUniqueViolation then .log (r.lostRaceEvent code) (r.refetch code)
    else .fail (.referenceData r.table code e)

/-- The row with a code, written if it is not there. -/
def resolve (code : String) : Work ρ :=
  if code.isEmpty then .fail .emptyReferenceCode
  else do
    match ← r.fetchOrFail code with
    | some row => if r.codeOf row = code then pure row else r.createOrRefetch code
    | none => r.createOrRefetch code

end Reference

/-- The reference rows a transfer needs. -/
structure TransferReferences where
  /-- The status a transfer starts with. -/
  pending : TransactionStatus
  /-- The status a transfer ends with. -/
  completed : TransactionStatus
  /-- The type of a transfer. -/
  transferType : TransactionType
  /-- The currency of a transfer. -/
  currency : Currency
deriving DecidableEq

/-- Resolves the type, the two statuses and the currency of a transfer, in this order. -/
def transferReferences (currency : String) : Work TransferReferences := do
  let transferType ← Reference.types.resolve TypeCode.transfer.text
  let pending ← Reference.statuses.resolve StatusCode.pending.text
  let completed ← Reference.statuses.resolve StatusCode.completed.text
  let currency ← Reference.currencies.resolve currency
  pure { pending, completed, transferType, currency }

/-- The rows of the whole catalog. -/
structure SeededCatalog where
  /-- The statuses. -/
  statuses : List TransactionStatus
  /-- The types. -/
  types : List TransactionType
  /-- The currencies. -/
  currencies : List Currency
deriving DecidableEq

/-- Makes sure that every code of the catalog has a row. -/
def seedCatalog : Work SeededCatalog := do
  let statuses ← StatusCode.all.mapM (Reference.statuses.resolve ·.text)
  let types ← TypeCode.all.mapM (Reference.types.resolve ·.text)
  let currencies ← KnownCurrency.all.mapM (Reference.currencies.resolve ·.code)
  pure { statuses, types, currencies }

end FundsTransfer
