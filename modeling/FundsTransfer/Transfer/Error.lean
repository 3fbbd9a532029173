import FundsTransfer.Money.Error
import FundsTransfer.Store.Error
import FundsTransfer.Text.Quoted
import FundsTransfer.Time.Duration

/-!
# Transfer errors

One type of error serves the whole engine.  A storage error carries the step that met
it, so a failed debit entry can be told from a failed balance update, and an error of a
unit of work whose rollback failed as well carries both.

`code` is the word that programs act on, `httpStatus` the status a web service would
answer with, and `isRetryable` says whether the transfer may be tried again as a whole.
The root of a failure, which `storeError?` finds, is not changed by a failed rollback.
-/

namespace FundsTransfer

/-- The reference tables. -/
inductive ReferenceTable where
  /-- The statuses of transactions. -/
  | status
  /-- The types of transactions. -/
  | type
  /-- The currencies of accounts. -/
  | currency
deriving DecidableEq, Repr

/-- A table as error texts and log lines name it. -/
def ReferenceTable.label : ReferenceTable → String
  | .status => "transaction status"
  | .type => "transaction type"
  | .currency => "currency"

/-- A step of a transfer that writes or reads the ledger. -/
inductive TransferStep where
  /-- The transaction row is written. -/
  | createTransaction
  /-- The sender's entry is written. -/
  | debitEntry
  /-- The receiver's entry is written. -/
  | creditEntry
  /-- A balance is changed. -/
  | updateBalance (account : Int)
  /-- The transaction is completed. -/
  | updateStatus
  /-- A transaction is read back with its entries. -/
  | readLedger
deriving DecidableEq, Repr

/-- A step as an error text names it. -/
def TransferStep.label : TransferStep → String
  | .createTransaction => "create transfer transaction"
  | .debitEntry => "create debit entry"
  | .creditEntry => "create credit entry"
  | .updateBalance account => "update balance of account " ++ Text.intText account
  | .updateStatus => "update transaction status"
  | .readLedger => "read ledger"

/-- Whether a missing row at a step means that an account is missing or closed. -/
def TransferStep.namesAccount : TransferStep → Bool
  | .createTransaction | .debitEntry | .creditEntry | .updateBalance _ => true
  | .updateStatus | .readLedger => false

/-- Why a request to the engine failed. -/
inductive TransferError where
  /-- The amount is not above zero. -/
  | invalidAmount
  /-- Sender and receiver are one account. -/
  | sameAccount
  /-- The currency code is empty, too long, or not alphanumeric. -/
  | invalidCurrencyCode (code : String)
  /-- The exchange rate cannot be stored. -/
  | invalidExchangeRate (error : MoneyError)
  /-- A reference table was asked for the empty code. -/
  | emptyReferenceCode
  /-- The reference number is blank. -/
  | emptyReferenceNumber
  /-- A reference table could not be read or written. -/
  | referenceData (table : ReferenceTable) (code : String) (error : StoreError)
  /-- A row that exists could not be read back. -/
  | referenceVanished (table : ReferenceTable) (code : String)
  /-- A step failed in the store. -/
  | storage (step : TransferStep) (error : StoreError)
  /-- No unit of work could be opened. -/
  | begin (error : StoreError)
  /-- The unit of work could not be committed. -/
  | commit (error : StoreError)
  /-- The unit of work failed, and so did taking it back. -/
  | rollbackFailed (cause : TransferError) (rollback : StoreError)
  /-- The unit of work took longer than its limit. -/
  | timedOut (limit : Duration)
  /-- There is no transaction with the number. -/
  | transactionNotFound (transaction : Int)
  /-- The entries of a transaction do not match it. -/
  | ledgerImbalance (transaction : Int) (entrySum : Decimal) (reason : String)
deriving DecidableEq

namespace TransferError

/-- What people are told. -/
def message : TransferError → String
  | .invalidAmount => "Amount must be greater than zero"
  | .sameAccount => "Source and target account cannot be the same"
  | .invalidCurrencyCode code => "Invalid currency code: " ++ Text.quoted code
  | .invalidExchangeRate e => "Invalid exchange rate: " ++ e.message
  | .emptyReferenceCode => "Reference code must not be empty"
  | .emptyReferenceNumber => "Reference number must not be empty"
  | .referenceData table code e =>
    "Failed to resolve " ++ table.label ++ " " ++ code ++ ": " ++ e.message
  | .referenceVanished table code =>
    table.label ++ " " ++ code ++ " reported as existing but could not be read back"
  | .storage step e => "Failed to " ++ step.label ++ ": " ++ e.message
  | .begin e => "Failed to begin unit of work: " ++ e.message
  | .commit e => "Failed to commit unit of work: " ++ e.message
  | .rollbackFailed cause rollback =>
    cause.message ++ "; rollback also failed: " ++ rollback.message
  | .timedOut limit => "Unit of work exceeded " ++ limit.toText ++ " and was aborted"
  | .transactionNotFound id => "Transaction not found: " ++ Text.intText id
  | .ledgerImbalance id _ reason =>
    "Ledger imbalance on transaction " ++ Text.intText id ++ ": " ++ reason

/-- The storage error at the root of a failure. -/
def storeError? : TransferError → Option StoreError
  | .referenceData _ _ e => some e
  | .storage _ e => some e
  | .begin e => some e
  | .commit e => some e
  | .rollbackFailed cause _ => cause.storeError?
  | _ => none

/-- Whether the request may succeed when it is made again as a whole. -/
def isRetryable : TransferError → Bool
  | .timedOut _ => true
  | e => match e.storeError? with
    | some s => s.isRetryable
    | none => false

/-- The word for a failure that programs act on. -/
def code : TransferError → String
  | .invalidAmount => "INVALID_AMOUNT"
  | .sameAccount => "SAME_ACCOUNT"
  | .invalidCurrencyCode _ => "INVALID_CURRENCY"
  | .invalidExchangeRate _ => "INVALID_EXCHANGE_RATE"
  | .emptyReferenceCode => "INVALID_REFERENCE_CODE"
  | .emptyReferenceNumber => "INVALID_REFERENCE_NUMBER"
  | .referenceData .. => "REFERENCE_DATA_ERROR"
  | .referenceVanished .. => "REFERENCE_DATA_ERROR"
  | .storage step (.notFound _) =>
    if step.namesAccount then "ACCOUNT_NOT_FOUND" else "DATABASE_ERROR"
  | .storage _ (.uniqueViolation _) => "DUPLICATE_REFERENCE"
  | .storage .. => "DATABASE_ERROR"
  | .begin _ => "DATABASE_ERROR"
  | .commit _ => "DATABASE_ERROR"
  | .rollbackFailed .. => "ROLLBACK_FAILED"
  | .timedOut _ => "TIMEOUT"
  | .transactionNotFound _ => "TRANSACTION_NOT_FOUND"
  | .ledgerImbalance .. => "LEDGER_IMBALANCE"

/-- The status a web service would answer with. -/
def httpStatus (e : TransferError) : Nat :=
  match e with
  | .invalidAmount | .sameAccount | .invalidCurrencyCode _ | .invalidExchangeRate _
  | .emptyReferenceCode | .emptyReferenceNumber => 400
  | .storage step (.notFound _) => if step.namesAccount then 404 else 500
  | .transactionNotFound _ => 404
  | .storage _ (.uniqueViolation _) => 409
  | .timedOut _ => 504
  | e => if e.isRetryable then 409 else 500

end TransferError

end FundsTransfer
