import FundsTransfer.Json.Decoder
import FundsTransfer.Transfer.Coordinator

/-!
# Reading rows and requests from JSON

The fields of each row, in the order in which the row is written, and those of a request
for a transfer.  A request may leave out the rate, which is then one, the reference
number and the description.
-/

namespace FundsTransfer

open Json Json.ObjectShape Json.Decoder

/-- The fields of an account. -/
def Account.shape : ObjectShape Account :=
  Account.mk <$> required "account_id" int64 <*> required "user_id" int64
    <*> required "account_number" string <*> required "account_type" string
    <*> required "currency_code" string <*> required "balance" decimal
    <*> required "interest_rate" decimal <*> required "overdraft_limit" decimal
    <*> required "is_active" bool <*> required "created_at" timestamp
    <*> required "updated_at" timestamp

/-- The fields of an entry. -/
def Entry.shape : ObjectShape Entry :=
  Entry.mk <$> required "entry_id" int64 <*> ObjectShape.optional "account_id" int64
    <*> ObjectShape.optional "transaction_id" int64 <*> required "amount" decimal
    <*> required "created_at" timestamp

/-- The fields of a transaction. -/
def Transaction.shape : ObjectShape Transaction :=
  Transaction.mk <$> required "transaction_id" int64
    <*> ObjectShape.optional "from_account_id" int64
    <*> ObjectShape.optional "to_account_id" int64 <*> required "type_code" string
    <*> required "amount" decimal <*> required "currency_code" string
    <*> required "exchange_rate" decimal <*> required "status_code" string
    <*> ObjectShape.optional "description" string <*> ObjectShape.optional "reference_number" string
    <*> required "transaction_date" timestamp <*> required "created_at" timestamp
    <*> required "updated_at" timestamp

/-- The fields of a status. -/
def TransactionStatus.shape : ObjectShape TransactionStatus :=
  TransactionStatus.mk <$> required "status_code" string <*> required "description" string
    <*> required "is_active" bool

/-- The fields of a type. -/
def TransactionType.shape : ObjectShape TransactionType :=
  TransactionType.mk <$> required "type_code" string <*> required "description" string
    <*> required "is_active" bool

/-- The fields of a currency. -/
def Currency.shape : ObjectShape Currency :=
  Currency.mk <$> required "currency_code" string <*> required "currency_name" string
    <*> ObjectShape.optional "symbol" string <*> required "is_active" bool
    <*> required "exchange_rate" decimal <*> required "last_updated_at" timestamp

/-- The fields of the result of a transfer. -/
def TransferResult.shape : ObjectShape TransferResult :=
  TransferResult.mk <$> required "transaction" Transaction.shape.decoder
    <*> required "from_entry" Entry.shape.decoder <*> required "to_entry" Entry.shape.decoder
    <*> required "from_account" Account.shape.decoder
    <*> required "to_account" Account.shape.decoder
    <*> required "status" TransactionStatus.shape.decoder
    <*> required "transaction_type" TransactionType.shape.decoder
    <*> required "currency" Currency.shape.decoder

/-- The fields of an audited transaction. -/
def LedgerAudit.shape : ObjectShape LedgerAudit :=
  LedgerAudit.mk <$> required "transaction" Transaction.shape.decoder
    <*> required "entries" (list Entry.shape.decoder) <*> required "entry_sum" decimal

/-- The fields of a request for a transfer. -/
def TransferParams.shape : ObjectShape TransferParams :=
  TransferParams.mk <$> required "sender_account_id" int64
    <*> required "receiver_account_id" int64 <*> required "amount" decimal
    <*> required "currency_code" string <*> withDefault "exchange_rate" float .one
    <*> withDefault "reference_number" (Decoder.optional string) none
    <*> withDefault "description" (Decoder.optional string) none

end FundsTransfer
