import FundsTransfer.Database.Server

/-!
# Queries on the database

The engine's view of the database.  Statements return rows; here they become answers to
queries.  A read takes the first row, if any.  A write that returns no row addressed one
that is not there, and an insertion into a reference table that returns none lost
against a row with the same code.

A transaction row that the database refuses is refused for one of two causes that a
caller can do something about: the reference number is taken, or an account does not
exist.  `insertError` tells these from the rest.
-/

namespace FundsTransfer.Database

open Text

/-- The row a write returned, or the error that names what it addressed. -/
def required {α : Type} (row : Option α) (what : String) : Except StoreError α :=
  match row with
  | some a => .ok a
  | none => .error (.notFound what)

/-- The error of a transaction row that was refused. -/
def insertError (e : DatabaseError) (new : NewTransaction) : StoreError :=
  if e.isUniqueViolation then .uniqueViolation ("reference number " ++ new.reference)
  else if e.isForeignKeyViolation then
    match e.constraint? with
    | some "transactions_from_account_id_fkey" => .notFound ("account " ++ intText new.sender)
    | some "transactions_to_account_id_fkey" => .notFound ("account " ++ intText new.receiver)
    | _ => .database e
  else .database e

/-- The first row a read returned. -/
def firstRow {α : Type} : Except DatabaseError (List α) → Except StoreError (Option α)
  | .ok rows => .ok rows.head?
  | .error e => .error (.database e)

/-- The row a write returned. -/
def writtenRow {α : Type} (what : String) : Except DatabaseError (List α) → Except StoreError α
  | .ok rows => required rows.head? what
  | .error e => .error (.database e)

/-- The row an insertion returned, or what is made of its error. -/
def insertedRow {α : Type} (asError : DatabaseError → StoreError) :
    Except DatabaseError (List α) → Except StoreError α
  | .ok (row :: _) => .ok row
  | .ok [] => .error (asError .rowNotFound)
  | .error e => .error (asError e)

/-- The row an insertion into a reference table returned. -/
def referenceRow {α : Type} (label code : String) :
    Except DatabaseError (List α) → Except StoreError α
  | .ok (row :: _) => .ok row
  | .ok [] => .error (.uniqueViolation (label ++ " " ++ code))
  | .error e => .error (.database e)

/-- The answer to a query, from the rows its statement returned. -/
def answer : (q : Query) → Except DatabaseError (List (Returned q)) → Except StoreError q.Answer
  | .account _, reply => firstRow reply
  | .addBalance id _, reply => writtenRow ("active account " ++ intText id) reply
  | .createTransaction new, reply => insertedRow (insertError · new) reply
  | .transaction _, reply => firstRow reply
  | .setStatus id _, reply => writtenRow ("transaction " ++ intText id) reply
  | .createEntry _, reply => insertedRow .database reply
  | .entries _, reply =>
    match reply with
    | .ok rows => .ok rows
    | .error e => .error (.database e)
  | .status _, reply => firstRow reply
  | .createStatus code _, reply => referenceRow "transaction status" code reply
  | .type _, reply => firstRow reply
  | .createType code _, reply => referenceRow "transaction type" code reply
  | .currency _, reply => firstRow reply
  | .createCurrency new, reply => referenceRow "currency" new.code reply

end FundsTransfer.Database
