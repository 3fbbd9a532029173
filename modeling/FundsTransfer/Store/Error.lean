/-!
# Storage errors

A store refuses a request for one of four causes: a row is missing, a row with the same
key is there already, the database complained, or the backend failed for a reason of its
own.  `StoreError.isRetryable` singles out the complaints that go away by themselves:
two concurrent transactions got in each other's way, or no connection could be had.
-/

namespace FundsTransfer

/-- A complaint of a database or of the connection to it. -/
inductive DatabaseError where
  /-- The server refused a statement. -/
  | reported (code : Option String) (message : String) (constraint : Option String)
  /-- No connection became free in time. -/
  | poolTimedOut
  /-- The pool was closed. -/
  | poolClosed
  /-- A statement that has to return a row returned none. -/
  | rowNotFound
  /-- The task that drives the connection is gone. -/
  | workerCrashed
  /-- The connection broke. -/
  | io (message : String)
  /-- The server sent something unexpected. -/
  | protocol (message : String)
  /-- A column is missing from a result. -/
  | columnNotFound (name : String)
  /-- The address of the database cannot be understood. -/
  | configuration (message : String)
  /-- Any other complaint, such as one about a secure connection, about a value that does not fit
  its column, or about a migration.  Nothing tells these apart but their text, which may quote a
  complaint beneath. -/
  | other (message : String) (cause : Option String)
deriving DecidableEq, Repr

/-- Why a store refused a request. -/
inductive StoreError where
  /-- A write addressed a row that does not exist, or an account that is closed. -/
  | notFound (what : String)
  /-- A row with the same key exists. -/
  | uniqueViolation (what : String)
  /-- The database complained. -/
  | database (error : DatabaseError)
  /-- The backend failed for a reason of its own. -/
  | backend (message : String)
deriving DecidableEq, Repr

namespace DatabaseError

/-- What people are told. -/
def message : DatabaseError → String
  | .reported _ m _ => "error returned from database: " ++ m
  | .poolTimedOut => "pool timed out while waiting for an open connection"
  | .poolClosed => "attempted to acquire a connection on a closed pool"
  | .rowNotFound => "no rows returned by a query that expected to return at least one row"
  | .workerCrashed => "attempted to communicate with a crashed background worker"
  | .io m => "error communicating with database: " ++ m
  | .protocol m => "encountered unexpected or invalid data: " ++ m
  | .columnNotFound name => "no column found for name: " ++ name
  | .configuration m => "error with configuration: " ++ m
  | .other m _ => m

/-- The complaint beneath, where the text above quotes one. -/
def cause? : DatabaseError → Option String
  | .reported _ m _ => some m
  | .io m => some m
  | .configuration m => some m
  | .other _ cause => cause
  | _ => none

/-- The code the server gave, if it was the server that complained. -/
def code? : DatabaseError → Option String
  | .reported code _ _ => code
  | _ => none

/-- The constraint the server named. -/
def constraint? : DatabaseError → Option String
  | .reported _ _ constraint => constraint
  | _ => none

/-- Whether a row with the same key exists. -/
def isUniqueViolation (e : DatabaseError) : Bool := e.code? == some "23505"

/-- Whether a row refers to one that does not exist. -/
def isForeignKeyViolation (e : DatabaseError) : Bool := e.code? == some "23503"

/-- Whether the same work may succeed when it is done again: two transactions got in each other's
way, or there was no connection. -/
def isRetryable : DatabaseError → Bool
  | .reported code _ _ => code == some "40001" || code == some "40P01"
  | .poolTimedOut => true
  | .io _ => true
  | _ => false

/-- Whether a server that lets nobody in will do so soon: it has too many connections, or it is just
starting or stopping. -/
def passesSoon (e : DatabaseError) : Bool := e.code? == some "53300" || e.code? == some "57P03"

end DatabaseError

namespace StoreError

/-- What people are told. -/
def message : StoreError → String
  | .notFound what => "Row not found: " ++ what
  | .uniqueViolation what => "Unique constraint violated: " ++ what
  | .database e => "Database error: " ++ e.message
  | .backend m => "Storage backend error: " ++ m

/-- Whether the same work may succeed when it is done again. -/
def isRetryable : StoreError → Bool
  | .database e => e.isRetryable
  | _ => false

/-- Whether a row with the same key exists. -/
def isUniqueViolation : StoreError → Bool
  | .uniqueViolation _ => true
  | .database e => e.isUniqueViolation
  | _ => false

end StoreError

end FundsTransfer
