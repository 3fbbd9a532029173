/-!
# Log events

What the engine has to say while it works.  An event has a level, the part of the
program it comes from, a fixed message, and named values.  Whether and how an event is
written is decided elsewhere: a job only emits it.
-/

namespace FundsTransfer.Log

/-- How important an event is. -/
inductive Level where
  /-- Something is broken. -/
  | error
  /-- Something went wrong and was handled. -/
  | warn
  /-- Something worth knowing happened. -/
  | info
  /-- A step was taken. -/
  | debug
  /-- Everything else. -/
  | trace
deriving DecidableEq, Repr

/-- The part of the program an event comes from. -/
inductive Origin where
  /-- The command line. -/
  | program
  /-- The connection to the database. -/
  | database
  /-- The coordinator of transfers. -/
  | coordinator
  /-- The executor of units of work. -/
  | executor
  /-- The resolver of reference rows. -/
  | reference
  /-- The writer of ledger entries. -/
  | ledger
  /-- The balances. -/
  | balance
deriving DecidableEq, Repr

/-- The name of an origin in the log, which filters go by. -/
def Origin.target : Origin → String
  | .program => "transfer_engine"
  | .database => "transfer_engine::db"
  | .coordinator => "transfer_engine::transfer::coordinator"
  | .executor => "transfer_engine::transfer::executor"
  | .reference => "transfer_engine::transfer::reference"
  | .ledger => "transfer_engine::transfer::ledger"
  | .balance => "transfer_engine::transfer::balance"

/-- A value that goes with an event. -/
inductive Value where
  /-- A whole number. -/
  | integer (n : Int)
  /-- Yes or no. -/
  | flag (b : Bool)
  /-- A text shown in quotes. -/
  | quoted (s : String)
  /-- A text shown as it is. -/
  | plain (s : String)
deriving DecidableEq, Repr

/-- An event. -/
structure Event where
  /-- How important it is. -/
  level : Level
  /-- Where it comes from. -/
  origin : Origin
  /-- What happened. -/
  message : String
  /-- The values that go with it, in order. -/
  fields : List (String × Value)
deriving DecidableEq, Repr

end FundsTransfer.Log
