import FundsTransfer.Cli.Arguments
import FundsTransfer.Config

/-!
# Why the program fails

A failure is a message with the chain of its causes.  The report names the message
first.  A single cause follows on a line of its own; several are numbered.  Further
lines of a message are indented like its first.
-/

namespace FundsTransfer

/-! ## Causes -/

/-- The causes of a complaint of a database, nearest first. -/
def DatabaseError.causes (e : DatabaseError) : List String := e.cause?.toList

/-- The causes of a refusal of a store, nearest first. -/
def StoreError.causes : StoreError → List String
  | .database e => e.message :: e.causes
  | _ => []

/-- The causes of an error of the engine, nearest first.  When taking a unit of work back failed,
the message names both sides, and neither is the cause. -/
def TransferError.causes : TransferError → List String
  | .invalidExchangeRate e => [e.message]
  | .referenceData _ _ e => e.message :: e.causes
  | .storage _ e => e.message :: e.causes
  | .begin e => e.message :: e.causes
  | .commit e => e.message :: e.causes
  | _ => []

namespace Cli

/-- Why the program fails. -/
structure Failure where
  /-- What went wrong. -/
  message : String
  /-- Why, nearest cause first. -/
  causes : List String
deriving DecidableEq, Repr

namespace Failure

/-- A failure of the configuration. -/
def ofConfig (e : Config.LoadError) : Failure := ⟨e.message, [e.cause]⟩

/-- A failure of the arguments. -/
def ofUsage (e : UsageError) : Failure := ⟨e.message, e.causes⟩

/-- A failure of the engine. -/
def ofTransfer (e : TransferError) : Failure := ⟨e.message, e.causes⟩

/-- A failure of the database during some doing. -/
def ofDatabase (doing : String) (e : DatabaseError) : Failure := ⟨doing, e.message :: e.causes⟩

/-- A failure to set the schema up. -/
def ofMigration (e : DatabaseError) : Failure :=
  ⟨"Migration failed", Database.Client.migrationMessage e :: e.message :: e.causes⟩

/-- The lines of a text with something in front of the first and as many blanks in front of the
others. -/
def indent (front s : String) : List String :=
  match s.splitOn "\n" with
  | [] => [front]
  | line :: rest =>
    (front ++ line) :: rest.map (String.ofList (List.replicate front.length ' ') ++ ·)

/-- The lines about causes with numbers. -/
def numbered (n : Nat) : List String → List String
  | [] => []
  | c :: rest => indent (Text.alignRight 5 (toString n) ++ ": ") c ++ numbered (n + 1) rest

/-- The lines about causes. -/
def causeLines : List String → List String
  | [] => []
  | [c] => "" :: "Caused by:" :: indent "    " c
  | cs => "" :: "Caused by:" :: numbered 0 cs

/-- The report of a failure. -/
def report (f : Failure) : List String :=
  ("Error: " ++ f.message).splitOn "\n" ++ causeLines f.causes

end Failure

end Cli

end FundsTransfer
