import FundsTransfer.Work.Basic

/-!
# Jobs and the executor of units of work

A `Job` is what one caller of the engine goes through: it opens a unit of work, asks
its queries, and ends it, possibly under a deadline.  Like `Work` it is a tree, and a
store, a scheduler or a proof interprets it.

`execute` is the one place where a unit of work is opened and ended.  The deadline
counts from before the opening and covers the opening and the work.  It does not cover
the end: a commit that is cut off could have happened or not.  Work that ends with a
value is committed; work that ends with an error or is cut off is rolled back, and the
error is the answer, together with the rollback's own error if there is one.  After an
overflow the unit of work is abandoned where it stands.
-/

namespace FundsTransfer

/-- A moment until which something has to be done. -/
structure Deadline where
  /-- The moment, in nanoseconds of the clock. -/
  moment : Nat
  /-- The limit that was set. -/
  limit : Duration
deriving DecidableEq, Repr

/-- How something under a deadline ended. -/
inductive Timed (α : Type) where
  /-- In time. -/
  | ended (value : α)
  /-- It was cut off at its limit. -/
  | cutOff (limit : Duration)

/-- What one caller of the engine goes through. -/
inductive Job (α : Type) where
  /-- It ends. -/
  | done (outcome : Outcome α)
  /-- It emits an event and goes on. -/
  | log (event : Log.Event) (rest : Job α)
  /-- It reads the clock, in nanoseconds. -/
  | clock (next : Nat → Job α)
  /-- It opens a unit of work. -/
  | begin (deadline : Option Deadline) (next : Timed (Except StoreError Unit) → Job α)
  /-- It asks the store inside its unit of work. -/
  | call (deadline : Option Deadline) (query : Query)
      (next : Timed (Except StoreError query.Answer) → Job α)
  /-- It waits for a number of milliseconds. -/
  | pause (deadline : Option Deadline) (milliseconds : Nat) (next : Timed Unit → Job α)
  /-- It publishes its unit of work. -/
  | commit (next : Except StoreError Unit → Job α)
  /-- It takes its unit of work back. -/
  | rollback (next : Except StoreError Unit → Job α)

namespace Job

/-- Goes on after the end of a job, unless it ended in an overflow. -/
def andThen {α β : Type} : Job α → (Except TransferError α → Job β) → Job β
  | done (.ok a), k => k (.ok a)
  | done (.error e), k => k (.error e)
  | done .overflow, _ => done .overflow
  | log event rest, k => log event (rest.andThen k)
  | clock next, k => clock fun now => (next now).andThen k
  | begin deadline next, k => begin deadline fun r => (next r).andThen k
  | call deadline q next, k => call deadline q fun r => (next r).andThen k
  | pause deadline ms next, k => pause deadline ms fun r => (next r).andThen k
  | commit next, k => commit fun r => (next r).andThen k
  | rollback next, k => rollback fun r => (next r).andThen k

/-- Work under a deadline inside the unit of work that is open, and what follows its end. -/
def within {α β : Type} (deadline : Option Deadline) :
    Work α → (Except TransferError α → Job β) → Job β
  | .done a, k => k (.ok a)
  | .fail e, k => k (.error e)
  | .overflow, _ => done .overflow
  | .log event rest, k => log event (within deadline rest k)
  | .pause ms rest, k => pause deadline ms fun
    | .ended () => within deadline rest k
    | .cutOff limit => k (.error (.timedOut limit))
  | .call q next, k => call deadline q fun
    | .ended r => within deadline (next r) k
    | .cutOff limit => k (.error (.timedOut limit))

/-- A job that ends as its last step did. -/
def conclude {α : Type} : Except TransferError α → Job α
  | .ok a => done (.ok a)
  | .error e => done (.error e)

/-- Work inside a unit of work that is open already and stays open. -/
def ofWork {α : Type} (work : Work α) : Job α := within none work conclude

/-- The event of a unit of work that could not be opened in time. -/
def noUnitEvent (limit : Duration) : Log.Event :=
  ⟨.warn, .executor, "No unit of work available before deadline",
    [("timeout", .plain limit.toText)]⟩

/-- The event of a commit. -/
def committedEvent : Log.Event := ⟨.debug, .executor, "Unit of work committed", []⟩

/-- The event of a rollback. -/
def rolledBackEvent (cause : TransferError) : Log.Event :=
  ⟨.warn, .executor, "Unit of work rolled back", [("error", .plain cause.message)]⟩

/-- The event of a rollback that failed. -/
def rollbackFailedEvent (cause : TransferError) (rollback : StoreError) : Log.Event :=
  ⟨.error, .executor, "Rollback failed",
    [("error", .plain cause.message), ("rollback_error", .plain rollback.message)]⟩

/-- Ends a unit of work: a value is committed, an error rolled back. -/
def settle {α : Type} : Except TransferError α → Job α
  | .ok a => commit fun
    | .ok () => log committedEvent (done (.ok a))
    | .error e => done (.error (.commit e))
  | .error cause => rollback fun
    | .ok () => log (rolledBackEvent cause) (done (.error cause))
    | .error e => log (rollbackFailedEvent cause e) (done (.error (.rollbackFailed cause e)))

/-- Work inside a new unit of work, with an optional limit on its time. -/
def execute {α : Type} (limit : Option Duration) (work : Work α) : Job α :=
  clock fun now =>
    let deadline := limit.map fun l => ⟨now + l.nanoseconds, l⟩
    begin deadline fun
      | .ended (.ok ()) => within deadline work settle
      | .ended (.error e) => done (.error (.begin e))
      | .cutOff l => log (noUnitEvent l) (done (.error (.timedOut l)))

end Job

end FundsTransfer
