import FundsTransfer.Rehearsal.Hook

/-!
# The world of a rehearsal

One store in memory, with its committed tables, and a clock that moves only when
somebody waits.  Units of work take turns: there is one lock, whoever opens a unit of
work holds it until the unit ends, and those who wait for it get it in the order in
which they came.  A lock that is given up is handed to the first in the queue at once.

A unit of work may also be opened by hand and stay open between calls.  It lies in the
*slot*, and holds the lock meanwhile.
-/

namespace FundsTransfer.Rehearsal

open Memory

/-- The state of a rehearsal. -/
structure World where
  /-- The committed tables. -/
  tables : Tables
  /-- The faults, races and touched balances. -/
  probes : Probes
  /-- The hooks that have not fired. -/
  hooks : List Hook
  /-- The time, in nanoseconds. -/
  now : Nat
  /-- Whether somebody holds the lock. -/
  locked : Bool
  /-- The process that was handed the lock and has not gone on yet. -/
  handed : Option Nat
  /-- The processes that wait for the lock, first come first served. -/
  queue : List Nat
  /-- The unit of work that was opened by hand. -/
  slot : Option Tables

namespace World

/-- A store without rows, and nothing that disturbs it. -/
def fresh : World := ⟨.empty, .quiet, [], 0, false, none, [], none⟩

instance : Inhabited World := ⟨fresh⟩

/-- The time in nanoseconds after a number of milliseconds from now. -/
def after (w : World) (milliseconds : Nat) : Nat := w.now + milliseconds * 1000000

/-- The hook that fires for a request, if one does. -/
def takeHook (w : World) (request : Request) : Option Disturbance × World :=
  let (fired, hooks) := Trigger.take request w.hooks
  (fired, { w with hooks })

/-- Gives the lock up, to the first that waits for it. -/
def release (w : World) : World :=
  match w.queue with
  | [] => { w with locked := false }
  | i :: rest => { w with handed := some i, queue := rest }

/-- Takes a process out of the queue, and hands the lock on if it had been handed to the process. -/
def leave (w : World) (i : Nat) : World :=
  let w := { w with queue := w.queue.filter (· != i) }
  if w.handed = some i then { w with handed := none }.release else w

/-- Counts a call at a fault point, and says whether it fails. -/
def trip (w : World) (point : FaultPoint) : Bool × World :=
  let (fails, probes) := w.probes.trip point
  (fails, { w with probes })

/-- Answers a query on the copy of a unit of work.  Columns that hold a time are written as the
epoch, so the time of the rehearsal decides on limits and waits but is not read in any row. -/
def query (w : World) (unit : Tables) (hook : Option Disturbance) (q : Query) :
    Except Refusal q.Answer × Tables × World :=
  let (answer, working) := (Disturbance.perform hook .epoch q).run ⟨unit, w.probes⟩
  (answer, working.tables, { w with probes := working.probes })

/-- Publishes a unit of work, unless a hook or a fault refuses, and ends it either way. -/
def commit (w : World) (unit : Tables) (hook : Option Disturbance) :
    Except StoreError Unit × World :=
  match hook.bind (·.error) with
  | some e => (.error e, w.release)
  | none =>
    match w.trip .commit with
    | (true, w) => (.error (injected .commit), w.release)
    | (false, w) => (.ok (), { w with tables := unit }.release)

/-- Takes a unit of work back, and ends it even if a hook or a fault refuses. -/
def rollback (w : World) (hook : Option Disturbance) : Except StoreError Unit × World :=
  match hook.bind (·.error) with
  | some e => (.error e, w.release)
  | none =>
    match w.trip .rollback with
    | (true, w) => (.error (injected .rollback), w.release)
    | (false, w) => (.ok (), w.release)

end World

end FundsTransfer.Rehearsal
