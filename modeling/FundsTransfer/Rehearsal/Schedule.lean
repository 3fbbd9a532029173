import FundsTransfer.Rehearsal.Process

/-!
# Schedules

Processes run together on one thread.  In a round every process that can go on does so
until it waits again, in the order of their numbers.  When none can, the clock moves to
the next moment at which one can.  A call that has not ended after one hour is given up,
and so is one in which a sum outgrows a decimal: the processes are abandoned where they
stand, and their units of work with them.

Every round but the last few uses up a hook, a pause or a turn at the lock, so their
number bounds the rounds.
-/

namespace FundsTransfer.Rehearsal

open Memory

/-- How a call of the engine ended. -/
inductive CallEnd (α : Type) where
  /-- With a value. -/
  | ok (value : α)
  /-- With an error. -/
  | error (error : TransferError)
  /-- With a sum that no decimal holds. -/
  | overflow
  /-- Not within the hour. -/
  | blocked
deriving DecidableEq

/-- A call that ended as a computation did. -/
def CallEnd.ofOutcome {α : Type} : Outcome α → CallEnd α
  | .ok a => .ok a
  | .error e => .error e
  | .overflow => .overflow

/-- The longest time a call may take, in milliseconds. -/
def patience : Nat := 3600000

variable {α : Type}

/-- Whether a process ended in an overflow. -/
def Process.overflowed (p : Process α) : Bool :=
  match p.place with
  | .ended .overflow => true
  | _ => false

/-- One round: every process that can go on does, from number `i` on, up to an overflow. -/
def round (i : Nat) (w : World) : List (Process α) → List (Process α) × World
  | [] => ([], w)
  | p :: rest =>
    let (p, w) := p.poll i w
    if p.overflowed then (p :: rest, w)
    else
      let (rest, w) := round (i + 1) w rest
      (p :: rest, w)

/-- Whether any process can go on now, from number `i` on. -/
def anyReady (i : Nat) (w : World) : List (Process α) → Bool
  | [] => false
  | p :: rest => p.canAdvance i w || anyReady (i + 1) w rest

/-- The next moment at which a process can go on. -/
def nextMoment (ps : List (Process α)) : Option Nat :=
  (ps.filterMap Process.nextMoment).min?

/-- Rounds and waits until all processes ended, one overflowed, or the time is up. -/
def runUntil (moment : Nat) : (rounds : Nat) → World → List (Process α) →
    List (Process α) × World
  | 0, w, ps => (ps, { w with now := moment })
  | n + 1, w, ps =>
    if ps.any Process.overflowed then (ps, w)
    else if anyReady 0 w ps then
      let (ps, w) := round 0 w ps
      runUntil moment n w ps
    else if ps.all fun p => p.place matches .ended _ then (ps, w)
    else
      match nextMoment ps with
      | some m =>
        if m ≤ moment then runUntil moment n { w with now := max m w.now } ps
        else (ps, { w with now := max moment w.now })
      | none => (ps, { w with now := max moment w.now })

/-- The world without the units of work that the processes still hold or wait for. -/
def abandon (i : Nat) (w : World) : List (Process α) → World
  | [] => w
  | p :: rest =>
    let w := w.leave i
    abandon (i + 1) (if p.unit.isSome then w.release else w) rest

/-- A bound on the rounds and waits of processes that pause at most a number of times. -/
def roundsFor (w : World) (processes pauses : Nat) : Nat :=
  4 * (w.hooks.length + pauses + 2 * processes + 1)

/-- Runs processes from now on for one hour at most. -/
def run (pauses : Nat) (w : World) (ps : List (Process α)) : List (Process α) × World :=
  runUntil (w.after patience) (roundsFor w ps.length pauses) w ps

/-- How a process ended, if it did. -/
def Process.callEnd (p : Process α) : CallEnd α :=
  match p.place with
  | .ended outcome => .ofOutcome outcome
  | _ => .blocked

/-! ## Calls -/

/-- A call of the engine that opens its own unit of work, and pauses at most a number of times. -/
def call (w : World) (job : Job α) (pauses : Nat) : CallEnd α × World :=
  match run pauses w [⟨none, .ready job⟩] with
  | ([p], w) => (p.callEnd, abandon 0 w [p])
  | (_, w) => (.blocked, w)

/-- Calls of the engine that run together.  If one of them overflows or does not end, all are given
up, and the answer says why. -/
def callTogether (w : World) (jobs : List (Job α)) :
    Except (CallEnd α) (List (Outcome α)) × World :=
  let (ps, w) := run 0 w (jobs.map fun t => ⟨none, .ready t⟩)
  let after := abandon 0 w ps
  if ps.any Process.overflowed then (.error .overflow, after)
  else
    match ps.mapM fun p => match p.place with
      | .ended outcome => some outcome
      | _ => none with
    | some outcomes => (.ok outcomes, after)
    | none => (.error .blocked, after)

/-- Whether a process is cut off in the middle of ending its unit of work. -/
def Process.isEnding (p : Process α) : Bool :=
  match p.place with
  | .asleep _ _ _ (.commit _) => true
  | .asleep _ _ _ (.rollback _) => true
  | _ => false

/-- A call on the unit of work in the slot, or one that fills the slot.  What the call leaves open
stays in the slot, also after an overflow and after the hour, unless the end of the unit of work
was under way. -/
def callInSlot (w : World) (job : Job α) : CallEnd α × World :=
  match run 0 { w with slot := none } [⟨w.slot, .ready job⟩] with
  | ([p], w) =>
    let w := w.leave 0
    if p.isEnding then (p.callEnd, w.release) else (p.callEnd, { w with slot := p.unit })
  | (_, w) => (.blocked, w)

/-- Discards the unit of work in the slot. -/
def dropSlot (w : World) : World := { w with slot := none }.release

/-- Reads or changes the committed tables when nobody holds the lock, which with a unit of work in
the slot is not within the hour. -/
def direct (w : World) (action : Tables → α × Tables) : Option α × World :=
  if w.slot.isSome then (none, { w with now := w.after patience })
  else
    let (a, tables) := action w.tables
    (some a, { w with tables })

end FundsTransfer.Rehearsal
