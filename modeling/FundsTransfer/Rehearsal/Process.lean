import FundsTransfer.Rehearsal.World
import FundsTransfer.Work.Job

/-!
# Processes

A process is a job under way: the unit of work it holds, if any, and the place where it
waits.  `advance` lets a job go on until it ends or has to wait, for the lock or for
time to go by.  Nothing else takes time, so a process that does not wait is never cut
off, and what it waits for wins over a deadline at the same moment.

A process that ends in an overflow abandons its unit of work.
-/

namespace FundsTransfer.Rehearsal

open Memory

/-- Where a process is. -/
inductive Place (α : Type) where
  /-- It can go on with its job. -/
  | ready (job : Job α)
  /-- The first step of its job goes on at a moment, under the hook that made it wait. -/
  | asleep (wake : Nat) (deadline : Option Deadline) (hook : Option Disturbance) (job : Job α)
  /-- It waits for the lock, to open a unit of work. -/
  | queued (deadline : Option Deadline) (next : Timed (Except StoreError Unit) → Job α)
  /-- It ended. -/
  | ended (outcome : Outcome α)

/-- A job under way. -/
structure Process (α : Type) where
  /-- The unit of work it holds. -/
  unit : Option Tables
  /-- Where it is. -/
  place : Place α

/-- Whether a deadline has come. -/
def isOver (now : Nat) : Option Deadline → Bool
  | some d => d.moment ≤ now
  | none => false

/-- The limit of a deadline. -/
def limitOf : Option Deadline → Duration
  | some d => d.limit
  | none => ⟨0⟩

/-- The time a hook lets go by, in milliseconds. -/
def sleepOf : Option Disturbance → Nat
  | some h => h.sleep
  | none => 0

namespace Process

variable {α : Type}

/-- The answer to an opening that has the lock or is refused, the unit of work opened, and the
world after it; or nothing when the process has to wait for the lock. -/
def open? (w : World) (hook : Option Disturbance) :
    Option (Except StoreError Unit) × Option Tables × World :=
  match hook.bind (·.error) with
  | some e => (some (.error e), none, w)
  | none =>
    match w.trip .begin with
    | (true, w) => (some (.error (injected .begin)), none, w)
    | (false, w) =>
      if w.locked then (none, none, w)
      else (some (.ok ()), some w.tables, { w with locked := true })

/-- The answer to a query of a process, the unit of work after it, and the world; or nothing when a
sum outgrew a decimal. -/
def ask? (w : World) (unit : Tables) (hook : Option Disturbance) (q : Query) :
    Option (Except StoreError q.Answer) × Tables × World :=
  match w.query unit hook q with
  | (.ok a, unit, w) => (some (.ok a), unit, w)
  | (.error (.refused e), unit, w) => (some (.error e), unit, w)
  | (.error .overflow, unit, w) => (none, unit, w)

/-- A process that stopped at a place. -/
def stop (unit : Option Tables) (place : Place α) (w : World) : Process α × World :=
  (⟨unit, place⟩, w)

/-- Lets a job go on until it ends or waits.  `i` is the number of the process. -/
def advance (i : Nat) (unit : Option Tables) (w : World) : Job α → Process α × World
  | .done outcome => stop unit (.ended outcome) w
  | .log _ rest => advance i unit w rest
  | .clock next => advance i unit w (next w.now)
  | .begin deadline next =>
    let (hook, w) := w.takeHook .begin
    if sleepOf hook = 0 then
      match open? w hook with
      | (some answer, opened, w) => advance i opened w (next (.ended answer))
      | (none, _, w) =>
        if isOver w.now deadline then advance i unit w (next (.cutOff (limitOf deadline)))
        else stop unit (.queued deadline next) { w with queue := w.queue ++ [i] }
    else if isOver w.now deadline then advance i unit w (next (.cutOff (limitOf deadline)))
    else stop unit (.asleep (w.after (sleepOf hook)) deadline hook (.begin deadline next)) w
  | .call deadline q next =>
    let (hook, w) := w.takeHook q.request
    if sleepOf hook = 0 then
      match ask? w (unit.getD .empty) hook q with
      | (some answer, after, w) => advance i (some after) w (next (.ended answer))
      | (none, after, w) => stop (some after) (.ended .overflow) w
    else if isOver w.now deadline then advance i unit w (next (.cutOff (limitOf deadline)))
    else stop unit (.asleep (w.after (sleepOf hook)) deadline hook (.call deadline q next)) w
  | .pause deadline ms next =>
    if ms = 0 then advance i unit w (next (.ended ()))
    else if isOver w.now deadline then advance i unit w (next (.cutOff (limitOf deadline)))
    else stop unit (.asleep (w.after ms) deadline none (.pause deadline ms next)) w
  | .commit next =>
    let (hook, w) := w.takeHook .commit
    if sleepOf hook = 0 then
      let (answer, w) := w.commit (unit.getD .empty) hook
      advance i none w (next answer)
    else stop unit (.asleep (w.after (sleepOf hook)) none hook (.commit next)) w
  | .rollback next =>
    let (hook, w) := w.takeHook .rollback
    if sleepOf hook = 0 then
      let (answer, w) := w.rollback hook
      advance i none w (next answer)
    else stop unit (.asleep (w.after (sleepOf hook)) none hook (.rollback next)) w

/-- Lets the first step of a job go on that slept under a hook. -/
def wake (i : Nat) (unit : Option Tables) (hook : Option Disturbance) (w : World) :
    Job α → Process α × World
  | .begin deadline next =>
    match open? w hook with
    | (some answer, opened, w) => advance i opened w (next (.ended answer))
    | (none, _, w) =>
      if isOver w.now deadline then advance i unit w (next (.cutOff (limitOf deadline)))
      else stop unit (.queued deadline next) { w with queue := w.queue ++ [i] }
  | .call _ q next =>
    match ask? w (unit.getD .empty) hook q with
    | (some answer, after, w) => advance i (some after) w (next (.ended answer))
    | (none, after, w) => stop (some after) (.ended .overflow) w
  | .pause _ _ next => advance i unit w (next (.ended ()))
  | .commit next =>
    let (answer, w) := w.commit (unit.getD .empty) hook
    advance i none w (next answer)
  | .rollback next =>
    let (answer, w) := w.rollback hook
    advance i none w (next answer)
  | job => advance i unit w job

/-- Goes on with a job whose first step was cut off at its deadline. -/
def cut (i : Nat) (unit : Option Tables) (limit : Duration) (w : World) :
    Job α → Process α × World
  | .begin _ next => advance i unit w (next (.cutOff limit))
  | .call _ _ next => advance i unit w (next (.cutOff limit))
  | .pause _ _ next => advance i unit w (next (.cutOff limit))
  | job => advance i unit w job

/-- The moment at which a process can go on, if it waits for time to go by. -/
def nextMoment (p : Process α) : Option Nat :=
  let at? : Option Deadline → Option Nat := fun d => d.map (·.moment)
  match p.place with
  | .ready _ => none
  | .asleep wake deadline _ _ => some ((at? deadline).elim wake (min wake))
  | .queued deadline _ => at? deadline
  | .ended _ => none

/-- Whether a process can go on now. -/
def canAdvance (p : Process α) (i : Nat) (w : World) : Bool :=
  match p.place with
  | .ready _ => true
  | .asleep wake deadline _ _ => wake ≤ w.now || isOver w.now deadline
  | .queued deadline _ => w.handed == some i || isOver w.now deadline
  | .ended _ => false

/-- Lets a process go on if it can. -/
def poll (p : Process α) (i : Nat) (w : World) : Process α × World :=
  match p.place with
  | .ready job => advance i p.unit w job
  | .asleep moment deadline hook job =>
    if moment ≤ w.now then wake i p.unit hook w job
    else if isOver w.now deadline then cut i p.unit (limitOf deadline) w job
    else (p, w)
  | .queued deadline next =>
    if w.handed = some i then
      advance i (some w.tables) { w with handed := none } (next (.ended (.ok ())))
    else if isOver w.now deadline then
      advance i p.unit (w.leave i) (next (.cutOff (limitOf deadline)))
    else (p, w)
  | .ended _ => (p, w)

end Process

end FundsTransfer.Rehearsal
