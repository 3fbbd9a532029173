import FundsTransfer.Store.Error

/-!
# Faults, races and the record of balances touched

A store in memory can be told to misbehave.  A *fault* makes a chosen kind of call fail
on its n-th occurrence from now on, once.  A *race* makes the next insertion of a
reference row behave as if somebody else had inserted the same code just before.  The
store also records the accounts whose balances were touched, in order.

None of this belongs to a unit of work: what a rolled back unit of work used up stays
used up.
-/

namespace FundsTransfer.Memory

/-- The kinds of call that can be made to fail. -/
inductive FaultPoint where
  /-- Opening a unit of work. -/
  | begin
  /-- Writing a transaction. -/
  | createTransaction
  /-- Writing an entry. -/
  | createEntry
  /-- Adding to a balance. -/
  | addBalance
  /-- Changing the status of a transaction. -/
  | updateStatus
  /-- Writing a reference row. -/
  | createReference
  /-- Publishing a unit of work. -/
  | commit
  /-- Taking a unit of work back. -/
  | rollback
deriving DecidableEq, Repr

/-- A fault point as the injected error names it. -/
def FaultPoint.label : FaultPoint → String
  | .begin => "Begin"
  | .createTransaction => "CreateTransaction"
  | .createEntry => "CreateEntry"
  | .addBalance => "AddBalance"
  | .updateStatus => "UpdateStatus"
  | .createReference => "CreateReference"
  | .commit => "Commit"
  | .rollback => "Rollback"

/-- All fault points. -/
def FaultPoint.all : List FaultPoint :=
  [.begin, .createTransaction, .createEntry, .addBalance, .updateStatus, .createReference,
   .commit, .rollback]

/-- The fault point with a name. -/
def FaultPoint.ofLabel? (name : String) : Option FaultPoint := all.find? (·.label == name)

/-- The faults and races that are pending, and the accounts touched so far. -/
structure Probes where
  /-- The calls until a fault fires, and zero where none is armed. -/
  countdown : FaultPoint → Nat
  /-- The reference insertions that will lose a race. -/
  races : Nat
  /-- The accounts whose balances were touched, oldest first. -/
  touched : List Int

namespace Probes

/-- Nothing is armed and nothing was touched. -/
def quiet : Probes := ⟨fun _ => 0, 0, []⟩

instance : Inhabited Probes := ⟨quiet⟩

/-- The probes with another countdown at one point. -/
def setCountdown (p : Probes) (point : FaultPoint) (n : Nat) : Probes :=
  { p with countdown := fun q => if q = point then n else p.countdown q }

/-- Makes the n-th call from now on fail, the next one if n is zero. -/
def arm (p : Probes) (point : FaultPoint) (occurrence : Nat) : Probes :=
  p.setCountdown point (max occurrence 1)

/-- Makes one more reference insertion lose a race. -/
def addRace (p : Probes) : Probes := { p with races := p.races + 1 }

/-- Counts a call, and says whether it fails. -/
def trip (p : Probes) (point : FaultPoint) : Bool × Probes :=
  match p.countdown point with
  | 0 => (false, p)
  | 1 => (true, p.setCountdown point 0)
  | n + 2 => (false, p.setCountdown point (n + 1))

/-- Whether a reference insertion loses a race, which is then used up. -/
def takeRace (p : Probes) : Bool × Probes :=
  match p.races with
  | 0 => (false, p)
  | n + 1 => (true, { p with races := n })

/-- Records that the balance of an account was touched. -/
def touch (p : Probes) (account : Int) : Probes := { p with touched := p.touched ++ [account] }

end Probes

/-- The error of an injected fault. -/
def injected (point : FaultPoint) : StoreError :=
  .backend ("injected failure at " ++ point.label)

end FundsTransfer.Memory
