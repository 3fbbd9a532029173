import FundsTransfer.Memory.Store
import FundsTransfer.Trigger

/-!
# Hooks

A rehearsal runs the engine over the store in memory while hooks disturb chosen calls.
A hook waits for one kind of request.  Requests of this kind may pass a number of times;
then the hook fires once and is gone.  It can let time go by, refuse the request with an
error before the store sees it, answer that a row is missing, or hand out a reference
row under another code.
-/

namespace FundsTransfer.Rehearsal

open Memory

/-- What disturbs a request. -/
structure Disturbance where
  /-- The time that goes by, in milliseconds. -/
  sleep : Nat
  /-- The error with which the request is refused. -/
  error : Option StoreError
  /-- Whether a keyed read answers that there is no row. -/
  missing : Bool
  /-- The code under which a reference row is handed out. -/
  code : Option String
deriving DecidableEq

/-- A disturbance that waits for its request. -/
abbrev Hook := Trigger Request Disturbance

namespace Disturbance

/-- The answer of a keyed read that finds no row. -/
def absent? : (q : Query) → Option q.Answer
  | .account _ => some none
  | .transaction _ => some none
  | .status _ => some none
  | .type _ => some none
  | .currency _ => some none
  | .addBalance .. => none
  | .createTransaction _ => none
  | .setStatus .. => none
  | .createEntry _ => none
  | .entries _ => none
  | .createStatus .. => none
  | .createType .. => none
  | .createCurrency _ => none

/-- An answer with another code in the reference row it holds. -/
def recode (code : String) : (q : Query) → q.Answer → q.Answer
  | .status _, row => row.map fun r => { r with code := code }
  | .type _, row => row.map fun r => { r with code := code }
  | .currency _, row => row.map fun r => { r with code := code }
  | .account _, a => a
  | .transaction _, a => a
  | .addBalance .., a => a
  | .createTransaction _, a => a
  | .setStatus .., a => a
  | .createEntry _, a => a
  | .entries _, a => a
  | .createStatus .., a => a
  | .createType .., a => a
  | .createCurrency _, a => a

/-- A query under the hook that fired for it, if one did. -/
def perform (hook : Option Disturbance) (now : Timestamp) (q : Query) : Operation q.Answer :=
  match hook with
  | none => Memory.perform now q
  | some h =>
    match h.error, (if h.missing then absent? q else none), h.code with
    | some e, _, _ => Operation.refuse e
    | none, some answer, _ => pure answer
    | none, none, some code => recode code q <$> Memory.perform now q
    | none, none, none => Memory.perform now q

end Disturbance

end FundsTransfer.Rehearsal
