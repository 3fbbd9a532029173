import FundsTransfer.Log.Event
import FundsTransfer.Store.Query
import FundsTransfer.Transfer.Error

/-!
# Work inside a unit of work

Everything the engine does between opening a unit of work and ending it is a `Work`: a
tree whose inner nodes are queries, each with one branch per answer.  A tree says what
is asked in which order and what depends on which answer, and nothing about the store.
So one description of a transfer serves the store in memory, a database, and a proof
about any store at all.

Work ends with a value, with an error, or in an overflow, when a sum outgrows what a
decimal holds.  An error stops the work: `fail_bind` says that nothing after it is
asked.
-/

namespace FundsTransfer

/-- How a computation ends. -/
inductive Outcome (α : Type) where
  /-- With a value. -/
  | ok (value : α)
  /-- With an error. -/
  | error (error : TransferError)
  /-- With a sum that no decimal holds. -/
  | overflow
deriving DecidableEq

/-- What is done inside a unit of work. -/
inductive Work (α : Type) where
  /-- It ends with a value. -/
  | done (value : α)
  /-- It ends with an error. -/
  | fail (error : TransferError)
  /-- It ends because a sum outgrew a decimal. -/
  | overflow
  /-- It emits an event and goes on. -/
  | log (event : Log.Event) (rest : Work α)
  /-- It waits for a number of milliseconds and goes on. -/
  | pause (milliseconds : Nat) (rest : Work α)
  /-- It asks the store and goes on with the answer or the refusal. -/
  | call (query : Query) (next : Except StoreError query.Answer → Work α)

namespace Work

/-- Goes on with the value of finished work. -/
def bind {α β : Type} : Work α → (α → Work β) → Work β
  | done a, f => f a
  | fail e, _ => fail e
  | overflow, _ => overflow
  | log event rest, f => log event (rest.bind f)
  | pause ms rest, f => pause ms (rest.bind f)
  | call q next, f => call q fun r => (next r).bind f

instance : Monad Work where
  pure := done
  bind := bind

/-- Asks the store and yields the answer or the refusal. -/
def ask (q : Query) : Work (Except StoreError q.Answer) := call q done

/-- Asks the store and stops at a refusal, with an error made from it. -/
def require (q : Query) (asError : StoreError → TransferError) : Work q.Answer :=
  call q fun
    | .ok a => done a
    | .error e => fail (asError e)

/-- Emits an event. -/
def emit (event : Log.Event) : Work Unit := log event (done ())

/-- Ends as a computation did. -/
def ofOutcome {α : Type} : Outcome α → Work α
  | .ok a => done a
  | .error e => fail e
  | .overflow => overflow

/-- Stops at an error. -/
def ofExcept {α : Type} : Except TransferError α → Work α
  | .ok a => done a
  | .error e => fail e

/-! ## The laws of sequencing -/

/-- A value is handed on. -/
@[simp] theorem done_bind {α β : Type} (a : α) (f : α → Work β) : (done a >>= f) = f a := rfl

/-- Nothing happens after an error. -/
@[simp] theorem fail_bind {α β : Type} (e : TransferError) (f : α → Work β) :
    (fail e >>= f) = fail e := rfl

/-- Nothing happens after an overflow. -/
@[simp] theorem overflow_bind {α β : Type} (f : α → Work β) :
    ((overflow : Work α) >>= f) = overflow := rfl

/-- A query comes before what follows. -/
@[simp] theorem call_bind {α β : Type} (q : Query)
    (next : Except StoreError q.Answer → Work α) (f : α → Work β) :
    (call q next >>= f) = call q fun r => next r >>= f := rfl

/-- Ending with the value adds nothing. -/
@[simp] theorem bind_done {α : Type} (w : Work α) : (w >>= done) = w := by
  induction w with
  | done a => rfl
  | fail e => rfl
  | overflow => rfl
  | log event rest ih => exact congrArg (log event) ih
  | pause ms rest ih => exact congrArg (pause ms) ih
  | call q next ih => exact congrArg (call q) (funext ih)

/-- Sequences may be grouped either way. -/
theorem bind_assoc {α β γ : Type} (w : Work α) (f : α → Work β) (g : β → Work γ) :
    ((w >>= f) >>= g) = (w >>= fun a => f a >>= g) := by
  induction w with
  | done a => rfl
  | fail e => rfl
  | overflow => rfl
  | log event rest ih => exact congrArg (log event) ih
  | pause ms rest ih => exact congrArg (pause ms) ih
  | call q next ih => exact congrArg (call q) (funext ih)

instance : LawfulMonad Work :=
  LawfulMonad.mk' Work bind_done (fun _ _ => rfl) bind_assoc

end Work

end FundsTransfer
