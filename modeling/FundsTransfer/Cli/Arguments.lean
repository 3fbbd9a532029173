import FundsTransfer.Binary64.Text
import FundsTransfer.Money.Amount
import FundsTransfer.Text.Integer
import FundsTransfer.Transfer.Params

/-!
# The arguments of the command line

The first argument is the name of the program.  Of the others, one that starts with a
dash is a flag, and what follows it is its value.  The command is the first argument
that is neither.

The value of a flag is looked for on its own: it is what follows the first argument that
is one of the flag's names and has something behind it, whatever that argument is.
-/

namespace FundsTransfer.Cli

/-! ## Flags and the command -/

/-- The value of a flag that goes by some names. -/
def valueOf? (names : List String) : List String → Option String
  | a :: b :: rest => if names.contains a then some b else valueOf? names (b :: rest)
  | _ => none

/-- The environment that the program is to run in. -/
def environment (args : List String) : String := (valueOf? ["--env", "-e"] args).getD "dev"

/-- The first argument that is neither a flag nor the value of one. -/
def positional? : List String → Option String
  | [] => none
  | a :: rest =>
    if a.startsWith "-" then
      match rest with
      | [] => none
      | _ :: rest => positional? rest
    else some a

/-- The command. -/
def command? (args : List String) : Option String := positional? (args.drop 1)

/-! ## Requests -/

/-- What is wrong with the arguments of a command. -/
inductive UsageError where
  /-- A flag that has to be there is not, or has no value. -/
  | missing (flag : String)
  /-- The value of a flag is not the number of an account. -/
  | notAccount (flag : String) (error : Text.IntegerError)
  /-- The value of a flag is not the number of a transaction. -/
  | notTransaction (flag : String) (error : Text.IntegerError)
  /-- The value of a flag is not an amount. -/
  | notAmount (flag : String) (error : MoneyError)
  /-- The value of a flag is not a floating-point number. -/
  | notRate (flag value : String)
deriving DecidableEq

namespace UsageError

/-- What people are told. -/
def message : UsageError → String
  | missing flag => "missing required argument " ++ flag
  | notAccount flag _ => flag ++ " must be an account id"
  | notTransaction flag _ => flag ++ " must be a transaction id"
  | notAmount flag _ => "invalid " ++ flag
  | notRate flag _ => flag ++ " must be a number"

/-- What is beneath. -/
def causes : UsageError → List String
  | missing _ => []
  | notAccount _ e => [e.message]
  | notTransaction _ e => [e.message]
  | notAmount _ e => [e.message]
  | notRate _ value =>
    [if value.isEmpty then "cannot parse float from empty string" else "invalid float literal"]

end UsageError

/-- The decimals that an amount may have. -/
def amountDecimals : Nat := 2

/-- The value of a flag that has to be there. -/
def require (flag : String) (args : List String) : Except UsageError String :=
  match valueOf? [flag] args with
  | some v => .ok v
  | none => .error (.missing flag)

/-- The account that a flag names. -/
def account (flag : String) (args : List String) : Except UsageError Int := do
  (Text.readInt64 (← require flag args)).mapError (.notAccount flag)

/-- The transaction that a flag names. -/
def transaction (flag : String) (args : List String) : Except UsageError Int := do
  (Text.readInt64 (← require flag args)).mapError (.notTransaction flag)

/-- The amount that a flag gives. -/
def amount (flag : String) (args : List String) : Except UsageError Decimal := do
  (parseAmount (← require flag args) amountDecimals).mapError (.notAmount flag)

/-- The rate that a flag gives, or one. -/
def rate (flag : String) (args : List String) : Except UsageError Binary64 :=
  match valueOf? [flag] args with
  | none => .ok .one
  | some v =>
    match Binary64.ofText? v.toList with
    | some x => .ok x
    | none => .error (.notRate flag v)

/-- The request for a transfer that the arguments spell. -/
def transferParams (args : List String) : Except UsageError TransferParams := do
  let sender ← account "--from" args
  let receiver ← account "--to" args
  let amount ← amount "--amount" args
  let currency ← require "--currency" args
  let rate ← rate "--rate" args
  return ⟨sender, receiver, amount, currency, rate, valueOf? ["--reference"] args,
    valueOf? ["--description"] args⟩

end FundsTransfer.Cli
