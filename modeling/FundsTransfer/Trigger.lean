/-!
# Triggers

A trigger waits for an event of one kind, lets a number of such events pass, then fires
once and is gone.  Several triggers stand in a list, and an event meets the first one of
its kind only.  So two triggers of one kind fire one after the other.
-/

namespace FundsTransfer

/-- An effect that waits for an event. -/
structure Trigger (κ ε : Type) where
  /-- The kind of event. -/
  kind : κ
  /-- The events of this kind that pass first. -/
  skip : Nat
  /-- What happens then. -/
  effect : ε
deriving DecidableEq

namespace Trigger

variable {κ ε : Type} [DecidableEq κ]

/-- The effect that an event sets off, if it does, and the triggers that are left. -/
def take (kind : κ) : List (Trigger κ ε) → Option ε × List (Trigger κ ε)
  | [] => (none, [])
  | t :: rest =>
    if t.kind = kind then
      match t.skip with
      | 0 => (some t.effect, rest)
      | n + 1 => (none, { t with skip := n } :: rest)
    else
      let (effect, rest) := take kind rest
      (effect, t :: rest)

end Trigger

end FundsTransfer
