import FundsTransfer.Binary64.Text
import FundsTransfer.Decimal.Scientific
import FundsTransfer.Json.Node
import FundsTransfer.Shape
import FundsTransfer.Time.Reader

/-!
# Decoding values from JSON

A `Decoder` takes a node to a value.  `ObjectShape.decoder` is the decoder of an object with known
fields, given as a `Shape`.  A member that no field is for is skipped when there is no
mistake in it.

An object may also be given as an array of its fields in order.  Fields with a default
may be left out at its end.
-/

namespace FundsTransfer.Json

/-- Why a text has no value of the kind asked for. -/
inductive Fault where
  /-- An object lacks a field. -/
  | missing (field : String)
  /-- Anything else. -/
  | invalid
deriving DecidableEq, Repr

/-- Takes a node to a value. -/
abbrev Decoder (α : Type) := Node → Except Fault α

namespace Decoder

/-- A value where there is one. -/
def ofOption {α : Type} : Option α → Except Fault α
  | some a => .ok a
  | none => .error .invalid

/-- A number that is not too large. -/
def number : Decoder Number
  | .number t => ofOption (Number.ofToken? t)
  | _ => .error .invalid

/-- A whole number of 64 bits with a sign. -/
def int64 : Decoder Int := fun n =>
  match number n with
  | .ok (.whole n) =>
    if -(0x8000000000000000 : Int) ≤ n ∧ n < 0x8000000000000000 then .ok n else .error .invalid
  | _ => .error .invalid

/-- A floating-point number.  Whole numbers are taken, too. -/
def float : Decoder Binary64 := fun n =>
  match number n with
  | .ok (.float x) => .ok x
  | .ok (.whole n) => .ok (.finite (decide (n < 0)) (Number.magnitudeOf n.natAbs))
  | _ => .error .invalid

/-- The decimal of a number, which is taken at its shortest text if it is no whole number. -/
def decimalOf : Number → Except Fault Decimal
  | .whole n => ofOption (Decimal.ofParts? (decide (n < 0)) n.natAbs 0)
  | .float x =>
    match Decimal.ofText .round x.text with
    | .ok d => .ok d
    | .error _ => .error .invalid

/-- A decimal, given as a number or a text. -/
def decimal : Decoder Decimal
  | .string (some s) => ofOption (Decimal.ofDataText? s.toList)
  | n => number n >>= decimalOf

/-- A truth value. -/
def bool : Decoder Bool
  | .bool b => .ok b
  | _ => .error .invalid

/-- A text. -/
def string : Decoder String
  | .string (some s) => .ok s
  | _ => .error .invalid

/-- A timestamp, given as a text. -/
def timestamp : Decoder Timestamp
  | .string (some s) => ofOption (Timestamp.ofText? s.toList)
  | _ => .error .invalid

/-- A value or `null`. -/
def optional {α : Type} (d : Decoder α) : Decoder (Option α)
  | .null => .ok none
  | n => (d n).map some

/-- A list of values. -/
def list {α : Type} (d : Decoder α) : Decoder (List α)
  | .array items whole => do
    let values ← items.mapM d
    if whole then .ok values else .error .invalid
  | _ => .error .invalid

end Decoder

/-! ## Objects with known fields -/

/-- The fields of an object. -/
abbrev ObjectShape (α : Type) := Shape Node Fault α

namespace ObjectShape

/-- A field that has to come. -/
def required {α : Type} (name : String) (d : Decoder α) : ObjectShape α :=
  .field name false d (.error (.missing name))

/-- A field that may be absent or `null`. -/
def optional {α : Type} (name : String) (d : Decoder α) : ObjectShape (Option α) :=
  .field name false (Decoder.optional d) (.ok none)

/-- A field with a default. -/
def withDefault {α : Type} (name : String) (d : Decoder α) (default : α) : ObjectShape α :=
  .field name true d (.ok default)

/-- What the members of an object say about themselves. -/
def rules : PartRules Node Fault where
  skip n := if n.isWhole then .ok () else .error .invalid
  duplicate _ := .invalid

/-- The name of a member, if it has a value. -/
def nameOf (name : Option String) : Except Fault String := Decoder.ofOption name

/-- The decoder of an object with known fields. -/
def decoder {α : Type} (shape : ObjectShape α) : Decoder α
  | .object members whole => do
    let known ← shape.collect rules []
      (members.map fun (k, n) => (nameOf k, n))
    if whole then shape.build known else .error .invalid
  | .array items whole => do
    let known ← Shape.collectList .invalid shape.fields items
    if whole then shape.build known else .error .invalid
  | _ => .error .invalid

end ObjectShape

/-- The value that a whole text stands for. -/
def decode {α : Type} (d : Decoder α) (s : String) : Except Fault α := do
  let (node, rest) := readNode s.toList
  let a ← d node
  match rest.map skipSpace with
  | some [] => .ok a
  | _ => .error .invalid

end FundsTransfer.Json
