import FundsTransfer.Shape
import FundsTransfer.Yaml.Meaning
import FundsTransfer.Yaml.Node

/-!
# Decoding values from YAML

A `Decoder` takes a subtree of a document to a value.  Every scalar has a text, and only
a scalar that is open to other meanings is a number or a truth value.  A mapping with
known fields is given as a `Shape`; a scalar with nothing in it is an empty mapping.

A complaint knows the path of field names down to what it is about, and the place where
that starts in the text.
-/

namespace FundsTransfer.Yaml

/-- Why a value is not of the kind asked for. -/
inductive Reason where
  /-- A mapping lacks a field. -/
  | missing (field : String)
  /-- A field comes twice. -/
  | duplicate (field : String)
  /-- A value means something else. -/
  | otherKind (found expected : String)
  /-- A value is of the kind, but not as it should be. -/
  | otherValue (found expected : String)

/-- The text of a reason. -/
def Reason.text : Reason → String
  | missing field => s!"missing field `{field}`"
  | duplicate field => s!"duplicate field `{field}`"
  | otherKind found expected => s!"invalid type: {found}, expected {expected}"
  | otherValue found expected => s!"invalid value: {found}, expected {expected}"

/-- Why a text has no value of the kind asked for. -/
inductive Fault where
  /-- A mistake in the text. -/
  | broken (problem : Problem)
  /-- The text is empty where a value should be. -/
  | empty
  /-- The text holds more than one document. -/
  | manyDocuments
  /-- A complaint about the value at a path.  The place is known once the value is left. -/
  | unfit (reason : Reason) (path : List String) (place : Option Mark)

namespace Fault

/-- The fault with a place, unless it has one. -/
def locate (place : Mark) : Fault → Fault
  | unfit reason path known => unfit reason path (known.or (some place))
  | f => f

/-- The fault as seen from around a field. -/
def within (name : String) : Fault → Fault
  | unfit reason path place => unfit reason (name :: path) place
  | f => f

/-- The field that is missing, when that is the fault. -/
def missingField? : Fault → Option String
  | unfit (.missing field) _ _ => some field
  | _ => none

/-- The message of a fault. -/
def message : Fault → String
  | broken problem => problem.message
  | empty => "EOF while parsing a value"
  | manyDocuments => "deserializing from YAML containing more than one document is not supported"
  | unfit reason path place =>
    (if path.isEmpty then "" else String.intercalate "." path ++ ": ") ++ reason.text ++
      (place.map Mark.mention).getD ""

end Fault

/-- A value with the anchors of the document it stands in. -/
structure Subtree where
  /-- The anchors. -/
  anchors : List (Nat × Node)
  /-- The value. -/
  node : Node

/-- Takes a subtree to a value. -/
abbrev Decoder (α : Type) := Subtree → Except Fault α

namespace Subtree

/-- The subtree that a reference refers to, or the subtree itself. -/
def target (t : Subtree) : Subtree :=
  match t.node with
  | .reference id => { t with node := (t.anchors.lookup id).getD t.node }
  | _ => t

/-- The complaint that a value is of another kind. -/
def otherKind {α : Type} (found : Meaning) (expected : String) (place : Mark) : Except Fault α :=
  .error (.unfit (.otherKind found.text expected) [] (some place))

/-- The complaint about a value that is not what was expected. -/
def refuse {α : Type} (t : Subtree) (expected : String) : Except Fault α :=
  match t.node with
  | .scalar place s =>
    match s.meaning with
    | .ok m => otherKind m expected place
    | .error asked =>
      .error (.unfit (.otherValue (Meaning.string s.text).text asked) [] (some place))
  | .sequence place _ _ => otherKind .sequence expected place
  | .mapping place _ _ => otherKind .mapping expected place
  | .reference _ => .error .empty
  | .void _ => .error .empty
  | .mistake p => .error (.broken p)

end Subtree

namespace Decoder

/-- The text of a scalar. -/
def string (expected : String) : Decoder String := fun t =>
  match t.target.node with
  | .scalar _ s => .ok s.text
  | _ => t.target.refuse expected

/-- A truth value. -/
def bool : Decoder Bool := fun t =>
  match t.target.node with
  | .scalar _ s =>
    match if s.isOpen "tag:yaml.org,2002:bool" then truth? s.text else none with
    | some b => .ok b
    | none => t.target.refuse "a boolean"
  | _ => t.target.refuse "a boolean"

/-- A whole number with no sign, of a number of bits up to 64. -/
def natural (bits : Nat) : Decoder Nat := fun t =>
  let expected := s!"u{bits}"
  match t.target.node with
  | .scalar place s =>
    match if s.isOpen "tag:yaml.org,2002:int" then natural? 64 s.text.toList else none with
    | some n =>
      if n < Nat.pow 2 bits then .ok n
      else .error (.unfit (.otherValue (Meaning.integer n).text expected) [] (some place))
    | none => t.target.refuse expected
  | _ => t.target.refuse expected

end Decoder

/-! ## Mappings with known fields -/

/-- The fields of a mapping. -/
abbrev MappingShape (α : Type) := Shape Subtree Fault α

namespace MappingShape

/-- A decoder that says the name of the field when it complains. -/
def named {α : Type} (name : String) (d : Decoder α) : Decoder α := fun t =>
  (d t).mapError (·.within name)

/-- A field that has to come. -/
def required {α : Type} (name : String) (d : Decoder α) : MappingShape α :=
  .field name false (named name d) (.error (.unfit (.missing name) [] none))

/-- A field with a default. -/
def withDefault {α : Type} (name : String) (d : Decoder α) (default : α) : MappingShape α :=
  .field name true (named name d) (.ok default)

/-- What the members of a mapping say about themselves. -/
def rules : PartRules Subtree Fault where
  skip t :=
    match t.node.problem? with
    | some p => .error (.broken p)
    | none => .ok ()
  duplicate name := .unfit (.duplicate name) [] none

/-- Decodes the members of a mapping that may be cut short. -/
def decodeMembers {α : Type} (shape : MappingShape α) (anchors : List (Nat × Node))
    (members : List (Node × Node)) (cut : Option Problem) : Except Fault α := do
  let known ← shape.collect rules []
    (members.map fun (k, n) => (Decoder.string "field identifier" ⟨anchors, k⟩, ⟨anchors, n⟩))
  match cut with
  | some p => .error (.broken p)
  | none => shape.build known

/-- The decoder of a mapping with known fields, which goes by a name. -/
def decoder {α : Type} (shape : MappingShape α) (name : String) : Decoder α := fun t =>
  match t.target.node with
  | .mapping place members cut =>
    (decodeMembers shape t.anchors members cut).mapError (·.locate place)
  | .void place => (decodeMembers shape t.anchors [] none).mapError (·.locate place)
  | .scalar place s =>
    if s.text.isEmpty && s.style = .plain then
      (decodeMembers shape t.anchors [] none).mapError (·.locate place)
    else t.target.refuse s!"struct {name}"
  | _ => t.target.refuse s!"struct {name}"

end MappingShape

/-- The value that a whole text stands for. -/
def decode {α : Type} (d : Decoder α) (text : String) : Except Fault α := do
  let document := Document.ofText text
  let a ← d ⟨document.anchors, document.root⟩
  match document.ending with
  | .clean => .ok a
  | .another => .error .manyDocuments
  | .broken p => .error (.broken p)

end FundsTransfer.Yaml
