/-!
# Values with known fields

A `Shape` says how a value is made of named parts.  It goes through the parts in the
order in which they come, checks each against the field of its name, skips parts that it
does not know, and refuses a field that comes twice.  Only then it looks for fields that
did not come.  So a missing field is the complaint exactly when nothing else was wrong
before, and it is the first missing one in the order of the fields.

What the parts are, and what a complaint is, is left open: JSON and YAML each bring
their own.
-/

namespace FundsTransfer

/-- A field of a value with parts `ν` and complaints `ε`. -/
structure Field (ν ε : Type) where
  /-- The name. -/
  name : String
  /-- Whether it may be left out at the end of a list. -/
  hasDefault : Bool
  /-- What its part has to be. -/
  check : ν → Except ε Unit

/-- The fields of a value, and how the value is made of them. -/
structure Shape (ν ε α : Type) where
  /-- The fields in order. -/
  fields : List (Field ν ε)
  /-- The value made of the parts with the names of the fields. -/
  build : List (String × ν) → Except ε α

/-- What parts say about themselves. -/
structure PartRules (ν ε : Type) where
  /-- Whether a part that no field is for may be passed over. -/
  skip : ν → Except ε Unit
  /-- The complaint about a field that comes twice. -/
  duplicate : String → ε

namespace Shape

variable {ν ε α β : Type}

/-- One field.  `absent` is what it yields when it did not come. -/
def field (name : String) (hasDefault : Bool) (decode : ν → Except ε α) (absent : Except ε α) :
    Shape ν ε α where
  fields := [⟨name, hasDefault, fun n => (decode n).map fun _ => ()⟩]
  build parts :=
    match parts.lookup name with
    | some n => decode n
    | none => absent

instance : Applicative (Shape ν ε) where
  pure a := ⟨[], fun _ => .ok a⟩
  seq f x := ⟨f.fields ++ (x ()).fields, fun parts => do
    let g ← f.build parts
    let a ← (x ()).build parts
    .ok (g a)⟩

/-- The field with a name. -/
def field? (shape : Shape ν ε α) (name : String) : Option (Field ν ε) :=
  shape.fields.find? (·.name == name)

/-- The parts that fields are for, each checked when it comes.  A name may be a complaint itself.
`seen` are the names of fields that came. -/
def collect (shape : Shape ν ε α) (rules : PartRules ν ε) (seen : List String) :
    List (Except ε String × ν) → Except ε (List (String × ν))
  | [] => .ok []
  | (.error e, _) :: _ => .error e
  | (.ok k, n) :: rest =>
    match shape.field? k with
    | some field => do
      if seen.contains k then .error (rules.duplicate k)
      field.check n
      let more ← collect shape rules (k :: seen) rest
      .ok ((k, n) :: more)
    | none => do
      rules.skip n
      collect shape rules seen rest

/-- The parts of a list, checked against the fields in order.  `unfit` is the complaint when their
numbers do not fit. -/
def collectList (unfit : ε) : List (Field ν ε) → List ν → Except ε (List (String × ν))
  | fields, [] => if fields.all (·.hasDefault) then .ok [] else .error unfit
  | [], _ :: _ => .error unfit
  | field :: fields, n :: rest => do
    field.check n
    let more ← collectList unfit fields rest
    .ok ((field.name, n) :: more)

end Shape

end FundsTransfer
