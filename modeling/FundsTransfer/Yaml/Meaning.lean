import FundsTransfer.Binary64.Text
import FundsTransfer.Text.Quoted
import FundsTransfer.Yaml.Token

/-!
# What a scalar means

A plain scalar means nothing, a truth value, a whole number, a floating-point number, or
else its text.  Whole numbers are decimal, or hexadecimal, octal or binary behind `0x`,
`0o` or `0b`.  Digits that start with a superfluous zero are a text.  A scalar in quotes
means its text, unless a tag says otherwise.

A tag that a scalar does not live up to is a complaint of its own.
-/

namespace FundsTransfer.Yaml

/-- What a value turned out to be. -/
inductive Meaning where
  /-- Nothing. -/
  | unit
  /-- A truth value. -/
  | bool (b : Bool)
  /-- A whole number that fits 64 bits. -/
  | integer (n : Int)
  /-- A whole number that needs 128 bits. -/
  | wide (n : Int)
  /-- A floating-point number. -/
  | float (x : Binary64)
  /-- A text. -/
  | string (s : String)
  /-- A list. -/
  | sequence
  /-- Named values. -/
  | mapping

/-- A floating-point number with a point. -/
def pointedText (x : Binary64) : String :=
  let s := x.text
  if x.isFinite && !s.contains '.' then String.ofList (s ++ ['.', '0']) else String.ofList s

/-- How a complaint calls a value. -/
def Meaning.text : Meaning → String
  | unit => "unit value"
  | bool b => s!"boolean `{b}`"
  | integer n => s!"integer `{Text.intText n}`"
  | wide n => s!"integer `{Text.intText n}` as " ++ (if 0 ≤ n then "u128" else "i128")
  | float x => s!"floating point `{pointedText x}`"
  | string s => s!"string {Text.quoted s}"
  | sequence => "sequence"
  | mapping => "map"

/-! ## Whole numbers -/

/-- The number that digits of a base spell, at least one. -/
def natOfBase? (base : Nat) (ds : List Char) : Option Nat :=
  if ds.isEmpty then none
  else ds.foldlM (fun n d => do
    let v ← hexValue? d
    if v < base then some (n * base + v) else none) 0

/-- Whether a text starts with a sign. -/
def startsWithSign (s : List Char) : Bool := s.head?.any fun c => c == '+' || c == '-'

/-- A text without one sign at its start. -/
def withoutSign (s : List Char) : List Char := if startsWithSign s then s.drop 1 else s

/-- Whether a text is a number with a superfluous zero at its start. -/
def isZeroPadded (s : List Char) : Bool :=
  let ds := withoutSign s
  1 < ds.length && ds.head? == some '0' && ds.all Char.isDigit

/-- The whole number behind a sign, below a limit.  What stands behind the mark of a base has to be
digits of it, or else the whole has to be decimal digits. -/
def unsigned? (limit : Nat) (s : List Char) : Option Nat :=
  let based := match s with
    | '0' :: 'x' :: ds => natOfBase? 16 ds
    | '0' :: 'o' :: ds => natOfBase? 8 ds
    | '0' :: 'b' :: ds => natOfBase? 2 ds
    | ds => natOfBase? 10 ds
  based.filter (· < limit)

/-- A whole number with no sign or a plus, of a number of bits. -/
def natural? (bits : Nat) (s : List Char) : Option Nat :=
  if isZeroPadded s then none
  else unsigned? (Nat.pow 2 bits) (if s.head? == some '+' then s.drop 1 else s)

/-- A whole number with a minus, of a number of bits with one for the sign. -/
def negative? (bits : Nat) (s : List Char) : Option Int :=
  if isZeroPadded s then none
  else
    match s with
    | '-' :: ds => (unsigned? (Nat.pow 2 (bits - 1) + 1) ds).map fun n => -(n : Int)
    | _ => none

/-- The whole number that a text means. -/
def wholeNumber? (s : List Char) : Option Meaning :=
  match natural? 64 s, negative? 64 s with
  | some n, _ => some (.integer n)
  | none, some n => some (.integer n)
  | none, none =>
    match natural? 128 s, negative? 128 s with
    | some n, _ => some (.wide n)
    | none, some n => some (.wide n)
    | none, none => none

/-! ## Other meanings -/

/-- The truth value that a text means. -/
def truth? (s : String) : Option Bool :=
  if ["true", "True", "TRUE"].contains s then some true
  else if ["false", "False", "FALSE"].contains s then some false
  else none

/-- Whether a text means nothing. -/
def isNull (s : String) : Bool := ["null", "Null", "NULL", "~"].contains s

/-- The floating-point number that a text means. -/
def float? (s : List Char) : Option Binary64 :=
  let bare := if s.head? == some '+' then s.drop 1 else s
  if s.head? == some '+' && startsWithSign bare then none
  else if [".inf", ".Inf", ".INF"].contains (String.ofList bare) then some (.infinite false)
  else if ["-.inf", "-.Inf", "-.INF"].contains (String.ofList s) then some (.infinite true)
  else if [".nan", ".NaN", ".NAN"].contains (String.ofList s) then some .nan
  else (Binary64.ofText? bare).filter Binary64.isFinite

/-- What a plain scalar with no tag means. -/
def plainMeaning (s : String) : Meaning :=
  if s.isEmpty || isNull s then .unit
  else
    match truth? s with
    | some b => .bool b
    | none =>
      match wholeNumber? s.toList with
      | some m => m
      | none =>
        match if isZeroPadded s.toList then none else float? s.toList with
        | some x => .float x
        | none => .string s

/-- What a tag of the standard asks of a scalar: the name of what is asked, and the meaning if the
scalar lives up to it. -/
def taggedMeaning? (tag text : String) : Option (String × Option Meaning) :=
  match tag with
  | "tag:yaml.org,2002:bool" => some ("a boolean", (truth? text).map .bool)
  | "tag:yaml.org,2002:int" => some ("an integer", wholeNumber? text.toList)
  | "tag:yaml.org,2002:float" => some ("a float", (float? text.toList).map .float)
  | "tag:yaml.org,2002:null" => some ("null", if isNull text then some .unit else none)
  | _ => none

/-- What a scalar means, or the name of what its tag asks in vain. -/
def Scalar.meaning (s : Scalar) : Except String Meaning :=
  match s.tag with
  | some tag =>
    match taggedMeaning? tag s.text with
    | some (_, some m) => .ok m
    | some (name, none) => .error name
    | none => .ok (.string s.text)
  | none => .ok (if s.style = .plain then plainMeaning s.text else .string s.text)

/-- Whether a scalar may mean something else than its text, for a kind of meaning with a tag. -/
def Scalar.isOpen (s : Scalar) (tag : String) : Bool :=
  s.style = .plain || (s.style = .literal && s.tag == some tag)

end FundsTransfer.Yaml
