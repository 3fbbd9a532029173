import FundsTransfer.Json.Number

/-!
# Reading JSON

A text is read into a tree of nodes.  Reading does not stop at the first mistake with
nothing in hand: the tree holds everything up to the mistake, and an array or object
that is cut short says so.  A consumer that goes through the tree in the order of the
text so meets whichever is first, the mistake or a complaint of its own.

A string with a surrogate that lacks its partner is kept without a value, and a number is
kept as written, also when it is too large.  A consumer that needs the value refuses it;
one that skips it does not mind.
-/

namespace FundsTransfer.Json

/-- A value as read, up to the first mistake in it. -/
inductive Node where
  /-- No value. -/
  | null
  /-- A truth value. -/
  | bool (b : Bool)
  /-- A number as written. -/
  | number (token : NumberToken)
  /-- A text, unless a surrogate in it lacks its partner. -/
  | string (text : Option String)
  /-- A list of values, and whether it has its end. -/
  | array (items : List Node) (whole : Bool)
  /-- Named values, and whether the object has its end. -/
  | object (members : List (Option String × Node)) (whole : Bool)
  /-- A mistake right at the start. -/
  | mistake

/-- What is left of a text after reading a part of it, or nothing after a mistake. -/
abbrev Rest := Option (List Char)

namespace Node

mutual

/-- Whether there is no mistake in a value. -/
def isWhole : Node → Bool
  | null => true
  | bool _ => true
  | number _ => true
  | string _ => true
  | array items whole => whole && areWhole items
  | object members whole => whole && membersAreWhole members
  | mistake => false

/-- Whether there is no mistake in any of the values. -/
def areWhole : List Node → Bool
  | [] => true
  | n :: rest => n.isWhole && areWhole rest

/-- Whether there is no mistake in any of the named values. -/
def membersAreWhole : List (Option String × Node) → Bool
  | [] => true
  | (_, n) :: rest => n.isWhole && membersAreWhole rest

end

end Node

/-! ## Tokens -/

/-- Skips white space. -/
def skipSpace (s : List Char) : List Char :=
  s.dropWhile fun c => c == ' ' || c == '\n' || c == '\t' || c == '\r'

/-- The value of a hexadecimal digit. -/
def hexValue? (c : Char) : Option Nat :=
  if c.isDigit then some (c.toNat - 48)
  else if 'a' ≤ c ∧ c ≤ 'f' then some (c.toNat - 87)
  else if 'A' ≤ c ∧ c ≤ 'F' then some (c.toNat - 55)
  else none

/-- Four hexadecimal digits. -/
def hex4? : List Char → Option (Nat × List Char)
  | a :: b :: c :: d :: rest => do
    return (((← hexValue? a) * 16 + (← hexValue? b)) * 256 +
      ((← hexValue? c) * 16 + (← hexValue? d)), rest)
  | _ => none

/-- One unit of a text: a character, or half of a pair of surrogates. -/
inductive CodeUnit where
  /-- A character. -/
  | char (c : Char)
  /-- Half of a pair, from an escape. -/
  | surrogate (n : Nat)

/-- The unit an escape stands for. -/
def escapedUnit (n : Nat) : CodeUnit :=
  if 0xD800 ≤ n ∧ n ≤ 0xDFFF then .surrogate n else .char (Char.ofNat n)

/-- The character an escape of one letter stands for. -/
def letterEscape? : Char → Option Char
  | '"' => some '"'
  | '\\' => some '\\'
  | '/' => some '/'
  | 'b' => some '\x08'
  | 'f' => some '\x0c'
  | 'n' => some '\n'
  | 'r' => some '\r'
  | 't' => some '\t'
  | _ => none

/-- The units of a text up to its closing quote, and the rest.  Each unit takes at least one
character, so the length of the text bounds their number. -/
def readUnits : (fuel : Nat) → List Char → Option (List CodeUnit × List Char)
  | 0, _ => none
  | _ + 1, [] => none
  | _ + 1, '"' :: rest => some ([], rest)
  | fuel + 1, '\\' :: 'u' :: rest => do
    let (n, rest) ← hex4? rest
    let (us, rest) ← readUnits fuel rest
    return (escapedUnit n :: us, rest)
  | fuel + 1, '\\' :: c :: rest => do
    let c ← letterEscape? c
    let (us, rest) ← readUnits fuel rest
    return (.char c :: us, rest)
  | fuel + 1, c :: rest => do
    if c.toNat < 0x20 ∨ c = '\\' then failure
    let (us, rest) ← readUnits fuel rest
    return (.char c :: us, rest)

/-- The characters that units stand for, if every surrogate has its partner. -/
def joinUnits : List CodeUnit → Option (List Char)
  | [] => some []
  | .char c :: rest => (joinUnits rest).map (c :: ·)
  | .surrogate hi :: .surrogate lo :: rest =>
    if hi < 0xDC00 ∧ 0xDC00 ≤ lo then
      (joinUnits rest).map (Char.ofNat (0x10000 + (hi - 0xD800) * 0x400 + (lo - 0xDC00)) :: ·)
    else none
  | .surrogate _ :: _ => none

/-- A text behind its opening quote. -/
def readString (s : List Char) : Option (Option String × List Char) :=
  (readUnits (s.length + 1) s).map fun (us, rest) => ((joinUnits us).map String.ofList, rest)

/-- The digits at the start of a text, at least one, and the rest. -/
def readDigits (s : List Char) : Option (List Char × List Char) :=
  let ds := s.takeWhile Char.isDigit
  if ds.isEmpty then none else some (ds, s.dropWhile Char.isDigit)

/-- The fraction of a number, if there is a point. -/
def readFraction : List Char → Option (Option (List Char) × List Char)
  | '.' :: rest => (readDigits rest).map fun (ds, rest) => (some ds, rest)
  | s => some (none, s)

/-- The exponent of a number, if there is a mark. -/
def readExponent (s : List Char) : Option (Option (Bool × List Char) × List Char) :=
  let behind := fun r => match r with
    | '-' :: r => (readDigits r).map fun (ds, rest) => (some (true, ds), rest)
    | '+' :: r => (readDigits r).map fun (ds, rest) => (some (false, ds), rest)
    | r => (readDigits r).map fun (ds, rest) => (some (false, ds), rest)
  match s with
  | 'e' :: r => behind r
  | 'E' :: r => behind r
  | s => some (none, s)

/-- A number behind its sign.  More than one digit does not start with a zero. -/
def readNumber (negative : Bool) (s : List Char) : Option (NumberToken × List Char) := do
  let (whole, rest) ← readDigits s
  if 1 < whole.length ∧ whole.head? = some '0' then failure
  let (fraction, rest) ← readFraction rest
  let (exponent, rest) ← readExponent rest
  return (⟨negative, whole, fraction, exponent⟩, rest)

/-! ## Values -/

/-- A value with the rest behind it, or a mistake. -/
def orMistake : Option (Node × List Char) → Node × Rest
  | some (n, rest) => (n, some rest)
  | none => (.mistake, none)

mutual

/-- A value.  Each level and each item takes at least one character, so the length of the text
bounds both. -/
def readValue : (fuel : Nat) → List Char → Node × Rest
  | 0, _ => (.mistake, none)
  | fuel + 1, s =>
    match skipSpace s with
    | 'n' :: 'u' :: 'l' :: 'l' :: rest => (.null, some rest)
    | 't' :: 'r' :: 'u' :: 'e' :: rest => (.bool true, some rest)
    | 'f' :: 'a' :: 'l' :: 's' :: 'e' :: rest => (.bool false, some rest)
    | '"' :: rest => orMistake ((readString rest).map fun (t, rest) => (.string t, rest))
    | '[' :: rest =>
      match skipSpace rest with
      | ']' :: rest => (.array [] true, some rest)
      | rest =>
        let (items, rest) := readItems fuel rest
        (.array items rest.isSome, rest)
    | '\x7b' :: rest =>
      match skipSpace rest with
      | '\x7d' :: rest => (.object [] true, some rest)
      | rest =>
        let (members, rest) := readMembers fuel rest
        (.object members rest.isSome, rest)
    | '-' :: rest =>
      orMistake ((readNumber true rest).map fun (t, rest) => (.number t, rest))
    | s =>
      orMistake ((readNumber false s).map fun (t, rest) => (.number t, rest))

/-- The items of an array up to its end. -/
def readItems : (fuel : Nat) → List Char → List Node × Rest
  | 0, _ => ([], none)
  | fuel + 1, s =>
    match readValue fuel s with
    | (v, none) => ([v], none)
    | (v, some rest) =>
      match skipSpace rest with
      | ',' :: rest =>
        let (vs, rest) := readItems fuel rest
        (v :: vs, rest)
      | ']' :: rest => ([v], some rest)
      | _ => ([v], none)

/-- The members of an object up to its end. -/
def readMembers : (fuel : Nat) → List Char → List (Option String × Node) × Rest
  | 0, _ => ([], none)
  | fuel + 1, s =>
    match skipSpace s with
    | '"' :: rest =>
      match readString rest with
      | none => ([], none)
      | some (k, rest) =>
        match skipSpace rest with
        | ':' :: rest =>
          match readValue fuel rest with
          | (v, none) => ([(k, v)], none)
          | (v, some rest) =>
            match skipSpace rest with
            | ',' :: rest =>
              let (ms, rest) := readMembers fuel rest
              ((k, v) :: ms, rest)
            | '\x7d' :: rest => ([(k, v)], some rest)
            | _ => ([(k, v)], none)
        | _ => ([(k, .mistake)], none)
    | _ => ([], none)

end

/-- The value at the start of a text, and the rest behind it. -/
def readNode (s : List Char) : Node × Rest := readValue (s.length + 1) s

end FundsTransfer.Json
