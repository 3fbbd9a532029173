/-!
# A place in a YAML text

A cursor is the rest of a text with the line and the column where it starts.  A line
ends at a line feed, a carriage return, both together, or one of the three separators
that Unicode adds.  The two common forms and the next-line character count as one line
feed; the line and paragraph separators stay what they are.
-/

namespace FundsTransfer.Yaml

/-- A position in a text, counted from zero. -/
structure Mark where
  /-- The characters before it. -/
  index : Nat
  /-- The line. -/
  line : Nat
  /-- The column. -/
  column : Nat
deriving DecidableEq, Repr, Inhabited

/-- The rest of a text and where it starts. -/
structure Cursor where
  /-- The rest. -/
  rest : List Char
  /-- Where it starts. -/
  mark : Mark
deriving Inhabited

/-- A space or a tab. -/
def isBlank (c : Char) : Bool := c == ' ' || c == '\t'

/-- A character that ends a line. -/
def isBreak (c : Char) : Bool :=
  c == '\n' || c == '\r' || c == '\x85' || c == '\u2028' || c == '\u2029'

/-- Whether a character or the end of the text is blank or ends a line. -/
def endsWord : Option Char → Bool
  | some c => isBlank c || isBreak c
  | none => true

/-- Whether a character or the end of the text ends a line. -/
def endsLine : Option Char → Bool
  | some c => isBreak c
  | none => true

/-- A character that a text may hold. -/
def isAllowed (c : Char) : Bool :=
  let n := c.toNat
  n == 9 || n == 10 || n == 13 || (0x20 ≤ n && n ≤ 0x7E) || n == 0x85 ||
    (0xA0 ≤ n && n ≤ 0xD7FF) || (0xE000 ≤ n && n ≤ 0xFFFD) || 0x10000 ≤ n

namespace Cursor

/-- A text from its start. -/
def start (s : List Char) : Cursor := ⟨s, ⟨0, 0, 0⟩⟩

/-- The next character. -/
def peek (c : Cursor) : Option Char := c.rest.head?

/-- The character after a number of others. -/
def peekAt (c : Cursor) (n : Nat) : Option Char := c.rest[n]?

/-- Moves over a number of characters within a line. -/
def skip (c : Cursor) (n : Nat) : Cursor :=
  ⟨c.rest.drop n, { c.mark with index := c.mark.index + n, column := c.mark.column + n }⟩

/-- Moves over the end of a line, and yields what it stands for. -/
def skipLine (c : Cursor) : Option Char × Cursor :=
  let next (n : Nat) : Cursor := ⟨c.rest.drop n, ⟨c.mark.index + n, c.mark.line + 1, 0⟩⟩
  match c.rest with
  | '\r' :: '\n' :: _ => (some '\n', next 2)
  | '\n' :: _ => (some '\n', next 1)
  | '\r' :: _ => (some '\n', next 1)
  | '\x85' :: _ => (some '\n', next 1)
  | '\u2028' :: _ => (some '\u2028', next 1)
  | '\u2029' :: _ => (some '\u2029', next 1)
  | _ => (none, c)

/-- Moves over the characters that fulfil a condition, within a line. -/
def skipWhile (c : Cursor) (p : Char → Bool) : Cursor := c.skip (c.rest.takeWhile p).length

/-- Whether the text starts a line here with three dashes or three points that stand alone. -/
def atDocumentMark (c : Cursor) : Bool :=
  c.mark.column == 0 && endsWord (c.peekAt 3) &&
    (c.rest.take 3 == ['-', '-', '-'] || c.rest.take 3 == ['.', '.', '.'])

end Cursor

end FundsTransfer.Yaml
