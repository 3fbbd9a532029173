import FundsTransfer.Text.Digits
import FundsTransfer.Yaml.Problem

/-!
# Scalars in a YAML text

A scalar is written plainly, in single or double quotes, or as a block of lines.  Over
several lines a plain or quoted scalar is folded: one line end becomes a space, and of
more than one the first is dropped.  A block keeps its line ends, if it is literal, and
folds them, if it is not, but not next to lines that start with a blank.  Its header
says how far it is indented, if not as its first line is, and what becomes of the line
ends at its end.

Every function yields the text of the scalar and the cursor behind it, or the problem
when the text breaks a rule.  All recursion is bounded by the length of the text.
-/

namespace FundsTransfer.Yaml

/-- How a scalar is written. -/
inductive Style where
  /-- Without quotes. -/
  | plain
  /-- In single or double quotes. -/
  | quoted
  /-- As a block that keeps its line ends. -/
  | literal
  /-- As a block that folds its line ends. -/
  | folded
deriving DecidableEq, Repr

/-! ## Blanks and line ends between words -/

/-- What stands between two words. -/
structure Gap where
  /-- The blanks before the first line end. -/
  blanks : List Char
  /-- Whether a line ended. -/
  broken : Bool
  /-- What the first line end stands for. -/
  first : Option Char
  /-- What the other line ends stand for. -/
  others : List Char

/-- What a gap becomes in the scalar. -/
def Gap.fold (g : Gap) : List Char :=
  if !g.broken then g.blanks
  else
    match g.first with
    | some '\n' => if g.others.isEmpty then [' '] else g.others
    | some c => c :: g.others
    | none => g.others

/-- Reads the gap at a cursor.  `indent` is the column before which no tab may stand on a further
line. -/
def readGap (indent : Nat) (context : Option Context) :
    (fuel : Nat) → Gap → Cursor → Except Problem (Gap × Cursor)
  | 0, g, c => .ok (g, c)
  | fuel + 1, g, c =>
    match c.peek with
    | some ch =>
      if isBlank ch then
        if g.broken && ch == '\t' && c.mark.column < indent then stopAt c .tabInPlain context
        else readGap indent context fuel
          (if g.broken then g else { g with blanks := g.blanks ++ [ch] }) (c.skip 1)
      else if isBreak ch then
        let (b, c) := c.skipLine
        readGap indent context fuel
          (if g.broken then { g with others := g.others ++ b.toList }
            else { g with blanks := [], broken := true, first := b }) c
      else .ok (g, c)
    | none => .ok (g, c)

/-- The gap before anything was read. -/
def noGap : Gap := ⟨[], false, none, []⟩

/-! ## Plain scalars -/

/-- A character that ends a plain scalar between brackets. -/
def isFlowMark (c : Char) : Bool :=
  c == ',' || c == '[' || c == ']' || c == '\x7b' || c == '\x7d'

/-- Reads a word of a plain scalar.  `flow` says whether it stands between brackets. -/
def readWord (flow : Bool) (context : Option Context) :
    (fuel : Nat) → Cursor → Except Problem (List Char × Cursor)
  | 0, c => .ok ([], c)
  | fuel + 1, c =>
    match c.peek with
    | none => .ok ([], c)
    | some ch =>
      if endsWord (some ch) then .ok ([], c)
      else if flow && ch == ':' && (c.peekAt 1).any (fun d => isFlowMark d || d == '?') then
        stopAt c .strayColon context
      else if (ch == ':' && endsWord (c.peekAt 1)) || (flow && isFlowMark ch) then .ok ([], c)
      else do
        let (w, c) ← readWord flow context fuel (c.skip 1)
        return (ch :: w, c)

/-- Reads the words of a plain scalar behind a gap.  `indent` is the least column of its further
lines.  Yields the text, the cursor behind it, and whether a line ended at its end. -/
def readWords (flow : Bool) (indent : Nat) (context : Option Context) :
    (fuel : Nat) → List Char → Gap → Cursor → Except Problem (List Char × Cursor × Bool)
  | 0, text, gap, c => .ok (text, c, gap.broken)
  | fuel + 1, text, gap, c => do
    if c.atDocumentMark || c.peek == some '#' then return (text, c, gap.broken)
    let (word, after) ← readWord flow context (c.rest.length + 1) c
    if word.isEmpty then return (text, c, gap.broken)
    let text := text ++ gap.fold ++ word
    let (gap, c) ← readGap indent context (after.rest.length + 1) noGap after
    if c.mark.index == after.mark.index then return (text, c, false)
    if !flow && c.mark.column < indent then return (text, c, gap.broken)
    readWords flow indent context fuel text gap c

/-- Reads a plain scalar.  Yields also whether a line ended at its end. -/
def readPlain (flow : Bool) (indent : Nat) (c : Cursor) :
    Except Problem (List Char × Cursor × Bool) :=
  readWords flow indent (c.during .plainScalar) (c.rest.length + 1) [] noGap c

/-! ## Quoted scalars -/

/-- The character an escape of one letter stands for. -/
def letterEscape? : Char → Option Char
  | '0' => some '\x00'
  | 'a' => some '\x07'
  | 'b' => some '\x08'
  | 't' => some '\t'
  | '\t' => some '\t'
  | 'n' => some '\n'
  | 'v' => some '\x0b'
  | 'f' => some '\x0c'
  | 'r' => some '\r'
  | 'e' => some '\x1b'
  | ' ' => some ' '
  | '"' => some '"'
  | '/' => some '/'
  | '\\' => some '\\'
  | 'N' => some '\x85'
  | '_' => some '\xa0'
  | 'L' => some '\u2028'
  | 'P' => some '\u2029'
  | _ => none

/-- The value of a hexadecimal digit. -/
def hexValue? (c : Char) : Option Nat :=
  if c.isDigit then some (c.toNat - 48)
  else if 'a' ≤ c ∧ c ≤ 'f' then some (c.toNat - 87)
  else if 'A' ≤ c ∧ c ≤ 'F' then some (c.toNat - 55)
  else none

/-- The number that hexadecimal digits spell. -/
def hexNumber? (ds : List Char) : Option Nat :=
  ds.foldlM (fun n d => (hexValue? d).map (n * 16 + ·)) 0

/-- The digits an escape of a code point has. -/
def escapeWidth? : Char → Option Nat
  | 'x' => some 2
  | 'u' => some 4
  | 'U' => some 8
  | _ => none

/-- The character of an escape at its backslash, and the characters that spell it. -/
def readEscape (c : Cursor) (context : Option Context) : Except Problem (Char × Nat) := do
  let letter := (c.peekAt 1).getD '\x00'
  match escapeWidth? letter with
  | none =>
    match letterEscape? letter with
    | some e => return (e, 2)
    | none => stopAt c .unknownEscape context
  | some width =>
    let ds := (c.rest.drop 2).take width
    match hexNumber? ds with
    | some n =>
      if ds.length < width then stopAt (c.skip 2) .noHexDigit context
      if (0xD800 ≤ n ∧ n ≤ 0xDFFF) ∨ 0x10FFFF < n then stopAt (c.skip 2) .invalidCode context
      return (Char.ofNat n, width + 2)
    | none => stopAt (c.skip 2) .noHexDigit context

/-- Reads a run of characters between quotes, up to a blank, a line end or the closing quote.
Yields also whether the run ends in an escaped line end. -/
def readQuotedRun (double : Bool) (start : Mark) :
    (fuel : Nat) → Cursor → Except Problem (List Char × Cursor × Bool)
  | 0, c => .ok ([], c, false)
  | fuel + 1, c =>
    match c.peek with
    | none => .ok ([], c, false)
    | some ch =>
      if endsWord (some ch) then .ok ([], c, false)
      else if !double && ch == '\'' && c.peekAt 1 == some '\'' then do
        let (w, c, escaped) ← readQuotedRun double start fuel (c.skip 2)
        return ('\'' :: w, c, escaped)
      else if ch == (if double then '"' else '\'') then .ok ([], c, false)
      else if double && ch == '\\' then
        if (c.peekAt 1).any isBreak then .ok ([], (c.skip 1).skipLine.2, true)
        else do
          let (e, n) ← readEscape c (some ⟨.quotedEscape, start⟩)
          let (w, c, escaped) ← readQuotedRun double start fuel (c.skip n)
          return (e :: w, c, escaped)
      else do
        let (w, c, escaped) ← readQuotedRun double start fuel (c.skip 1)
        return (ch :: w, c, escaped)

/-- Reads the runs of a quoted scalar that began at a mark. -/
def readQuotedRuns (double : Bool) (start : Mark) :
    (fuel : Nat) → List Char → Cursor → Except Problem (List Char × Cursor)
  | 0, text, c => .ok (text, c)
  | fuel + 1, text, c => do
    let context := some ⟨.quotedScalar, start⟩
    if c.atDocumentMark then stopAt c .documentMark context
    if c.peek.isNone then stopAt c .textEnds context
    let (run, c, escaped) ← readQuotedRun double start (c.rest.length + 1) c
    let text := text ++ run
    if !escaped && c.peek == some (if double then '"' else '\'') then return (text, c.skip 1)
    let (gap, after) ← readGap 0 context (c.rest.length + 1) { noGap with broken := escaped } c
    readQuotedRuns double start fuel (text ++ gap.fold) after

/-- Reads a quoted scalar at its opening quote. -/
def readQuoted (double : Bool) (c : Cursor) : Except Problem (List Char × Cursor) :=
  readQuotedRuns double c.mark (c.rest.length + 1) [] (c.skip 1)

/-! ## Blocks -/

/-- What becomes of the line ends at the end of a block. -/
inductive Chomp where
  /-- All go. -/
  | strip
  /-- One stays. -/
  | clip
  /-- All stay. -/
  | keep
deriving DecidableEq

/-- The mark of a way to end a block. -/
def chompMark? : Option Char → Option Chomp
  | some '+' => some .keep
  | some '-' => some .strip
  | _ => none

/-- The digit of an indentation.  Zero is none. -/
def indentDigit? (c : Option Char) : Option (Option Nat) :=
  match c with
  | some d => if d.isDigit then some (if d == '0' then none else some (Text.digitValue d)) else none
  | none => none

/-- Reads the header of a block behind its first character: how it ends, and by how much it is
indented, if it says so. -/
def readHeader (c : Cursor) (context : Option Context) :
    Except Problem (Chomp × Option Nat × Cursor) :=
  match chompMark? c.peek with
  | some chomp =>
    match indentDigit? (c.peekAt 1) with
    | some none => stopAt (c.skip 1) .indentedByZero context
    | some (some n) => .ok (chomp, some n, c.skip 2)
    | none => .ok (chomp, none, c.skip 1)
  | none =>
    match indentDigit? c.peek with
    | some none => stopAt c .indentedByZero context
    | some (some n) =>
      match chompMark? (c.peekAt 1) with
      | some chomp => .ok (chomp, some n, c.skip 2)
      | none => .ok (.clip, some n, c.skip 1)
    | none => .ok (.clip, none, c)

/-- Moves over the rest of a line that holds nothing but blanks and a comment. -/
def skipRestOfLine (c : Cursor) (context : Option Context) : Except Problem Cursor :=
  let c := c.skipWhile isBlank
  let c := if c.peek == some '#' then c.skipWhile (!isBreak ·) else c
  if endsLine c.peek then .ok c.skipLine.2 else stopAt c .noLineEnd context

/-- Moves over the indentation and the empty lines before a line of a block.  `indent` is the
indentation, if it is known.  Yields the empty lines' ends and the largest column seen. -/
def readEmptyLines (indent : Option Nat) (context : Option Context) :
    (fuel : Nat) → List Char → Nat → Cursor → Except Problem (List Char × Nat × Cursor)
  | 0, ends, widest, c => .ok (ends, widest, c)
  | fuel + 1, ends, widest, c =>
    let spaces := (c.rest.takeWhile (· == ' ')).length
    let c := c.skip (match indent with
      | some n => min spaces (n - c.mark.column)
      | none => spaces)
    let widest := max widest c.mark.column
    if c.peek == some '\t' && indent.all (c.mark.column < ·) then stopAt c .tabIndents context
    else if c.peek.any isBreak then
      let (b, c) := c.skipLine
      readEmptyLines indent context fuel (ends ++ b.toList) widest c
    else .ok (ends, widest, c)

/-- The line ends between two lines of a block that folds, or of one that does not. -/
def joinLines (literal leadingBlank trailingBlank : Bool) (last : Option Char)
    (ends : List Char) : List Char :=
  if !literal && last == some '\n' && !leadingBlank && !trailingBlank then
    if ends.isEmpty then [' '] else ends
  else last.toList ++ ends

/-- Reads the lines of a block of an indentation.  `last` and `ends` are the line ends since the
last line, and `blank` says whether that line started with a blank. -/
def readLines (literal : Bool) (chomp : Chomp) (indent : Nat) (context : Option Context) :
    (fuel : Nat) → List Char → Option Char → List Char → Bool → Cursor →
      Except Problem (List Char × Cursor)
  | 0, text, _, _, _, c => .ok (text, c)
  | fuel + 1, text, last, ends, blank, c => do
    if c.mark.column == indent && c.peek.isSome then
      let startsBlank := c.peek.any isBlank
      let line := c.rest.takeWhile (!isBreak ·)
      let text := text ++ joinLines literal blank startsBlank last ends ++ line
      let (b, after) := (c.skip line.length).skipLine
      let (ends, _, after) ←
        readEmptyLines (some indent) context (after.rest.length + 1) [] 0 after
      readLines literal chomp indent context fuel text b ends startsBlank after
    else
      return (text ++ (match chomp with
        | .strip => []
        | .clip => last.toList
        | .keep => last.toList ++ ends), c)

/-- Reads a block at its first character.  `parent` is the indentation around it, if any. -/
def readBlock (literal : Bool) (parent : Option Nat) (c : Cursor) :
    Except Problem (List Char × Cursor) := do
  let context := c.during .blockScalar
  let (chomp, increment, c) ← readHeader (c.skip 1) context
  let c ← skipRestOfLine c context
  let known := increment.map fun n => parent.getD 0 + n
  let (ends, widest, c) ← readEmptyLines known context (c.rest.length + 1) [] 0 c
  let least := match parent with
    | some p => p + 1
    | none => 1
  let indent := known.getD (max widest least)
  readLines literal chomp indent context (c.rest.length + 1) [] none ends false c

end FundsTransfer.Yaml
