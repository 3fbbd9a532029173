import FundsTransfer.Yaml.Scalar

/-!
# The tokens of a YAML text

A token is a mark of structure, a property, or a scalar.  Where a line of a block is
further in than the block around it, a token says that a new block starts, and where it
is less far in, a token ends each block that it leaves.

What starts like a value may turn out to be a key, once its colon is met.  The token
that says so belongs before it.  So a token is handed out only when no later colon can
still put something before it.  When a mistake is met, the tokens handed out up to then
are those that a reader gets to see.
-/

namespace FundsTransfer.Yaml

/-- A scalar with the tag it was given, if any. -/
structure Scalar where
  /-- The text. -/
  text : String
  /-- How it is written. -/
  style : Style
  /-- The tag. -/
  tag : Option String
deriving DecidableEq, Repr

/-- What a token stands for. -/
inductive TokenKind where
  /-- The end of the text. -/
  | textEnd
  /-- The version of the rules the text goes by. -/
  | version (major minor : Nat)
  /-- What a handle of tags stands for. -/
  | handle (handle stem : String)
  /-- A document starts. -/
  | documentStart
  /-- A document ends. -/
  | documentEnd
  /-- A list in a block starts. -/
  | blockSequence
  /-- Named values in a block start. -/
  | blockMapping
  /-- A block ends. -/
  | blockEnd
  /-- An opening bracket. -/
  | flowSequence
  /-- A closing bracket. -/
  | flowSequenceEnd
  /-- An opening brace. -/
  | flowMapping
  /-- A closing brace. -/
  | flowMappingEnd
  /-- A dash before an item. -/
  | item
  /-- A comma. -/
  | comma
  /-- A key follows. -/
  | key
  /-- The value of a key follows. -/
  | value
  /-- A reference to an anchor. -/
  | reference (name : String)
  /-- An anchor. -/
  | anchor (name : String)
  /-- A tag with its handle, if it has one, and its name. -/
  | tag (handle : Option String) (name : String)
  /-- A scalar. -/
  | scalar (text : String) (style : Style)
deriving DecidableEq, Repr

/-- A token and where it stands. -/
structure Token where
  /-- What it stands for. -/
  kind : TokenKind
  /-- Where it starts. -/
  start : Mark
  /-- Where it ends. -/
  stop : Mark
deriving Repr

/-- Something that may turn out to be a key. -/
structure KeyCandidate where
  /-- Whether it cannot be anything else. -/
  required : Bool
  /-- The number of its token. -/
  number : Nat
  /-- Where it starts. -/
  mark : Mark

/-- How far a text is read into tokens. -/
structure Scan where
  /-- The rest of the text. -/
  cursor : Cursor
  /-- The tokens so far. -/
  tokens : List Token
  /-- Whether the end of the text is among them. -/
  ended : Bool
  /-- Whether a key could start here. -/
  keyAllowed : Bool
  /-- The candidates for a key, one place for each bracket that is open, innermost first. -/
  candidates : List (Option KeyCandidate)
  /-- The indentation of the block, if there is one. -/
  indent : Option Nat
  /-- The indentations around it. -/
  outer : List (Option Nat)

namespace Scan

/-- A text that is not read yet. -/
def start (s : List Char) : Scan := ⟨.start s, [], false, true, [none], none, []⟩

/-- Where reading is. -/
def mark (s : Scan) : Mark := s.cursor.mark

/-- Whether reading is between brackets. -/
def inFlow (s : Scan) : Bool := 1 < s.candidates.length

/-- Stops because of a mistake at the place where reading is. -/
def stop {α : Type} (s : Scan) (what : Mistake) (context : Option Context) : Except Problem α :=
  stopAt s.cursor what context

/-- The scan with one more token. -/
def push (s : Scan) (t : Token) : Scan := { s with tokens := s.tokens ++ [t] }

/-- The scan with a token put before the one of a number. -/
def pushAt (s : Scan) (number : Nat) (t : Token) : Scan :=
  { s with tokens := s.tokens.take number ++ t :: s.tokens.drop number }

/-- The scan with a token of no width where reading is. -/
def pushHere (s : Scan) (kind : TokenKind) : Scan := s.push ⟨kind, s.mark, s.mark⟩

/-- The scan with the token of the next characters. -/
def pushChars (s : Scan) (kind : TokenKind) (n : Nat) : Scan :=
  let after := s.cursor.skip n
  { s with cursor := after }.push ⟨kind, s.mark, after.mark⟩

/-! ## Candidates for keys -/

/-- The candidate where reading is. -/
def candidate? (s : Scan) : Option KeyCandidate := s.candidates.head?.join

/-- The scan with another candidate where reading is. -/
def setCandidate (s : Scan) (k : Option KeyCandidate) : Scan :=
  { s with candidates := k :: s.candidates.drop 1 }

/-- The problem of a candidate that had to be a key and is none. -/
def KeyCandidate.problem (k : KeyCandidate) (s : Scan) : Problem :=
  .mistaken .noColon s.mark (some ⟨.simpleKey, k.mark⟩)

/-- Whether a candidate is too far away to be a key. -/
def isStale (s : Scan) (k : KeyCandidate) : Bool :=
  k.mark.line < s.mark.line || k.mark.index + 1024 < s.mark.index

/-- Gives up a candidate, unless it had to be a key. -/
def giveUp (s : Scan) (k : KeyCandidate) : Except Problem (Option KeyCandidate) :=
  if k.required then .error (KeyCandidate.problem k s) else .ok none

/-- Gives up the candidates that are too far away. -/
def dropStale (s : Scan) : Except Problem Scan := do
  let candidates ← s.candidates.mapM fun k =>
    match k with
    | some k => if s.isStale k then s.giveUp k else .ok (some k)
    | none => .ok none
  return { s with candidates }

/-- Gives up the candidate where reading is. -/
def dropCandidate (s : Scan) : Except Problem Scan :=
  match s.candidate? with
  | some k => (s.giveUp k).map s.setCandidate
  | none => .ok s

/-- Makes the next token a candidate, where a key may start. -/
def saveCandidate (s : Scan) : Except Problem Scan := do
  if !s.keyAllowed then return s
  let s ← s.dropCandidate
  let required := !s.inFlow && s.indent == some s.mark.column
  return s.setCandidate (some ⟨required, s.tokens.length, s.mark⟩)

/-! ## Blocks -/

/-- Starts a block at a column, if it is further in than the block around it.  The token goes before
the one of a number, or to the end. -/
def openBlock (s : Scan) (column : Nat) (kind : TokenKind) (number : Option Nat) (mark : Mark) :
    Scan :=
  if s.inFlow || s.indent.any (column ≤ ·) then s
  else
    let s := { s with indent := some column, outer := s.indent :: s.outer }
    let token : Token := ⟨kind, mark, mark⟩
    match number with
    | some n => s.pushAt n token
    | none => s.push token

/-- Ends the blocks that are further in than a column, or all.  `outer` are the indentations around
the block. -/
def closeBlocksFrom (s : Scan) (column : Option Nat) : (outer : List (Option Nat)) → Scan
  | [] => s
  | i :: outer =>
    let isInside := match s.indent, column with
      | some n, some m => decide (m < n)
      | some _, none => true
      | none, _ => false
    if isInside then
      closeBlocksFrom { s.pushHere .blockEnd with indent := i, outer := outer } column outer
    else s

/-- Ends the blocks that are further in than a column, or all. -/
def closeBlocks (s : Scan) (column : Option Nat) : Scan :=
  if s.inFlow then s else s.closeBlocksFrom column s.outer

/-! ## Between tokens -/

/-- Moves over blanks, comments and line ends. -/
def skipGap (s : Scan) : (fuel : Nat) → Scan
  | 0 => s
  | fuel + 1 =>
    let c := if s.mark.index == 0 && s.cursor.peek == some '\ufeff' then s.cursor.skip 1
      else s.cursor
    let c := c.skipWhile fun ch =>
      ch == ' ' || ((s.inFlow || !s.keyAllowed) && ch == '\t')
    let c := if c.peek == some '#' then c.skipWhile (!isBreak ·) else c
    if c.peek.any isBreak then
      skipGap { s with cursor := c.skipLine.2, keyAllowed := s.keyAllowed || !s.inFlow } fuel
    else { s with cursor := c }

/-! ## Directives, anchors and tags -/

/-- A character of a name. -/
def isNameChar (c : Char) : Bool := c.isAlphanum || c == '_' || c == '-'

/-- The name at a cursor, and the cursor behind it. -/
def readName (c : Cursor) : String × Cursor :=
  (String.ofList (c.rest.takeWhile isNameChar), c.skipWhile isNameChar)

/-- A character of the name in a tag. -/
def isTagChar (plainOnly : Bool) (c : Char) : Bool :=
  isNameChar c || ";/?:@&=+$.%!~*'()".toList.contains c ||
    (!plainOnly && (c == ',' || c == '[' || c == ']'))

/-- The value of an escape of two digits at a cursor. -/
def readOctet (c : Cursor) (context : Option Context) : Except Problem Nat :=
  match c.rest with
  | '%' :: a :: b :: _ =>
    match hexNumber? [a, b] with
    | some n => .ok n
    | none => stopAt c .noOctet context
  | _ => stopAt c .noOctet context

/-- The number of octets a character has that starts with one, and the bits that one holds. -/
def leadingOctet? (n : Nat) : Option (Nat × Nat) :=
  if n < 0x80 then some (1, n)
  else if 0xC0 ≤ n ∧ n < 0xE0 then some (2, n - 0xC0)
  else if 0xE0 ≤ n ∧ n < 0xF0 then some (3, n - 0xE0)
  else if 0xF0 ≤ n ∧ n < 0xF8 then some (4, n - 0xF0)
  else none

/-- The octets of a character after its first, as a number of bits joined to those before. -/
def readTrailing (context : Option Context) :
    (count : Nat) → Nat → Cursor → Except Problem (Nat × Cursor)
  | 0, bits, c => .ok (bits, c)
  | count + 1, bits, c => do
    let n ← readOctet c context
    if n < 0x80 ∨ 0xC0 ≤ n then stopAt c .trailingOctet context
    readTrailing context count (bits * 64 + (n - 0x80)) (c.skip 3)

/-- The character that escapes in a tag spell. -/
def readTagEscape (c : Cursor) (context : Option Context) : Except Problem (Char × Cursor) := do
  let n ← readOctet c context
  match leadingOctet? n with
  | none => stopAt c .leadingOctet context
  | some (width, bits) =>
    let (code, c) ← readTrailing context (width - 1) bits (c.skip 3)
    return (Char.ofNat code, c)

/-- The characters of the name in a tag. -/
def readTagChars (plainOnly : Bool) (context : Option Context) :
    (fuel : Nat) → Cursor → Except Problem (List Char × Cursor)
  | 0, c => .ok ([], c)
  | fuel + 1, c =>
    match c.peek with
    | none => .ok ([], c)
    | some ch =>
      if !isTagChar plainOnly ch then .ok ([], c)
      else do
        let (ch, c) ← if ch == '%' then readTagEscape c context else .ok (ch, c.skip 1)
        let (rest, c) ← readTagChars plainOnly context fuel c
        return (ch :: rest, c)

/-- The name in a tag, behind what was already read of it. -/
def readTagName (plainOnly : Bool) (before : List Char) (context : Option Context) (c : Cursor) :
    Except Problem (String × Cursor) := do
  let (name, after) ← readTagChars plainOnly context (c.rest.length + 1) c
  if before.isEmpty && name.isEmpty then stopAt after .noTagName context
  return (String.ofList (before.drop 1 ++ name), after)

/-- The handle of a tag: an exclamation mark, a name, and perhaps another exclamation mark. -/
def readHandle (context : Option Context) (c : Cursor) : Except Problem (List Char × Cursor) := do
  if c.peek != some '!' then stopAt c .noTagMark context
  let (name, after) := readName (c.skip 1)
  if after.peek == some '!' then return ('!' :: name.toList ++ ['!'], after.skip 1)
  return ('!' :: name.toList, after)

/-- A tag between angle brackets. -/
def readVerbatimTag (c : Cursor) : Except Problem (TokenKind × Cursor) := do
  let (name, after) ← readTagName false [] (c.during .tagName) (c.skip 2)
  if after.peek != some '>' then stopAt after .noTagEnd (c.during .tag)
  return (.tag none name, after.skip 1)

/-- A tag with a handle, or the mark that stands alone. -/
def readHandledTag (c : Cursor) : Except Problem (TokenKind × Cursor) := do
  let context := c.during .tagName
  let (handle, after) ← readHandle (c.during .tag) c
  if 2 ≤ handle.length && handle.getLast? == some '!' then
    let (name, after) ← readTagName true [] context after
    return (.tag (some (String.ofList handle)) name, after)
  let (name, after) ← readTagName true handle context after
  if name.isEmpty then return (.tag none "!", after)
  return (.tag (some "!") name, after)

/-- A tag.  A blank or a line end has to follow, or between brackets a comma. -/
def readTag (flow : Bool) (c : Cursor) : Except Problem (TokenKind × Cursor) := do
  let (kind, after) ← if c.peekAt 1 == some '<' then readVerbatimTag c else readHandledTag c
  if !(endsWord after.peek || (flow && after.peek == some ',')) then
    stopAt after .noBlankOrLineEnd (c.during .tag)
  return (kind, after)

/-- An anchor or a reference to one. -/
def readAnchor (isReference : Bool) (c : Cursor) : Except Problem (TokenKind × Cursor) := do
  let (name, after) := readName (c.skip 1)
  let ends := endsWord after.peek || after.peek.any "?:,]\x7d%@`".toList.contains
  if name.isEmpty || !ends then
    stopAt after .noName (c.during (if isReference then .reference else .anchor))
  return (if isReference then .reference name else .anchor name, after)

/-- A number of a version. -/
def readVersionNumber (context : Option Context) (c : Cursor) : Except Problem (Nat × Cursor) := do
  let ds := c.rest.takeWhile Char.isDigit
  if 9 < ds.length then stopAt (c.skip 9) .longVersion context
  if ds.isEmpty then stopAt c .noVersion context
  return (Text.digitsValue ds, c.skip ds.length)

/-- The version behind the name of its directive. -/
def readVersion (context : Option Context) (c : Cursor) : Except Problem (TokenKind × Cursor) := do
  let (major, c) ← readVersionNumber context (c.skipWhile isBlank)
  if c.peek != some '.' then stopAt c .noPoint context
  let (minor, c) ← readVersionNumber context (c.skip 1)
  return (.version major minor, c)

/-- The handle and its meaning behind the name of their directive. -/
def readTagDirective (start : Cursor) (c : Cursor) : Except Problem (TokenKind × Cursor) := do
  let context := start.during .tagDirective
  let (handle, c) ← readHandle (start.during .handleStart) (c.skipWhile isBlank)
  if handle.getLast? != some '!' then stopAt c .noTagMark (start.during .handle)
  if !c.peek.any isBlank then stopAt c .noBlank context
  let (stem, c) ← readTagName false [] (start.during .handleStem) (c.skipWhile isBlank)
  if !endsWord c.peek then stopAt c .noBlankOrLineEnd context
  return (.handle (String.ofList handle) stem, c)

/-- A directive, with the rest of its line. -/
def readDirective (start : Cursor) : Except Problem (Token × Cursor) := do
  let context := start.during .directive
  let (name, c) := readName (start.skip 1)
  if name.isEmpty then stopAt c .noDirectiveName context
  if !endsWord c.peek then stopAt c .directiveNameGoesOn context
  let (kind, c) ←
    match name with
    | "YAML" => readVersion (start.during .versionDirective) c
    | "TAG" => readTagDirective start c
    | _ => stopAt c .unknownDirective context
  let after ← skipRestOfLine c context
  return (⟨kind, start.mark, c.mark⟩, after)

/-! ## One step -/

/-- Ends the text. -/
def readTextEnd (s : Scan) : Except Problem Scan := do
  let mark := if s.mark.column == 0 then s.mark else ⟨s.mark.index, s.mark.line + 1, 0⟩
  let s ← ({ s with cursor := ⟨[], mark⟩ }.closeBlocks none).dropCandidate
  return { s.pushHere .textEnd with keyAllowed := false, ended := true }

/-- Reads a directive. -/
def readDirectiveLine (s : Scan) : Except Problem Scan := do
  let s ← (s.closeBlocks none).dropCandidate
  let (token, after) ← readDirective s.cursor
  return { s with cursor := after, keyAllowed := false }.push token

/-- Reads the three characters that start or end a document. -/
def readDocumentMark (s : Scan) (kind : TokenKind) : Except Problem Scan := do
  let s ← (s.closeBlocks none).dropCandidate
  return { s with keyAllowed := false }.pushChars kind 3

/-- Reads an opening bracket or brace. -/
def readOpening (s : Scan) (kind : TokenKind) : Except Problem Scan := do
  let s ← s.saveCandidate
  return { s with candidates := none :: s.candidates, keyAllowed := true }.pushChars kind 1

/-- Reads a closing bracket or brace. -/
def readClosing (s : Scan) (kind : TokenKind) : Except Problem Scan := do
  let s ← s.dropCandidate
  let candidates := if s.inFlow then s.candidates.drop 1 else s.candidates
  return { s with candidates, keyAllowed := false }.pushChars kind 1

/-- Reads a comma. -/
def readComma (s : Scan) : Except Problem Scan := do
  let s ← s.dropCandidate
  return { s with keyAllowed := true }.pushChars .comma 1

/-- Starts a block where reading is, if there has to be one for what follows. -/
def needBlock (s : Scan) (kind : TokenKind) (mistake : Mistake) : Except Problem Scan :=
  if s.inFlow then .ok s
  else if !s.keyAllowed then s.stop mistake none
  else .ok (s.openBlock s.mark.column kind none s.mark)

/-- Reads a dash before an item. -/
def readItem (s : Scan) : Except Problem Scan := do
  let s ← (← s.needBlock .blockSequence .itemNotAllowed).dropCandidate
  return { s with keyAllowed := true }.pushChars .item 1

/-- Reads a question mark before a key. -/
def readKey (s : Scan) : Except Problem Scan := do
  let s ← (← s.needBlock .blockMapping .keyNotAllowed).dropCandidate
  return { s with keyAllowed := !s.inFlow }.pushChars .key 1

/-- Reads a colon before a value.  It makes the candidate a key. -/
def readValue (s : Scan) : Except Problem Scan :=
  match s.candidate? with
  | some k =>
    let s := (s.pushAt k.number ⟨.key, k.mark, k.mark⟩).openBlock k.mark.column .blockMapping
      (some k.number) k.mark
    .ok ({ s.setCandidate none with keyAllowed := false }.pushChars .value 1)
  | none => do
    let s ← s.needBlock .blockMapping .valueNotAllowed
    return { s with keyAllowed := !s.inFlow }.pushChars .value 1

/-- Reads an anchor, a reference or a tag. -/
def readProperty (s : Scan) (read : Cursor → Except Problem (TokenKind × Cursor)) :
    Except Problem Scan := do
  let s ← s.saveCandidate
  let (kind, after) ← read s.cursor
  return { s with cursor := after, keyAllowed := false }.push ⟨kind, s.mark, after.mark⟩

/-- Reads a block of lines. -/
def readBlockScalar (s : Scan) (literal : Bool) : Except Problem Scan := do
  let s ← s.dropCandidate
  let (text, after) ← readBlock literal s.indent s.cursor
  let kind : TokenKind := .scalar (String.ofList text) (if literal then .literal else .folded)
  return { s with cursor := after, keyAllowed := true }.push ⟨kind, s.mark, after.mark⟩

/-- Reads a scalar in quotes. -/
def readQuotedScalar (s : Scan) (double : Bool) : Except Problem Scan := do
  let s ← s.saveCandidate
  let (text, after) ← readQuoted double s.cursor
  return { s with cursor := after, keyAllowed := false }.push
    ⟨.scalar (String.ofList text) .quoted, s.mark, after.mark⟩

/-- Reads a plain scalar. -/
def readPlainScalar (s : Scan) : Except Problem Scan := do
  let s ← s.saveCandidate
  let least := match s.indent with
    | some n => n + 1
    | none => 0
  let (text, after, lineEnded) ← readPlain s.inFlow least s.cursor
  return { s with cursor := after, keyAllowed := lineEnded }.push
    ⟨.scalar (String.ofList text) .plain, s.mark, after.mark⟩

/-- A character that does not start a plain scalar. -/
def isIndicator (c : Char) : Bool :=
  "-?:,[]\x7b\x7d#&*!|>'\"%@`".toList.contains c

/-- Whether a plain scalar starts with a character that has another one behind it. -/
def startsPlain (flow : Bool) (c : Char) (next : Option Char) : Bool :=
  !(endsWord (some c) || isIndicator c) || (c == '-' && !next.any isBlank) ||
    (!flow && (c == '?' || c == ':') && !endsWord next)

/-- Reads the token of a character that has another one behind it. -/
def readToken (s : Scan) (c : Char) (next : Option Char) : Except Problem Scan :=
  let flow := s.inFlow
  if c == '[' then s.readOpening .flowSequence
  else if c == '\x7b' then s.readOpening .flowMapping
  else if c == ']' then s.readClosing .flowSequenceEnd
  else if c == '\x7d' then s.readClosing .flowMappingEnd
  else if c == ',' then s.readComma
  else if c == '-' && endsWord next then s.readItem
  else if c == '?' && (flow || endsWord next) then s.readKey
  else if c == ':' && (flow || endsWord next) then s.readValue
  else if c == '*' then s.readProperty (readAnchor true)
  else if c == '&' then s.readProperty (readAnchor false)
  else if c == '!' then s.readProperty (readTag flow)
  else if c == '|' && !flow then s.readBlockScalar true
  else if c == '>' && !flow then s.readBlockScalar false
  else if c == '\'' then s.readQuotedScalar false
  else if c == '"' then s.readQuotedScalar true
  else if startsPlain flow c next then s.readPlainScalar
  else s.stop .noToken (s.cursor.during .nextToken)

/-- Reads one more token. -/
def step (s : Scan) : Except Problem Scan := do
  let s ← (s.skipGap (s.cursor.rest.length + 1)).dropStale
  let s := s.closeBlocks (some s.mark.column)
  match s.cursor.peek with
  | none => s.readTextEnd
  | some c =>
    if s.mark.column == 0 && c == '%' then s.readDirectiveLine
    else if s.cursor.atDocumentMark then
      s.readDocumentMark (if c == '-' then .documentStart else .documentEnd)
    else s.readToken c (s.cursor.peekAt 1)

/-! ## All steps -/

/-- Whether some candidate may still put a token before the one of a number. -/
def isPending (s : Scan) (number : Nat) : Bool :=
  s.candidates.any fun k => k.any (·.number == number)

/-- Reads on until the token of a number can be handed out, or a mistake is met. -/
def readUpTo (s : Scan) (number : Nat) : (fuel : Nat) → Except Problem Scan
  | 0 => .ok s
  | fuel + 1 =>
    if s.tokens.length ≤ number then do
      let s ← s.step
      readUpTo s number fuel
    else do
      let s ← s.dropStale
      if s.isPending number then
        let s ← s.step
        readUpTo s number fuel
      else return s

/-- The tokens that can be handed out after those that were, and the problem that ends them early.
-/
def handOut (s : Scan) (number : Nat) : (fuel : Nat) → List Token × Option Problem
  | 0 => ([], none)
  | fuel + 1 =>
    match s.readUpTo number (s.cursor.rest.length + 2) with
    | .error p => ([], some p)
    | .ok s =>
      match s.tokens[number]? with
      | some t =>
        if s.ended && number + 1 == s.tokens.length then ([t], none)
        else
          let (ts, p) := handOut s (number + 1) fuel
          (t :: ts, p)
      | none => ([], none)

end Scan

/-- The number of bytes before the first character that no text may hold, if there is one. -/
def forbiddenOffset? (s : List Char) : Option Nat :=
  if s.all isAllowed then none
  else some (String.ofList (s.takeWhile isAllowed)).utf8ByteSize

/-- A text without the mark of its encoding, and the bytes of that mark. -/
def withoutByteOrderMark : List Char → List Char × Nat
  | '\ufeff' :: s => (s, 3)
  | s => (s, 0)

/-- The tokens of a text, and the problem that ends them early.  Each character and each block that
ends gives at most four tokens. -/
def Token.ofText (text : String) : List Token × Option Problem :=
  let (s, before) := withoutByteOrderMark text.toList
  match forbiddenOffset? s with
  | some n => ([], some (.forbidden (before + n)))
  | none => (Scan.start s).handOut 0 (4 * s.length + 4)

end FundsTransfer.Yaml
