import FundsTransfer.Yaml.Cursor

/-!
# What can be wrong with a YAML text

A problem is a mistake at a place.  Most come with a context: what was being read, and
where that began.  The message names the place of the mistake, and the place of the
context when it is another one.  The very first place of a text is not worth naming.
-/

namespace FundsTransfer.Yaml

/-- What is wrong. -/
inductive Mistake where
  /-- A block says that it is indented by nothing. -/
  | indentedByZero
  /-- A line goes on where it should end. -/
  | noLineEnd
  /-- A block is indented by a tab. -/
  | tabIndents
  /-- A plain scalar goes on behind a tab that is not far enough in. -/
  | tabInPlain
  /-- A colon stands before a bracket or a comma. -/
  | strayColon
  /-- A document ends within quotes. -/
  | documentMark
  /-- The text ends within quotes. -/
  | textEnds
  /-- An escape has no meaning. -/
  | unknownEscape
  /-- An escape lacks a digit. -/
  | noHexDigit
  /-- An escape stands for no character. -/
  | invalidCode
  /-- A key has no colon. -/
  | noColon
  /-- An item of a block cannot stand here. -/
  | itemNotAllowed
  /-- A key cannot stand here. -/
  | keyNotAllowed
  /-- The value of a key cannot stand here. -/
  | valueNotAllowed
  /-- Nothing starts with this character. -/
  | noToken
  /-- A name lacks its letters or digits, or goes on with another character. -/
  | noName
  /-- A directive lacks its name. -/
  | noDirectiveName
  /-- The name of a directive goes on with another character. -/
  | directiveNameGoesOn
  /-- A directive has a name of no meaning. -/
  | unknownDirective
  /-- A version lacks its point. -/
  | noPoint
  /-- A version lacks a number. -/
  | noVersion
  /-- A version has a number that is too long. -/
  | longVersion
  /-- A blank is missing. -/
  | noBlank
  /-- A blank or a line end is missing. -/
  | noBlankOrLineEnd
  /-- A tag lacks its exclamation mark. -/
  | noTagMark
  /-- A tag lacks its name. -/
  | noTagName
  /-- A tag in angle brackets lacks the closing one. -/
  | noTagEnd
  /-- An escape in a tag lacks its octet. -/
  | noOctet
  /-- An escape in a tag starts with an octet that starts no character. -/
  | leadingOctet
  /-- An escape in a tag goes on with an octet that does not belong there. -/
  | trailingOctet
  /-- The version is given twice. -/
  | twoVersions
  /-- The version is not known. -/
  | otherVersion
  /-- A handle is given twice. -/
  | twoHandles
  /-- A handle was not given. -/
  | unknownHandle
  /-- A document lacks its start. -/
  | noDocumentStart
  /-- A value lacks its content. -/
  | noContent
  /-- An item of a block lacks its dash. -/
  | noDash
  /-- A key of a block is missing. -/
  | noKey
  /-- A list between brackets lacks a comma or its end. -/
  | noCommaOrBracket
  /-- Named values between braces lack a comma or their end. -/
  | noCommaOrBrace
deriving DecidableEq, Repr

/-- The text of a mistake. -/
def Mistake.text : Mistake → String
  | indentedByZero => "found an indentation indicator equal to 0"
  | noLineEnd => "did not find expected comment or line break"
  | tabIndents => "found a tab character where an indentation space is expected"
  | tabInPlain => "found a tab character that violates indentation"
  | strayColon => "found unexpected ':'"
  | documentMark => "found unexpected document indicator"
  | textEnds => "found unexpected end of stream"
  | unknownEscape => "found unknown escape character"
  | noHexDigit => "did not find expected hexdecimal number"
  | invalidCode => "found invalid Unicode character escape code"
  | noColon => "could not find expected ':'"
  | itemNotAllowed => "block sequence entries are not allowed in this context"
  | keyNotAllowed => "mapping keys are not allowed in this context"
  | valueNotAllowed => "mapping values are not allowed in this context"
  | noToken => "found character that cannot start any token"
  | noName => "did not find expected alphabetic or numeric character"
  | noDirectiveName => "could not find expected directive name"
  | directiveNameGoesOn => "found unexpected non-alphabetical character"
  | unknownDirective => "found unknown directive name"
  | noPoint => "did not find expected digit or '.' character"
  | noVersion => "did not find expected version number"
  | longVersion => "found extremely long version number"
  | noBlank => "did not find expected whitespace"
  | noBlankOrLineEnd => "did not find expected whitespace or line break"
  | noTagMark => "did not find expected '!'"
  | noTagName => "did not find expected tag URI"
  | noTagEnd => "did not find the expected '>'"
  | noOctet => "did not find URI escaped octet"
  | leadingOctet => "found an incorrect leading UTF-8 octet"
  | trailingOctet => "found an incorrect trailing UTF-8 octet"
  | twoVersions => "found duplicate %YAML directive"
  | otherVersion => "found incompatible YAML document"
  | twoHandles => "found duplicate %TAG directive"
  | unknownHandle => "found undefined tag handle"
  | noDocumentStart => "did not find expected <document start>"
  | noContent => "did not find expected node content"
  | noDash => "did not find expected '-' indicator"
  | noKey => "did not find expected key"
  | noCommaOrBracket => "did not find expected ',' or ']'"
  | noCommaOrBrace => "did not find expected ',' or '\x7d'"

/-- What was being read. -/
inductive Activity where
  /-- A plain scalar. -/
  | plainScalar
  /-- A scalar in quotes. -/
  | quotedScalar
  /-- An escape in quotes. -/
  | quotedEscape
  /-- A block. -/
  | blockScalar
  /-- A key that may or may not turn out to be one. -/
  | simpleKey
  /-- The start of anything. -/
  | nextToken
  /-- An anchor. -/
  | anchor
  /-- A reference to an anchor. -/
  | reference
  /-- A tag. -/
  | tag
  /-- The name in a tag. -/
  | tagName
  /-- A directive. -/
  | directive
  /-- The directive of a version. -/
  | versionDirective
  /-- The directive of a handle. -/
  | tagDirective
  /-- The start of a handle in its directive. -/
  | handleStart
  /-- A handle in its directive. -/
  | handle
  /-- What a handle stands for, in its directive. -/
  | handleStem
  /-- A value with properties. -/
  | node
  /-- A value in a block. -/
  | blockNode
  /-- A value between brackets. -/
  | flowNode
  /-- A list in a block. -/
  | blockSequence
  /-- Named values in a block. -/
  | blockMapping
  /-- A list between brackets. -/
  | flowSequence
  /-- Named values between braces. -/
  | flowMapping
deriving DecidableEq, Repr

/-- The text of an activity. -/
def Activity.text : Activity → String
  | plainScalar => "while scanning a plain scalar"
  | quotedScalar => "while scanning a quoted scalar"
  | quotedEscape => "while parsing a quoted scalar"
  | blockScalar => "while scanning a block scalar"
  | simpleKey => "while scanning a simple key"
  | nextToken => "while scanning for the next token"
  | anchor => "while scanning an anchor"
  | reference => "while scanning an alias"
  | tag => "while scanning a tag"
  | tagName => "while parsing a tag"
  | directive => "while scanning a directive"
  | versionDirective => "while scanning a %YAML directive"
  | tagDirective => "while scanning a %TAG directive"
  | handleStart => "while scanning a tag directive"
  | handle => "while parsing a tag directive"
  | handleStem => "while parsing a %TAG directive"
  | node => "while parsing a node"
  | blockNode => "while parsing a block node"
  | flowNode => "while parsing a flow node"
  | blockSequence => "while parsing a block collection"
  | blockMapping => "while parsing a block mapping"
  | flowSequence => "while parsing a flow sequence"
  | flowMapping => "while parsing a flow mapping"

/-- What was being read, and where it began. -/
structure Context where
  /-- What was being read. -/
  activity : Activity
  /-- Where it began. -/
  start : Mark
deriving DecidableEq, Repr

/-- A mistake at a place. -/
inductive Problem where
  /-- A character that no text may hold, after a number of bytes. -/
  | forbidden (offset : Nat)
  /-- A mistake. -/
  | mistaken (what : Mistake) (place : Mark) (context : Option Context)
  /-- A reference to an anchor that was not set. -/
  | unknownAnchor (place : Mark)
deriving DecidableEq, Repr

/-- A position as people count, from one. -/
def Mark.text (m : Mark) : String := s!"line {m.line + 1} column {m.column + 1}"

/-- Whether two positions are the same place of a text. -/
def Mark.samePlace (m n : Mark) : Bool := m.line == n.line && m.column == n.column

/-- Whether a position is the first one of a text. -/
def Mark.isFirst (m : Mark) : Bool := m.line == 0 && m.column == 0

/-- The mention of a place behind a message.  The first place is not mentioned. -/
def Mark.mention (m : Mark) : String := if m.isFirst then "" else s!" at {m.text}"

/-- The mention of a context behind a message about a place. -/
def Context.mention (c : Context) (place : Mark) : String :=
  s!", {c.activity.text}" ++ if c.start.samePlace place then "" else c.start.mention

/-- The message of a problem. -/
def Problem.message : Problem → String
  | forbidden offset =>
    "control characters are not allowed" ++
      if offset = 0 then "" else s!" at position {offset}"
  | mistaken what place context =>
    what.text ++ place.mention ++ (context.map (·.mention place)).getD ""
  | unknownAnchor place => "unknown anchor" ++ place.mention

/-- Stops reading at a cursor because of a mistake. -/
def stopAt {α : Type} (c : Cursor) (what : Mistake) (context : Option Context) :
    Except Problem α :=
  .error (.mistaken what c.mark context)

/-- A context that begins at a cursor. -/
def Cursor.during (c : Cursor) (activity : Activity) : Option Context := some ⟨activity, c.mark⟩

end FundsTransfer.Yaml
