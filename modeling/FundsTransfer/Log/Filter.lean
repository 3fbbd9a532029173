import FundsTransfer.Log.Event
import FundsTransfer.Text.Blank
import FundsTransfer.Text.Digits

/-!
# Filters of log events

A filter is a list of directives, separated by commas.  A directive is a level, or a
target with a level behind an equals sign, or a target alone, which lets everything
through.  A target may be followed by a span and by fields in square brackets.

An event goes by the directive with the longest target that its own target starts with,
and it passes when it is at least as important as that directive asks.  With no such
directive it does not pass.  A filter with no directive lets errors through.

A strict reader refuses a filter with a faulty directive.  A lenient one ignores the
directive and says so.
-/

namespace FundsTransfer.Log

/-- The number of a level, the smaller the more important. -/
def Level.number : Level → Nat
  | .error => 1
  | .warn => 2
  | .info => 3
  | .debug => 4
  | .trace => 5

/-- How much passes a filter: nothing, or everything at least as important as a level. -/
abbrev Threshold := Option Level

/-- Whether a level passes a threshold. -/
def passes (level : Level) (threshold : Threshold) : Bool :=
  threshold.any (level.number ≤ ·.number)

/-- A rule about some events. -/
structure Directive where
  /-- What the target of an event has to start with. -/
  target : Option String
  /-- The span an event has to be in. -/
  span : Option String
  /-- The fields an event has to have, each with its value if one is asked for. -/
  fields : List (String × Option String)
  /-- How much passes. -/
  threshold : Threshold
deriving DecidableEq, Repr

/-- Why a directive is faulty. -/
inductive DirectiveError where
  /-- It is not made like one. -/
  | malformed
  /-- Its level is none. -/
  | unknownLevel
deriving DecidableEq, Repr

/-- What people are told. -/
def DirectiveError.message : DirectiveError → String
  | malformed => "invalid filter directive"
  | unknownLevel => "error parsing level filter: expected one of \"off\", \"error\", \"warn\", " ++
      "\"info\", \"debug\", \"trace\", or a number 0-5"

/-! ## Levels -/

/-- The thresholds by number. -/
def thresholds : List Threshold :=
  [none, some .error, some .warn, some .info, some .debug, some .trace]

/-- The names of the thresholds, in the same order. -/
def thresholdNames : List String := ["off", "error", "warn", "info", "debug", "trace"]

/-- A number, perhaps behind a plus. -/
def numberOf? (s : List Char) : Option Nat :=
  let ds := if s.head? == some '+' then s.drop 1 else s
  if !ds.isEmpty && ds.all Char.isDigit then some (Text.digitsValue ds) else none

/-- The threshold that a text names, by a number or by a name in any case. -/
def thresholdOf? (s : List Char) : Option Threshold :=
  match (numberOf? s).bind (thresholds[·]?) with
  | some t => some t
  | none =>
    if s.isEmpty then some (some .error)
    else (thresholdNames.zip thresholds).lookup (String.ofList (s.map Char.toLower))

/-- The threshold behind an equals sign.  With nothing there, everything passes. -/
def thresholdBehind (s : List Char) : Except DirectiveError Threshold :=
  if s.isEmpty then .ok (some .trace)
  else
    match thresholdOf? s with
    | some t => .ok t
    | none => .error .unknownLevel

/-! ## Directives -/

/-- A directive that is a level or a target. -/
def ofWord (s : List Char) : Directive :=
  match thresholdOf? s with
  | some t => ⟨none, none, [], t⟩
  | none => ⟨some (String.ofList s), none, [], some .trace⟩

/-- A field with the value that is asked for. -/
def fieldOf (s : List Char) : String × Option String :=
  match s.dropWhile (· != '=') with
  | '=' :: value => (String.ofList (s.takeWhile (· != '=')), some (String.ofList value))
  | _ => (String.ofList s, none)

/-- The fields between braces, and what comes behind them. -/
def readFields (s : List Char) :
    Except DirectiveError (List (String × Option String) × List Char) :=
  match s.dropWhile (· != '\x7d') with
  | [] => .error .malformed
  | _ :: rest =>
    let fields := (String.ofList (s.takeWhile (· != '\x7d'))).splitOn ","
    if fields.any (·.isEmpty) then .error .malformed
    else .ok (fields.map fun f => fieldOf f.toList, rest)

/-- What comes behind the square brackets. -/
def readThreshold : List Char → Except DirectiveError Threshold
  | [] => .ok (some .trace)
  | '=' :: level => thresholdBehind level
  | _ => .error .malformed

/-- A directive from its opening square bracket on. -/
def ofBrackets (target : Option String) (s : List Char) : Except DirectiveError Directive :=
  let name := s.takeWhile fun c => c != ']' && c != '\x7b'
  match s.dropWhile fun c => c != ']' && c != '\x7b' with
  | ']' :: rest => do
    return ⟨target, some (String.ofList name), [], ← readThreshold rest⟩
  | '\x7b' :: rest => do
    let (fields, rest) ← readFields rest
    let span := if name.isEmpty then none else some (String.ofList name)
    match rest with
    | ']' :: rest => return ⟨target, span, fields, ← readThreshold rest⟩
    | _ => .error .malformed
  | _ => .error .malformed

/-- A character that a word may start with. -/
def startsWord (c : Char) : Bool :=
  c == '-' || c == ':' || c == '_' || c.isAlphanum || 128 ≤ c.toNat

/-- The directive that a text spells.  Blanks around it are not counted when its signs are looked
for, but its words are cut out of the whole text. -/
def Directive.ofText (text : String) : Except DirectiveError Directive :=
  let s := text.toList
  let t := Text.trim s
  let n := (t.takeWhile fun c => c != '=' && c != '[').length
  match t.head?, t[n]? with
  | none, _ => .error .malformed
  | some '[', _ => ofBrackets none (t.drop 1)
  | some c, sign =>
    if !startsWord c then .error .malformed
    else
      match sign with
      | some '=' => do
        return ⟨some (String.ofList (s.take n)), none, [], ← thresholdBehind (s.drop (n + 1))⟩
      | some _ => ofBrackets (some (String.ofList (s.take n))) (t.drop (n + 1))
      | none => .ok (ofWord s)

namespace Directive

/-- Whether a directive asks for nothing but a target and fields of any value. -/
def isStatic (d : Directive) : Bool := d.span.isNone && d.fields.all (·.2.isNone)

/-- Whether a directive is about an event. -/
def isAbout (d : Directive) (e : Event) : Bool :=
  d.target.all (e.origin.target.startsWith ·) &&
    d.fields.all fun (name, _) => name == "message" || (e.fields.any (·.1 == name))

/-- How specific a directive is: by its target first, then by its fields. -/
def weight (d : Directive) : Nat × Nat :=
  ((d.target.map fun t => t.utf8ByteSize + 1).getD 0, d.fields.length)

/-- Whether a directive counts more than one that came before. -/
def outweighs (d before : Directive) : Bool :=
  let (a, b) := d.weight
  let (c, e) := before.weight
  c < a || (c = a && e ≤ b)

end Directive

/-! ## Filters -/

/-- A list of directives, in order. -/
structure Filter where
  /-- The directives. -/
  directives : List Directive

namespace Filter

/-- The text of the filter for a level.  The driver of the database is kept quiet. -/
def textFor (level : String) : String := level ++ ",sqlx=warn"

/-- The parts of a filter's text. -/
def parts (text : String) : List String := (text.splitOn ",").filter (!·.isEmpty)

/-- The filter of some directives.  With none, errors pass. -/
def ofDirectives (ds : List Directive) : Filter :=
  if ds.isEmpty then ⟨[⟨none, none, [], some .error⟩]⟩ else ⟨ds⟩

/-- Reads a filter, or refuses it because of a faulty directive. -/
def ofText? (text : String) : Option Filter :=
  ((parts text).mapM fun p => (Directive.ofText p).toOption).map ofDirectives

/-- Says that a faulty directive is ignored. -/
def complaint (part : String) : Option String :=
  match Directive.ofText part with
  | .ok _ => none
  | .error e => some s!"ignoring `{part}`: {e.message}"

/-- Reads a filter, and says which directives are ignored because they are faulty. -/
def ofTextLenient (text : String) : Filter × List String :=
  let ps := parts text
  (ofDirectives (ps.filterMap fun p => (Directive.ofText p).toOption), ps.filterMap complaint)

/-- The directive that an event goes by. -/
def directiveFor? (f : Filter) (e : Event) : Option Directive :=
  (f.directives.filter fun d => d.isStatic && d.isAbout e).foldl
    (fun best d =>
      match best with
      | some b => if d.outweighs b then some d else some b
      | none => some d)
    none

/-- Whether an event passes. -/
def lets (f : Filter) (e : Event) : Bool :=
  (f.directiveFor? e).any fun d => passes e.level d.threshold

end Filter

end FundsTransfer.Log
