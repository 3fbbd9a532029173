import FundsTransfer.Json.Value
import FundsTransfer.Log.Event
import FundsTransfer.Text.Quoted
import FundsTransfer.Time.Text

/-!
# Log events as written

An event is written as a line of text, with its level on the right of five columns, its
message, and its values behind their names, or as a JSON object.  A text keeps the quotes
of quoted values; in JSON every text is one.
-/

namespace FundsTransfer.Log

/-- The name of a level. -/
def Level.name : Level → String
  | .error => "ERROR"
  | .warn => "WARN"
  | .info => "INFO"
  | .debug => "DEBUG"
  | .trace => "TRACE"

namespace Value

/-- The value in a line of text. -/
def text : Value → String
  | .integer n => Text.intText n
  | .flag b => if b then "true" else "false"
  | .quoted s => Text.quoted s
  | .plain s => s

/-- The value in a JSON object. -/
def toJson : Value → Json
  | .integer n => .integer n
  | .flag b => .bool b
  | .quoted s => .string s
  | .plain s => .string s

end Value

namespace Event

/-- An event as a line of text. -/
def line (e : Event) : String :=
  Text.alignRight 5 e.level.name ++ " " ++ e.message ++
    String.join (e.fields.map fun (name, v) => s!" {name}={v.text}")

/-- An event as a JSON object. -/
def toJson (e : Event) : Json := .object [
  ("level", .string e.level.name),
  ("fields", .object (("message", .string e.message) :: e.fields.map fun (k, v) => (k, v.toJson))),
  ("target", .string e.origin.target)]

/-- An event as a line of a log, with the time in front. -/
def stamped (e : Event) (useJson : Bool) (t : Timestamp) : String :=
  match useJson, e.toJson with
  | true, .object members =>
    (Json.object (("timestamp", .string t.toText) :: members)).toCompactText
  | _, _ => t.toText ++ " " ++ e.line

end Event

end FundsTransfer.Log
