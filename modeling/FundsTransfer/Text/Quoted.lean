import FundsTransfer.Text.Printable

/-!
# Quoted text

A text is shown between double quotes wherever its exact characters matter: in the
complaint about a currency code and in the fields of a log line.  A quote and a
backslash get a backslash, the usual controls their letter, and every other hidden
character its code point in hexadecimal between braces.  The quoted form is for
people, and nothing reads it back.
-/

namespace FundsTransfer.Text

/-- The lower-case hexadecimal digits of a number. -/
def hexDigits (n : Nat) : List Char := Nat.toDigits 16 n

/-- A character as it stands between the quotes. -/
def escapeChar (c : Char) : List Char :=
  match c with
  | '\x00' => ['\\', '0']
  | '\t' => ['\\', 't']
  | '\n' => ['\\', 'n']
  | '\r' => ['\\', 'r']
  | '"' => ['\\', '"']
  | '\\' => ['\\', '\\']
  | c => if isHidden c then ['\\', 'u', '\x7b'] ++ hexDigits c.toNat ++ ['\x7d'] else [c]

/-- A text between double quotes. -/
def quoted (s : String) : String :=
  String.ofList ('"' :: s.toList.flatMap escapeChar ++ ['"'])

end FundsTransfer.Text
