import FundsTransfer.Text.Blank
import FundsTransfer.Text.Digits
import FundsTransfer.Time.Calendar
import FundsTransfer.Time.Timestamp

/-!
# Reading a timestamp

A timestamp is read from date, time and offset, and kept in UTC.  Reading is lenient
where people and programs differ: blanks may stand before a number, before the signs
between numbers and around the offset; a `t` or a space may stand for the `T`; months,
days and the parts of the time may have one digit; a year may be signed and long.
Digits of the second beyond the ninth are dropped.  The offset is `Z`, `UTC`, or two
digits each for hours and minutes with a sign.  A second 60 is kept as a leap second.

`Reader` is a step of reading: it yields a value and the rest of the text, or nothing.
-/

namespace FundsTransfer.Timestamp

open Text

/-- A step of reading. -/
abbrev Reader (α : Type) := StateT (List Char) Option α

namespace Reader

/-- Skips blanks. -/
def skipBlanks : Reader Unit := modify trimStart

/-- Takes a character that fulfils a condition. -/
def take (p : Char → Bool) : Reader Char := fun s =>
  match s with
  | c :: rest => if p c then some (c, rest) else none
  | [] => none

/-- Takes a character behind blanks. -/
def mark (c : Char) : Reader Unit := do
  skipBlanks
  let _ ← take (· == c)

/-- Takes at least one digit and at most a number of digits. -/
def digitsUpTo (n : Nat) : Reader (List Char) := fun s =>
  let ds := (s.take n).takeWhile Char.isDigit
  if ds.isEmpty then none else some (ds, s.drop ds.length)

/-- Takes all digits, at least one. -/
def allDigits : Reader (List Char) := fun s =>
  let ds := s.takeWhile Char.isDigit
  if ds.isEmpty then none else some (ds, s.dropWhile Char.isDigit)

/-- Takes a number of at most two digits behind blanks. -/
def twoDigits : Reader Nat := do
  skipBlanks
  return digitsValue (← digitsUpTo 2)

/-- The first character of the rest. -/
def peek : Reader (Option Char) := return (← get).head?

end Reader

open Reader

/-- Reads a year that starts with a character: up to four digits, or a sign and any number of
digits. -/
def readYearFrom : Option Char → Reader Int
  | some '-' => do
    let _ ← take (· == '-')
    return -(digitsValue (← allDigits) : Int)
  | some '+' => do
    let _ ← take (· == '+')
    return digitsValue (← allDigits)
  | _ => return digitsValue (← digitsUpTo 4)

/-- Reads a year. -/
def readYear : Reader Int := do
  skipBlanks
  readYearFrom (← peek)

/-- Reads a date. -/
def readDate : Reader CivilDate := do
  let year ← readYear
  mark '-'
  let month ← twoDigits
  mark '-'
  let day ← twoDigits
  return ⟨year, month, day⟩

/-- The nanoseconds that digits of a second stand for. -/
def nanoseconds (ds : List Char) : Nat :=
  digitsValue (ds.take 9) * Nat.pow 10 (9 - (ds.take 9).length)

/-- Reads a fraction of a second that starts with a character: none, or digits behind a point. -/
def readFractionFrom : Option Char → Reader Nat
  | some '.' => do
    let _ ← take (· == '.')
    return nanoseconds (← allDigits)
  | _ => return 0

/-- Reads a fraction of a second, as nanoseconds. -/
def readFraction : Reader Nat := do readFractionFrom (← peek)

/-- Reads a time of day, as hour, minute, second and nanoseconds. -/
def readTime : Reader (Nat × Nat × Nat × Nat) := do
  let hour ← twoDigits
  mark ':'
  let minute ← twoDigits
  mark ':'
  let second ← twoDigits
  let nanosecond ← readFraction
  return (hour, minute, second, nanosecond)

/-- Takes exactly two digits. -/
def readTwo : Reader Nat := do
  let a ← take Char.isDigit
  let b ← take Char.isDigit
  return digitValue a * 10 + digitValue b

/-- Skips colons and blanks between the hours and the minutes of an offset. -/
def skipColons : Reader Unit := modify fun s => s.dropWhile fun c => c == ':' || isBlank c

/-- Reads an offset from UTC, in seconds. -/
def readOffset : Reader Int := do
  skipBlanks
  let rest ← get
  if (rest.take 3).map Char.toLower = ['u', 't', 'c'] then
    set (rest.drop 3)
    return 0
  else
    match ← peek with
    | some 'Z' | some 'z' =>
      set (rest.drop 1)
      return 0
    | _ =>
      let sign ← take fun c => c == '+' || c == '-' || c == '−'
      let hours ← readTwo
      skipColons
      let minutes ← readTwo
      if 59 < minutes then failure
      let seconds : Int := hours * 3600 + minutes * 60
      return if sign == '+' then seconds else -seconds

/-- The timestamp of a date and time at an offset from UTC, if the calendar and the clock have
them. -/
def ofParts? (date : CivilDate) (time : Nat × Nat × Nat × Nat) (offset : Int) :
    Option Timestamp :=
  let (hour, minute, second, nanosecond) := time
  let leap := second = 60
  let second := if leap then 59 else second
  let nanosecond := if leap then nanosecond + 1000000000 else nanosecond
  let moment := date.toDays * 86400 + hour * 3600 + minute * 60 + second - offset
  let year := (CivilDate.ofDays (moment / 86400)).year
  if h : nanosecond < 2000000000 then
    if date.isValid && -262143 ≤ date.year && date.year ≤ 262142 && hour ≤ 23 && minute ≤ 59 &&
        second ≤ 59 && -86400 < offset && offset < 86400 && -262143 ≤ year && year ≤ 262142 then
      some ⟨moment, nanosecond, h⟩
    else none
  else none

/-- Reads a timestamp. -/
def reader : Reader Timestamp := do
  let date ← readDate
  let _ ← take fun c => c == 'T' || c == 't' || c == ' '
  let time ← readTime
  let offset ← readOffset
  skipBlanks
  match ofParts? date time offset with
  | some t => return t
  | none => failure

/-- The timestamp that a text spells. -/
def ofText? (s : List Char) : Option Timestamp :=
  match reader.run s with
  | some (t, []) => some t
  | _ => none

end FundsTransfer.Timestamp
