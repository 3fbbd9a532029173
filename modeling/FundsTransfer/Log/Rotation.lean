import FundsTransfer.Text.Digits
import FundsTransfer.Time.Calendar
import FundsTransfer.Time.Timestamp

/-!
# Rotation of log files

A log goes to one file, or to a new one each day or each hour.  The name of such a file
ends with the date, and for an hour with the hour.
-/

namespace FundsTransfer.Log

/-- How often a new file starts. -/
inductive Rotation where
  /-- Each hour. -/
  | hourly
  /-- Each day. -/
  | daily
  /-- Never. -/
  | never
deriving DecidableEq, Repr

/-- The rotation with a name.  A name that is not known means never. -/
def Rotation.ofName : String → Rotation
  | "hourly" => .hourly
  | "daily" => .daily
  | _ => .never

/-- The date of a timestamp. -/
def dateText (t : Timestamp) : String :=
  let date := CivilDate.ofDays (t.second / 86400)
  String.ofList (Text.padded 4 date.year.toNat ++ '-' :: Text.padded 2 date.month.toNat ++
    '-' :: Text.padded 2 date.day.toNat)

/-- The hour of a timestamp. -/
def hourText (t : Timestamp) : String :=
  String.ofList (Text.padded 2 ((t.second % 86400).toNat / 3600))

/-- The name of the file that a log goes to at a time.  With no name of its own, a file is called by
the date. -/
def Rotation.fileName (r : Rotation) (name : String) (t : Timestamp) : String :=
  let stamp := match r with
    | .hourly => s!"{dateText t}-{hourText t}"
    | _ => dateText t
  if name.isEmpty then stamp
  else
    match r with
    | .never => name
    | _ => s!"{name}.{stamp}"

end FundsTransfer.Log
