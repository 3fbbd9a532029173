import FundsTransfer.Cli.Program
import FundsTransfer.Transfer.ReferenceNumber
import Std.Time.DateTime.Timestamp

/-!
# The command line

The program reads its arguments, its environment and its configuration, runs once, and
writes what the run printed and logged.  It works on a database of its own, which starts
without accounts and lives as long as the run.
-/

namespace FundsTransfer.Cli

/-- What is in a file, if it can be read. -/
def contentOf? (path : String) : IO (Option String) := do
  try
    return some (← IO.FS.readFile path)
  catch _ =>
    return none

/-- A whole number made of random bytes. -/
def randomNumber (bytes : Nat) : IO Nat := do
  return (← IO.getRandomBytes bytes.toUSize).toList.foldl (fun n b => n * 256 + b.toNat) 0

/-- What a run finds around it. -/
def readSetting (arguments : List String) : IO Setting := do
  let milliseconds := (← Std.Time.Timestamp.now).toMillisecondsSinceUnixEpoch.toInt.toNat
  return {
    arguments
    config := ← contentOf? (Config.path (environment arguments))
    address := ← IO.getEnv "DATABASE_URL"
    filter := ← IO.getEnv "RUST_LOG"
    hears := fun _ => true
    reference := referenceNumber milliseconds (← randomNumber 10)
    now := .ofMilliseconds milliseconds }

/-- Adds what a run logged to its file. -/
def writeLog (l : Logged) (t : Timestamp) : IO Unit := do
  IO.FS.createDirAll l.directory
  IO.FS.withFile s!"{l.directory}/{l.file}" .append fun file => do
    for line in l.lines t do
      file.putStrLn line

end FundsTransfer.Cli

open FundsTransfer Cli in
/-- Runs the program once. -/
def main (args : List String) : IO UInt32 := do
  let setting ← readSetting ("transfer_engine" :: args)
  let (run, _) := run setting Database.Server.fresh
  match run.log with
  | some l => writeLog l setting.now
  | none => pure ()
  for line in run.output do
    IO.println line
  for line in run.problems do
    IO.eprintln line
  return run.ending.code.toUInt32
