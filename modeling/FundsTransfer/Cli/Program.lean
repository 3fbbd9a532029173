import FundsTransfer.Cli.Failure
import FundsTransfer.Database.Address
import FundsTransfer.Json.Row
import FundsTransfer.Log.Filter
import FundsTransfer.Log.Line

/-!
# The program

One run of the program: it loads the configuration of its environment, starts its log,
connects to the database, and carries out one command.  A command prints what it found
as JSON.  A transfer that fails prints its error as JSON, too, before the report.

The checks come in a fixed order.  Without a configuration there is no log.  Without a
command the database is left alone.  A command that is not known, and the arguments of a
command, are looked at only once the database is there.
-/

namespace FundsTransfer.Cli

/-- What a run finds around it. -/
structure Setting where
  /-- The arguments, the name of the program among them. -/
  arguments : List String
  /-- What is in the file with the configuration, if there is one. -/
  config : Option String
  /-- The address of the database, if it is given from outside. -/
  address : Option String
  /-- The filter of the log, if it is given from outside. -/
  filter : Option String
  /-- Whether the database can be reached at an address. -/
  hears : String → Bool
  /-- A reference number that was never used. -/
  reference : String
  /-- The time. -/
  now : Timestamp

/-- How a run ends. -/
inductive Ending where
  /-- All went well. -/
  | done
  /-- It failed. -/
  | failed (failure : Failure)
  /-- A sum outgrew a decimal. -/
  | crashed

/-- What a run wrote to its log. -/
structure Logged where
  /-- The directory. -/
  directory : String
  /-- The file. -/
  file : String
  /-- Whether it is written in JSON. -/
  useJson : Bool
  /-- The events. -/
  events : List Log.Event

/-- What a run leaves behind. -/
structure Run where
  /-- How it ends. -/
  ending : Ending
  /-- What it prints, line by line. -/
  output : List String
  /-- What it says about its filter. -/
  notes : List String
  /-- Its log, if it came that far. -/
  log : Option Logged

namespace Ending

/-- The code that a run exits with. -/
def code : Ending → Nat
  | done => 0
  | failed _ => 1
  | crashed => 101

/-- The report of how a run ended. -/
def report : Ending → List String
  | done => []
  | failed f => f.report
  | crashed => ["Addition overflowed"]

end Ending

/-- What a run prints about problems. -/
def Run.problems (r : Run) : List String := r.notes ++ r.ending.report

/-- A failure as the way a run ends. -/
def failing (message : String) (causes : List String) : Ending := .failed ⟨message, causes⟩

/-! ## Commands -/

/-- What a command prints, how it ends, and what becomes of the client. -/
abbrev Performed := List String × Ending × Database.Client

/-- The lines of a value printed as JSON. -/
def jsonLines (v : Json) : List String := v.toIndentedText.splitOn "\n"

/-- What a command prints about rows that were there or put there. -/
def seededJson (s : SeededCatalog) : Json := Json.sorted (.object [
  ("statuses", .ofList TransactionStatus.toJson s.statuses),
  ("types", .ofList TransactionType.toJson s.types),
  ("currencies", .ofList Currency.toJson s.currencies)])

/-- What a command prints about an error of the engine. -/
def errorJson (e : TransferError) : Json := Json.sorted (.object [
  ("code", .string e.code),
  ("status", .integer e.httpStatus),
  ("retryable", .bool e.isRetryable),
  ("message", .string e.message)])

/-- Runs a job and prints its value. -/
def perform {α : Type} (client : Database.Client) (job : Job α) (show_ : α → Json)
    (showError : TransferError → List String) : Performed :=
  match client.call job with
  | (.ok a, client) => (jsonLines (show_ a), .done, client)
  | (.error e, client) => (showError e, .failed (.ofTransfer e), client)
  | (.overflow, client) => ([], .crashed, client)

/-- Sets the schema up. -/
def migrate (client : Database.Client) : Performed :=
  match client.migrate with
  | (.ok (), client) => (["migrations applied"], .done, client)
  | (.error e, client) => ([], .failed (.ofMigration e), client)

/-- Asks the database for a sign of life. -/
def health (client : Database.Client) : Performed :=
  match client.health with
  | (.ok (), client) => (["ok"], .done, client)
  | (.error e, client) => ([], .failed (.ofDatabase "Health check failed" e), client)

/-- Puts the known reference rows in place. -/
def seed (client : Database.Client) : Performed :=
  perform client Coordinator.default.seed seededJson fun _ => []

/-- Makes the transfer that the arguments spell. -/
def transfer (config : Config) (s : Setting) (client : Database.Client) : Performed :=
  match transferParams s.arguments with
  | .error e => ([], .failed (.ofUsage e), client)
  | .ok params =>
    perform client (config.transfer.coordinator.transfer s.reference params) TransferResult.toJson
      fun e => jsonLines (errorJson e)

/-- Audits the transaction that the arguments name. -/
def verify (s : Setting) (client : Database.Client) : Performed :=
  match transaction "--transaction" s.arguments with
  | .error e => ([], .failed (.ofUsage e), client)
  | .ok id => perform client (Coordinator.default.verify id) LedgerAudit.toJson fun _ => []

/-- Carries a command out. -/
def carryOut (config : Config) (s : Setting) (client : Database.Client) : String → Performed
  | "migrate" => migrate client
  | "health" => health client
  | "seed" => seed client
  | "transfer" => transfer config s client
  | "verify" => verify s client
  | other => ([], failing ("unknown command: " ++ other) [], client)

/-! ## A run -/

/-- The event of a run that starts. -/
def startedEvent (environment : String) : Log.Event :=
  ⟨.info, .program, "Starting transfer engine",
    [("env", .plain environment), ("git_hash", .quoted "unknown")]⟩

/-- What people are told when they give no command. -/
def usage : String :=
  "usage: transfer_engine [--env <name>] <migrate|seed|health|transfer|verify> [options]"

/-- The filter of the log, and what is to be said about it.  One from outside counts if it has no
fault. -/
def filterFor (config : Config) (outside : Option String) : Log.Filter × List String :=
  match outside.bind Log.Filter.ofText? with
  | some f => (f, [])
  | none => Log.Filter.ofTextLenient (Log.Filter.textFor config.logLevel)

/-- Connects to the database of a configuration. -/
def connect (config : Config) (s : Setting) (server : Database.Server) :
    Except DatabaseError Database.Client × Database.Server :=
  match Database.Address.check config.database.url with
  | .error e => (.error (.configuration e.message), server)
  | .ok () =>
    if s.hears config.database.url then Database.Client.connect server config.database.pool
    else (.error .poolTimedOut, server)

/-- What a run prints, how it ends, the events it emits, and what becomes of the database. -/
def runConfigured (config : Config) (s : Setting) (server : Database.Server) :
    List String × Ending × List Log.Event × Database.Server :=
  match command? s.arguments with
  | none => ([], failing usage [], [], server)
  | some command =>
    match connect config s server with
    | (.error e, server) =>
      ([], .failed (.ofDatabase "Failed to connect to PostgreSQL" e), [], server)
    | (.ok client, _) =>
      let (output, ending, client) := carryOut config s client command
      (output, ending, client.events, client.server)

/-- Runs the program once. -/
def run (s : Setting) (server : Database.Server) : Run × Database.Server :=
  let environment := environment s.arguments
  match Config.load environment s.config s.address with
  | .error e => (⟨.failed (.ofConfig e), [], [], none⟩, server)
  | .ok config =>
    let (filter, notes) := filterFor config s.filter
    let (output, ending, events, server) := runConfigured config s server
    let file := (Log.Rotation.ofName config.rotation).fileName config.logFile s.now
    let passed := (startedEvent environment :: events).filter filter.lets
    (⟨ending, output, notes, some ⟨config.logDirectory, file, config.useJson, passed⟩⟩, server)

/-- What a run writes to its log at a time, line by line. -/
def Logged.lines (l : Logged) (t : Timestamp) : List String :=
  l.events.map (·.stamped l.useJson t)

end FundsTransfer.Cli
