import FundsTransfer.Database.Store
import FundsTransfer.Work.Job

/-!
# Jobs on the database

A client holds a pool of connections to one server, and runs jobs over it, one at a
time.  Each open transaction holds a connection.  A transaction may be opened by hand
and stay open between jobs.  While it does, nobody else can begin one: with no
connection left, an opening fails after the time the pool lets it wait, and otherwise it
waits for the transaction to end.  A deadline that comes first cuts it off.

`run` takes a job to its end.  It keeps the events that the job emits, in order.
-/

namespace FundsTransfer.Database

/-- How a pool of connections behaves. -/
structure PoolSettings where
  /-- The most connections. -/
  maxConnections : Nat
  /-- The connections kept open. -/
  minConnections : Nat
  /-- How long an opening waits for a connection, in milliseconds. -/
  acquireTimeout : Nat
deriving DecidableEq

/-- A client with its pool. -/
structure Client where
  /-- The server. -/
  server : Server
  /-- The pool. -/
  pool : PoolSettings
  /-- The transaction that was opened by hand. -/
  slot : Option OpenTransaction
  /-- The transaction of the job that runs. -/
  current : Option OpenTransaction
  /-- The time, in nanoseconds. -/
  now : Nat
  /-- The events so far. -/
  events : List Log.Event

namespace Client

/-- The event of a pool that was set up. -/
def connectedEvent (pool : PoolSettings) : Log.Event :=
  ⟨.info, .database, "PostgreSQL connection pool established",
    [("max_connections", .integer pool.maxConnections)]⟩

/-- The event of a schema that was set up. -/
def migratedEvent : Log.Event := ⟨.info, .database, "Database migrations applied", []⟩

/-- Asks a server to be let in, and asks again while the refusal passes soon. -/
def knock : (tries : Nat) → Server → Except DatabaseError Unit × Server
  | 0, server => (.error .poolTimedOut, server)
  | tries + 1, server =>
    match server.connect with
    | (.ok (), server) => (.ok (), server)
    | (.error e, server) => if e.passesSoon then knock tries server else (.error e, server)

/-- A client of a server, if the server lets it in.  Each refusal takes a trigger of the server, so
their number bounds the tries. -/
def connect (server : Server) (pool : PoolSettings) : Except DatabaseError Client × Server :=
  if pool.maxConnections = 0 then (.error .poolTimedOut, server)
  else
    match knock (server.triggers.length + 1) server with
    | (.ok (), server) => (.ok ⟨server, pool, none, none, 0, [connectedEvent pool]⟩, server)
    | (.error e, server) => (.error e, server)

/-- What people are told when the schema could not be set up. -/
def migrationMessage (e : DatabaseError) : String := "while executing migrations: " ++ e.message

/-- The client with one more event. -/
def emit (c : Client) (event : Log.Event) : Client := { c with events := c.events ++ [event] }

/-- Whether all connections are taken. -/
def isExhausted (c : Client) : Bool := c.slot.isSome && c.pool.maxConnections ≤ 1

/-- The outcome of an opening that has to wait because a transaction is open.  With connections
left, only a deadline ends it; without a deadline it counts as not let in. -/
def waitToBegin (c : Client) (deadline : Option Deadline) :
    Timed (Except StoreError Unit) × Client :=
  let refusal := c.now + c.pool.acquireTimeout * 1000000
  match deadline with
  | some d =>
    if c.isExhausted && refusal < d.moment then
      (.ended (.error (.database .poolTimedOut)), { c with now := refusal })
    else (.cutOff d.limit, { c with now := max c.now d.moment })
  | none => (.ended (.error (.database .poolTimedOut)), { c with now := refusal })

/-- Opens a transaction for the job that runs. -/
def begin (c : Client) (deadline : Option Deadline) : Timed (Except StoreError Unit) × Client :=
  if c.slot.isSome then c.waitToBegin deadline
  else
    match c.server.begin with
    | (.ok t, server) => (.ended (.ok ()), { c with server, current := some t })
    | (.error e, server) => (.ended (.error (.database e)), { c with server })

/-- Asks a query in the transaction of the job that runs. -/
def ask (c : Client) (q : Query) : Except StoreError q.Answer × Client :=
  match c.current with
  | some t =>
    let (reply, t, server) := c.server.run t q
    (answer q reply, { c with server, current := some t })
  | none => (.error (.backend "no transaction is open"), c)

/-- Publishes the transaction of the job that runs. -/
def commit (c : Client) : Except StoreError Unit × Client :=
  match c.current with
  | some t =>
    let (result, server) := c.server.commit t
    (result.mapError .database, { c with server, current := none })
  | none => (.error (.backend "no transaction is open"), c)

/-- Takes the transaction of the job that runs back. -/
def rollback (c : Client) : Except StoreError Unit × Client :=
  let (result, server) := c.server.rollback
  (result.mapError .database, { c with server, current := none })

/-- Whether a wait of a number of milliseconds from now reaches past a deadline. -/
def passes (c : Client) (milliseconds : Nat) (d : Deadline) : Bool :=
  d.moment < c.now + milliseconds * 1000000

/-- Runs a job to its end. -/
def run {α : Type} (c : Client) : Job α → Outcome α × Client
  | .done outcome => (outcome, c)
  | .log event rest => (c.emit event).run rest
  | .clock next => c.run (next c.now)
  | .begin deadline next =>
    let (r, c) := c.begin deadline
    c.run (next r)
  | .call _ q next =>
    let (r, c) := c.ask q
    c.run (next (.ended r))
  | .pause deadline ms next =>
    match deadline.filter (c.passes ms) with
    | some d => { c with now := max c.now d.moment }.run (next (.cutOff d.limit))
    | none => { c with now := c.now + ms * 1000000 }.run (next (.ended ()))
  | .commit next =>
    let (r, c) := c.commit
    c.run (next r)
  | .rollback next =>
    let (r, c) := c.rollback
    c.run (next r)

/-- Runs a job that opens its own transaction.  A transaction it leaves open is discarded. -/
def call {α : Type} (c : Client) (job : Job α) : Outcome α × Client :=
  let (outcome, c) := c.run job
  (outcome, { c with current := none })

/-- Opens a transaction by hand. -/
def openSlot (c : Client) : Except StoreError Unit × Client :=
  match c.begin none with
  | (.ended r, c) => (r, { c with slot := c.slot <|> c.current, current := none })
  | (.cutOff _, c) => (.error (.database .poolTimedOut), c)

/-- Runs a job on the transaction opened by hand.  What it leaves open stays open. -/
def callInSlot {α : Type} (c : Client) (job : Job α) : Outcome α × Client :=
  let (outcome, c) := { c with slot := none, current := c.slot }.run job
  (outcome, { c with slot := c.current, current := none })

/-- Discards the transaction opened by hand. -/
def dropSlot (c : Client) : Client := { c with slot := none }

/-- Asks the server for a sign of life. -/
def health (c : Client) : Except DatabaseError Unit × Client :=
  if c.isExhausted then (.error .poolTimedOut, c)
  else
    let (r, server) := c.server.health
    (r, { c with server })

/-- Sets the schema up. -/
def migrate (c : Client) : Except DatabaseError Unit × Client :=
  if c.slot.isSome then (.error .poolTimedOut, c)
  else
    match c.server.migrate with
    | (.ok (), server) => (.ok (), { c with server }.emit migratedEvent)
    | (.error e, server) => (.error e, { c with server })

end Client

end FundsTransfer.Database
