import FundsTransfer.Decimal.Sum
import FundsTransfer.Memory.Probe
import FundsTransfer.Memory.Tables
import FundsTransfer.Store.Query
import FundsTransfer.Text.Digits

/-!
# Queries on the store in memory

A unit of work has a copy of all tables to itself.  `perform` answers a query on that
copy, and counts faults, races and touched balances as it goes.  A query that is refused
leaves the copy as it was, except that an insertion which loses a race leaves the
winner's row behind, as it would in a database.

Adding to a balance can end in an overflow.  The copy is as it was then, too.
-/

namespace FundsTransfer.Memory

/-- What a unit of work works on. -/
structure Working where
  /-- Its copy of the tables. -/
  tables : Tables
  /-- The faults, races and touched balances, which all units of work share. -/
  probes : Probes

/-- Why a query has no answer. -/
inductive Refusal where
  /-- The store refused it. -/
  | refused (error : StoreError)
  /-- A sum outgrew a decimal. -/
  | overflow
deriving DecidableEq

/-- An operation on the copy of a unit of work. -/
abbrev Operation (α : Type) := ExceptT Refusal (StateM Working) α

namespace Operation

/-- Refuses with an error. -/
def refuse {α : Type} (e : StoreError) : Operation α := throw (.refused e)

/-- Refuses unless a condition holds. -/
def check (condition : Bool) (e : StoreError) : Operation Unit :=
  if condition then pure () else refuse e

/-- Counts a call, and refuses if it is one that was made to fail. -/
def trip (point : FaultPoint) : Operation Unit := do
  let w ← get
  let (fails, probes) := w.probes.trip point
  set { w with probes }
  if fails then refuse (injected point)

/-- Uses up a race, if one is pending. -/
def takeRace : Operation Bool := do
  let w ← get
  let (raced, probes) := w.probes.takeRace
  set { w with probes }
  pure raced

/-- The copy of the tables. -/
def tables : Operation Tables := return (← get).tables

/-- Puts other tables in place of the copy. -/
def setTables (t : Tables) : Operation Unit := modify fun w => { w with tables := t }

end Operation

open Operation

/-- The error of a reference to a row that is not there. -/
def foreignKey (what : String) : StoreError := .backend ("foreign key violation: " ++ what)

/-- Refuses unless an account exists. -/
def checkAccount (t : Tables) (id : Int) : Operation Unit :=
  check (t.accounts.contains id) (.notFound ("account " ++ Text.intText id))

/-- Refuses unless a status exists. -/
def checkStatus (t : Tables) (code : String) : Operation Unit :=
  check (t.statuses.contains code) (foreignKey ("transaction status " ++ code))

/-- Adds to the balance of an open account. -/
def addBalance (now : Timestamp) (id : Int) (delta : Decimal) : Operation Account := do
  modify fun w => { w with probes := w.probes.touch id }
  trip .addBalance
  let t ← tables
  match t.accounts.find? id with
  | some a =>
    check a.isActive (.notFound ("active account " ++ Text.intText id))
    match a.balance.add? delta with
    | some balance =>
      let a := { a with balance, updatedAt := now }
      setTables { t with accounts := t.accounts.put id a }
      pure a
    | none => throw .overflow
  | none => refuse (.notFound ("active account " ++ Text.intText id))

/-- Writes a transaction whose accounts and reference rows exist and whose reference number is
new. -/
def createTransaction (now : Timestamp) (new : NewTransaction) : Operation Transaction := do
  trip .createTransaction
  let t ← tables
  checkAccount t new.sender
  checkAccount t new.receiver
  checkStatus t new.status
  check (t.types.contains new.type) (foreignKey ("transaction type " ++ new.type))
  check (t.currencies.contains new.currency) (foreignKey ("currency " ++ new.currency))
  check (!t.hasReference new.reference) (.uniqueViolation ("reference number " ++ new.reference))
  let (row, t) := t.insertTransaction now new
  setTables t
  pure row

/-- Changes the status of a transaction to one that exists. -/
def setStatus (now : Timestamp) (id : Int) (code : String) : Operation Transaction := do
  trip .updateStatus
  let t ← tables
  checkStatus t code
  match t.transactions.find? id with
  | some row =>
    let row := { row with status := code, updatedAt := now }
    setTables { t with transactions := t.transactions.put id row }
    pure row
  | none => refuse (.notFound ("transaction " ++ Text.intText id))

/-- Writes an entry whose account and transaction exist. -/
def createEntry (now : Timestamp) (new : NewEntry) : Operation Entry := do
  trip .createEntry
  let t ← tables
  checkAccount t new.account
  check (t.transactions.contains new.transaction)
    (foreignKey ("transaction " ++ Text.intText new.transaction))
  let (row, t) := t.insertEntry now new
  setTables t
  pure row

/-- Writes a reference row, and refuses when there is one with the code or a race is lost.  A lost
race leaves the row behind. -/
def createReference {ρ : Type} (table : Tables → Table String ρ)
    (update : Tables → Table String ρ → Tables) (label code : String) (row : ρ) :
    Operation ρ := do
  trip .createReference
  let raced ← takeRace
  let t ← tables
  if (table t).contains code then
    refuse (.uniqueViolation (label ++ " " ++ code))
  else
    setTables (update t ((table t).put code row))
    if raced then refuse (.uniqueViolation (label ++ " " ++ code)) else pure row

/-- Answers a query on the copy of a unit of work.  New rows are stamped with the time given. -/
def perform (now : Timestamp) : (q : Query) → Operation q.Answer
  | .account id => return (← tables).accounts.find? id
  | .addBalance id delta => addBalance now id delta
  | .createTransaction new => createTransaction now new
  | .transaction id => return (← tables).transactions.find? id
  | .setStatus id code => setStatus now id code
  | .createEntry new => createEntry now new
  | .entries transaction => return (← tables).entriesOf transaction
  | .status code => return (← tables).statuses.find? code
  | .createStatus code description =>
    createReference Tables.statuses (fun t s => { t with statuses := s }) "transaction status"
      code ⟨code, description, true⟩
  | .type code => return (← tables).types.find? code
  | .createType code description =>
    createReference Tables.types (fun t s => { t with types := s }) "transaction type"
      code ⟨code, description, true⟩
  | .currency code => return (← tables).currencies.find? code
  | .createCurrency new =>
    createReference Tables.currencies (fun t s => { t with currencies := s }) "currency"
      new.code ⟨new.code, new.name, new.symbol, true, new.exchangeRate, now⟩

end FundsTransfer.Memory
