import FundsTransfer.Row

/-!
# The rows of the stand-in database

The stand-in database holds six tables in the order in which their rows were inserted.
A table exists from the first statement on that mentions it, so a table may exist
without rows.

Numbers reach the database and leave it with their scale, except that a zero is always
`0`.  What arithmetic leaves in a table can be a zero with another scale; it is stored
with that scale, and read as `0`.
-/

namespace FundsTransfer.Database

/-- The six tables, each from the moment it is first mentioned. -/
structure Data where
  /-- The accounts. -/
  accounts : Option (List Account)
  /-- The transactions. -/
  transactions : Option (List Transaction)
  /-- The entries. -/
  entries : Option (List Entry)
  /-- The statuses. -/
  statuses : Option (List TransactionStatus)
  /-- The types. -/
  types : Option (List TransactionType)
  /-- The currencies. -/
  currencies : Option (List Currency)
deriving DecidableEq

namespace Data

/-- No table was mentioned. -/
def empty : Data := ⟨none, none, none, none, none, none⟩

instance : Inhabited Data := ⟨empty⟩

/-- The rows of a table. -/
def rowsOf {ρ : Type} (table : Option (List ρ)) : List ρ := table.getD []

/-- The table with a row inserted. -/
def insert {ρ : Type} (table : Option (List ρ)) (row : ρ) : Option (List ρ) :=
  some (rowsOf table ++ [row])

/-- The table with every row that fulfils a condition changed. -/
def update {ρ : Type} (table : Option (List ρ)) (condition : ρ → Bool) (change : ρ → ρ) :
    Option (List ρ) :=
  some ((rowsOf table).map fun r => if condition r then change r else r)

/-- The table, which exists from now on. -/
def mention {ρ : Type} (table : Option (List ρ)) : Option (List ρ) := some (rowsOf table)

end Data

/-- A number as it crosses to the database and back. -/
def crossing (d : Decimal) : Decimal := if d.isZero then .zero else d

/-- The sum of two numbers as the database works it out: exact, at the larger scale. -/
def exactSum? (a b : Decimal) : Option Decimal :=
  let scale := max a.scale b.scale
  let sum := a.digitsAt scale + b.digitsAt scale
  Decimal.ofParts? (decide (sum < 0)) sum.natAbs scale

/-- An account as it is read. -/
def readAccount (a : Account) : Account :=
  { a with
    balance := crossing a.balance
    interestRate := crossing a.interestRate
    overdraftLimit := crossing a.overdraftLimit }

/-- A transaction as it is read. -/
def readTransaction (t : Transaction) : Transaction :=
  { t with amount := crossing t.amount, exchangeRate := crossing t.exchangeRate }

/-- An entry as it is read. -/
def readEntry (e : Entry) : Entry := { e with amount := crossing e.amount }

/-- A currency as it is read. -/
def readCurrency (c : Currency) : Currency := { c with exchangeRate := crossing c.exchangeRate }

end FundsTransfer.Database
