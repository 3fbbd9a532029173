import FundsTransfer.Database.Data
import FundsTransfer.Memory.Tables
import FundsTransfer.Proofs.Backends.Mirror
import FundsTransfer.Proofs.Decimal.Exact
import FundsTransfer.Transfer.Coordinator

/-!
# The same rows in two stores

Two stores that were asked the same hold the same rows, but not under the same numbers.  A
database gives no number twice, also when it took the first one back, and the store in
memory counts what is committed.  So a `Renaming` tells which number here is which number
there, for transactions and for entries.  Accounts and reference rows have the same keys in
both.

Rows are `Alike` when their columns are the same up to the renaming, the clocks, and the
scale of numbers: a database writes a zero without fraction digits, and keeps the larger
scale where a sum in memory drops that of a zero.  `Agree` says of all six tables that they
hold rows that are alike and no others.
-/

namespace FundsTransfer

open Memory Database Data

/-! ## Numbers -/

/-- Which number here is which number there. -/
structure Renaming where
  /-- The numbers of transactions. -/
  transaction : Int → Int → Prop
  /-- The numbers of entries. -/
  entry : Int → Int → Prop

namespace Renaming

/-- No number has two names, here or there. -/
structure OneToOne (R : Renaming) : Prop where
  transaction : Relator.BiUnique R.transaction
  entry : Relator.BiUnique R.entry

/-- A renaming that tells more. -/
structure Le (R R' : Renaming) : Prop where
  transaction (a b : Int) : R.transaction a b → R'.transaction a b
  entry (a b : Int) : R.entry a b → R'.entry a b

theorem Le.refl (R : Renaming) : R.Le R := ⟨fun _ _ h => h, fun _ _ h => h⟩

theorem Le.trans {R R' R'' : Renaming} (h : R.Le R') (h' : R'.Le R'') : R.Le R'' :=
  ⟨fun a b hab => h'.transaction a b (h.transaction a b hab),
    fun a b hab => h'.entry a b (h.entry a b hab)⟩

/-- Nothing was numbered yet. -/
def none : Renaming := ⟨fun _ _ => False, fun _ _ => False⟩

end Renaming

/-- One more pair of numbers. -/
def numbered (r : Int → Int → Prop) (a b : Int) : Int → Int → Prop :=
  fun x y => r x y ∨ x = a ∧ y = b

/-- Numbers that go with each other are one-to-one, and were given out. -/
structure GivenOut (r : Int → Int → Prop) (last last' : Nat) : Prop where
  oneToOne : Relator.BiUnique r
  within {a b : Int} : r a b → a ≤ last ∧ b ≤ last'

namespace GivenOut

variable {r : Int → Int → Prop} {last last' later later' : Nat}

theorem none : GivenOut (fun _ _ => False) last last' where
  oneToOne := ⟨nofun, nofun⟩
  within := nofun

theorem mono (h : GivenOut r last last') (hle : last ≤ later) (hle' : last' ≤ later') :
    GivenOut r later later' where
  oneToOne := h.oneToOne
  within hr := by
    have := h.within hr
    omega

/-- The next number here goes with the next one there. -/
theorem next (h : GivenOut r last last') :
    GivenOut (numbered r (last + 1 : Nat) (last' + 1 : Nat)) (last + 1) (last' + 1) where
  oneToOne := by
    constructor
    · rintro a b c (ha | ⟨rfl, rfl⟩) (hb | ⟨rfl, hc⟩)
      · exact h.oneToOne.1 ha hb
      · have := h.within ha
        omega
      · have := h.within hb
        omega
      · rfl
    · rintro a b c (hb | ⟨rfl, rfl⟩) (hc | ⟨ha, rfl⟩)
      · exact h.oneToOne.2 hb hc
      · have := h.within hb
        omega
      · have := h.within hc
        omega
      · rfl
  within {a b} hr := by
    rcases hr with hr | ⟨rfl, rfl⟩
    · have := h.within hr
      omega
    · omega

end GivenOut

/-! ## Rows -/

section

variable {R R' : Renaming}

/-- The same account, but for the clocks and the scale of numbers. -/
structure Account.Alike (a a' : Account) : Prop where
  id : a.id = a'.id
  user : a.user = a'.user
  number : a.number = a'.number
  type : a.type = a'.type
  currency : a.currency = a'.currency
  balance : a.balance.toRat = a'.balance.toRat
  interestRate : a.interestRate.toRat = a'.interestRate.toRat
  overdraftLimit : a.overdraftLimit.toRat = a'.overdraftLimit.toRat
  isActive : a.isActive = a'.isActive

/-- The same transaction, but for its number, the clocks and the scale of numbers. -/
structure Transaction.Alike (R : Renaming) (t t' : Transaction) : Prop where
  id : R.transaction t.id t'.id
  sender : t.sender = t'.sender
  receiver : t.receiver = t'.receiver
  type : t.type = t'.type
  amount : t.amount.toRat = t'.amount.toRat
  currency : t.currency = t'.currency
  exchangeRate : t.exchangeRate.toRat = t'.exchangeRate.toRat
  status : t.status = t'.status
  description : t.description = t'.description
  reference : t.reference = t'.reference

/-- The same entry, but for the numbers in it, the clock and the scale of its amount. -/
structure Entry.Alike (R : Renaming) (e e' : Entry) : Prop where
  id : R.entry e.id e'.id
  account : e.account = e'.account
  transaction : Option.Rel R.transaction e.transaction e'.transaction
  amount : e.amount.toRat = e'.amount.toRat

/-- The same currency, but for the clock and the scale of its rate. -/
structure Currency.Alike (c c' : Currency) : Prop where
  code : c.code = c'.code
  name : c.name = c'.name
  symbol : c.symbol = c'.symbol
  isActive : c.isActive = c'.isActive
  exchangeRate : c.exchangeRate.toRat = c'.exchangeRate.toRat

theorem Transaction.Alike.mono {t t' : Transaction} (h : t.Alike R t') (hR : R.Le R') :
    t.Alike R' t' :=
  { h with id := hR.transaction _ _ h.id }

theorem Entry.Alike.mono {e e' : Entry} (h : e.Alike R e') (hR : R.Le R') : e.Alike R' e' where
  id := hR.entry _ _ h.id
  account := h.account
  transaction := by
    have htransaction := h.transaction
    generalize e.transaction = x at htransaction
    generalize e'.transaction = y at htransaction
    cases htransaction with
    | some h => exact .some (hR.transaction _ _ h)
    | none => exact .none
  amount := h.amount

/-! ## Numbers that cross to a database -/

@[simp] theorem toRat_crossing (d : Decimal) : (Database.crossing d).toRat = d.toRat := by
  unfold Database.crossing
  split
  · rename_i hzero
    rw [Decimal.toRat_of_isZero hzero, Decimal.toRat_of_isZero rfl]
  · rfl

theorem crossing_crossing (d : Decimal) :
    Database.crossing (Database.crossing d) = Database.crossing d := by
  by_cases hzero : d.isZero = true
  · rw [Database.crossing, Database.crossing, if_pos hzero]
    rfl
  · rw [Database.crossing, Database.crossing, if_neg hzero, if_neg hzero]

theorem crossing_of_isPositive {d : Decimal} (h : d.isPositive = true) :
    Database.crossing d = d := by
  have hzero : d.isZero = false := by
    simp only [Decimal.isPositive, Bool.and_eq_true, bne_iff_ne] at h
    simpa [Decimal.isZero] using h.2
  rw [Database.crossing, if_neg (by simp [hzero])]

theorem scale_crossing_le (d : Decimal) : (Database.crossing d).scale ≤ d.scale := by
  unfold Database.crossing
  split
  · exact Nat.zero_le _
  · rfl

/-- A row that is read is the row that is stored. -/
theorem Account.Alike.read {a a' : Account} (h : a.Alike a') : a.Alike (readAccount a') :=
  { h with
    balance := h.balance.trans (toRat_crossing _).symm
    interestRate := h.interestRate.trans (toRat_crossing _).symm
    overdraftLimit := h.overdraftLimit.trans (toRat_crossing _).symm }

theorem Transaction.Alike.read {t t' : Transaction} (h : t.Alike R t') :
    t.Alike R (readTransaction t') :=
  { h with
    amount := h.amount.trans (toRat_crossing _).symm
    exchangeRate := h.exchangeRate.trans (toRat_crossing _).symm }

theorem Entry.Alike.read {e e' : Entry} (h : e.Alike R e') : e.Alike R (readEntry e') :=
  { h with amount := h.amount.trans (toRat_crossing _).symm }

theorem Currency.Alike.read {c c' : Currency} (h : c.Alike c') : c.Alike (readCurrency c') :=
  { h with exchangeRate := h.exchangeRate.trans (toRat_crossing _).symm }

/-- A sum that stays below the limit at a scale large enough for both sides is exact in a database,
too. -/
theorem exists_exactSum?_of_lt {a b : Decimal} {scale : Nat} (ha : a.scale ≤ scale)
    (hb : b.scale ≤ scale) (hbound : |a.toRat + b.toRat| * 10 ^ scale < 2 ^ 96) :
    ∃ c, exactSum? a b = some c ∧ c.toRat = a.toRat + b.toRat ∧ c.scale ≤ scale := by
  have hdigits := Decimal.natAbs_sum_lt ha hb hbound
  have hscale : max a.scale b.scale ≤ 28 := max_le a.scale_le b.scale_le
  refine ⟨_, dif_pos ⟨hdigits, hscale⟩, ?_, max_le ha hb⟩
  rw [Decimal.toRat_add_toRat a b (Nat.le_max_left _ _) (Nat.le_max_right _ _), Decimal.toRat]
  congr 1
  simp only [Decimal.signed, decide_eq_true_eq]
  split <;> omega

/-! ## Results -/

/-- The same result of a transfer. -/
structure TransferResult.Alike (R : Renaming) (r r' : TransferResult) : Prop where
  transaction : r.transaction.Alike R r'.transaction
  fromEntry : r.fromEntry.Alike R r'.fromEntry
  toEntry : r.toEntry.Alike R r'.toEntry
  fromAccount : r.fromAccount.Alike r'.fromAccount
  toAccount : r.toAccount.Alike r'.toAccount
  status : r.status = r'.status
  transactionType : r.transactionType = r'.transactionType
  currency : r.currency.Alike r'.currency

theorem TransferResult.Alike.mono {r r' : TransferResult} (h : r.Alike R r') (hR : R.Le R') :
    r.Alike R' r' :=
  { h with
    transaction := h.transaction.mono hR
    fromEntry := h.fromEntry.mono hR
    toEntry := h.toEntry.mono hR }

/-- The same rows of the catalog. -/
structure SeededCatalog.Alike (s s' : SeededCatalog) : Prop where
  statuses : s.statuses = s'.statuses
  types : s.types = s'.types
  currencies : List.Forall₂ Currency.Alike s.currencies s'.currencies

/-! ## Tables -/

/-- The store in memory and a database hold the same rows. -/
structure Agree (R : Renaming) (t : Tables) (d : Data) : Prop where
  accounts : t.accounts.Mirrors (rowsOf d.accounts) Account.id Eq Account.Alike
  transactions : t.transactions.Mirrors (rowsOf d.transactions) Transaction.id R.transaction
    (Transaction.Alike R)
  entries : List.Forall₂ (Entry.Alike R) t.entries (rowsOf d.entries)
  statuses : t.statuses.Mirrors (rowsOf d.statuses) TransactionStatus.code Eq Eq
  types : t.types.Mirrors (rowsOf d.types) TransactionType.code Eq Eq
  currencies : t.currencies.Mirrors (rowsOf d.currencies) Currency.code Eq Currency.Alike

theorem Agree.mono {t : Tables} {d : Data} (h : Agree R t d) (hR : R.Le R') : Agree R' t d :=
  { h with
    transactions := h.transactions.mono hR.transaction fun _ _ hrow => hrow.mono hR
    entries := h.entries.imp fun _ _ hrow => hrow.mono hR }

end

end FundsTransfer
