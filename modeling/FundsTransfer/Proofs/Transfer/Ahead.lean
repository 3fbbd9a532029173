import FundsTransfer.Proofs.Transfer.Posting
import FundsTransfer.Proofs.Transfer.Seeding

/-!
# Rows that are written ahead

A transfer writes the reference rows that it needs and does not find.  Somebody may have
written them ahead.  Then the transfer finds the rows that it would have written, because
the catalog has one row for a code, and nothing else about it is different.

`Ahead` relates tables to tables in which rows were written ahead.  A transfer that goes
through on both has the same result, and it leaves tables of which the same can be said:
the rows that it wrote itself on the one side are on both sides now.
-/

namespace FundsTransfer

open Memory

/-! ## One table -/

namespace ReferenceTable

variable {k : ReferenceTable} {now : Timestamp}

variable (k) in
/-- A table in which some rows of the catalog were written ahead. -/
def Leads (now : Timestamp) (rows ahead : Table String k.Row) : Prop :=
  ∀ code, ahead.find? code = rows.find? code ∨
    rows.find? code = none ∧ ∃ row, ahead.find? code = some row ∧ k.CatalogRow now code row

theorem Seeds.leads {codes : List String} {before after : Table String k.Row} {rows : List k.Row}
    (h : k.Seeds now codes before rows after) : k.Leads now before after := by
  intro code
  cases hbefore : before.find? code with
  | some row => exact .inl (h.kept hbefore)
  | none =>
      cases hafter : after.find? code with
      | none => exact .inl rfl
      | some row => exact .inr ⟨rfl, row, rfl, (h.added hbefore hafter).2⟩

variable {before before' after after' : Table String k.Row} {code : String} {row row' : k.Row}

/-- A code has the same row, whether it is written now or was written ahead. -/
theorem Leads.row_eq (h : k.Leads now before before')
    (hrow : before.Ensured (fun row => k.CatalogRow now code row) code after row)
    (hrow' : before'.Ensured (fun row => k.CatalogRow now code row) code after' row') :
    row' = row := by
  obtain hsame | ⟨hnone, first, hfirst, hcatalog⟩ := h code
  · cases hrow with
    | found hfound _ =>
        cases hrow' with
        | found hfound' _ => exact Option.some.inj (hfound'.symm.trans (hsame.trans hfound))
        | written hnone' _ _ => cases hnone'.symm.trans (hsame.trans hfound)
    | written hnone hcatalog _ =>
        cases hrow' with
        | found hfound' _ => cases hfound'.symm.trans (hsame.trans hnone)
        | written _ hcatalog' _ => exact k.catalogRow_unique hcatalog' hcatalog
  · cases hrow with
    | found hfound _ => cases hnone.symm.trans hfound
    | written _ hlate _ =>
        cases hrow' with
        | found hfound' _ =>
            cases hfound'.symm.trans hfirst
            exact k.catalogRow_unique hcatalog hlate
        | written hnone' _ _ => cases hnone'.symm.trans hfirst

theorem Leads.ensured (h : k.Leads now before before')
    (hrow : before.Ensured (fun row => k.CatalogRow now code row) code after row)
    (hrow' : before'.Ensured (fun row => k.CatalogRow now code row) code after' row') :
    row' = row ∧ k.Leads now after after' := by
  have hsame := h.row_eq hrow hrow'
  refine ⟨hsame, fun other => ?_⟩
  rw [hrow.find?, hrow'.find?, hsame]
  split
  · exact .inl rfl
  · exact h other

end ReferenceTable

/-! ## The whole store -/

/-- Tables in which some reference rows of the catalog were written ahead. -/
structure Memory.Tables.Ahead (now : Timestamp) (t ahead : Tables) : Prop where
  ledger : t.SameLedger ahead
  rows (k : ReferenceTable) : k.Leads now (k.table t) (k.table ahead)

theorem Memory.Tables.Ahead.refl (now : Timestamp) (t : Tables) : t.Ahead now t where
  ledger := ⟨rfl, rfl, rfl, rfl, rfl, rfl⟩
  rows _ _ := .inl rfl

/-- The row of an account after an addition comes from the row before. -/
theorem account_unique {accounts : Table Int Account} {id : Int} {delta : Decimal}
    {now : Timestamp} {row row' : Account}
    (h : ∃ old balance, accounts.find? id = some old ∧ old.isActive = true ∧
      old.balance.add? delta = some balance ∧ row = { old with balance, updatedAt := now })
    (h' : ∃ old balance, accounts.find? id = some old ∧ old.isActive = true ∧
      old.balance.add? delta = some balance ∧ row' = { old with balance, updatedAt := now }) :
    row' = row := by
  obtain ⟨old, balance, hold, -, hsum, rfl⟩ := h
  obtain ⟨old', balance', hold', -, hsum', rfl⟩ := h'
  cases hold'.symm.trans hold
  cases hsum'.symm.trans hsum
  rfl

/-- What was posted is the same where reference rows were written ahead. -/
theorem Posted.ahead {v : ValidTransfer} {reference description : String}
    {t t' t₁ t₁' : Tables} {r r' : TransferResult} (h : Posted v reference description t t₁ r)
    (h' : Posted v reference description t' t₁' r') (hahead : t.Ahead .epoch t') :
    r' = r ∧ t₁.Ahead .epoch t₁' := by
  obtain ⟨hledger, hrows⟩ := hahead
  have htransaction : r'.transaction = r.transaction := by
    rw [h'.transaction, h.transaction, hledger.lastTransaction]
  have hfromEntry : r'.fromEntry = r.fromEntry := by
    rw [h'.fromEntry, h.fromEntry, htransaction, hledger.lastEntry]
  have htoEntry : r'.toEntry = r.toEntry := by
    rw [h'.toEntry, h.toEntry, htransaction, hledger.lastEntry]
  have hfromAccount : r'.fromAccount = r.fromAccount :=
    account_unique h.sender (hledger.accounts ▸ h'.sender)
  have htoAccount : r'.toAccount = r.toAccount :=
    account_unique h.receiver (hledger.accounts ▸ h'.receiver)
  obtain ⟨between, pending, hpending, hcompleted⟩ := h.statuses
  obtain ⟨between', pending', hpending', hcompleted'⟩ := h'.statuses
  obtain ⟨-, hbetween⟩ := (hrows .status).ensured hpending hpending'
  obtain ⟨hstatus, hstatuses⟩ := hbetween.ensured hcompleted hcompleted'
  obtain ⟨htype, htypes⟩ := (hrows .type).ensured h.types h'.types
  obtain ⟨hcurrency, hcurrencies⟩ := (hrows .currency).ensured h.currencies h'.currencies
  constructor
  · obtain ⟨_, _, _, _, _, _, _, _⟩ := r
    obtain ⟨_, _, _, _, _, _, _, _⟩ := r'
    cases htransaction
    cases hfromEntry
    cases htoEntry
    cases hfromAccount
    cases htoAccount
    cases hstatus
    cases htype
    cases hcurrency
    rfl
  · refine ⟨?_, fun k => ?_⟩
    · exact
        { accounts := by
            rw [h'.accounts, h.accounts, hledger.accounts, hfromAccount, htoAccount]
          transactions := by
            rw [h'.transactions, h.transactions, hledger.transactions, htransaction]
          entries := by rw [h'.entries, h.entries, hledger.entries, hfromEntry, htoEntry]
          lastAccount := by rw [h'.lastAccount, h.lastAccount, hledger.lastAccount]
          lastTransaction := by
            rw [h'.lastTransaction, h.lastTransaction, hledger.lastTransaction]
          lastEntry := by rw [h'.lastEntry, h.lastEntry, hledger.lastEntry] }
    · cases k with
      | status => exact hstatuses
      | type => exact htypes
      | currency => exact hcurrencies

end FundsTransfer
