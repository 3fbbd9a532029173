import FundsTransfer.Proofs.Memory.Answer
import FundsTransfer.Proofs.Memory.Table

/-!
# Well-formed tables

Rows stand under their own numbers or codes, and the numbers given out so far are at most
the last ones.  The store never checks this.  It holds because every change of the tables
keeps it, `WellFormed.change`, and the empty tables have it.

A reference row that a query finds has the code that it was looked for with, and the
number a new transaction gets is not in use.
-/

namespace FundsTransfer.Memory.Tables

/-- Rows stand under their own keys, and the last numbers are up to date. -/
structure WellFormed (t : Tables) : Prop where
  accounts_ascending : t.accounts.Ascending
  account_id : t.accounts.Keyed Account.id
  accounts_within : t.accounts.Within t.lastAccount
  transaction_id : t.transactions.Keyed Transaction.id
  transactions_within : t.transactions.Within t.lastTransaction
  status_code : t.statuses.Keyed TransactionStatus.code
  type_code : t.types.Keyed TransactionType.code
  currency_code : t.currencies.Keyed Currency.code

variable {t t' : Tables} {now : Timestamp}

theorem wellFormed_empty : empty.WellFormed where
  accounts_ascending := Table.ascending_empty
  account_id := Table.keyed_empty _
  accounts_within := Table.within_empty _
  transaction_id := Table.keyed_empty _
  transactions_within := Table.within_empty _
  status_code := Table.keyed_empty _
  type_code := Table.keyed_empty _
  currency_code := Table.keyed_empty _

/-- An account written over one with its number keeps the tables well formed. -/
theorem WellFormed.putAccount (h : t.WellFormed) {id : Int} {old a : Account}
    (hold : t.accounts.find? id = some old) (ha : a.id = old.id) :
    { t with accounts := t.accounts.put id a }.WellFormed :=
  { h with
    accounts_ascending := h.accounts_ascending.put id a
    account_id := h.account_id.put (ha.trans (h.account_id id old hold))
    accounts_within := h.accounts_within.put (h.accounts_within id old hold) }

theorem WellFormed.openAccount (h : t.WellFormed) (user : Int) (currency : String)
    (balance : Decimal) : (t.openAccount now user currency balance).2.WellFormed :=
  { h with
    accounts_ascending := h.accounts_ascending.put _ _
    account_id := h.account_id.put rfl
    accounts_within := h.accounts_within.put_next }

theorem WellFormed.deactivate (h : t.WellFormed) (id : Int) : (t.deactivate id).WellFormed := by
  unfold Tables.deactivate
  split
  · rename_i a hfind
    exact h.putAccount hfind rfl
  · exact h

theorem WellFormed.insertTransaction (h : t.WellFormed) (new : NewTransaction) :
    (t.insertTransaction now new).2.WellFormed :=
  { h with
    transaction_id := h.transaction_id.put rfl
    transactions_within := h.transactions_within.put_next }

/-- Whatever a query does to well-formed tables, they stay well formed. -/
theorem WellFormed.change (h : t.WellFormed) {q : Query} (hchange : Change now q t t') :
    t'.WellFormed := by
  cases hchange with
  | none => exact h
  | balance hold hsum => exact h.putAccount hold rfl
  | transaction hnew => exact h.insertTransaction _
  | status hcode hold =>
      have hid := h.transaction_id _ _ hold
      exact { h with
        transaction_id := h.transaction_id.put hid
        transactions_within := h.transactions_within.put (h.transactions_within _ _ hold) }
  | entry haccount htransaction => exact { h with }
  | newStatus hnew => exact { h with status_code := h.status_code.put rfl }
  | newType hnew => exact { h with type_code := h.type_code.put rfl }
  | newCurrency hnew => exact { h with currency_code := h.currency_code.put rfl }

/-- However work ends, well-formed tables stay well formed. -/
theorem WellFormed.ends {α : Type} {w : Work α} {o : Outcome α} (h : t.WellFormed)
    (hends : w.Ends (Answers now) t o t') : t'.WellFormed :=
  (hends.refines (fun ht hanswers => ⟨hanswers, ht.change (change_of_gives hanswers)⟩) h).2

end FundsTransfer.Memory.Tables
