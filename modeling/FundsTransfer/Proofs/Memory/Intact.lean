import FundsTransfer.Proofs.Memory.Integrity
import FundsTransfer.Proofs.Text.Numeral

/-!
# Intact tables

Well-formed tables are *intact* when they are what a database with all its constraints
would hold: accounts and transactions have exactly the numbers given out, the list of
entries counts from one, no account number and no reference number is used twice, and
every row that a transaction or an entry names is there.

The store checks what a new row refers to when it is written, and never again.  So that
a row stays meaningful rests on `Grows`: nothing that refers to a row can outlive it,
because no row is ever taken away.  Of an account only the balance, the flag and a clock
column change, of a transaction the status and a clock column, and of an entry or a
reference row nothing.
-/

namespace FundsTransfer

/-! ## Account numbers -/

/-- Two accounts with the same number are one account. -/
theorem accountNumber_injective {m n : Nat} (h : accountNumber m = accountNumber n) : m = n := by
  have hdigits : Text.padded 10 m = Text.padded 10 n :=
    String.ofList_injective (String.append_right_inj _ |>.1 h)
  rw [← Text.digitsValue_padded 10 m, hdigits, Text.digitsValue_padded]

namespace Memory.Tables

/-! ## Tables that grow -/

/-- An account that is the same but for its balance, its flag and the clock column. -/
def SameAccount (a a' : Account) : Prop :=
  ∃ balance isActive updatedAt, a' = { a with balance, isActive, updatedAt }

/-- A transaction that is the same but for its status and the clock column. -/
def SameTransaction (row row' : Transaction) : Prop :=
  ∃ status updatedAt, row' = { row with status, updatedAt }

theorem SameAccount.refl (a : Account) : SameAccount a a := ⟨_, _, _, rfl⟩

theorem SameAccount.trans {a a' a'' : Account} (h : SameAccount a a') (h' : SameAccount a' a'') :
    SameAccount a a'' := by
  obtain ⟨_, _, _, rfl⟩ := h
  obtain ⟨_, _, _, rfl⟩ := h'
  exact ⟨_, _, _, rfl⟩

theorem SameTransaction.refl (row : Transaction) : SameTransaction row row := ⟨_, _, rfl⟩

theorem SameTransaction.trans {row row' row'' : Transaction} (h : SameTransaction row row')
    (h' : SameTransaction row' row'') : SameTransaction row row'' := by
  obtain ⟨_, _, rfl⟩ := h
  obtain ⟨_, _, rfl⟩ := h'
  exact ⟨_, _, rfl⟩

/-- No row went away, and of those that were there only what may change did. -/
structure Grows (t t' : Tables) : Prop where
  accounts : t.accounts.Persists SameAccount t'.accounts
  transactions : t.transactions.Persists SameTransaction t'.transactions
  entries : t.entries <+: t'.entries
  statuses : t.statuses.Persists Eq t'.statuses
  types : t.types.Persists Eq t'.types
  currencies : t.currencies.Persists Eq t'.currencies

variable {t t' t'' : Tables} {now : Timestamp}

theorem Grows.refl (t : Tables) : t.Grows t where
  accounts := .refl SameAccount.refl _
  transactions := .refl SameTransaction.refl _
  entries := List.prefix_rfl
  statuses := .refl (fun _ => rfl) _
  types := .refl (fun _ => rfl) _
  currencies := .refl (fun _ => rfl) _

theorem Grows.trans (h : t.Grows t') (h' : t'.Grows t'') : t.Grows t'' where
  accounts := h.accounts.trans SameAccount.trans h'.accounts
  transactions := h.transactions.trans SameTransaction.trans h'.transactions
  entries := h.entries.trans h'.entries
  statuses := h.statuses.trans Eq.trans h'.statuses
  types := h.types.trans Eq.trans h'.types
  currencies := h.currencies.trans Eq.trans h'.currencies

theorem grows_putAccount {id : Int} {a : Account}
    (ha : ∀ old, t.accounts.find? id = some old → SameAccount old a) :
    t.Grows { t with accounts := t.accounts.put id a } :=
  { Grows.refl t with accounts := Table.persists_put SameAccount.refl ha }

theorem grows_openAccount (ht : t.WellFormed) (user : Int) (currency : String)
    (balance : Decimal) : t.Grows (t.openAccount now user currency balance).2 where
  accounts := Table.persists_put SameAccount.refl fun old hold => by
    rw [ht.accounts_within.find?_next] at hold
    cases hold
  __ := Grows.refl t

theorem grows_deactivate (t : Tables) (id : Int) : t.Grows (t.deactivate id) := by
  unfold deactivate
  split
  · rename_i a hfind
    refine grows_putAccount fun old hold => ?_
    rw [hfind] at hold
    cases hold
    exact ⟨_, _, _, rfl⟩
  · exact .refl t

/-- A row that is written where there was none takes nothing away. -/
theorem persists_put_new {ρ : Type} {table : Table String ρ} {code : String}
    (hnew : table.contains code = false) (row : ρ) : table.Persists Eq (table.put code row) := by
  refine Table.persists_put (fun _ => rfl) fun old hold => ?_
  rw [Table.contains_eq_false.1 hnew] at hold
  cases hold

/-- A query takes nothing away. -/
theorem grows_of_change (ht : t.WellFormed) {q : Query} (h : Change now q t t') :
    t.Grows t' := by
  have hsame := Grows.refl t
  cases h with
  | none => exact hsame
  | balance hold hsum =>
      refine grows_putAccount fun a ha => ?_
      rw [hold] at ha
      cases ha
      exact ⟨_, _, _, rfl⟩
  | transaction hnew =>
      refine { hsame with
        transactions := Table.persists_put SameTransaction.refl fun old hold => ?_ }
      rw [ht.transactions_within.find?_next] at hold
      cases hold
  | status hcode hold =>
      refine { hsame with
        transactions := Table.persists_put SameTransaction.refl fun row hrow => ?_ }
      rw [hold] at hrow
      cases hrow
      exact ⟨_, _, rfl⟩
  | entry haccount htransaction => exact { hsame with entries := List.prefix_append _ _ }
  | newStatus hnew => exact { hsame with statuses := persists_put_new hnew _ }
  | newType hnew => exact { hsame with types := persists_put_new hnew _ }
  | newCurrency hnew => exact { hsame with currencies := persists_put_new hnew _ }

/-! ## Rows that refer to others -/

/-- Everything that a transaction names is there. -/
structure Refers (t : Tables) (row : Transaction) : Prop where
  sender : ∃ id ∈ row.sender, t.accounts.contains id = true
  receiver : ∃ id ∈ row.receiver, t.accounts.contains id = true
  status : t.statuses.contains row.status = true
  type : t.types.contains row.type = true
  currency : t.currencies.contains row.currency = true

/-- The account and the transaction that an entry names are there. -/
structure Backs (t : Tables) (e : Entry) : Prop where
  account : ∃ id ∈ e.account, t.accounts.contains id = true
  transaction : ∃ id ∈ e.transaction, t.transactions.contains id = true

theorem Refers.grows {row : Transaction} (h : t.Refers row) (hgrows : t.Grows t') :
    t'.Refers row where
  sender := h.sender.imp fun _ hid => ⟨hid.1, hgrows.accounts.contains hid.2⟩
  receiver := h.receiver.imp fun _ hid => ⟨hid.1, hgrows.accounts.contains hid.2⟩
  status := hgrows.statuses.contains h.status
  type := hgrows.types.contains h.type
  currency := hgrows.currencies.contains h.currency

theorem Backs.grows {e : Entry} (h : t.Backs e) (hgrows : t.Grows t') : t'.Backs e where
  account := h.account.imp fun _ hid => ⟨hid.1, hgrows.accounts.contains hid.2⟩
  transaction := h.transaction.imp fun _ hid => ⟨hid.1, hgrows.transactions.contains hid.2⟩

/-! ## Intact tables -/

/-- The constraints that a database would have on these tables. -/
structure Intact (t : Tables) : Prop extends t.WellFormed where
  account_ids : t.accounts.keys = Table.numbers t.lastAccount
  account_number : ∀ id a, t.accounts.find? id = some a → a.number = accountNumber id.toNat
  transactions_ascending : t.transactions.Ascending
  transaction_ids : t.transactions.keys = Table.numbers t.lastTransaction
  transaction_refers : ∀ id row, t.transactions.find? id = some row → t.Refers row
  reference_unique : ∀ id id' row row', t.transactions.find? id = some row →
    t.transactions.find? id' = some row' → row.reference = row'.reference → id = id'
  entry_ids : t.entries.map Entry.id = Table.numbers t.lastEntry
  entry_backs : ∀ e ∈ t.entries, t.Backs e
  status_codes : t.statuses.keys.Nodup
  type_codes : t.types.keys.Nodup
  currency_codes : t.currencies.keys.Nodup

theorem intact_empty : empty.Intact where
  account_ids := rfl
  account_number id a ha := by cases ha
  transactions_ascending := Table.ascending_empty
  transaction_ids := rfl
  transaction_refers id row hrow := by cases hrow
  reference_unique id id' row row' hrow := by cases hrow
  entry_ids := rfl
  entry_backs e he := by cases he
  status_codes := List.nodup_nil
  type_codes := List.nodup_nil
  currency_codes := List.nodup_nil
  __ := wellFormed_empty

/-- No two accounts have the same account number. -/
theorem Intact.number_unique (h : t.Intact) {id id' : Int} {a a' : Account}
    (ha : t.accounts.find? id = some a) (ha' : t.accounts.find? id' = some a')
    (hnumber : a.number = a'.number) : id = id' := by
  rw [h.account_number id a ha, h.account_number id' a' ha'] at hnumber
  have := h.accounts_within id a ha
  have := h.accounts_within id' a' ha'
  have := accountNumber_injective hnumber
  omega

/-- A reference number is in use when a transaction carries it. -/
theorem Intact.hasReference_iff (h : t.Intact) {reference : String} :
    t.hasReference reference = true ↔
      ∃ id row, t.transactions.find? id = some row ∧ row.reference = some reference := by
  simp only [hasReference, List.any_eq_true, beq_iff_eq,
    Table.mem_rows h.transactions_ascending.keys_nodup]
  constructor
  · rintro ⟨row, ⟨id, hfind⟩, hrow⟩
    exact ⟨id, row, hfind, hrow⟩
  · rintro ⟨id, row, hfind, hrow⟩
    exact ⟨row, ⟨id, hfind⟩, hrow⟩

/-! ## What keeps tables intact -/

/-- An account that keeps its id and its number may be written over another. -/
theorem Intact.putAccount (h : t.Intact) {id : Int} {old a : Account}
    (hold : t.accounts.find? id = some old) (ha : SameAccount old a) :
    { t with accounts := t.accounts.put id a }.Intact := by
  have hgrows : t.Grows { t with accounts := t.accounts.put id a } := by
    refine grows_putAccount fun a' ha' => ?_
    rw [hold] at ha'
    exact Option.some.inj ha' ▸ ha
  have hnumber : a.number = accountNumber id.toNat := by
    obtain ⟨_, _, _, rfl⟩ := ha
    exact h.account_number id old hold
  have hid : a.id = old.id := by
    obtain ⟨_, _, _, rfl⟩ := ha
    rfl
  exact { h with
    toWellFormed := h.toWellFormed.putAccount hold hid
    account_ids := (h.accounts_ascending.keys_put hold a).trans h.account_ids
    account_number := Table.forall_put h.account_number hnumber
    transaction_refers := fun id row hfind => (h.transaction_refers id row hfind).grows hgrows
    entry_backs := fun e he => (h.entry_backs e he).grows hgrows }

theorem Intact.openAccount (h : t.Intact) (user : Int) (currency : String) (balance : Decimal) :
    (t.openAccount now user currency balance).2.Intact := by
  have hgrows : t.Grows (t.openAccount now user currency balance).2 :=
    grows_openAccount h.toWellFormed user currency balance
  exact { h with
    toWellFormed := h.toWellFormed.openAccount user currency balance
    account_ids := Table.keys_put_next h.account_ids _
    account_number := Table.forall_put h.account_number rfl
    transaction_refers := fun id row hfind => (h.transaction_refers id row hfind).grows hgrows
    entry_backs := fun e he => (h.entry_backs e he).grows hgrows }

theorem Intact.deactivate (h : t.Intact) (id : Int) : (t.deactivate id).Intact := by
  unfold Tables.deactivate
  split
  · rename_i a hfind
    exact h.putAccount hfind ⟨_, _, _, rfl⟩
  · exact h

theorem Intact.insertTransaction (h : t.Intact) {new : NewTransaction} (hnew : t.Admits new) :
    (t.insertTransaction now new).2.Intact := by
  have hchange : Change now (.createTransaction new) t (t.insertTransaction now new).2 :=
    .transaction hnew
  have hgrows := grows_of_change h.toWellFormed hchange
  have hunused : ∀ id row, t.transactions.find? id = some row →
      row.reference ≠ some new.reference := by
    intro id row hfind hrow
    have hused := h.hasReference_iff.2 ⟨id, row, hfind, hrow⟩
    rw [hnew.reference] at hused
    cases hused
  refine { h with
    toWellFormed := h.toWellFormed.insertTransaction new
    transactions_ascending := h.transactions_ascending.put _ _
    transaction_ids := Table.keys_put_next h.transaction_ids _
    transaction_refers := ?_
    reference_unique := ?_
    entry_backs := fun e he => (h.entry_backs e he).grows hgrows }
  · refine Table.forall_put (fun id row hfind => (h.transaction_refers id row hfind).grows hgrows)
      ⟨⟨_, rfl, hnew.sender⟩, ⟨_, rfl, hnew.receiver⟩, hnew.status, hnew.type, hnew.currency⟩
  · intro id id' row row' hrow hrow' heq
    simp only [Tables.insertTransaction, Table.find?_put] at hrow hrow'
    split at hrow
    · split at hrow'
      · rename_i hid hid'
        exact hid.trans hid'.symm
      · cases hrow
        exact absurd heq.symm (hunused id' row' hrow')
    · split at hrow'
      · cases hrow'
        exact absurd heq (hunused id row hrow)
      · exact h.reference_unique id id' row row' hrow hrow' heq

theorem Intact.restate (h : t.Intact) {id : Int} {code : String} {old : Transaction}
    (hcode : t.statuses.contains code = true) (hold : t.transactions.find? id = some old) :
    { t with transactions := t.transactions.put id
              { old with status := code, updatedAt := now } }.Intact := by
  have hchange : Change now (.setStatus id code) t _ := .status hcode hold
  have hgrows := grows_of_change h.toWellFormed hchange
  have hrefers := h.transaction_refers id old hold
  have hstale : ∀ id' row, (t.transactions.put id { old with status := code, updatedAt := now }
      ).find? id' = some row → ∃ row', t.transactions.find? id' = some row' ∧
        row'.reference = row.reference := by
    intro id' row hfind
    rw [Table.find?_put] at hfind
    split at hfind
    · rename_i hid
      cases hfind
      exact ⟨old, hid ▸ hold, rfl⟩
    · exact ⟨row, hfind, rfl⟩
  refine { h with
    toWellFormed := h.toWellFormed.change hchange
    transactions_ascending := h.transactions_ascending.put _ _
    transaction_ids := (h.transactions_ascending.keys_put hold _).trans h.transaction_ids
    transaction_refers := ?_
    reference_unique := ?_
    entry_backs := fun e he => (h.entry_backs e he).grows hgrows }
  · exact Table.forall_put (fun id row hfind => (h.transaction_refers id row hfind).grows hgrows)
      { hrefers with status := hcode }
  · intro id₁ id₂ row₁ row₂ hrow₁ hrow₂ heq
    obtain ⟨old₁, hold₁, heq₁⟩ := hstale id₁ row₁ hrow₁
    obtain ⟨old₂, hold₂, heq₂⟩ := hstale id₂ row₂ hrow₂
    exact h.reference_unique id₁ id₂ old₁ old₂ hold₁ hold₂ (heq₁.trans (heq.trans heq₂.symm))

theorem Intact.insertEntry (h : t.Intact) {new : NewEntry}
    (haccount : t.accounts.contains new.account = true)
    (htransaction : t.transactions.contains new.transaction = true) :
    (t.insertEntry now new).2.Intact := by
  have hchange : Change now (.createEntry new) t (t.insertEntry now new).2 :=
    .entry haccount htransaction
  have hgrows := grows_of_change h.toWellFormed hchange
  refine { h with
    toWellFormed := h.toWellFormed.change hchange
    transaction_refers := fun id row hfind => (h.transaction_refers id row hfind).grows hgrows
    entry_ids := ?_
    entry_backs := ?_ }
  · simp [Tables.insertEntry, Table.numbers_succ, h.entry_ids]
  · intro e he
    rcases List.mem_append.1 he with he | he
    · exact (h.entry_backs e he).grows hgrows
    · rw [List.mem_singleton.1 he]
      exact ⟨⟨_, rfl, haccount⟩, ⟨_, rfl, htransaction⟩⟩

/-- Whatever a query does to intact tables, they stay intact. -/
theorem Intact.change (h : t.Intact) {q : Query} (hchange : Change now q t t') : t'.Intact := by
  have hwell := h.toWellFormed.change hchange
  have hgrows := grows_of_change h.toWellFormed hchange
  have hrefers : ∀ id row, t.transactions.find? id = some row → t'.Refers row :=
    fun id row hfind => (h.transaction_refers id row hfind).grows hgrows
  have hbacks : ∀ e ∈ t.entries, t'.Backs e := fun e he => (h.entry_backs e he).grows hgrows
  cases hchange with
  | none => exact h
  | balance hold hsum => exact h.putAccount hold ⟨_, _, _, rfl⟩
  | transaction hnew => exact h.insertTransaction hnew
  | status hcode hold => exact h.restate hcode hold
  | entry haccount htransaction => exact h.insertEntry haccount htransaction
  | newStatus hnew =>
      exact { h with
        toWellFormed := hwell
        transaction_refers := hrefers
        entry_backs := hbacks
        status_codes := Table.nodup_keys_put h.status_codes hnew _ }
  | newType hnew =>
      exact { h with
        toWellFormed := hwell
        transaction_refers := hrefers
        entry_backs := hbacks
        type_codes := Table.nodup_keys_put h.type_codes hnew _ }
  | newCurrency hnew =>
      exact { h with
        toWellFormed := hwell
        transaction_refers := hrefers
        entry_backs := hbacks
        currency_codes := Table.nodup_keys_put h.currency_codes hnew _ }

/-- However work ends, intact tables stay intact. -/
theorem Intact.ends {α : Type} {w : Work α} {o : Outcome α} (h : t.Intact)
    (hends : w.Ends (Answers now) t o t') : t'.Intact :=
  (hends.refines (fun ht hanswers => ⟨hanswers, ht.change (change_of_gives hanswers)⟩) h).2

end Memory.Tables

end FundsTransfer
