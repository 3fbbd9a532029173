import FundsTransfer.Proofs.Rehearsal.Reachable
import FundsTransfer.Proofs.Transfer.Atomicity
import FundsTransfer.Proofs.Transfer.Resolution

/-!
# What a successful transfer does

`Posted` says everything that a transfer which ended with a result did to the tables: one
transaction, two entries, two balances, and the reference rows that were missing.  The
tables have no part that it does not speak of, so it is also a frame condition.

It is put together from one statement about each step of `runTransfer`, in the order of
the steps.  The two balances change in the order of their numbers.  `Table.put_comm` makes
this order irrelevant for the result.
-/

namespace FundsTransfer

open Memory

/-- What a transfer with a result did to the tables.  `t` and `t'` are the tables before and
after. -/
structure Posted (v : ValidTransfer) (reference description : String) (t t' : Tables)
    (r : TransferResult) : Prop where
  /-- The transaction has the next number, is completed, and is made of what was asked. -/
  transaction : r.transaction =
    { id := (t.lastTransaction + 1 : Nat), sender := some v.sender, receiver := some v.receiver,
      type := "TRANSFER", amount := v.amount, currency := v.currency,
      exchangeRate := v.exchangeRate, status := "COMPLETED", description := some description,
      reference := some reference, date := .epoch, createdAt := .epoch, updatedAt := .epoch }
  /-- No transaction had this number. -/
  fresh : t.transactions.find? r.transaction.id = none
  /-- No transaction had this reference number. -/
  unused : t.hasReference reference = false
  /-- The transaction is the only one that was written. -/
  transactions : t'.transactions = t.transactions.put r.transaction.id r.transaction
  /-- The debit takes the amount from the sender. -/
  fromEntry : r.fromEntry =
    { id := (t.lastEntry + 1 : Nat), account := some v.sender,
      transaction := some r.transaction.id, amount := v.amount.negate, createdAt := .epoch }
  /-- The credit gives the amount to the receiver. -/
  toEntry : r.toEntry =
    { id := (t.lastEntry + 2 : Nat), account := some v.receiver,
      transaction := some r.transaction.id, amount := v.amount, createdAt := .epoch }
  /-- The two entries come after all others, the debit first. -/
  entries : t'.entries = t.entries ++ [r.fromEntry, r.toEntry]
  /-- The sender was open, and its balance is the sum of the old one and the negated amount. -/
  sender : ∃ old balance, t.accounts.find? v.sender = some old ∧ old.isActive = true ∧
    old.balance.add? v.amount.negate = some balance ∧
    r.fromAccount = { old with balance, updatedAt := .epoch }
  /-- The receiver was open, and its balance is the sum of the old one and the amount. -/
  receiver : ∃ old balance, t.accounts.find? v.receiver = some old ∧ old.isActive = true ∧
    old.balance.add? v.amount = some balance ∧
    r.toAccount = { old with balance, updatedAt := .epoch }
  /-- The two accounts are the only ones that were written. -/
  accounts : t'.accounts = (t.accounts.put v.sender r.fromAccount).put v.receiver r.toAccount
  /-- The type was there or was added. -/
  types : t.types.Ensured (· = Reference.catalogType "TRANSFER") "TRANSFER" t'.types
    r.transactionType
  /-- The two statuses were there or were added. -/
  statuses : ∃ between pending,
    t.statuses.Ensured (· = Reference.catalogStatus "PENDING") "PENDING" between pending ∧
      between.Ensured (· = Reference.catalogStatus "COMPLETED") "COMPLETED" t'.statuses r.status
  /-- The currency was there or was added. -/
  currencies : t.currencies.Ensured (Reference.CatalogCurrency .epoch v.currency) v.currency
    t'.currencies r.currency
  lastAccount : t'.lastAccount = t.lastAccount
  lastTransaction : t'.lastTransaction = t.lastTransaction + 1
  lastEntry : t'.lastEntry = t.lastEntry + 2

/-! ## The steps -/

section

variable {now : Timestamp} {t t' : Tables}

/-- A transaction that was written is the next one. -/
theorem created_of_answers {new : NewTransaction} {row : Transaction}
    (h : Answers now t (.createTransaction new) (.ok row) t') :
    row = (t.insertTransaction now new).1 ∧ t' = (t.insertTransaction now new).2 ∧
      t.hasReference new.reference = false := by
  obtain href | ⟨hrow, ht, hnew⟩ := gives_createTransaction h
  · exact href.absurd.elim
  · cases hrow
    exact ⟨rfl, ht, hnew.reference⟩

theorem entered_of_answers {new : NewEntry} {row : Entry}
    (h : Answers now t (.createEntry new) (.ok row) t') :
    row = (t.insertEntry now new).1 ∧ t' = (t.insertEntry now new).2 := by
  obtain href | ⟨hrow, ht, -⟩ := gives_createEntry h
  · exact href.absurd.elim
  · cases hrow
    exact ⟨rfl, ht⟩

theorem added_of_answers {id : Int} {delta : Decimal} {row : Account}
    (h : Answers now t (.addBalance id delta) (.ok row) t') :
    ∃ old balance, t.accounts.find? id = some old ∧ old.isActive = true ∧
      old.balance.add? delta = some balance ∧ row = { old with balance, updatedAt := now } ∧
      t' = { t with accounts := t.accounts.put id row } := by
  obtain href | ⟨old, balance, a, hold, hactive, hsum, ha, hrow, ht⟩ := gives_addBalance h
  · exact href.absurd.elim
  · cases hrow
    exact ⟨old, balance, hold, hactive, hsum, ha, ht⟩

theorem restated_of_answers {id : Int} {code : String} {row : Transaction}
    (h : Answers now t (.setStatus id code) (.ok row) t') :
    ∃ old, t.transactions.find? id = some old ∧
      row = { old with status := code, updatedAt := now } ∧
      t' = { t with transactions := t.transactions.put id row } := by
  obtain href | ⟨old, row', -, hold, hnew, hrow, ht⟩ := gives_setStatus h
  · exact href.absurd.elim
  · cases hrow
    exact ⟨old, hold, hnew, ht⟩

/-- The four reference rows have their codes, and the rest of the tables is as it was. -/
theorem ends_transferReferences {currency : String} {refs : TransferReferences}
    (ht : t.WellFormed)
    (h : (transferReferences currency).Ends (Answers now) t (.ok refs) t') :
    refs.transferType.code = "TRANSFER" ∧ refs.pending.code = "PENDING" ∧
      refs.completed.code = "COMPLETED" ∧ refs.currency.code = currency ∧
      ∃ types between statuses currencies,
        t' = { t with types, statuses, currencies } ∧
        t.types.Ensured (· = Reference.catalogType "TRANSFER") "TRANSFER" types
          refs.transferType ∧
        t.statuses.Ensured (· = Reference.catalogStatus "PENDING") "PENDING" between
          refs.pending ∧
        between.Ensured (· = Reference.catalogStatus "COMPLETED") "COMPLETED" statuses
          refs.completed ∧
        t.currencies.Ensured (Reference.CatalogCurrency now currency) currency currencies
          refs.currency := by
  obtain ⟨transferType, t₁, htype, h⟩ := Work.ends_bind_ok.1 h
  obtain ⟨pending, t₂, hpending, h⟩ := Work.ends_bind_ok.1 h
  obtain ⟨completed, t₃, hcompleted, h⟩ := Work.ends_bind_ok.1 h
  obtain ⟨row, t₄, hcurrency, h⟩ := Work.ends_bind_ok.1 h
  obtain ⟨rfl, rfl⟩ := Work.ends_pure_ok.1 h
  obtain ⟨htypecode, types, rfl, htypes⟩ :=
    (ReferenceTable.stored .type now).ends_resolve htype ht.type_code
  obtain ⟨hpendingcode, between, rfl, hbetween⟩ :=
    (ReferenceTable.stored .status now).ends_resolve hpending ht.status_code
  have hkeyed : between.Keyed TransactionStatus.code := hbetween.keyed ht.status_code hpendingcode
  obtain ⟨hcompletedcode, statuses, rfl, hstatuses⟩ :=
    (ReferenceTable.stored .status now).ends_resolve hcompleted hkeyed
  obtain ⟨hcurrencycode, currencies, rfl, hcurrencies⟩ :=
    (ReferenceTable.stored .currency now).ends_resolve hcurrency ht.currency_code
  exact ⟨htypecode, hpendingcode, hcompletedcode, hcurrencycode, types, between, statuses,
    currencies, rfl, htypes, hbetween, hstatuses, hcurrencies⟩

/-- The debit and the credit are the next two entries. -/
theorem ends_writeEntries {transaction sender receiver : Int} {amount : Decimal}
    {debit credit : Entry}
    (h : (writeEntries transaction sender receiver amount).Ends (Answers now) t
      (.ok (debit, credit)) t') :
    debit = ⟨(t.lastEntry + 1 : Nat), some sender, some transaction, amount.negate, now⟩ ∧
      credit = ⟨(t.lastEntry + 2 : Nat), some receiver, some transaction, amount, now⟩ ∧
      t' = { t with entries := t.entries ++ [debit, credit], lastEntry := t.lastEntry + 2 } := by
  obtain ⟨row, t₁, hdebit, h⟩ := Work.ends_bind_ok.1 h
  obtain ⟨rfl, rfl⟩ := entered_of_answers (Work.ends_require_ok.1 hdebit)
  obtain ⟨row, t₂, hcredit, h⟩ := Work.ends_bind_ok.1 (Work.ends_emit_bind.1 h)
  obtain ⟨rfl, rfl⟩ := entered_of_answers (Work.ends_require_ok.1 hcredit)
  rw [Work.ends_emit_bind] at h
  obtain ⟨hrows, rfl⟩ := Work.ends_pure_ok.1 h
  cases hrows
  refine ⟨rfl, rfl, ?_⟩
  simp only [Tables.insertEntry, List.append_assoc, List.singleton_append]

theorem ends_applyDelta {account : Int} {delta : Decimal} {row : Account}
    (h : (applyDelta account delta).Ends (Answers now) t (.ok row) t') :
    ∃ old balance, t.accounts.find? account = some old ∧ old.isActive = true ∧
      old.balance.add? delta = some balance ∧ row = { old with balance, updatedAt := now } ∧
      t' = { t with accounts := t.accounts.put account row } := by
  obtain ⟨row', t₁, hadd, h⟩ := Work.ends_bind_ok.1 h
  rw [Work.ends_emit_bind] at h
  obtain ⟨rfl, rfl⟩ := Work.ends_pure_ok.1 h
  exact added_of_answers (Work.ends_require_ok.1 hadd)

/-- Each balance changes by its own sum, from what it was before the transfer, whichever account
comes first. -/
theorem ends_updateBothBalances {sender receiver : Int} {amount : Decimal} {s r : Account}
    (hne : sender ≠ receiver)
    (h : (updateBothBalances sender receiver amount).Ends (Answers now) t (.ok (s, r)) t') :
    (∃ old balance, t.accounts.find? sender = some old ∧ old.isActive = true ∧
      old.balance.add? amount.negate = some balance ∧
      s = { old with balance, updatedAt := now }) ∧
    (∃ old balance, t.accounts.find? receiver = some old ∧ old.isActive = true ∧
      old.balance.add? amount = some balance ∧ r = { old with balance, updatedAt := now }) ∧
    t' = { t with accounts := (t.accounts.put sender s).put receiver r } := by
  unfold updateBothBalances at h
  split at h
  · obtain ⟨s', t₁, hs, h⟩ := Work.ends_bind_ok.1 h
    obtain ⟨r', t₂, hr, h⟩ := Work.ends_bind_ok.1 h
    obtain ⟨hrows, rfl⟩ := Work.ends_pure_ok.1 h
    cases hrows
    obtain ⟨old, balance, hold, hactive, hsum, hrow, rfl⟩ := ends_applyDelta hs
    obtain ⟨old', balance', hold', hactive', hsum', hrow', rfl⟩ := ends_applyDelta hr
    -- the first sum was on another account, so the second starts from the old balance too
    rw [Table.find?_put, if_neg hne.symm] at hold'
    exact ⟨⟨old, balance, hold, hactive, hsum, hrow⟩,
      ⟨old', balance', hold', hactive', hsum', hrow'⟩, rfl⟩
  · obtain ⟨r', t₁, hr, h⟩ := Work.ends_bind_ok.1 h
    obtain ⟨s', t₂, hs, h⟩ := Work.ends_bind_ok.1 h
    obtain ⟨hrows, rfl⟩ := Work.ends_pure_ok.1 h
    cases hrows
    obtain ⟨old', balance', hold', hactive', hsum', hrow', rfl⟩ := ends_applyDelta hr
    obtain ⟨old, balance, hold, hactive, hsum, hrow, rfl⟩ := ends_applyDelta hs
    rw [Table.find?_put, if_neg hne] at hold
    refine ⟨⟨old, balance, hold, hactive, hsum, hrow⟩,
      ⟨old', balance', hold', hactive', hsum', hrow'⟩, ?_⟩
    rw [Table.put_comm t.accounts hne]

end

/-! ## The whole transfer -/

/-- The steps of a transfer that succeed from well-formed tables post it. -/
theorem posted_of_ends {v : ValidTransfer} {reference description : String} {t t' : Tables}
    {r : TransferResult} (hne : v.sender ≠ v.receiver) (ht : t.WellFormed)
    (h : (runTransfer v reference description).Ends (Answers .epoch) t (.ok r) t') :
    Posted v reference description t t' r := by
  obtain ⟨refs, t₁, hrefs, h⟩ := Work.ends_bind_ok.1 h
  obtain ⟨htype, hpending, hcompleted, hcurrency, types, between, statuses, currencies, rfl,
    htypes, hbetween, hstatuses, hcurrencies⟩ := ends_transferReferences ht hrefs
  obtain ⟨pending, t₂, hcreate, h⟩ := Work.ends_bind_ok.1 h
  obtain ⟨rfl, rfl, hunused⟩ := created_of_answers (Work.ends_require_ok.1 hcreate)
  obtain ⟨⟨debit, credit⟩, t₃, hentries, h⟩ := Work.ends_bind_ok.1 (Work.ends_emit_bind.1 h)
  obtain ⟨hdebit, hcredit, rfl⟩ := ends_writeEntries hentries
  obtain ⟨⟨s, d⟩, t₄, hbalances, h⟩ := Work.ends_bind_ok.1 h
  obtain ⟨hsender, hreceiver, rfl⟩ := ends_updateBothBalances hne hbalances
  obtain ⟨row, t₅, hstatus, h⟩ := Work.ends_bind_ok.1 h
  obtain ⟨old, hold, hrow, rfl⟩ := restated_of_answers (Work.ends_require_ok.1 hstatus)
  rw [Work.ends_emit_bind] at h
  obtain ⟨rfl, rfl⟩ := Work.ends_pure_ok.1 h
  -- the transaction that gets its last status is the one that was just written
  simp only [Tables.insertTransaction, Table.find?_put_self, Option.some.injEq] at hold
  rw [← hold, htype, hcompleted, hcurrency] at hrow
  exact
    { transaction := hrow
      fresh := by
        rw [hrow]
        exact ht.transactions_within.find?_next
      unused := hunused
      transactions := by
        rw [hrow]
        exact Table.put_put _ _ _ _
      fromEntry := by
        rw [hrow]
        exact hdebit
      toEntry := by
        rw [hrow]
        exact hcredit
      entries := rfl
      sender := hsender
      receiver := hreceiver
      accounts := rfl
      types := htypes
      statuses := ⟨between, refs.pending, hbetween, hstatuses⟩
      currencies := hcurrencies
      lastAccount := rfl
      lastTransaction := rfl
      lastEntry := rfl }

namespace Posted

variable {v : ValidTransfer} {reference description : String} {t t' : Tables}
  {r : TransferResult}

/-- Accounts that take no part are as they were. -/
theorem find?_account (h : Posted v reference description t t' r) (id : Int) :
    t'.accounts.find? id =
      if id = v.receiver then some r.toAccount
      else if id = v.sender then some r.fromAccount
      else t.accounts.find? id := by
  rw [h.accounts, Table.find?_put, Table.find?_put]

theorem fromAccount_id (h : Posted v reference description t t' r) (ht : t.WellFormed) :
    r.fromAccount.id = v.sender := by
  obtain ⟨old, balance, hold, -, -, hrow⟩ := h.sender
  have hid := ht.account_id _ _ hold
  rw [hrow]
  exact hid

theorem toAccount_id (h : Posted v reference description t t' r) (ht : t.WellFormed) :
    r.toAccount.id = v.receiver := by
  obtain ⟨old, balance, hold, -, -, hrow⟩ := h.receiver
  have hid := ht.account_id _ _ hold
  rw [hrow]
  exact hid

end Posted

/-- Every row of a result is in the tables, under its own key. -/
structure TransferResult.StoredIn (r : TransferResult) (t : Tables) : Prop where
  transaction : t.transactions.find? r.transaction.id = some r.transaction
  fromEntry : r.fromEntry ∈ t.entries
  toEntry : r.toEntry ∈ t.entries
  fromAccount : t.accounts.find? r.fromAccount.id = some r.fromAccount
  toAccount : t.accounts.find? r.toAccount.id = some r.toAccount
  status : t.statuses.find? r.status.code = some r.status
  transactionType : t.types.find? r.transactionType.code = some r.transactionType
  currency : t.currencies.find? r.currency.code = some r.currency

/-- The result of a transfer is what it stored. -/
theorem Posted.stored {v : ValidTransfer} {reference description : String} {t t' : Tables}
    {r : TransferResult} (h : Posted v reference description t t' r)
    (hne : v.sender ≠ v.receiver) (ht : t.WellFormed) : r.StoredIn t' := by
  obtain ⟨between, pending, hbetween, hstatuses⟩ := h.statuses
  have hpending : pending.code = "PENDING" :=
    hbetween.code_eq ht.status_code fun row hrow => hrow ▸ rfl
  have hstatus : r.status.code = "COMPLETED" :=
    hstatuses.code_eq (hbetween.keyed ht.status_code hpending) fun row hrow => hrow ▸ rfl
  have htype : r.transactionType.code = "TRANSFER" :=
    h.types.code_eq ht.type_code fun row hrow => hrow ▸ rfl
  have hcurrency : r.currency.code = v.currency :=
    h.currencies.code_eq ht.currency_code fun row hrow =>
      ReferenceTable.code_of_catalogRow .currency hrow
  exact
    { transaction := by rw [h.transactions, Table.find?_put_self]
      fromEntry := by simp [h.entries]
      toEntry := by simp [h.entries]
      fromAccount := by
        rw [h.fromAccount_id ht, h.find?_account, if_neg hne, if_pos rfl]
      toAccount := by rw [h.toAccount_id ht, h.find?_account, if_pos rfl]
      status := by rw [hstatus, hstatuses.find?, if_pos rfl]
      transactionType := by rw [htype, h.types.find?, if_pos rfl]
      currency := by rw [hcurrency, h.currencies.find?, if_pos rfl] }

/-! ## Calls -/

/-- A request that passed its checks, with its rate as a decimal. -/
def TransferParams.withRate (p : TransferParams) (rate : Decimal) : ValidTransfer where
  sender := p.sender
  receiver := p.receiver
  amount := p.amount
  currency := p.currency
  exchangeRate := rate
  reference := p.reference
  description := p.description

/-- What the checks let through moves an amount above zero between two accounts. -/
theorem TransferParams.of_validate {p : TransferParams} {v : ValidTransfer}
    (h : p.validate = .ok v) :
    p.amount.isPositive = true ∧ p.sender ≠ p.receiver ∧
      ∃ rate, FundsTransfer.exchangeRate p.exchangeRate = .ok rate ∧ v = p.withRate rate := by
  unfold validate at h
  split at h
  · cases h
  split at h
  · cases h
  split at h
  · cases h
  split at h
  · cases h
  split at h
  · cases h
  rename_i hamount hne _ _ rate hrate _
  cases h
  exact ⟨by simpa using hamount, hne, rate, hrate, rfl⟩

namespace Rehearsal

/-- In a reachable world, a transfer ends with a result and is posted, or commits nothing. -/
theorem posted_or_kept {w : World} (hw : Reachable w) (c : Coordinator) (generated : String)
    (p : TransferParams) (pauses : Nat) :
    (∃ r rate, (call w (c.transfer generated p) pauses).1 = .ok r ∧
      p.amount.isPositive = true ∧ p.sender ≠ p.receiver ∧
      exchangeRate p.exchangeRate = .ok rate ∧
      Posted (p.withRate rate) (p.reference.getD generated) (p.description.getD c.description)
        w.tables (call w (c.transfer generated p) pauses).2.tables r) ∨
      ((∀ r, (call w (c.transfer generated p) pauses).1 ≠ .ok r) ∧
        (call w (c.transfer generated p) pauses).2.tables = w.tables) := by
  let post : Tables → TransferResult → Prop := fun t r =>
    ∃ rate, p.amount.isPositive = true ∧ p.sender ≠ p.receiver ∧
      exchangeRate p.exchangeRate = .ok rate ∧
      Posted (p.withRate rate) (p.reference.getD generated) (p.description.getD c.description)
        w.tables t r
  have hjob : (c.transfer generated p).Publishes (Memory.Answers .epoch) w.tables post none := by
    refine transfer_publishes c generated p fun v r t hvalid hends => ?_
    obtain ⟨hamount, hne, rate, hrate, rfl⟩ := TransferParams.of_validate hvalid
    exact ⟨rate, hamount, hne, hrate, posted_of_ends hne hw.wellFormed hends⟩
  obtain ⟨r, hr, rate, hpost⟩ | hkept := call_publishes_of_reachable hw pauses hjob
  · exact .inl ⟨r, rate, hr, hpost⟩
  · exact .inr hkept

/-- A transfer that returned a result did what `Posted` says and nothing else, and the result is
what it stored. -/
theorem transfer_effect_and_frame {w : World} (hw : Reachable w) (c : Coordinator)
    (generated : String) (p : TransferParams) (pauses : Nat) {r : TransferResult}
    (h : (call w (c.transfer generated p) pauses).1 = .ok r) :
    ∃ rate, exchangeRate p.exchangeRate = .ok rate ∧
      Posted (p.withRate rate) (p.reference.getD generated) (p.description.getD c.description)
        w.tables (call w (c.transfer generated p) pauses).2.tables r ∧
      r.StoredIn (call w (c.transfer generated p) pauses).2.tables := by
  obtain ⟨r', rate, hr, -, hne, hrate, hposted⟩ | ⟨hnone, -⟩ :=
    posted_or_kept hw c generated p pauses
  · rw [h] at hr
    cases hr
    exact ⟨rate, hrate, hposted, hposted.stored hne hw.wellFormed⟩
  · exact absurd h (hnone r)

/-- A request to move one dollar from the first account to the second. -/
def oneDollar : TransferParams :=
  ⟨1, 2, ⟨false, 100, 2, by decide, by decide⟩, "USD", .one, some "R-1", none⟩

/-- The balance of one hundred dollars. -/
def hundredDollars : Decimal := ⟨false, 10000, 2, by decide, by decide⟩

/-- What becomes of one dollar paid from a hundred. -/
def dollarPaid : CallEnd TransferResult × World :=
  call (twoAccounts hundredDollars .zero) (Coordinator.default.transfer "" oneDollar) 0

/-- The dollar is paid, and all of the above is said of it. -/
theorem dollar_posted :
    ∃ r rate, dollarPaid.1 = .ok r ∧ exchangeRate oneDollar.exchangeRate = .ok rate ∧
      Posted (oneDollar.withRate rate) (oneDollar.reference.getD "")
        (oneDollar.description.getD Coordinator.default.description)
        (twoAccounts hundredDollars .zero).tables dollarPaid.2.tables r ∧
      r.StoredIn dollarPaid.2.tables := by
  have hends : dollarPaid.1.Succeeded := by decide +kernel
  unfold dollarPaid at hends ⊢
  obtain ⟨r, hr⟩ := hends
  obtain ⟨rate, hrate, hposted, hstored⟩ :=
    transfer_effect_and_frame (reachable_twoAccounts hundredDollars .zero) Coordinator.default ""
      oneDollar 0 hr
  exact ⟨r, rate, hr, hrate, hposted, hstored⟩

end Rehearsal

end FundsTransfer
