import FundsTransfer.Proofs.Memory.Calm
import FundsTransfer.Proofs.Transfer.Movement

/-!
# What becomes of a transfer that nothing disturbs

Where no fault is armed, what becomes of a transfer can be read off the tables before it
begins.  It is refused when an account is missing, when the reference number is in use, or
when an account is closed, and it breaks off at a sum that no decimal holds.  When none of
these stands in its way, it succeeds.  Reference rows never do: those that are missing are
written, and a row that somebody else wrote first is read back.

The `Hindrance` that is met first decides.  A closed account and a sum that is too large
are noticed when a balance is to change, the lower account first.
-/

namespace FundsTransfer

open Memory Memory.Tables

variable {ρ : Type} {t t' : Tables} {p : Probes}

/-! ## Reference rows -/

namespace Reference

/-- A reference table of a store that nothing disturbs: rows are found, and rows that are missing
are written, also when a race is lost. -/
structure Serves (r : Reference ρ) (table : Tables → Table String ρ)
    (update : Tables → Table String ρ → Tables) : Prop where
  fetch (t : Tables) (p : Probes) (code : String) :
    (r.fetch code).Yields ⟨t, p⟩ (.ok (.ok ((table t).find? code))) ⟨t, p⟩
  create (code : String) : ∃ create row, r.create code = .ok create ∧
    ∀ {t p}, p.Calm → (table t).contains code = false → ∃ answer,
      create.Yields ⟨t, p⟩ (.ok answer) ⟨update t ((table t).put code row), p.takeRace.2⟩ ∧
        (answer = .ok row ∨ ∃ e, answer = .error e ∧ e.isUniqueViolation = true)
  table_update (t : Tables) (rows : Table String ρ) : table (update t rows) = rows

variable {r : Reference ρ} {table : Tables → Table String ρ}
  {update : Tables → Table String ρ → Tables} {code : String}

theorem Serves.yields_fetchOrFail (hs : r.Serves table update) :
    (r.fetchOrFail code).Yields ⟨t, p⟩ (.ok ((table t).find? code)) ⟨t, p⟩ :=
  (hs.fetch t p code).bind (Work.yields_pure _)

/-- A row that was written is the one that comes of it, also where a race was lost to a writer of
the same row, which is read back then. -/
theorem yields_createOrRefetch_written {create : Work (Except StoreError ρ)} {row : ρ}
    {answer : Except StoreError ρ} {s s' : Working} (hcreate : r.create code = .ok create)
    (hyields : create.Yields s (.ok answer) s')
    (hanswer : answer = .ok row ∨ ∃ e, answer = .error e ∧ e.isUniqueViolation = true)
    (hfetch : (r.fetchOrFail code).Yields s' (.ok (some row)) s') :
    (r.createOrRefetch code).Yields s (.ok row) s' := by
  unfold createOrRefetch
  rw [hcreate]
  refine Work.Yields.bind (Work.yields_pure create) (hyields.bind ?_)
  obtain rfl | ⟨e, rfl, hunique⟩ := hanswer
  · exact Work.yields_pure row
  · simp only [hunique, if_true, Work.yields_log]
    exact hfetch.bind (Work.yields_pure row)

theorem Serves.yields_createOrRefetch (hs : r.Serves table update) (hp : p.Calm)
    (hnone : (table t).find? code = none) :
    ∃ row t', (r.createOrRefetch code).Yields ⟨t, p⟩ (.ok row) ⟨t', p.takeRace.2⟩ := by
  obtain ⟨create, row, hcreate, hwrite⟩ := hs.create code
  obtain ⟨answer, hyields, hanswer⟩ := hwrite hp (Table.contains_eq_false.2 hnone)
  have hrow : (table (update t ((table t).put code row))).find? code = some row := by
    rw [hs.table_update, Table.find?_put_self]
  exact ⟨row, _, yields_createOrRefetch_written hcreate hyields hanswer
    (hrow ▸ hs.yields_fetchOrFail)⟩

/-- Every code but the empty one is resolved. -/
theorem Serves.yields_resolve (hs : r.Serves table update) (code : String) (hcode : code ≠ "")
    (hp : p.Calm) (hkeyed : (table t).Keyed r.codeOf) :
    ∃ row t' p', (r.resolve code).Yields ⟨t, p⟩ (.ok row) ⟨t', p'⟩ ∧ p'.Calm := by
  have hfetch : (r.fetchOrFail code).Yields ⟨t, p⟩ (.ok ((table t).find? code)) ⟨t, p⟩ :=
    hs.yields_fetchOrFail
  unfold resolve
  rw [if_neg (by simpa using hcode)]
  cases hfound : (table t).find? code with
  | some row =>
      rw [hfound] at hfetch
      refine ⟨row, t, p, hfetch.bind ?_, hp⟩
      simp only [hkeyed code row hfound, if_true]
      exact Work.yields_pure row
  | none =>
      rw [hfound] at hfetch
      obtain ⟨row, t', hyields⟩ := hs.yields_createOrRefetch hp hfound
      exact ⟨row, t', _, hfetch.bind hyields, hp.takeRace⟩

/-- A row that is missing is written.  A writer that lost a race is told that the row exists. -/
theorem answer_of_createReference {p₁ : Probes} (hp : p.trip .createReference = (false, p₁))
    (table : Tables → Table String ρ)
    (update : Tables → Table String ρ → Tables) (label code : String) (row : ρ)
    (h : (table t).contains code = false) :
    ∃ a : Except StoreError ρ, (createReference table update label code row).run ⟨t, p⟩ =
        (a.mapError .refused, ⟨update t ((table t).put code row), p₁.takeRace.2⟩) ∧
      (a = .ok row ∨ ∃ e, a = .error e ∧ e.isUniqueViolation = true) := by
  rw [run_createReference table update label code row hp h]
  cases p₁.takeRace.1 with
  | true => exact ⟨.error _, rfl, .inr ⟨_, rfl, rfl⟩⟩
  | false => exact ⟨.ok row, rfl, .inl rfl⟩

end Reference

theorem Question.yields_ask {α : Type} {q : Question α} {r : Except StoreError α} {s s' : Working}
    (h : (q.perform .epoch).run s = (r.mapError .refused, s')) : q.ask.Yields s (.ok r) s' := by
  obtain ⟨q, rfl⟩ := q
  exact Work.yields_ask h

/-- The store in memory serves every table where nothing disturbs. -/
theorem ReferenceTable.serves (k : ReferenceTable) : k.reference.Serves k.table k.update where
  fetch t p code := by
    rw [k.fetch_reference]
    refine Question.yields_ask ?_
    rw [k.perform_fetch]
    rfl
  create code := by
    obtain ⟨label, row, -, hperform⟩ := k.perform_create .epoch code
    refine ⟨_, row, k.create_reference code, fun {t p} hp hfree => ?_⟩
    obtain ⟨answer, hrun, hanswer⟩ := Reference.answer_of_createReference (hp.trip _) k.table
      k.update label code row hfree
    rw [← hperform] at hrun
    exact ⟨answer, Question.yields_ask hrun, hanswer⟩
  table_update := k.table_update

/-- The four rows that a transfer needs are there or are written. -/
theorem yields_transferReferences {currency : String} (ht : t.WellFormed) (hp : p.Calm)
    (hcurrency : currency ≠ "") :
    ∃ refs t' p', (transferReferences currency).Yields ⟨t, p⟩ (.ok refs) ⟨t', p'⟩ ∧ p'.Calm := by
  obtain ⟨transferType, t₁, p₁, h₁, hp₁⟩ :=
    (ReferenceTable.serves .type).yields_resolve TypeCode.transfer.text (by decide) hp ht.type_code
  have ht₁ := ht.ends h₁.ends
  obtain ⟨pending, t₂, p₂, h₂, hp₂⟩ :=
    (ReferenceTable.serves .status).yields_resolve StatusCode.pending.text (by decide) hp₁
      ht₁.status_code
  have ht₂ := ht₁.ends h₂.ends
  obtain ⟨completed, t₃, p₃, h₃, hp₃⟩ :=
    (ReferenceTable.serves .status).yields_resolve StatusCode.completed.text (by decide) hp₂
      ht₂.status_code
  have ht₃ := ht₂.ends h₃.ends
  obtain ⟨row, t₄, p₄, h₄, hp₄⟩ :=
    (ReferenceTable.serves .currency).yields_resolve currency hcurrency hp₃ ht₃.currency_code
  exact ⟨_, t₄, p₄, h₁.bind (h₂.bind (h₃.bind (h₄.bind (Work.yields_pure _)))), hp₄⟩

/-- What the checks let through has a currency. -/
theorem TransferParams.currency_of_validate {params : TransferParams} {v : ValidTransfer}
    (h : params.validate = .ok v) : params.currency ≠ "" := by
  rintro hempty
  unfold validate at h
  rw [hempty] at h
  split at h
  · cases h
  split at h
  · cases h
  cases h

/-! ## Reasons -/

/-- Why the transaction of a transfer is refused, if it is. -/
def creationRefusal? (t : Tables) (p : TransferParams) (reference : String) :
    Option TransferError :=
  if !t.accounts.contains p.sender then
    some (.storage .createTransaction (.notFound ("account " ++ Text.intText p.sender)))
  else if !t.accounts.contains p.receiver then
    some (.storage .createTransaction (.notFound ("account " ++ Text.intText p.receiver)))
  else if t.hasReference reference then
    some (.storage .createTransaction (.uniqueViolation ("reference number " ++ reference)))
  else none

theorem creationRefusal?_eq_none {params : TransferParams} {reference : String} :
    creationRefusal? t params reference = none ↔ t.accounts.contains params.sender = true ∧
      t.accounts.contains params.receiver = true ∧ t.hasReference reference = false := by
  unfold creationRefusal?
  cases t.accounts.contains params.sender with
  | false => simp
  | true =>
      cases t.accounts.contains params.receiver with
      | false => simp
      | true => simp

/-- Whether an account is there and open. -/
def isOpen (accounts : Table Int Account) (id : Int) : Bool :=
  (accounts.find? id).any Account.isActive

/-- The error of a transfer to or from a closed account. -/
def closedError (id : Int) : TransferError :=
  .storage (.updateBalance id) (.notFound ("active account " ++ Text.intText id))

/-- Why a change of the two balances is refused, if it is. -/
def closedRefusal? (accounts : Table Int Account) (p : TransferParams) : Option TransferError :=
  if !isOpen accounts (lockOrder p.sender p.receiver).1 then
    some (closedError (lockOrder p.sender p.receiver).1)
  else if !isOpen accounts (lockOrder p.sender p.receiver).2 then
    some (closedError (lockOrder p.sender p.receiver).2)
  else none

/-- The two sums of a transfer can be made. -/
def Affords (accounts : Table Int Account) (p : TransferParams) : Prop :=
  ∀ account a, accounts.find? account = some a →
    ∀ delta ∈ p.deltas account, ∃ sum, a.balance.add? delta = some sum

/-! ## Hindrances -/

/-- What a computation can break off at. -/
inductive Hindrance where
  /-- An error, which is told. -/
  | refused (e : TransferError)
  /-- A sum that no decimal holds. -/
  | overflow

/-- A computation that breaks off at a hindrance, if there is one, and succeeds otherwise. -/
def Outcome.Meets {α : Type} (o : Outcome α) : Option Hindrance → Prop
  | some (.refused e) => o = .error e
  | some .overflow => o = .overflow
  | none => ∃ a, o = .ok a

namespace Work

variable {α β : Type} {s s' : Working} {h h' : Option Hindrance}

/-- The work breaks off at a hindrance, if there is one, and leaves no fault armed. -/
def Comes (w : Work α) (s : Working) (h : Option Hindrance) : Prop :=
  ∃ o s', w.Yields s o s' ∧ s'.probes.Calm ∧ o.Meets h

theorem Yields.comes {w : Work α} {a : α} (hw : w.Yields s (.ok a) s') (hs' : s'.probes.Calm) :
    w.Comes s none :=
  ⟨.ok a, s', hw, hs', a, rfl⟩

theorem Yields.comes_refused {w : Work α} {e : TransferError} (hw : w.Yields s (.error e) s')
    (hs' : s'.probes.Calm) : w.Comes s (some (.refused e)) :=
  ⟨.error e, s', hw, hs', rfl⟩

theorem Yields.comes_overflow {w : Work α} (hw : w.Yields s .overflow s')
    (hs' : s'.probes.Calm) : w.Comes s (some .overflow) :=
  ⟨.overflow, s', hw, hs', rfl⟩

/-- A sequence meets what its second part meets, where the first has succeeded. -/
theorem Yields.comes_bind {w : Work α} {f : α → Work β} {a : α} (hw : w.Yields s (.ok a) s')
    (hf : (f a).Comes s' h) : (w >>= f).Comes s h := by
  obtain ⟨o, s₁, hyields, hs₁, hmeets⟩ := hf
  exact ⟨o, s₁, hw.bind hyields, hs₁, hmeets⟩

/-- The hindrance of a sequence is the one that its first part meets, or else its second. -/
theorem Comes.bind {w : Work α} {f : α → Work β} (hw : w.Comes s h)
    (hf : ∀ a t' p', w.Yields s (.ok a) ⟨t', p'⟩ → p'.Calm → (f a).Comes ⟨t', p'⟩ h') :
    (w >>= f).Comes s (h.or h') := by
  obtain ⟨o, ⟨t', p'⟩, hyields, hs', hmeets⟩ := hw
  rcases h with _ | e | _
  · obtain ⟨a, rfl⟩ : ∃ a, o = .ok a := hmeets
    exact hyields.comes_bind (hf a t' p' hyields hs')
  · obtain rfl : o = .error e := hmeets
    exact hyields.bind_error.comes_refused hs'
  · obtain rfl : o = .overflow := hmeets
    exact hyields.bind_overflow.comes_overflow hs'

end Work

/-- What an addition to the balance of an account breaks off at, if anything. -/
def additionHindrance? (accounts : Table Int Account) (id : Int) (delta : Decimal) :
    Option Hindrance :=
  if !isOpen accounts id then some (.refused (closedError id))
  else if (accounts.find? id).any fun a => (a.balance.add? delta).isNone then some .overflow
  else none

/-- What a transfer adds to the balance of one of its two accounts. -/
def TransferParams.delta (p : TransferParams) (id : Int) : Decimal :=
  if id = p.sender then p.amount.negate else p.amount

/-- What the change of the two balances breaks off at, if anything. -/
def balancesHindrance? (accounts : Table Int Account) (p : TransferParams) : Option Hindrance :=
  let (low, high) := lockOrder p.sender p.receiver
  (additionHindrance? accounts low (p.delta low)).or
    (additionHindrance? accounts high (p.delta high))

/-- What a transfer that passed its checks breaks off at where nothing disturbs, if anything. -/
def hindrance? (t : Tables) (params : TransferParams) (reference : String) : Option Hindrance :=
  ((creationRefusal? t params reference).map .refused).or (balancesHindrance? t.accounts params)

/-! ## The steps -/

theorem find?_of_isOpen {accounts : Table Int Account} {id : Int} (h : isOpen accounts id = true) :
    ∃ a, accounts.find? id = some a ∧ a.isActive = true := by
  rw [isOpen] at h
  cases hfind : accounts.find? id with
  | none =>
      rw [hfind] at h
      cases h
  | some a =>
      rw [hfind] at h
      exact ⟨a, rfl, h⟩

theorem yields_writeEntries {transaction sender receiver : Int} (amount : Decimal) (hp : p.Calm)
    (hsender : t.accounts.contains sender = true) (hreceiver : t.accounts.contains receiver = true)
    (htransaction : t.transactions.contains transaction = true) :
    ∃ entries t', (writeEntries transaction sender receiver amount).Yields ⟨t, p⟩ (.ok entries)
      ⟨t', p⟩ := by
  have hdebit : (perform .epoch (.createEntry ⟨sender, transaction, amount.negate⟩)).run ⟨t, p⟩ =
      _ := run_createEntry hp hsender htransaction
  have hcredit : (perform .epoch (.createEntry ⟨receiver, transaction, amount⟩)).run
      ⟨(t.insertEntry .epoch ⟨sender, transaction, amount.negate⟩).2, p⟩ = _ :=
    run_createEntry hp hreceiver htransaction
  exact ⟨_, _, (Work.yields_require hdebit).bind (Work.yields_emit_bind.2
    ((Work.yields_require hcredit).bind (Work.yields_emit_bind.2 (Work.yields_pure _))))⟩

theorem yields_applyDelta {id : Int} {delta sum : Decimal} {old : Account} (hp : p.Calm)
    (hold : t.accounts.find? id = some old) (hactive : old.isActive = true)
    (hsum : old.balance.add? delta = some sum) :
    (applyDelta id delta).Yields ⟨t, p⟩ (.ok { old with balance := sum, updatedAt := .epoch })
      ⟨{ t with accounts := t.accounts.put id { old with balance := sum, updatedAt := .epoch } },
        p.touch id⟩ :=
  (Work.yields_require (run_addBalance hp hold hactive hsum)).bind
    (Work.yields_emit_bind.2 (Work.yields_pure _))

theorem yields_applyDelta_closed {id : Int} (delta : Decimal) (hp : p.Calm)
    (hclosed : isOpen t.accounts id = false) :
    (applyDelta id delta).Yields ⟨t, p⟩ (.error (closedError id)) ⟨t, p.touch id⟩ :=
  (Work.yields_require_error (run_addBalance_closed hp delta hclosed)).bind_error

theorem yields_applyDelta_overflow {id : Int} {delta : Decimal} {old : Account} (hp : p.Calm)
    (hold : t.accounts.find? id = some old) (hactive : old.isActive = true)
    (hsum : old.balance.add? delta = none) :
    (applyDelta id delta).Yields ⟨t, p⟩ .overflow ⟨t, p.touch id⟩ := by
  have hrun : (perform .epoch (.addBalance id delta)).run ⟨t, p⟩ = _ :=
    run_addBalance_overflow hp hold hactive hsum
  have hrequire : (Work.require (.addBalance id delta) (.storage (.updateBalance id))).Yields
      ⟨t, p⟩ .overflow ⟨t, p.touch id⟩ := Work.yields_call.2 (.inr ⟨hrun, rfl⟩)
  exact hrequire.bind_overflow

theorem comes_applyDelta {id : Int} (delta : Decimal) (hp : p.Calm) :
    (applyDelta id delta).Comes ⟨t, p⟩ (additionHindrance? t.accounts id delta) := by
  rw [additionHindrance?]
  cases hopen : isOpen t.accounts id with
  | false => exact (yields_applyDelta_closed delta hp hopen).comes_refused (hp.touch id)
  | true =>
      obtain ⟨a, ha, hactive⟩ := find?_of_isOpen hopen
      rw [ha]
      cases hsum : a.balance.add? delta with
      | none =>
          simpa [hsum] using
            (yields_applyDelta_overflow hp ha hactive hsum).comes_overflow (hp.touch id)
      | some sum =>
          simpa [hsum] using (yields_applyDelta hp ha hactive hsum).comes (hp.touch id)

/-- An addition does not stand in the way of one to another account. -/
theorem additionHindrance?_put {accounts : Table Int Account} {a b : Int} (hne : b ≠ a)
    (row : Account) (delta : Decimal) :
    additionHindrance? (accounts.put a row) b delta = additionHindrance? accounts b delta := by
  simp [additionHindrance?, isOpen, Table.find?_put, hne]

/-- Two additions to different accounts break off at the first that cannot be made. -/
theorem comes_twoDeltas {a b : Int} {d e : Decimal} {β : Type} {f : Account → Account → β}
    (hne : b ≠ a) (hp : p.Calm) :
    (applyDelta a d >>= fun x => applyDelta b e >>= fun y => pure (f x y)).Comes ⟨t, p⟩
      ((additionHindrance? t.accounts a d).or (additionHindrance? t.accounts b e)) := by
  refine (comes_applyDelta d hp).bind fun x t₁ p₁ hfirst hp₁ => ?_
  obtain ⟨old, balance, -, -, -, -, rfl⟩ := ends_applyDelta hfirst.ends
  rw [← additionHindrance?_put hne x e, ← Option.or_none (o := additionHindrance? _ b e)]
  exact (comes_applyDelta e hp₁).bind fun y t₂ p₂ _ hp₂ => (Work.yields_pure (f x y)).comes hp₂

theorem comes_updateBothBalances {params : TransferParams} (hp : p.Calm)
    (hne : params.sender ≠ params.receiver) :
    (updateBothBalances params.sender params.receiver params.amount).Comes ⟨t, p⟩
      (balancesHindrance? t.accounts params) := by
  have hdebit : params.delta params.sender = params.amount.negate := if_pos rfl
  have hcredit : params.delta params.receiver = params.amount := if_neg hne.symm
  unfold updateBothBalances balancesHindrance? lockOrder
  by_cases hle : params.sender ≤ params.receiver
  · simp only [if_pos hle, if_true, hdebit, hcredit]
    exact comes_twoDeltas hne.symm hp
  · simp only [if_neg hle, if_neg hne.symm, hdebit, hcredit]
    exact comes_twoDeltas hne hp

/-! ## The verdict -/

/-- The reference rows of a transfer are there. -/
structure TransferReferences.StoredIn (refs : TransferReferences) (t : Tables) : Prop where
  type : t.types.contains refs.transferType.code = true
  pending : t.statuses.contains refs.pending.code = true
  completed : t.statuses.contains refs.completed.code = true
  currency : t.currencies.contains refs.currency.code = true

/-- They are when they were resolved, and the accounts and transactions are as they were. -/
theorem stored_of_ends {currency : String} {refs : TransferReferences} {now : Timestamp}
    (ht : t.WellFormed)
    (h : (transferReferences currency).Ends (Answers now) t (.ok refs) t') :
    refs.StoredIn t' ∧ t'.accounts = t.accounts ∧ t'.transactions = t.transactions := by
  obtain ⟨htype, hpending, hcompleted, hcurrency, types, between, statuses, currencies, rfl,
    htypes, hbetween, hstatuses, hcurrencies⟩ := ends_transferReferences ht h
  refine ⟨⟨?_, ?_, ?_, ?_⟩, rfl, rfl⟩
  · simp [Table.contains, htypes.find?, htype]
  · simp [Table.contains, hstatuses.find?, hbetween.find?, hpending]
  · simp [Table.contains, hstatuses.find?, hcompleted]
  · simp [Table.contains, hcurrencies.find?, hcurrency]

/-- Why a transfer that passed its checks is refused where nothing disturbs, if it is. -/
def refusal? (t : Tables) (params : TransferParams) (reference : String) :
    Option TransferError :=
  (creationRefusal? t params reference).or (closedRefusal? t.accounts params)

section

variable {params : TransferParams} {rate : Decimal} {reference description : String}

/-- Only accounts and transactions stand in the way of a transfer. -/
theorem hindrance?_congr (haccounts : t'.accounts = t.accounts)
    (htransactions : t'.transactions = t.transactions) :
    hindrance? t' params reference = hindrance? t params reference := by
  rw [hindrance?, hindrance?, creationRefusal?, creationRefusal?, hasReference, hasReference,
    haccounts, htransactions]

/-- The transaction of a transfer with these reference rows. -/
def TransferReferences.pendingTransaction (refs : TransferReferences) (v : ValidTransfer)
    (reference description : String) : NewTransaction :=
  { sender := v.sender, receiver := v.receiver, type := refs.transferType.code,
    amount := v.amount, currency := refs.currency.code, exchangeRate := v.exchangeRate,
    status := refs.pending.code, description := some description, reference }

/-- A transaction is refused for its accounts and for its reference number. -/
theorem comes_createTransaction {refs : TransferReferences} (hp : p.Calm)
    (hstored : refs.StoredIn t) :
    (Work.require
        (.createTransaction (refs.pendingTransaction (params.withRate rate) reference description))
        (.storage .createTransaction)).Comes ⟨t, p⟩
      ((creationRefusal? t params reference).map .refused) := by
  rw [creationRefusal?]
  cases hsender : t.accounts.contains params.sender with
  | false =>
      exact (Work.yields_require_error (run_createTransaction_noSender hp hsender)).comes_refused hp
  | true =>
  cases hreceiver : t.accounts.contains params.receiver with
  | false =>
      exact (Work.yields_require_error
        (run_createTransaction_noReceiver hp hsender hreceiver)).comes_refused hp
  | true =>
  cases hreference : t.hasReference reference with
  | true =>
      exact (Work.yields_require_error (run_createTransaction_used hp hsender hreceiver
        hstored.pending hstored.type hstored.currency hreference)).comes_refused hp
  | false =>
      have hadmits : t.Admits
          (refs.pendingTransaction (params.withRate rate) reference description) :=
        ⟨hsender, hreceiver, hstored.pending, hstored.type, hstored.currency, hreference⟩
      exact (Work.yields_require (run_createTransaction hp hadmits)).comes hp

/-- What is left to do behind a transaction that was written. -/
theorem pending_of_ends {new : NewTransaction} {row : Transaction} {f : StoreError → TransferError}
    (h : (Work.require (.createTransaction new) f).Ends (Answers .epoch) t (.ok row) t') :
    t'.transactions.find? row.id = some row ∧ t'.accounts = t.accounts ∧
      t'.statuses = t.statuses ∧ t.Admits new := by
  obtain hrefused | ⟨hrow, rfl, hadmits⟩ := gives_createTransaction (Work.ends_require_ok.1 h)
  · exact hrefused.absurd.elim
  · cases hrow
    exact ⟨Table.find?_put_self _ _ _, rfl, rfl, hadmits⟩

/-- A transfer breaks off at the first hindrance, or succeeds. -/
theorem comes_runTransfer (ht : t.WellFormed) (hp : p.Calm) (hcurrency : params.currency ≠ "")
    (hne : params.sender ≠ params.receiver) :
    (runTransfer (params.withRate rate) reference description).Comes ⟨t, p⟩
      (hindrance? t params reference) := by
  obtain ⟨refs, t₁, p₁, hrefs, hp₁⟩ := yields_transferReferences ht hp hcurrency
  obtain ⟨hstored, haccounts₁, htransactions₁⟩ := stored_of_ends ht hrefs.ends
  rw [← hindrance?_congr haccounts₁ htransactions₁, hindrance?]
  refine hrefs.comes_bind ?_
  refine (comes_createTransaction hp₁ hstored).bind fun pending t₂ p₂ hcreate hp₂ => ?_
  obtain ⟨hpending, haccounts, hstatuses, hadmits⟩ := pending_of_ends hcreate.ends
  have hfound : t₂.transactions.contains pending.id = true := by
    rw [Table.contains, hpending]
    rfl
  obtain ⟨⟨debit, credit⟩, t₃, hentries⟩ := yields_writeEntries params.amount hp₂
    (haccounts ▸ hadmits.sender) (haccounts ▸ hadmits.receiver) hfound
  refine Work.Yields.comes_bind (w := Work.emit _) ⟨rfl, rfl⟩ (hentries.comes_bind ?_)
  obtain ⟨-, -, rfl⟩ := ends_writeEntries hentries.ends
  rw [← haccounts, ← Option.or_none (o := balancesHindrance? _ _)]
  refine (comes_updateBothBalances hp₂ hne).bind fun both t₄ p₄ hboth hp₄ => ?_
  obtain ⟨s, r⟩ := both
  obtain ⟨-, -, rfl⟩ := ends_updateBothBalances hne hboth.ends
  have hcompleted : t₂.statuses.contains refs.completed.code = true :=
    hstatuses ▸ hstored.completed
  refine Work.Yields.comes_bind (Work.yields_require (run_setStatus hp₄ hcompleted hpending)) ?_
  exact Work.Yields.comes_bind (w := Work.emit _) ⟨rfl, rfl⟩ ((Work.yields_pure _).comes hp₄)

/-- Where a sum can be made, only a closed account is left to break off at. -/
theorem additionHindrance?_of_sum {accounts : Table Int Account} {id : Int} {delta : Decimal}
    (h : ∀ a, accounts.find? id = some a → ∃ sum, a.balance.add? delta = some sum) :
    additionHindrance? accounts id delta =
      if !isOpen accounts id then some (.refused (closedError id)) else none := by
  rw [additionHindrance?]
  cases hfind : accounts.find? id with
  | none => rfl
  | some a =>
      obtain ⟨sum, hsum⟩ := h a hfind
      simp [hsum]

theorem balancesHindrance?_of_affords {accounts : Table Int Account}
    (hne : params.sender ≠ params.receiver) (h : Affords accounts params) :
    balancesHindrance? accounts params = (closedRefusal? accounts params).map .refused := by
  have hsender := additionHindrance?_of_sum fun a ha =>
    h params.sender a ha (params.delta params.sender)
      (by simp [TransferParams.deltas, TransferParams.delta])
  have hreceiver := additionHindrance?_of_sum fun a ha =>
    h params.receiver a ha (params.delta params.receiver)
      (by simp [TransferParams.deltas, TransferParams.delta, hne.symm])
  unfold balancesHindrance? closedRefusal? lockOrder
  by_cases hle : params.sender ≤ params.receiver
  · simp only [if_pos hle, hsender, hreceiver]
    split
    · rfl
    · split <;> rfl
  · simp only [if_neg hle, hsender, hreceiver]
    split
    · rfl
    · split <;> rfl

/-- Where the sums of a transfer can be made, only reasons to refuse it are left. -/
theorem hindrance?_of_affords (hne : params.sender ≠ params.receiver)
    (haffords : Affords t.accounts params) :
    hindrance? t params reference = (refusal? t params reference).map .refused := by
  rw [hindrance?, balancesHindrance?_of_affords hne haffords, ← Option.map_or, refusal?]

end

end FundsTransfer
