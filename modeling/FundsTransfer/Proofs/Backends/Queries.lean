import FundsTransfer.Proofs.Backends.Rows
import FundsTransfer.Proofs.Database.Session
import FundsTransfer.Proofs.Transfer.Verdict

/-!
# One query, asked of two stores

The store in memory and a session at a database are `Abreast` when they hold the same rows
and give out numbers that go with each other.  `Together` says of two pieces of work, one
for each store, that both succeed or both fail.  It is closed under sequencing,
`Together.bind`, so only the queries have to be compared.  There is one lemma for each
query of a transfer, and each leaves the stores abreast.

The two stores differ in how they keep to their rules.  Memory looks for the accounts of a
transaction before it looks for its reference number.  A database finds the reference number
while it inserts the row, and missing accounts at the end of the statement.  So a transaction
that breaks both rules, a `Clash`, gets two different errors, and this is the only one.

Sums are made in different ways, too: memory rounds, and a database keeps all digits.  `Fits`
leaves room for the exact sum in both.
-/

namespace FundsTransfer

open Memory Database Data

variable {α β : Type} {R : Renaming} {k : Int → Nat} {t : Tables} {p : Probes} {s : Session}

/-- A unit of work in memory and a session at a database that hold the same rows.  The balance
of an account in the session has at most as many fraction digits as `k` says. -/
structure Abreast (R : Renaming) (k : Int → Nat) (t : Tables) (s : Session) : Prop
    extends Agree R t s.data where
  intact : t.Intact
  live : s.aborted = false
  transactions_given : GivenOut R.transaction t.lastTransaction s.counters.transaction
  entries_given : GivenOut R.entry t.lastEntry s.counters.entry
  scales : ∀ a ∈ rowsOf s.data.accounts, a.balance.scale ≤ k a.id

/-- Two pieces of work, one here and one there, that both succeed or both fail. -/
inductive Together (w : Work α) (w' : Work β) (t : Tables) (p : Probes) (s : Session)
    (post : α → β → Tables → Session → Prop) (errs : TransferError → TransferError → Prop) :
    Prop where
  | goes {t' : Tables} {p' : Probes} {s' : Session} (hw : w.Yields ⟨t, p⟩ (.ok a) ⟨t', p'⟩)
      (hp : p'.Calm) (hw' : w'.Reaches s (.ok b) s') (hpost : post a b t' s') :
      Together w w' t p s post errs
  | stops {t' : Tables} {p' : Probes} {s' : Session} (hw : w.Yields ⟨t, p⟩ (.error e) ⟨t', p'⟩)
      (hp : p'.Calm) (hw' : w'.Reaches s (.error e') s') (herrs : errs e e') :
      Together w w' t p s post errs

namespace Together

variable {γ δ : Type} {w : Work α} {w' : Work β} {f : α → Work γ} {f' : β → Work δ}
  {post post₁ : α → β → Tables → Session → Prop} {post' : γ → δ → Tables → Session → Prop}
  {errs : TransferError → TransferError → Prop}

/-- One after the other. -/
theorem bind (h : Together w w' t p s post errs)
    (hf : ∀ {a b t' p' s'}, w.Yields ⟨t, p⟩ (.ok a) ⟨t', p'⟩ → p'.Calm → post a b t' s' →
      Together (f a) (f' b) t' p' s' post' errs) :
    Together (w >>= f) (w' >>= f') t p s post' errs := by
  cases h with
  | goes hw hp hw' hpost =>
      cases hf hw hp hpost with
      | goes hf hp hf' hpost => exact .goes (hw.bind hf) hp (hw'.bind hf') hpost
      | stops hf hp hf' herrs => exact .stops (hw.bind hf) hp (hw'.bind hf') herrs
  | stops hw hp hw' herrs => exact .stops hw.bind_error hp hw'.bind_error herrs

theorem mono (h : Together w w' t p s post errs)
    (hpost : ∀ a b t' s', post a b t' s' → post₁ a b t' s') : Together w w' t p s post₁ errs := by
  cases h with
  | goes hw hp hw' h => exact .goes hw hp hw' (hpost _ _ _ _ h)
  | stops hw hp hw' herrs => exact .stops hw hp hw' herrs

theorem pure {a : α} {b : β} (hp : p.Calm) (hpost : post a b t s) :
    Together (pure a) (pure b) t p s post errs :=
  .goes (Work.yields_pure a) hp (Work.reaches_pure b) hpost

/-- Events are not compared. -/
theorem emit_bind {event event' : Log.Event} {f : Unit → Work α} {f' : Unit → Work β}
    (h : Together (f ()) (f' ()) t p s post errs) :
    Together (Work.emit event >>= f) (Work.emit event' >>= f') t p s post errs := by
  cases h with
  | goes hw hp hw' hpost => exact .goes hw hp hw' hpost
  | stops hw hp hw' herrs => exact .stops hw hp hw' herrs

end Together

/-! ## What is there -/

namespace Agree

variable {d : Data} (h : Agree R t d)
include h

theorem hasAccount (id : Int) : d.hasAccount (some id) = t.accounts.contains id :=
  h.accounts.contains Table.biUnique_eq rfl

theorem hasStatus (code : String) :
    (rowsOf d.statuses).any (·.code == code) = t.statuses.contains code :=
  h.statuses.contains Table.biUnique_eq rfl

theorem hasType (code : String) : (rowsOf d.types).any (·.code == code) = t.types.contains code :=
  h.types.contains Table.biUnique_eq rfl

theorem hasCurrency (code : String) :
    (rowsOf d.currencies).any (·.code == code) = t.currencies.contains code :=
  h.currencies.contains Table.biUnique_eq rfl

/-- A reference number is in use here when it is there. -/
theorem hasReference (ht : t.Intact) (reference : String) :
    (rowsOf d.transactions).any (·.reference == some reference) = t.hasReference reference := by
  rw [Bool.eq_iff_iff, ht.hasReference_iff]
  simp only [List.any_eq_true, beq_iff_eq]
  constructor
  · rintro ⟨row', hmem, hrow'⟩
    obtain ⟨id, row, hfind, -, halike⟩ := h.transactions.back hmem
    exact ⟨id, row, hfind, halike.reference.trans hrow'⟩
  · rintro ⟨id, row, hfind, hrow⟩
    obtain ⟨row', hmem, -, halike⟩ := h.transactions.forth hfind
    exact ⟨row', hmem, halike.reference ▸ hrow⟩

/-- A transaction refers to rows that are there when one that is alike does so here. -/
theorem danglingColumn?_eq_none {row row' : Transaction} (hrow : t.Refers row)
    (hsender : row.sender = row'.sender) (hreceiver : row.receiver = row'.receiver)
    (htype : row.type = row'.type) (hcurrency : row.currency = row'.currency)
    (hstatus : row.status = row'.status) : d.danglingColumn? row' = none := by
  obtain ⟨sender, hs, hsender'⟩ := hrow.sender
  obtain ⟨receiver, hr, hreceiver'⟩ := hrow.receiver
  rw [hsender] at hs
  rw [hreceiver] at hr
  simp [danglingColumn?, Option.mem_def.1 hs, Option.mem_def.1 hr, h.hasAccount, h.hasType,
    h.hasCurrency, h.hasStatus, hsender', hreceiver', ← htype, ← hcurrency, ← hstatus, hrow.type,
    hrow.currency, hrow.status]

end Agree

/-! ## A new transaction -/

/-- The row of a new transaction in a database. -/
def transactionRow (id : Nat) (new : NewTransaction) : Transaction where
  id := id
  sender := some new.sender
  receiver := some new.receiver
  type := new.type
  amount := Database.crossing new.amount
  currency := new.currency
  exchangeRate := Database.crossing new.exchangeRate
  status := new.status
  description := new.description
  reference := some new.reference
  date := .epoch
  createdAt := .epoch
  updatedAt := .epoch

theorem runCreateTransaction_eq (d : Data) (id : Nat) (new : NewTransaction) :
    runCreateTransaction d id new =
      match d.transactionFault? (transactionRow id new) with
      | some e => .error e
      | none => .ok ([readTransaction (transactionRow id new)],
          { d with transactions := insert d.transactions (transactionRow id new) }) := rfl

theorem ask_createTransaction (hs : s.aborted = false) (new : NewTransaction) :
    s.ask (.createTransaction new) =
      match s.data.transactionFault? (transactionRow (s.counters.transaction + 1) new) with
      | some e => (.error (insertError e new),
          ⟨s.data, true, { s.counters with transaction := s.counters.transaction + 1 }⟩)
      | none => (.ok (readTransaction (transactionRow (s.counters.transaction + 1) new)),
          ⟨{ s.data with
              transactions :=
                insert s.data.transactions (transactionRow (s.counters.transaction + 1) new) },
            false, { s.counters with transaction := s.counters.transaction + 1 }⟩) := by
  rw [Session.ask_of_live hs]
  simp only [runQuery, runCreateTransaction_eq]
  cases s.data.transactionFault? (transactionRow (s.counters.transaction + 1) new) with
  | none => rfl
  | some e => rfl

/-- What a new transaction breaks in a database, when its reference rows are there. -/
theorem Abreast.transactionFault? (h : Abreast R k t s) {new : NewTransaction} (id : Nat)
    (hamount : new.amount.isPositive = true) (hstatus : t.statuses.contains new.status = true)
    (htype : t.types.contains new.type = true)
    (hcurrency : t.currencies.contains new.currency = true) :
    s.data.transactionFault? (transactionRow id new) =
      if t.hasReference new.reference then some (uniqueError "transactions_reference_number_key")
      else if !t.accounts.contains new.sender then
        some (foreignKeyError "transactions" "from_account_id")
      else if !t.accounts.contains new.receiver then
        some (foreignKeyError "transactions" "to_account_id")
      else none := by
  have hpositive : (Database.crossing new.amount).isPositive = true := by
    rw [crossing_of_isPositive hamount]
    exact hamount
  unfold Data.transactionFault? danglingColumn?
  simp only [transactionRow, hpositive, h.hasReference h.intact, h.hasAccount, h.hasType,
    h.hasCurrency, h.hasStatus, hstatus, htype, hcurrency]
  cases t.hasReference new.reference <;> cases t.accounts.contains new.sender <;>
    cases t.accounts.contains new.receiver <;> rfl

/-- The sender or the receiver of a new transaction is missing, and its reference number is in use.
The two stores look for these reasons in different orders. -/
def Clash (t : Tables) (sender receiver : Int) (reference : String) : Prop :=
  (t.accounts.contains sender && t.accounts.contains receiver) = false ∧
    t.hasReference reference = true

/-- Errors of the two stores: the same, or those of a clash. -/
inductive ErrorsAlike (clash : Prop) : TransferError → TransferError → Prop
  | same (h : ¬ clash) : ErrorsAlike clash e e
  | clash (h : clash) : ErrorsAlike clash (.storage .createTransaction (.notFound what))
      (.storage .createTransaction (.uniqueViolation what'))

theorem not_clash {sender receiver : Int} {reference : String}
    (h : (t.accounts.contains sender && t.accounts.contains receiver) = true) :
    ¬ Clash t sender receiver reference := by
  rintro ⟨hmissing, -⟩
  rw [h] at hmissing
  cases hmissing

/-- The next number here goes with the next one there. -/
theorem Abreast.insertTransaction (h : Abreast R k t s) {new : NewTransaction}
    (hadmits : t.Admits new) :
    ∃ R', R.Le R' ∧
      Abreast R' k (t.insertTransaction .epoch new).2
        ⟨{ s.data with
            transactions :=
              insert s.data.transactions (transactionRow (s.counters.transaction + 1) new) },
          false, { s.counters with transaction := s.counters.transaction + 1 }⟩ ∧
      (t.insertTransaction .epoch new).1.Alike R'
        (transactionRow (s.counters.transaction + 1) new) := by
  let R' : Renaming := { R with
    transaction := numbered R.transaction (t.lastTransaction + 1 : Nat)
      (s.counters.transaction + 1 : Nat) }
  have hle : R.Le R' := ⟨fun _ _ hr => .inl hr, fun _ _ hr => hr⟩
  have hgiven := h.transactions_given.next
  have halike : (t.insertTransaction .epoch new).1.Alike R'
      (transactionRow (s.counters.transaction + 1) new) :=
    ⟨.inr ⟨rfl, rfl⟩, rfl, rfl, rfl, (toRat_crossing _).symm, rfl, (toRat_crossing _).symm, rfl,
      rfl, rfl⟩
  have hagree := h.toAgree.mono hle
  refine ⟨R', hle, ?_, halike⟩
  exact { hagree with
    transactions := hagree.transactions.put_new hgiven.oneToOne halike (.inr ⟨rfl, rfl⟩)
      h.intact.transactions_within.find?_next
    intact := h.intact.insertTransaction hadmits
    live := rfl
    transactions_given := hgiven
    entries_given := h.entries_given
    scales := h.scales }

section

variable (h : Abreast R k t s) (hp : p.Calm) {new : NewTransaction}
  (hamount : new.amount.isPositive = true) (hstatus : t.statuses.contains new.status = true)
  (htype : t.types.contains new.type = true)
  (hcurrency : t.currencies.contains new.currency = true)
  {post : Transaction → Transaction → Tables → Session → Prop}
include h hp hamount hstatus htype hcurrency

/-- A reference number that is in use is refused in both stores.  Memory names a missing account
first. -/
theorem Together.refused_used (hused : t.hasReference new.reference = true) :
    Together (Work.require (.createTransaction new) (.storage .createTransaction))
      (Work.require (.createTransaction new) (.storage .createTransaction)) t p s post
      (ErrorsAlike (Clash t new.sender new.receiver new.reference)) := by
  have hask := ask_createTransaction h.live new
  rw [h.transactionFault? _ hamount hstatus htype hcurrency, if_pos hused] at hask
  have hthere := Work.reaches_require_error (f := .storage .createTransaction) hask
  cases hsender : t.accounts.contains new.sender with
  | false =>
      exact .stops (Work.yields_require_error (run_createTransaction_noSender hp hsender)) hp
        hthere (.clash ⟨by simp [hsender], hused⟩)
  | true =>
      cases hreceiver : t.accounts.contains new.receiver with
      | false =>
          exact .stops (Work.yields_require_error
            (run_createTransaction_noReceiver hp hsender hreceiver)) hp hthere
            (.clash ⟨by simp [hreceiver], hused⟩)
      | true =>
          exact .stops (Work.yields_require_error (run_createTransaction_used hp hsender
            hreceiver hstatus htype hcurrency hused)) hp hthere
            (.same (not_clash (by simp [hsender, hreceiver])))

/-- Where the reference number is free, both stores name the same missing account. -/
theorem Together.refused_missing (hfree : t.hasReference new.reference = false)
    (hmissing : (t.accounts.contains new.sender && t.accounts.contains new.receiver) = false) :
    Together (Work.require (.createTransaction new) (.storage .createTransaction))
      (Work.require (.createTransaction new) (.storage .createTransaction)) t p s post
      (ErrorsAlike (Clash t new.sender new.receiver new.reference)) := by
  have hclash : ¬ Clash t new.sender new.receiver new.reference := fun hclash =>
    Bool.false_ne_true (hfree.symm.trans hclash.2)
  have hask := ask_createTransaction h.live new
  rw [h.transactionFault? _ hamount hstatus htype hcurrency, if_neg (by simp [hfree])] at hask
  cases hsender : t.accounts.contains new.sender with
  | false =>
      rw [if_pos (by simp [hsender])] at hask
      exact .stops (Work.yields_require_error (run_createTransaction_noSender hp hsender)) hp
        (Work.reaches_require_error hask) (.same hclash)
  | true =>
      have hreceiver : t.accounts.contains new.receiver = false := by simpa [hsender] using hmissing
      rw [if_neg (by simp [hsender]), if_pos (by simp [hreceiver])] at hask
      exact .stops (Work.yields_require_error
        (run_createTransaction_noReceiver hp hsender hreceiver)) hp
        (Work.reaches_require_error hask) (.same hclash)

/-- A transaction is written in both stores, or refused in both. -/
theorem Together.createTransaction :
    Together (Work.require (.createTransaction new) (.storage .createTransaction))
      (Work.require (.createTransaction new) (.storage .createTransaction)) t p s
      (fun row row' t' s' => t.Admits new ∧ t' = (t.insertTransaction .epoch new).2 ∧
        t'.transactions.contains row.id = true ∧
        ∃ R', R.Le R' ∧ Abreast R' k t' s' ∧ row.Alike R' row')
      (ErrorsAlike (Clash t new.sender new.receiver new.reference)) := by
  cases hreference : t.hasReference new.reference with
  | true => exact Together.refused_used h hp hamount hstatus htype hcurrency hreference
  | false =>
      cases hboth : t.accounts.contains new.sender && t.accounts.contains new.receiver with
      | false =>
          exact Together.refused_missing h hp hamount hstatus htype hcurrency hreference hboth
      | true =>
          obtain ⟨hsender, hreceiver⟩ := Bool.and_eq_true_iff.1 hboth
          have hadmits : t.Admits new :=
            ⟨hsender, hreceiver, hstatus, htype, hcurrency, hreference⟩
          have hask := ask_createTransaction h.live new
          rw [h.transactionFault? _ hamount hstatus htype hcurrency,
            if_neg (by simp [hreference]), if_neg (by simp [hsender]),
            if_neg (by simp [hreceiver])] at hask
          obtain ⟨R', hle, habreast, halike⟩ := h.insertTransaction hadmits
          exact .goes (Work.yields_require (run_createTransaction hp hadmits)) hp
            (Work.reaches_require hask)
            ⟨hadmits, rfl, Table.contains_put_self _ _ _, R', hle, habreast, halike.read⟩

end

/-! ## A new entry -/

/-- The row of a new entry in a database. -/
def entryRow (id : Nat) (new : NewEntry) : Entry where
  id := id
  account := some new.account
  transaction := some new.transaction
  amount := Database.crossing new.amount
  createdAt := .epoch

theorem ask_createEntry (hs : s.aborted = false) {new : NewEntry}
    (haccount : s.data.hasAccount (some new.account) = true)
    (htransaction : s.data.hasTransaction new.transaction = true) :
    s.ask (.createEntry new) = (.ok (readEntry (entryRow (s.counters.entry + 1) new)),
      ⟨{ s.data with entries := insert s.data.entries (entryRow (s.counters.entry + 1) new) },
        false, { s.counters with entry := s.counters.entry + 1 }⟩) := by
  rw [Session.ask_of_live hs]
  simp only [runQuery, runCreateEntry, haccount, htransaction]
  rfl

/-- An entry is written in both stores, on transactions that go with each other. -/
theorem Together.createEntry (h : Abreast R k t s) (hp : p.Calm) {account : Int}
    {transaction transaction' : Int} (htransaction : R.transaction transaction transaction')
    (amount : Decimal) (haccount : t.accounts.contains account = true)
    (hposted : t.transactions.contains transaction = true) (f : StoreError → TransferError)
    {errs : TransferError → TransferError → Prop} :
    Together (Work.require (.createEntry ⟨account, transaction, amount⟩) f)
      (Work.require (.createEntry ⟨account, transaction', amount⟩) f) t p s
      (fun e e' t' s' => t' = (t.insertEntry .epoch ⟨account, transaction, amount⟩).2 ∧
        ∃ R', R.Le R' ∧ Abreast R' k t' s' ∧ e.Alike R' e') errs := by
  have haccount' : s.data.hasAccount (some account) = true := (h.hasAccount account).trans haccount
  have hposted' : s.data.hasTransaction transaction' = true :=
    (h.transactions.contains h.transactions_given.oneToOne htransaction).trans hposted
  let R' : Renaming := { R with
    entry := numbered R.entry (t.lastEntry + 1 : Nat) (s.counters.entry + 1 : Nat) }
  have hle : R.Le R' := ⟨fun _ _ hr => hr, fun _ _ hr => .inl hr⟩
  have halike : (t.insertEntry .epoch ⟨account, transaction, amount⟩).1.Alike R'
      (entryRow (s.counters.entry + 1) ⟨account, transaction', amount⟩) :=
    ⟨.inr ⟨rfl, rfl⟩, rfl, .some htransaction, (toRat_crossing _).symm⟩
  have hagree := h.toAgree.mono hle
  refine .goes (Work.yields_require (run_createEntry hp haccount hposted)) hp
    (Work.reaches_require (ask_createEntry h.live haccount' hposted'))
    ⟨rfl, R', hle, ?_, halike.read⟩
  exact { hagree with
    entries := List.rel_append hagree.entries (.cons halike .nil)
    intact := h.intact.insertEntry haccount hposted
    live := rfl
    transactions_given := h.transactions_given
    entries_given := h.entries_given.next
    scales := h.scales }

/-! ## A balance -/

theorem ask_addBalance (hs : s.aborted = false) {id : Int} {delta sum : Decimal} {a : Account}
    (hfind : (rowsOf s.data.accounts).find? (fun a => a.id == id && a.isActive) = some a)
    (hsum : exactSum? a.balance (Database.crossing delta) = some sum) :
    s.ask (.addBalance id delta) = (.ok (readAccount { a with balance := sum }),
      ⟨{ s.data with
          accounts := update s.data.accounts (·.id == id) fun _ => { a with balance := sum } },
        false, s.counters⟩) := by
  rw [Session.ask_of_live hs]
  simp only [runQuery, runAddBalance, hfind, hsum]
  rfl

theorem reaches_applyDelta (hs : s.aborted = false) {id : Int} {delta sum : Decimal} {a : Account}
    (hfind : (rowsOf s.data.accounts).find? (fun a => a.id == id && a.isActive) = some a)
    (hsum : exactSum? a.balance (Database.crossing delta) = some sum) :
    (applyDelta id delta).Reaches s (.ok (readAccount { a with balance := sum }))
      ⟨{ s.data with
          accounts := update s.data.accounts (·.id == id) fun _ => { a with balance := sum } },
        false, s.counters⟩ :=
  (Work.reaches_require (ask_addBalance hs hfind hsum)).bind
    (Work.reaches_emit_bind.2 (Work.reaches_pure _))

theorem ask_addBalance_closed (hs : s.aborted = false) {id : Int} (delta : Decimal)
    (hfind : (rowsOf s.data.accounts).find? (fun a => a.id == id && a.isActive) = none) :
    s.ask (.addBalance id delta) = (.error (.notFound ("active account " ++ Text.intText id)),
      ⟨{ s.data with accounts := mention s.data.accounts }, false, s.counters⟩) := by
  rw [Session.ask_of_live hs]
  simp only [runQuery, runAddBalance, hfind]
  rfl

/-- What is added to a balance leaves its digits below the limit at a scale. -/
structure Fits (digits : Nat) (t : Tables) (account : Int) (delta : Decimal) : Prop where
  scale : delta.scale ≤ digits
  balance {a : Account} : t.accounts.find? account = some a →
    a.balance.scale ≤ digits ∧ |a.balance.toRat + delta.toRat| * 10 ^ digits < 2 ^ 96

instance (digits : Nat) (t : Tables) (account : Int) (delta : Decimal) :
    Decidable (Fits digits t account delta) :=
  decidable_of_iff (delta.scale ≤ digits ∧ ∀ a ∈ t.accounts.find? account,
      a.balance.scale ≤ digits ∧ |a.balance.toRat + delta.toRat| * 10 ^ digits < 2 ^ 96)
    ⟨fun h => ⟨h.1, h.2 _⟩, fun h => ⟨h.scale, fun _ => h.balance⟩⟩

theorem Fits.congr {t' : Tables} {digits : Nat} {account : Int} {delta : Decimal}
    (h : Fits digits t account delta)
    (heq : t'.accounts.find? account = t.accounts.find? account) :
    Fits digits t' account delta where
  scale := h.scale
  balance hfind := h.balance (heq ▸ hfind)

/-- The open account under a number, in a database. -/
theorem Abreast.find?_open (h : Abreast R k t s) {account : Int} {a : Account}
    (hfind : t.accounts.find? account = some a) :
    ∃ a', a.Alike a' ∧ a'.id = account ∧ a' ∈ rowsOf s.data.accounts ∧
      (rowsOf s.data.accounts).find? (fun a => a.id == account && a.isActive) =
        if a.isActive then some a' else none := by
  obtain ⟨a', hfind', halike⟩ := h.accounts.find?_of_some Table.biUnique_eq rfl hfind
  refine ⟨a', halike, by simpa using List.find?_some hfind', List.mem_of_find?_eq_some hfind', ?_⟩
  rw [Table.find?_key_and h.accounts.nodup, hfind', halike.isActive]
  rfl

theorem Abreast.find?_closed (h : Abreast R k t s) {account : Int}
    (hclosed : isOpen t.accounts account = false) :
    (rowsOf s.data.accounts).find? (fun a => a.id == account && a.isActive) = none := by
  cases hfind : t.accounts.find? account with
  | none =>
      rw [Table.find?_key_and h.accounts.nodup,
        h.accounts.find?_of_none Table.biUnique_eq rfl hfind]
      rfl
  | some a =>
      obtain ⟨a', -, -, -, hfind'⟩ := h.find?_open hfind
      have hactive : a.isActive = false := by simpa [isOpen, hfind] using hclosed
      rw [hfind', if_neg (by simp [hactive])]

/-- A balance that changed in both stores. -/
theorem Abreast.putAccount (h : Abreast R k t s) {a a' : Account} {sum sum' : Decimal}
    (hfind : t.accounts.find? a'.id = some a)
    (halike : Account.Alike { a with balance := sum, updatedAt := .epoch }
      { a' with balance := sum' }) (hscale : sum'.scale ≤ k a'.id) :
    Abreast R k
      { t with accounts := t.accounts.put a'.id { a with balance := sum, updatedAt := .epoch } }
      ⟨{ s.data with
          accounts := update s.data.accounts (·.id == a'.id) fun _ => { a' with balance := sum' } },
        false, s.counters⟩ :=
  { h.toAgree with
    accounts := h.accounts.put_over Table.biUnique_eq halike rfl
      (Option.isSome_iff_exists.2 ⟨a, hfind⟩)
    intact := h.intact.putAccount hfind ⟨_, _, _, rfl⟩
    live := rfl
    transactions_given := h.transactions_given
    entries_given := h.entries_given
    scales := fun row hrow => by
      obtain ⟨row₀, hrow₀, rfl⟩ := List.mem_map.1 hrow
      split
      · exact hscale
      · exact h.scales row₀ hrow₀ }

/-- A balance changes in both stores, or the account is closed in both. -/
theorem Together.applyDelta (h : Abreast R k t s) (hp : p.Calm) {account : Int} {delta : Decimal}
    (hfits : Fits (k account) t account delta) {errs : TransferError → TransferError → Prop}
    (herrs : ∀ e, errs e e) :
    Together (applyDelta account delta) (applyDelta account delta) t p s
      (fun a a' t' s' => a.Alike a' ∧ Abreast R k t' s' ∧
        ∀ other ≠ account, t'.accounts.find? other = t.accounts.find? other) errs := by
  cases hopen : isOpen t.accounts account with
  | false =>
      have hask := ask_addBalance_closed h.live delta (h.find?_closed hopen)
      exact .stops (yields_applyDelta_closed delta hp hopen) (hp.touch account)
        (Work.reaches_require_error hask).bind_error (herrs _)
  | true =>
      obtain ⟨a, hfind, hactive⟩ := find?_of_isOpen hopen
      obtain ⟨a', halike, rfl, hmem, hfind'⟩ := h.find?_open hfind
      rw [if_pos hactive] at hfind'
      obtain ⟨hscale, hbound⟩ := hfits.balance hfind
      obtain ⟨sum, hsum, hvalue, -⟩ := Decimal.exists_add?_of_lt hscale hfits.scale hbound
      have hbound' :
          |a'.balance.toRat + (Database.crossing delta).toRat| * 10 ^ k a'.id < 2 ^ 96 := by
        rw [toRat_crossing, ← halike.balance]
        exact hbound
      obtain ⟨sum', hsum', hvalue', hscale'⟩ := exists_exactSum?_of_lt (h.scales a' hmem)
        ((scale_crossing_le delta).trans hfits.scale) hbound'
      have halike' : Account.Alike { a with balance := sum, updatedAt := .epoch }
          { a' with balance := sum' } :=
        { halike with balance := by rw [hvalue, hvalue', toRat_crossing, halike.balance] }
      exact .goes (yields_applyDelta hp hfind hactive hsum) (hp.touch a'.id)
        (reaches_applyDelta h.live hfind' hsum') ⟨halike'.read, h.putAccount hfind halike' hscale',
          fun other hne => (Table.find?_put _ _ _ _).trans (if_neg hne)⟩

/-! ## A status -/

theorem ask_setStatus (hs : s.aborted = false) {id : Int} {code : String} {row : Transaction}
    (hfind : (rowsOf s.data.transactions).find? (·.id == id) = some row)
    (hrefers : s.data.danglingColumn? { row with status := code } = none) :
    s.ask (.setStatus id code) = (.ok (readTransaction { row with status := code }),
      ⟨{ s.data with
          transactions :=
            update s.data.transactions (·.id == id) fun _ => { row with status := code } },
        false, s.counters⟩) := by
  rw [Session.ask_of_live hs]
  simp only [runQuery, runSetStatus, hfind, hrefers]
  rfl

/-- A transaction that is there in both stores gets a status that is there. -/
theorem Together.setStatus (h : Abreast R k t s) (hp : p.Calm) {id id' : Int} {code : String}
    (hid : R.transaction id id') (hposted : t.transactions.contains id = true)
    (hcode : t.statuses.contains code = true) (f : StoreError → TransferError)
    {errs : TransferError → TransferError → Prop} :
    Together (Work.require (.setStatus id code) f) (Work.require (.setStatus id' code) f) t p s
      (fun row row' t' s' => row.Alike R row' ∧ Abreast R k t' s') errs := by
  have hunique := h.transactions_given.oneToOne
  obtain ⟨row, hfind⟩ := Option.isSome_iff_exists.1 hposted
  obtain ⟨row', hfind', halike⟩ := h.transactions.find?_of_some hunique hid hfind
  obtain rfl : row'.id = id' := by simpa using List.find?_some hfind'
  have halike' : Transaction.Alike R { row with status := code, updatedAt := .epoch }
      { row' with status := code } := { halike with status := rfl }
  have hrefers : t.Refers { row with status := code } :=
    { h.intact.transaction_refers id row hfind with status := hcode }
  have hdangling : s.data.danglingColumn? { row' with status := code } = none :=
    h.danglingColumn?_eq_none hrefers halike.sender halike.receiver halike.type halike.currency rfl
  refine .goes (Work.yields_require (run_setStatus hp hcode hfind)) hp
    (Work.reaches_require (ask_setStatus h.live hfind' hdangling)) ⟨halike'.read, ?_⟩
  exact { h.toAgree with
    transactions := h.transactions.put_over hunique halike' hid hposted
    intact := h.intact.restate hcode hfind
    live := rfl
    transactions_given := h.transactions_given
    entries_given := h.entries_given
    scales := h.scales }

end FundsTransfer
