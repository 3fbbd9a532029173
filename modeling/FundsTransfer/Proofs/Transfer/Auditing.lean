import FundsTransfer.Proofs.Rehearsal.Calculated
import FundsTransfer.Proofs.Transfer.Reconciliation

/-!
# Every committed transfer passes its audit

A transaction is committed together with its two entries, and nothing touches it
afterwards: no request but a transfer writes transactions or entries, and a transfer
writes them under a number that nobody had before.  So whatever happened in a run, every
transaction that is committed is a completed transfer, and its entries are the debit and
the credit of its amount, `Tables.Complete`.

This is what an audit looks for.  So an audit that nothing disturbs finds nothing wrong
with any of them, `committed_transfers_audited`.
-/

namespace FundsTransfer

open Memory

/-! ## Transactions with their entries -/

/-- Entries that are a debit on the sender of a transaction and a credit on its receiver. -/
def DoubleEntry (row : Transaction) (entries : List Entry) : Prop :=
  ∃ sender receiver debit credit, row.sender = some sender ∧ row.receiver = some receiver ∧
    entries = [debit, credit] ∧
    debit.account = some sender ∧ debit.amount = row.amount.negate ∧
    credit.account = some receiver ∧ credit.amount = row.amount

/-- Every transaction is a completed transfer with its two entries, and no entry is ahead of the
transactions. -/
structure Memory.Tables.Complete (t : Tables) : Prop where
  status {id : Int} {row : Transaction} : t.transactions.find? id = some row →
    row.status = StatusCode.completed.text
  type {id : Int} {row : Transaction} : t.transactions.find? id = some row →
    row.type = TypeCode.transfer.text
  positive {id : Int} {row : Transaction} : t.transactions.find? id = some row →
    row.amount.isPositive = true
  entries {id : Int} {row : Transaction} : t.transactions.find? id = some row →
    DoubleEntry row (t.entriesOf id)
  known {e : Entry} {id : Int} : e ∈ t.entries → e.transaction = some id →
    id ≤ t.lastTransaction

/-- Two tables with the same transactions and the same entries. -/
structure SameRecords (t t' : Tables) : Prop where
  transactions : t'.transactions = t.transactions
  entries : t'.entries = t.entries
  lastTransaction : t'.lastTransaction = t.lastTransaction

theorem SameRecords.refl (t : Tables) : SameRecords t t := ⟨rfl, rfl, rfl⟩

theorem SameRecords.trans {t₁ t₂ t₃ : Tables} (h : SameRecords t₁ t₂) (h' : SameRecords t₂ t₃) :
    SameRecords t₁ t₃ :=
  ⟨h'.transactions.trans h.transactions, h'.entries.trans h.entries,
    h'.lastTransaction.trans h.lastTransaction⟩

variable {t t' : Tables}

theorem sameRecords_of_answers {now : Timestamp} {q : Query} {r : Except StoreError q.Answer}
    (hq : q.OfReference) (h : Answers now t q r t') : SameRecords t t' := by
  cases change_of_gives h with
  | none => exact .refl t
  | balance => exact hq.elim
  | transaction => exact hq.elim
  | status => exact hq.elim
  | entry => exact hq.elim
  | newStatus => exact ⟨rfl, rfl, rfl⟩
  | newType => exact ⟨rfl, rfl, rfl⟩
  | newCurrency => exact ⟨rfl, rfl, rfl⟩

namespace Memory.Tables.Complete

theorem empty : Tables.empty.Complete := by
  constructor
  · intro id row hfind
    cases hfind
  · intro id row hfind
    cases hfind
  · intro id row hfind
    cases hfind
  · intro id row hfind
    cases hfind
  · intro e id hmem
    cases hmem

theorem of_sameRecords (h : t.Complete) (hsame : SameRecords t t') : t'.Complete := by
  obtain ⟨htransactions, hentries, hlast⟩ := hsame
  constructor
  · rw [htransactions]
    exact h.status
  · rw [htransactions]
    exact h.type
  · rw [htransactions]
    exact h.positive
  · rw [htransactions]
    unfold Tables.entriesOf
    rw [hentries]
    exact h.entries
  · rw [hentries, hlast]
    exact h.known

/-- A number that is not given out yet has no entries. -/
theorem entriesOf_eq_nil (h : t.Complete) {id : Int} (hid : (t.lastTransaction : Int) < id) :
    t.entriesOf id = [] := by
  refine List.filter_eq_nil_iff.2 fun e hmem heq => ?_
  have := h.known hmem (eq_of_beq heq)
  omega

end Memory.Tables.Complete

section

variable {v : ValidTransfer} {reference description : String} {r : TransferResult}

theorem Posted.entriesOf_eq (hp : Posted v reference description t t' r) (id : Int) :
    t'.entriesOf id =
      t.entriesOf id ++ if id = r.transaction.id then [r.fromEntry, r.toEntry] else [] := by
  have hfrom : r.fromEntry.transaction = some r.transaction.id := by rw [hp.fromEntry]
  have hto : r.toEntry.transaction = some r.transaction.id := by rw [hp.toEntry]
  unfold Tables.entriesOf
  rw [hp.entries, List.filter_append]
  by_cases hid : id = r.transaction.id
  · simp [hfrom, hto, hid]
  · simp [hfrom, hto, hid, Ne.symm hid]

/-- The entries of a posted transfer are its debit and its credit. -/
theorem Posted.doubleEntry (hp : Posted v reference description t t' r) :
    DoubleEntry r.transaction [r.fromEntry, r.toEntry] := by
  refine ⟨v.sender, v.receiver, r.fromEntry, r.toEntry, ?_, ?_, rfl, ?_, ?_, ?_, ?_⟩
  · rw [hp.transaction]
  · rw [hp.transaction]
  · rw [hp.fromEntry]
  · rw [hp.fromEntry, hp.transaction]
  · rw [hp.toEntry]
  · rw [hp.toEntry, hp.transaction]

/-- A posted transfer is complete, and the others stay so. -/
theorem Memory.Tables.Complete.posted (h : t.Complete)
    (hp : Posted v reference description t t' r) (hpositive : v.amount.isPositive = true) :
    t'.Complete := by
  have hid : r.transaction.id = (t.lastTransaction + 1 : Nat) := by rw [hp.transaction]
  have hrow : ∀ {id row}, t'.transactions.find? id = some row →
      id = r.transaction.id ∧ row = r.transaction ∨
        id ≠ r.transaction.id ∧ t.transactions.find? id = some row := by
    intro id row hfind
    rw [hp.transactions, Table.find?_put] at hfind
    split at hfind
    · rename_i heq
      cases hfind
      exact .inl ⟨heq, rfl⟩
    · rename_i hne
      exact .inr ⟨hne, hfind⟩
  constructor
  · intro id row hfind
    obtain ⟨-, rfl⟩ | ⟨-, hold⟩ := hrow hfind
    · rw [hp.transaction]
      rfl
    · exact h.status hold
  · intro id row hfind
    obtain ⟨-, rfl⟩ | ⟨-, hold⟩ := hrow hfind
    · rw [hp.transaction]
      rfl
    · exact h.type hold
  · intro id row hfind
    obtain ⟨-, rfl⟩ | ⟨-, hold⟩ := hrow hfind
    · rw [hp.transaction]
      exact hpositive
    · exact h.positive hold
  · intro id row hfind
    rw [hp.entriesOf_eq]
    obtain ⟨rfl, rfl⟩ | ⟨hne, hold⟩ := hrow hfind
    · -- a number is used once, so nothing of an earlier attempt is left under it
      rw [if_pos rfl, h.entriesOf_eq_nil (by omega)]
      exact hp.doubleEntry
    · rw [if_neg hne, List.append_nil]
      exact h.entries hold
  · intro e id hmem heq
    rw [hp.lastTransaction]
    rw [hp.entries] at hmem
    rcases List.mem_append.1 hmem with hmem | hmem
    · have := h.known hmem heq
      omega
    · simp only [List.mem_cons, List.not_mem_nil, or_false] at hmem
      rcases hmem with rfl | rfl
      · rw [hp.fromEntry, hid] at heq
        cases heq
        exact le_refl _
      · rw [hp.toEntry, hid] at heq
        cases heq
        exact le_refl _

end

/-! ## The audit -/

/-- An audit finds nothing wrong with a debit and a credit. -/
theorem auditEntries_of_doubleEntry {row : Transaction} {entries : List Entry}
    (h : DoubleEntry row entries) :
    ∃ sum, auditEntries row entries = .ok sum ∧ sum.isZero = true := by
  obtain ⟨sender, receiver, debit, credit, hsender, hreceiver, rfl, hdebit, htaken, hcredit,
    hgiven⟩ := h
  obtain ⟨sum, hsum, hzero⟩ := row.amount.exists_sum?_negate
  have hsame : ∀ d : Decimal, d.sameValue d = true := fun d => (Decimal.sameValue_iff d d).2 rfl
  have hfrom : hasEntry [debit, credit] row.sender row.amount.negate = true := by
    simp [hasEntry, hdebit, htaken, hsender, hsame]
  have hto : hasEntry [debit, credit] row.receiver row.amount = true := by
    simp [hasEntry, hcredit, hgiven, hreceiver, hsame]
  refine ⟨sum, ?_, hzero⟩
  unfold auditEntries
  rw [List.map_cons, List.map_singleton, htaken, hgiven, hsum]
  simp only [List.length_cons, List.length_nil, hzero, hfrom, hto, Bool.not_true,
    Bool.false_eq_true, if_false, ne_eq, not_true_eq_false]

namespace Rehearsal

variable {p : Probes}

theorem yields_readTransaction (id : Int) :
    (Work.require (.transaction id) (.storage .readLedger)).Yields ⟨t, p⟩
      (.ok (t.transactions.find? id)) ⟨t, p⟩ :=
  Work.yields_require rfl

/-- Reading the ledger finds a transaction whose entries pass. -/
theorem yields_readLedger {id : Int} {row : Transaction} {sum : Decimal}
    (hfind : t.transactions.find? id = some row)
    (haudit : auditEntries row (t.entriesOf id) = .ok sum) :
    (readLedger id).Yields ⟨t, p⟩ (.ok ⟨row, t.entriesOf id, sum⟩) ⟨t, p⟩ := by
  refine (yields_readTransaction id).bind ?_
  rw [hfind]
  have hentries : (Work.require (.entries id) (.storage .readLedger)).Yields ⟨t, p⟩
      (.ok (t.entriesOf id)) ⟨t, p⟩ := Work.yields_require rfl
  refine hentries.bind ?_
  rw [haudit]
  exact ⟨rfl, rfl⟩

theorem yields_readLedger_of_none {id : Int} (hnone : t.transactions.find? id = none) :
    (readLedger id).Yields ⟨t, p⟩ (.error (.transactionNotFound id)) ⟨t, p⟩ := by
  refine (yields_readTransaction id).bind ?_
  rw [hnone]
  exact ⟨rfl, rfl⟩

/-- An audit reads the ledger in one unit of work. -/
theorem inOneUnit_verify (c : Coordinator) (id : Int) :
    (c.verify id).InOneUnit (readLedger id) := by
  refine .unit c.timeout fun r => ?_
  cases r with
  | ok audit => rfl
  | error e => rfl

/-! ## Any run -/

/-- What every action keeps. -/
structure AuditState (w : World) : Prop where
  reachable : Reachable w
  unopened : w.slot = none
  lock : w.LockHeld false
  complete : w.tables.Complete

namespace AuditState

variable {α : Type} {w : World}

theorem fresh : AuditState .fresh := ⟨.fresh, rfl, ⟨rfl, rfl, rfl⟩, .empty⟩

theorem call {job : Job α} (h : AuditState w) (hjob : job.Orderly false)
    (hcomplete : (Rehearsal.call w job 0).2.tables.Complete) :
    AuditState (Rehearsal.call w job 0).2 :=
  ⟨h.reachable.call job 0, (call_frame job 0 h.reachable.sound.hooked).1.trans h.unopened,
    call_lockHeld hjob h.lock 0, hcomplete⟩

/-- Resolving reference rows leaves the transactions alone. -/
theorem execute {work : Work α} (h : AuditState w) (hwork : work.Asks Query.OfReference)
    (limit : Option Duration) : AuditState (Rehearsal.call w (Job.execute limit work) 0).2 :=
  h.call (Job.orderly_execute limit work) <| h.complete.of_sameRecords <|
    call_execute_keeps .refl .trans sameRecords_of_answers h.reachable.sound.hooked hwork limit 0

theorem transfer (h : AuditState w) (c : Coordinator) (generated : String) (p : TransferParams) :
    AuditState (Rehearsal.call w (c.transfer generated p) 0).2 := by
  refine h.call (c.orderly_transfer generated p) ?_
  obtain ⟨r, rate, -, hpositive, -, -, hposted⟩ | ⟨-, hkept⟩ :=
    posted_or_kept h.reachable c generated p 0
  · exact h.complete.posted hposted hpositive
  · rw [hkept]
    exact h.complete

/-- What is done outside a unit of work leaves the lock free. -/
theorem direct {action : Tables → α × Tables} (h : AuditState w)
    (hreachable : Reachable (Rehearsal.direct w action).2)
    (hsame : SameRecords w.tables (action w.tables).2) :
    AuditState (Rehearsal.direct w action).2 := by
  rw [direct_of_unopened h.unopened] at hreachable ⊢
  exact ⟨hreachable, h.unopened, ⟨h.lock.locked, h.lock.handed, h.lock.queue⟩,
    h.complete.of_sameRecords hsame⟩

/-- Faults, races and hooks may be armed. -/
theorem arm {probes : Probes} {hooks : List Hook} (h : AuditState w)
    (hreachable : Reachable { w with probes, hooks }) : AuditState { w with probes, hooks } :=
  ⟨hreachable, h.unopened, ⟨h.lock.locked, h.lock.handed, h.lock.queue⟩, h.complete⟩

theorem step (h : AuditState w) (a : Action) : AuditState (a.run w) := by
  have hw := h.reachable
  cases a with
  | openAccount user currency balance =>
      exact h.direct (hw.openAccount user currency balance) ⟨rfl, rfl, rfl⟩
  | deactivate account =>
      have hsame : SameRecords w.tables (w.tables.deactivate account) := by
        unfold Tables.deactivate
        split
        · exact ⟨rfl, rfl, rfl⟩
        · exact .refl _
      exact h.direct (hw.deactivate account) hsame
  | transfer c generated p => exact h.transfer c generated p
  | verify c id =>
      refine h.call (c.orderly_verify id) ?_
      rw [tables_verify hw.sound.hooked]
      exact h.complete
  | resolveStatus c code => exact h.execute (ReferenceTable.status.asks_resolve code) c.timeout
  | resolveType c code => exact h.execute (ReferenceTable.type.asks_resolve code) c.timeout
  | resolveCurrency c code => exact h.execute (ReferenceTable.currency.asks_resolve code) c.timeout
  | seed c => exact h.execute asks_seedCatalog c.timeout
  | fault point occurrence => exact h.arm (hw.fault point occurrence)
  | race => exact h.arm hw.race
  | delay request skip milliseconds => exact h.arm (hw.delay request skip milliseconds)

end AuditState

theorem auditState_runAll (actions : List Action) : AuditState (runAll actions) := by
  unfold runAll
  induction actions using List.reverseRecOn with
  | nil => exact .fresh
  | append_singleton actions a ih =>
      rw [List.foldl_append]
      exact ih.step a

section

variable {w : World} {id : Int}

/-- An audit that nothing disturbs passes a transaction with its two entries. -/
theorem call_verify_found (hw : w.Undisturbed) (hlock : w.LockHeld false)
    (hcomplete : w.tables.Complete) (description : String) {row : Transaction}
    (hfind : w.tables.transactions.find? id = some row) :
    ∃ audit, (call w (Coordinator.verify ⟨none, description⟩ id) 0).1 = .ok audit ∧
      audit.transaction = row ∧ DoubleEntry row audit.entries ∧
      audit.entrySum.isZero = true := by
  have hentries := hcomplete.entries hfind
  obtain ⟨sum, haudit, hzero⟩ := auditEntries_of_doubleEntry hentries
  let audit : LedgerAudit := ⟨row, w.tables.entriesOf id, sum⟩
  refine ⟨audit, ?_, rfl, hentries, hzero⟩
  rw [call_settled (r := .ok audit) (inOneUnit_verify ⟨none, description⟩ id) hw hlock hw.faults
    (yields_readLedger hfind haudit)]
  rfl

theorem call_verify_not_found (hw : w.Undisturbed) (hlock : w.LockHeld false)
    (description : String) (hnone : w.tables.transactions.find? id = none) :
    (call w (Coordinator.verify ⟨none, description⟩ id) 0).1 =
      .error (.transactionNotFound id) := by
  rw [call_settled (r := .error (.transactionNotFound id))
    (inOneUnit_verify ⟨none, description⟩ id) hw hlock hw.faults (yields_readLedger_of_none hnone)]
  rfl

end

/-- The world with other faults and races, and with nothing that delays a request. -/
def World.calm (w : World) (probes : Probes) : World := { w with probes, hooks := [] }

/-- After any run, every committed transaction is a completed transfer of an amount above zero.  An
audit leaves the tables as they are.  When no fault is armed, nothing delays it and it has no
deadline, it passes every committed transaction with its debit and its credit, and finds no
other. -/
theorem committed_transfers_audited (actions : List Action) :
    (∀ id row, (runAll actions).tables.transactions.find? id = some row →
      row.status = StatusCode.completed.text ∧ row.type = TypeCode.transfer.text ∧
        row.amount.isPositive = true) ∧
    (∀ c id, (call (runAll actions) (Coordinator.verify c id) 0).2.tables =
      (runAll actions).tables) ∧
    ∀ probes : Probes, (∀ point, probes.countdown point = 0) → ∀ description id,
      (call ((runAll actions).calm probes) (Coordinator.verify ⟨none, description⟩ id) 0).2.tables =
        (runAll actions).tables ∧
      (∀ row, (runAll actions).tables.transactions.find? id = some row →
        ∃ audit, (call ((runAll actions).calm probes)
            (Coordinator.verify ⟨none, description⟩ id) 0).1 = .ok audit ∧
          audit.transaction = row ∧ DoubleEntry row audit.entries ∧
          audit.entrySum.isZero = true) ∧
      ((runAll actions).tables.transactions.find? id = none →
        (call ((runAll actions).calm probes) (Coordinator.verify ⟨none, description⟩ id) 0).1 =
          .error (.transactionNotFound id)) := by
  have h := auditState_runAll actions
  refine ⟨fun id row hfind => ?_, fun c id => tables_verify h.reachable.sound.hooked c id 0,
    fun probes hfaults description id => ?_⟩
  · exact ⟨h.complete.status hfind, h.complete.type hfind, h.complete.positive hfind⟩
  · have hquiet : ((runAll actions).calm probes).Undisturbed := ⟨rfl, hfaults⟩
    have hlock : ((runAll actions).calm probes).LockHeld false :=
      ⟨h.lock.locked, h.lock.handed, h.lock.queue⟩
    have hhooked : ((runAll actions).calm probes).Hooked Disturbance.IsDelay :=
      fun hook hmem => absurd hmem List.not_mem_nil
    exact ⟨tables_verify hhooked _ id 0,
      fun row hfind => call_verify_found hquiet hlock h.complete description hfind,
      fun hnone => call_verify_not_found hquiet hlock description hnone⟩

/-- The payment of a dollar passes its audit, and there is no second transaction. -/
theorem dollar_audited :
    (∀ point, Probes.quiet.countdown point = 0) ∧
    (∃ audit, (call ((runAll dollarRun).calm .quiet) (Coordinator.default.verify 1) 0).1 =
        .ok audit ∧ audit.entrySum.isZero = true) ∧
    (call ((runAll dollarRun).calm .quiet) (Coordinator.default.verify 2) 0).1 =
      .error (.transactionNotFound 2) := by
  have hfaults : ∀ point, Probes.quiet.countdown point = 0 := fun _ => rfl
  have hpaid : ((runAll dollarRun).tables.transactions.find? 1).isSome = true := by decide +kernel
  have hnone : (runAll dollarRun).tables.transactions.find? 2 = none := by decide +kernel
  obtain ⟨row, hrow⟩ := Option.isSome_iff_exists.1 hpaid
  obtain ⟨-, -, haudits⟩ := committed_transfers_audited dollarRun
  obtain ⟨-, hfound, -⟩ := haudits .quiet hfaults "Fund Transfer" 1
  obtain ⟨audit, haudit, -, -, hzero⟩ := hfound row hrow
  obtain ⟨-, -, hmissing⟩ := haudits .quiet hfaults "Fund Transfer" 2
  exact ⟨hfaults, ⟨audit, haudit, hzero⟩, hmissing hnone⟩

end Rehearsal

end FundsTransfer
