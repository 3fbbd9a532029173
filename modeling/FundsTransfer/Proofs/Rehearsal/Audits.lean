import FundsTransfer.Proofs.Decimal.Running
import FundsTransfer.Proofs.Rehearsal.Overflow
import FundsTransfer.Proofs.Transfer.Auditing

/-!
# Audits that do not report

An audit is meant to tell a ledger that is in order from one that is not.  It adds the
amounts of all entries before it looks at anything else, and there is no error for a sum that
outgrows a decimal.  So there are ledgers of which nothing is told: those whose running sum
is too large at some entry, `Decimal.Outgrows`.  What transfers write is not among them, but
entries may be written directly.

`Tables.audit` is what an audit of a transaction comes to on the tables.  Faults do not reach
its two queries, so a verification overflows exactly when its unit of work is opened and the
audit overflows.  It ends with a result otherwise.
-/

namespace FundsTransfer

open Memory

/-! ## Audits of entries -/

/-- A ledger of which an audit tells nothing: the running sum of the entries is too large. -/
def Memory.Tables.Overfull (t : Tables) (id : Int) : Prop :=
  ∃ row, t.transactions.find? id = some row ∧
    Decimal.Outgrows ((t.entriesOf id).map Entry.amount)

/-- What an audit of the transaction with a number comes to. -/
def Memory.Tables.audit (t : Tables) (id : Int) : Outcome LedgerAudit :=
  match t.transactions.find? id with
  | none => .error (.transactionNotFound id)
  | some row =>
    match auditEntries row (t.entriesOf id) with
    | .ok sum => .ok ⟨row, t.entriesOf id, sum⟩
    | .error e => .error e
    | .overflow => .overflow

section

variable {row : Transaction} {entries : List Entry}

/-- With their sum at hand, the entries pass or a fault of theirs is told. -/
theorem auditEntries_reports {sum : Decimal}
    (h : Decimal.sum? (entries.map Entry.amount) = some sum) :
    auditEntries row entries = .ok sum ∨
      ∃ reason, auditEntries row entries = .error (.ledgerImbalance row.id sum reason) := by
  unfold auditEntries
  rw [h]
  dsimp only
  split
  · exact .inr ⟨_, rfl⟩
  split
  · exact .inr ⟨_, rfl⟩
  split
  · exact .inr ⟨_, rfl⟩
  split
  · exact .inr ⟨_, rfl⟩
  · exact .inl rfl

theorem auditEntries_eq_overflow_iff (row : Transaction) (entries : List Entry) :
    auditEntries row entries = .overflow ↔ Decimal.Outgrows (entries.map Entry.amount) := by
  rw [← Decimal.sum?_eq_none_iff]
  cases hsum : Decimal.sum? (entries.map Entry.amount) with
  | none =>
      unfold auditEntries
      rw [hsum]
      exact ⟨fun _ => rfl, fun _ => rfl⟩
  | some sum =>
      obtain hok | ⟨reason, herror⟩ := auditEntries_reports hsum
      · rw [hok]
        exact ⟨nofun, nofun⟩
      · rw [herror]
        exact ⟨nofun, nofun⟩

end

theorem audit_eq_overflow_iff (t : Tables) (id : Int) : t.audit id = .overflow ↔ t.Overfull id := by
  unfold Tables.audit Tables.Overfull
  cases t.transactions.find? id with
  | none => simp
  | some row =>
      simp only [Option.some.injEq, exists_eq_left', ← auditEntries_eq_overflow_iff row]
      cases auditEntries row (t.entriesOf id) with
      | _ => simp

/-! ## Verifications -/

namespace Rehearsal

variable {w : World}

/-- Reading the ledger asks nothing that a fault can reach. -/
theorem yields_readLedger_audit (t : Tables) (p : Probes) (id : Int) :
    (readLedger id).Yields ⟨t, p⟩ (t.audit id) ⟨t, p⟩ := by
  refine (yields_readTransaction id).bind ?_
  unfold Tables.audit
  cases t.transactions.find? id with
  | none => exact ⟨rfl, rfl⟩
  | some row =>
      have hentries : (Work.require (.entries id) (.storage .readLedger)).Yields ⟨t, p⟩
          (.ok (t.entriesOf id)) ⟨t, p⟩ := Work.yields_require rfl
      refine hentries.bind ?_
      dsimp only
      cases auditEntries row (t.entriesOf id) with
      | ok sum => exact ⟨rfl, rfl⟩
      | error e => exact ⟨rfl, rfl⟩
      | overflow => exact ⟨rfl, rfl⟩

/-- An audit of entries overflows exactly when their running sum outgrows a decimal at some entry.
Otherwise there is a sum, and the entries pass or a fault of theirs is told.  Entries whose digits
fit all together at one scale do not outgrow a decimal.

In a world with a free lock and no pending hook, a verification overflows exactly when its unit of
work is opened and the ledger is overfull.  Otherwise it ends with a result or with an error.  It
leaves the tables as they are. -/
theorem audit_overflows_iff (hhooks : w.hooks = []) (hlock : w.LockHeld false) (c : Coordinator)
    (id : Int) (pauses : Nat) :
    (∀ row entries,
      (auditEntries row entries = .overflow ↔ Decimal.Outgrows (entries.map Entry.amount)) ∧
        (¬ Decimal.Outgrows (entries.map Entry.amount) →
          ∃ sum, Decimal.sum? (entries.map Entry.amount) = some sum ∧
            (auditEntries row entries = .ok sum ∨
              ∃ reason, auditEntries row entries = .error (.ledgerImbalance row.id sum reason))) ∧
        ∀ scale : Nat, (∀ e ∈ entries, e.amount.scale ≤ scale) →
          (entries.map fun e => |e.amount.toRat|).sum * 10 ^ scale < 2 ^ 96 →
            ¬ Decimal.Outgrows (entries.map Entry.amount)) ∧
    ((call w (c.verify id) pauses).1 = .overflow ↔
      (w.trip .begin).1 = false ∧ w.tables.Overfull id) ∧
    ((call w (c.verify id) pauses).1 = .overflow ∨
      (∃ audit, (call w (c.verify id) pauses).1 = .ok audit) ∨
        ∃ e, (call w (c.verify id) pauses).1 = .error e) ∧
    (call w (c.verify id) pauses).2.tables = w.tables := by
  have hdelays : w.Hooked Disturbance.IsDelay := fun hook hmem => by
    rw [hhooks] at hmem
    cases hmem
  obtain ⟨hoverflow, hends⟩ := call_overflow_iff (inOneUnit_verify c id) hhooks hlock
    (yields_readLedger_audit w.tables (w.trip .begin).2.probes id) pauses
  refine ⟨fun row entries => ⟨auditEntries_eq_overflow_iff row entries, fun hfits => ?_, ?_⟩,
    ?_, ?_, tables_verify hdelays c id pauses⟩
  · obtain ⟨sum, hsum⟩ := Option.ne_none_iff_exists'.1 (mt (Decimal.sum?_eq_none_iff _).1 hfits)
    exact ⟨sum, hsum, auditEntries_reports hsum⟩
  · intro scale hscale hbound hgrows
    obtain ⟨sum, hsum, -⟩ := Decimal.exists_sum?_of_lt (List.forall_mem_map.2 hscale)
      (by rwa [List.map_map])
    rw [(Decimal.sum?_eq_none_iff _).2 hgrows] at hsum
    cases hsum
  · rw [hoverflow, audit_eq_overflow_iff]
  · obtain ⟨e | audit, hr⟩ | hover := hends
    · exact .inr (.inr ⟨e, hr⟩)
    · exact .inr (.inl ⟨audit, hr⟩)
    · exact .inl hover

/-! ## Entries written directly -/

/-- Writes three more entries of the first transaction.  Together they come to what a decimal holds,
but the first two do not. -/
def writeOverfull : Work Unit := do
  let _ ← Work.require (.createEntry ⟨1, 1, fullBalance⟩) (.storage .creditEntry)
  let _ ← Work.require (.createEntry ⟨1, 1, fullBalance⟩) (.storage .creditEntry)
  let _ ← Work.require (.createEntry ⟨1, 1, fullBalance.negate⟩) (.storage .debitEntry)
  pure ()

/-- A dollar was paid, and then more entries were written. -/
def overfullWorld : World :=
  let paid := (call (twoAccounts hundredDollars hundredDollars)
    (Coordinator.default.transfer "" oneDollar) 0).2
  (call paid (Job.execute none writeOverfull) 0).2

/-- Whatever the coordinator, an audit of this ledger is opened and tells nothing. -/
theorem overfull_audit_overflows :
    overfullWorld.hooks = [] ∧ overfullWorld.LockHeld false ∧
      ∀ c : Coordinator, (call overfullWorld (c.verify 1) 0).1 = .overflow := by
  have hhooks : overfullWorld.hooks = [] := by decide +kernel
  have hlock : overfullWorld.LockHeld false :=
    ⟨by decide +kernel, by decide +kernel, by decide +kernel⟩
  have hbegins : (overfullWorld.trip .begin).1 = false := by decide +kernel
  have haudit : overfullWorld.tables.audit 1 = .overflow := by decide +kernel
  refine ⟨hhooks, hlock, fun c => ?_⟩
  obtain ⟨-, hoverflow, -, -⟩ := audit_overflows_iff hhooks hlock c 1 0
  exact hoverflow.2 ⟨hbegins, (audit_eq_overflow_iff _ _).1 haudit⟩

/-- An audit of entries that were written directly ends neither with a result nor with an error, in
a reachable world where nothing disturbs. -/
theorem written_entries_not_audited :
    Reachable overfullWorld ∧ overfullWorld.Undisturbed ∧
      (∃ row, overfullWorld.tables.transactions.find? 1 = some row ∧
        auditEntries row (overfullWorld.tables.entriesOf 1) = .overflow) ∧
      (call overfullWorld (Coordinator.default.verify 1) 0).1 = .overflow := by
  have hreachable : Reachable overfullWorld := .call _ 0 (.call _ 0 (reachable_twoAccounts _ _))
  have hcalm : ∀ point, overfullWorld.probes.countdown point = 0 := fun point => by
    cases point with
    | _ => decide +kernel
  have haudit : overfullWorld.tables.audit 1 = .overflow := by decide +kernel
  obtain ⟨row, hfind, hgrows⟩ := (audit_eq_overflow_iff _ _).1 haudit
  exact ⟨hreachable, ⟨by decide +kernel, hcalm⟩,
    ⟨row, hfind, (auditEntries_eq_overflow_iff row _).2 hgrows⟩, by decide +kernel⟩

end Rehearsal

end FundsTransfer
