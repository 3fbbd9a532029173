import FundsTransfer.Proofs.Rehearsal.Overflow
import FundsTransfer.Proofs.Rehearsal.Reordering
import FundsTransfer.Proofs.Sharing.Resolving
import FundsTransfer.Proofs.Transfer.Ahead

/-!
# Seeding before transfers

Who seeds the catalog gets all of its rows or an error.  With an error nothing was written.
With the rows, each code of the catalog has one row, those that were there are as they
were, and whoever seeds again gets the same.

Nobody needs to seed.  A transfer writes the rows that it does not find, and they are the
rows that seeding writes ahead.  So transfers that are made one after another come to the
same, with or without a seeding before them.  `TurnsOut` says what becomes of one call and
of the tables, and `TurnsOut.ahead` compares two calls, of which one finds rows that were
written ahead.  What holds of one call holds of a list of them, because the tables behind
the two calls can be compared again.
-/

namespace FundsTransfer

open Memory Memory.Tables

/-! ## One call -/

namespace TransferCall

variable {call : TransferCall} {t t' t₁ t₁' : Tables}
  {r r' : Rehearsal.CallEnd TransferResult}

/-- Reference rows are no hindrance. -/
theorem hindrance?_of_ledger (call : TransferCall) (h : t.SameLedger t') :
    call.hindrance? t' = call.hindrance? t := by
  unfold hindrance?
  cases call.params.validate with
  | error e => rfl
  | ok v => exact hindrance?_congr h.accounts h.transactions

/-- A call turns out the same where reference rows were written ahead. -/
theorem TurnsOut.ahead (h : call.TurnsOut t r t₁) (h' : call.TurnsOut t' r' t₁')
    (ht : t.WellFormed) (ht' : t'.WellFormed) (hahead : t.Ahead .epoch t') :
    r' = r ∧ t₁.Ahead .epoch t₁' := by
  have hsame := call.hindrance?_of_ledger hahead.ledger
  cases h with
  | refused hrefused =>
      rw [hrefused] at hsame
      cases h' with
      | refused hrefused' =>
          cases hrefused'.symm.trans hsame
          exact ⟨rfl, hahead⟩
      | overflowed hover => cases hover.symm.trans hsame
      | succeeded hnone => cases hnone.symm.trans hsame
  | overflowed hover =>
      rw [hover] at hsame
      cases h' with
      | refused hrefused => cases hrefused.symm.trans hsame
      | overflowed => exact ⟨rfl, hahead⟩
      | succeeded hnone => cases hnone.symm.trans hsame
  | succeeded hnone hvalid hends =>
      rw [hnone] at hsame
      cases h' with
      | refused hrefused => cases hrefused.symm.trans hsame
      | overflowed hover => cases hover.symm.trans hsame
      | succeeded _ hvalid' hends' =>
          cases hvalid'.symm.trans hvalid
          obtain ⟨-, hne, rate, -, rfl⟩ := TransferParams.of_validate hvalid
          obtain ⟨rfl, hahead₁⟩ :=
            (posted_of_ends hne ht hends).ahead (posted_of_ends hne ht' hends') hahead
          exact ⟨rfl, hahead₁⟩

end TransferCall

namespace Rehearsal

variable {w u u' : World} {t : Tables}

/-! ## One call after another -/

/-- Calls turn out the same where reference rows were written ahead. -/
theorem callAll_ahead {t t' : Tables} (calls : List TransferCall) (hu : u.Ready t)
    (hu' : u'.Ready t') (hahead : t.Ahead .epoch t') :
    (callAll u' calls).1 = (callAll u calls).1 := by
  induction calls generalizing u u' t t' with
  | nil => rfl
  | cons call rest ih =>
      obtain ⟨r, u₁, t₁, hcall, hu₁, hturns⟩ := call_turnsOut call hu 0
      obtain ⟨r', u₁', t₁', hcall', hu₁', hturns'⟩ := call_turnsOut call hu' 0
      obtain ⟨rfl, hahead₁⟩ := hturns.ahead hturns' hu.wellFormed hu'.wellFormed hahead
      simp only [callAll, hcall, hcall', ih hu₁ hu₁' hahead₁]

/-! ## Seeding -/

/-- In a reachable world the catalog is seeded, or nothing is committed. -/
theorem seeded_or_kept (hw : Reachable w) (c : Coordinator) (pauses : Nat) :
    (∃ seeded, (Rehearsal.call w c.seed pauses).1 = .ok seeded ∧
      (∀ k : ReferenceTable, k.Seeds .epoch k.catalogCodes (k.table w.tables) (seeded.rows k)
        (k.table (Rehearsal.call w c.seed pauses).2.tables)) ∧
      w.tables.SameLedger (Rehearsal.call w c.seed pauses).2.tables) ∨
    ((∀ seeded, (Rehearsal.call w c.seed pauses).1 ≠ .ok seeded) ∧
      (Rehearsal.call w c.seed pauses).2.tables = w.tables) := by
  let post : Tables → SeededCatalog → Prop := fun t seeded =>
    (∀ k : ReferenceTable, k.Seeds .epoch k.catalogCodes (k.table w.tables) (seeded.rows k)
      (k.table t)) ∧ w.tables.SameLedger t
  have hjob : c.seed.Publishes (Memory.Answers .epoch) w.tables post none := by
    rw [Coordinator.seed, ← Job.andThen_conclude (Job.execute c.timeout seedCatalog)]
    refine Job.publishes_execute_andThen (fun seeded t hends => ⟨seeded, rfl, ?_⟩) fun e => nofun
    exact ends_seedCatalog hw.wellFormed hends
  exact call_publishes_of_reachable hw pauses hjob

/-- Where nothing disturbs, the catalog is seeded. -/
theorem call_seed (hu : u.Ready t) (c : Coordinator) (pauses : Nat) :
    ∃ seeded u' t', Rehearsal.call u c.seed pauses = (.ok seeded, u') ∧ u'.Ready t' := by
  obtain ⟨rfl, hwell, hquiet, hlock⟩ := hu
  obtain ⟨seeded, t', p', hyields, hcalm⟩ := yields_seedCatalog hwell hquiet.faults
  exact ⟨seeded, _, t', call_settled (r := .ok seeded)
      (Job.inOneUnit_execute c.timeout seedCatalog) hquiet hlock hcalm hyields pauses,
    ⟨rfl, hyields.wellFormed hwell, hquiet.settled hcalm _ _, hlock.settled _ _ _⟩⟩

/-- What seeding comes to in a reachable world, whatever rows are there, whatever races are pending
and whatever faults are armed.  With a result every code of the catalog has its one row, rows that
were there are as they were, and seeding later gives the same result and does nothing.  With an
error nothing has changed.  Transfers that nothing disturbs have the same results after seeding as
before. -/
theorem seeding_completes_catalog {w' : World} {r : CallEnd SeededCatalog} (hw : Reachable w)
    (c : Coordinator) (pauses : Nat) (hcall : Rehearsal.call w c.seed pauses = (r, w')) :
    (∀ seeded, r = .ok seeded →
      (∀ k : ReferenceTable,
        k.Seeded (k.table w.tables) (seeded.rows k) (k.table w'.tables)) ∧
      w.tables.SameLedger w'.tables ∧
      ∀ (later : World) (c' : Coordinator) (pauses' : Nat) (seeded' : SeededCatalog),
        Reachable later → w'.tables.Grows later.tables →
        (Rehearsal.call later c'.seed pauses').1 = .ok seeded' →
        seeded' = seeded ∧ (Rehearsal.call later c'.seed pauses').2.tables = later.tables) ∧
    ((∀ seeded, r ≠ .ok seeded) → w'.tables = w.tables) ∧
    (∀ u u' : World, u.Ready w.tables → u'.Ready w'.tables →
      ∀ calls, (callAll u' calls).1 = (callAll u calls).1) ∧
    (w.Undisturbed → w.LockHeld false → (∃ seeded, r = .ok seeded) ∧
      ∀ calls, (callAll w' calls).1 = (callAll w calls).1) := by
  have hw' : Reachable w' := by
    have hnext := hw.call c.seed pauses
    rwa [hcall] at hnext
  have hends := seeded_or_kept hw c pauses
  rw [hcall] at hends
  have hahead : w.tables.Ahead .epoch w'.tables := by
    obtain ⟨seeded, -, hseeds, hledger⟩ | ⟨-, hkept⟩ := hends
    · exact ⟨hledger, fun k => (hseeds k).leads⟩
    · rw [show w'.tables = w.tables from hkept]
      exact .refl _ _
  refine ⟨?_, fun hfailed => ?_, fun u u' hu hu' calls => callAll_ahead calls hu hu' hahead,
    fun hquiet hlock => ?_⟩
  · rintro seeded rfl
    obtain ⟨_, ⟨⟩, hseeds, hledger⟩ | ⟨hnone, -⟩ := hends
    · refine ⟨fun k => ?_, hledger, fun later c' pauses' seeded' hlater hgrows hagain => ?_⟩
      · exact (hseeds k).seeded (k.keyed_table hw'.wellFormed) (k.nodup_keys_table hw'.intact)
      · obtain ⟨again, hok, hseeds', hledger'⟩ | ⟨hnone, -⟩ := seeded_or_kept hlater c' pauses'
        · cases hok.symm.trans hagain
          have hsame (k : ReferenceTable) :=
            (hseeds k).again (fun hrow => k.find?_of_grows hgrows hrow) (hseeds' k)
          exact ⟨SeededCatalog.ext_rows fun k => (hsame k).1, hledger'.eq fun k => (hsame k).2⟩
        · exact absurd hagain (hnone seeded')
    · exact absurd rfl (hnone seeded)
  · obtain ⟨seeded, hok, -⟩ | ⟨-, hkept⟩ := hends
    · exact absurd hok (hfailed seeded)
    · exact hkept
  · have hready : w.Ready w.tables := ⟨rfl, hw.wellFormed, hquiet, hlock⟩
    obtain ⟨seeded, w₁, t', hseed, hready'⟩ := call_seed hready c pauses
    cases hcall.symm.trans hseed
    exact ⟨⟨seeded, rfl⟩, fun calls => callAll_ahead calls hready
      (hready'.tables ▸ hready') hahead⟩

/-- The world in which a dollar was paid and a race is pending. -/
def paidAndRaced : World := { dollarPaid.2 with probes := dollarPaid.2.probes.addRace }

theorem ready_paidAndRaced : paidAndRaced.Ready paidAndRaced.tables := by
  have hready : (twoAccounts hundredDollars .zero).Ready _ :=
    ⟨rfl, (reachable_twoAccounts _ _).wellFormed, ⟨rfl, fun _ => rfl⟩, ⟨rfl, rfl, rfl⟩⟩
  obtain ⟨_, u, t, hcall, ⟨rfl, hwell, hquiet, hlock⟩, -⟩ :=
    call_turnsOut (crossing false) hready 0
  have hpaid : dollarPaid.2 = u := congrArg Prod.snd hcall
  unfold paidAndRaced
  rw [hpaid]
  exact ⟨rfl, hwell, ⟨hquiet.hooks, hquiet.faults⟩, ⟨hlock.locked, hlock.handed, hlock.queue⟩⟩

/-- The rows that the payment needed stay as they are, the race does not show, and who pays back
does not notice. -/
theorem seeded_between_payments :
    paidAndRaced.tables.currencies.contains "USD" = true ∧
    ∃ seeded w', Rehearsal.call paidAndRaced Coordinator.default.seed 0 = (.ok seeded, w') ∧
      (∀ k : ReferenceTable,
        k.Seeded (k.table paidAndRaced.tables) (seeded.rows k) (k.table w'.tables)) ∧
      (callAll w' [crossing true]).1 = (callAll paidAndRaced [crossing true]).1 := by
  have hreachable : Reachable paidAndRaced :=
    .race (.call (Coordinator.default.transfer "" oneDollar) 0
      (reachable_twoAccounts hundredDollars .zero))
  obtain ⟨-, -, hquiet, hlock⟩ := ready_paidAndRaced
  rcases hcall : Rehearsal.call paidAndRaced Coordinator.default.seed 0 with ⟨r, w'⟩
  obtain ⟨hcomplete, -, -, hfree⟩ := seeding_completes_catalog hreachable .default 0 hcall
  obtain ⟨⟨seeded, rfl⟩, hsame⟩ := hfree hquiet hlock
  obtain ⟨hrows, -, -⟩ := hcomplete seeded rfl
  exact ⟨by decide +kernel, seeded, w', rfl, hrows, hsame [crossing true]⟩

end Rehearsal

end FundsTransfer
