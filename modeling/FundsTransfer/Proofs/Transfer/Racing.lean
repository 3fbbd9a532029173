import FundsTransfer.Proofs.Memory.Racing
import FundsTransfer.Proofs.Transfer.Ensuring

/-!
# Races do not show in a transfer

Reference rows are the only thing that races are about, and a code is resolved the same
whether a race is lost or not.  The insertion is counted by the faults before the race is
run.  If it goes through, the row is there in either case, and whoever lost reads it back.

A transfer and a seeding of the catalog resolve several codes one after another, so races
do not show in them either.
-/

namespace FundsTransfer

open Memory

variable {t : Tables} {p : Probes}

/-- A fault that fires refuses a reference row before anything else is looked at. -/
theorem Memory.run_createReference_refused {ρ : Type} {p₁ : Probes}
    (table : Tables → Table String ρ) (update : Tables → Table String ρ → Tables)
    (label code : String) (row : ρ) (hp : p.trip .createReference = (true, p₁)) :
    (createReference table update label code row).run ⟨t, p⟩ =
      (.error (.refused (injected .createReference)), ⟨t, p₁⟩) := by
  unfold createReference
  rw [Operation.run_bind, Operation.run_trip, hp]
  rfl

namespace ReferenceTable

variable (k : ReferenceTable) {code : String}

/-- Where there is no row, it is written or refused by a fault, and a race decides nothing. -/
theorem alike_createOrRefetch (p : Probes) (hnone : (k.table t).find? code = none) :
    (k.reference.createOrRefetch code).Alike t p := by
  obtain ⟨label, row, -, hcreate⟩ := k.perform_create .epoch code
  rcases htrip : p.trip .createReference with ⟨fails, p₁⟩
  have htrip' (n : Nat) : (p.withRaces n).trip .createReference = (fails, p₁.withRaces n) := by
    rw [p.trip_withRaces, htrip]
  cases fails with
  | true =>
      refine ⟨.error (.referenceData k.reference.table code (injected .createReference)), t, p₁,
        fun n => ⟨n, ?_⟩⟩
      have hrun := run_createReference_refused (t := t) k.table k.update label code row (htrip' n)
      rw [← hcreate] at hrun
      have hrefused := Question.yields_ask (r := .error (injected .createReference)) hrun
      unfold Reference.createOrRefetch
      rw [k.create_reference]
      exact Work.Yields.bind (Work.yields_pure _) (hrefused.bind ⟨rfl, rfl⟩)
  | false =>
      have hrow : (k.table (k.update t ((k.table t).put code row))).find? code = some row := by
        rw [k.table_update, Table.find?_put_self]
      refine ⟨.ok row, k.update t ((k.table t).put code row), p₁, fun n => ?_⟩
      obtain ⟨m, hm⟩ := (p₁.withRaces n).takeRace_eq_withRaces
      obtain ⟨answer, hrun, hanswer⟩ := Reference.answer_of_createReference (htrip' n) k.table
        k.update label code row (Table.contains_eq_false.2 hnone)
      rw [hm, ← hcreate] at hrun
      exact ⟨m, Reference.yields_createOrRefetch_written (k.create_reference code)
        (Question.yields_ask hrun) hanswer (hrow ▸ k.serves.yields_fetchOrFail)⟩

theorem raceBlind_resolve (code : String) : (k.reference.resolve code).RaceBlind := by
  intro t p ht
  have hfetch (n : Nat) : (k.reference.fetchOrFail code).Yields ⟨t, p.withRaces n⟩
      (.ok ((k.table t).find? code)) ⟨t, p.withRaces n⟩ := k.serves.yields_fetchOrFail
  unfold Reference.resolve
  split
  · exact Work.raceBlind_fail _ t p ht
  cases hfound : (k.table t).find? code with
  | some row =>
      have hcode := k.keyed_table ht code row hfound
      rw [hfound] at hfetch
      refine ⟨.ok row, t, p, fun n => ⟨n, (hfetch n).bind ?_⟩⟩
      simp only [k.codeOf_reference, hcode, if_true]
      exact Work.yields_pure row
  | none =>
      rw [hfound] at hfetch
      obtain ⟨o, t', p', h⟩ := k.alike_createOrRefetch p hfound
      exact ⟨o, t', p', fun n => (h n).imp fun m hm => (hfetch n).bind hm⟩

end ReferenceTable

/-! ## Transfers and the catalog -/

theorem raceBlind_transferReferences (currency : String) :
    (transferReferences currency).RaceBlind :=
  (ReferenceTable.type.raceBlind_resolve _).bind fun _ =>
    (ReferenceTable.status.raceBlind_resolve _).bind fun _ =>
      (ReferenceTable.status.raceBlind_resolve _).bind fun _ =>
        (ReferenceTable.currency.raceBlind_resolve _).bind fun _ => Work.raceBlind_pure _

theorem raceBlind_seedCatalog : seedCatalog.RaceBlind := by
  refine (Work.raceBlind_mapM (fun _ => ReferenceTable.status.raceBlind_resolve _) _).bind
    fun statuses => ?_
  refine (Work.raceBlind_mapM (fun _ => ReferenceTable.type.raceBlind_resolve _) _).bind
    fun types => ?_
  exact (Work.raceBlind_mapM (fun _ => ReferenceTable.currency.raceBlind_resolve _) _).bind
    fun currencies => Work.raceBlind_pure _

/-- A query that has to succeed, and the event of it. -/
theorem raceBlind_step {α : Type} {q : Query} (hq : SparesReferences q)
    (f : StoreError → TransferError) (event : q.Answer → Log.Event) {g : q.Answer → Work α}
    (hg : ∀ a, (g a).RaceBlind) :
    (Work.require q f >>= fun a => Work.emit (event a) >>= fun _ => g a).RaceBlind :=
  (Work.raceBlind_require hq f).bind fun a => (Work.raceBlind_emit (event a)).bind fun _ => hg a

theorem raceBlind_writeEntries (transaction sender receiver : Int) (amount : Decimal) :
    (writeEntries transaction sender receiver amount).RaceBlind :=
  raceBlind_step (by trivial) _ _ fun _ => raceBlind_step (by trivial) _ _ fun _ =>
    Work.raceBlind_pure _

theorem raceBlind_applyDelta (account : Int) (delta : Decimal) :
    (applyDelta account delta).RaceBlind :=
  raceBlind_step (by trivial) _ _ fun _ => Work.raceBlind_pure _

theorem raceBlind_updateBothBalances (sender receiver : Int) (amount : Decimal) :
    (updateBothBalances sender receiver amount).RaceBlind := by
  unfold updateBothBalances
  split
  · exact (raceBlind_applyDelta _ _).bind fun _ => (raceBlind_applyDelta _ _).bind fun _ =>
      Work.raceBlind_pure _
  · exact (raceBlind_applyDelta _ _).bind fun _ => (raceBlind_applyDelta _ _).bind fun _ =>
      Work.raceBlind_pure _

theorem raceBlind_runTransfer (v : ValidTransfer) (reference description : String) :
    (runTransfer v reference description).RaceBlind := by
  refine (raceBlind_transferReferences v.currency).bind fun refs => ?_
  refine raceBlind_step (by trivial) _ _ fun pending => ?_
  refine (raceBlind_writeEntries _ _ _ _).bind fun entries => ?_
  refine (raceBlind_updateBothBalances _ _ _).bind fun accounts => ?_
  exact raceBlind_step (by trivial) _ _ fun transaction => Work.raceBlind_pure _

end FundsTransfer
