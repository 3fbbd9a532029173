import FundsTransfer.Proofs.Transfer.Questions
import FundsTransfer.Transfer.Coordinator

/-!
# What the engine asks

Resolving a reference row asks what its table is read and written with, and nothing
else.  So whatever a transfer or a seeding does about reference rows, it asks reference
queries only.  Writing the ledger asks for entries, and changing balances for additions.
-/

namespace FundsTransfer

namespace Reference

variable {ρ : Type} {r : Reference ρ} {code : String} {Q : Query → Prop}

theorem asks_fetchOrFail (hfetch : (r.fetch code).Asks Q) : (r.fetchOrFail code).Asks Q := by
  refine hfetch.bind fun answer => ?_
  cases answer with
  | ok row => trivial
  | error e => trivial

theorem asks_refetch (hfetch : (r.fetch code).Asks Q) : (r.refetch code).Asks Q := by
  refine (asks_fetchOrFail hfetch).bind fun found => ?_
  cases found with
  | some row => trivial
  | none => trivial

theorem asks_createOrRefetch (hfetch : (r.fetch code).Asks Q)
    (hcreate : ∀ create, r.create code = .ok create → create.Asks Q) :
    (r.createOrRefetch code).Asks Q := by
  unfold createOrRefetch
  cases h : r.create code with
  | error e => trivial
  | ok create =>
      refine (hcreate create h).bind fun answer => ?_
      cases answer with
      | ok row => trivial
      | error e =>
          dsimp only
          split
          · exact asks_refetch hfetch
          · trivial

/-- Resolving asks what reading and writing the row asks. -/
theorem asks_resolve (hfetch : (r.fetch code).Asks Q)
    (hcreate : ∀ create, r.create code = .ok create → create.Asks Q) :
    (r.resolve code).Asks Q := by
  unfold resolve
  split
  · trivial
  · refine (asks_fetchOrFail hfetch).bind fun found => ?_
    cases found with
    | some row =>
        dsimp only
        split
        · trivial
        · exact asks_createOrRefetch hfetch hcreate
    | none => exact asks_createOrRefetch hfetch hcreate

end Reference

/-- The queries that read or write a reference row. -/
def Query.OfReference : Query → Prop
  | .status _ => True
  | .createStatus .. => True
  | .type _ => True
  | .createType .. => True
  | .currency _ => True
  | .createCurrency _ => True
  | _ => False

/-- Resolving a code asks reference queries only. -/
theorem ReferenceTable.asks_resolve (k : ReferenceTable) (code : String) :
    (k.reference.resolve code).Asks Query.OfReference := by
  refine Reference.asks_resolve ?_ fun create h => ?_
  · rw [k.fetch_reference]
    refine Question.asks_ask ?_
    cases k with
    | _ => trivial
  · rw [k.create_reference] at h
    cases h
    refine Question.asks_ask ?_
    cases k with
    | _ => trivial

theorem asks_transferReferences (currency : String) :
    (transferReferences currency).Asks Query.OfReference := by
  refine (ReferenceTable.type.asks_resolve _).bind fun transferType => ?_
  refine (ReferenceTable.status.asks_resolve _).bind fun pending => ?_
  refine (ReferenceTable.status.asks_resolve _).bind fun completed => ?_
  exact (ReferenceTable.currency.asks_resolve _).bind fun currency => trivial

theorem asks_seedCatalog : seedCatalog.Asks Query.OfReference := by
  refine (Work.asks_mapM (fun s => ReferenceTable.status.asks_resolve _) _).bind
    fun statuses => ?_
  refine (Work.asks_mapM (fun t => ReferenceTable.type.asks_resolve _) _).bind fun types => ?_
  exact (Work.asks_mapM (fun c => ReferenceTable.currency.asks_resolve _) _).bind fun _ => trivial

/-! ## The ledger and the balances -/

variable {Q : Query → Prop}

theorem asks_writeEntries (hQ : ∀ new, Q (.createEntry new))
    (transaction sender receiver : Int) (amount : Decimal) :
    (writeEntries transaction sender receiver amount).Asks Q := by
  refine (Work.asks_require (hQ _)).bind fun debit => Work.Asks.bind trivial fun _ => ?_
  exact (Work.asks_require (hQ _)).bind fun credit => Work.Asks.bind trivial fun _ => trivial

theorem asks_readLedger (htransaction : ∀ id, Q (.transaction id))
    (hentries : ∀ id, Q (.entries id)) (transaction : Int) :
    (readLedger transaction).Asks Q := by
  refine (Work.asks_require (htransaction _)).bind fun found => ?_
  cases found with
  | none => trivial
  | some t =>
      refine (Work.asks_require (hentries _)).bind fun entries => ?_
      exact (Work.asks_ofOutcome _).bind fun _ => trivial

theorem asks_applyDelta (hQ : ∀ id delta, Q (.addBalance id delta)) (account : Int)
    (delta : Decimal) : (applyDelta account delta).Asks Q :=
  (Work.asks_require (hQ _ _)).bind fun _ => Work.Asks.bind trivial fun _ => trivial

theorem asks_updateBothBalances (hQ : ∀ id delta, Q (.addBalance id delta))
    (sender receiver : Int) (amount : Decimal) :
    (updateBothBalances sender receiver amount).Asks Q := by
  unfold updateBothBalances
  split
  · exact (asks_applyDelta hQ _ _).bind fun _ => (asks_applyDelta hQ _ _).bind fun _ => trivial
  · exact (asks_applyDelta hQ _ _).bind fun _ => (asks_applyDelta hQ _ _).bind fun _ => trivial

end FundsTransfer
