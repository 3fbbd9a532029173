import FundsTransfer.Proofs.Locking.Transfers
import FundsTransfer.Proofs.Transfer.Script

/-!
# Reference rows written side by side

In a database a unit of work that writes a reference row holds the row until it ends.
Whoever writes a row with the same code meanwhile waits, and is told afterwards that the
row is there.  Until then nobody else sees the row, so everybody who needs it tries to
write it.

A transfer and a seeding write what they do not find.  Both go through the codes they
need one after the other.  A seeding begins with the statuses and goes on to the types;
a transfer begins with its type.
-/

namespace FundsTransfer

/-! ## A store that holds back what is not committed -/

/-- A reference row, by its table and its code. -/
abbrev ReferenceRow := ReferenceTable × String

/-- The reference row that a query writes. -/
def createdRow : Query → Option ReferenceRow
  | .createStatus code _ => some (.status, code)
  | .createType code _ => some (.type, code)
  | .createCurrency new => some (.currency, new.code)
  | _ => none

/-- What reading a code can bring: the row if it can be seen, and otherwise nothing. -/
def Fetched {ρ : Type} (codeOf : ρ → String) (code : String) (seen : Prop) :
    Except StoreError (Option ρ) → Prop
  | .ok (some row) => seen ∧ codeOf row = code
  | .ok none => ¬ seen
  | .error _ => True

/-- What writing a row can bring, and the rows held afterwards: the row is written if there is none
to be seen, and otherwise it is a duplicate. -/
def Created {ρ : Type} (codeOf : ρ → String) (k : ReferenceRow) (seen : Prop)
    (own : Set ReferenceRow) : Except StoreError ρ → Set ReferenceRow → Prop
  | .ok row, own' => ¬ seen ∧ codeOf row = k.2 ∧ own' = own ∪ {k}
  | .error e, own' => (e.isUniqueViolation = true → seen) ∧ own' = own

/-- What a query can bring, when a unit of work sees the rows that are committed and its own. -/
def ReferenceAnswers (c own : Set ReferenceRow) :
    (q : Query) → Except StoreError q.Answer → Set ReferenceRow → Prop
  | .status code, r, own' =>
    Fetched TransactionStatus.code code ((.status, code) ∈ c ∪ own) r ∧ own' = own
  | .type code, r, own' =>
    Fetched TransactionType.code code ((.type, code) ∈ c ∪ own) r ∧ own' = own
  | .currency code, r, own' =>
    Fetched Currency.code code ((.currency, code) ∈ c ∪ own) r ∧ own' = own
  | .createStatus code _, r, own' =>
    Created TransactionStatus.code (.status, code) ((.status, code) ∈ c ∪ own) own r own'
  | .createType code _, r, own' =>
    Created TransactionType.code (.type, code) ((.type, code) ∈ c ∪ own) own r own'
  | .createCurrency new, r, own' =>
    Created Currency.code (.currency, new.code) ((.currency, new.code) ∈ c ∪ own) own r own'
  | _, _, own' => own' = own

/-- A unit of work gets hold of a row by writing it, if nobody committed it before. -/
theorem mem_of_created {ρ : Type} {codeOf : ρ → String} {k : ReferenceRow}
    {c own own' : Set ReferenceRow} {r : Except StoreError ρ}
    (h : Created codeOf k (k ∈ c ∪ own) own r own') {k' : ReferenceRow} (hk' : k' ∈ own') :
    k' ∈ own ∨ k' = k ∧ k' ∉ c := by
  cases r with
  | error e => exact .inl (h.2 ▸ hk')
  | ok row =>
      obtain ⟨hseen, -, rfl⟩ := h
      obtain hown | rfl := hk'
      · exact .inl hown
      · exact .inr ⟨rfl, fun hc => hseen (.inl hc)⟩

theorem mem_of_referenceAnswers {c own own' : Set ReferenceRow} {q : Query}
    {r : Except StoreError q.Answer} (h : ReferenceAnswers c own q r own') {k : ReferenceRow}
    (hk : k ∈ own') : k ∈ own ∨ createdRow q = some k ∧ k ∉ c := by
  cases q with
  | createStatus code description =>
      exact (mem_of_created h hk).imp_right fun ⟨heq, hc⟩ => ⟨heq ▸ rfl, hc⟩
  | createType code description =>
      exact (mem_of_created h hk).imp_right fun ⟨heq, hc⟩ => ⟨heq ▸ rfl, hc⟩
  | createCurrency new =>
      exact (mem_of_created h hk).imp_right fun ⟨heq, hc⟩ => ⟨heq ▸ rfl, hc⟩
  | status code => exact .inl (h.2 ▸ hk)
  | type code => exact .inl (h.2 ▸ hk)
  | currency code => exact .inl (h.2 ▸ hk)
  | _ =>
      have hsame : own' = own := h
      exact .inl (hsame ▸ hk)

/-- A store in which a row that was written is seen by others when it is committed, and a code that
somebody else is writing has to be waited for. -/
def referenceStore : Locking.RowStore createdRow where
  answers := ReferenceAnswers
  locks h _ hk := (mem_of_referenceAnswers h hk).imp_right And.left

/-! ## In which order rows are written -/

theorem Question.takes_ask {α κ : Type} {row : Query → Option κ} {q : Question α} {k : κ}
    (h : row q.query = some k) : q.ask.Takes row [k] := by
  obtain ⟨q, rfl⟩ := q
  exact Work.takes_ask h

namespace Reference

variable {ρ κ : Type} {r : Reference ρ} {row : Query → Option κ} {code : String} {k : κ}

/-- Resolving a code locks the row that is written for it, and nothing else. -/
theorem takes_resolve (hfetch : (r.fetch code).Asks fun q => row q = none)
    (hcreate : ∀ create, r.create code = .ok create → create.Takes row [k]) :
    (r.resolve code).Takes row [k] := by
  have hwrite : (r.createOrRefetch code).Takes row [k] := by
    unfold createOrRefetch
    cases h : r.create code with
    | error e => trivial
    | ok create =>
        refine (hcreate create h).bind_asks fun answer => ?_
        cases answer with
        | ok row => trivial
        | error e =>
            dsimp only
            split
            · exact asks_refetch hfetch
            · trivial
  unfold resolve
  split
  · trivial
  · refine (asks_fetchOrFail hfetch).bind_takes fun found => ?_
    cases found with
    | some row =>
        dsimp only
        split
        · trivial
        · exact hwrite
    | none => exact hwrite

end Reference

namespace ReferenceTable

variable (k : ReferenceTable) (code : String)

theorem createdRow_fetch : createdRow (k.fetch code).query = none := by
  cases k with
  | _ => rfl

theorem createdRow_create : createdRow (k.create code).query = some (k, code) := by
  cases k with
  | currency =>
      show some (currency, (catalogCurrency code).code) = _
      rw [code_catalogCurrency]
  | _ => rfl

theorem takes_resolve : (k.reference.resolve code).Takes createdRow [(k, code)] := by
  refine Reference.takes_resolve ?_ fun create h => ?_
  · rw [k.fetch_reference]
    exact Question.asks_ask (k.createdRow_fetch code)
  · rw [k.create_reference] at h
    cases h
    exact Question.takes_ask (k.createdRow_create code)

end ReferenceTable

/-- The row of the type of transfers. -/
def transferRow : ReferenceRow := (.type, TypeCode.transfer.text)

/-- The row of the status that a transfer starts with. -/
def pendingRow : ReferenceRow := (.status, StatusCode.pending.text)

/-- The row of the status that a transfer ends with. -/
def completedRow : ReferenceRow := (.status, StatusCode.completed.text)

/-- The rows that a transfer can write, in its order. -/
def transferRows (currency : String) : List ReferenceRow :=
  [transferRow, pendingRow, completedRow, (.currency, currency)]

/-- The rows that a seeding can write, in its order. -/
def seedRows : List ReferenceRow :=
  StatusCode.all.map (fun s => (.status, s.text)) ++
    (TypeCode.all.map (fun t => (.type, t.text)) ++
      KnownCurrency.all.map fun c => (.currency, c.code))

theorem takes_transferReferences (currency : String) :
    (transferReferences currency).Takes createdRow (transferRows currency) :=
  (ReferenceTable.type.takes_resolve _).bind fun _ =>
    (ReferenceTable.status.takes_resolve _).bind fun _ =>
      (ReferenceTable.status.takes_resolve _).bind fun _ =>
        (ReferenceTable.currency.takes_resolve _).bind_asks fun _ => trivial

theorem takes_runTransfer (t : ValidTransfer) (reference description : String) :
    (runTransfer t reference description).Takes createdRow (transferRows t.currency) := by
  refine (takes_transferReferences t.currency).bind_asks fun refs => ?_
  refine Work.Asks.bind (Work.asks_require rfl) fun pending => Work.Asks.bind trivial fun _ => ?_
  refine Work.Asks.bind (asks_writeEntries (fun _ => rfl) _ _ _ _) fun entries => ?_
  obtain ⟨fromEntry, toEntry⟩ := entries
  refine Work.Asks.bind (asks_updateBothBalances (fun _ _ => rfl) _ _ _) fun accounts => ?_
  obtain ⟨fromAccount, toAccount⟩ := accounts
  refine Work.Asks.bind (Work.asks_require rfl) fun transaction => ?_
  exact Work.Asks.bind trivial fun _ => trivial

theorem takes_seedCatalog : seedCatalog.Takes createdRow seedRows := by
  refine (Work.takes_mapM (fun s => ReferenceTable.status.takes_resolve _) _).bind
    fun statuses => ?_
  refine (Work.takes_mapM (fun t => ReferenceTable.type.takes_resolve _) _).bind fun types => ?_
  exact (Work.takes_mapM (fun c => ReferenceTable.currency.takes_resolve _) _).bind_asks
    fun currencies => trivial

/-! ## Calls that write reference rows -/

/-- A call of the engine that needs many reference rows. -/
inductive EngineCall where
  /-- A transfer. -/
  | transfer (call : TransferCall)
  /-- A seeding of the catalog. -/
  | seed (coordinator : Coordinator)

namespace EngineCall

/-- What a call brings. -/
@[reducible] def Result : EngineCall → Type
  | transfer _ => TransferResult
  | seed _ => SeededCatalog

/-- The job of a call. -/
def job : (call : EngineCall) → Job call.Result
  | transfer call => call.job
  | seed coordinator => coordinator.seed

end EngineCall

namespace TransferCall

theorem takes_nil_of_not_valid {call : TransferCall} (h : ¬ call.Valid) :
    call.job.Takes createdRow [] := by
  obtain ⟨e, hjob⟩ := job_of_not_valid h
  rw [hjob]
  trivial

theorem takes_transferRows (call : TransferCall) :
    call.job.Takes createdRow (transferRows call.params.currency) := by
  by_cases hvalid : call.Valid
  · obtain ⟨t, reference, description, event, -, -, -, hcurrency, hjob⟩ := job_of_valid hvalid
    rw [hjob, ← hcurrency]
    exact (Job.takes_execute (takes_runTransfer t reference description)).andThen
      (takes_report reference)
  · exact (takes_nil_of_not_valid hvalid).of_nil

end TransferCall

end FundsTransfer
