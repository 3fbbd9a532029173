import FundsTransfer.Proofs.Memory.Integrity
import FundsTransfer.Proofs.Transfer.Questions

/-!
# What resolving a code does

A code is resolved by reading its row, or by writing one from the catalog when there is
none.  Writing can lose a race, and then the row of the winner is read back.  Whichever
way it goes, when a code was resolved its table has a row with it, and `Table.Ensured`
says what became of the table: nothing, when the row was there, and otherwise the one row
from the catalog was added.

On any store a code can be resolved to a row that is read (`ends_resolve_of_found`), or that
is written where none is read (`ends_resolve_of_created`).

What the store in memory does to a reference table is `Reference.Stored`, and
`Stored.ends_resolve` follows from it.  It does so to all three (`ReferenceTable.stored`),
which differ only in what the store performs for their questions.
-/

namespace FundsTransfer

open Memory

variable {ρ : Type}

/-- What making sure of a code does to a reference table.  The row with the code was there, or was
added from the catalog. -/
inductive Table.Ensured (catalog : ρ → Prop) (code : String) (before after : Table String ρ)
    (row : ρ) : Prop where
  | found (hrow : before.find? code = some row) (hafter : after = before)
  | written (hnone : before.find? code = none) (hrow : catalog row)
      (hafter : after = before.put code row)

/-- The table has the row under the code and is the same under every other code. -/
theorem Table.Ensured.find? {catalog : ρ → Prop} {code : String} {before after : Table String ρ}
    {row : ρ} (h : Ensured catalog code before after row) (k : String) :
    after.find? k = if k = code then some row else before.find? k := by
  cases h with
  | found hrow hafter =>
      rw [hafter]
      split
      · rename_i hk
        rw [hk, hrow]
      · rfl
  | written hnone hrow hafter => rw [hafter, find?_put]

/-- The row has the code, when the rows before and those of the catalog have theirs. -/
theorem Table.Ensured.code_eq {catalog : ρ → Prop} {key : ρ → String} {code : String}
    {before after : Table String ρ} {row : ρ} (h : Ensured catalog code before after row)
    (hbefore : before.Keyed key) (hcatalog : ∀ row, catalog row → key row = code) :
    key row = code := by
  cases h with
  | found hrow _ => exact hbefore code row hrow
  | written _ hrow _ => exact hcatalog row hrow

theorem Table.Ensured.keyed {catalog : ρ → Prop} {key : ρ → String} {code : String}
    {before after : Table String ρ} {row : ρ} (h : Ensured catalog code before after row)
    (hbefore : before.Keyed key) (hrow : key row = code) : after.Keyed key := by
  cases h with
  | found _ hafter => exact hafter ▸ hbefore
  | written _ _ hafter => exact hafter ▸ hbefore.put hrow

namespace Reference

variable {r : Reference ρ} {now : Timestamp} {table : Tables → Table String ρ}
  {update : Tables → Table String ρ → Tables} {catalog : String → ρ → Prop}
  {t t' : Tables} {code : String}

section Successes

variable {σ : Type} {A : Answering σ} {s s₁ s' : σ} {row : ρ}

theorem ends_fetchOrFail_of_fetch {found : Option ρ}
    (h : (r.fetch code).Ends A s (.ok (.ok found)) s') :
    (r.fetchOrFail code).Ends A s (.ok found) s' :=
  Work.ends_bind_ok.2 ⟨_, s', h, Work.ends_pure_ok.2 ⟨rfl, rfl⟩⟩

/-- A code is resolved to the row that is read. -/
theorem ends_resolve_of_found (hcode : code ≠ "") (hrow : r.codeOf row = code)
    (h : (r.fetch code).Ends A s (.ok (.ok (some row))) s') :
    (r.resolve code).Ends A s (.ok row) s' := by
  rw [resolve, if_neg (by simpa using hcode)]
  refine Work.ends_bind_ok.2 ⟨_, s', ends_fetchOrFail_of_fetch h, ?_⟩
  dsimp only
  rw [if_pos hrow]
  exact ⟨rfl, rfl⟩

/-- A code without a row is resolved to the row that is written. -/
theorem ends_resolve_of_created (hcode : code ≠ "") {create : Work (Except StoreError ρ)}
    (hcreate : r.create code = .ok create) (h : (r.fetch code).Ends A s (.ok (.ok none)) s₁)
    (hwrite : create.Ends A s₁ (.ok (.ok row)) s') :
    (r.resolve code).Ends A s (.ok row) s' := by
  rw [resolve, if_neg (by simpa using hcode)]
  refine Work.ends_bind_ok.2 ⟨_, s₁, ends_fetchOrFail_of_fetch h, ?_⟩
  dsimp only
  rw [createOrRefetch, hcreate, Work.ofExcept, Work.done_bind]
  exact Work.ends_bind_ok.2 ⟨_, s', hwrite, rfl, rfl⟩

end Successes

/-- A reference table that the store in memory keeps. -/
structure Stored (r : Reference ρ) (now : Timestamp) (table : Tables → Table String ρ)
    (update : Tables → Table String ρ → Tables) (catalog : String → ρ → Prop) : Prop where
  /-- Reading finds the row. -/
  fetch {t t' : Tables} {code : String} {row : Option ρ} :
    (r.fetch code).Ends (Answers now) t (.ok (.ok row)) t' → row = (table t).find? code ∧ t' = t
  /-- Writing is refused and changes nothing, or adds a row of the catalog where there was none. -/
  create {t t' : Tables} {code : String} {create : Work (Except StoreError ρ)}
      {answer : Except StoreError ρ} : r.create code = .ok create →
    create.Ends (Answers now) t (.ok answer) t' →
      (t' = t ∧ ∃ e, answer = .error e ∧
        (e.isUniqueViolation = true → (table t).contains code = true)) ∨
      ∃ row, catalog code row ∧ (table t).contains code = false ∧
        t' = update t ((table t).put code row) ∧ (answer = .ok row ∨ ∃ e, answer = .error e)
  /-- A row of the catalog has its code. -/
  code_of_catalog {code : String} {row : ρ} : catalog code row → r.codeOf row = code
  table_update (t : Tables) (rows : Table String ρ) : table (update t rows) = rows
  update_table (t : Tables) : update t (table t) = t

namespace Stored

theorem ends_fetchOrFail (hs : r.Stored now table update catalog) {row : Option ρ}
    (h : (r.fetchOrFail code).Ends (Answers now) t (.ok row) t') :
    row = (table t).find? code ∧ t' = t := by
  obtain ⟨answer, t₁, hfetch, h⟩ := Work.ends_bind_ok.1 h
  cases answer with
  | ok row' =>
      obtain ⟨rfl, rfl⟩ := Work.ends_pure_ok.1 h
      exact hs.fetch hfetch
  | error e => exact absurd h.1 nofun

theorem ends_refetch (hs : r.Stored now table update catalog) {row : ρ}
    (h : (r.refetch code).Ends (Answers now) t (.ok row) t') :
    (table t).find? code = some row ∧ t' = t := by
  obtain ⟨found, t₁, hfetch, h⟩ := Work.ends_bind_ok.1 h
  obtain ⟨hfound, rfl⟩ := hs.ends_fetchOrFail hfetch
  cases found with
  | some row' =>
      obtain ⟨rfl, rfl⟩ := Work.ends_pure_ok.1 h
      exact ⟨hfound.symm, rfl⟩
  | none => exact absurd h.1 nofun

/-- Where there is no row, one of the catalog is added, also when a race is lost. -/
theorem ends_createOrRefetch (hs : r.Stored now table update catalog) {row : ρ}
    (hnone : (table t).find? code = none)
    (h : (r.createOrRefetch code).Ends (Answers now) t (.ok row) t') :
    catalog code row ∧ t' = update t ((table t).put code row) := by
  obtain ⟨create, t₁, hcreate, hrest⟩ := Work.ends_bind_ok.1 h
  have hr : r.create code = .ok create ∧ t₁ = t := by
    cases hr : r.create code with
    | error e =>
        rw [hr] at hcreate
        exact absurd hcreate.1 nofun
    | ok create' =>
        rw [hr] at hcreate
        obtain ⟨hsame, ht⟩ := hcreate
        cases hsame
        exact ⟨rfl, ht⟩
  obtain ⟨hr, rfl⟩ := hr
  obtain ⟨answer, t₂, hwrite, hend⟩ := Work.ends_bind_ok.1 hrest
  obtain ⟨rfl, e, rfl, hunique⟩ | ⟨row', hrow', -, rfl, rfl | ⟨e, rfl⟩⟩ := hs.create hr hwrite
  · have hfree : ¬ e.isUniqueViolation = true := by
      intro hviolation
      have hcontains := hunique hviolation
      rw [Table.contains_eq_false.2 hnone] at hcontains
      cases hcontains
    simp only [if_neg hfree] at hend
    exact absurd hend.1 nofun
  · simp only [Work.ends_log] at hend
    obtain ⟨rfl, rfl⟩ := Work.ends_pure_ok.1 hend
    exact ⟨hrow', rfl⟩
  · -- the race was lost after the row was written, so this row is the one that is read back
    simp only at hend
    split at hend
    · obtain ⟨hfound, rfl⟩ := hs.ends_refetch hend
      rw [hs.table_update, Table.find?_put_self] at hfound
      cases hfound
      exact ⟨hrow', rfl⟩
    · exact absurd hend.1 nofun

/-- A code that was resolved has a row, which was there or comes from the catalog. -/
theorem ends_resolve (hs : r.Stored now table update catalog) {row : ρ}
    (h : (r.resolve code).Ends (Answers now) t (.ok row) t')
    (hkeyed : (table t).Keyed r.codeOf) :
    r.codeOf row = code ∧
      ∃ rows, t' = update t rows ∧ (table t).Ensured (catalog code) code rows row := by
  unfold resolve at h
  split at h
  · exact absurd h.1 nofun
  · obtain ⟨found, t₁, hfetch, h⟩ := Work.ends_bind_ok.1 h
    obtain ⟨hfound, rfl⟩ := hs.ends_fetchOrFail hfetch
    cases found with
    | some row' =>
        have hcode := hkeyed code row' hfound.symm
        simp only [hcode, if_true] at h
        obtain ⟨rfl, rfl⟩ := Work.ends_pure_ok.1 h
        exact ⟨hcode, table t', (hs.update_table t').symm, .found hfound.symm rfl⟩
    | none =>
        obtain ⟨hrow, rfl⟩ := hs.ends_createOrRefetch hfound.symm h
        exact ⟨hs.code_of_catalog hrow, _, rfl, .written hfound.symm hrow rfl⟩

end Stored

/-! ## The three tables -/

/-- What an insertion of a reference row that was not cut short did. -/
theorem inserted_of_gives {label : String} {row : ρ} {answer : Except StoreError ρ}
    (h : (createReference table update label code row).Gives t (answer.mapError .refused) t') :
    (t' = t ∧ ∃ e, answer = .error e ∧
        (e.isUniqueViolation = true → (table t).contains code = true)) ∨
      ((table t).contains code = false ∧ t' = update t ((table t).put code row) ∧
        (answer = .ok row ∨ ∃ e, answer = .error e)) := by
  obtain ⟨ht, e, he, hunique⟩ | ⟨hfree, ht, h⟩ := gives_createReference h
  · cases answer with
    | ok row' => cases he
    | error e' =>
        cases he
        exact .inl ⟨ht, e, rfl, hunique⟩
  · refine .inr ⟨hfree, ht, ?_⟩
    cases answer with
    | ok row' =>
        obtain h | ⟨e, he, -⟩ := h
        · cases h
          exact .inl rfl
        · cases he
    | error e => exact .inr ⟨e, rfl⟩

theorem read_of_gives {α : Type} {f : Tables → α} {a : α}
    (h : (Operation.tables >>= fun t => pure (f t) : Operation α).Gives t
      ((.ok a : Except StoreError α).mapError .refused) t') : a = f t ∧ t' = t := by
  obtain ⟨ha, ht⟩ := Operation.gives_read h
  cases ha
  exact ⟨rfl, ht⟩

/-- The row of the catalog for a status. -/
def catalogStatus (code : String) : TransactionStatus := ⟨code, statusDescription code, true⟩

/-- The row of the catalog for a type. -/
def catalogType (code : String) : TransactionType := ⟨code, typeDescription code, true⟩

/-- A row of the catalog for a currency. -/
def CatalogCurrency (now : Timestamp) (code : String) (row : Currency) : Prop :=
  ∃ new, newCurrency code = .ok new ∧
    row = ⟨code, new.name, new.symbol, true, new.exchangeRate, now⟩

end Reference

namespace Question

variable {α : Type}

/-- What the store in memory does when it is asked. -/
def perform (now : Timestamp) (q : Question α) : Operation α :=
  cast (congrArg Operation q.answer_eq) (Memory.perform now q.query)

theorem gives_of_ends {now : Timestamp} {t t' : Tables} {q : Question α}
    {answer : Except StoreError α} (h : q.ask.Ends (Answers now) t (.ok answer) t') :
    (q.perform now).Gives t (answer.mapError .refused) t' := by
  obtain ⟨q, rfl⟩ := q
  exact Work.ends_ask_ok.1 h

end Question

namespace ReferenceTable

/-- The table among those of a store. -/
def table : (k : ReferenceTable) → Tables → Table String k.Row
  | status => Tables.statuses
  | type => Tables.types
  | currency => Tables.currencies

/-- The tables with other rows in this one. -/
def update : (k : ReferenceTable) → Tables → Table String k.Row → Tables
  | status, t, rows => { t with statuses := rows }
  | type, t, rows => { t with types := rows }
  | currency, t, rows => { t with currencies := rows }

/-- The rows that may be written for a code at some time: the one of the catalog. -/
def CatalogRow (now : Timestamp) (code : String) : (k : ReferenceTable) → k.Row → Prop
  | status, row => row = Reference.catalogStatus code
  | type, row => row = Reference.catalogType code
  | currency, row => Reference.CatalogCurrency now code row

variable (k : ReferenceTable) {code : String} {now : Timestamp}

@[simp] theorem table_update (t : Tables) (rows : Table String k.Row) :
    k.table (k.update t rows) = rows := by
  cases k with
  | _ => rfl

@[simp] theorem update_table (t : Tables) : k.update t (k.table t) = t := by
  cases k with
  | _ => rfl

theorem keyed_table {t : Tables} (ht : t.WellFormed) : (k.table t).Keyed k.codeOf := by
  cases k with
  | status => exact ht.status_code
  | type => exact ht.type_code
  | currency => exact ht.currency_code

theorem code_of_catalogRow {row : k.Row} (h : k.CatalogRow now code row) :
    k.codeOf row = code := by
  cases k with
  | status => exact congrArg TransactionStatus.code h
  | type => exact congrArg TransactionType.code h
  | currency =>
      obtain ⟨new, -, rfl⟩ := h
      rfl

/-- Reading looks the code up. -/
theorem perform_fetch (now : Timestamp) (code : String) :
    (k.fetch code).perform now = do return (k.table (← Operation.tables)).find? code := by
  cases k with
  | _ => rfl

/-- Writing inserts a row of the catalog. -/
theorem perform_create (now : Timestamp) (code : String) :
    ∃ label row, k.CatalogRow now code row ∧
      (k.create code).perform now = createReference k.table k.update label code row := by
  cases k with
  | status => exact ⟨_, _, rfl, rfl⟩
  | type => exact ⟨_, _, rfl, rfl⟩
  | currency =>
      obtain ⟨new, hnew⟩ := newCurrency_ok code
      have hcode := Reference.code_of_newCurrency hnew
      refine ⟨"currency", _, ⟨new, hnew, rfl⟩, ?_⟩
      simp only [create, catalogCurrency, hnew, Except.toOption, Option.getD_some]
      subst hcode
      rfl

/-- The store in memory keeps the table. -/
theorem stored (now : Timestamp) :
    k.reference.Stored now k.table k.update fun code row => k.CatalogRow now code row where
  fetch {t t' code found} h := by
    rw [k.fetch_reference] at h
    have hgives := Question.gives_of_ends h
    rw [k.perform_fetch] at hgives
    exact Reference.read_of_gives hgives
  create {t t' code create answer} hcreate h := by
    rw [k.create_reference] at hcreate
    cases hcreate
    obtain ⟨label, row, hrow, hperform⟩ := k.perform_create now code
    have hgives := Question.gives_of_ends h
    rw [hperform] at hgives
    obtain hkept | ⟨hfree, ht, hanswer⟩ := Reference.inserted_of_gives hgives
    · exact .inl hkept
    · exact .inr ⟨row, hrow, hfree, ht, hanswer⟩
  code_of_catalog h := by
    rw [k.codeOf_reference]
    exact k.code_of_catalogRow h
  table_update := k.table_update
  update_table := k.update_table

end ReferenceTable

end FundsTransfer
