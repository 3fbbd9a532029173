import FundsTransfer.Proofs.Transfer.Ensuring
import Mathlib.Data.List.Basic

/-!
# What seeding the catalog does

Seeding resolves every code of the catalog, table by table and in the order of the catalog.
`Seeds` says what resolving a list of codes does to a table.  Each code has a row then, the
rows that were there are as they were, what is new is for one of the codes and comes from
the catalog, and nothing happens when all codes had a row before.  A step of the list keeps
each of these, so they hold of the whole list, whatever faults and races are pending.

The three tables do not touch each other, and `ends_seedCatalog` puts them together.
`Seeded` is what comes of it for whoever looks at the rows of a table.  Seeding a second time
finds the rows of the first and does nothing, `Seeds.again`.
-/

namespace FundsTransfer

open Memory

namespace ReferenceTable

variable (k : ReferenceTable) {t t' : Tables} {now : Timestamp}

/-- Of two changes to a table the second counts. -/
@[simp] theorem update_update (t : Tables) (rows rows' : Table String k.Row) :
    k.update (k.update t rows) rows' = k.update t rows' := by
  cases k with
  | status => rfl
  | type => rfl
  | currency => rfl

/-! ## A list of codes -/

/-- What resolving some codes one after another does to a table. -/
structure Seeds (now : Timestamp) (codes : List String) (before : Table String k.Row)
    (rows : List k.Row) (after : Table String k.Row) : Prop where
  /-- The rows are those with the codes. -/
  listed : rows.map some = codes.map after.find?
  /-- The rows that were there are as they were. -/
  kept {code : String} {row : k.Row} : before.find? code = some row → after.find? code = some row
  /-- The rows that are new have one of the codes and come from the catalog. -/
  added {code : String} {row : k.Row} : before.find? code = none → after.find? code = some row →
    code ∈ codes ∧ k.CatalogRow now code row
  /-- Where no row was missing, nothing was done. -/
  idle : (∀ code ∈ codes, before.contains code = true) → after = before

variable {before first after : Table String k.Row}

theorem seeds_nil (before : Table String k.Row) : k.Seeds now [] before [] before where
  listed := rfl
  kept h := h
  added hnone hsome := by
    rw [hnone] at hsome
    cases hsome
  idle _ := rfl

variable {k}

/-- One more code, which is resolved before the others. -/
theorem Seeds.cons {code : String} {codes : List String} {row : k.Row} {rows : List k.Row}
    (hfirst : before.Ensured (fun row => k.CatalogRow now code row) code first row)
    (h : k.Seeds now codes first rows after) :
    k.Seeds now (code :: codes) before (row :: rows) after := by
  have hrow : first.find? code = some row := (hfirst.find? code).trans (if_pos rfl)
  have hothers {other : String} (hother : other ≠ code) :
      first.find? other = before.find? other := (hfirst.find? other).trans (if_neg hother)
  refine ⟨?_, fun {other old} hold => h.kept ?_, fun {other new} hnone hnew => ?_, fun hall => ?_⟩
  · rw [List.map_cons, List.map_cons, h.listed, h.kept hrow]
  · by_cases hother : other = code
    · subst hother
      cases hfirst with
      | found hfound _ => rw [hrow, ← hfound, hold]
      | written hnone _ _ =>
          rw [hnone] at hold
          cases hold
    · rw [hothers hother, hold]
  · by_cases hother : other = code
    · subst hother
      cases hfirst with
      | found hfound _ =>
          rw [hnone] at hfound
          cases hfound
      | written _ hcatalog _ =>
          cases (h.kept hrow).symm.trans hnew
          exact ⟨List.mem_cons_self, hcatalog⟩
    · obtain ⟨hmem, hcatalog⟩ := h.added ((hothers hother).trans hnone) hnew
      exact ⟨List.mem_cons_of_mem _ hmem, hcatalog⟩
  · cases hfirst with
    | found _ hsame =>
        subst hsame
        exact h.idle fun other hother => hall other (List.mem_cons_of_mem _ hother)
    | written hnone _ _ =>
        have hcode := hall code List.mem_cons_self
        rw [Table.contains_eq_false.2 hnone] at hcode
        cases hcode

variable (k)

/-- Codes that were resolved one after another have their rows, and no other table was touched. -/
theorem seeds_of_ends {codes : List String} {rows : List k.Row}
    (hkeyed : (k.table t).Keyed k.codeOf)
    (h : (codes.mapM k.reference.resolve).Ends (Answers now) t (.ok rows) t') :
    ∃ after, t' = k.update t after ∧ k.Seeds now codes (k.table t) rows after := by
  induction codes generalizing t rows with
  | nil =>
      rw [List.mapM_nil] at h
      obtain ⟨rfl, rfl⟩ := Work.ends_pure_ok.1 h
      exact ⟨k.table t', (k.update_table t').symm, k.seeds_nil _⟩
  | cons code codes ih =>
      rw [List.mapM_cons] at h
      obtain ⟨row, t₁, hfirst, h⟩ := Work.ends_bind_ok.1 h
      obtain ⟨rest, t₂, hrest, h⟩ := Work.ends_bind_ok.1 h
      obtain ⟨rfl, rfl⟩ := Work.ends_pure_ok.1 h
      obtain ⟨hcode, first, rfl, hensured⟩ :=
        (k.stored now).ends_resolve hfirst (k.codeOf_reference ▸ hkeyed)
      rw [k.codeOf_reference] at hcode
      have hkeyed₁ : (k.table (k.update t first)).Keyed k.codeOf := by
        rw [k.table_update]
        exact hensured.keyed hkeyed hcode
      obtain ⟨after, rfl, hseeds⟩ := ih hkeyed₁ hrest
      rw [k.table_update] at hseeds
      exact ⟨after, k.update_update .., hseeds.cons hensured⟩

/-! ## The catalog -/

/-- The codes of the catalog for a table, in its order. -/
def catalogCodes : ReferenceTable → List String
  | status => StatusCode.all.map StatusCode.text
  | type => TypeCode.all.map TypeCode.text
  | currency => KnownCurrency.all.map KnownCurrency.code

example : status.catalogCodes = ["PENDING", "COMPLETED", "FAILED", "CANCELLED", "REVERSED"] := rfl

/-- What seeding the catalog has done to a table. -/
structure Seeded (before : Table String k.Row) (rows : List k.Row) (after : Table String k.Row) :
    Prop where
  /-- Every code of the catalog has one row, and these are the rows in the order of the catalog. -/
  complete : (k.catalogCodes.map fun code => after.rows.filter fun row => k.codeOf row = code) =
    rows.map fun row => [row]
  /-- The rows that were there are as they were. -/
  kept {code : String} {row : k.Row} : before.find? code = some row → after.find? code = some row
  /-- The rows that are new are rows of the catalog for its codes. -/
  added {code : String} {row : k.Row} : before.find? code = none → after.find? code = some row →
    code ∈ k.catalogCodes ∧ k.Catalogued code row

variable {k}

theorem Seeds.seeded {rows : List k.Row} (h : k.Seeds now k.catalogCodes before rows after)
    (hkeyed : after.Keyed k.codeOf) (hkeys : after.keys.Nodup) : k.Seeded before rows after where
  complete := by
    have hfilter (code : String) : (after.rows.filter fun row => k.codeOf row = code) =
        (after.find? code).toList := Table.filter_rows hkeyed hkeys code
    have hlisted := congrArg (List.map Option.toList) h.listed
    rw [List.map_map, List.map_map] at hlisted
    simp only [hfilter]
    exact hlisted.symm
  kept := h.kept
  added hnone hnew := by
    obtain ⟨hmem, hrow⟩ := h.added hnone hnew
    exact ⟨hmem, k.catalogued_of_catalogRow hrow⟩

theorem Seeds.find?_of_mem {codes : List String} {rows : List k.Row}
    (h : k.Seeds now codes before rows after) {code : String} (hcode : code ∈ codes) :
    ∃ row, after.find? code = some row := by
  have hmem : after.find? code ∈ rows.map some := h.listed ▸ List.mem_map_of_mem hcode
  obtain ⟨row, -, hrow⟩ := List.mem_map.1 hmem
  exact ⟨row, hrow.symm⟩

/-- Whoever makes sure of the codes once more, when no row has changed since, finds them all. -/
theorem Seeds.again {codes : List String} {rows rows' : List k.Row}
    {later last : Table String k.Row} (h : k.Seeds now codes before rows after)
    (hgrown : ∀ {code row}, after.find? code = some row → later.find? code = some row)
    (h' : k.Seeds now codes later rows' last) : rows' = rows ∧ last = later := by
  have hfound : ∀ code ∈ codes, ∃ row, after.find? code = some row ∧
      later.find? code = some row := by
    intro code hcode
    obtain ⟨row, hrow⟩ := h.find?_of_mem hcode
    exact ⟨row, hrow, hgrown hrow⟩
  have hlast : last = later := by
    refine h'.idle fun code hcode => ?_
    obtain ⟨row, -, hrow⟩ := hfound code hcode
    rw [Table.contains, hrow]
    rfl
  have hrows : rows'.map some = rows.map some := by
    rw [h'.listed, h.listed, hlast]
    refine List.map_congr_left fun code hcode => ?_
    obtain ⟨row, hbefore, hafter⟩ := hfound code hcode
    rw [hbefore, hafter]
  exact ⟨List.map_injective_iff.2 (Option.some_injective _) hrows, hlast⟩

end ReferenceTable

/-- The rows that were seeded in a table. -/
def SeededCatalog.rows (seeded : SeededCatalog) : (k : ReferenceTable) → List k.Row
  | .status => seeded.statuses
  | .type => seeded.types
  | .currency => seeded.currencies

/-- Seeds are the same when they are in each of the tables. -/
theorem SeededCatalog.ext_rows {seeded seeded' : SeededCatalog}
    (h : ∀ k, seeded'.rows k = seeded.rows k) : seeded' = seeded := by
  obtain ⟨statuses, types, currencies⟩ := seeded
  obtain ⟨statuses', types', currencies'⟩ := seeded'
  obtain rfl : statuses' = statuses := h .status
  obtain rfl : types' = types := h .type
  obtain rfl : currencies' = currencies := h .currency
  rfl

/-- Accounts, transactions and entries are the same, and so are the numbers that come next. -/
structure Memory.Tables.SameLedger (t t' : Tables) : Prop where
  accounts : t'.accounts = t.accounts
  transactions : t'.transactions = t.transactions
  entries : t'.entries = t.entries
  lastAccount : t'.lastAccount = t.lastAccount
  lastTransaction : t'.lastTransaction = t.lastTransaction
  lastEntry : t'.lastEntry = t.lastEntry

variable {t t' : Tables} {now : Timestamp} {seeded : SeededCatalog}

/-- Tables that have the same reference rows as well are the same. -/
theorem Memory.Tables.SameLedger.eq (h : t.SameLedger t')
    (htables : ∀ k : ReferenceTable, k.table t' = k.table t) : t' = t := by
  obtain ⟨accounts, transactions, entries, statuses, types, currencies, _, _, _⟩ := t
  obtain ⟨accounts', transactions', entries', statuses', types', currencies', _, _, _⟩ := t'
  obtain ⟨rfl, rfl, rfl, rfl, rfl, rfl⟩ := h
  obtain rfl : statuses' = statuses := htables .status
  obtain rfl : types' = types := htables .type
  obtain rfl : currencies' = currencies := htables .currency
  rfl

/-- The catalog is seeded table by table. -/
theorem seedCatalog_eq : seedCatalog = (do
    let statuses ← ReferenceTable.status.catalogCodes.mapM Reference.statuses.resolve
    let types ← ReferenceTable.type.catalogCodes.mapM Reference.types.resolve
    let currencies ← ReferenceTable.currency.catalogCodes.mapM Reference.currencies.resolve
    pure { statuses, types, currencies }) := by
  simp only [ReferenceTable.catalogCodes, List.mapM_map]
  rfl

/-- Seeding makes sure of the codes of the catalog in each of the tables. -/
theorem ends_seedCatalog (ht : t.WellFormed)
    (h : seedCatalog.Ends (Answers now) t (.ok seeded) t') :
    (∀ k : ReferenceTable,
        k.Seeds now k.catalogCodes (k.table t) (seeded.rows k) (k.table t')) ∧
      t.SameLedger t' := by
  rw [seedCatalog_eq] at h
  obtain ⟨statuses, t₁, hstatuses, h⟩ := Work.ends_bind_ok.1 h
  obtain ⟨types, t₂, htypes, h⟩ := Work.ends_bind_ok.1 h
  obtain ⟨currencies, t₃, hcurrencies, h⟩ := Work.ends_bind_ok.1 h
  obtain ⟨rfl, rfl⟩ := Work.ends_pure_ok.1 h
  have ht₁ := ht.ends hstatuses
  have ht₂ := ht₁.ends htypes
  obtain ⟨_, rfl, hstatusRows⟩ :=
    ReferenceTable.status.seeds_of_ends ht.status_code hstatuses
  obtain ⟨_, rfl, htypeRows⟩ := ReferenceTable.type.seeds_of_ends ht₁.type_code htypes
  obtain ⟨_, rfl, hcurrencyRows⟩ :=
    ReferenceTable.currency.seeds_of_ends ht₂.currency_code hcurrencies
  refine ⟨fun k => ?_, rfl, rfl, rfl, rfl, rfl, rfl⟩
  cases k with
  | status => exact hstatusRows
  | type => exact htypeRows
  | currency => exact hcurrencyRows

/-! ## Where nothing disturbs -/

namespace ReferenceTable

variable (k : ReferenceTable) {p : Probes}

theorem yields_mapM_resolve {codes : List String} (ht : t.WellFormed) (hp : p.Calm)
    (hcodes : ∀ code ∈ codes, code ≠ "") :
    ∃ rows t' p', (codes.mapM k.reference.resolve).Yields ⟨t, p⟩ (.ok rows) ⟨t', p'⟩ ∧
      p'.Calm := by
  induction codes generalizing t p with
  | nil =>
      rw [List.mapM_nil]
      exact ⟨[], t, p, Work.yields_pure _, hp⟩
  | cons code codes ih =>
      obtain ⟨hcode, hcodes⟩ := List.forall_mem_cons.1 hcodes
      have hkeyed : (k.table t).Keyed k.reference.codeOf := k.codeOf_reference ▸ k.keyed_table ht
      obtain ⟨row, t₁, p₁, hfirst, hp₁⟩ := k.serves.yields_resolve code hcode hp hkeyed
      obtain ⟨rows, t', p', hrest, hp'⟩ := ih (ht.ends hfirst.ends) hp₁ hcodes
      rw [List.mapM_cons]
      exact ⟨row :: rows, t', p', hfirst.bind (hrest.bind (Work.yields_pure _)), hp'⟩

theorem catalogCodes_ne_empty : ∀ code ∈ k.catalogCodes, code ≠ "" := by
  cases k with
  | _ => decide

end ReferenceTable

/-- Where no fault is armed the catalog is seeded. -/
theorem yields_seedCatalog {p : Probes} (ht : t.WellFormed) (hp : p.Calm) :
    ∃ seeded t' p', seedCatalog.Yields ⟨t, p⟩ (.ok seeded) ⟨t', p'⟩ ∧ p'.Calm := by
  obtain ⟨statuses, t₁, p₁, h₁, hp₁⟩ := ReferenceTable.status.yields_mapM_resolve ht hp
    ReferenceTable.status.catalogCodes_ne_empty
  have ht₁ := ht.ends h₁.ends
  obtain ⟨types, t₂, p₂, h₂, hp₂⟩ := ReferenceTable.type.yields_mapM_resolve ht₁ hp₁
    ReferenceTable.type.catalogCodes_ne_empty
  have ht₂ := ht₁.ends h₂.ends
  obtain ⟨currencies, t₃, p₃, h₃, hp₃⟩ := ReferenceTable.currency.yields_mapM_resolve ht₂ hp₂
    ReferenceTable.currency.catalogCodes_ne_empty
  rw [seedCatalog_eq]
  exact ⟨_, t₃, p₃, h₁.bind (h₂.bind (h₃.bind (Work.yields_pure _))), hp₃⟩

end FundsTransfer
