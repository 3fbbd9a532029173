import FundsTransfer.Proofs.Backends.Queries

/-!
# Reference rows in two stores

`Hosted` says what a resolver needs of a table in a database, and `Shared` ties the table
there to the one in memory.  From both, `Shared.together_resolve` shows that a code is
resolved to the same row in both stores: the row is there in both, or it is missing in both
and both create it from the same catalog.

The three reference tables differ in their rows and in nothing that matters to a resolver.
Both stores have all three (`ReferenceTable.hosted`, `ReferenceTable.shared`), so
`Together.resolve` says it of each of them.

Resolving several codes, as a transfer and a seeding do, is one resolution after another.
-/

namespace FundsTransfer

open Memory Database Data

variable {ρ α β : Type} {R : Renaming} {k : Int → Nat} {t : Tables} {p : Probes} {s : Session}
  {errs : TransferError → TransferError → Prop}

namespace Reference

variable {r : Reference ρ} {table : Tables → Table String ρ}
  {update : Tables → Table String ρ → Tables} {catalog written : String → ρ → Prop}
  {rows : Data → List ρ} {setRows : Data → List ρ → Data} {read : ρ → ρ} {same : ρ → ρ → Prop}
  {code : String}

/-! ## In memory -/

/-- A code that is resolved in memory has a row, or gets one from the catalog. -/
theorem Serves.yields_ensured (hs : r.Serves table update)
    (hstored : r.Stored .epoch table update catalog) (hcode : code ≠ "") (hp : p.Calm)
    (hkeyed : (table t).Keyed r.codeOf) :
    ∃ row rows p', (r.resolve code).Yields ⟨t, p⟩ (.ok row) ⟨update t rows, p'⟩ ∧ p'.Calm ∧
      (table t).Ensured (catalog code) code rows row := by
  obtain ⟨row, t', p', hyields, hp'⟩ := hs.yields_resolve code hcode hp hkeyed
  obtain ⟨-, rows, rfl, hensured⟩ := hstored.ends_resolve hyields.ends hkeyed
  exact ⟨row, rows, p', hyields, hp', hensured⟩

/-! ## In a database -/

/-- A reference table of a database that nothing disturbs: rows are found, and rows that are missing
are written. -/
structure Hosted (r : Reference ρ) (rows : Data → List ρ) (setRows : Data → List ρ → Data)
    (read : ρ → ρ) (written : String → ρ → Prop) : Prop where
  fetch {s : Session} (hs : s.aborted = false) (code : String) :
    (r.fetch code).Reaches s (.ok (.ok (((rows s.data).find? (r.codeOf · == code)).map read)))
      ⟨setRows s.data (rows s.data), false, s.counters⟩
  create (code : String) : ∃ create row, r.create code = .ok create ∧ written code row ∧
    ∀ {s : Session}, s.aborted = false → (rows s.data).find? (r.codeOf · == code) = none →
      create.Reaches s (.ok (.ok (read row)))
        ⟨setRows s.data (rows s.data ++ [row]), false, s.counters⟩
  codeOf_read (row : ρ) : r.codeOf (read row) = r.codeOf row
  rows_setRows (d : Data) (l : List ρ) : rows (setRows d l) = l
  setRows_setRows (d : Data) (l l' : List ρ) : setRows (setRows d l) l' = setRows d l'

/-- What making sure of a code does to the rows of a reference table.  The row with the code was
there, or was added. -/
inductive Added (codeOf : ρ → String) (written : String → ρ → Prop) (code : String)
    (before after : List ρ) (row : ρ) : Prop where
  | found (hrow : before.find? (codeOf · == code) = some row) (hafter : after = before)
  | added (hnone : before.find? (codeOf · == code) = none) (hrow : written code row)
      (hafter : after = before ++ [row])

/-- A code that is resolved in a database has a row, or gets one. -/
theorem Hosted.reaches_resolve (hh : r.Hosted rows setRows read written) (hcode : code ≠ "")
    (hs : s.aborted = false) :
    ∃ row after, (r.resolve code).Reaches s (.ok (read row))
        ⟨setRows s.data after, false, s.counters⟩ ∧
      Added r.codeOf written code (rows s.data) after row := by
  have hfetch : (r.fetchOrFail code).Reaches s
      (.ok (((rows s.data).find? (r.codeOf · == code)).map read))
      ⟨setRows s.data (rows s.data), false, s.counters⟩ :=
    (hh.fetch hs code).bind (Work.reaches_pure _)
  unfold resolve
  rw [if_neg (by simpa using hcode)]
  cases hfind : (rows s.data).find? (r.codeOf · == code) with
  | some row =>
      rw [hfind] at hfetch
      have hrow : r.codeOf (read row) = code := by
        rw [hh.codeOf_read]
        simpa using List.find?_some hfind
      refine ⟨row, _, hfetch.bind ?_, .found hfind rfl⟩
      simp only [Option.map_some, hrow, if_true]
      exact Work.reaches_pure _
  | none =>
      rw [hfind] at hfetch
      obtain ⟨create, row, hcreate, hwritten, hreaches⟩ := hh.create code
      refine ⟨row, rows s.data ++ [row], hfetch.bind ?_, .added hfind hwritten rfl⟩
      have hnone : (rows (setRows s.data (rows s.data))).find? (r.codeOf · == code) = none := by
        rw [hh.rows_setRows, hfind]
      have hwrite := hreaches (s := ⟨setRows s.data (rows s.data), false, s.counters⟩) rfl hnone
      simp only [hh.rows_setRows, hh.setRows_setRows] at hwrite
      simp only [createOrRefetch, hcreate]
      exact hwrite.bind (Work.reaches_pure _)

/-! ## In both -/

/-- A reference table that both stores have. -/
structure Shared (r : Reference ρ) (table : Tables → Table String ρ)
    (update : Tables → Table String ρ → Tables) (rows : Data → List ρ)
    (setRows : Data → List ρ → Data) (same : ρ → ρ → Prop) : Prop where
  keyed {t : Tables} : t.WellFormed → (table t).Keyed r.codeOf
  mirrors {R : Renaming} {t : Tables} {d : Data} : Agree R t d →
    (table t).Mirrors (rows d) r.codeOf Eq same
  replace {R : Renaming} {k : Int → Nat} {t : Tables} {s : Session} {entries : Table String ρ}
      {l : List ρ} : Abreast R k t s → (update t entries).Intact →
    entries.Mirrors l r.codeOf Eq same →
    Abreast R k (update t entries) ⟨setRows s.data l, false, s.counters⟩

/-- A row that is there in one store is there in the other, and one that is missing in both is
written from the same catalog. -/
theorem alike_of_added {codeOf : ρ → String} {stored entries : Table String ρ}
    {before after : List ρ} {row row' : ρ} (hmirrors : stored.Mirrors before codeOf Eq same)
    (hcatalog : ∀ {row row'}, catalog code row → written code row' →
      same row row' ∧ codeOf row' = code)
    (hensured : stored.Ensured (catalog code) code entries row)
    (hadded : Added codeOf written code before after row') :
    same row row' ∧ entries.Mirrors after codeOf Eq same := by
  cases hensured with
  | found hrow hentries =>
      obtain ⟨row₁, hfind, hsame⟩ := hmirrors.find?_of_some Table.biUnique_eq rfl hrow
      cases hadded with
      | found hrow' hafter =>
          rw [hfind] at hrow'
          cases hrow'
          exact ⟨hsame, hentries ▸ hafter ▸ hmirrors⟩
      | added hnone _ _ =>
          rw [hfind] at hnone
          cases hnone
  | written hnone hrow hentries =>
      have hfind := hmirrors.find?_of_none Table.biUnique_eq rfl hnone
      cases hadded with
      | found hrow' _ =>
          rw [hfind] at hrow'
          cases hrow'
      | added _ hrow' hafter =>
          obtain ⟨hsame, hkey⟩ := hcatalog hrow hrow'
          exact ⟨hsame, hentries ▸ hafter ▸
            hmirrors.put_new Table.biUnique_eq hsame hkey.symm hnone⟩

/-- A code is resolved in both stores, to the same row. -/
theorem Shared.together_resolve (hshared : r.Shared table update rows setRows same)
    (hs : r.Serves table update) (hstored : r.Stored .epoch table update catalog)
    (hh : r.Hosted rows setRows read written)
    (hcatalog : ∀ {code row row'}, catalog code row → written code row' →
      same row row' ∧ r.codeOf row' = code)
    (hread : ∀ {row row'}, same row row' → same row (read row')) (code : String)
    (h : Abreast R k t s) (hp : p.Calm)
    (herrs : code = "" → errs .emptyReferenceCode .emptyReferenceCode) :
    Together (r.resolve code) (r.resolve code) t p s
      (fun row row' t' s' => same row row' ∧ Abreast R k t' s') errs := by
  by_cases hcode : code = ""
  · subst hcode
    exact .stops ⟨rfl, rfl⟩ hp ⟨rfl, rfl⟩ (herrs rfl)
  have hkeyed := hshared.keyed h.intact.toWellFormed
  obtain ⟨row, entries, p', hyields, hp', hensured⟩ := hs.yields_ensured hstored hcode hp hkeyed
  obtain ⟨row', after, hreaches, hadded⟩ := hh.reaches_resolve hcode h.live
  obtain ⟨hrow, hentries⟩ :=
    alike_of_added (hshared.mirrors h.toAgree) hcatalog hensured hadded
  exact .goes hyields hp' hreaches
    ⟨hread hrow, hshared.replace h (h.intact.ends hyields.ends) hentries⟩

/-! ## The three tables -/

/-- A row that is missing is inserted and returned. -/
theorem runCreateReference_new {stored : Option (List ρ)} {codeOf : ρ → String} {row : ρ}
    (h : (rowsOf stored).find? (codeOf · == codeOf row) = none) :
    runCreateReference false stored codeOf row = ([row], some (rowsOf stored ++ [row])) := by
  have hany : (rowsOf stored).any (codeOf · == codeOf row) = false :=
    List.any_eq_false.2 (List.find?_eq_none.1 h)
  rw [runCreateReference, hany]
  rfl

/-- The row of a currency in a database. -/
def currencyRow (new : NewCurrency) : Currency :=
  ⟨new.code, new.name, new.symbol, true, Database.crossing new.exchangeRate, .epoch⟩

theorem readCurrency_currencyRow (new : NewCurrency) :
    readCurrency (currencyRow new) = currencyRow new := by
  rw [readCurrency, currencyRow, crossing_crossing]

end Reference

namespace ReferenceTable

/-- The table among those of a database, once a statement has touched it. -/
def storedIn : (k : ReferenceTable) → Data → Option (List k.Row)
  | status => Data.statuses
  | type => Data.types
  | currency => Data.currencies

/-- The rows of the table in a database. -/
def rowsIn (k : ReferenceTable) (d : Data) : List k.Row := rowsOf (k.storedIn d)

/-- The data with other rows in this table. -/
def setRowsIn : (k : ReferenceTable) → Data → List k.Row → Data
  | status, d, rows => { d with statuses := some rows }
  | type, d, rows => { d with types := some rows }
  | currency, d, rows => { d with currencies := some rows }

/-- A row as it is read from a database. -/
def readRow : (k : ReferenceTable) → k.Row → k.Row
  | status => id
  | type => id
  | currency => readCurrency

/-- The row that is written to a database for a code. -/
def hostedRow (code : String) : (k : ReferenceTable) → k.Row
  | status => Reference.catalogStatus code
  | type => Reference.catalogType code
  | currency => Reference.currencyRow (catalogCurrency code)

/-- The same row in two stores. -/
def Same : (k : ReferenceTable) → k.Row → k.Row → Prop
  | status => Eq
  | type => Eq
  | currency => Currency.Alike

variable (k : ReferenceTable)

theorem codeOf_hostedRow (code : String) : k.codeOf (k.hostedRow code) = code := by
  cases k with
  | currency => exact code_catalogCurrency code
  | _ => rfl

theorem codeOf_readRow (row : k.Row) : k.codeOf (k.readRow row) = k.codeOf row := by
  cases k with
  | _ => rfl

theorem readRow_hostedRow (code : String) : k.readRow (k.hostedRow code) = k.hostedRow code := by
  cases k with
  | currency => exact Reference.readCurrency_currencyRow _
  | _ => rfl

/-- A database that nothing disturbs hosts every table. -/
theorem hosted : k.reference.Hosted k.rowsIn k.setRowsIn k.readRow
    (fun code row => row = k.hostedRow code) where
  fetch {s} hs code := by
    cases k with
    | _ =>
        refine Work.reaches_ask ?_
        rw [Session.ask_of_live hs]
        simp only [runQuery, Database.answer, firstRow, List.head?_map, List.head?_filter, readRow,
          Option.map_id]
        rfl
  create code := by
    refine ⟨_, k.hostedRow code, k.create_reference code, rfl, fun {s} hs hnone => ?_⟩
    rw [k.codeOf_reference, ← k.codeOf_hostedRow code] at hnone
    have hrun := Reference.runCreateReference_new hnone
    rw [k.readRow_hostedRow]
    cases k with
    | _ =>
        refine Work.reaches_ask ?_
        rw [Session.ask_of_live hs]
        simp only [storedIn, codeOf, hostedRow, Reference.catalogStatus, Reference.catalogType,
          Reference.currencyRow] at hrun
        dsimp only [create, runQuery]
        rw [hrun]
        rfl
  codeOf_read := by
    rw [k.codeOf_reference]
    exact k.codeOf_readRow
  rows_setRows d l := by
    cases k with
    | _ => rfl
  setRows_setRows d l l' := by
    cases k with
    | _ => rfl

/-- Both stores have the table. -/
theorem shared : k.reference.Shared k.table k.update k.rowsIn k.setRowsIn k.Same where
  keyed ht := by
    rw [k.codeOf_reference]
    exact k.keyed_table ht
  mirrors h := by
    cases k with
    | status => exact h.statuses
    | type => exact h.types
    | currency => exact h.currencies
  replace h hintact hentries := by
    cases k with
    | status => exact { h with statuses := hentries, intact := hintact, live := rfl }
    | type => exact { h with types := hentries, intact := hintact, live := rfl }
    | currency => exact { h with currencies := hentries, intact := hintact, live := rfl }

variable {k}

/-- What the catalog has for a code is written alike to both stores. -/
theorem same_hostedRow {code : String} {row : k.Row} (h : k.CatalogRow .epoch code row) :
    k.Same row (k.hostedRow code) := by
  cases k with
  | status => exact h
  | type => exact h
  | currency =>
      obtain ⟨new, hnew, rfl⟩ := h
      have hcatalog : catalogCurrency code = new := by
        rw [catalogCurrency, hnew]
        rfl
      simp only [hostedRow, hcatalog]
      exact ⟨(Reference.code_of_newCurrency hnew).symm, rfl, rfl, rfl, (toRat_crossing _).symm⟩

theorem Same.readRow {row row' : k.Row} (h : k.Same row row') : k.Same row (k.readRow row') := by
  cases k with
  | currency => exact Currency.Alike.read h
  | _ => exact h

end ReferenceTable

/-- A code of any table is resolved in both stores, to the same row. -/
theorem Together.resolve (table : ReferenceTable) (code : String) (h : Abreast R k t s)
    (hp : p.Calm) (herrs : code = "" → errs .emptyReferenceCode .emptyReferenceCode) :
    Together (table.reference.resolve code) (table.reference.resolve code) t p s
      (fun row row' t' s' => table.Same row row' ∧ Abreast R k t' s') errs := by
  refine table.shared.together_resolve table.serves (table.stored .epoch) table.hosted ?_
    ReferenceTable.Same.readRow code h hp herrs
  rintro code row _ hrow rfl
  refine ⟨ReferenceTable.same_hostedRow hrow, ?_⟩
  rw [table.codeOf_reference, table.codeOf_hostedRow]

/-! ## Several codes -/

/-- The same reference rows of a transfer. -/
structure TransferReferences.Alike (refs refs' : TransferReferences) : Prop where
  pending : refs.pending = refs'.pending
  completed : refs.completed = refs'.completed
  transferType : refs.transferType = refs'.transferType
  currency : refs.currency.Alike refs'.currency

theorem Together.transferReferences {currency : String} (hcurrency : currency ≠ "")
    (h : Abreast R k t s) (hp : p.Calm) :
    Together (transferReferences currency) (transferReferences currency) t p s
      (fun refs refs' t' s' => refs.Alike refs' ∧ Abreast R k t' s') errs := by
  unfold FundsTransfer.transferReferences
  refine (Together.resolve .type _ h hp (fun h => absurd h (by decide))).bind
    fun {transferType transferType' _ _ _} _ hp ⟨htype, h⟩ => ?_
  refine (Together.resolve .status _ h hp (fun h => absurd h (by decide))).bind
    fun {pending pending' _ _ _} _ hp ⟨hpending, h⟩ => ?_
  refine (Together.resolve .status _ h hp (fun h => absurd h (by decide))).bind
    fun {completed completed' _ _ _} _ hp ⟨hcompleted, h⟩ => ?_
  refine (Together.resolve .currency _ h hp (fun h => absurd h hcurrency)).bind
    fun {row row' _ _ _} _ hp ⟨hrow, h⟩ => ?_
  exact .pure hp ⟨⟨hpending, hcompleted, htype, hrow⟩, h⟩

/-- What both stores do alike for each member of a list, they do alike for all. -/
theorem Together.mapM {γ : Type} {f : γ → Work α} {f' : γ → Work β} {rel : α → β → Prop}
    (hf : ∀ (c : γ) {t p s}, Abreast R k t s → p.Calm →
      Together (f c) (f' c) t p s (fun a b t' s' => rel a b ∧ Abreast R k t' s') errs)
    (cs : List γ) (h : Abreast R k t s) (hp : p.Calm) :
    Together (cs.mapM f) (cs.mapM f') t p s
      (fun as bs t' s' => List.Forall₂ rel as bs ∧ Abreast R k t' s') errs := by
  induction cs generalizing t p s with
  | nil =>
      rw [List.mapM_nil, List.mapM_nil]
      exact .pure hp ⟨.nil, h⟩
  | cons c rest ih =>
      rw [List.mapM_cons, List.mapM_cons]
      refine (hf c h hp).bind fun {a b _ _ _} _ hp ⟨hab, h⟩ => ?_
      refine (ih h hp).bind fun {as bs _ _ _} _ hp ⟨hall, h⟩ => ?_
      exact .pure hp ⟨.cons hab hall, h⟩

/-- The catalog is seeded in both stores. -/
theorem Together.seedCatalog (h : Abreast R k t s) (hp : p.Calm)
    (herrs : ∀ e, errs e e) :
    Together seedCatalog seedCatalog t p s
      (fun rows rows' t' s' => rows.Alike rows' ∧ Abreast R k t' s') errs := by
  unfold FundsTransfer.seedCatalog
  refine (Together.mapM (fun code _ _ _ h hp =>
    Together.resolve .status code.text h hp fun _ => herrs _) _ h hp).bind
    fun {statuses statuses' _ _ _} _ hp ⟨hstatuses, h⟩ => ?_
  refine (Together.mapM (fun code _ _ _ h hp =>
    Together.resolve .type code.text h hp fun _ => herrs _) _ h hp).bind
    fun {types types' _ _ _} _ hp ⟨htypes, h⟩ => ?_
  refine (Together.mapM (fun known _ _ _ h hp =>
    Together.resolve .currency known.code h hp fun _ => herrs _) _ h hp).bind
    fun {currencies currencies' _ _ _} _ hp ⟨hcurrencies, h⟩ => ?_
  exact .pure hp ⟨⟨List.forall₂_eq_eq_eq ▸ hstatuses, List.forall₂_eq_eq_eq ▸ htypes,
    hcurrencies⟩, h⟩

end FundsTransfer
