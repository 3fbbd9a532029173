import FundsTransfer.Proofs.Memory.Attaining
import FundsTransfer.Proofs.Memory.Intact
import FundsTransfer.Proofs.Transfer.Script

/-!
# Making sure of a reference row

Where no fault is armed for the insertion of reference rows, every code but the empty one
is resolved, whatever the tables and the races that are pending.  `Resolved` says what has
become of the tables then.  The code has one row, which is the one that was there or else
one from the catalog, and every other row is as it was.

A race that is lost is no exception.  The store leaves the row of the winner behind, and
it is the row that would have been written, so it is there to be read back.  Resolving the
code once more finds this row and does nothing to the store.
-/

namespace FundsTransfer

open Memory

/-! ## Questions to the store in memory -/

namespace Question

variable {α : Type}

theorem attains_ask {q : Question α} {P : Outcome (Except StoreError α) → Working → Prop}
    {s : Working}
    (h : ∀ now, ∃ r s', (q.perform now).run s = (r.mapError .refused, s') ∧ P (.ok r) s') :
    q.ask.Attains P s := by
  obtain ⟨q, rfl⟩ := q
  exact Work.attains_ask h

end Question

/-! ## Tables and catalog -/

namespace ReferenceTable

/-- What the catalog has for a code: a row in use with the data of the code, if it is known, and
with placeholders otherwise. -/
def Catalogued (code : String) : (k : ReferenceTable) → k.Row → Prop
  | status, row => row.code = code ∧ row.isActive = true ∧
      (∀ known : StatusCode, known.text = code → row.description = known.description) ∧
      ((∀ known : StatusCode, known.text ≠ code) → row.description = "Unknown transaction status")
  | type, row => row.code = code ∧ row.isActive = true ∧
      (∀ known : TypeCode, known.text = code → row.description = known.description) ∧
      ((∀ known : TypeCode, known.text ≠ code) → row.description = "Unknown transaction type")
  | currency, row => row.code = code ∧ row.isActive = true ∧
      (∀ known ∈ KnownCurrency.all, known.code = code → row.name = known.name ∧
        row.symbol = some known.symbol ∧ exchangeRate known.rate = .ok row.exchangeRate) ∧
      ((∀ known ∈ KnownCurrency.all, known.code ≠ code) → row.name = "Unknown Currency" ∧
        row.symbol = none ∧ exchangeRate .one = .ok row.exchangeRate)

variable (k : ReferenceTable) {code : String} {t t' : Tables} {p : Probes}

theorem nodup_keys_table (ht : t.Intact) : (k.table t).keys.Nodup := by
  cases k with
  | status => exact ht.status_codes
  | type => exact ht.type_codes
  | currency => exact ht.currency_codes

/-! ## The catalog -/

theorem catalogued_status (code : String) :
    status.Catalogued code (Reference.catalogStatus code) := by
  refine ⟨rfl, rfl, ?_, fun hunknown => ?_⟩
  · rintro known rfl
    cases known with
    | _ => rfl
  · have hnone : StatusCode.ofText? code = none :=
      List.find?_eq_none.2 fun known _ => by simpa using hunknown known
    show statusDescription code = _
    rw [statusDescription, hnone]

theorem catalogued_type (code : String) : type.Catalogued code (Reference.catalogType code) := by
  refine ⟨rfl, rfl, ?_, fun hunknown => ?_⟩
  · rintro known rfl
    cases known with
    | _ => rfl
  · have hnone : TypeCode.ofText? code = none :=
      List.find?_eq_none.2 fun known _ => by simpa using hunknown known
    show typeDescription code = _
    rw [typeDescription, hnone]

/-- No two currencies of the catalog have one code. -/
theorem ofCode?_of_mem {known : KnownCurrency} (h : known ∈ KnownCurrency.all) :
    KnownCurrency.ofCode? known.code = some known := by
  simp only [KnownCurrency.all, List.mem_cons, List.not_mem_nil, or_false] at h
  obtain rfl | rfl | rfl | rfl := h <;> rfl

theorem catalogued_currency {now : Timestamp} {row : Currency}
    (h : Reference.CatalogCurrency now code row) : currency.Catalogued code row := by
  obtain ⟨new, hnew, rfl⟩ := h
  refine ⟨rfl, rfl, ?_, fun hunknown => ?_⟩
  · rintro known hknown rfl
    rw [newCurrency, ofCode?_of_mem hknown] at hnew
    obtain ⟨rate, hrate, rfl⟩ := Reference.ok_of_map hnew
    exact ⟨rfl, rfl, hrate⟩
  · have hnone : KnownCurrency.ofCode? code = none :=
      List.find?_eq_none.2 fun known hknown => by simpa using hunknown known hknown
    rw [newCurrency, hnone] at hnew
    obtain ⟨rate, hrate, rfl⟩ := Reference.ok_of_map hnew
    exact ⟨rfl, rfl, hrate⟩

theorem catalogued_of_catalogRow {now : Timestamp} {row : k.Row} (h : k.CatalogRow now code row) :
    k.Catalogued code row := by
  cases k with
  | status =>
      obtain rfl : row = Reference.catalogStatus code := h
      exact catalogued_status code
  | type =>
      obtain rfl : row = Reference.catalogType code := h
      exact catalogued_type code
  | currency => exact catalogued_currency h

/-- The catalog has one row for a code. -/
theorem catalogRow_unique {now : Timestamp} {row row' : k.Row} (h : k.CatalogRow now code row)
    (h' : k.CatalogRow now code row') : row = row' := by
  cases k with
  | status => exact Eq.trans h (Eq.symm h')
  | type => exact Eq.trans h (Eq.symm h')
  | currency =>
      obtain ⟨new, hnew, rfl⟩ := h
      obtain ⟨new', hnew', rfl⟩ := h'
      cases hnew.symm.trans hnew'
      rfl

theorem code_of_catalogued {row : k.Row} (h : k.Catalogued code row) : k.codeOf row = code := by
  cases k with
  | status => exact h.1
  | type => exact h.1
  | currency => exact h.1

/-! ## Resolving a code -/

/-- What a code that was resolved has done to the tables. -/
structure Resolved (code : String) (t : Tables) (row : k.Row) (t' : Tables) : Prop where
  /-- The row is there. -/
  stored : (k.table t').find? code = some row
  /-- It has the code. -/
  code_eq : k.codeOf row = code
  /-- It is the only row with the code. -/
  only : ((k.table t').rows.filter fun other => k.codeOf other = code) = [row]
  /-- A row that was there is the one, whatever it says, and nothing has changed. -/
  found {old : k.Row} : (k.table t).find? code = some old → row = old ∧ t' = t
  /-- A new row comes from the catalog. -/
  written : (k.table t).find? code = none → k.Catalogued code row
  /-- The other rows of the table are as they were. -/
  others {other : String} : other ≠ code → (k.table t').find? other = (k.table t).find? other
  /-- The other tables are as they were. -/
  elsewhere : t' = k.update t (k.table t')

theorem Resolved.of_found {row : k.Row} (ht : t.Intact)
    (hrow : (k.table t).find? code = some row) : k.Resolved code t row t where
  stored := hrow
  code_eq := k.keyed_table ht.toWellFormed code row hrow
  only := by
    rw [Table.filter_rows (k.keyed_table ht.toWellFormed) (k.nodup_keys_table ht), hrow]
    rfl
  found hold := ⟨Option.some.inj (hrow.symm.trans hold), rfl⟩
  written hnone := by
    rw [hrow] at hnone
    cases hnone
  others _ := rfl
  elsewhere := (k.update_table t).symm

theorem Resolved.of_written {row : k.Row} (ht : t.Intact)
    (hnone : (k.table t).find? code = none) (hrow : k.Catalogued code row)
    (hcode : k.codeOf row = code) :
    k.Resolved code t row (k.update t ((k.table t).put code row)) where
  stored := by rw [k.table_update, Table.find?_put_self]
  code_eq := hcode
  only := by
    have hkeys := Table.nodup_keys_put (k.nodup_keys_table ht) (Table.contains_eq_false.2 hnone) row
    rw [k.table_update, Table.filter_rows ((k.keyed_table ht.toWellFormed).put hcode) hkeys,
      Table.find?_put_self]
    rfl
  found hold := by
    rw [hnone] at hold
    cases hold
  written _ := hrow
  others hother := by rw [k.table_update, Table.find?_put, if_neg hother]
  elsewhere := by rw [k.table_update]

/-- Reading finds what is there. -/
theorem attains_fetchOrFail {P : Outcome (Option k.Row) → Working → Prop} {s : Working}
    (h : P (.ok ((k.table s.tables).find? code)) s) :
    (k.reference.fetchOrFail code).Attains P s := by
  unfold Reference.fetchOrFail
  rw [k.fetch_reference, Work.attains_bind]
  refine Question.attains_ask fun now => ⟨.ok ((k.table s.tables).find? code), s, ?_, h⟩
  rw [k.perform_fetch]
  rfl

/-- A row of the catalog was written for a code. -/
def Wrote (code : String) (t : Tables) (row : k.Row) (s : Working) : Prop :=
  k.Catalogued code row ∧ s.tables = k.update t ((k.table t).put code row)

/-- A row that is missing is written, and whoever loses a race is told that it exists. -/
theorem attains_create (hp : p.countdown .createReference = 0)
    (hnone : (k.table t).find? code = none) :
    (k.create code).ask.Attains (fun o s => ∃ row answer, o = .ok answer ∧
      k.Wrote code t row s ∧
        (answer = .ok row ∨ ∃ e, answer = .error e ∧ e.isUniqueViolation = true)) ⟨t, p⟩ := by
  refine Question.attains_ask fun now => ?_
  obtain ⟨label, row, hrow, hcreate⟩ := k.perform_create now code
  obtain ⟨answer, hrun, hanswer⟩ := Reference.answer_of_createReference (Probes.trip_of_zero hp)
    k.table k.update label code row (Table.contains_eq_false.2 hnone)
  exact ⟨answer, _, hcreate ▸ hrun, row, answer, rfl, ⟨k.catalogued_of_catalogRow hrow, rfl⟩,
    hanswer⟩

theorem attains_createOrRefetch (hp : p.countdown .createReference = 0)
    (hnone : (k.table t).find? code = none) :
    (k.reference.createOrRefetch code).Attains
      (fun o s => ∃ row, o = .ok row ∧ k.Wrote code t row s) ⟨t, p⟩ := by
  unfold Reference.createOrRefetch
  rw [k.create_reference, Work.attains_bind]
  show ((k.create code).ask >>= _).Attains _ _
  rw [Work.attains_bind]
  refine (k.attains_create hp hnone).mono ?_
  rintro _ s ⟨row, _, rfl, hwrote, rfl | ⟨e, rfl, hunique⟩⟩
  · exact ⟨row, rfl, hwrote⟩
  · -- the race was lost to a writer of the same row, which is there now
    simp only [Work.Onward, hunique, if_true, Work.attains_log]
    unfold Reference.refetch
    rw [Work.attains_bind]
    refine k.attains_fetchOrFail ?_
    rw [hwrote.2, k.table_update, Table.find?_put_self]
    exact ⟨row, rfl, hwrote⟩

/-- A row that is there is the one, and nothing is done to the store. -/
theorem attains_resolve_found {s : Working} {row : k.Row} (hcode : code ≠ "")
    (hrow : (k.table s.tables).find? code = some row) (heq : k.codeOf row = code) :
    (k.reference.resolve code).Attains (fun o s' => o = .ok row ∧ s' = s) s := by
  unfold Reference.resolve
  rw [if_neg (by simpa using hcode), Work.attains_bind]
  refine k.attains_fetchOrFail ?_
  rw [hrow]
  simp only [Work.Onward, k.codeOf_reference, heq, if_true, Work.attains_pure, and_self]

/-- Every code but the empty one is resolved. -/
theorem attains_resolve (ht : t.Intact) (hp : p.countdown .createReference = 0)
    (hcode : code ≠ "") :
    (k.reference.resolve code).Attains
      (fun o s => ∃ row, o = .ok row ∧ k.Resolved code t row s.tables) ⟨t, p⟩ := by
  cases hfound : (k.table t).find? code with
  | some row =>
      have heq := k.keyed_table ht.toWellFormed code row hfound
      refine (k.attains_resolve_found hcode hfound heq).mono ?_
      rintro _ _ ⟨rfl, rfl⟩
      exact ⟨row, rfl, .of_found k ht hfound⟩
  | none =>
      unfold Reference.resolve
      rw [if_neg (by simpa using hcode), Work.attains_bind]
      refine k.attains_fetchOrFail ?_
      rw [hfound]
      refine (k.attains_createOrRefetch hp hfound).mono ?_
      rintro _ s ⟨row, rfl, hrow, htables⟩
      rw [htables]
      exact ⟨row, rfl, .of_written k ht hfound hrow (k.code_of_catalogued hrow)⟩

end ReferenceTable

end FundsTransfer
