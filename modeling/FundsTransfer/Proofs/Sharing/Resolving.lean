import FundsTransfer.Proofs.Sharing.Once
import FundsTransfer.Proofs.Transfer.Ensuring

/-!
# Callers that resolve one code

Any number of callers make sure of one code in a store that they share with others, each in
a unit of work of its own.  Whatever the order of their acts and whatever is armed, the row
that a caller gets is the only one with the code, so all who succeed get the same row.

A caller reads its row in its copy of the tables, or writes it there.  The row is committed
with the copy, and no row of a reference table ever changes or goes away.  `Kept` is this
argument for a value of any kind that goes with the tables and is not lost when they grow.
-/

namespace FundsTransfer

open Memory

/-- The executor does everything in one unit of work. -/
theorem Job.transacts_execute {σ α : Type} {A : Answering σ} {I : σ → Prop}
    {post : σ → σ → α → Prop} {limit : Option Duration} {work : Work α}
    (hok : ∀ c, I c → ∀ a t, work.Ends A c (.ok a) t → post c t a) :
    (execute limit work).Transacts A I post none := by
  rw [← andThen_conclude (execute limit work)]
  exact transacts_execute_andThen (fun c hc a t hends => ⟨a, rfl, hok c hc a t hends⟩)
    fun e => rfl

/-! ## Values that go with the tables -/

namespace Sharing

variable {ι β : Type} {R : Tables → β → Prop} {c c' : Tables}

/-- A task that does everything in one unit of work, and whose value goes with what is committed
once it has one. -/
inductive Kept (R : Tables → β → Prop) (c : Tables) : Task β → Prop where
  | going (htask : Transacting (fun _ => R) c task) : Kept R c task
  | returned (hjob : job.Returns r) (hvalue : ∀ a, r = .ok a → R c a) :
      Kept R c ⟨.ready job, none⟩
  | gone : Kept R c ⟨.gone, none⟩

/-- A task that has nothing to do but to return a value, and the value. -/
def Task.Obtains (task : Task β) (a : β) : Prop :=
  ∃ job, task = ⟨.ready job, none⟩ ∧ job.Returns (.ok a)

/-- The value of a task that has nothing left to do at all. -/
def Task.value? : Task β → Option β
  | ⟨.ready (.done (.ok a)), none⟩ => some a
  | _ => none

theorem Task.obtains_of_value? {task : Task β} {a : β} (h : task.value? = some a) :
    task.Obtains a := by
  unfold value? at h
  split at h
  · cases h
    exact ⟨_, rfl, rfl⟩
  · cases h

/-- A value that a task has got goes with what is committed. -/
theorem Kept.obtains {task : Task β} {a : β} (h : Kept R c task) (ha : task.Obtains a) :
    R c a := by
  obtain ⟨job, rfl, hreturns⟩ := ha
  cases h with
  | going htask =>
      cases htask with
      | closed hjob => exact absurd hreturns hjob.not_returns_ok
  | returned hjob hvalue => exact hvalue a (hjob.unique hreturns)

/-- What others commit keeps the values that go with the tables. -/
theorem Kept.other {task : Task β} (h : Kept R c task) (hc : c' = c ∨ task.unit = none)
    (hR : ∀ a, R c a → R c' a) : Kept R c' task := by
  cases h with
  | going htask =>
      cases htask with
      | closed hjob => exact .going (.closed hjob)
      | waiting hjob => exact .going (.waiting hjob)
      | opened hjob =>
          obtain rfl | hunit := hc
          · exact .going (.opened hjob)
          · cases hunit
  | returned hjob hvalue => exact .returned hjob fun a ha => hR a (hvalue a ha)
  | gone => exact .gone

variable [DecidableEq ι]

theorem Kept.act {i : ι} {s s' : Store ι} {task task' : Task β} {e : Event}
    (hk : Kept R s.tables task) (hs : s.tables.Intact) (hunit : ∀ t ∈ task.unit, t.Intact)
    (h : Act i s task e s' task') : Kept R s'.tables task' := by
  cases hk with
  | going htask =>
      cases htask.act hs hunit h with
      | going _ _ htask' => exact .going htask'
      | failed _ _ hjob => exact .returned hjob nofun
      | gone => exact .gone
      | published _ hpost hjob => exact .returned hjob fun a ha => Except.ok.inj ha ▸ hpost
  | returned hjob hvalue =>
      obtain ⟨-, htables, ⟨job', rfl, hjob'⟩ | rfl⟩ := h.returned hjob
      · exact .returned hjob' (htables ▸ hvalue)
      · exact .gone
  | gone =>
      cases h
      exact .gone

/-- All along a history, the value of a task goes with what is committed. -/
theorem History.kept {α : ι → Type} {s₀ s : System ι α} {es : Trace ι} {j : ι}
    {R : Tables → α j → Prop} (h : History s₀ es s) (hs : s₀.Sound)
    (hR : ∀ {t t' : Tables}, t.Grows t' → ∀ a, R t a → R t' a)
    (hstart : Kept R s₀.store.tables (s₀.task j)) : Kept R s.store.tables (s.task j) := by
  refine (h.preserves (I := fun _ s => s.Sound ∧ Kept R s.store.tables (s.task j))
    (fun {es s i e store task} hact hI => ?_) (fun hI => ⟨{ hI.1 with }, hI.2⟩) ⟨hs, hstart⟩).2
  obtain ⟨hsound, hkept⟩ := hI
  obtain ⟨hsound', hgrows⟩ := hsound.act hact
  refine ⟨hsound', ?_⟩
  by_cases hji : j = i
  · subst hji
    rw [System.task_update_self]
    exact hkept.act hsound.tables (fun t ht => (hsound.unit j t ht).1) hact
  · rw [System.task_update_of_ne hji]
    exact hkept.other (hsound.exclusive.others hact hji) (hR hgrows)

end Sharing

/-! ## Reference rows -/

theorem Question.ends_of_answered {α : Type} {q : Question α} {a : Except StoreError α}
    {t t' : Tables} (h : q.ask.Ends Answered t (.ok a) t') :
    ∃ now, q.ask.Ends (Answers now) t (.ok a) t' := by
  obtain ⟨q, rfl⟩ := q
  obtain ⟨-, now, hanswers⟩ := Work.ends_ask_ok.1 h
  exact ⟨now, Work.ends_ask_ok.2 hanswers⟩

namespace ReferenceTable

variable (k : ReferenceTable) {code : String} {t t' : Tables} {row : k.Row}

/-- A caller that makes sure of a code in a unit of work of its own. -/
def resolver (c : Coordinator) (code : String) : (k : ReferenceTable) → Job k.Row
  | status => c.resolveStatus code
  | type => c.resolveType code
  | currency => c.resolveCurrency code

theorem resolver_eq (c : Coordinator) (code : String) :
    k.resolver c code = Job.execute c.timeout (k.reference.resolve code) := by
  cases k with
  | status => rfl
  | type => rfl
  | currency => rfl

/-- A row that is there stays there. -/
theorem find?_of_grows (hgrows : t.Grows t') (hrow : (k.table t).find? code = some row) :
    (k.table t').find? code = some row := by
  have hpersists : (k.table t).Persists Eq (k.table t') := by
    cases k with
    | status => exact hgrows.statuses
    | type => exact hgrows.types
    | currency => exact hgrows.currencies
  obtain ⟨row', hrow', rfl⟩ := hpersists code row hrow
  exact hrow'

theorem find?_of_fetchOrFail {found : Option k.Row}
    (h : (k.reference.fetchOrFail code).Ends Answered t (.ok found) t') :
    (k.table t').find? code = found := by
  obtain ⟨answer, t₁, hfetch, h⟩ := Work.ends_bind_ok.1 h
  cases answer with
  | ok row =>
      obtain ⟨rfl, rfl⟩ := Work.ends_pure_ok.1 h
      rw [k.fetch_reference] at hfetch
      obtain ⟨now, hnow⟩ := Question.ends_of_answered hfetch
      obtain ⟨hfound, rfl⟩ := (k.stored now).fetch (k.fetch_reference code ▸ hnow)
      exact hfound.symm
  | error e => exact absurd h.1 nofun

/-- A row that was written is there, and so is one that was read back. -/
theorem find?_of_createOrRefetch
    (h : (k.reference.createOrRefetch code).Ends Answered t (.ok row) t') :
    (k.table t').find? code = some row := by
  obtain ⟨create, t₁, hcreate, hrest⟩ := Work.ends_bind_ok.1 h
  rw [k.create_reference] at hcreate
  obtain ⟨rfl, rfl⟩ := Work.ends_pure_ok.1 hcreate
  obtain ⟨answer, t₂, hwrite, hend⟩ := Work.ends_bind_ok.1 hrest
  cases answer with
  | ok row' =>
      obtain ⟨rfl, rfl⟩ := Work.ends_pure_ok.1 (Work.ends_log.1 hend)
      obtain ⟨now, hnow⟩ := Question.ends_of_answered hwrite
      obtain ⟨-, e, he, -⟩ | ⟨written, -, -, rfl, hanswer | ⟨e, he⟩⟩ :=
        (k.stored now).create (k.create_reference code) hnow
      · cases he
      · cases hanswer
        rw [k.table_update, Table.find?_put_self]
      · cases he
  | error e =>
      simp only at hend
      split at hend
      · obtain ⟨found, t₃, hfetch, hfound⟩ := Work.ends_bind_ok.1 (Work.ends_log.1 hend)
        cases found with
        | some row' =>
            obtain ⟨rfl, rfl⟩ := Work.ends_pure_ok.1 hfound
            exact k.find?_of_fetchOrFail hfetch
        | none => exact absurd hfound.1 nofun
      · exact absurd hend.1 nofun

/-- The row that a code was resolved to is there, whatever went wrong on the way. -/
theorem find?_of_resolve (h : (k.reference.resolve code).Ends Answered t (.ok row) t') :
    (k.table t').find? code = some row := by
  unfold Reference.resolve at h
  split at h
  · exact absurd h.1 nofun
  · obtain ⟨found, t₁, hfetch, h⟩ := Work.ends_bind_ok.1 h
    cases found with
    | some row' =>
        simp only at h
        split at h
        · obtain ⟨rfl, rfl⟩ := Work.ends_pure_ok.1 h
          exact k.find?_of_fetchOrFail hfetch
        · exact k.find?_of_createOrRefetch h
    | none => exact k.find?_of_createOrRefetch h

theorem transacts_resolver (c : Coordinator) (code : String) :
    (k.resolver c code).Transacts Answered Tables.Intact
      (fun _ t row => (k.table t).find? code = some row) none := by
  rw [k.resolver_eq]
  exact Job.transacts_execute fun t _ row t' hends => k.find?_of_resolve hends

end ReferenceTable

namespace Sharing

variable {ι κ : Type} [DecidableEq ι] [DecidableEq κ] {β : κ → Type}

/-- Where no fault is armed for the insertion of reference rows, a code is resolved in any copy of
the tables that a store has come to, whatever races are pending, and resolving it once more finds
the same row and does nothing.  Of any number of callers that resolve one code, next to others who
do what they like, all who succeed get the one row with the code. -/
theorem code_has_one_row (k : ReferenceTable) {code : String} (hcode : code ≠ "")
    {s₀ s : System (ι ⊕ κ) (Sum.elim (fun _ => k.Row) β)} {es : Trace (ι ⊕ κ)}
    (hfresh : s₀.Fresh) (hintact : s₀.store.tables.Intact) (h : History s₀ es s) :
    (∀ t, s.Holds t → s.store.probes.countdown .createReference = 0 →
      (k.reference.resolve code).Attains (fun o w =>
        ∃ row, o = .ok row ∧ k.Resolved code t row w.tables ∧
          (k.reference.resolve code).Attains (fun o' w' => o' = .ok row ∧ w' = w) w)
        ⟨t, s.store.probes⟩) ∧
    ∀ c : ι → Coordinator,
      (∀ i, s₀.task (.inl i) = ⟨.ready (k.resolver (c i) code), none⟩) →
        ∀ i row, (s.task (.inl i)).Obtains row →
          ((k.table s.store.tables).rows.filter fun other => k.codeOf other = code) = [row] := by
  have hstart := hfresh.sound hintact
  obtain ⟨hs, -⟩ := h.sound hstart
  refine ⟨fun t ht hdisarmed => ?_, fun c hcallers i row hrow => ?_⟩
  · have hintact : t.Intact := by
      obtain rfl | ⟨i, hunit⟩ := ht
      · exact hs.tables
      · exact (hs.unit i t hunit).1
    refine (k.attains_resolve hintact hdisarmed hcode).mono ?_
    rintro _ w ⟨row, rfl, hresolved⟩
    exact ⟨row, rfl, hresolved,
      k.attains_resolve_found hcode hresolved.stored hresolved.code_eq⟩
  · have hkept : Kept (fun t row => (k.table t).find? code = some row) s.store.tables
        (s.task (.inl i)) := by
      refine h.kept (j := .inl i) (R := fun t row => (k.table t).find? code = some row) hstart
        (fun hgrows row hrow => k.find?_of_grows hgrows hrow) ?_
      rw [hcallers i]
      exact .going (.closed (k.transacts_resolver (c i) code))
    have hfound := hkept.obtains hrow
    rw [Table.filter_rows (k.keyed_table hs.tables.toWellFormed) (k.nodup_keys_table hs.tables),
      hfound]
    rfl

/-- Two callers that use a currency for the first time, when one race is pending, and an account
that is opened in it. -/
def firstUse : System (Bool ⊕ Unit) (Sum.elim (fun _ => ReferenceTable.currency.Row) fun _ => Unit)
    where
  store := ⟨.empty, .addRace .quiet, none⟩
  task
    | .inl _ => ⟨.ready (ReferenceTable.currency.resolver .default "CHF"), none⟩
    | .inr _ => ⟨.direct (.openAccount 1 "CHF" Rehearsal.hundredDollars), none⟩

/-- The callers and the account take turns. -/
def firstUsed : Trace (Bool ⊕ Unit) ×
    System (Bool ⊕ Unit) (Sum.elim (fun _ => ReferenceTable.currency.Row) fun _ => Unit) :=
  play firstUse (List.replicate 25 [.inl true, .inl false, .inr ()]).flatten

/-- The row of a currency that the catalog does not know. -/
def placeholder (code : String) : Currency :=
  let new := ReferenceTable.catalogCurrency code
  ⟨code, new.name, new.symbol, true, new.exchangeRate, .epoch⟩

/-- Both get the placeholder that one of them wrote and lost to the race, and whoever comes next
will find it. -/
theorem franc_has_one_row :
    ((firstUsed.2.task (.inl true)).Obtains (placeholder "CHF") ∧
      (firstUsed.2.task (.inl false)).Obtains (placeholder "CHF") ∧
      (firstUsed.2.store.tables.currencies.rows.filter fun row => row.code = "CHF") =
        [placeholder "CHF"]) ∧
    (Reference.currencies.resolve "CHF").Attains (fun o w => ∃ row, o = .ok row ∧
        ReferenceTable.currency.Resolved "CHF" firstUsed.2.store.tables row w.tables ∧
        (Reference.currencies.resolve "CHF").Attains (fun o' w' => o' = .ok row ∧ w' = w) w)
      ⟨firstUsed.2.store.tables, firstUsed.2.store.probes⟩ := by
  have hfresh : firstUse.Fresh := by
    refine ⟨rfl, fun i => ?_, fun i write => ?_⟩
    · match i with
      | .inl _ | .inr _ => rfl
    · match i with
      | .inl _ | .inr _ => exact nofun
  have hobtains : ∀ i, (firstUsed.2.task (.inl i)).Obtains (placeholder "CHF") := by
    have hvalue (i : Bool) :
        @Task.value? Currency (firstUsed.2.task (.inl i)) = some (placeholder "CHF") := by
      cases i with
      | true => decide +kernel
      | false => decide +kernel
    exact fun i => Task.obtains_of_value? (hvalue i)
  obtain ⟨hagain, hcallers⟩ := code_has_one_row .currency (show "CHF" ≠ "" by decide) hfresh
    Tables.intact_empty (run_play firstUse _).history
  exact ⟨⟨hobtains true, hobtains false, hcallers _ (fun _ => rfl) true _ (hobtains true)⟩,
    hagain _ (.inl rfl) (by decide +kernel)⟩

end Sharing

end FundsTransfer
