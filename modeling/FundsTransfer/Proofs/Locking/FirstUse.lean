import FundsTransfer.Proofs.Locking.References
import Mathlib.Data.List.Lemmas

/-!
# The first use of reference rows

A seeding writes the statuses before the types, and a transfer its type before its
statuses.  So on a store without reference rows a transfer and a seeding can come to
wait for each other: the transfer wrote its type and wants a status, and the seeding
wrote the statuses and wants the type.

`reference_deadlock_iff` says when this can happen, and that nothing else can: among any
number of transfers and seedings some wait for each other in a circle in some
interleaving if and only if there is a transfer and there is a seeding, nobody committed
the type of transfers, and nobody committed one of their two statuses.  In particular
transfers alone do not, and neither do seedings.
-/

namespace FundsTransfer

open Locking

/-! ## Orders without a circle -/

/-- A seeding goes through its rows once. -/
theorem ascends_seedRows (free : ReferenceRow → Prop) :
    Ascends seedRows.idxOf free seedRows := by
  have h : seedRows.Pairwise fun k k' => seedRows.idxOf k < seedRows.idxOf k' := by decide +kernel
  exact h.imp fun hlt _ _ => hlt

/-- In a seeding all statuses and types come before a currency. -/
theorem le_idxOf_currency (code : String) : 13 ≤ seedRows.idxOf (.currency, code) := by
  have hnot : (.currency, code) ∉
      StatusCode.all.map (fun s => ((.status, s.text) : ReferenceRow)) ++
        TypeCode.all.map (fun t => ((.type, t.text) : ReferenceRow)) := by
    simp
  rw [seedRows, ← List.append_assoc, List.idxOf_append_of_notMem hnot]
  exact Nat.le_add_right 13 _

/-- A transfer goes the way of a seeding, unless it writes its type and a status. -/
theorem ascends_transferRows {free : ReferenceRow → Prop}
    (hfree : free transferRow → ¬ free pendingRow ∧ ¬ free completedRow) (currency : String) :
    Ascends seedRows.idxOf free (transferRows currency) := by
  have htransfer : seedRows.idxOf transferRow = 5 := by decide +kernel
  have hpending : seedRows.idxOf pendingRow = 0 := by decide +kernel
  have hcompleted : seedRows.idxOf completedRow = 1 := by decide +kernel
  have hcurrency := le_idxOf_currency currency
  simp only [Ascends, transferRows, List.pairwise_cons, List.mem_cons, List.not_mem_nil, or_false,
    forall_eq_or_imp, forall_eq]
  refine ⟨⟨fun h h' => absurd h' (hfree h).1, fun h h' => absurd h' (hfree h).2, ?_⟩, ⟨?_, ?_⟩, ?_,
    nofun, .nil⟩
  · intros; omega
  · intros; omega
  · intros; omega
  · intros; omega

/-- The place of a row among those of a transfer. -/
def transferRank (k : ReferenceRow) : Nat := [transferRow, pendingRow, completedRow].idxOf k

/-- Among themselves, transfers all go the same way. -/
theorem ascends_transferRank (free : ReferenceRow → Prop) (currency : String) :
    Ascends transferRank free (transferRows currency) := by
  have htransfer : transferRank transferRow = 0 := by decide +kernel
  have hpending : transferRank pendingRow = 1 := by decide +kernel
  have hcompleted : transferRank completedRow = 2 := by decide +kernel
  have hcurrency : transferRank (.currency, currency) = 3 :=
    List.idxOf_of_notMem (by simp [transferRow, pendingRow, completedRow])
  simp only [Ascends, transferRows, List.pairwise_cons, List.mem_cons, List.not_mem_nil, or_false,
    forall_eq_or_imp, forall_eq]
  refine ⟨⟨?_, ?_, ?_⟩, ⟨?_, ?_⟩, ?_, nofun, .nil⟩
  all_goals intros; omega

variable {ι : Type} [DecidableEq ι] {calls : ι → EngineCall} {c : Set ReferenceRow}
  {s : System ι ReferenceRow fun i => (calls i).Result}

theorem not_deadlocked_of_ranked {ο : Type} [Preorder ο] (rank : ReferenceRow → ο)
    (hcalls : ∀ i, ∃ ks, (calls i).job.Takes createdRow ks ∧ Ascends rank (· ∉ c) ks)
    (h : (System.start c fun i => (calls i).job).Reaches referenceStore s) :
    ¬ s.Deadlocked createdRow := by
  refine not_deadlocked (fun hc hanswer k hk => ?_) hcalls h
  exact (mem_of_referenceAnswers hanswer hk).imp_right fun hnew hk => hnew.2 (hc hk)

/-- A circle takes a transfer and a seeding, and codes for both to write. -/
theorem of_deadlocked (h : (System.start c fun i => (calls i).job).Reaches referenceStore s)
    (hdeadlock : s.Deadlocked createdRow) :
    (∃ i call, calls i = .transfer call ∧ call.Valid) ∧
      (∃ j coordinator, calls j = .seed coordinator) ∧
      transferRow ∉ c ∧ (pendingRow ∉ c ∨ completedRow ∉ c) := by
  by_contra hnot
  by_cases hseed : ∃ j coordinator, calls j = .seed coordinator
  · refine not_deadlocked_of_ranked seedRows.idxOf (fun i => ?_) h hdeadlock
    cases hcall : calls i with
    | seed coordinator => exact ⟨seedRows, Job.takes_execute takes_seedCatalog, ascends_seedRows _⟩
    | transfer call =>
        by_cases hvalid : call.Valid
        · refine ⟨transferRows call.params.currency, call.takes_transferRows, ?_⟩
          refine ascends_transferRows (fun htransfer => ?_) _
          simp only [not_not]
          by_contra hstatus
          exact hnot ⟨⟨i, call, hcall, hvalid⟩, hseed, htransfer, not_and_or.1 hstatus⟩
        · exact ⟨[], TransferCall.takes_nil_of_not_valid hvalid, .nil⟩
  · refine not_deadlocked_of_ranked transferRank (fun i => ?_) h hdeadlock
    cases hcall : calls i with
    | seed coordinator => exact absurd ⟨i, coordinator, hcall⟩ hseed
    | transfer call =>
        exact ⟨transferRows call.params.currency, call.takes_transferRows, ascends_transferRank _ _⟩

/-! ## What a call can come to -/

namespace ReferenceTable

variable (k : ReferenceTable) {code : String} {c locked own : Set ReferenceRow}

/-- A row that can be seen is read. -/
theorem ends_fetch_of_seen {row : k.Row} (hrow : k.codeOf row = code)
    (hseen : (k, code) ∈ c ∪ own) :
    (k.reference.fetch code).Ends (referenceStore.free c locked) own (.ok (.ok (some row)))
      own := by
  cases k with
  | _ => exact Work.ends_ask_ok.2 ⟨nofun, ⟨hseen, hrow⟩, rfl⟩

/-- A row that cannot be seen is not there. -/
theorem ends_fetch_of_unseen (hseen : (k, code) ∉ c ∪ own) :
    (k.reference.fetch code).Ends (referenceStore.free c locked) own (.ok (.ok none)) own := by
  cases k with
  | _ => exact Work.ends_ask_ok.2 ⟨nofun, hseen, rfl⟩

/-- A row that cannot be seen is written and held, when nobody else holds it. -/
theorem ends_create {row : k.Row} (hrow : k.codeOf row = code) (hseen : (k, code) ∉ c ∪ own)
    (hfree : (k, code) ∉ locked) :
    (k.create code).ask.Ends (referenceStore.free c locked) own (.ok (.ok row))
      (own ∪ {(k, code)}) := by
  have hlocked : ∀ k', createdRow (k.create code).query = some k' → k' ∉ locked := by
    intro k' hk'
    rw [createdRow_create] at hk'
    exact Option.some.inj hk' ▸ hfree
  cases k with
  | currency =>
      -- the query carries a whole row of the catalog, and it is its code that is locked
      refine Work.ends_ask_ok.2 ⟨hlocked, ?_⟩
      show Created Currency.code (currency, (catalogCurrency code).code)
        ((currency, (catalogCurrency code).code) ∈ c ∪ own) own (.ok row) _
      rw [code_catalogCurrency]
      exact ⟨hseen, hrow, rfl⟩
  | _ => exact Work.ends_ask_ok.2 ⟨hlocked, hseen, hrow, rfl⟩

/-- A code can be resolved when nobody else holds its row.  The row is held from then on, unless it
was there. -/
theorem ends_resolve (hcode : code ≠ "") (hfree : (k, code) ∉ locked) :
    ∃ row, (k.reference.resolve code).Ends (referenceStore.free c locked) own (.ok row)
      (own ∪ ({(k, code)} \ c)) := by
  obtain ⟨row, hrow⟩ := k.exists_codeOf code
  refine ⟨row, ?_⟩
  by_cases hseen : (k, code) ∈ c ∪ own
  · have hsame : own ∪ ({(k, code)} \ c) = own := by
      refine Set.union_eq_left.2 ?_
      rintro _ ⟨rfl, hc⟩
      exact hseen.resolve_left hc
    rw [hsame]
    refine Reference.ends_resolve_of_found hcode ?_ (k.ends_fetch_of_seen hrow hseen)
    rw [k.codeOf_reference]
    exact hrow
  · rw [sdiff_eq_left.2 (Set.disjoint_singleton_left.2 fun hc => hseen (.inl hc))]
    exact Reference.ends_resolve_of_created hcode (k.create_reference code)
      (k.ends_fetch_of_unseen hseen) (k.ends_create hrow hseen hfree)

/-- Resolving a code that nobody committed comes to writing its row. -/
theorem canWant_resolve (hcode : code ≠ "") (hseen : (k, code) ∉ c ∪ own) :
    CanWant referenceStore c locked own (k.reference.resolve code) own (k, code) := by
  obtain ⟨after, hask⟩ := (k.create code).ask_eq_call
  rw [Reference.resolve, if_neg (by simpa using hcode)]
  refine canWant_bind_of_ends
    (Reference.ends_fetchOrFail_of_fetch (k.ends_fetch_of_unseen hseen)) ?_
  intro β γ d f next
  refine ⟨_, .refl, rfl, ?_⟩
  dsimp only
  rw [Reference.createOrRefetch, k.create_reference, Work.ofExcept, Work.done_bind, hask,
    Work.call_bind, Work.call_bind, Job.within]
  exact ⟨d, _, _, rfl, k.createdRow_create code⟩

end ReferenceTable

/-- Resolving some codes one after the other, when nobody else holds their rows. -/
theorem ends_mapM {γ ρ : Type} {f : γ → Work ρ} {key : γ → ReferenceRow}
    {A : Answering (Set ReferenceRow)} {cs : List γ}
    (hf : ∀ x ∈ cs, ∀ own, ∃ row, (f x).Ends A own (.ok row) (own ∪ ({key x} \ c)))
    (own : Set ReferenceRow) :
    ∃ rows, (cs.mapM f).Ends A own (.ok rows) (own ∪ ({k | k ∈ cs.map key} \ c)) := by
  induction cs generalizing own with
  | nil =>
      refine ⟨[], ?_⟩
      rw [List.mapM_nil, Work.ends_pure_ok]
      simp
  | cons x rest ih =>
      obtain ⟨row, hrow⟩ := hf x List.mem_cons_self own
      obtain ⟨rows, hrows⟩ := ih (fun y hy => hf y (List.mem_cons_of_mem x hy)) _
      have hset : own ∪ ({k | k ∈ (x :: rest).map key} \ c) =
          own ∪ ({key x} \ c) ∪ ({k | k ∈ rest.map key} \ c) := by
        ext k
        simp only [List.map_cons, List.mem_cons, Set.mem_union, Set.mem_sdiff, Set.mem_ofPred_eq,
          Set.mem_singleton_iff]
        tauto
      rw [List.mapM_cons, hset]
      refine ⟨row :: rows, Work.ends_bind_ok.2 ⟨row, _, hrow, ?_⟩⟩
      exact Work.ends_bind_ok.2 ⟨rows, _, hrows, rfl, rfl⟩

theorem text_status_ne_empty (status : StatusCode) : status.text ≠ "" := by
  cases status with
  | _ => decide

/-- The rows of the statuses that a seeding writes. -/
def statusRows : Set ReferenceRow := {k | k ∈ StatusCode.all.map fun s => (.status, s.text)}

theorem mem_statusRows {k : ReferenceRow} :
    k ∈ statusRows ↔ k ∈ StatusCode.all.map fun s => ((.status, s.text) : ReferenceRow) :=
  Iff.rfl

/-- Resolving the rows of a transfer comes to holding its type and wanting a status. -/
theorem exists_canWant_transferReferences (htype : transferRow ∉ c)
    (hstatus : pendingRow ∉ c ∨ completedRow ∉ c) (currency : String) :
    ∃ k ∈ statusRows \ c,
      CanWant referenceStore c ∅ ∅ (transferReferences currency) {transferRow} k := by
  have htypeEnds : ∃ type, (Reference.types.resolve TypeCode.transfer.text).Ends
      (referenceStore.free c ∅) ∅ (.ok type) (∅ ∪ ({transferRow} \ c)) :=
    ReferenceTable.type.ends_resolve (by decide) (Set.notMem_empty transferRow)
  rw [Set.empty_union, sdiff_eq_left.2 (Set.disjoint_singleton_left.2 htype)] at htypeEnds
  obtain ⟨type, htypeEnds⟩ := htypeEnds
  have hwants : ∀ status : StatusCode, (.status, status.text) ∉ c →
      CanWant referenceStore c ∅ {transferRow} (Reference.statuses.resolve status.text)
        {transferRow} (.status, status.text) := by
    intro status hmissing
    refine ReferenceTable.status.canWant_resolve (text_status_ne_empty status) ?_
    rintro (hc | heq)
    · exact hmissing hc
    · cases heq
  by_cases hpending : pendingRow ∈ c
  · have hcompleted := hstatus.resolve_left (not_not_intro hpending)
    have hpendingEnds : ∃ pending, (Reference.statuses.resolve StatusCode.pending.text).Ends
        (referenceStore.free c ∅) {transferRow} (.ok pending)
          ({transferRow} ∪ ({pendingRow} \ c)) :=
      ReferenceTable.status.ends_resolve (by decide) (Set.notMem_empty pendingRow)
    rw [Set.sdiff_eq_empty.2 (Set.singleton_subset_iff.2 hpending), Set.union_empty]
      at hpendingEnds
    obtain ⟨pending, hpendingEnds⟩ := hpendingEnds
    refine ⟨completedRow, ⟨mem_statusRows.2 (by decide), hcompleted⟩, ?_⟩
    exact canWant_bind_of_ends htypeEnds
      (canWant_bind_of_ends hpendingEnds (hwants .completed hcompleted).bind)
  · refine ⟨pendingRow, ⟨mem_statusRows.2 (by decide), hpending⟩, ?_⟩
    exact canWant_bind_of_ends htypeEnds (hwants .pending hpending).bind

/-- A transfer can come to hold its type and want a status. -/
theorem exists_path_of_transfer {e : EngineCall} {call : TransferCall} (he : e = .transfer call)
    (hvalid : call.Valid) (htype : transferRow ∉ c)
    (hstatus : pendingRow ∉ c ∨ completedRow ∉ c) :
    ∃ t k, Task.Path referenceStore c ∅ ⟨e.job, ∅⟩ t ∧ t.rows = {transferRow} ∧
      k ∈ statusRows \ c ∧ t.Wants createdRow k := by
  subst he
  obtain ⟨k, hk, hwants⟩ :=
    exists_canWant_transferReferences htype hstatus call.params.currency
  have hpath : ∃ t, Task.Path referenceStore c ∅ ⟨call.job, ∅⟩ t ∧ t.rows = {transferRow} ∧
      t.Wants createdRow k := by
    refine TransferCall.exists_path_of_canWant hvalid ?_
    intro t reference description _ _ hcurrency
    rw [runTransfer, hcurrency]
    exact hwants.bind
  obtain ⟨t, hpath, hrows, hnext⟩ := hpath
  exact ⟨t, k, hpath, hrows, hk, hnext⟩

/-- While a transfer holds its type, a seeding can come to hold the statuses and want the type. -/
theorem exists_path_of_seed {e : EngineCall} {coordinator : Coordinator}
    (he : e = .seed coordinator) (htype : transferRow ∉ c) :
    ∃ t, Task.Path referenceStore c {transferRow} ⟨e.job, ∅⟩ t ∧ t.rows = statusRows \ c ∧
      t.Wants createdRow transferRow := by
  subst he
  have hseen : transferRow ∉ c ∪ (statusRows \ c) := by
    rintro (hc | hstatus)
    · exact htype hc
    · exact absurd (mem_statusRows.1 hstatus.1) (by decide)
  have hresolve : ∀ status ∈ StatusCode.all, ∀ own,
      ∃ row, (Reference.statuses.resolve status.text).Ends (referenceStore.free c {transferRow}) own
        (.ok row) (own ∪ ({(.status, status.text)} \ c)) := by
    intro status _ own
    exact ReferenceTable.status.ends_resolve (text_status_ne_empty status) (by rintro ⟨⟩)
  obtain ⟨statuses, hstatuses⟩ := ends_mapM hresolve ∅
  rw [Set.empty_union] at hstatuses
  have htype : CanWant referenceStore c {transferRow} (statusRows \ c)
      (Reference.types.resolve TypeCode.transfer.text) (statusRows \ c) transferRow :=
    ReferenceTable.type.canWant_resolve (by decide) hseen
  have hwants : CanWant referenceStore c {transferRow} ∅ seedCatalog (statusRows \ c)
      transferRow :=
    canWant_bind_of_ends hstatuses htype.bind.bind
  obtain ⟨t, hpath, hrest⟩ := hwants.execute_andThen
  rw [Job.andThen_conclude] at hpath
  exact ⟨t, hpath, hrest⟩

/-! ## The circle -/

/-- A transfer that wrote its type and a seeding that wrote the statuses wait for each other. -/
theorem exists_deadlock {i j : ι} {call : TransferCall} {coordinator : Coordinator}
    (hi : calls i = .transfer call) (hvalid : call.Valid) (hj : calls j = .seed coordinator)
    (htype : transferRow ∉ c) (hstatus : pendingRow ∉ c ∨ completedRow ∉ c) :
    ∃ s, (System.start c fun i => (calls i).job).Reaches referenceStore s ∧
      s.Deadlocked createdRow := by
  have hne : i ≠ j := by
    rintro rfl
    rw [hi] at hj
    cases hj
  obtain ⟨t, k, hpath, hrows, hk, hwants⟩ := exists_path_of_transfer hi hvalid htype hstatus
  obtain ⟨t', hpath', hrows', hwants'⟩ := exists_path_of_seed hj htype
  rw [← hrows] at hpath'
  obtain ⟨s, hreaches, hi', hj'⟩ := reaches_of_paths (fun i => (calls i).job) hne hpath hpath'
  have hwait : s.Waits createdRow i j := by
    refine ⟨hne, k, ?_, ?_⟩
    · rw [hi']
      exact hwants
    · rw [hj', hrows']
      exact hk
  have hwait' : s.Waits createdRow j i := by
    refine ⟨hne.symm, transferRow, ?_, ?_⟩
    · rw [hj']
      exact hwants'
    · rw [hi', hrows]
      exact Set.mem_singleton transferRow
  exact ⟨s, hreaches, i, .tail (.single hwait) hwait'⟩

/-- Some calls can come to wait for each other in a circle if and only if there is a transfer and a
seeding among them, and the type of transfers and one of their statuses are not committed. -/
theorem reference_deadlock_iff {ι : Type} [DecidableEq ι] (calls : ι → EngineCall)
    (c : Set ReferenceRow) :
    (∃ s, (System.start c fun i => (calls i).job).Reaches referenceStore s ∧
        s.Deadlocked createdRow) ↔
      (∃ i call, calls i = .transfer call ∧ call.Valid) ∧
        (∃ j coordinator, calls j = .seed coordinator) ∧
        transferRow ∉ c ∧ (pendingRow ∉ c ∨ completedRow ∉ c) := by
  constructor
  · rintro ⟨s, hreaches, hdeadlock⟩
    exact of_deadlocked hreaches hdeadlock
  · rintro ⟨⟨i, call, hi, hvalid⟩, ⟨j, coordinator, hj⟩, htype, hstatus⟩
    exact exists_deadlock hi hvalid hj htype hstatus

/-- A transfer of a dollar and a seeding. -/
def dollarAndSeeding : Bool → EngineCall
  | false => .transfer ⟨.default, "", Rehearsal.oneDollar⟩
  | true => .seed .default

/-- On a store without reference rows the two can come to wait for each other. -/
theorem dollar_and_seeding_deadlock :
    ∃ s, (System.start ∅ fun i => (dollarAndSeeding i).job).Reaches referenceStore s ∧
      s.Deadlocked createdRow := by
  have hvalid : Rehearsal.oneDollar.validate.isOk = true := by decide +kernel
  cases hcheck : Rehearsal.oneDollar.validate with
  | error e =>
      rw [hcheck] at hvalid
      cases hvalid
  | ok t =>
      have htransfer : dollarAndSeeding false = .transfer ⟨.default, "", Rehearsal.oneDollar⟩ := rfl
      have hseed : dollarAndSeeding true = .seed .default := rfl
      exact exists_deadlock htransfer ⟨t, hcheck⟩ hseed (Set.notMem_empty _)
        (.inl (Set.notMem_empty _))

end FundsTransfer
