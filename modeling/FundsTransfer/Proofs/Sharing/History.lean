import FundsTransfer.Proofs.Memory.Intact
import FundsTransfer.Proofs.Sharing.Balances

/-!
# What a shared store goes through

While tasks share a store, anybody may arm faults and races.  A `History` is a run with
such interventions in between.  They reach the probes only, so what a history can do to
rows is what acts can do, and `Act.onRows` lists this once: a copy is taken, changed by
one query, published, or given up, or a direct write is done.

From this list it follows that the tables stay intact, those that are committed as well
as every copy in a unit of work, and that each copy has grown out of what is committed.
A copy that is published therefore takes no row away.  This rests on the lock.  Without
it a unit of work could publish a copy of tables that are long gone, and undo what
others did in between.
-/

namespace FundsTransfer.Sharing

open Memory

variable {ι : Type} [DecidableEq ι]

/-! ## Histories -/

section

variable {α : ι → Type}

/-- The system with other probes. -/
def System.probing (s : System ι α) (p : Probes) : System ι α :=
  { s with store := { s.store with probes := p } }

/-- Any interleaving of the acts of the tasks, with faults and races armed at any time in between,
and the trace of the acts. -/
inductive History (s₀ : System ι α) : Trace ι → System ι α → Prop where
  | start : History s₀ [] s₀
  | act {i : ι} {store : Store ι} {task : Task (α i)} (h : History s₀ es s)
      (hact : Act i s.store (s.task i) e store task) :
      History s₀ ((i, e) :: es) (s.update i store task)
  | fault (point : FaultPoint) (occurrence : Nat) (h : History s₀ es s) :
      History s₀ es (s.probing (s.store.probes.arm point occurrence))
  | race (h : History s₀ es s) : History s₀ es (s.probing s.store.probes.addRace)

theorem Run.history {s₀ s : System ι α} {es : Trace ι} (h : Run s₀ es s) : History s₀ es s := by
  induction h with
  | start => exact .start
  | act _ hact ih => exact ih.act hact

/-- What every act keeps and no intervention touches holds all along a history. -/
theorem History.preserves {I : Trace ι → System ι α → Prop} {s₀ s : System ι α} {es : Trace ι}
    (hact : ∀ {es s i e store} {task : Task (α i)},
      Act i s.store (s.task i) e store task → I es s → I ((i, e) :: es) (s.update i store task))
    (hprobing : ∀ {es s p}, I es s → I es (s.probing p)) (h : History s₀ es s)
    (hstart : I [] s₀) : I es s := by
  induction h with
  | start => exact hstart
  | act _ h ih => exact hact h ih
  | fault point occurrence _ ih => exact hprobing ih
  | race _ ih => exact hprobing ih

end

/-! ## What an act does to rows -/

/-- Whoever is dropped changes nothing that is committed. -/
theorem Store.tables_leave (s : Store ι) (i : ι) : (s.leave i).tables = s.tables := by
  rw [leave]
  split
  · rfl
  · rfl

/-- Everything that an act of a task can do to the committed tables and to its unit of work. -/
inductive OnRows {β : Type} (s s' : Store ι) (task task' : Task β) : Prop where
  | kept (htables : s'.tables = s.tables) (hunit : ∀ t ∈ task'.unit, t ∈ task.unit)
  | opened (htables : s'.tables = s.tables) (hunit : task'.unit = some s.tables)
  | asked {now : Timestamp} {q : Query} {t t' : Tables} (htables : s'.tables = s.tables)
      (hbefore : task.unit = some t) (hchange : Change now q t t') (hunit : task'.unit = some t')
  | published {t : Tables} (hbefore : task.unit = some t) (htables : s'.tables = t)
      (hunit : task'.unit = none)
  | wrote {now : Timestamp} {write : Direct} (hlocks : task.Locks)
      (htables : s'.tables = write.run now s.tables) (hunit : task'.unit = none)

theorem Act.onRows {β : Type} {i : ι} {s s' : Store ι} {task task' : Task β} {e : Event}
    (h : Act i s task e s' task') : OnRows s s' task task' := by
  cases h with
  | log => exact .kept rfl fun _ ht => ht
  | clock => exact .kept rfl fun _ ht => ht
  | refused => exact .kept rfl fun _ ht => ht
  | admitted => exact .kept rfl fun _ ht => ht
  | late => exact .kept rfl fun _ ht => ht
  | opened => exact .opened rfl rfl
  | notInTime => exact .kept rfl fun _ ht => ht
  | asked now hperform => exact .asked rfl rfl (change_of_gives ⟨_, _, hperform⟩) rfl
  | cutOff => exact .kept rfl fun _ ht => ht
  | paused => exact .kept rfl fun _ ht => ht
  | pauseCutOff => exact .kept rfl fun _ ht => ht
  | committed => exact .published rfl rfl rfl
  | notCommitted => exact .kept rfl nofun
  | rolledBack => exact .kept rfl nofun
  | dropped => exact .kept (s.tables_leave i) nofun
  | taken => exact .kept rfl nofun
  | wrote now => exact .wrote (.inr ⟨_, rfl⟩) rfl rfl

/-! ## Tables stay intact -/

theorem Direct.intact_run {t : Tables} (h : t.Intact) (now : Timestamp) (write : Direct) :
    (write.run now t).Intact := by
  cases write with
  | openAccount user currency balance => exact h.openAccount user currency balance
  | deactivate account => exact h.deactivate account

theorem Direct.grows_run {t : Tables} (h : t.WellFormed) (now : Timestamp) (write : Direct) :
    t.Grows (write.run now t) := by
  cases write with
  | openAccount user currency balance => exact Tables.grows_openAccount h user currency balance
  | deactivate account => exact Tables.grows_deactivate t account

variable {α : ι → Type}

/-- The committed tables are intact, and so is the copy in every unit of work, which has grown out
of them. -/
structure System.Sound (s : System ι α) : Prop where
  exclusive : s.Exclusive
  tables : s.store.tables.Intact
  unit : ∀ i, ∀ t ∈ (s.task i).unit, t.Intact ∧ s.store.tables.Grows t

theorem System.Fresh.sound {s : System ι α} (h : s.Fresh) (htables : s.store.tables.Intact) :
    s.Sound where
  exclusive := Run.start.exclusive h
  tables := htables
  unit i t ht := by
    rw [h.closed i] at ht
    cases ht

section Act

variable {s : System ι α} {i : ι} {e : Event} {store : Store ι} {task : Task (α i)}

/-- An act that commits nothing leaves the units of work of the others as they were. -/
theorem System.Sound.uncommitted (hs : s.Sound) (hexclusive : (s.update i store task).Exclusive)
    (htables : store.tables = s.store.tables)
    (hunit : ∀ t ∈ task.unit, t.Intact ∧ s.store.tables.Grows t) :
    (s.update i store task).Sound where
  exclusive := hexclusive
  tables := by
    rw [System.store_update, htables]
    exact hs.tables
  unit j t ht := by
    rw [System.store_update, htables]
    by_cases hji : j = i
    · subst hji
      rw [System.task_update_self] at ht
      exact hunit t ht
    · rw [System.task_update_of_ne hji] at ht
      exact hs.unit j t ht

/-- When the task with the lock commits, no unit of work is left that could be out of date. -/
theorem System.Sound.committed (hs : s.Sound) (hexclusive : (s.update i store task).Exclusive)
    (hlocks : (s.task i).Locks) (htables : store.tables.Intact) (hunit : task.unit = none) :
    (s.update i store task).Sound where
  exclusive := hexclusive
  tables := htables
  unit j t ht := by
    by_cases hji : j = i
    · subst hji
      rw [System.task_update_self, hunit] at ht
      cases ht
    · rw [System.task_update_of_ne hji] at ht
      have hj := hs.exclusive j (.inl (by rw [ht]; rfl))
      rw [hs.exclusive i hlocks] at hj
      exact absurd (Option.some.inj hj).symm hji

/-- An act takes no row away, and leaves all tables intact. -/
theorem System.Sound.act (hs : s.Sound) (h : Act i s.store (s.task i) e store task) :
    (s.update i store task).Sound ∧ s.store.tables.Grows store.tables := by
  have hexclusive := hs.exclusive.act h
  cases h.onRows with
  | kept htables hunit =>
      have hkept : ∀ t ∈ task.unit, t.Intact ∧ s.store.tables.Grows t :=
        fun t ht => hs.unit i t (hunit t ht)
      exact ⟨hs.uncommitted hexclusive htables hkept, htables ▸ .refl _⟩
  | opened htables hunit =>
      have hcopy : ∀ t ∈ task.unit, t.Intact ∧ s.store.tables.Grows t := by
        intro t ht
        rw [hunit] at ht
        exact Option.some.inj ht ▸ ⟨hs.tables, .refl _⟩
      exact ⟨hs.uncommitted hexclusive htables hcopy, htables ▸ .refl _⟩
  | asked htables hbefore hchange hunit =>
      obtain ⟨hintact, hgrows⟩ := hs.unit i _ hbefore
      have hchanged : ∀ t ∈ task.unit, t.Intact ∧ s.store.tables.Grows t := by
        intro t ht
        rw [hunit] at ht
        exact Option.some.inj ht ▸ ⟨hintact.change hchange,
          hgrows.trans (Tables.grows_of_change hintact.toWellFormed hchange)⟩
      exact ⟨hs.uncommitted hexclusive htables hchanged, htables ▸ .refl _⟩
  | published hbefore htables hunit =>
      obtain ⟨hintact, hgrows⟩ := hs.unit i _ hbefore
      have hlocks : (s.task i).Locks := .inl (by rw [hbefore]; rfl)
      exact ⟨hs.committed hexclusive hlocks (htables ▸ hintact) hunit, htables ▸ hgrows⟩
  | @wrote now write hlocks htables hunit =>
      have hintact := write.intact_run hs.tables now
      have hgrows := write.grows_run hs.tables.toWellFormed now
      exact ⟨hs.committed hexclusive hlocks (htables ▸ hintact) hunit, htables ▸ hgrows⟩

end Act

theorem History.sound {s₀ s : System ι α} {es : Trace ι} (h : History s₀ es s) (hs : s₀.Sound) :
    s.Sound ∧ s₀.store.tables.Grows s.store.tables :=
  h.preserves (I := fun _ s => s.Sound ∧ s₀.store.tables.Grows s.store.tables)
    (fun hact hs => ⟨(hs.1.act hact).1, hs.2.trans (hs.1.act hact).2⟩)
    (fun hs => ⟨{ hs.1 with }, hs.2⟩) ⟨hs, .refl _⟩

/-- The committed tables, and the copies in open units of work. -/
def System.Holds (s : System ι α) (t : Tables) : Prop :=
  t = s.store.tables ∨ ∃ i, (s.task i).unit = some t

/-- Whatever is done to a store that was empty, by any number of tasks in any interleaving and with
any faults and races, all its tables are intact at any time, no two accounts have one number, and no
row that was ever committed goes away or changes where it must not. -/
theorem tables_intact_and_growing {s₀ s : System ι α} {es : Trace ι} (hfresh : s₀.Fresh)
    (hempty : s₀.store.tables = .empty) (h : History s₀ es s) :
    (∀ t, s.Holds t → t.Intact ∧ ∀ id id' a a', t.accounts.find? id = some a →
        t.accounts.find? id' = some a' → a.number = a'.number → id = id') ∧
      ∀ es' s', History s es' s' → s.store.tables.Grows s'.store.tables := by
  obtain ⟨hs, -⟩ := h.sound (hfresh.sound (hempty ▸ Tables.intact_empty))
  refine ⟨fun t ht => ?_, fun es' s' h' => (h'.sound hs).2⟩
  have hintact : t.Intact := by
    obtain rfl | ⟨i, hunit⟩ := ht
    · exact hs.tables
    · exact (hs.unit i t hunit).1
  exact ⟨hintact, fun _ _ _ _ => hintact.number_unique⟩

/-- An empty store, two tasks that open an account each, and two that move a dollar to and fro. -/
def beginning : System (Fin 4) fun _ => TransferResult where
  store := ⟨.empty, .quiet, none⟩
  task
    | 0 => ⟨.direct (.openAccount 1 "USD" Rehearsal.hundredDollars), none⟩
    | 1 => ⟨.direct (.openAccount 2 "USD" Rehearsal.hundredDollars), none⟩
    | 2 => ⟨.ready (crossing false).job, none⟩
    | 3 => ⟨.ready (crossing true).job, none⟩

/-- The dollar was moved. -/
def dollarMoved : Trace (Fin 4) × System (Fin 4) fun _ => TransferResult :=
  play beginning (List.replicate 60 2 ++ [1, 1, 0, 0])

/-- The dollar was moved back. -/
def dollarReturned : Trace (Fin 4) × System (Fin 4) fun _ => TransferResult :=
  play dollarMoved.2 (List.replicate 60 3)

/-- The first transaction is there, and stays when there is a second one. -/
theorem dollar_moved_intact :
    (dollarMoved.2.store.tables.transactions.keys = [1] ∧
        dollarReturned.2.store.tables.transactions.keys = [1, 2]) ∧
      dollarMoved.2.store.tables.Intact ∧
      dollarMoved.2.store.tables.Grows dollarReturned.2.store.tables := by
  have hfresh : beginning.Fresh := by
    refine ⟨rfl, fun i => ?_, fun i write => ?_⟩
    · match i with
      | 0 | 1 | 2 | 3 => rfl
    · match i with
      | 0 | 1 | 2 | 3 => exact nofun
  have hmoved : History beginning dollarMoved.1 dollarMoved.2 := (run_play _ _).history
  have hreturned : History dollarMoved.2 dollarReturned.1 dollarReturned.2 :=
    (run_play _ _).history
  obtain ⟨hheld, hlater⟩ := tables_intact_and_growing hfresh rfl hmoved
  exact ⟨⟨by decide +kernel, by decide +kernel⟩, (hheld _ (.inl rfl)).1, hlater _ _ hreturned⟩

end FundsTransfer.Sharing
