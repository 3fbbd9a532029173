import FundsTransfer.Memory.Store
import FundsTransfer.Work.Job
import Mathlib.Logic.Function.Basic

/-!
# Tasks that share a store in memory

Any number of tasks use one store at the same time.  A task runs a job, which may open
units of work one after another, or writes an account directly.  The committed tables
lie behind one lock.  A unit of work holds it from its opening until it is published,
taken back or dropped, and a direct write holds it while it writes.  The probes lie
outside: whoever opens a unit of work passes the fault check first and waits for the
lock then.

`Act` lists what one task can do next.  Between two acts of a task the others can do
anything they like, so `Run` is any interleaving, and it keeps a trace of what happened,
latest first.  A task can be cut off at its deadline where it waits or asks, and it can
be dropped at any time.
-/

namespace FundsTransfer.Sharing

open Memory

/-- A write outside units of work. -/
inductive Direct where
  /-- Opens an account. -/
  | openAccount (user : Int) (currency : String) (balance : Decimal)
  /-- Closes an account. -/
  | deactivate (account : Int)

/-- The tables after a direct write. -/
def Direct.run (now : Timestamp) (t : Tables) : Direct → Tables
  | .openAccount user currency balance => (t.openAccount now user currency balance).2
  | .deactivate account => t.deactivate account

/-- How far a task has come. -/
inductive Stage (α : Type) where
  /-- It goes on with a job. -/
  | ready (job : Job α)
  /-- It passed the fault check of an opening and waits for the lock. -/
  | waiting (deadline : Option Deadline) (next : Timed (Except StoreError Unit) → Job α)
  /-- It waits for the lock to write. -/
  | direct (write : Direct)
  /-- It has the lock and writes. -/
  | writing (write : Direct)
  /-- It wrote, or it was dropped. -/
  | gone

/-- A task, with the unit of work that it holds. -/
structure Task (α : Type) where
  /-- How far it has come. -/
  stage : Stage α
  /-- The copy of the tables in its unit of work. -/
  unit : Option Tables

/-- The store that the tasks share. -/
structure Store (ι : Type) where
  /-- The committed tables. -/
  tables : Tables
  /-- The faults, races and touched balances. -/
  probes : Probes
  /-- The task that holds the lock. -/
  holder : Option ι

/-- The store after a task was dropped, and the lock with it if the task held it. -/
def Store.leave {ι : Type} [DecidableEq ι] (s : Store ι) (i : ι) : Store ι :=
  if s.holder = some i then { s with holder := none } else s

/-- What an act shows of itself. -/
inductive Event where
  /-- Nothing of interest. -/
  | silent
  /-- A unit of work was opened. -/
  | opened
  /-- A query was answered inside the unit of work. -/
  | asked (now : Timestamp) (query : Query) (answer : Except Refusal query.Answer)
  /-- A deadline came. -/
  | cutOff
  /-- The unit of work was published. -/
  | published
  /-- The unit of work was taken back, or could not be published. -/
  | discarded
  /-- The task was dropped, with its unit of work. -/
  | dropped
  /-- A direct write was done. -/
  | wrote (now : Timestamp) (write : Direct)

variable {ι α : Type}

/-- What follows an answer.  A sum that outgrew a decimal ends the job. -/
def goOn {q : Query} (next : Timed (Except StoreError q.Answer) → Job α) :
    Except Refusal q.Answer → Job α
  | .ok a => next (.ended (.ok a))
  | .error (.refused e) => next (.ended (.error e))
  | .error .overflow => .done .overflow

variable [DecidableEq ι]

/-- What a task can do next, with the store before and after it. -/
inductive Act (i : ι) : Store ι → Task α → Event → Store ι → Task α → Prop where
  | log : Act i s ⟨.ready (.log event rest), u⟩ .silent s ⟨.ready rest, u⟩
  | clock (now : Nat) : Act i s ⟨.ready (.clock next), u⟩ .silent s ⟨.ready (next now), u⟩
  | refused (htrip : s.probes.trip .begin = (true, p)) :
      Act i s ⟨.ready (.begin d next), u⟩ .silent { s with probes := p }
        ⟨.ready (next (.ended (.error (injected .begin)))), u⟩
  | admitted (htrip : s.probes.trip .begin = (false, p)) :
      Act i s ⟨.ready (.begin d next), u⟩ .silent { s with probes := p } ⟨.waiting d next, u⟩
  | late :
      Act i s ⟨.ready (.begin (some d) next), u⟩ .cutOff s ⟨.ready (next (.cutOff d.limit)), u⟩
  | opened (hfree : s.holder = none) :
      Act i s ⟨.waiting d next, u⟩ .opened { s with holder := some i }
        ⟨.ready (next (.ended (.ok ()))), some s.tables⟩
  | notInTime : Act i s ⟨.waiting (some d) next, u⟩ .cutOff s ⟨.ready (next (.cutOff d.limit)), u⟩
  | asked (now : Timestamp) (hperform : (perform now q).run ⟨t, s.probes⟩ = (r, ⟨t', p⟩)) :
      Act i s ⟨.ready (.call d q next), some t⟩ (.asked now q r) { s with probes := p }
        ⟨.ready (goOn next r), some t'⟩
  | cutOff :
      Act i s ⟨.ready (.call (some d) q next), u⟩ .cutOff s ⟨.ready (next (.cutOff d.limit)), u⟩
  | paused : Act i s ⟨.ready (.pause d ms next), u⟩ .silent s ⟨.ready (next (.ended ())), u⟩
  | pauseCutOff :
      Act i s ⟨.ready (.pause (some d) ms next), u⟩ .cutOff s ⟨.ready (next (.cutOff d.limit)), u⟩
  | committed (htrip : s.probes.trip .commit = (false, p)) :
      Act i s ⟨.ready (.commit next), some t⟩ .published ⟨t, p, none⟩
        ⟨.ready (next (.ok ())), none⟩
  | notCommitted (htrip : s.probes.trip .commit = (true, p)) :
      Act i s ⟨.ready (.commit next), some t⟩ .discarded ⟨s.tables, p, none⟩
        ⟨.ready (next (.error (injected .commit))), none⟩
  | rolledBack (htrip : s.probes.trip .rollback = (fails, p)) :
      Act i s ⟨.ready (.rollback next), some t⟩ .discarded ⟨s.tables, p, none⟩
        ⟨.ready (next (if fails then .error (injected .rollback) else .ok ())), none⟩
  | dropped : Act i s ⟨stage, u⟩ .dropped (s.leave i) ⟨.gone, none⟩
  | taken (hfree : s.holder = none) :
      Act i s ⟨.direct write, none⟩ .silent { s with holder := some i } ⟨.writing write, none⟩
  | wrote (now : Timestamp) :
      Act i s ⟨.writing write, none⟩ (.wrote now write) ⟨write.run now s.tables, s.probes, none⟩
        ⟨.gone, none⟩

/-- A store with the tasks that share it. -/
structure System (ι : Type) (α : ι → Type) where
  /-- The store. -/
  store : Store ι
  /-- The tasks. -/
  task : (i : ι) → Task (α i)

/-- What happened, latest first, and to whom. -/
abbrev Trace (ι : Type) := List (ι × Event)

variable {α : ι → Type}

/-- The system after an act of one task. -/
def System.update (s : System ι α) (i : ι) (store : Store ι) (task : Task (α i)) : System ι α :=
  ⟨store, Function.update s.task i task⟩

@[simp] theorem System.store_update (s : System ι α) (i : ι) (store : Store ι)
    (task : Task (α i)) : (s.update i store task).store = store := rfl

@[simp] theorem System.task_update_self (s : System ι α) (i : ι) (store : Store ι)
    (task : Task (α i)) : (s.update i store task).task i = task := by
  simp only [System.update, Function.update_self]

theorem System.task_update_of_ne {i j : ι} (hne : j ≠ i) (s : System ι α) (store : Store ι)
    (task : Task (α i)) : (s.update i store task).task j = s.task j := by
  simp only [System.update, Function.update_of_ne hne]

/-- Any interleaving of the acts of the tasks, with its trace. -/
inductive Run (s₀ : System ι α) : Trace ι → System ι α → Prop where
  | start : Run s₀ [] s₀
  | act {i : ι} {store : Store ι} {task : Task (α i)} (hrun : Run s₀ es s)
      (hact : Act i s.store (s.task i) e store task) :
      Run s₀ ((i, e) :: es) (s.update i store task)

/-- No task has begun. -/
structure System.Fresh (s : System ι α) : Prop where
  free : s.store.holder = none
  closed : ∀ i, (s.task i).unit = none
  idle : ∀ i write, (s.task i).stage ≠ .writing write

/-! ## The lock -/

/-- Whether a task is where only the holder of the lock can be. -/
def Task.Locks {β : Type} (task : Task β) : Prop :=
  task.unit.isSome = true ∨ ∃ write, task.stage = .writing write

theorem Task.locks_some {β : Type} {stage : Stage β} {t : Tables} :
    (⟨stage, some t⟩ : Task β).Locks := .inl rfl

theorem Task.not_locks_ready {β : Type} {job : Job β} : ¬ (⟨.ready job, none⟩ : Task β).Locks := by
  rintro (h | ⟨write, h⟩)
  · cases h
  · cases h

theorem Task.not_locks_gone {β : Type} : ¬ (⟨.gone, none⟩ : Task β).Locks := by
  rintro (h | ⟨write, h⟩)
  · cases h
  · cases h

/-- What an act of a task can do to the lock, and what comes of it for the tables. -/
inductive OnLock (i : ι) (s s' : Store ι) (before after : Prop) : Prop where
  | kept (hholder : s'.holder = s.holder) (htables : s'.tables = s.tables)
      (hlocks : after → before)
  | taken (hfree : s.holder = none) (hholder : s'.holder = some i) (htables : s'.tables = s.tables)
  | released (hlocks : before) (hholder : s'.holder = none) (hafter : ¬ after)
  | left (hstore : s' = s.leave i) (hafter : ¬ after)

section Act

variable {β : Type} {i : ι} {s s' : Store ι} {task task' : Task β} {e : Event}

theorem Act.onLock (h : Act i s task e s' task') : OnLock i s s' task.Locks task'.Locks := by
  have hready : ∀ {stage : Stage β} {job : Job β} {u : Option Tables},
      (⟨.ready job, u⟩ : Task β).Locks → (⟨stage, u⟩ : Task β).Locks :=
    fun hlocks => .inl (hlocks.resolve_right nofun)
  cases h with
  | log => exact .kept rfl rfl hready
  | clock => exact .kept rfl rfl hready
  | refused => exact .kept rfl rfl hready
  | admitted => exact .kept rfl rfl fun hlocks => .inl (hlocks.resolve_right nofun)
  | opened hfree => exact .taken hfree rfl rfl
  | late => exact .kept rfl rfl hready
  | notInTime => exact .kept rfl rfl hready
  | asked => exact .kept rfl rfl fun _ => .inl rfl
  | cutOff => exact .kept rfl rfl hready
  | paused => exact .kept rfl rfl hready
  | pauseCutOff => exact .kept rfl rfl hready
  | committed => exact .released Task.locks_some rfl Task.not_locks_ready
  | notCommitted => exact .released Task.locks_some rfl Task.not_locks_ready
  | rolledBack => exact .released Task.locks_some rfl Task.not_locks_ready
  | dropped => exact .left rfl Task.not_locks_gone
  | taken hfree => exact .taken hfree rfl rfl
  | wrote => exact .released (.inr ⟨_, rfl⟩) rfl Task.not_locks_gone

/-- An act leaves its task with the lock, or needing none. -/
theorem Act.locks (h : Act i s task e s' task') (hlock : task.Locks → s.holder = some i)
    (hlocks : task'.Locks) : s'.holder = some i := by
  cases h.onLock with
  | kept hholder _ hbefore => rw [hholder, hlock (hbefore hlocks)]
  | taken _ hholder _ => exact hholder
  | released _ _ hafter => exact absurd hlocks hafter
  | left _ hafter => exact absurd hlocks hafter

/-- An act leaves the lock with whoever else holds it. -/
theorem Act.holder_of_ne {j : ι} (h : Act i s task e s' task')
    (hlock : task.Locks → s.holder = some i) (hj : s.holder = some j) (hne : j ≠ i) :
    s'.holder = some j := by
  have hnot : s.holder ≠ some i := fun hi => hne (Option.some.inj (hj.symm.trans hi))
  cases h.onLock with
  | kept hholder _ _ => rw [hholder, hj]
  | taken hfree _ _ =>
      rw [hj] at hfree
      cases hfree
  | released hlocks _ _ => exact absurd (hlock hlocks) hnot
  | left hstore _ => rw [hstore, Store.leave, if_neg hnot, hj]

/-- Only the holder of the lock changes what is committed. -/
theorem Act.tables_of_not_locks (h : Act i s task e s' task') (hnot : ¬ task.Locks) :
    s'.tables = s.tables := by
  cases h.onLock with
  | kept _ htables _ => exact htables
  | taken _ _ htables => exact htables
  | released hlocks _ _ => exact absurd hlocks hnot
  | left hstore _ =>
      rw [hstore, Store.leave]
      split <;> rfl

end Act

/-- Whoever holds a unit of work or writes has the lock to itself. -/
def System.Exclusive (s : System ι α) : Prop :=
  ∀ i, (s.task i).Locks → s.store.holder = some i

theorem System.Exclusive.act {s : System ι α} {i : ι} {e : Event} {store : Store ι}
    {task : Task (α i)} (hs : s.Exclusive) (h : Act i s.store (s.task i) e store task) :
    (s.update i store task).Exclusive := by
  intro j hlocks
  by_cases hji : j = i
  · subst hji
    rw [System.task_update_self] at hlocks
    exact h.locks (hs j) hlocks
  · rw [System.task_update_of_ne hji] at hlocks
    exact h.holder_of_ne (hs i) (hs j hlocks) hji

theorem Run.exclusive {s₀ s : System ι α} {es : Trace ι} (h : Run s₀ es s) (hs : s₀.Fresh) :
    s.Exclusive := by
  induction h with
  | start =>
      rintro i (hunit | ⟨write, hstage⟩)
      · rw [hs.closed i] at hunit
        cases hunit
      · exact absurd hstage (hs.idle i write)
  | act _ hact ih => exact ih.act hact

/-! ## Schedules -/

/-- What a task does next that is neither cut off nor dropped, if it does not have to wait. -/
def Task.next? {β : Type} (i : ι) (s : Store ι) : Task β → Option (Event × Store ι × Task β)
  | ⟨.ready (.log _ rest), u⟩ => some (.silent, s, ⟨.ready rest, u⟩)
  | ⟨.ready (.clock next), u⟩ => some (.silent, s, ⟨.ready (next 0), u⟩)
  | ⟨.ready (.begin d next), u⟩ =>
    match s.probes.trip .begin with
    | (true, p) =>
      some (.silent, { s with probes := p },
        ⟨.ready (next (.ended (.error (injected .begin)))), u⟩)
    | (false, p) => some (.silent, { s with probes := p }, ⟨.waiting d next, u⟩)
  | ⟨.waiting _ next, _⟩ =>
    match s.holder with
    | none =>
      some (.opened, { s with holder := some i }, ⟨.ready (next (.ended (.ok ()))), some s.tables⟩)
    | some _ => none
  | ⟨.ready (.call _ q next), some t⟩ =>
    match (perform .epoch q).run ⟨t, s.probes⟩ with
    | (r, ⟨t', p⟩) =>
      some (.asked .epoch q r, { s with probes := p }, ⟨.ready (goOn next r), some t'⟩)
  | ⟨.ready (.pause _ _ next), u⟩ => some (.silent, s, ⟨.ready (next (.ended ())), u⟩)
  | ⟨.ready (.commit next), some t⟩ =>
    match s.probes.trip .commit with
    | (false, p) => some (.published, ⟨t, p, none⟩, ⟨.ready (next (.ok ())), none⟩)
    | (true, p) =>
      some (.discarded, ⟨s.tables, p, none⟩, ⟨.ready (next (.error (injected .commit))), none⟩)
  | ⟨.ready (.rollback next), some _⟩ =>
    match s.probes.trip .rollback with
    | (fails, p) =>
      some (.discarded, ⟨s.tables, p, none⟩,
        ⟨.ready (next (if fails then .error (injected .rollback) else .ok ())), none⟩)
  | ⟨.direct write, none⟩ =>
    match s.holder with
    | none => some (.silent, { s with holder := some i }, ⟨.writing write, none⟩)
    | some _ => none
  | ⟨.writing write, none⟩ =>
    some (.wrote .epoch write, ⟨write.run .epoch s.tables, s.probes, none⟩, ⟨.gone, none⟩)
  | _ => none

theorem Task.act_of_next? {β : Type} {i : ι} {s s' : Store ι} {task task' : Task β} {e : Event}
    (h : task.next? i s = some (e, s', task')) : Act i s task e s' task' := by
  unfold next? at h
  split at h
  · cases h; exact .log
  · cases h; exact .clock 0
  · split at h
    · cases h; exact .refused ‹_›
    · cases h; exact .admitted ‹_›
  · split at h
    · cases h; exact .opened ‹_›
    · cases h
  · split at h
    cases h; exact .asked .epoch ‹_›
  · cases h; exact .paused
  · split at h
    · cases h; exact .committed ‹_›
    · cases h; exact .notCommitted ‹_›
  · split at h
    cases h; exact .rolledBack ‹_›
  · split at h
    · cases h; exact .taken ‹_›
    · cases h
  · cases h; exact .wrote .epoch
  · cases h

/-- Lets tasks act in the order of a list, the last of it first.  Whoever has to wait is passed
over. -/
def play (s₀ : System ι α) : List ι → Trace ι × System ι α
  | [] => ([], s₀)
  | i :: rest =>
    let (es, s) := play s₀ rest
    match (s.task i).next? i s.store with
    | some (e, store, task) => ((i, e) :: es, s.update i store task)
    | none => (es, s)

theorem run_play (s₀ : System ι α) (is : List ι) : Run s₀ (play s₀ is).1 (play s₀ is).2 := by
  induction is with
  | nil => exact .start
  | cons i rest ih =>
      simp only [play]
      split
      · rename_i h
        exact ih.act (Task.act_of_next? h)
      · exact ih

end FundsTransfer.Sharing
