import FundsTransfer.Proofs.Locking.Waiting
import FundsTransfer.Proofs.Work.Publishing

/-!
# What one job can come to

While the others stand still, a job goes on as its store answers, as long as it locks no
row that they hold: `Task.Path`.  Such a path is one of the system as well, and a second
job can go on from there (`reaches_of_paths`).  And work that can succeed on the store, in
the sense of `Work.Ends`, leads along a path to what follows it.
-/

namespace FundsTransfer.Locking

variable {κ α β : Type} {row : Query → Option κ} {store : RowStore row} {c locked own own' : Set κ}

/-- Steps of one job while the others stand still and nothing is committed. -/
abbrev Task.Path (store : RowStore row) (c locked : Set κ) : Task κ α → Task κ α → Prop :=
  Relation.ReflTransGen fun t t' => t.Step store c locked c t'

/-- The answers that a unit of work can get without waiting.  Its state is the rows it holds. -/
def RowStore.free (store : RowStore row) (c locked : Set κ) : Answering (Set κ) :=
  fun own q r own' => (∀ k, row q = some k → k ∉ locked) ∧ store.answers c own q r own'

/-- Work that can succeed leads to what follows it. -/
theorem path_of_ends {γ : Type} {d : Option Deadline} {w : Work α} {a : α} {f : α → Work β}
    {k : Except TransferError β → Job γ} (h : w.Ends (store.free c locked) own (.ok a) own') :
    Task.Path store c locked ⟨Job.within d (w >>= f) k, own⟩ ⟨Job.within d (f a) k, own'⟩ := by
  induction w generalizing own with
  | done b =>
      obtain ⟨ha, rfl⟩ := h
      cases ha
      exact .refl
  | fail e => cases h.1
  | overflow => cases h.1
  | log event rest ih => exact .head .log (ih h)
  | pause ms rest ih => exact .head .paused (ih h)
  | call q next ih =>
      obtain ⟨r, own₁, ⟨hfree, hanswer⟩, h⟩ := h
      rw [Work.call_bind, Job.within]
      exact .head (.answered hfree hanswer) (ih r h)

/-- A unit of work can be opened. -/
theorem path_execute_andThen {limit : Option Duration} {work : Work α}
    {k : Except TransferError α → Job β} :
    ∃ d, Task.Path store c locked ⟨(Job.execute limit work).andThen k, own⟩
      ⟨Job.within d work fun r => (Job.settle r).andThen k, own⟩ := by
  refine ⟨limit.map fun l => ⟨0 + l.nanoseconds, l⟩, ?_⟩
  rw [← Job.within_andThen]
  exact .head (.clock 0) (.head (.begun (.ok ())) .refl)

/-- Work that can come to hold some rows and to ask for another one, whatever follows it. -/
def CanWant (store : RowStore row) (c locked own : Set κ) (w : Work α) (own' : Set κ) (k : κ) :
    Prop :=
  ∀ (β γ : Type) (d : Option Deadline) (f : α → Work β) (next : Except TransferError β → Job γ),
    ∃ t, Task.Path store c locked ⟨Job.within d (w >>= f) next, own⟩ t ∧ t.rows = own' ∧
      t.Wants row k

theorem CanWant.bind {w : Work α} {f : α → Work β} {k : κ}
    (h : CanWant store c locked own w own' k) : CanWant store c locked own (w >>= f) own' k := by
  intro β γ d g next
  rw [Work.bind_assoc]
  exact h β γ d _ next

/-- Work that can succeed comes to what the work after it comes to. -/
theorem canWant_bind_of_ends {w : Work α} {a : α} {f : α → Work β} {own₁ : Set κ} {k : κ}
    (hw : w.Ends (store.free c locked) own (.ok a) own₁)
    (hf : CanWant store c locked own₁ (f a) own' k) :
    CanWant store c locked own (w >>= f) own' k := by
  intro β γ d g next
  rw [Work.bind_assoc]
  obtain ⟨t, hpath, hrest⟩ := hf β γ d g next
  exact ⟨t, (path_of_ends hw).trans hpath, hrest⟩

/-- A unit of work comes to what its work comes to. -/
theorem CanWant.execute_andThen {limit : Option Duration} {w : Work α}
    {next : Except TransferError α → Job β} {k : κ} (h : CanWant store c locked own w own' k) :
    ∃ t, Task.Path store c locked ⟨(Job.execute limit w).andThen next, own⟩ t ∧ t.rows = own' ∧
      t.Wants row k := by
  obtain ⟨d, hopen⟩ := path_execute_andThen
  obtain ⟨t, hpath, hrest⟩ := h α _ d .done fun r => (Job.settle r).andThen next
  rw [Work.bind_done] at hpath
  exact ⟨t, hopen.trans hpath, hrest⟩

variable {ι : Type} {α : ι → Type} [DecidableEq ι]

theorem System.lockedByOthers_update (s : System ι κ α) (c : Set κ) (i : ι) (t : Task κ (α i)) :
    (s.update c i t).lockedByOthers i = s.lockedByOthers i := by
  ext k
  constructor
  · rintro ⟨j, hji, hk⟩
    rw [task_update_of_ne hji] at hk
    exact ⟨j, hji, hk⟩
  · rintro ⟨j, hji, hk⟩
    rw [← task_update_of_ne hji s c t] at hk
    exact ⟨j, hji, hk⟩

/-- A path of one job is one of the system, in which the others stand still. -/
theorem reaches_of_path {s : System ι κ α} {i : ι} {t : Task κ (α i)}
    (h : Task.Path store s.committed (s.lockedByOthers i) (s.task i) t) :
    s.Reaches store (s.update s.committed i t) := by
  induction h with
  | refl =>
      rw [System.update, Function.update_eq_self]
  | @tail t t' _ hstep ih =>
      have hnext : ((s.update s.committed i t).task i).Step store
          (s.update s.committed i t).committed ((s.update s.committed i t).lockedByOthers i)
          s.committed t' := by
        rw [System.task_update_self, System.committed_update, System.lockedByOthers_update]
        exact hstep
      have hlast := ih.tail (.intro i hnext)
      rw [System.update, System.update, Function.update_idem] at hlast
      exact hlast

/-- A path of one job, and then a path of another one past the rows that the first one holds, lead
to a state of the system. -/
theorem reaches_of_paths (job : (i : ι) → Job (α i)) {i j : ι} (hne : i ≠ j)
    {t : Task κ (α i)} {t' : Task κ (α j)} (h : Task.Path store c ∅ ⟨job i, ∅⟩ t)
    (h' : Task.Path store c t.rows ⟨job j, ∅⟩ t') :
    ∃ s, (System.start c job).Reaches store s ∧ s.task i = t ∧ s.task j = t' := by
  let s₀ : System ι κ α := System.start c job
  have hfirst : s₀.Reaches store (s₀.update c i t) := by
    refine reaches_of_path (s := s₀) ?_
    have hnone : s₀.lockedByOthers i = ∅ := Set.eq_empty_of_forall_notMem fun _ ⟨_, _, h⟩ => h
    rw [hnone]
    exact h
  have hsecond : (s₀.update c i t).Reaches store ((s₀.update c i t).update c j t') := by
    refine reaches_of_path (s := s₀.update c i t) ?_
    -- the other jobs have not begun, so only the first one's rows are locked for the second one
    have hlocked : (s₀.update c i t).lockedByOthers j = t.rows := by
      ext k
      constructor
      · rintro ⟨l, hlj, hl⟩
        by_cases hli : l = i
        · subst hli
          rw [System.task_update_self] at hl
          exact hl
        · rw [System.task_update_of_ne hli] at hl
          exact hl.elim
      · intro hk
        refine ⟨i, hne, ?_⟩
        rw [System.task_update_self]
        exact hk
    rw [hlocked, System.task_update_of_ne hne.symm]
    exact h'
  refine ⟨_, hfirst.trans hsecond, ?_, System.task_update_self _ c j t'⟩
  rw [System.task_update_of_ne hne, System.task_update_self]

end FundsTransfer.Locking
