import FundsTransfer.Work.Job
import Mathlib.Data.Set.Insert
import Mathlib.Logic.Function.Basic
import Mathlib.Logic.Relation

/-!
# Jobs that wait for rows

A database lets units of work run side by side and locks rows instead.  A query that
locks a row has to wait while another unit of work that is still open holds the row, and
the row stays locked until the unit of work ends.  A store is described here by the row
that each query locks and by the answers that a query can get (`RowStore`).  Everything
else about it is left open: it may refuse a request, a deadline may come, and a job may
be dropped at any time.

Jobs are deadlocked when some of them wait for each other in a circle.
`not_deadlocked` is the usual way to rule this out: no circle arises when every job
takes its rows in the order of a common rank.
-/

namespace FundsTransfer.Locking

variable {κ : Type} {row : Query → Option κ}

/-- A store in which some queries lock a row each, as the jobs that use it see it. -/
structure RowStore (row : Query → Option κ) where
  /-- The answers a query can get: from the rows that are committed and those that its unit of work
  holds, with those that it holds afterwards. -/
  answers : Set κ → Set κ → (q : Query) → Except StoreError q.Answer → Set κ → Prop
  /-- A unit of work gets hold of no other row. -/
  locks : ∀ {c own : Set κ} {q : Query} {r : Except StoreError q.Answer} {own' : Set κ},
    answers c own q r own' → ∀ k ∈ own', k ∈ own ∨ row q = some k

/-- A job on such a store. -/
structure Task (κ α : Type) where
  /-- What is left of the job. -/
  job : Job α
  /-- The rows that its unit of work holds. -/
  rows : Set κ

/-- What a job can do next, when some rows are committed and some are locked by others.  A job that
is dropped is one with nothing left to do. -/
inductive Task.Step {α : Type} (store : RowStore row) (c locked : Set κ) :
    Task κ α → Set κ → Task κ α → Prop where
  | log : Step store c locked ⟨.log event rest, own⟩ c ⟨rest, own⟩
  | clock (now : Nat) : Step store c locked ⟨.clock next, own⟩ c ⟨next now, own⟩
  | begun (r : Except StoreError Unit) :
      Step store c locked ⟨.begin d next, own⟩ c ⟨next (.ended r), own⟩
  | notInTime :
      Step store c locked ⟨.begin (some d) next, own⟩ c ⟨next (.cutOff d.limit), own⟩
  | answered (hfree : ∀ k, row q = some k → k ∉ locked)
      (hanswer : store.answers c own q r own') :
      Step store c locked ⟨.call d q next, own⟩ c ⟨next (.ended r), own'⟩
  | overflowed (hfree : ∀ k, row q = some k → k ∉ locked) :
      Step store c locked ⟨.call d q next, own⟩ c ⟨.done .overflow, own⟩
  | cutOff :
      Step store c locked ⟨.call (some d) q next, own⟩ c ⟨next (.cutOff d.limit), own⟩
  | paused : Step store c locked ⟨.pause d ms next, own⟩ c ⟨next (.ended ()), own⟩
  | pauseCutOff :
      Step store c locked ⟨.pause (some d) ms next, own⟩ c
        ⟨next (.cutOff d.limit), own⟩
  | committed :
      Step store c locked ⟨.commit next, own⟩ (c ∪ own) ⟨next (.ok ()), ∅⟩
  | notCommitted (e : StoreError) :
      Step store c locked ⟨.commit next, own⟩ c ⟨next (.error e), ∅⟩
  | rolledBack (r : Except StoreError Unit) :
      Step store c locked ⟨.rollback next, own⟩ c ⟨next r, ∅⟩
  | dropped (outcome : Outcome α) : Step store c locked ⟨rest, own⟩ c ⟨.done outcome, ∅⟩

variable {ι : Type} {α : ι → Type}

/-- Any number of jobs on one store. -/
structure System (ι κ : Type) (α : ι → Type) where
  /-- The rows that are committed. -/
  committed : Set κ
  /-- The jobs. -/
  task : (i : ι) → Task κ (α i)

/-- The jobs before their first step. -/
def System.start (c : Set κ) (job : (i : ι) → Job (α i)) : System ι κ α :=
  ⟨c, fun i => ⟨job i, ∅⟩⟩

/-- The rows that are locked by others. -/
def System.lockedByOthers (s : System ι κ α) (i : ι) : Set κ :=
  { k | ∃ j, j ≠ i ∧ k ∈ (s.task j).rows }

section Steps

variable [DecidableEq ι]

/-- The system after a step of one job. -/
def System.update (s : System ι κ α) (c : Set κ) (i : ι) (t : Task κ (α i)) : System ι κ α :=
  ⟨c, Function.update s.task i t⟩

@[simp] theorem System.committed_update (s : System ι κ α) (c : Set κ) (i : ι)
    (t : Task κ (α i)) : (s.update c i t).committed = c := rfl

@[simp] theorem System.task_update_self (s : System ι κ α) (c : Set κ) (i : ι)
    (t : Task κ (α i)) : (s.update c i t).task i = t := by
  simp only [System.update, Function.update_self]

theorem System.task_update_of_ne {i j : ι} (hne : j ≠ i) (s : System ι κ α) (c : Set κ)
    (t : Task κ (α i)) : (s.update c i t).task j = s.task j := by
  simp only [System.update, Function.update_of_ne hne]

/-- A step of one of the jobs. -/
inductive System.Step (store : RowStore row) : System ι κ α → System ι κ α → Prop where
  | intro (i : ι) {c : Set κ} {t : Task κ (α i)}
      (h : (s.task i).Step store s.committed (s.lockedByOthers i) c t) :
      Step store s (s.update c i t)

/-- Any interleaving of steps. -/
abbrev System.Reaches (store : RowStore row) : System ι κ α → System ι κ α → Prop :=
  Relation.ReflTransGen (System.Step store)

end Steps

/-- The job asks for a row next. -/
def Task.Wants {β : Type} (row : Query → Option κ) (t : Task κ β) (k : κ) : Prop :=
  ∃ d q next, t.job = .call d q next ∧ row q = some k

/-- A job waits for a row that another one holds. -/
def System.Waits (row : Query → Option κ) (s : System ι κ α) (i j : ι) : Prop :=
  i ≠ j ∧ ∃ k, (s.task i).Wants row k ∧ k ∈ (s.task j).rows

/-- Some jobs wait for each other in a circle. -/
def System.Deadlocked (row : Query → Option κ) (s : System ι κ α) : Prop :=
  ∃ i, Relation.TransGen (s.Waits row) i i

theorem Task.Step.committed_subset {β : Type} {store : RowStore row} {c c' locked : Set κ}
    {t t' : Task κ β} (h : t.Step store c locked c' t') : c ⊆ c' := by
  cases h with
  | committed => exact Set.subset_union_left
  | _ => exact Set.Subset.refl c

theorem Task.Wants.unique {β : Type} {t : Task κ β} {k k' : κ}
    (h : t.Wants row k) (h' : t.Wants row k') : k = k' := by
  obtain ⟨d, q, next, hjob, hrow⟩ := h
  obtain ⟨d', q', next', hjob', hrow'⟩ := h'
  rw [hjob] at hjob'
  cases hjob'
  rw [hrow] at hrow'
  exact Option.some.inj hrow'

end FundsTransfer.Locking

/-! ## Rows in order -/

namespace FundsTransfer

variable {κ α : Type}

/-- Which of the rows are still to come after a query.  Some may have been passed over. -/
def RowsAfter (row : Query → Option κ) (q : Query) (ks ks' : List κ) : Prop :=
  (row q = none ∧ ks' = ks) ∨ ∃ k, row q = some k ∧ k :: ks' <:+ ks

/-- Whatever happens, the job locks no rows but those of a list, in this order. -/
def Job.Takes (row : Query → Option κ) : Job α → List κ → Prop
  | .done _, _ => True
  | .log _ rest, ks => rest.Takes row ks
  | .clock next, ks => ∀ now, (next now).Takes row ks
  | .begin _ next, ks => ∀ r, (next r).Takes row ks
  | .call _ q next, ks => ∃ ks', RowsAfter row q ks ks' ∧ ∀ r, (next r).Takes row ks'
  | .pause _ _ next, ks => ∀ r, (next r).Takes row ks
  | .commit next, ks => ∀ r, (next r).Takes row ks
  | .rollback next, ks => ∀ r, (next r).Takes row ks

namespace Locking

variable {ι ο : Type} [Preorder ο] {α : ι → Type} {row : Query → Option κ} {store : RowStore row}
  {rank : κ → ο} {free : κ → Prop}

/-- The rows of a list ascend, leaving out those that nobody can get hold of. -/
def Ascends (rank : κ → ο) (free : κ → Prop) (ks : List κ) : Prop :=
  ks.Pairwise fun k k' => free k → free k' → rank k < rank k'

/-- All rows of a list that somebody can get hold of are above some row. -/
def Below (rank : κ → ο) (free : κ → Prop) (k : κ) (ks : List κ) : Prop :=
  ∀ k' ∈ ks, free k' → rank k < rank k'

/-- The rows still to come after a query, and the row it locks if it locks one. -/
theorem rowsAfter_cases {row : Query → Option κ} {q : Query} {ks ks' : List κ}
    (h : RowsAfter row q ks ks') (hks : Ascends rank free ks) :
    ks' ⊆ ks ∧ Ascends rank free ks' ∧
      ∀ k, row q = some k → k ∈ ks ∧ (free k → Below rank free k ks') := by
  obtain ⟨hrow, rfl⟩ | ⟨k, hrow, h⟩ := h
  · refine ⟨List.Subset.refl ks', hks, fun k hk => ?_⟩
    rw [hrow] at hk
    cases hk
  · have hcons := List.pairwise_cons.1 (hks.sublist h.sublist)
    refine ⟨fun k' hk' => h.subset (List.mem_cons_of_mem _ hk'), hcons.2, fun k₁ hk₁ => ?_⟩
    rw [hrow] at hk₁
    cases hk₁
    exact ⟨h.subset List.mem_cons_self, fun hfree k' hk' => hcons.1 k' hk' hfree⟩

/-- A job that has ascending rows still to take, all above those that it holds. -/
def Task.Ordered {β : Type} (row : Query → Option κ) (rank : κ → ο) (free : κ → Prop)
    (t : Task κ β) : Prop :=
  ∃ ks, t.job.Takes row ks ∧ Ascends rank free ks ∧
    ∀ k ∈ t.rows, free k ∧ Below rank free k ks

theorem Task.Ordered.step {β : Type} {c c' locked : Set κ} {t t' : Task κ β}
    (hnew : ∀ {own : Set κ} {q : Query} {r : Except StoreError q.Answer} {own' : Set κ},
      store.answers c own q r own' → ∀ k ∈ own', k ∈ own ∨ free k)
    (ht : t.Ordered row rank free) (h : t.Step store c locked c' t') :
    t'.Ordered row rank free := by
  obtain ⟨ks, hjob, hks, hrows⟩ := ht
  cases h with
  | log => exact ⟨ks, hjob, hks, hrows⟩
  | clock now => exact ⟨ks, hjob now, hks, hrows⟩
  | begun r => exact ⟨ks, hjob _, hks, hrows⟩
  | notInTime => exact ⟨ks, hjob _, hks, hrows⟩
  | answered _ hanswer =>
      obtain ⟨ks', hafter, hnext⟩ := hjob
      obtain ⟨hsub, hks', hrow⟩ := rowsAfter_cases hafter hks
      refine ⟨ks', hnext _, hks', fun k hk => ?_⟩
      obtain hold | hk := store.locks hanswer k hk
      · exact ⟨(hrows k hold).1, fun k' hk' => (hrows k hold).2 k' (hsub hk')⟩
      · obtain hold | hfree := hnew hanswer k ‹_›
        · exact ⟨(hrows k hold).1, (hrow k hk).2 (hrows k hold).1⟩
        · exact ⟨hfree, (hrow k hk).2 hfree⟩
  | overflowed => exact ⟨ks, trivial, hks, hrows⟩
  | cutOff =>
      obtain ⟨ks', hafter, hnext⟩ := hjob
      obtain ⟨hsub, hks', -⟩ := rowsAfter_cases hafter hks
      exact ⟨ks', hnext _, hks',
        fun k hk => ⟨(hrows k hk).1, fun k' hk' => (hrows k hk).2 k' (hsub hk')⟩⟩
  | paused => exact ⟨ks, hjob _, hks, hrows⟩
  | pauseCutOff => exact ⟨ks, hjob _, hks, hrows⟩
  | committed => exact ⟨ks, hjob _, hks, nofun⟩
  | notCommitted e => exact ⟨ks, hjob _, hks, nofun⟩
  | rolledBack r => exact ⟨ks, hjob _, hks, nofun⟩
  | dropped => exact ⟨ks, trivial, hks, nofun⟩

/-- A job waits for rows above those that it holds. -/
theorem Task.Ordered.rank_lt {β : Type} {t : Task κ β} {k k' : κ}
    (ht : t.Ordered row rank free) (hk : k ∈ t.rows) (hk' : t.Wants row k')
    (hfree : free k') : rank k < rank k' := by
  obtain ⟨ks, hjob, hks, hrows⟩ := ht
  obtain ⟨d, q, next, heq, hrow⟩ := hk'
  rw [heq] at hjob
  obtain ⟨ks', hafter, -⟩ := hjob
  exact (hrows k hk).2 k' ((rowsAfter_cases hafter hks).2.2 k' hrow).1 hfree

/-- Along a chain of waiting jobs the rows they wait for ascend. -/
theorem rank_lt_of_waiting {s : System ι κ α} {i j : ι}
    (hs : ∀ i, (s.task i).Ordered row rank free)
    (h : Relation.TransGen (s.Waits row) i j) {k' : κ} (hk' : (s.task j).Wants row k')
    (hfree : free k') : ∃ k, (s.task i).Wants row k ∧ rank k < rank k' := by
  induction h generalizing k' with
  | single h =>
      obtain ⟨-, k, hk, hheld⟩ := h
      exact ⟨k, hk, (hs _).rank_lt hheld hk' hfree⟩
  | @tail m j _ h ih =>
      obtain ⟨-, k₁, hk₁, hheld⟩ := h
      have hfree₁ : free k₁ := by
        obtain ⟨ks, -, -, hrows⟩ := hs j
        exact (hrows k₁ hheld).1
      obtain ⟨k, hk, hlt⟩ := ih hk₁ hfree₁
      exact ⟨k, hk, hlt.trans ((hs j).rank_lt hheld hk' hfree)⟩

theorem not_deadlocked_of_ordered {s : System ι κ α}
    (hs : ∀ i, (s.task i).Ordered row rank free) : ¬ s.Deadlocked row := by
  rintro ⟨i, h⟩
  obtain ⟨j, ⟨-, k', hk', hheld⟩, -⟩ := Relation.TransGen.head'_iff.1 h
  have hfree : free k' := by
    obtain ⟨ks, -, -, hrows⟩ := hs j
    exact (hrows k' hheld).1
  obtain ⟨k, hk, hlt⟩ := rank_lt_of_waiting hs h hk' hfree
  exact absurd hlt (hk.unique hk' ▸ lt_irrefl _)

/-- No jobs that take their rows in the order of a common rank wait for each other in a circle.
Rows that nobody can get hold of do not count. -/
theorem not_deadlocked [DecidableEq ι] {c : Set κ} {job : (i : ι) → Job (α i)} {s : System ι κ α}
    (hnew : ∀ {c' own : Set κ} {q : Query} {r : Except StoreError q.Answer} {own' : Set κ},
      c ⊆ c' → store.answers c' own q r own' → ∀ k ∈ own', k ∈ own ∨ free k)
    (hjob : ∀ i, ∃ ks, (job i).Takes row ks ∧ Ascends rank free ks)
    (h : (System.start c job).Reaches store s) : ¬ s.Deadlocked row := by
  suffices hs : c ⊆ s.committed ∧ ∀ i, (s.task i).Ordered row rank free from
    not_deadlocked_of_ordered hs.2
  induction h with
  | refl =>
      refine ⟨Set.Subset.refl c, fun i => ?_⟩
      obtain ⟨ks, htakes, hks⟩ := hjob i
      exact ⟨ks, htakes, hks, nofun⟩
  | tail _ h ih =>
      obtain ⟨hc, htasks⟩ := ih
      cases h with
      | intro i h =>
          refine ⟨hc.trans h.committed_subset, fun j => ?_⟩
          by_cases hji : j = i
          · subst hji
            rw [System.task_update_self]
            exact (htasks j).step (hnew hc) h
          · rw [System.task_update_of_ne hji]
            exact htasks j

end Locking

end FundsTransfer
