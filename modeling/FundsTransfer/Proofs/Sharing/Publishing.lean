import FundsTransfer.Proofs.Sharing.History
import FundsTransfer.Proofs.Transfer.Movement

/-!
# Tasks that publish once

Let every task do everything in one unit of work (`Job.Transacts`).  Then a task publishes
at most once, and it returns a value exactly when it did, unless it was dropped.  The
tasks that published did so one after another, each from the tables that the one before
it committed: whatever else goes on, between the opening of a unit of work and its end
the committed tables stay what they were.

`Underway` is what holds of one task and `System.Published` of all of them.  Both are kept
by every act.
-/

namespace FundsTransfer.Sharing

open Memory

variable {ι : Type}

/-- The tasks that published, oldest first, with every time that they did. -/
def publishers : Trace ι → List ι
  | [] => []
  | (i, .published) :: past => publishers past ++ [i]
  | _ :: past => publishers past

@[simp] theorem publishers_published (i : ι) (past : Trace ι) :
    publishers ((i, .published) :: past) = publishers past ++ [i] := rfl

theorem publishers_of_ne {e : Event} (h : e ≠ .published) (i : ι) (past : Trace ι) :
    publishers ((i, e) :: past) = publishers past := by
  cases e with
  | published => exact absurd rfl h
  | _ => rfl

/-! ## One task -/

section Task

variable {β : Type} {post : Tables → Tables → β → Prop} {c c' : Tables} {published : Prop}

/-- A task that does everything in one unit of work and has not ended it, next to the committed
tables. -/
inductive Transacting (post : Tables → Tables → β → Prop) (c : Tables) : Task β → Prop where
  | closed (hjob : job.Transacts Answered Tables.Intact post none) :
      Transacting post c ⟨.ready job, none⟩
  | waiting (hjob : (Job.begin d next).Transacts Answered Tables.Intact post none) :
      Transacting post c ⟨.waiting d next, none⟩
  | opened (hjob : job.Transacts Answered Tables.Intact post (some (c, t))) :
      Transacting post c ⟨.ready job, some t⟩

/-- What an act comes to for such a task: it has not ended the unit of work, it returns an error or
was dropped, or it has committed what goes with the value that it will return. -/
inductive Turned (post : Tables → Tables → β → Prop) (s s' : Store ι) (e : Event) :
    Task β → Prop where
  | going (hne : e ≠ .published) (htables : s'.tables = s.tables)
      (htask : Transacting post s'.tables task) : Turned post s s' e task
  | failed (hne : e ≠ .published) (htables : s'.tables = s.tables)
      (hjob : job.Returns (.error error)) : Turned post s s' e ⟨.ready job, none⟩
  | gone (hne : e ≠ .published) (htables : s'.tables = s.tables) :
      Turned post s s' e ⟨.gone, none⟩
  | published (he : e = .published) (hpost : post s.tables s'.tables a)
      (hjob : job.Returns (.ok a)) : Turned post s s' e ⟨.ready job, none⟩

/-- What follows an answer, or the overflow of a sum. -/
theorem transacts_goOn {q : Query} {next : Timed (Except StoreError q.Answer) → Job β}
    {r : Except Refusal q.Answer} {u : Option (Tables × Tables)}
    (hr : ∀ answer, r = Except.mapError Refusal.refused answer →
      (next (.ended answer)).Transacts Answered Tables.Intact post u) :
    (goOn next r).Transacts Answered Tables.Intact post u := by
  cases r with
  | ok a => exact hr (.ok a) rfl
  | error refusal =>
      cases refusal with
      | refused e => exact hr (.error e) rfl
      | overflow => exact nofun

theorem Transacting.act [DecidableEq ι] {i : ι} {s s' : Store ι} {task task' : Task β} {e : Event}
    (ht : Transacting post s.tables task) (hs : s.tables.Intact)
    (hunit : ∀ t ∈ task.unit, t.Intact) (h : Act i s task e s' task') :
    Turned post s s' e task' := by
  cases ht with
  | waiting hjob =>
      cases h with
      | opened hfree => exact .going nofun rfl (.opened (hjob.2.1 _ hs))
      | notInTime => exact .failed nofun rfl (hjob.2.2.2 _)
      | dropped => exact .gone nofun (s.tables_leave i)
  | closed hjob =>
      cases h with
      | log => exact .going nofun rfl (.closed hjob)
      | clock now => exact .going nofun rfl (.closed (hjob now))
      | refused => exact .failed nofun rfl (hjob.2.2.1 _)
      | admitted => exact .going nofun rfl (.waiting hjob)
      | late => exact .failed nofun rfl (hjob.2.2.2 _)
      | cutOff =>
          obtain ⟨c, t, hnone, -⟩ := hjob
          cases hnone
      | paused => exact .going nofun rfl (.closed (hjob _))
      | pauseCutOff => exact .going nofun rfl (.closed (hjob _))
      | dropped => exact .gone nofun (s.tables_leave i)
  | @opened job t hjob =>
      cases h with
      | log => exact .going nofun rfl (.opened hjob)
      | clock now => exact .going nofun rfl (.opened (hjob now))
      | refused => exact absurd hjob.1 nofun
      | admitted => exact absurd hjob.1 nofun
      | late => exact absurd hjob.1 nofun
      | asked now hperform =>
          obtain ⟨c, t₁, hsome, hanswer, -⟩ := hjob
          cases hsome
          refine .going nofun rfl (.opened (transacts_goOn fun answer hr => ?_))
          exact hanswer _ _ ⟨hunit t rfl, now, _, _, hr ▸ hperform⟩
      | cutOff =>
          obtain ⟨c, t₁, hsome, -, hcut⟩ := hjob
          cases hsome
          exact .going nofun rfl (.opened (hcut _))
      | paused => exact .going nofun rfl (.opened (hjob _))
      | pauseCutOff => exact .going nofun rfl (.opened (hjob _))
      | committed =>
          obtain ⟨c, t₁, hsome, ⟨a, hreturns, hpost⟩, -⟩ := hjob
          cases hsome
          exact .published rfl hpost hreturns
      | notCommitted =>
          obtain ⟨c, t₁, hsome, -, herror⟩ := hjob
          exact .failed nofun rfl (herror _)
      | @rolledBack fails _ _ _ htrip =>
          obtain ⟨e, hreturns⟩ := hjob (if fails then .error (injected .rollback) else .ok ())
          exact .failed nofun rfl hreturns
      | dropped => exact .gone nofun (s.tables_leave i)

/-- A task that does everything in one unit of work, next to the committed tables, and whether it
has published. -/
inductive Underway (post : Tables → Tables → β → Prop) (c : Tables) (published : Prop) :
    Task β → Prop where
  | closed (hpublished : ¬ published) (hjob : job.Transacts Answered Tables.Intact post none) :
      Underway post c published ⟨.ready job, none⟩
  | waiting (hpublished : ¬ published)
      (hjob : (Job.begin d next).Transacts Answered Tables.Intact post none) :
      Underway post c published ⟨.waiting d next, none⟩
  | opened (hpublished : ¬ published)
      (hjob : job.Transacts Answered Tables.Intact post (some (c, t))) :
      Underway post c published ⟨.ready job, some t⟩
  | returned {r : Except TransferError β} (hpublished : published ↔ ∃ a, r = .ok a)
      (hjob : job.Returns r) : Underway post c published ⟨.ready job, none⟩
  | gone : Underway post c published ⟨.gone, none⟩

/-- What others commit matters to nobody who holds no unit of work. -/
theorem Underway.other {task : Task β} (h : Underway post c published task)
    (hc : c' = c ∨ task.unit = none) : Underway post c' published task := by
  cases h with
  | closed hpublished hjob => exact .closed hpublished hjob
  | waiting hpublished hjob => exact .waiting hpublished hjob
  | opened hpublished hjob =>
      obtain rfl | hunit := hc
      · exact .opened hpublished hjob
      · cases hunit
  | returned hpublished hjob => exact .returned hpublished hjob
  | gone => exact .gone

theorem Underway.congr {published' : Prop} (hiff : published' ↔ published) {task : Task β}
    (h : Underway post c published task) : Underway post c published' task :=
  propext hiff ▸ h

theorem underway_error {e : TransferError} {job : Job β} (hpublished : ¬ published)
    (hjob : job.Returns (.error e)) : Underway post c published ⟨.ready job, none⟩ := by
  refine .returned ⟨fun h => absurd h hpublished, ?_⟩ hjob
  rintro ⟨a, ha⟩
  cases ha

theorem Transacting.underway {task : Task β} (h : Transacting post c task)
    (hpublished : ¬ published) : Underway post c published task := by
  cases h with
  | closed hjob => exact .closed hpublished hjob
  | waiting hjob => exact .waiting hpublished hjob
  | opened hjob => exact .opened hpublished hjob

/-- A task that returned goes on to nothing but events. -/
theorem Act.returned [DecidableEq ι] {i : ι} {s s' : Store ι} {e : Event} {job : Job β}
    {task' : Task β} {r : Except TransferError β} (hjob : job.Returns r)
    (h : Act i s ⟨.ready job, none⟩ e s' task') :
    e ≠ .published ∧ s'.tables = s.tables ∧
      ((∃ job', task' = ⟨.ready job', none⟩ ∧ job'.Returns r) ∨ task' = ⟨.gone, none⟩) := by
  cases h with
  | log => exact ⟨nofun, rfl, .inl ⟨_, rfl, hjob⟩⟩
  | dropped => exact ⟨nofun, s.tables_leave i, .inr rfl⟩
  | _ => exact hjob.elim

/-- What an act comes to for a task that does everything in one unit of work: it commits nothing, or
it commits for the first time, what goes with the value that it will return. -/
theorem Underway.act [DecidableEq ι] {i : ι} {s s' : Store ι} {task task' : Task β} {e : Event}
    (hu : Underway post s.tables published task) (hs : s.tables.Intact)
    (hunit : ∀ t ∈ task.unit, t.Intact) (h : Act i s task e s' task') :
    (e ≠ .published ∧ s'.tables = s.tables ∧ Underway post s'.tables published task') ∨
      (e = .published ∧ ¬ published ∧ (∃ a, post s.tables s'.tables a) ∧
        Underway post s'.tables True task') := by
  have hturned : Transacting post s.tables task → ¬ published →
      (e ≠ .published ∧ s'.tables = s.tables ∧ Underway post s'.tables published task') ∨
        (e = .published ∧ ¬ published ∧ (∃ a, post s.tables s'.tables a) ∧
          Underway post s'.tables True task') := by
    intro htask hpublished
    cases htask.act hs hunit h with
    | going hne htables htask' => exact .inl ⟨hne, htables, htask'.underway hpublished⟩
    | failed hne htables hjob => exact .inl ⟨hne, htables, underway_error hpublished hjob⟩
    | gone hne htables => exact .inl ⟨hne, htables, .gone⟩
    | @published a _ he hpost hjob =>
        exact .inr ⟨he, hpublished, ⟨a, hpost⟩,
          .returned ⟨fun _ => ⟨a, rfl⟩, fun _ => trivial⟩ hjob⟩
  cases hu with
  | gone =>
      cases h
      exact .inl ⟨nofun, s.tables_leave i, .gone⟩
  | returned hpublished hjob =>
      obtain ⟨hne, htables, ⟨job', rfl, hjob'⟩ | rfl⟩ := h.returned hjob
      · exact .inl ⟨hne, htables, .returned hpublished hjob'⟩
      · exact .inl ⟨hne, htables, .gone⟩
  | waiting hpublished hjob => exact hturned (.waiting hjob) hpublished
  | closed hpublished hjob => exact hturned (.closed hjob) hpublished
  | opened hpublished hjob => exact hturned (.opened hjob) hpublished

end Task

/-! ## All tasks -/

variable {α : ι → Type}

/-- Tables that tasks committed one after another, each from what the one before it left. -/
inductive Posts (post : (i : ι) → Tables → Tables → α i → Prop) (t₀ : Tables) :
    List ι → Tables → Prop where
  | none : Posts post t₀ [] t₀
  | next {i : ι} {a : α i} {t t' : Tables} (h : Posts post t₀ order t) (hpost : post i t t' a) :
      Posts post t₀ (order ++ [i]) t'

variable [DecidableEq ι] {post : (i : ι) → Tables → Tables → α i → Prop} {t₀ : Tables}

/-- Whoever commits has the lock, and then the others hold no unit of work. -/
theorem System.Exclusive.others {s : System ι α} {i j : ι} {e : Event} {store : Store ι}
    {task : Task (α i)} (hs : s.Exclusive) (h : Act i s.store (s.task i) e store task)
    (hji : j ≠ i) : store.tables = s.store.tables ∨ (s.task j).unit = none := by
  cases hunit : (s.task j).unit with
  | none => exact .inr rfl
  | some t =>
      have hholder := hs j (.inl (by rw [hunit]; rfl))
      refine .inl (h.tables_of_not_locks fun hlocks => ?_)
      rw [hs i hlocks] at hholder
      exact hji (Option.some.inj hholder).symm

/-- Every task publishes once at most, and what is committed is what they published in turn. -/
structure System.Published (post : (i : ι) → Tables → Tables → α i → Prop) (t₀ : Tables)
    (es : Trace ι) (s : System ι α) : Prop where
  sound : s.Sound
  tasks (i : ι) : Underway (post i) s.store.tables (i ∈ publishers es) (s.task i)
  nodup : (publishers es).Nodup
  tables : Posts post t₀ (publishers es) s.store.tables

theorem System.Published.act {s : System ι α} {es : Trace ι} {i : ι} {e : Event}
    {store : Store ι} {task : Task (α i)} (hs : s.Published post t₀ es)
    (h : Act i s.store (s.task i) e store task) :
    (s.update i store task).Published post t₀ ((i, e) :: es) := by
  have hsound := (hs.sound.act h).1
  have hunit : ∀ t ∈ (s.task i).unit, t.Intact := fun t ht => (hs.sound.unit i t ht).1
  obtain ⟨hne, htables, hself⟩ | ⟨rfl, hfirst, ⟨a, hpost⟩, hself⟩ :=
    (hs.tasks i).act hs.sound.tables hunit h
  · have hsame := publishers_of_ne hne i es
    refine ⟨hsound, fun j => ?_, hsame ▸ hs.nodup, ?_⟩
    · rw [hsame]
      by_cases hji : j = i
      · subst hji
        rw [System.task_update_self]
        exact hself
      · rw [System.task_update_of_ne hji]
        exact (hs.tasks j).other (.inl htables)
    · rw [hsame, System.store_update, htables]
      exact hs.tables
  · refine ⟨hsound, fun j => ?_, ?_, hs.tables.next hpost⟩
    · by_cases hji : j = i
      · subst hji
        rw [System.task_update_self]
        refine hself.congr ⟨fun _ => trivial, fun _ => ?_⟩
        exact List.mem_append_right _ (List.mem_singleton_self j)
      · rw [System.task_update_of_ne hji]
        refine ((hs.tasks j).other (hs.sound.exclusive.others h hji)).congr ?_
        rw [publishers_published, List.mem_append, List.mem_singleton, or_iff_left hji]
    · exact List.nodup_append.2 ⟨hs.nodup, List.nodup_singleton i,
        fun a ha b hb hab => hfirst (List.mem_singleton.1 hb ▸ hab ▸ ha)⟩

theorem History.published {s₀ s : System ι α} {es : Trace ι} (h : History s₀ es s)
    (hs : s₀.Published post t₀ []) : s.Published post t₀ es :=
  h.preserves (I := fun es s => s.Published post t₀ es) (fun hact hs => hs.act hact)
    (fun hs => { hs with sound := { hs.sound with } }) hs

end FundsTransfer.Sharing
