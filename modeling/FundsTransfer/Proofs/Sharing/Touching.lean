import FundsTransfer.Proofs.Locking.Transfers
import FundsTransfer.Proofs.Sharing.Run
import Mathlib.Data.List.Nodup

/-!
# The log of balances touched by sharing tasks

The store logs every balance that is touched, whoever touches it.  Let every task be one
that touches the balances of its plan one after the other as soon as it touches any.
Then the log is made of one piece for each task, `Tidy`: what a task touches stands
together, although others act in between, since between two touches its unit of work
stays open and holds the lock.  A piece is the whole plan, or the part of it at which
the task was refused, cut off or dropped, or has arrived.
-/

namespace FundsTransfer.Sharing

open Memory

/-- The balances that an act touches. -/
def Event.touches : Event → List Int
  | .asked _ q _ => (balanceOf q).toList
  | _ => []

variable {ι : Type} [DecidableEq ι]

/-- The balances that a task touched, oldest first. -/
def touchesBy (i : ι) : Trace ι → List Int
  | [] => []
  | (j, e) :: past => if j = i then touchesBy i past ++ e.touches else touchesBy i past

@[simp] theorem touchesBy_self (i : ι) (e : Event) (past : Trace ι) :
    touchesBy i ((i, e) :: past) = touchesBy i past ++ e.touches := if_pos rfl

theorem touchesBy_of_ne {i j : ι} (hne : j ≠ i) (e : Event) (past : Trace ι) :
    touchesBy i ((j, e) :: past) = touchesBy i past := if_neg hne

section Act

variable {α : Type} {i : ι} {s s' : Store ι} {task task' : Task α} {e : Event}

/-- The log grows by what an act touches. -/
theorem Act.touched (h : Act i s task e s' task') :
    s'.probes.touched = s.probes.touched ++ e.touches := by
  have htrip : ∀ {point fails p}, s.probes.trip point = (fails, p) →
      p.touched = s.probes.touched ++ [] := by
    intro point fails p h
    have htouched := s.probes.touched_trip point
    rw [h] at htouched
    rw [List.append_nil]
    exact htouched
  have hsame : s.probes.touched = s.probes.touched ++ [] := (List.append_nil _).symm
  cases h with
  | log => exact hsame
  | clock => exact hsame
  | refused h => exact htrip h
  | admitted h => exact htrip h
  | opened => exact hsame
  | late => exact hsame
  | notInTime => exact hsame
  | asked now hperform =>
      have htouched := congrArg (fun result => result.2.probes.touched) hperform
      simp only [touched_perform] at htouched
      exact htouched.symm
  | cutOff => exact hsame
  | paused => exact hsame
  | pauseCutOff => exact hsame
  | committed h => exact htrip h
  | notCommitted h => exact htrip h
  | rolledBack h => exact htrip h
  | dropped =>
      rw [Store.leave]
      split
      · exact hsame
      · exact hsame
  | taken => exact hsame
  | wrote => exact hsame

/-! ## What a task goes on to touch -/

/-- The job that a task goes on with has a property.  A direct write is no job. -/
def Stage.Has (P : Job α → Prop) : Stage α → Prop
  | .ready job => P job
  | .waiting d next => P (.begin d next)
  | .gone => True
  | .direct _ => False
  | .writing _ => False

theorem Stage.Has.mono {P Q : Job α → Prop} {stage : Stage α} (h : stage.Has P)
    (hPQ : ∀ job, P job → Q job) : stage.Has Q := by
  cases stage with
  | ready job => exact hPQ job h
  | waiting d next => exact hPQ _ h
  | gone => trivial
  | direct write => exact h.elim
  | writing write => exact h.elim

/-- A touch was refused. -/
def Event.Fails (e : Event) (account : Int) : Prop :=
  ∃ now delta error, e = .asked now (.addBalance account delta) (.error error)

/-- A task touched a balance, and goes on to the rest of its plan unless it was refused. -/
inductive Touched (k : Int) (ks : List Int) (e : Event) (task : Task α) : Prop where
  | done (htouches : e.touches = [k]) (hunit : task.unit.isSome = true)
      (hjob : task.stage.Has (·.LocksNext balanceOf ks))
  | failed (htouches : e.touches = [k]) (hfails : e.Fails k)
      (hjob : task.stage.Has (·.Takes balanceOf []))

theorem eq_addBalance_of_balanceOf {q : Query} {k : Int} (h : balanceOf q = some k) :
    ∃ delta, q = .addBalance k delta := by
  cases q with
  | addBalance id delta => exact ⟨delta, by cases h; rfl⟩
  | _ => cases h

theorem goOn_of {P : Job α → Prop} {q : Query}
    {next : Timed (Except StoreError q.Answer) → Job α} {r : Except Refusal q.Answer}
    (hoverflow : P (.done .overflow)) (hnext : ∀ r, P (next r)) : P (goOn next r) := by
  cases r with
  | ok a => exact hnext _
  | error e =>
      cases e with
      | refused e => exact hnext _
      | overflow => exact hoverflow

/-- A job that is to touch nothing goes on touching nothing. -/
theorem Act.takes_nil (h : Act i s task e s' task')
    (hjob : task.stage.Has (·.Takes balanceOf [])) :
    e.touches = [] ∧ task'.stage.Has (·.Takes balanceOf []) := by
  cases h with
  | log => exact ⟨rfl, hjob⟩
  | clock now => exact ⟨rfl, hjob now⟩
  | refused => exact ⟨rfl, hjob _⟩
  | admitted => exact ⟨rfl, hjob⟩
  | opened => exact ⟨rfl, hjob _⟩
  | late => exact ⟨rfl, hjob _⟩
  | notInTime => exact ⟨rfl, hjob _⟩
  | asked =>
      obtain ⟨ks', hafter, hnext⟩ := hjob
      obtain ⟨hnone, rfl⟩ := rowsAfter_nil hafter
      refine ⟨?_, goOn_of (P := fun job => job.Takes _ _) trivial hnext⟩
      rw [Event.touches, hnone]
      rfl
  | cutOff =>
      obtain ⟨ks', hafter, hnext⟩ := hjob
      obtain ⟨-, rfl⟩ := rowsAfter_nil hafter
      exact ⟨rfl, hnext _⟩
  | paused => exact ⟨rfl, hjob _⟩
  | pauseCutOff => exact ⟨rfl, hjob _⟩
  | committed => exact ⟨rfl, hjob _⟩
  | notCommitted => exact ⟨rfl, hjob _⟩
  | rolledBack => exact ⟨rfl, hjob _⟩
  | dropped => exact ⟨rfl, trivial⟩
  | taken => exact hjob.elim
  | wrote => exact hjob.elim

/-- The next touch of a plan. -/
theorem touched_of_asked {q : Query} {now : Timestamp}
    {next : Timed (Except StoreError q.Answer) → Job α} {r : Except Refusal q.Answer} {t : Tables}
    {k : Int} {ks : List Int} (hrow : balanceOf q = some k)
    (hok : ∀ a, (next (.ended (.ok a))).LocksNext balanceOf ks)
    (herror : ∀ e, (next (.ended (.error e))).Takes balanceOf []) :
    Touched k ks (.asked now q r) ⟨.ready (goOn next r), some t⟩ := by
  have htouches : Event.touches (.asked now q r) = [k] := by
    rw [Event.touches, hrow]
    rfl
  cases r with
  | ok a => exact .done htouches rfl (hok a)
  | error e =>
      obtain ⟨delta, rfl⟩ := eq_addBalance_of_balanceOf hrow
      refine .failed htouches ⟨now, delta, e, rfl⟩ ?_
      cases e with
      | refused e => exact herror e
      | overflow => trivial

/-- A task in the middle of its plan emits an event, is stopped, or goes on to the next balance. -/
theorem Act.locksNext {k : Int} {ks : List Int} (h : Act i s task e s' task')
    (hjob : task.stage.Has (·.LocksNext balanceOf (k :: ks))) (hunit : task.unit.isSome = true) :
    (e.touches = [] ∧ task'.stage.Has (·.LocksNext balanceOf (k :: ks)) ∧
        task'.unit.isSome = true) ∨
      (e.touches = [] ∧ (e = .cutOff ∨ e = .dropped) ∧ task'.stage.Has (·.Takes balanceOf [])) ∨
      Touched k ks e task' := by
  cases h with
  | log => exact .inl ⟨rfl, hjob, hunit⟩
  | clock => exact hjob.elim
  | refused => exact hjob.elim
  | admitted => exact hjob.elim
  | opened => exact hjob.elim
  | late => exact hjob.elim
  | notInTime => exact hjob.elim
  | asked => exact .inr (.inr (touched_of_asked hjob.1 hjob.2.1 hjob.2.2.1))
  | cutOff => exact .inr (.inl ⟨rfl, .inl rfl, hjob.2.2.2 _⟩)
  | paused => exact hjob.elim
  | pauseCutOff => exact hjob.elim
  | committed => exact hjob.elim
  | notCommitted => exact hjob.elim
  | rolledBack => exact hjob.elim
  | dropped => exact .inr (.inl ⟨rfl, .inr rfl, trivial⟩)
  | taken => exact hjob.elim
  | wrote => exact hjob.elim

/-- A task that touched nothing yet touches nothing, or the first balance of its plan. -/
theorem Act.locksLater {k : Int} {ks : List Int} (h : Act i s task e s' task')
    (hjob : task.stage.Has (·.LocksLater balanceOf (k :: ks))) :
    (e.touches = [] ∧ task'.stage.Has (·.LocksLater balanceOf (k :: ks))) ∨
      task.unit.isSome = true ∧ Touched k ks e task' := by
  cases h with
  | log => exact .inl ⟨rfl, hjob⟩
  | clock now => exact .inl ⟨rfl, hjob now⟩
  | refused => exact .inl ⟨rfl, hjob _⟩
  | admitted => exact .inl ⟨rfl, hjob⟩
  | opened => exact .inl ⟨rfl, hjob _⟩
  | late => exact .inl ⟨rfl, hjob _⟩
  | notInTime => exact .inl ⟨rfl, hjob _⟩
  | asked =>
      obtain ⟨hnone, hnext⟩ | hnext := hjob
      · refine .inl ⟨by rw [Event.touches, hnone]; rfl, ?_⟩
        exact goOn_of (P := fun job => job.LocksLater _ _) trivial fun r => hnext _
      · exact .inr ⟨rfl, touched_of_asked hnext.1 hnext.2.1 hnext.2.2.1⟩
  | cutOff =>
      obtain ⟨-, hnext⟩ | hnext := hjob
      · exact .inl ⟨rfl, hnext _⟩
      · exact .inl ⟨rfl, .of_takes (hnext.2.2.2 _)⟩
  | paused => exact .inl ⟨rfl, hjob _⟩
  | pauseCutOff => exact .inl ⟨rfl, hjob _⟩
  | committed => exact .inl ⟨rfl, hjob _⟩
  | notCommitted => exact .inl ⟨rfl, hjob _⟩
  | rolledBack => exact .inl ⟨rfl, hjob _⟩
  | dropped => exact .inl ⟨rfl, trivial⟩
  | taken => exact hjob.elim
  | wrote => exact hjob.elim

end Act

/-! ## Plans -/

/-- What can end a task in the middle of its plan. -/
def Stopped (i : ι) (touched : List Int) (es : Trace ι) : Prop :=
  (∃ k ∈ touched, ∃ e, (i, e) ∈ es ∧ e.Fails k) ∨ (i, .cutOff) ∈ es ∨ (i, .dropped) ∈ es

/-- How far a task has come with its plan, where `order` lists the tasks that touched a balance in
the order in which they came to it. -/
inductive Progress {α : Type} (plan : List Int) (order : List ι) (es : Trace ι) (i : ι)
    (task : Task α) : Prop where
  | before {k : Int} {ks : List Int} (hplan : plan = k :: ks) (htouches : touchesBy i es = [])
      (hjob : task.stage.Has (·.LocksLater balanceOf plan))
  | between {rest : List Int} (hplan : plan = touchesBy i es ++ rest)
      (hjob : task.stage.Has (·.LocksNext balanceOf rest)) (hunit : task.unit.isSome = true)
      (hlast : order.getLast? = some i)
  | after {rest : List Int} (hplan : plan = touchesBy i es ++ rest)
      (hwhy : rest = [] ∨ Stopped i (touchesBy i es) es)
      (hjob : task.stage.Has (·.Takes balanceOf []))

section Progress

variable {α : Type} {i : ι} {s s' : Store ι} {task task' : Task α} {e : Event} {es : Trace ι}
  {plan : List Int} {order : List ι}

omit [DecidableEq ι] in
theorem Stopped.cons {touched : List Int} (h : Stopped i touched es) (x : ι × Event) :
    Stopped i touched (x :: es) := by
  obtain ⟨k, hk, e, he, hfails⟩ | h | h := h
  · exact .inl ⟨k, hk, e, List.mem_cons_of_mem x he, hfails⟩
  · exact .inr (.inl (List.mem_cons_of_mem x h))
  · exact .inr (.inr (List.mem_cons_of_mem x h))

theorem Touched.touches {k : Int} {ks : List Int} (h : Touched k ks e task') : e.touches = [k] := by
  cases h with
  | done htouches _ _ => exact htouches
  | failed htouches _ _ => exact htouches

/-- The touch that comes next in a plan. -/
theorem Touched.progress {k : Int} {ks : List Int} (h : Touched k ks e task')
    (hplan : plan = touchesBy i es ++ k :: ks) (hlast : order.getLast? = some i) :
    Progress plan order ((i, e) :: es) i task' := by
  cases h with
  | done htouches hunit hjob =>
      have hnext : plan = touchesBy i ((i, e) :: es) ++ ks := by
        rw [touchesBy_self, htouches, hplan, List.append_assoc, List.singleton_append]
      exact .between hnext hjob hunit hlast
  | failed htouches hfails hjob =>
      have hnext : plan = touchesBy i ((i, e) :: es) ++ ks := by
        rw [touchesBy_self, htouches, hplan, List.append_assoc, List.singleton_append]
      have hk : k ∈ touchesBy i ((i, e) :: es) := by
        rw [touchesBy_self, htouches]
        exact List.mem_append_right _ (List.mem_singleton_self k)
      exact .after hnext (.inr (.inl ⟨k, hk, e, List.mem_cons_self, hfails⟩)) hjob

/-- A task goes on with its plan, and a balance that it touches is its first or follows one of its
own. -/
theorem Progress.act (hp : Progress plan order es i task) (h : Act i s task e s' task') :
    (e.touches = [] ∧ Progress plan order ((i, e) :: es) i task') ∨
      ∃ k, e.touches = [k] ∧ task.unit.isSome = true ∧
        (touchesBy i es = [] ∨ order.getLast? = some i) ∧
        ∀ order', order'.getLast? = some i → Progress plan order' ((i, e) :: es) i task' := by
  have hquiet : e.touches = [] → touchesBy i ((i, e) :: es) = touchesBy i es := by
    intro h
    rw [touchesBy_self, h, List.append_nil]
  have hafter : e.touches = [] ∧ task'.stage.Has (·.Takes balanceOf []) →
      ∀ {rest}, plan = touchesBy i es ++ rest →
        rest = [] ∨ Stopped i (touchesBy i es) ((i, e) :: es) →
        Progress plan order ((i, e) :: es) i task' := by
    rintro ⟨htouches, hjob⟩ rest hplan hwhy
    exact .after (by rw [hquiet htouches]; exact hplan) (by rw [hquiet htouches]; exact hwhy) hjob
  cases hp with
  | @before k ks hplan htouches hjob =>
      rw [hplan] at hjob
      obtain ⟨hnone, hjob⟩ | ⟨hunit, htouched⟩ := h.locksLater hjob
      · exact .inl ⟨hnone, .before hplan ((hquiet hnone).trans htouches) (hplan ▸ hjob)⟩
      · refine .inr ⟨k, htouched.touches, hunit, .inl htouches, fun order' hlast => ?_⟩
        exact htouched.progress (by rw [htouches]; exact hplan) hlast
  | @between rest hplan hjob hunit hlast =>
      cases rest with
      | nil =>
          have hdone := h.takes_nil (hjob.mono fun job => Job.locksNext_nil.1)
          exact .inl ⟨hdone.1, hafter hdone hplan (.inl rfl)⟩
      | cons k ks =>
          obtain ⟨hnone, hjob, hunit⟩ | ⟨hnone, hstop, hjob⟩ | htouched := h.locksNext hjob hunit
          · have hnext : plan = touchesBy i ((i, e) :: es) ++ k :: ks := by
              rw [hquiet hnone]
              exact hplan
            exact .inl ⟨hnone, .between hnext hjob hunit hlast⟩
          · -- a deadline or a drop in between leaves the rest of the plan undone
            refine .inl ⟨hnone, hafter ⟨hnone, hjob⟩ hplan (.inr (.inr ?_))⟩
            obtain rfl | rfl := hstop
            · exact .inl List.mem_cons_self
            · exact .inr List.mem_cons_self
          · exact .inr ⟨k, htouched.touches, hunit, .inr hlast,
              fun order' hlast => htouched.progress hplan hlast⟩
  | after hplan hwhy hjob =>
      have hdone := h.takes_nil hjob
      exact .inl ⟨hdone.1, hafter hdone hplan (hwhy.imp_right fun hstop => hstop.cons _)⟩

/-- What others do changes nothing about a task, unless they touch a balance in between. -/
theorem Progress.other {j : ι} {order' : List ι} (hp : Progress plan order es i task) (hne : j ≠ i)
    (hlast : task.unit.isSome = true → order.getLast? = some i → order'.getLast? = some i) :
    Progress plan order' ((j, e) :: es) i task := by
  have hsame := touchesBy_of_ne hne e es
  cases hp with
  | before hplan htouches hjob => exact .before hplan (hsame.trans htouches) hjob
  | between hplan hjob hunit h => exact .between (hsame ▸ hplan) hjob hunit (hlast hunit h)
  | after hplan hwhy hjob =>
      refine .after (hsame ▸ hplan) (hwhy.imp_right fun hstop => ?_) hjob
      rw [hsame]
      exact hstop.cons _

end Progress

/-! ## The log -/

variable {α : ι → Type} {s₀ s : System ι α} {es : Trace ι} {before : List Int}
  {plan : ι → List Int} {order : List ι}

/-- The log is made of one piece for each task that touched a balance, in the order in which they
came to it, and every task keeps to its plan. -/
structure Tidy (before : List Int) (plan : ι → List Int) (es : Trace ι) (s : System ι α)
    (order : List ι) : Prop where
  exclusive : s.Exclusive
  nodup : order.Nodup
  mem : ∀ i, i ∈ order ↔ touchesBy i es ≠ []
  log : s.store.probes.touched = before ++ order.flatMap fun i => touchesBy i es
  progress : ∀ i, Progress (plan i) order es i (s.task i)

/-- A task that touches a balance comes last among those that did, and its piece is the last one. -/
theorem Tidy.split (hs : Tidy before plan es s order) {i : ι}
    (hlast : touchesBy i es = [] ∨ order.getLast? = some i) :
    ∃ init : List ι, i ∉ init ∧ init.Nodup ∧ (∀ j, j ≠ i → (j ∈ init ↔ j ∈ order)) ∧
      order.flatMap (fun j => touchesBy j es) =
        init.flatMap (fun j => touchesBy j es) ++ touchesBy i es := by
  obtain hnone | hlast := hlast
  · exact ⟨order, fun hi => (hs.mem i).1 hi hnone, hs.nodup, fun _ _ => Iff.rfl,
      by rw [hnone, List.append_nil]⟩
  · obtain ⟨init, rfl⟩ := List.getLast?_eq_some_iff.1 hlast
    obtain ⟨hnodup, -, hdisjoint⟩ := List.nodup_append.1 hs.nodup
    refine ⟨init, fun hi => hdisjoint i hi i (List.mem_singleton_self i) rfl, hnodup,
      fun j hji => ?_, ?_⟩
    · rw [List.mem_append, List.mem_singleton, or_iff_left hji]
    · rw [List.flatMap_append, List.flatMap_singleton]

theorem Tidy.act {i : ι} {e : Event} {store : Store ι} {task : Task (α i)}
    (hs : Tidy before plan es s order) (h : Act i s.store (s.task i) e store task) :
    ∃ order', Tidy before plan ((i, e) :: es) (s.update i store task) order' := by
  obtain ⟨hnone, hprogress⟩ | ⟨k, hk, hunit, hlast, hprogress⟩ := (hs.progress i).act h
  · have hsame : ∀ j, touchesBy j ((i, e) :: es) = touchesBy j es := by
      intro j
      by_cases hji : j = i
      · subst hji
        rw [touchesBy_self, hnone, List.append_nil]
      · exact touchesBy_of_ne (Ne.symm hji) e es
    refine ⟨order, hs.exclusive.act h, hs.nodup, fun j => ?_, ?_, fun j => ?_⟩
    · rw [hsame]
      exact hs.mem j
    · rw [System.store_update, h.touched, hnone, List.append_nil, hs.log]
      simp only [hsame]
    · by_cases hji : j = i
      · subst hji
        rw [System.task_update_self]
        exact hprogress
      · rw [System.task_update_of_ne hji]
        exact (hs.progress j).other (Ne.symm hji) fun _ h => h
  · obtain ⟨init, hinit, hnodup, hmem, hflat⟩ := hs.split hlast
    refine ⟨init ++ [i], hs.exclusive.act h, ?_, fun j => ?_, ?_, fun j => ?_⟩
    · exact List.nodup_append.2 ⟨hnodup, List.nodup_singleton i,
        fun a ha b hb hab => hinit (List.mem_singleton.1 hb ▸ hab ▸ ha)⟩
    · by_cases hji : j = i
      · subst hji
        rw [touchesBy_self, hk]
        simp
      · rw [List.mem_append, List.mem_singleton, or_iff_left hji, hmem j hji,
          touchesBy_of_ne (Ne.symm hji)]
        exact hs.mem j
    · have hsame : init.flatMap (fun j => touchesBy j ((i, e) :: es)) =
          init.flatMap fun j => touchesBy j es :=
        List.flatMap_congr fun j hj => touchesBy_of_ne (ne_of_mem_of_not_mem hj hinit).symm e es
      rw [System.store_update, h.touched, hs.log, hflat, List.flatMap_append, hsame,
        List.flatMap_singleton, touchesBy_self]
      simp only [List.append_assoc]
    · by_cases hji : j = i
      · subst hji
        rw [System.task_update_self]
        exact hprogress _ List.getLast?_concat
      · rw [System.task_update_of_ne hji]
        refine (hs.progress j).other (Ne.symm hji) fun hunitj _ => ?_
        -- Two tasks that hold a unit of work hold the lock both.
        have hi := hs.exclusive i (.inl hunit)
        rw [hs.exclusive j (.inl hunitj)] at hi
        exact absurd (Option.some.inj hi) hji

/-- Tasks that keep to their plans keep the log tidy, in any interleaving. -/
theorem Run.tidy (h : Run s₀ es s) (hs : Tidy before plan [] s₀ []) :
    ∃ order, Tidy before plan es s order := by
  induction h with
  | start => exact ⟨[], hs⟩
  | act _ hact ih =>
      obtain ⟨order, htidy⟩ := ih
      exact htidy.act hact

end FundsTransfer.Sharing
