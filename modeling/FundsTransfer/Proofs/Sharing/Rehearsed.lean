import FundsTransfer.Proofs.Rehearsal.Lock
import FundsTransfer.Proofs.Rehearsal.Reachable
import FundsTransfer.Proofs.Sharing.Serial

/-!
# Rehearsed calls share a store

In a rehearsal a clock, hooks and a queue decide whose turn it is, and a process that has
its turn goes on until it ends or waits.  Each turn is a sequence of acts of one task
(`poll_turns`), so calls that are rehearsed together are one interleaving of their acts,
`run_interleaves`.  What is shown of all interleavings holds of them: `callTogether_serial`.

The jobs are orderly and the hooks only let time go by.  A lock that is handed to a
process which has not gone on yet counts as free.  Nobody holds a unit of work then, and
nobody else can take it.
-/

namespace FundsTransfer.Sharing

open Memory Rehearsal

variable {α : Type}

/-! ## The acts of one task -/

/-- What a task can come to while the others stand still. -/
abbrev Leads {ι : Type} [DecidableEq ι] (i : ι) : Store ι × Task α → Store ι × Task α → Prop :=
  Relation.ReflTransGen fun x y => ∃ e, Act i x.1 x.2 e y.1 y.2

/-- A run goes on with the acts of one task. -/
theorem Run.leads {ι : Type} [DecidableEq ι] {α : ι → Type} {s₀ s : System ι α} {es : Trace ι}
    {i : ι} {x : Store ι × Task (α i)} (hrun : Run s₀ es s)
    (h : Leads i (s.store, s.task i) x) : ∃ es', Run s₀ es' (s.update i x.1 x.2) := by
  induction h with
  | refl =>
      refine ⟨es, ?_⟩
      rw [System.update, Function.update_eq_self]
      exact hrun
  | @tail x y _ hact ih =>
      obtain ⟨es', hrun'⟩ := ih
      obtain ⟨e, hact⟩ := hact
      refine ⟨(i, e) :: es', ?_⟩
      have hnext : Act i (s.update i x.1 x.2).store ((s.update i x.1 x.2).task i) e y.1 y.2 := by
        rw [System.store_update, System.task_update_self]
        exact hact
      have hlast := hrun'.act hnext
      rw [System.update, System.update, Function.update_idem] at hlast
      exact hlast

/-! ## Processes as tasks -/

/-- How far a process has come, as a task. -/
def stageOf : Place α → Stage α
  | .ready job => .ready job
  | .asleep _ _ _ job => .ready job
  | .queued d next => .waiting d next
  | .ended outcome => .ready (.done outcome)

/-- A process as a task. -/
def taskOf (p : Process α) : Task α := ⟨stageOf p.place, p.unit⟩

/-- The store of a rehearsal as a store that is shared. -/
structure Mirrors (w : World) (s : Store Nat) : Prop where
  tables : s.tables = w.tables
  probes : s.probes = w.probes
  free : w.locked = false ∨ w.handed.isSome = true → s.holder = none
  handed : w.handed.isSome = true → w.locked = true

/-- The deadline of the first step of a job. -/
def deadlineOf : Job α → Option Deadline
  | .begin d _ => d
  | .call d _ _ => d
  | .pause d _ _ => d
  | _ => none

/-- A process of an orderly job that sleeps under the deadline of its next step, and under hooks
that only let time go by. -/
structure Tame (p : Process α) : Prop where
  job : p.place.rest.Orderly p.unit.isSome
  asleep : ∀ moment d hook job, p.place = .asleep moment d hook job →
    deadlineOf job = d ∧ ∀ x ∈ hook, x.IsDelay

/-- A turn of a process consists of acts of its task. -/
def Turns (i : Nat) (s : Store Nat) (task : Task α) (r : Process α × World) : Prop :=
  ∃ s', Leads i (s, task) (s', taskOf r.1) ∧ Mirrors r.2 s' ∧ Tame r.1 ∧
    r.2.Hooked Disturbance.IsDelay

variable {i : Nat} {s s' : Store Nat} {w : World} {u : Option Tables}
  {hook : Option Disturbance}

theorem Tame.ended {outcome : Outcome α} : Tame ⟨u, .ended outcome⟩ := ⟨trivial, nofun⟩

theorem Tame.queued {d : Option Deadline} {next : Timed (Except StoreError Unit) → Job α}
    (h : (Job.begin d next).Orderly u.isSome) : Tame ⟨u, .queued d next⟩ :=
  ⟨h, nofun⟩

theorem Turns.head {task task' : Task α} {e : Event} {r : Process α × World}
    (hact : Act i s task e s' task') (h : Turns i s' task' r) : Turns i s task r := by
  obtain ⟨s'', hleads, hrest⟩ := h
  exact ⟨s'', .head ⟨e, hact⟩ hleads, hrest⟩

/-- Letting a job go on consists of acts, wherever it stands. -/
def GoesOn (i : Nat) (job : Job α) : Prop :=
  ∀ (u : Option Tables) (w : World) (s : Store Nat), job.Orderly u.isSome →
    (u.isSome = true → s.holder = some i) → Mirrors w s → w.Hooked Disturbance.IsDelay →
    Turns i s ⟨.ready job, u⟩ (Process.advance i u w job)

/-- Without a unit of work the lock is not asked for. -/
theorem GoesOn.closed {job : Job α} (h : GoesOn i job) (hjob : job.Orderly false)
    (hs : Mirrors w s) (hw : w.Hooked Disturbance.IsDelay) :
    Turns i s ⟨.ready job, none⟩ (Process.advance i none w job) :=
  h none w s hjob nofun hs hw

theorem turns_asleep {job : Job α} {moment : Nat} {d : Option Deadline}
    (hd : deadlineOf job = d) (hjob : job.Orderly u.isSome) (hs : Mirrors w s)
    (hw : w.Hooked Disturbance.IsDelay) (hhook : ∀ x ∈ hook, x.IsDelay) :
    Turns i s ⟨.ready job, u⟩ (Process.stop u (.asleep moment d hook job) w) := by
  refine ⟨s, .refl, hs, ⟨hjob, fun moment' d' hook' job' heq => ?_⟩, hw⟩
  cases heq
  exact ⟨hd, hhook⟩

theorem exists_deadline_of_isOver {now : Nat} {d : Option Deadline} (h : isOver now d = true) :
    ∃ d', d = some d' ∧ limitOf d = d'.limit := by
  cases d with
  | none => cases h
  | some d => exact ⟨d, rfl, rfl⟩

theorem bind_error_of_isDelay (hhook : ∀ x ∈ hook, x.IsDelay) : hook.bind (·.error) = none := by
  cases hook with
  | none => rfl
  | some d => exact (hhook d rfl).1

/-! ## The lock -/

/-- The lock is given up by its holder. -/
theorem Mirrors.release {t : Tables} {p : Probes} (hs : Mirrors w s) (w' : World)
    (hheld : s.holder = some i) (htables : w'.tables = t) (hprobes : w'.probes = p)
    (hlocked : w'.locked = w.locked) (hhanded : w'.handed = w.handed) :
    Mirrors w'.release ⟨t, p, none⟩ := by
  have hnotHanded : w.handed = none := by
    cases hw : w.handed with
    | none => rfl
    | some j =>
        have hfree := hs.free (.inr (by rw [hw]; rfl))
        rw [hheld] at hfree
        cases hfree
  have hlock : w.locked = true := by
    cases hw : w.locked with
    | true => rfl
    | false =>
        have hfree := hs.free (.inl hw)
        rw [hheld] at hfree
        cases hfree
  unfold World.release
  split
  · refine ⟨htables.symm, hprobes.symm, fun _ => rfl, fun h => ?_⟩
    rw [hhanded, hnotHanded] at h
    cases h
  · exact ⟨htables.symm, hprobes.symm, fun _ => rfl, fun _ => hlocked.trans hlock⟩

theorem hooked_release (hw : w.Hooked Disturbance.IsDelay) :
    w.release.Hooked Disturbance.IsDelay :=
  (World.release_same w).hooked hw

/-! ## The steps of a turn -/

theorem turns_begin {d : Option Deadline} {next : Timed (Except StoreError Unit) → Job α}
    (hnext : ∀ r, GoesOn i (next r)) (hjob : (Job.begin d next).Orderly u.isSome)
    (hs : Mirrors w s) (hw : w.Hooked Disturbance.IsDelay) (hhook : ∀ x ∈ hook, x.IsDelay) :
    Turns i s ⟨.ready (.begin d next), u⟩ (Process.wake i u hook w (.begin d next)) := by
  obtain ⟨hu, hopened, herror, hcut⟩ := hjob
  obtain rfl : u = none := Option.isNone_iff_eq_none.1 (Option.isSome_eq_false_iff.1 hu)
  rw [Process.wake, Process.open?, bind_error_of_isDelay hhook]
  rcases htrip : w.probes.trip .begin with ⟨fails, p⟩
  have hworld : w.trip .begin = (fails, { w with probes := p }) := by rw [World.trip, htrip]
  rw [← hs.probes] at htrip
  have hs' : Mirrors { w with probes := p } { s with probes := p } :=
    ⟨hs.tables, rfl, hs.free, hs.handed⟩
  simp only [hworld]
  cases fails with
  | true => exact .head (.refused htrip) ((hnext _).closed (herror _) hs' hw)
  | false =>
      refine .head (.admitted htrip) ?_
      dsimp only
      by_cases hlocked : w.locked = true
      · rw [if_pos hlocked]
        dsimp only
        split
        · rename_i hover
          obtain ⟨d', rfl, hlimit⟩ := exists_deadline_of_isOver hover
          exact .head .notInTime ((hnext _).closed (hcut _) hs' hw)
        · exact ⟨_, .refl, ⟨hs.tables, rfl, hs.free, hs.handed⟩,
            .queued ⟨rfl, hopened, herror, hcut⟩, hw⟩
      · rw [Bool.not_eq_true] at hlocked
        have htaken : Mirrors { w with probes := p, locked := true }
            { s with probes := p, holder := some i } := by
          refine ⟨hs.tables, rfl, fun h => ?_, fun _ => rfl⟩
          obtain h | h := h
          · cases h
          · rw [hs.handed h] at hlocked
            cases hlocked
        have hunit : some w.tables = some s.tables := by rw [hs.tables]
        refine .head (.opened (hs.free (.inl hlocked))) ?_
        rw [if_neg (by rw [hlocked]; exact Bool.false_ne_true)]
        dsimp only
        rw [hunit]
        exact hnext _ (some s.tables) _ _ hopened (fun _ => rfl) htaken hw

theorem turns_call {d : Option Deadline} {q : Query}
    {next : Timed (Except StoreError q.Answer) → Job α} (hnext : ∀ r, GoesOn i (next r))
    (hjob : (Job.call d q next).Orderly u.isSome) (hheld : u.isSome = true → s.holder = some i)
    (hs : Mirrors w s) (hw : w.Hooked Disturbance.IsDelay) (hhook : ∀ x ∈ hook, x.IsDelay) :
    Turns i s ⟨.ready (.call d q next), u⟩ (Process.wake i u hook w (.call d q next)) := by
  obtain ⟨hu, hgo⟩ := hjob
  obtain ⟨t, rfl⟩ := Option.isSome_iff_exists.1 hu
  rcases hrun : (perform .epoch q).run ⟨t, w.probes⟩ with ⟨r, t', p⟩
  have hquery : w.query t hook q = (r, t', { w with probes := p }) := by
    simp only [World.query, Disturbance.perform_of_isDelay hhook, hrun]
  rw [← hs.probes] at hrun
  have hs' : Mirrors { w with probes := p } { s with probes := p } :=
    ⟨hs.tables, rfl, hs.free, hs.handed⟩
  refine .head (.asked .epoch hrun) ?_
  rw [Process.wake, Option.getD_some, Process.ask?, hquery]
  cases r with
  | ok a => exact hnext _ (some t') _ _ (hgo _) hheld hs' hw
  | error e =>
      cases e with
      | refused e => exact hnext _ (some t') _ _ (hgo _) hheld hs' hw
      | overflow => exact ⟨_, .refl, hs', .ended, hw⟩

theorem turns_commit {next : Except StoreError Unit → Job α} (hnext : ∀ r, GoesOn i (next r))
    (hjob : (Job.commit next).Orderly u.isSome) (hheld : u.isSome = true → s.holder = some i)
    (hs : Mirrors w s) (hw : w.Hooked Disturbance.IsDelay) (hhook : ∀ x ∈ hook, x.IsDelay) :
    Turns i s ⟨.ready (.commit next), u⟩ (Process.wake i u hook w (.commit next)) := by
  obtain ⟨hu, hgo⟩ := hjob
  obtain ⟨t, rfl⟩ := Option.isSome_iff_exists.1 hu
  have hholder := hheld rfl
  rw [Process.wake, Option.getD_some, World.commit, bind_error_of_isDelay hhook]
  rcases htrip : w.probes.trip .commit with ⟨fails, p⟩
  have hworld : w.trip .commit = (fails, { w with probes := p }) := by rw [World.trip, htrip]
  rw [← hs.probes] at htrip
  simp only [hworld]
  cases fails with
  | true =>
      have hreleased := hs.release { w with probes := p } hholder hs.tables.symm rfl rfl rfl
      exact .head (.notCommitted htrip)
        ((hnext _).closed (hgo _) hreleased (hooked_release hw))
  | false =>
      have hreleased := hs.release { w with tables := t, probes := p } hholder rfl rfl rfl rfl
      exact .head (.committed htrip)
        ((hnext _).closed (hgo _) hreleased (hooked_release hw))

theorem turns_rollback {next : Except StoreError Unit → Job α} (hnext : ∀ r, GoesOn i (next r))
    (hjob : (Job.rollback next).Orderly u.isSome) (hheld : u.isSome = true → s.holder = some i)
    (hs : Mirrors w s) (hw : w.Hooked Disturbance.IsDelay) (hhook : ∀ x ∈ hook, x.IsDelay) :
    Turns i s ⟨.ready (.rollback next), u⟩ (Process.wake i u hook w (.rollback next)) := by
  obtain ⟨hu, hgo⟩ := hjob
  obtain ⟨t, rfl⟩ := Option.isSome_iff_exists.1 hu
  have hholder := hheld rfl
  rw [Process.wake, World.rollback, bind_error_of_isDelay hhook]
  rcases htrip : w.probes.trip .rollback with ⟨fails, p⟩
  have hworld : w.trip .rollback = (fails, { w with probes := p }) := by rw [World.trip, htrip]
  rw [← hs.probes] at htrip
  have hreleased := hs.release { w with probes := p } hholder hs.tables.symm rfl rfl rfl
  simp only [hworld]
  refine .head (.rolledBack htrip) ?_
  cases fails with
  | true => exact (hnext _).closed (hgo _) hreleased (hooked_release hw)
  | false => exact (hnext _).closed (hgo _) hreleased (hooked_release hw)

/-! ## A turn -/

/-- Looking for a hook changes the hooks only. -/
theorem turns_takeHook {job : Job α} {task : Task α} (request : Request) (hs : Mirrors w s)
    (hw : w.Hooked Disturbance.IsDelay)
    (h : ∀ hook w', w.takeHook request = (hook, w') → Mirrors w' s →
      w'.Hooked Disturbance.IsDelay → (∀ x ∈ hook, x.IsDelay) →
      Turns i s task (Process.advance i u w job)) :
    Turns i s task (Process.advance i u w job) := by
  rcases htake : w.takeHook request with ⟨hook, w'⟩
  obtain ⟨hhook, hw', -, -⟩ := World.takeHook_keeps hw htake
  have hs' : Mirrors (w.takeHook request).2 s := ⟨hs.tables, hs.probes, hs.free, hs.handed⟩
  rw [htake] at hs'
  exact h hook w' htake hs' hw' hhook

theorem goesOn (i : Nat) (job : Job α) : GoesOn i job := by
  induction job with
  | done outcome => exact fun u w s _ _ hs hw => ⟨s, .refl, hs, .ended, hw⟩
  | log event rest ih => exact fun u w s hjob hheld hs hw => .head .log (ih u w s hjob hheld hs hw)
  | clock next ih =>
      exact fun u w s hjob hheld hs hw => .head (.clock w.now) (ih _ u w s (hjob _) hheld hs hw)
  | begin d next ih =>
      intro u w s hjob hheld hs hw
      refine turns_takeHook .begin hs hw fun hook w' htake hs' hw' hhook => ?_
      simp only [Process.advance, htake]
      -- it goes on at once, is late for its deadline or sleeps, here as for a query and a pause
      split
      · exact turns_begin ih hjob hs' hw' hhook
      · split
        · rename_i hover
          obtain ⟨d', rfl, hlimit⟩ := exists_deadline_of_isOver hover
          obtain ⟨hu, -, -, hcut⟩ := hjob
          exact .head .late (ih _ u w' s (hu ▸ hcut _) hheld hs' hw')
        · exact turns_asleep rfl hjob hs' hw' hhook
  | call d q next ih =>
      intro u w s hjob hheld hs hw
      refine turns_takeHook q.request hs hw fun hook w' htake hs' hw' hhook => ?_
      simp only [Process.advance, htake]
      split
      · exact turns_call ih hjob hheld hs' hw' hhook
      · split
        · rename_i hover
          obtain ⟨d', rfl, hlimit⟩ := exists_deadline_of_isOver hover
          obtain ⟨hu, hgo⟩ := hjob
          exact .head .cutOff (ih _ u w' s (hu ▸ hgo _) hheld hs' hw')
        · exact turns_asleep rfl hjob hs' hw' hhook
  | pause d ms next ih =>
      intro u w s hjob hheld hs hw
      simp only [Process.advance]
      split
      · exact .head .paused (ih _ u w s (hjob _) hheld hs hw)
      · split
        · rename_i hover
          obtain ⟨d', rfl, hlimit⟩ := exists_deadline_of_isOver hover
          exact .head .pauseCutOff (ih _ u w s (hjob _) hheld hs hw)
        · exact turns_asleep rfl hjob hs hw fun _ hx => absurd hx (Option.not_mem_none _)
  | commit next ih =>
      intro u w s hjob hheld hs hw
      refine turns_takeHook .commit hs hw fun hook w' htake hs' hw' hhook => ?_
      simp only [Process.advance, htake]
      split
      · exact turns_commit ih hjob hheld hs' hw' hhook
      · exact turns_asleep rfl hjob hs' hw' hhook
  | rollback next ih =>
      intro u w s hjob hheld hs hw
      refine turns_takeHook .rollback hs hw fun hook w' htake hs' hw' hhook => ?_
      simp only [Process.advance, htake]
      split
      · exact turns_rollback ih hjob hheld hs' hw' hhook
      · exact turns_asleep rfl hjob hs' hw' hhook

theorem turns_wake {job : Job α} (hjob : job.Orderly u.isSome)
    (hheld : u.isSome = true → s.holder = some i) (hs : Mirrors w s)
    (hw : w.Hooked Disturbance.IsDelay) (hhook : ∀ x ∈ hook, x.IsDelay) :
    Turns i s ⟨.ready job, u⟩ (Process.wake i u hook w job) := by
  cases job with
  | done outcome => exact goesOn i _ u w s hjob hheld hs hw
  | log event rest => exact goesOn i _ u w s hjob hheld hs hw
  | clock next => exact goesOn i _ u w s hjob hheld hs hw
  | begin d next => exact turns_begin (fun r => goesOn i (next r)) hjob hs hw hhook
  | call d q next => exact turns_call (fun r => goesOn i (next r)) hjob hheld hs hw hhook
  | pause d ms next => exact .head .paused (goesOn i _ u w s (hjob _) hheld hs hw)
  | commit next => exact turns_commit (fun r => goesOn i (next r)) hjob hheld hs hw hhook
  | rollback next => exact turns_rollback (fun r => goesOn i (next r)) hjob hheld hs hw hhook

theorem turns_cut {job : Job α} {d : Deadline} (hd : deadlineOf job = some d)
    (hjob : job.Orderly u.isSome) (hheld : u.isSome = true → s.holder = some i)
    (hs : Mirrors w s) (hw : w.Hooked Disturbance.IsDelay) :
    Turns i s ⟨.ready job, u⟩ (Process.cut i u d.limit w job) := by
  cases job with
  | begin d' next =>
      cases hd
      obtain ⟨hu, -, -, hcut⟩ := hjob
      exact .head .late (goesOn i _ u w s (hu ▸ hcut _) hheld hs hw)
  | call d' q next =>
      cases hd
      obtain ⟨hu, hgo⟩ := hjob
      exact .head .cutOff (goesOn i _ u w s (hu ▸ hgo _) hheld hs hw)
  | pause d' ms next =>
      cases hd
      exact .head .pauseCutOff (goesOn i _ u w s (hjob _) hheld hs hw)
  | done outcome => cases hd
  | log event rest => cases hd
  | clock next => cases hd
  | commit next => cases hd
  | rollback next => cases hd

/-- Whoever is cut off where it waits leaves the queue, and hands on the lock if it was handed to
it. -/
theorem Mirrors.leave (hs : Mirrors w s) (i : Nat) : Mirrors (w.leave i) s := by
  unfold World.leave
  dsimp only
  split
  · rename_i hhanded
    have hhanded : w.handed.isSome = true := by rw [hhanded]; rfl
    have hfree := hs.free (.inr hhanded)
    unfold World.release
    split
    · exact ⟨hs.tables, hs.probes, fun _ => hfree, nofun⟩
    · exact ⟨hs.tables, hs.probes, fun _ => hfree, fun _ => hs.handed hhanded⟩
  · exact ⟨hs.tables, hs.probes, hs.free, hs.handed⟩

/-- What a process does when it has its turn consists of acts of its task. -/
theorem poll_turns {p : Process α} (hp : Tame p) (hheld : p.unit.isSome = true → s.holder = some i)
    (hs : Mirrors w s) (hw : w.Hooked Disturbance.IsDelay) : Turns i s (taskOf p) (p.poll i w) := by
  obtain ⟨u, place⟩ := p
  obtain ⟨hjob, hasleep⟩ := hp
  cases place with
  | ready job => exact goesOn i job u w s hjob hheld hs hw
  | asleep moment d hook job =>
      obtain ⟨hd, hhook⟩ := hasleep moment d hook job rfl
      simp only [Process.poll]
      split
      · exact turns_wake hjob hheld hs hw hhook
      · split
        · rename_i hover
          obtain ⟨d', rfl, hlimit⟩ := exists_deadline_of_isOver hover
          exact turns_cut hd hjob hheld hs hw
        · exact ⟨s, .refl, hs, ⟨hjob, hasleep⟩, hw⟩
  | queued d next =>
      obtain ⟨hu, hopened, herror, hcut⟩ := hjob
      obtain rfl : u = none := Option.isNone_iff_eq_none.1 (Option.isSome_eq_false_iff.1 hu)
      simp only [Process.poll]
      split
      · rename_i hhanded
        have hhanded : w.handed.isSome = true := by rw [hhanded]; rfl
        have htaken : Mirrors { w with handed := none } { s with holder := some i } := by
          refine ⟨hs.tables, hs.probes, fun h => ?_, (absurd · Bool.false_ne_true)⟩
          obtain h | h := h
          · rw [show w.locked = true from hs.handed hhanded] at h
            cases h
          · cases h
        have hunit : some w.tables = some s.tables := by rw [hs.tables]
        refine .head (.opened (hs.free (.inr hhanded))) ?_
        rw [hunit]
        exact goesOn i _ (some s.tables) _ _ hopened (fun _ => rfl) htaken hw
      · split
        · rename_i hover
          obtain ⟨d', rfl, hlimit⟩ := exists_deadline_of_isOver hover
          exact .head .notInTime ((goesOn i _).closed (hcut _) (hs.leave i)
            ((w.leave_same i).hooked hw))
        · exact ⟨s, .refl, hs, ⟨⟨hu, hopened, herror, hcut⟩, hasleep⟩, hw⟩
  | ended outcome => exact ⟨s, .refl, hs, ⟨hjob, hasleep⟩, hw⟩

/-! ## Rounds -/

/-- Processes as the tasks from a number on. -/
def TasksFrom (s : System Nat fun _ => α) : Nat → List (Process α) → Prop
  | _, [] => True
  | i, p :: rest => s.task i = taskOf p ∧ Tame p ∧ TasksFrom s (i + 1) rest

theorem TasksFrom.update {s : System Nat fun _ => α} {j : Nat} {ps : List (Process α)}
    {store : Store Nat} {task : Task α} (h : TasksFrom s j ps) (hij : i < j) :
    TasksFrom (s.update i store task) j ps := by
  induction ps generalizing j with
  | nil => trivial
  | cons p rest ih =>
      obtain ⟨htask, hp, hrest⟩ := h
      refine ⟨?_, hp, ih hrest (by omega)⟩
      rw [System.task_update_of_ne (by omega)]
      exact htask

/-- A rehearsal at some moment is a moment of a run. -/
structure Interleaves (s₀ : System Nat fun _ => α) (w : World) (i : Nat) (ps : List (Process α))
    (s : System Nat fun _ => α) : Prop where
  run : ∃ es, Run s₀ es s
  mirrors : Mirrors w s.store
  tasks : TasksFrom s i ps
  hooked : w.Hooked Disturbance.IsDelay

variable {s₀ : System Nat fun _ => α}

/-- A turn of the first process. -/
theorem Interleaves.poll (hs₀ : s₀.Fresh) {s : System Nat fun _ => α} {p : Process α}
    {rest : List (Process α)} (h : Interleaves s₀ w i (p :: rest) s) :
    ∃ s', Interleaves s₀ (p.poll i w).2 (i + 1) rest s' ∧ s'.task i = taskOf (p.poll i w).1 ∧
      Tame (p.poll i w).1 ∧ ∀ j, j ≠ i → s'.task j = s.task j := by
  obtain ⟨⟨es, hrun⟩, hmirrors, ⟨htask, hp, hrest⟩, hw⟩ := h
  have hheld : p.unit.isSome = true → s.store.holder = some i := by
    intro hunit
    refine hrun.exclusive hs₀ i (.inl ?_)
    rw [htask]
    exact hunit
  obtain ⟨store, hleads, hmirrors', hp', hw'⟩ := poll_turns hp hheld hmirrors hw
  rw [← htask] at hleads
  refine ⟨s.update i store (taskOf (p.poll i w).1), ⟨hrun.leads hleads, ?_, ?_, hw'⟩, ?_, hp', ?_⟩
  · exact hmirrors'
  · exact hrest.update (Nat.lt_succ_self i)
  · exact System.task_update_self ..
  · exact fun j hne => System.task_update_of_ne hne ..

theorem Interleaves.round (hs₀ : s₀.Fresh) {s : System Nat fun _ => α} {ps : List (Process α)}
    (h : Interleaves s₀ w i ps s) :
    ∃ s', Interleaves s₀ (round i w ps).2 i (round i w ps).1 s' ∧
      ∀ j, j < i → s'.task j = s.task j := by
  induction ps generalizing i w s with
  | nil => exact ⟨s, h, fun _ _ => rfl⟩
  | cons p rest ih =>
      obtain ⟨s₁, h₁, htask, hp, hothers⟩ := h.poll hs₀
      simp only [Rehearsal.round]
      split
      · refine ⟨s₁, ⟨h₁.run, h₁.mirrors, ⟨htask, hp, h₁.tasks⟩, h₁.hooked⟩, fun j hj => ?_⟩
        exact hothers j (by omega)
      · obtain ⟨s₂, h₂, hbefore⟩ := ih h₁
        refine ⟨s₂, ⟨h₂.run, h₂.mirrors, ⟨?_, hp, h₂.tasks⟩, h₂.hooked⟩, fun j hj => ?_⟩
        · rw [hbefore i (Nat.lt_succ_self i), htask]
        · rw [hbefore j (by omega), hothers j (by omega)]

/-- Time may go by. -/
theorem Interleaves.later {s : System Nat fun _ => α} {ps : List (Process α)}
    (h : Interleaves s₀ w i ps s) (moment : Nat) :
    Interleaves s₀ { w with now := moment } i ps s :=
  ⟨h.run, ⟨h.mirrors.tables, h.mirrors.probes, h.mirrors.free, h.mirrors.handed⟩, h.tasks, h.hooked⟩

theorem runUntil_interleaves (hs₀ : s₀.Fresh) (moment rounds : Nat) {s : System Nat fun _ => α}
    {ps : List (Process α)} (h : Interleaves s₀ w 0 ps s) :
    ∃ s', Interleaves s₀ (runUntil moment rounds w ps).2 0 (runUntil moment rounds w ps).1 s' := by
  induction rounds generalizing w ps s with
  | zero => exact ⟨s, h.later moment⟩
  | succ n ih =>
      rw [runUntil]
      split
      · exact ⟨s, h⟩
      split
      · obtain ⟨s₁, h₁, -⟩ := h.round hs₀
        exact ih h₁
      split
      · exact ⟨s, h⟩
      split
      · split
        · exact ih (h.later _)
        · exact ⟨s, h.later _⟩
      · exact ⟨s, h.later _⟩

/-! ## Calls together -/

/-- Jobs that are rehearsed together, before their first act. -/
def rehearsal (w : World) (jobs : List (Job α)) : System Nat fun _ => α where
  store := ⟨w.tables, w.probes, none⟩
  task i :=
    match jobs[i]? with
    | some job => ⟨.ready job, none⟩
    | none => ⟨.gone, none⟩

theorem fresh_rehearsal (w : World) (jobs : List (Job α)) : (rehearsal w jobs).Fresh where
  free := rfl
  closed i := by
    unfold rehearsal
    dsimp only
    split <;> rfl
  idle i write := by
    unfold rehearsal
    dsimp only
    split <;> nofun

theorem tasksFrom_ready {s : System Nat fun _ => α} {jobs : List (Job α)}
    (htask : ∀ k job, jobs[k]? = some job → s.task (i + k) = ⟨.ready job, none⟩)
    (hjobs : ∀ job ∈ jobs, job.Orderly false) :
    TasksFrom s i (jobs.map fun job => ⟨none, .ready job⟩) := by
  induction jobs generalizing i with
  | nil => trivial
  | cons job rest ih =>
      obtain ⟨hjob, hrest⟩ := List.forall_mem_cons.1 hjobs
      refine ⟨htask 0 job rfl, ⟨hjob, nofun⟩, ih (fun k job' hk => ?_) hrest⟩
      rw [Nat.add_right_comm, Nat.add_assoc]
      exact htask (k + 1) job' hk

/-- Jobs that are rehearsed together come to a moment of a run. -/
theorem run_interleaves {jobs : List (Job α)} (hw : w.Hooked Disturbance.IsDelay)
    (hlock : w.LockHeld false) (hjobs : ∀ job ∈ jobs, job.Orderly false) (pauses : Nat) :
    ∃ s, Interleaves (rehearsal w jobs) (run pauses w (jobs.map fun job => ⟨none, .ready job⟩)).2 0
      (run pauses w (jobs.map fun job => ⟨none, .ready job⟩)).1 s := by
  have htask : ∀ k job, jobs[k]? = some job →
      (rehearsal w jobs).task (0 + k) = ⟨.ready job, none⟩ := by
    intro k job hk
    rw [Nat.zero_add]
    simp only [rehearsal, hk]
  have hmirrors : Mirrors w (rehearsal w jobs).store := by
    refine ⟨rfl, rfl, fun _ => rfl, fun h => ?_⟩
    rw [hlock.handed] at h
    cases h
  exact runUntil_interleaves (fresh_rehearsal w jobs) _ _
    ⟨⟨[], .start⟩, hmirrors, tasksFrom_ready htask hjobs, hw⟩

/-- When nothing is armed, calls that are rehearsed together leave what comes of running what they
published one after another. -/
theorem callTogether_serial {jobs : List (Job α)} (hw : w.Hooked Disturbance.IsDelay)
    (hlock : w.LockHeld false) (hdisarmed : ∃ touched, w.probes = .disarmed touched)
    (hjobs : ∀ job ∈ jobs, job.Orderly false) :
    ∃ es s, Run (rehearsal w jobs) es s ∧ (callTogether w jobs).2.tables = serial w.tables es := by
  obtain ⟨s, ⟨es, hrun⟩, hmirrors, -, -⟩ := run_interleaves hw hlock hjobs 0
  refine ⟨es, s, hrun, ?_⟩
  have hserial := (hrun.serial (fresh_rehearsal w jobs) hdisarmed).tables
  have hleft := (abandon_same (run 0 w (jobs.map fun job => ⟨none, .ready job⟩)).1 0
    (run 0 w (jobs.map fun job => ⟨none, .ready job⟩)).2).tables
  have htables : (callTogether w jobs).2.tables =
      (run 0 w (jobs.map fun job => ⟨none, .ready job⟩)).2.tables := by
    unfold callTogether
    dsimp only
    split
    · exact hleft
    · split
      · exact hleft
      · exact hleft
  rw [htables, ← hmirrors.tables, hserial]
  rfl

end FundsTransfer.Sharing
