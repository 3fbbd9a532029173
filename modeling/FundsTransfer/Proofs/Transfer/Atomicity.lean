import FundsTransfer.Proofs.Rehearsal.Course
import FundsTransfer.Transfer.Coordinator

/-!
# All or nothing

A transfer that does not end with a result leaves no trace in what is committed: no row,
no balance, no reference row that it wrote on the way, and no number that it used up.  It
does not matter why it failed: a check, a query of the store, the commit or the rollback
itself, its deadline, a sum that outgrew a decimal, or a caller that dropped it where it
waited.

The reason is the shape of the job, `transfer_publishes`: its commit is its last step
but for events.  What the store answers plays no part in it, so nothing is assumed about
the world, the faults, the races or the hooks.
-/

namespace FundsTransfer.Rehearsal

open Memory

/-- A transfer commits what its steps left behind, when they succeed from what was committed
before. -/
theorem transfer_publishes {A : Answering Tables} {t : Tables}
    {post : Tables → TransferResult → Prop} (c : Coordinator) (generated : String)
    (p : TransferParams)
    (hok : ∀ v r t', p.validate = .ok v →
      (runTransfer v (v.reference.getD generated) (v.description.getD c.description)).Ends
        A t (.ok r) t' → post t' r) :
    (c.transfer generated p).Publishes A t post none := by
  unfold Coordinator.transfer
  cases hvalid : p.validate with
  | error e =>
      intro r h
      cases h
  | ok v =>
      refine Job.publishes_execute_andThen (fun r t' hends => ?_) fun e r h => ?_
      · exact ⟨r, rfl, hok v r t' hvalid hends⟩
      · cases h

/-! ## Whatever the store answers -/

/-- A store of which nothing is known. -/
def anyAnswer : Answering Tables := fun _ _ _ _ => True

/-- Any rows go with any value. -/
def anyRows {α : Type} : Tables → α → Prop := fun _ _ => True

/-- Against a store of which nothing is known, it does not matter which rows a job starts from. -/
theorem publishes_rebase {α : Type} {c c' : Tables} {job : Job α} {u u' : Option Tables}
    (hu : u.isSome = u'.isSome) (h : job.Publishes anyAnswer c anyRows u) :
    job.Publishes anyAnswer c' anyRows u' := by
  -- all that the rows decide is whether a unit of work is open, and this the two sides share
  induction job generalizing u u' with
  | done outcome => exact h
  | log event rest ih => exact ih hu h
  | clock next ih => exact fun now => ih now hu (h now)
  | begin deadline next ih =>
      obtain ⟨rfl, hopened, herror, hcut⟩ := h
      have hu' : u' = none := by simpa using hu.symm
      have hopen : (some c).isSome = (some c').isSome := rfl
      exact ⟨hu', ih _ hopen hopened, fun e => ih _ rfl (herror e),
        fun limit => ih _ rfl (hcut limit)⟩
  | call deadline q next ih =>
      obtain ⟨t, rfl, hanswer, hcut⟩ := h
      obtain ⟨t', rfl⟩ := Option.isSome_iff_exists.1 hu.symm
      refine ⟨t', rfl, fun r t₁ _ => ?_, fun limit => ih _ hu (hcut limit)⟩
      exact ih _ rfl (hanswer r t₁ trivial)
  | pause deadline ms next ih => exact fun r => ih r hu (h r)
  | commit next ih =>
      obtain ⟨t, rfl, ⟨a, hdone, -⟩, herror⟩ := h
      obtain ⟨t', rfl⟩ := Option.isSome_iff_exists.1 hu.symm
      exact ⟨t', rfl, ⟨a, hdone, trivial⟩, fun e => ih _ rfl (herror e)⟩
  | rollback next ih => exact fun r => ih r rfl (h r)

/-- A process after turns in worlds that anybody may have changed in between.  Each turn has a
number and a world. -/
def afterTurns {α : Type} (job : Job α) (turns : List (Nat × World)) : Process α :=
  turns.foldl (fun p turn => (p.poll turn.1 turn.2).1) ⟨none, .ready job⟩

/-- A process whose job publishes last, or that ended with a value. -/
structure PublishesLast {α : Type} (p : Process α) : Prop where
  place : p.place.Stopped (fun _ => True) ∨ ∃ job, p.place = .ready job
  publishes : (∃ a, p.place = .ended (.ok a)) ∨
    ∀ c, p.place.rest.Publishes anyAnswer c anyRows p.unit

theorem hooked_trivial (w : World) : w.Hooked fun _ => True := fun _ _ => trivial

/-- A turn of such a process leaves such a process, and the committed tables as they were unless it
ended with a value. -/
theorem PublishesLast.poll {α : Type} {p : Process α} (hp : PublishesLast p) (i : Nat)
    (w : World) :
    PublishesLast (p.poll i w).1 ∧
      ((p.poll i w).2.tables = w.tables ∨ ∃ a, (p.poll i w).1.place = .ended (.ok a)) := by
  obtain ⟨hplace, ⟨a, hended⟩ | hjob⟩ := hp
  · have hpoll : p.poll i w = (p, w) := by
      simp only [Process.poll, hended]
    rw [hpoll]
    exact ⟨⟨hplace, .inl ⟨a, hended⟩⟩, .inl rfl⟩
  · have hturn := Process.poll_turn p i (hooked_trivial w) hplace
    obtain ⟨a, hended, -⟩ | ⟨-, htables, hrest⟩ :=
      hturn.publishes (fun _ _ _ _ _ => trivial) (.pending rfl (hjob w.tables))
    · exact ⟨⟨.inl hturn.stopped, .inl ⟨a, hended⟩⟩, .inr ⟨a, hended⟩⟩
    · exact ⟨⟨.inl hturn.stopped, .inr fun c => publishes_rebase rfl hrest⟩, .inl htables⟩

theorem publishesLast_afterTurns {α : Type} {job : Job α}
    (hjob : ∀ c, job.Publishes anyAnswer c anyRows none) (turns : List (Nat × World)) :
    PublishesLast (afterTurns job turns) := by
  have hfold : ∀ p : Process α, PublishesLast p →
      PublishesLast (turns.foldl (fun p turn => (p.poll turn.1 turn.2).1) p) := by
    induction turns with
    | nil => exact fun p hp => hp
    | cons turn rest ih => exact fun p hp => ih _ (hp.poll turn.1 turn.2).1
  exact hfold ⟨none, .ready job⟩ ⟨.inr ⟨job, rfl⟩, .inr hjob⟩

/-- Against any store, a transfer publishes last. -/
theorem transfer_publishes_any (c : Coordinator) (generated : String) (p : TransferParams)
    (t : Tables) : (c.transfer generated p).Publishes anyAnswer t anyRows none :=
  transfer_publishes c generated p fun _ _ _ _ _ => trivial

/-! ## The main result -/

/-- A transfer ends with a result or leaves the committed tables as they were.  This holds of a
call; of a transfer that is dropped after any number of rounds, with its unit of work; and of each
turn of a transfer that others interrupt as they like. -/
theorem transfer_all_or_nothing (w : World) (c : Coordinator) (generated : String)
    (p : TransferParams) :
    (∀ pauses, (∃ r, (call w (c.transfer generated p) pauses).1 = .ok r) ∨
      (call w (c.transfer generated p) pauses).2.tables = w.tables) ∧
    (∀ moment rounds, ∃ process w',
      runUntil moment rounds w [⟨none, .ready (c.transfer generated p)⟩] = ([process], w') ∧
        ((∃ r, process.place = .ended (.ok r)) ∨ (abandon 0 w' [process]).tables = w.tables)) ∧
    ∀ turns i now,
      (∃ r, ((afterTurns (c.transfer generated p) turns).poll i now).1.place = .ended (.ok r)) ∨
        ((afterTurns (c.transfer generated p) turns).poll i now).2.tables = now.tables := by
  have hjob := transfer_publishes_any c generated p
  refine ⟨fun pauses => ?_, fun moment rounds => ?_, fun turns i now => ?_⟩
  · obtain ⟨r, hr, -⟩ | ⟨-, htables⟩ :=
      call_publishes pauses (hooked_trivial w) (fun _ _ _ _ _ => trivial) (hjob w.tables)
    · exact .inl ⟨r, hr⟩
    · exact .inr htables
  · obtain ⟨process, w', hrun, hturn | ⟨rfl, hsame⟩⟩ :=
      runUntil_single moment rounds w ⟨none, .ready (c.transfer generated p)⟩
        (hooked_trivial w) (.inr ⟨_, rfl⟩)
    · refine ⟨process, w', hrun, ?_⟩
      obtain ⟨r, hr, -⟩ | ⟨-, htables, -⟩ :=
        hturn.publishes (fun _ _ _ _ _ => trivial) (.pending rfl (hjob w.tables))
      · exact .inl ⟨r, hr⟩
      · exact .inr ((abandon_same _ 0 w').tables.trans htables)
    · exact ⟨_, w', hrun, .inr (((hsame.trans (abandon_same _ 0 w'))).tables)⟩
  · obtain ⟨-, htables | hended⟩ :=
      (publishesLast_afterTurns (fun t => hjob t) turns).poll i now
    · exact .inr htables
    · exact .inl hended

end FundsTransfer.Rehearsal
