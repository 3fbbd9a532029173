import FundsTransfer.Proofs.Rehearsal.Course
import FundsTransfer.Transfer.Coordinator

/-!
# The lock after a call

The engine opens a unit of work only when it holds none, and asks and ends one only while
it holds one (`Job.Orderly`).  A call of such a job that runs alone finds the lock free
when it wants it.  The lock is held exactly as long as the unit of work is open, and
`call_lockHeld` says that it is free again afterwards, whether the call ended, was cut
off or was given up.
-/

namespace FundsTransfer

namespace Job

variable {α β : Type}

/-- A job that opens a unit of work only when it holds none, and asks and ends one only while it
holds one.  The flag says whether it does. -/
def Orderly : Job α → Bool → Prop
  | .done _, _ => True
  | .log _ rest, held => rest.Orderly held
  | .clock next, held => ∀ now, (next now).Orderly held
  | .begin _ next, held => held = false ∧ (next (.ended (.ok ()))).Orderly true ∧
      (∀ e, (next (.ended (.error e))).Orderly false) ∧
      ∀ limit, (next (.cutOff limit)).Orderly false
  | .call _ _ next, held => held = true ∧ ∀ r, (next r).Orderly true
  | .pause _ _ next, held => ∀ r, (next r).Orderly held
  | .commit next, held => held = true ∧ ∀ r, (next r).Orderly false
  | .rollback next, held => held = true ∧ ∀ r, (next r).Orderly false

theorem orderly_within {d : Option Deadline} {w : Work α} {k : Except TransferError α → Job β}
    (hk : ∀ r, (k r).Orderly true) : (within d w k).Orderly true := by
  induction w with
  | done a => exact hk (.ok a)
  | fail e => exact hk (.error e)
  | overflow => trivial
  | log event rest ih => exact ih
  | pause ms rest ih =>
      intro r
      cases r with
      | ended u => exact ih
      | cutOff limit => exact hk _
  | call q next ih =>
      rw [within]
      refine ⟨rfl, fun r => ?_⟩
      cases r with
      | ended r => exact ih r
      | cutOff limit => exact hk _

theorem orderly_settle_andThen {r : Except TransferError α} {k : Except TransferError α → Job β}
    (hk : ∀ r, (k r).Orderly false) : ((settle r).andThen k).Orderly true := by
  cases r with
  | ok a =>
      refine ⟨rfl, fun answer => ?_⟩
      cases answer with
      | ok u => exact hk _
      | error e => exact hk _
  | error cause =>
      refine ⟨rfl, fun answer => ?_⟩
      cases answer with
      | ok u => exact hk _
      | error e => exact hk _

theorem orderly_execute_andThen {limit : Option Duration} {work : Work α}
    {k : Except TransferError α → Job β} (hk : ∀ r, (k r).Orderly false) :
    ((execute limit work).andThen k).Orderly false := by
  intro now
  refine ⟨rfl, ?_, fun e => hk _, fun limit => hk _⟩
  show ((within _ work settle).andThen k).Orderly true
  rw [within_andThen]
  exact orderly_within fun r => orderly_settle_andThen hk

theorem orderly_conclude (r : Except TransferError α) : (conclude r).Orderly false := by
  cases r with
  | ok a => trivial
  | error e => trivial

theorem orderly_execute (limit : Option Duration) (work : Work α) :
    (execute limit work).Orderly false := by
  rw [← andThen_conclude (execute limit work)]
  exact orderly_execute_andThen orderly_conclude

end Job

namespace Coordinator

theorem orderly_transfer (c : Coordinator) (generated : String) (p : TransferParams) :
    (c.transfer generated p).Orderly false := by
  unfold transfer
  split
  · trivial
  · refine Job.orderly_execute_andThen fun r => ?_
    cases r with
    | ok result => trivial
    | error e => trivial

theorem orderly_verify (c : Coordinator) (transaction : Int) :
    (c.verify transaction).Orderly false := by
  refine Job.orderly_execute_andThen fun r => ?_
  cases r with
  | ok audit => trivial
  | error e => trivial

end Coordinator

namespace Rehearsal

variable {α : Type} {w : World} {held : Bool} {i : Nat}

/-- Whether the lock is held, when nobody waits for it. -/
structure World.LockHeld (w : World) (held : Bool) : Prop where
  locked : w.locked = held
  handed : w.handed = none
  queue : w.queue = []

namespace World.LockHeld

theorem release (h : w.LockHeld held) : w.release.LockHeld false := by
  unfold World.release
  rw [h.queue]
  exact ⟨rfl, h.handed, rfl⟩

theorem commit (h : w.LockHeld held) (unit : Memory.Tables) (hook : Option Disturbance) :
    (w.commit unit hook).2.LockHeld false := by
  have htrip : (w.trip .commit).2.LockHeld held := ⟨h.locked, h.handed, h.queue⟩
  unfold World.commit
  split
  · exact h.release
  · split
    · rename_i w₁ heq
      rw [heq] at htrip
      exact htrip.release
    · rename_i w₁ heq
      rw [heq] at htrip
      have hput : { w₁ with tables := unit }.LockHeld held :=
        ⟨htrip.locked, htrip.handed, htrip.queue⟩
      exact hput.release

theorem rollback (h : w.LockHeld held) (hook : Option Disturbance) :
    (w.rollback hook).2.LockHeld false := by
  have htrip : (w.trip .rollback).2.LockHeld held := ⟨h.locked, h.handed, h.queue⟩
  unfold World.rollback
  split
  · exact h.release
  · split
    · rename_i w₁ heq
      rw [heq] at htrip
      exact htrip.release
    · rename_i w₁ heq
      rw [heq] at htrip
      exact htrip.release

theorem leave (h : w.LockHeld held) (i : Nat) : (w.leave i).LockHeld held := by
  unfold World.leave
  dsimp only
  rw [if_neg (by rw [h.handed]; nofun), h.queue]
  exact ⟨h.locked, h.handed, rfl⟩

/-- A lock that is free is taken at once, unless the opening is refused. -/
theorem open?_cases (h : w.LockHeld false) (hook : Option Disturbance) :
    ∃ w', ((∃ e, Process.open? w hook = (some (.error e), none, w')) ∧ w'.LockHeld false) ∨
      (Process.open? w hook = (some (.ok ()), some w.tables, w') ∧ w'.LockHeld true) := by
  unfold Process.open?
  split
  · exact ⟨w, .inl ⟨⟨_, rfl⟩, h⟩⟩
  · have htrip : (w.trip .begin).2.LockHeld false := ⟨h.locked, h.handed, h.queue⟩
    have htables : (w.trip .begin).2.tables = w.tables := rfl
    split
    · rename_i w₁ heq
      rw [heq] at htrip
      exact ⟨w₁, .inl ⟨⟨_, rfl⟩, htrip⟩⟩
    · rename_i w₁ heq
      rw [heq] at htrip htables
      rw [if_neg (by rw [htrip.locked]; nofun)]
      exact ⟨{ w₁ with locked := true }, .inr ⟨by rw [htables], rfl, htrip.handed, htrip.queue⟩⟩

theorem ask? (h : w.LockHeld held) (unit : Memory.Tables) (hook : Option Disturbance) (q : Query) :
    (Process.ask? w unit hook q).2.2.LockHeld held := by
  have hquery : (w.query unit hook q).2.2.LockHeld held := ⟨h.locked, h.handed, h.queue⟩
  unfold Process.ask?
  split
  · rename_i heq
    rw [heq] at hquery
    exact hquery
  · rename_i heq
    rw [heq] at hquery
    exact hquery
  · rename_i heq
    rw [heq] at hquery
    exact hquery

end World.LockHeld

/-- A process of an orderly job that nobody competes with. -/
structure Process.Alone (p : Process α) (w : World) : Prop where
  job : p.place.rest.Orderly p.unit.isSome
  lock : w.LockHeld p.unit.isSome
  unqueued : ∀ d next, p.place ≠ .queued d next

namespace Process

theorem Alone.ended {u : Option Memory.Tables} {outcome : Outcome α}
    (hw : w.LockHeld u.isSome) : (⟨u, .ended outcome⟩ : Process α).Alone w :=
  ⟨trivial, hw, nofun⟩

/-- A job that goes on alone stays alone, from every world. -/
def GoesAlone (i : Nat) (job : Job α) : Prop :=
  ∀ (u : Option Memory.Tables) (w : World), job.Orderly u.isSome → w.LockHeld u.isSome →
    (advance i u w job).1.Alone (advance i u w job).2

variable {u : Option Memory.Tables} {hook : Option Disturbance}

theorem wake_begin_alone {d : Option Deadline} {next : Timed (Except StoreError Unit) → Job α}
    (hnext : ∀ r, GoesAlone i (next r)) (hjob : (Job.begin d next).Orderly u.isSome)
    (hw : w.LockHeld u.isSome) :
    (wake i u hook w (.begin d next)).1.Alone (wake i u hook w (.begin d next)).2 := by
  obtain ⟨hu, hopened, herror, -⟩ := hjob
  rw [hu] at hw
  obtain ⟨w', ⟨⟨e, h⟩, hw'⟩ | ⟨h, hw'⟩⟩ := hw.open?_cases hook
  · simp only [wake, h]
    exact hnext _ none w' (herror e) hw'
  · simp only [wake, h]
    exact hnext _ (some w.tables) w' hopened hw'

theorem wake_call_alone {d : Option Deadline} {q : Query}
    {next : Timed (Except StoreError q.Answer) → Job α} (hnext : ∀ r, GoesAlone i (next r))
    (hjob : (Job.call d q next).Orderly u.isSome) (hw : w.LockHeld u.isSome) :
    (wake i u hook w (.call d q next)).1.Alone (wake i u hook w (.call d q next)).2 := by
  obtain ⟨hu, hgo⟩ := hjob
  rw [hu] at hw
  rcases hask : ask? w (u.getD .empty) hook q with ⟨answer, after, w'⟩
  have hw' := hw.ask? (u.getD .empty) hook q
  rw [hask] at hw'
  cases answer with
  | some answer =>
      simp only [wake, hask]
      exact hnext _ (some after) w' (hgo _) hw'
  | none =>
      simp only [wake, hask]
      exact .ended hw'

theorem asleep_alone {job : Job α} {moment : Nat} {d : Option Deadline}
    (hjob : job.Orderly u.isSome) (hw : w.LockHeld u.isSome) :
    (stop u (.asleep moment d hook job) w).1.Alone (stop u (.asleep moment d hook job) w).2 :=
  ⟨hjob, hw, nofun⟩

/-- Looking for a hook leaves the lock alone. -/
theorem alone_of_takeHook {job : Job α} (request : Request) (hw : w.LockHeld held)
    (h : ∀ hook w₁, w.takeHook request = (hook, w₁) → w₁.LockHeld held →
      (advance i u w job).1.Alone (advance i u w job).2) :
    (advance i u w job).1.Alone (advance i u w job).2 := by
  have hw₁ : (w.takeHook request).2.LockHeld held := ⟨hw.locked, hw.handed, hw.queue⟩
  rcases htake : w.takeHook request with ⟨hook, w₁⟩
  rw [htake] at hw₁
  exact h hook w₁ htake hw₁

theorem goesAlone (i : Nat) (job : Job α) : GoesAlone i job := by
  induction job with
  | done outcome => exact fun u w _ hw => .ended hw
  | log event rest ih => exact fun u w hjob hw => ih u w hjob hw
  | clock next ih => exact fun u w hjob hw => ih w.now u w (hjob w.now) hw
  | begin d next ih =>
      intro u w hjob hw
      refine alone_of_takeHook .begin hw fun hook w₁ htake hw₁ => ?_
      simp only [advance, htake]
      split
      · exact wake_begin_alone ih hjob hw₁
      · split
        · obtain ⟨hu, -, -, hcut⟩ := hjob
          exact ih _ u w₁ (hu ▸ hcut _) hw₁
        · exact asleep_alone hjob hw₁
  | call d q next ih =>
      intro u w hjob hw
      refine alone_of_takeHook q.request hw fun hook w₁ htake hw₁ => ?_
      simp only [advance, htake]
      split
      · have hwake : (wake i u hook w₁ (.call d q next)).1.Alone
            (wake i u hook w₁ (.call d q next)).2 := wake_call_alone ih hjob hw₁
        simp only [wake] at hwake
        exact hwake
      · split
        · obtain ⟨hu, hgo⟩ := hjob
          exact ih _ u w₁ (hu ▸ hgo _) hw₁
        · exact asleep_alone hjob hw₁
  | pause d ms next ih =>
      intro u w hjob hw
      simp only [advance]
      split
      · exact ih _ u w (hjob _) hw
      · split
        · exact ih _ u w (hjob _) hw
        · exact asleep_alone hjob hw
  | commit next ih =>
      intro u w hjob hw
      refine alone_of_takeHook .commit hw fun hook w₁ htake hw₁ => ?_
      simp only [advance, htake]
      split
      · exact ih _ none _ (hjob.2 _) (hw₁.commit _ hook)
      · exact asleep_alone hjob hw₁
  | rollback next ih =>
      intro u w hjob hw
      refine alone_of_takeHook .rollback hw fun hook w₁ htake hw₁ => ?_
      simp only [advance, htake]
      split
      · exact ih _ none _ (hjob.2 _) (hw₁.rollback hook)
      · exact asleep_alone hjob hw₁

theorem wake_alone {job : Job α} (hjob : job.Orderly u.isSome) (hw : w.LockHeld u.isSome) :
    (wake i u hook w job).1.Alone (wake i u hook w job).2 := by
  cases job with
  | done outcome => exact goesAlone i _ u w hjob hw
  | log event rest => exact goesAlone i _ u w hjob hw
  | clock next => exact goesAlone i _ u w hjob hw
  | begin d next => exact wake_begin_alone (fun r => goesAlone i (next r)) hjob hw
  | call d q next => exact wake_call_alone (fun r => goesAlone i (next r)) hjob hw
  | pause d ms next => exact goesAlone i _ u w (hjob _) hw
  | commit next => exact goesAlone i _ none _ (hjob.2 _) (hw.commit _ hook)
  | rollback next => exact goesAlone i _ none _ (hjob.2 _) (hw.rollback hook)

theorem cut_alone {job : Job α} {limit : Duration} (hjob : job.Orderly u.isSome)
    (hw : w.LockHeld u.isSome) : (cut i u limit w job).1.Alone (cut i u limit w job).2 := by
  cases job with
  | done outcome => exact goesAlone i _ u w hjob hw
  | log event rest => exact goesAlone i _ u w hjob hw
  | clock next => exact goesAlone i _ u w hjob hw
  | begin d next =>
      obtain ⟨hu, -, -, hcut⟩ := hjob
      exact goesAlone i _ u w (hu ▸ hcut limit) hw
  | call d q next =>
      obtain ⟨hu, hgo⟩ := hjob
      exact goesAlone i _ u w (hu ▸ hgo _) hw
  | pause d ms next => exact goesAlone i _ u w (hjob _) hw
  | commit next => exact goesAlone i _ u w hjob hw
  | rollback next => exact goesAlone i _ u w hjob hw

theorem poll_alone {p : Process α} (h : p.Alone w) (i : Nat) :
    (p.poll i w).1.Alone (p.poll i w).2 := by
  obtain ⟨u, place⟩ := p
  obtain ⟨hjob, hw, hunqueued⟩ := h
  cases place with
  | ready job => exact goesAlone i job u w hjob hw
  | asleep moment d hook job =>
      simp only [poll]
      split
      · exact wake_alone hjob hw
      · split
        · exact cut_alone hjob hw
        · exact asleep_alone hjob hw
  | queued d next => exact absurd rfl (hunqueued d next)
  | ended outcome => exact .ended hw

end Process

/-- Time may go by. -/
theorem Process.Alone.later {p : Process α} (h : p.Alone w) (moment : Nat) :
    p.Alone { w with now := moment } :=
  ⟨h.job, ⟨h.lock.locked, h.lock.handed, h.lock.queue⟩, h.unqueued⟩

/-- Rounds of one process keep it alone. -/
theorem runUntil_alone (moment rounds : Nat) {p : Process α} (h : p.Alone w) :
    ∃ p' w', runUntil moment rounds w [p] = ([p'], w') ∧ p'.Alone w' := by
  induction rounds generalizing w p with
  | zero => exact ⟨p, _, rfl, h.later moment⟩
  | succ n ih =>
      rw [runUntil]
      split
      · exact ⟨p, w, rfl, h⟩
      split
      · rw [round_single]
        exact ih (p.poll_alone h 0)
      split
      · exact ⟨p, w, rfl, h⟩
      split
      · split
        · exact ih (h.later _)
        · exact ⟨p, _, rfl, h.later _⟩
      · exact ⟨p, _, rfl, h.later _⟩

/-- A call of an orderly job leaves the lock free when it found it free. -/
theorem call_lockHeld {job : Job α} (hjob : job.Orderly false) (hw : w.LockHeld false)
    (pauses : Nat) : (call w job pauses).2.LockHeld false := by
  have hstart : (⟨none, .ready job⟩ : Process α).Alone w := ⟨hjob, hw, nofun⟩
  obtain ⟨p, w', hrun, h⟩ := runUntil_alone (w.after patience) (roundsFor w 1 pauses) hstart
  have hrun : run pauses w [⟨none, .ready job⟩] = ([p], w') := hrun
  have hleft := h.lock.leave 0
  simp only [call, hrun, abandon]
  split
  · exact hleft.release
  · rename_i hunit
    rw [Bool.not_eq_true] at hunit
    rw [hunit] at hleft
    exact hleft

end Rehearsal

end FundsTransfer
