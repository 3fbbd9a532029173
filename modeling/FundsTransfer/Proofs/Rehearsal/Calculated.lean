import FundsTransfer.Proofs.Locking.Transfers
import FundsTransfer.Proofs.Memory.Calm
import FundsTransfer.Proofs.Rehearsal.Undisturbed

/-!
# Calls that can be calculated

A unit of work that nothing disturbs comes to what `Work.Yields` says of its work, on the
tables that were committed when it was opened.  So the answer of the call and the world
after it can be told: the rows of the unit are committed if the work succeeded, and
otherwise only the probes remember that there was one.

This is so for every job that does its work in one unit, `Job.InOneUnit`: it opens the unit,
ends it, and reports what it came to.  A transfer that passes its checks is one, and so is a
resolver.
-/

namespace FundsTransfer

/-- A computation that ended with a result. -/
def Outcome.ofExcept {α : Type} : Except TransferError α → Outcome α
  | .ok a => .ok a
  | .error e => .error e

/-! ## One unit of work and a report -/

namespace Job

variable {α : Type}

/-- A job that emits events and ends. -/
def Reports (o : Outcome α) : Job α → Prop
  | done o' => o' = o
  | log _ rest => rest.Reports o
  | _ => False

theorem reports_conclude (r : Except TransferError α) : (conclude r).Reports (.ofExcept r) := by
  cases r with
  | ok a => rfl
  | error e => rfl

/-- A job that does its work in one unit of work, and reports what it came to. -/
inductive InOneUnit (work : Work α) : Job α → Prop where
  | unit (limit : Option Duration) {k : Except TransferError α → Job α}
      (hk : ∀ r, (k r).Reports (.ofExcept r)) : InOneUnit work ((execute limit work).andThen k)
  | log (event : Log.Event) {rest : Job α} (h : InOneUnit work rest) :
      InOneUnit work (log event rest)

theorem inOneUnit_execute (limit : Option Duration) (work : Work α) :
    (execute limit work).InOneUnit work := by
  have h : ((execute limit work).andThen conclude).InOneUnit work := .unit limit reports_conclude
  rwa [andThen_conclude] at h

end Job

namespace TransferCall

theorem reports_report (reference : String) (r : Except TransferError TransferResult) :
    (report reference r).Reports (.ofExcept r) := by
  cases r with
  | ok a => rfl
  | error e => rfl

theorem inOneUnit {call : TransferCall} {v : ValidTransfer} (h : call.params.validate = .ok v) :
    call.job.InOneUnit (call.work v) := by
  rw [job, Coordinator.transfer, h]
  exact .log _ (.unit _ (reports_report _))

end TransferCall

/-! ## What a call comes to -/

namespace Rehearsal

open Memory

variable {α β : Type} {w : World} {t t' : Tables} {p : Probes}

/-- The world after a unit of work that came to a result. -/
def World.settled (w : World) (r : Except TransferError α) (t : Tables) (p : Probes) : World :=
  match r with
  | .ok _ => { w with tables := t, probes := p }
  | .error _ => { w with probes := p }

theorem World.LockHeld.settled {held : Bool} (h : w.LockHeld held) (r : Except TransferError α)
    (t : Tables) (p : Probes) : (w.settled r t p).LockHeld held := by
  cases r with
  | ok a => exact ⟨h.locked, h.handed, h.queue⟩
  | error e => exact ⟨h.locked, h.handed, h.queue⟩

theorem World.Undisturbed.settled (h : w.Undisturbed) (hp : p.Calm) (r : Except TransferError α)
    (t : Tables) : (w.settled r t p).Undisturbed := by
  cases r with
  | ok a => exact ⟨h.hooks, hp⟩
  | error e => exact ⟨h.hooks, hp⟩

/-- How a process goes on from the end of the work in its unit. -/
def proceed (t : Tables) (w : World) (k : Except TransferError α → Job β) :
    Outcome α → Process β × World
  | .ok a => Process.advance 0 (some t) w (k (.ok a))
  | .error e => Process.advance 0 (some t) w (k (.error e))
  | .overflow => Process.stop (some t) (.ended .overflow) w

/-- Work without hooks comes to its outcome in one turn, whatever the deadline. -/
theorem advance_within_yields {d : Option Deadline} {work : Work α} {o : Outcome α}
    {k : Except TransferError α → Job β} (hhooks : w.hooks = [])
    (h : work.Yields ⟨t, w.probes⟩ o ⟨t', p⟩) :
    Process.advance 0 (some t) w (Job.within d work k) = proceed t' { w with probes := p } k o := by
  induction work generalizing t w with
  | done a =>
      obtain ⟨rfl, hs⟩ := h
      cases hs
      rfl
  | fail e =>
      obtain ⟨rfl, hs⟩ := h
      cases hs
      rfl
  | overflow =>
      obtain ⟨rfl, hs⟩ := h
      cases hs
      rfl
  | log event rest ih => exact ih hhooks h
  | pause ms rest ih => exact h.elim
  | call q next ih =>
      obtain ⟨answer, ⟨t₁, p₁⟩, hrun, hnext⟩ | ⟨hrun, rfl⟩ := Work.yields_call.1 h
      · have hask : Process.ask? w t none q = (some answer, t₁, { w with probes := p₁ }) := by
          simp only [Process.ask?, World.query, Disturbance.perform, hrun]
          cases answer with
          | ok a => rfl
          | error e => rfl
        rw [Job.within, Process.advance, takeHook_of_nil hhooks]
        simp only [sleepOf, if_true, Option.getD_some, hask]
        exact ih answer hhooks hnext
      · have hask : Process.ask? w t none q = (none, t', { w with probes := p }) := by
          simp only [Process.ask?, World.query, Disturbance.perform, hrun]
        rw [Job.within, Process.advance, takeHook_of_nil hhooks]
        simp only [sleepOf, if_true, Option.getD_some, hask]
        rfl

/-- A unit of work that nothing disturbs comes to its result and ends. -/
theorem advance_execute_settled {limit : Option Duration} {work : Work α}
    {r : Except TransferError α} {k : Except TransferError α → Job β} (hw : w.Undisturbed)
    (hlock : w.LockHeld false) (hp : p.Calm)
    (h : work.Yields ⟨w.tables, w.probes⟩ (.ofExcept r) ⟨t, p⟩) :
    Process.advance 0 none w ((Job.execute limit work).andThen k) =
      Process.advance 0 none (w.settled r t p) (k r) := by
  have hopened := (advance_opened limit work k hw.hooks hlock (hw.trip .begin)).trans
    (advance_within_yields (hw.lock true).hooks h)
  obtain ⟨tables, probes, hooks, now, locked, handed, queue, slot⟩ := w
  obtain ⟨hhooks, -⟩ := hw
  obtain ⟨hlocked, hhanded, hqueue⟩ := hlock
  simp only at hhooks hlocked hhanded hqueue hopened
  subst hhooks hlocked hhanded hqueue
  rw [hopened]
  have hafter : (⟨tables, p, [], now, true, none, [], slot⟩ : World).Undisturbed := ⟨rfl, hp⟩
  cases r with
  | ok a =>
      rw [Outcome.ofExcept, proceed, Job.settle, Job.andThen, Process.advance, hafter.takeHook]
      simp only [sleepOf, if_true, Option.getD_some, World.commit, Option.bind_none, hafter.trip,
        World.release]
      rfl
  | error e =>
      rw [Outcome.ofExcept, proceed, Job.settle, Job.andThen, Process.advance, hafter.takeHook]
      simp only [sleepOf, if_true, World.rollback, Option.bind_none, hafter.trip, World.release]
      rfl

/-- A call that ends in its first turn is over. -/
theorem call_eq_of_advance {job : Job α} {w' : World} {outcome : Outcome α} {held : Bool}
    (h : Process.advance 0 none w job = (⟨none, .ended outcome⟩, w')) (hlock : w'.LockHeld held)
    (pauses : Nat) : call w job pauses = (.ofOutcome outcome, w') := by
  obtain ⟨tables, probes, hooks, now, locked, handed, queue, slot⟩ := w'
  obtain ⟨rfl, rfl, rfl⟩ := hlock
  simp only [call, run_of_advance h rfl pauses]
  rfl

theorem advance_of_reports {job : Job α} {o : Outcome α} (h : job.Reports o) (w : World) :
    Process.advance 0 none w job = (⟨none, .ended o⟩, w) := by
  induction job with
  | done o' =>
      cases h
      rfl
  | log event rest ih => exact ih h
  | _ => exact h.elim

/-- A job that does its work in one unit comes to what the work comes to. -/
theorem call_settled {job : Job α} {work : Work α} {r : Except TransferError α}
    (hjob : job.InOneUnit work) (hw : w.Undisturbed) (hlock : w.LockHeld false) (hp : p.Calm)
    (h : work.Yields ⟨w.tables, w.probes⟩ (.ofExcept r) ⟨t, p⟩) (pauses : Nat) :
    call w job pauses = (.ofOutcome (.ofExcept r), w.settled r t p) := by
  refine call_eq_of_advance ?_ (hlock.settled r t p) pauses
  induction hjob with
  | unit limit hk =>
      rw [advance_execute_settled hw hlock hp h]
      exact advance_of_reports (hk r) _
  | log event _ ih => exact ih

/-- Work that overflows leaves the call without an answer, and the committed tables as they were. -/
theorem call_overflowed {job : Job α} {work : Work α} (hjob : job.InOneUnit work)
    (hw : w.Undisturbed) (hlock : w.LockHeld false)
    (h : work.Yields ⟨w.tables, w.probes⟩ .overflow ⟨t, p⟩) (pauses : Nat) :
    call w job pauses = (.overflow, { w with probes := p }) := by
  have hadvance : Process.advance 0 none w job =
      (⟨some t, .ended .overflow⟩, { w with locked := true, probes := p }) := by
    induction hjob with
    | log event _ ih => exact ih
    | unit limit hk =>
        refine (advance_opened limit work _ hw.hooks hlock (hw.trip .begin)).trans ?_
        exact advance_within_yields (hw.lock true).hooks h
  obtain ⟨tables, probes, hooks, now, locked, handed, queue, slot⟩ := w
  obtain ⟨hlocked, hhanded, hqueue⟩ := hlock
  simp only at hlocked hhanded hqueue
  subst hlocked hhanded hqueue
  simp only [call, run_of_advance hadvance rfl pauses]
  rfl

/-! ## Transfers -/

variable {call : TransferCall}

/-- A transfer that does not pass its checks never gets to the store. -/
theorem call_transfer_invalid {e : TransferError} {held : Bool} (hlock : w.LockHeld held)
    (h : call.params.validate = .error e) (pauses : Nat) :
    Rehearsal.call w call.job pauses = (.error e, w) := by
  have hadvance : Process.advance 0 none w call.job = (⟨none, .ended (.error e)⟩, w) := by
    rw [TransferCall.job, Coordinator.transfer, h]
    rfl
  exact call_eq_of_advance hadvance hlock pauses

/-- A transfer that nothing disturbs comes to what its unit of work comes to. -/
theorem call_transfer_settled {v : ValidTransfer} {r : Except TransferError TransferResult}
    (hw : w.Undisturbed) (hlock : w.LockHeld false) (hp : p.Calm)
    (hvalid : call.params.validate = .ok v)
    (h : (call.work v).Yields ⟨w.tables, w.probes⟩ (.ofExcept r) ⟨t, p⟩) (pauses : Nat) :
    Rehearsal.call w call.job pauses = (.ofOutcome (.ofExcept r), w.settled r t p) :=
  call_settled (TransferCall.inOneUnit hvalid) hw hlock hp h pauses

end Rehearsal

end FundsTransfer
