import FundsTransfer.Proofs.Rehearsal.Lock

/-!
# Calls that nothing disturbs

When no fault is armed, no hook is pending and the lock is free, a unit of work goes
through in one turn, and what it comes to can be calculated.  `advance_opened` says how the
turn begins, and `call_of_advance` what is answered at its end.
-/

namespace FundsTransfer.Rehearsal

open Memory

/-- No fault is armed and no hook is pending. -/
structure World.Undisturbed (w : World) : Prop where
  hooks : w.hooks = []
  faults (point : FaultPoint) : w.probes.countdown point = 0

theorem takeHook_of_nil {w : World} (h : w.hooks = []) (request : Request) :
    w.takeHook request = (none, w) := by
  rw [World.takeHook, h, Trigger.take, ← h]

namespace World.Undisturbed

variable {w : World}

theorem takeHook (h : w.Undisturbed) (request : Request) : w.takeHook request = (none, w) :=
  takeHook_of_nil h.hooks request

theorem trip (h : w.Undisturbed) (point : FaultPoint) : w.trip point = (false, w) := by
  unfold World.trip Probes.trip
  rw [h.faults point]

theorem lock (h : w.Undisturbed) (held : Bool) : { w with locked := held }.Undisturbed :=
  ⟨h.hooks, h.faults⟩

end World.Undisturbed

variable {α β : Type} {w w₁ : World} {fails : Bool}

/-- What comes of opening a unit of work where no hook is pending. -/
theorem advance_begin {d : Option Deadline} {next : Timed (Except StoreError Unit) → Job α}
    (hhooks : w.hooks = []) (htrip : w.trip .begin = (fails, w₁)) :
    Process.advance 0 none w (.begin d next) =
      if fails then Process.advance 0 none w₁ (next (.ended (.error (injected .begin))))
      else if w₁.locked then
        if isOver w₁.now d then Process.advance 0 none w₁ (next (.cutOff (limitOf d)))
        else (⟨none, .queued d next⟩, { w₁ with queue := w₁.queue ++ [0] })
      else Process.advance 0 (some w₁.tables) { w₁ with locked := true }
        (next (.ended (.ok ()))) := by
  rw [Process.advance, takeHook_of_nil hhooks]
  simp only [sleepOf, if_true, Process.open?, Option.bind_none, htrip]
  cases fails with
  | true => rfl
  | false =>
      by_cases hlocked : w₁.locked = true
      · simp only [if_pos hlocked]
        rfl
      · simp only [if_neg hlocked]
        rfl

/-- A lock that is free is not waited for. -/
theorem advance_opened (limit : Option Duration) (work : Work α)
    (k : Except TransferError α → Job β) (hhooks : w.hooks = []) (hlock : w.LockHeld false)
    (htrip : w.trip .begin = (fails, w₁)) :
    Process.advance 0 none w ((Job.execute limit work).andThen k) =
      if fails then Process.advance 0 none w₁ (k (.error (.begin (injected .begin))))
      else Process.advance 0 (some w.tables) { w₁ with locked := true }
        (Job.within (limit.map fun l => ⟨w.now + l.nanoseconds, l⟩) work
          fun r => (Job.settle r).andThen k) := by
  have htables : w₁.tables = w.tables := by
    have hsame := w.trip_same .begin
    rw [htrip] at hsame
    exact hsame.tables
  have hfree : w₁.locked = false := by
    have hkept : (w.trip .begin).2.locked = w.locked := rfl
    rw [htrip] at hkept
    exact hkept.trans hlock.locked
  show Process.advance 0 none w (.begin _ fun r => Job.andThen _ k) = _
  rw [advance_begin hhooks htrip, hfree, htables]
  cases fails with
  | true => rfl
  | false =>
      rw [← Job.within_andThen]
      rfl

/-- A call whose process ends in its first turn has no other. -/
theorem run_of_advance {job : Job α} {p : Process α} {w' : World} {outcome : Outcome α}
    (h : Process.advance 0 none w job = (p, w')) (hp : p.place = .ended outcome) (pauses : Nat) :
    run pauses w [(⟨none, .ready job⟩ : Process α)] = ([p], w') := by
  obtain ⟨n, hn⟩ : ∃ n, roundsFor w 1 pauses = n + 2 :=
    ⟨roundsFor w 1 pauses - 2, by unfold roundsFor; omega⟩
  have hpoll : (⟨none, .ready job⟩ : Process α).poll 0 w = (p, w') := h
  have hready : anyReady 0 w [(⟨none, .ready job⟩ : Process α)] = true := rfl
  have hgoes : ¬ ([(⟨none, .ready job⟩ : Process α)].any Process.overflowed = true) :=
    Bool.false_ne_true
  unfold run
  rw [List.length_singleton, hn, runUntil, if_neg hgoes, if_pos hready, round_single, hpoll]
  dsimp only
  rw [runUntil]
  simp [anyReady, Process.canAdvance, hp]

/-- Such a call answers what the process ended with. -/
theorem call_of_advance {job : Job α} {p : Process α} {w' : World} {outcome : Outcome α}
    (h : Process.advance 0 none w job = (p, w')) (hp : p.place = .ended outcome) (pauses : Nat) :
    (call w job pauses).1 = .ofOutcome outcome := by
  simp only [call, run_of_advance h hp pauses, Process.callEnd, hp]

end FundsTransfer.Rehearsal
