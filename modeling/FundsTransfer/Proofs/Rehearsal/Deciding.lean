import FundsTransfer.Proofs.Memory.Racing
import FundsTransfer.Proofs.Rehearsal.Calculated
import FundsTransfer.Proofs.Transfer.Verdict

/-!
# What decides a call

A call that nothing disturbs is decided by the tables that are committed when it is made.
It breaks off at what stands in its way, its `hindrance?`, and if there is nothing it
succeeds.  `TurnsOut` says what the caller is told and what becomes of the tables.

After the call nothing disturbs the next one either, `World.Ready`.  So what is shown of one
call can be shown of many that are made one after another.
-/

namespace FundsTransfer

open Memory Memory.Tables

namespace TransferCall

variable {call : TransferCall} {t t' : Tables} {p : Probes} {v : ValidTransfer}

/-- What a call breaks off at where nothing disturbs, if anything. -/
def hindrance? (call : TransferCall) (t : Tables) : Option Hindrance :=
  match call.params.validate with
  | .error e => some (.refused e)
  | .ok _ => FundsTransfer.hindrance? t call.params call.reference

theorem hindrance?_of_valid (hv : call.params.validate = .ok v) :
    call.hindrance? t = FundsTransfer.hindrance? t call.params call.reference := by
  rw [hindrance?, hv]

/-- The steps of a call break off at what stands in its way. -/
theorem comes_of_valid (ht : t.WellFormed) (hp : p.Calm) (hv : call.params.validate = .ok v) :
    (call.work v).Comes ⟨t, p⟩ (call.hindrance? t) := by
  have hcurrency := TransferParams.currency_of_validate hv
  rw [hindrance?_of_valid hv]
  obtain ⟨-, hne, rate, -, rfl⟩ := TransferParams.of_validate hv
  exact comes_runTransfer ht hp hcurrency hne

/-- How a call ends on some tables, and what becomes of them. -/
inductive TurnsOut (call : TransferCall) (t : Tables) :
    Rehearsal.CallEnd TransferResult → Tables → Prop where
  | refused {e : TransferError} (h : call.hindrance? t = some (.refused e)) :
      TurnsOut call t (.error e) t
  | overflowed (h : call.hindrance? t = some .overflow) : TurnsOut call t .overflow t
  | succeeded {v : ValidTransfer} {r : TransferResult} {t' : Tables}
      (h : call.hindrance? t = none) (hvalid : call.params.validate = .ok v)
      (hends : (call.work v).Ends (Answers .epoch) t (.ok r) t') : TurnsOut call t (.ok r) t'

end TransferCall

namespace Rehearsal

variable {w : World} {t : Tables}

/-- A world with these tables in which nothing disturbs a call. -/
structure World.Ready (w : World) (t : Tables) : Prop where
  tables : w.tables = t
  wellFormed : t.WellFormed
  undisturbed : w.Undisturbed
  lock : w.LockHeld false

/-- A call in such a world turns out one way or the other, and leaves such a world behind. -/
theorem call_turnsOut (call : TransferCall) (hw : w.Ready t) (pauses : Nat) :
    ∃ r w' t', Rehearsal.call w call.job pauses = (r, w') ∧ w'.Ready t' ∧
      call.TurnsOut t r t' := by
  obtain ⟨rfl, hwell, hquiet, hlock⟩ := hw
  cases hv : call.params.validate with
  | error e =>
      have hrefused : call.hindrance? w.tables = some (.refused e) := by
        rw [TransferCall.hindrance?, hv]
      exact ⟨_, w, w.tables, call_transfer_invalid hlock hv pauses, ⟨rfl, hwell, hquiet, hlock⟩,
        .refused hrefused⟩
  | ok v =>
      obtain ⟨o, ⟨t', p'⟩, hyields, hcalm, hmeets⟩ :=
        TransferCall.comes_of_valid hwell hquiet.faults hv
      cases hhindrance : call.hindrance? w.tables with
      | none =>
          rw [hhindrance] at hmeets
          obtain ⟨r, rfl⟩ := hmeets
          exact ⟨_, _, t', call_transfer_settled (r := .ok r) hquiet hlock hcalm hv hyields pauses,
            ⟨rfl, hyields.wellFormed hwell, hquiet.settled hcalm _ _, hlock.settled _ _ _⟩,
            .succeeded hhindrance hv hyields.ends⟩
      | some hindrance =>
          rw [hhindrance] at hmeets
          cases hindrance with
          | refused e =>
              cases hmeets
              exact ⟨_, _, w.tables,
                call_transfer_settled (r := .error e) hquiet hlock hcalm hv hyields pauses,
                ⟨rfl, hwell, hquiet.settled hcalm _ _, hlock.settled _ _ _⟩, .refused hhindrance⟩
          | overflow =>
              cases hmeets
              exact ⟨_, _, w.tables,
                call_overflowed (TransferCall.inOneUnit hv) hquiet hlock hyields pauses,
                ⟨rfl, hwell, ⟨hquiet.hooks, hcalm⟩, ⟨hlock.locked, hlock.handed, hlock.queue⟩⟩,
                .overflowed hhindrance⟩

end Rehearsal

end FundsTransfer
