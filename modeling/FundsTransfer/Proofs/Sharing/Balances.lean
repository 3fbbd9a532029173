import FundsTransfer.Proofs.Locking.Meeting
import FundsTransfer.Proofs.Sharing.Touching

/-!
# Transfers in any direction

Transfers over the same accounts can go in opposite directions, and around in circles.
All of them touch the lower of their two accounts first.  So where a touched row stays
locked until the unit of work ends, one transfer may have to wait for another, but no
circle of transfers arises in which each waits for a row of the next.  On the store in
memory the same order can be read off its log.
-/

namespace FundsTransfer

open Memory

namespace TransferCall

/-- The balances that a call touches, if it gets through. -/
def plan (call : TransferCall) : List Int :=
  if call.low < call.high then [call.low, call.high] else []

variable {ι : Type}

/-- Transfers that share a store in memory. -/
def sharing (calls : ι → TransferCall) (tables : Tables) (probes : Probes) :
    Sharing.System ι fun _ => TransferResult where
  store := ⟨tables, probes, none⟩
  task i := ⟨.ready (calls i).job, none⟩

variable [DecidableEq ι]

theorem progress_start (call : TransferCall) (i : ι) :
    Sharing.Progress call.plan [] [] i (⟨.ready call.job, none⟩ : Sharing.Task TransferResult) := by
  unfold plan
  split
  · refine .before rfl rfl ?_
    obtain ⟨e, hjob⟩ | ⟨-, hjob⟩ := call.done_or_locksLater
    · show call.job.LocksLater _ _
      rw [hjob]
      trivial
    · exact hjob
  · rename_i hlt
    obtain ⟨e, hjob⟩ | ⟨hlt', -⟩ := call.done_or_locksLater
    · have hplan : ([] : List Int) = Sharing.touchesBy i [] ++ [] := rfl
      refine .after hplan (.inl rfl) ?_
      show call.job.Takes _ _
      rw [hjob]
      trivial
    · exact absurd hlt' hlt

theorem tidy_start (calls : ι → TransferCall) (tables : Tables) (probes : Probes) :
    Sharing.Tidy probes.touched (fun i => (calls i).plan) [] (sharing calls tables probes) [] where
  exclusive _ hlocks := absurd hlocks Sharing.Task.not_locks_ready
  nodup := .nil
  mem _ := ⟨nofun, fun h => absurd rfl h⟩
  log := (List.append_nil _).symm
  progress i := (calls i).progress_start i

/-- What a call left in the log: nothing, both accounts, or the lower one alone when it was stopped
there or is still under way. -/
def Piece (call : TransferCall) (i : ι) (es : Sharing.Trace ι)
    (task : Sharing.Task TransferResult) : Prop :=
  Sharing.touchesBy i es = [] ∨ call.low < call.high ∧
    (Sharing.touchesBy i es = [call.low, call.high] ∨
      Sharing.touchesBy i es = [call.low] ∧
        (Sharing.Stopped i [call.low] es ∨ task.unit.isSome = true))

theorem piece_of_progress {call : TransferCall} {order : List ι} {es : Sharing.Trace ι} {i : ι}
    {task : Sharing.Task TransferResult} (h : Sharing.Progress call.plan order es i task) :
    call.Piece i es task := by
  have hsplit : ∀ {rest}, call.plan = Sharing.touchesBy i es ++ rest →
      Sharing.touchesBy i es = [] ∨ call.low < call.high ∧
        (Sharing.touchesBy i es = [call.low, call.high] ∨
          Sharing.touchesBy i es = [call.low] ∧ rest ≠ []) := by
    intro rest hplan
    unfold plan at hplan
    split at hplan
    · rename_i hlt
      rcases hl : Sharing.touchesBy i es with _ | ⟨a, _ | ⟨b, l⟩⟩
      · exact .inl rfl
      · rw [hl] at hplan
        cases hplan
        exact .inr ⟨hlt, .inr ⟨rfl, List.cons_ne_nil _ _⟩⟩
      · rw [hl, List.cons_append, List.cons_append, List.cons.injEq, List.cons.injEq] at hplan
        obtain ⟨rfl, rfl, hnil⟩ := hplan
        obtain ⟨rfl, -⟩ := List.append_eq_nil_iff.1 hnil.symm
        exact .inr ⟨hlt, .inl rfl⟩
    · exact .inl (List.append_eq_nil_iff.1 hplan.symm).1
  cases h with
  | before hplan htouches hjob => exact .inl htouches
  | between hplan hjob hunit hlast =>
      obtain hnone | ⟨hlt, hall | ⟨hlow, -⟩⟩ := hsplit hplan
      · exact .inl hnone
      · exact .inr ⟨hlt, .inl hall⟩
      · exact .inr ⟨hlt, .inr ⟨hlow, .inr hunit⟩⟩
  | after hplan hwhy hjob =>
      obtain hnone | ⟨hlt, hall | ⟨hlow, hrest⟩⟩ := hsplit hplan
      · exact .inl hnone
      · exact .inr ⟨hlt, .inl hall⟩
      · exact .inr ⟨hlt, .inr ⟨hlow, .inl (hlow ▸ hwhy.resolve_left hrest)⟩⟩

end TransferCall

/-- No transfers wait for each other in a circle, whatever store locks the accounts they touch, and
on the store in memory each of them leaves its lower account before its higher one in the log. -/
theorem transfers_touch_low_first {ι : Type} [DecidableEq ι] (calls : ι → TransferCall) :
    (∀ (store : Locking.RowStore balanceOf) (c : Set Int)
        (s : Locking.System ι Int fun _ => TransferResult),
      (Locking.System.start c fun i => (calls i).job).Reaches store s →
        ¬ s.Deadlocked balanceOf) ∧
      ∀ (tables : Tables) (probes : Probes) (es : Sharing.Trace ι)
        (s : Sharing.System ι fun _ => TransferResult),
      Sharing.Run (TransferCall.sharing calls tables probes) es s →
        ∃ order : List ι, order.Nodup ∧ (∀ i, i ∈ order ↔ Sharing.touchesBy i es ≠ []) ∧
          s.store.probes.touched =
            probes.touched ++ order.flatMap (fun i => Sharing.touchesBy i es) ∧
          ∀ i, (calls i).Piece i es (s.task i) := by
  constructor
  · intro store c s h
    exact Locking.not_deadlocked (fun _ _ _ _ => .inr trivial)
      (fun i => (calls i).takes_ascending) h
  · intro tables probes es s h
    obtain ⟨order, htidy⟩ := h.tidy (TransferCall.tidy_start calls tables probes)
    exact ⟨order, htidy.nodup, htidy.mem, htidy.log,
      fun i => TransferCall.piece_of_progress (htidy.progress i)⟩

/-- Two transfers of a dollar in opposite directions. -/
def crossing : Bool → TransferCall
  | false => ⟨.default, "", Rehearsal.oneDollar⟩
  | true =>
    ⟨.default, "", { Rehearsal.oneDollar with sender := 2, receiver := 1, reference := some "R-2" }⟩

/-- The two accounts of the transfers. -/
def crossed : Tables :=
  (Rehearsal.twoAccounts Rehearsal.hundredDollars Rehearsal.hundredDollars).tables

/-- The two transfers in turns. -/
def crossingRun : Sharing.Trace Bool × Sharing.System Bool fun _ => TransferResult :=
  Sharing.play (TransferCall.sharing crossing crossed .quiet)
    (List.replicate 60 [true, false]).flatten

/-- The second transfer can come to wait for the first one, but then they do not wait for each other
in a circle.  On the store in memory both get through, one after the other, and each touches the
first account first. -/
theorem crossing_touch_low_first :
    (∃ s, (Locking.System.start ∅ fun i => (crossing i).job).Reaches anyLocking s ∧
        s.Waits balanceOf true false ∧ ¬ s.Deadlocked balanceOf) ∧
      crossingRun.2.store.probes.touched = [1, 2, 1, 2] ∧
      ∀ i, (crossing i).Piece i crossingRun.1 (crossingRun.2.task i) := by
  obtain ⟨hfree, hlog⟩ := transfers_touch_low_first crossing
  refine ⟨?_, by decide +kernel, ?_⟩
  · have hvalid : ∀ i, (crossing i).Valid := by
      intro i
      cases i with
      | false => exact TransferCall.valid_of_isOk (by decide +kernel)
      | true => exact TransferCall.valid_of_isOk (by decide +kernel)
    have hlow : (crossing true).low = (crossing false).low := by decide
    obtain ⟨s, hreaches, hwaits⟩ :=
      TransferCall.exists_waiting (by decide) (hvalid true) (hvalid false) hlow ∅
    exact ⟨s, hreaches, hwaits, hfree anyLocking ∅ s hreaches⟩
  · have hrun : Sharing.Run (TransferCall.sharing crossing crossed .quiet) crossingRun.1
        crossingRun.2 := by
      rw [crossingRun]
      exact Sharing.run_play _ _
    obtain ⟨order, -, -, -, hpiece⟩ := hlog crossed .quiet _ _ hrun
    exact hpiece

end FundsTransfer
