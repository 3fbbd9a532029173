import FundsTransfer.Proofs.Locking.Order
import FundsTransfer.Proofs.Locking.Paths
import FundsTransfer.Proofs.Memory.Probing
import FundsTransfer.Proofs.Transfer.Asking
import FundsTransfer.Proofs.Transfer.Posting
import Mathlib.Data.Int.ConditionallyCompleteOrder

/-!
# The balances that a transfer touches

A transfer touches two balances and no other, each once, and the account with the lower
number first, whichever side sends.  Everything before and after asks other queries.

A call that is let through is these steps in a unit of work with a report around it, so it
locks what they lock and comes as far as they can come (`exists_path_of_canWant`).
-/

namespace FundsTransfer

open Memory

theorem balanceOf_eq_none_of_reference {q : Query} (h : q.OfReference) : balanceOf q = none := by
  cases q with
  | addBalance id delta => exact h.elim
  | _ => rfl

theorem lockOrder_eq (a b : Int) : lockOrder a b = (min a b, max a b) := by
  unfold lockOrder
  split
  · rename_i h
    rw [min_eq_left h, max_eq_right h]
  · rename_i h
    rw [min_eq_right (by omega), max_eq_left (by omega)]

theorem locksAll_applyDelta (account : Int) (delta : Decimal) :
    (applyDelta account delta).LocksAll balanceOf [account] :=
  ⟨rfl, fun _ => rfl, fun _ => ⟨_, rfl⟩⟩

/-- Whichever side sends, the lower account comes first and the higher one next. -/
theorem updateBothBalances_eq (sender receiver : Int) (amount : Decimal) :
    ∃ (d e : Decimal) (f : Account → Account → Account × Account),
      updateBothBalances sender receiver amount =
        (applyDelta (min sender receiver) d >>= fun x =>
          applyDelta (max sender receiver) e >>= fun y => pure (f x y)) := by
  unfold updateBothBalances
  rw [lockOrder_eq]
  by_cases hle : sender ≤ receiver
  · rw [min_eq_left hle, max_eq_right hle, if_pos rfl]
    exact ⟨amount.negate, amount, fun s r => (s, r), rfl⟩
  · rw [min_eq_right (by omega), max_eq_left (by omega), if_neg (by omega)]
    exact ⟨amount, amount.negate, fun r s => (s, r), rfl⟩

/-- Both balances are touched, the lower account first. -/
theorem locksAll_updateBothBalances (sender receiver : Int) (amount : Decimal) :
    (updateBothBalances sender receiver amount).LocksAll balanceOf
      [min sender receiver, max sender receiver] := by
  obtain ⟨d, e, f, heq⟩ := updateBothBalances_eq sender receiver amount
  rw [heq]
  exact (locksAll_applyDelta _ d).bind fun _ => (locksAll_applyDelta _ e).bind fun _ => rfl

/-- A transfer that touches a balance touches both, the lower account first. -/
theorem locksLater_runTransfer {β : Type} {d : Option Deadline}
    {k : Except TransferError TransferResult → Job β} (t : ValidTransfer)
    (reference description : String) (hk : ∀ r, (k r).Takes balanceOf []) :
    (Job.within d (runTransfer t reference description) k).LocksLater balanceOf
      [min t.sender t.receiver, max t.sender t.receiver] := by
  refine Job.locksLater_within
    ((asks_transferReferences _).mono fun _ => balanceOf_eq_none_of_reference) (fun refs => ?_) hk
  refine Job.locksLater_within (Work.asks_require rfl) (fun pending => ?_) hk
  refine Job.locksLater_within (w := Work.emit _) trivial (fun _ => ?_) hk
  refine Job.locksLater_within (asks_writeEntries (fun _ => rfl) _ _ _ _) (fun entries => ?_) hk
  obtain ⟨fromEntry, toEntry⟩ := entries
  refine (Job.locksNext_within (locksAll_updateBothBalances _ _ _) (fun accounts => ?_) hk).later
  refine Work.takes_of_asks (Work.Asks.bind (Work.asks_require rfl) fun transaction => ?_)
  exact Work.Asks.bind trivial fun _ => trivial

/-- One transfer of a coordinator, with everything it is called with. -/
structure TransferCall where
  /-- The coordinator. -/
  coordinator : Coordinator
  /-- The reference number of a transfer that comes without one. -/
  generated : String
  /-- What is asked for. -/
  params : TransferParams

namespace TransferCall

/-- The job of a call. -/
def job (call : TransferCall) : Job TransferResult :=
  call.coordinator.transfer call.generated call.params

/-- The reference number that the transaction of a call carries. -/
def reference (call : TransferCall) : String := call.params.reference.getD call.generated

theorem reference_of_supplied {call : TransferCall} {r : String}
    (h : call.params.reference = some r) : call.reference = r := by
  rw [reference, h]
  rfl

/-- What the call does inside its unit of work, when it is let through. -/
def work (call : TransferCall) (v : ValidTransfer) : Work TransferResult :=
  runTransfer v (v.reference.getD call.generated) (v.description.getD call.coordinator.description)

/-- The account whose balance is touched first. -/
def low (call : TransferCall) : Int := min call.params.sender call.params.receiver

/-- The account whose balance is touched last. -/
def high (call : TransferCall) : Int := max call.params.sender call.params.receiver

/-- A call that is not refused at once. -/
def Valid (call : TransferCall) : Prop := ∃ t, call.params.validate = .ok t

theorem valid_of_isOk {call : TransferCall} (h : call.params.validate.isOk = true) :
    call.Valid := by
  cases hv : call.params.validate with
  | ok v => exact ⟨v, hv⟩
  | error e =>
      rw [hv] at h
      cases h

/-- What follows the unit of work of a transfer. -/
def report (reference : String) : Except TransferError TransferResult → Job TransferResult
  | .ok r => .log (Coordinator.committedEvent r reference) (.done (.ok r))
  | .error e => .log (Coordinator.abortedEvent e reference) (.done (.error e))

theorem takes_report {κ : Type} {row : Query → Option κ} (reference : String)
    (r : Except TransferError TransferResult) : (report reference r).Takes row [] := by
  cases r with
  | ok r => trivial
  | error e => trivial

theorem job_of_not_valid {call : TransferCall} (h : ¬ call.Valid) :
    ∃ e, call.job = .done (.error e) := by
  obtain ⟨c, generated, p⟩ := call
  unfold job Coordinator.transfer
  cases hvalid : p.validate with
  | error e => exact ⟨e, rfl⟩
  | ok t => exact absurd ⟨t, hvalid⟩ h

/-- A call that is let through runs its steps in a unit of work and reports how they ended. -/
theorem job_of_valid {call : TransferCall} (h : call.Valid) :
    ∃ t reference description event,
      call.params.sender ≠ call.params.receiver ∧ t.sender = call.params.sender ∧
      t.receiver = call.params.receiver ∧ t.currency = call.params.currency ∧
      call.job = .log event ((Job.execute call.coordinator.timeout
        (runTransfer t reference description)).andThen (report reference)) := by
  obtain ⟨c, generated, p⟩ := call
  obtain ⟨t, hvalid⟩ := h
  obtain ⟨-, hne, rate, -, ht⟩ := TransferParams.of_validate hvalid
  subst ht
  unfold job Coordinator.transfer
  rw [hvalid]
  refine ⟨_, _, _, _, hne, rfl, rfl, rfl, congrArg (Job.log _) (congrArg _ ?_)⟩
  funext r
  cases r with
  | ok r => rfl
  | error e => rfl

/-- A call that is let through comes as far as its steps can come. -/
theorem exists_path_of_canWant {κ : Type} {row : Query → Option κ} {store : Locking.RowStore row}
    {c locked own : Set κ} {k : κ} {call : TransferCall} (hvalid : call.Valid)
    (h : ∀ (t : ValidTransfer) (reference description : String), t.sender = call.params.sender →
      t.receiver = call.params.receiver → t.currency = call.params.currency →
        Locking.CanWant store c locked ∅ (runTransfer t reference description) own k) :
    ∃ t, Locking.Task.Path store c locked ⟨call.job, ∅⟩ t ∧ t.rows = own ∧ t.Wants row k := by
  obtain ⟨t, reference, description, event, -, hs, hr, hcurrency, hjob⟩ := job_of_valid hvalid
  obtain ⟨t', hpath, hrest⟩ := (h t reference description hs hr hcurrency).execute_andThen
  rw [hjob]
  exact ⟨t', .head .log hpath, hrest⟩

/-- A call is refused at once, or is between two accounts and touches the lower one first. -/
theorem done_or_locksLater (call : TransferCall) :
    (∃ e, call.job = .done (.error e)) ∨
      call.low < call.high ∧ call.job.LocksLater balanceOf [call.low, call.high] := by
  by_cases hvalid : call.Valid
  · obtain ⟨t, reference, description, event, hne, hs, hr, -, hjob⟩ := job_of_valid hvalid
    refine .inr ⟨?_, ?_⟩
    · show min call.params.sender call.params.receiver < max call.params.sender call.params.receiver
      omega
    · rw [hjob, low, high, ← hs, ← hr]
      exact Job.locksLater_execute_andThen (takes_report reference)
        fun hk => locksLater_runTransfer t reference description hk
  · exact .inl (job_of_not_valid hvalid)

/-- The rows that a call locks ascend. -/
theorem takes_ascending (call : TransferCall) :
    ∃ ks, call.job.Takes balanceOf ks ∧ Locking.Ascends id (fun _ => True) ks := by
  obtain ⟨e, hjob⟩ | ⟨hlt, hjob⟩ := call.done_or_locksLater
  · refine ⟨[], ?_, .nil⟩
    rw [hjob]
    trivial
  · refine ⟨[call.low, call.high], hjob.takes, ?_⟩
    exact .cons (fun k hk _ _ => List.mem_singleton.1 hk ▸ hlt) (.cons nofun .nil)

end TransferCall

end FundsTransfer
