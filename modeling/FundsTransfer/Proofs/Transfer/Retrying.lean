import FundsTransfer.Proofs.Rehearsal.Reordering
import FundsTransfer.Proofs.Work.Doubt

/-!
# Transfers that are made again

An error that is called retryable tells the caller that the transfer may be made again,
since nothing was committed.  This is so for every error of a transfer but one.  When the
commit itself fails, the transfer may be committed or not, and the error is called
retryable by what the store says alone.  So the promise is kept exactly when no store
gives a retryable error for a commit that it may have done (`retry_safe_iff`).

A broken connection is such an error.  `dollar_paid_again` is a caller who was told twice
that a payment may be made again, while it was made both times.
-/

namespace FundsTransfer

open Memory Memory.Tables

namespace TransferCall

/-- The call with another reference number to be used when none was supplied. -/
def generating (call : TransferCall) (number : String) : TransferCall :=
  { call with generated := number }

/-- On some committed rows, the call can get as far as to be published. -/
def GoesThrough {σ : Type} (call : TransferCall) (b : Contract σ) (c c' : σ) : Prop :=
  ∃ v t r t', call.params.validate = .ok v ∧ b.opens c t ∧
    (call.work v).Ends b.answers t (.ok r) t' ∧ b.publishes c t' c'

variable {σ : Type} {b : Contract σ} {call : TransferCall} {c c' : σ} {n : Nat} {e : StoreError}

theorem transacts_contract (b : Contract σ) (call : TransferCall) :
    b.Transacts call.job none :=
  transfer_transacts _ _ _ fun _ _ _ _ _ _ _ => trivial

/-- A call that can be published can be published and told that it was not. -/
theorem GoesThrough.inDoubt (h : call.GoesThrough b c c') (he : b.doubtful e) :
    ∃ rest, b.Steps ⟨call.job, none, c, n⟩ ⟨rest, none, c', n + 1⟩ ∧
      rest.Returns (.error (.commit e)) := by
  obtain ⟨v, t, r, t', hvalid, hopens, hends, hpublishes⟩ := h
  rw [job, Coordinator.transfer, hvalid]
  exact ⟨_, .head .log (Contract.steps_execute_inDoubt hopens hends hpublishes he), rfl⟩

end TransferCall

/-- An error that is called retryable was returned for nothing that was published, unless the commit
failed with a doubtful error that is called retryable itself.  Where there is no such error, a
caller who makes a transfer again as long as this is said to be safe has it done once at most.
Where there is one, the promise is broken for every transfer that can succeed. -/
theorem retry_safe_iff {σ : Type} (b : Contract σ) (call : TransferCall) :
    (∀ c rest u c' n e, b.Steps ⟨call.job, none, c, 0⟩ ⟨rest, u, c', n⟩ →
      rest.Returns (.error e) → e.isRetryable = true →
        n = 0 ∨ n = 1 ∧ ∃ e', b.doubtful e' ∧ e'.isRetryable = true ∧ e = .commit e') ∧
    ((∀ e, b.doubtful e → e.isRetryable = false) →
      ∀ (number : Nat → String) c k c' n r,
        b.Retried (fun i => (call.generating (number i)).job) c k c' n r → n ≤ 1) ∧
    ∀ c c', call.GoesThrough b c c' →
      ((∀ rest u c' n e, b.Steps ⟨call.job, none, c, 0⟩ ⟨rest, u, c', n⟩ →
        rest.Returns (.error e) → e.isRetryable = true → n = 0) ↔
          ∀ e, b.doubtful e → e.isRetryable = false) := by
  have honly : ∀ c rest u c' n e, b.Steps ⟨call.job, none, c, 0⟩ ⟨rest, u, c', n⟩ →
      rest.Returns (.error e) → e.isRetryable = true →
        n = 0 ∨ n = 1 ∧ ∃ e', b.doubtful e' ∧ e'.isRetryable = true ∧ e = .commit e' := by
    intro c rest u c' n e hrun hreturns hretryable
    have hsound := (Contract.Sound.closed (call.transacts_contract b)).steps hrun
    obtain ⟨rfl, -⟩ | ⟨rfl, ⟨a, ha⟩ | ⟨e', he', heq⟩⟩ := hsound.told hreturns
    · exact .inl rfl
    · cases ha
    · cases heq
      exact .inr ⟨rfl, e', he', hretryable, rfl⟩
  refine ⟨honly, fun hdoubt number c k c' n r h => ?_, fun c c' hthrough => ⟨fun hsafe e he => ?_,
    fun hdoubt rest u c' n e hrun hreturns hretryable => ?_⟩⟩
  · exact (h.published_le (fun i => TransferCall.transacts_contract b _) hdoubt).1
  · obtain ⟨rest, hrun, hreturns⟩ := hthrough.inDoubt he
    cases hretryable : e.isRetryable with
    | false => rfl
    | true => exact absurd (hsafe _ _ _ _ _ hrun hreturns hretryable) (Nat.succ_ne_zero 0)
  · obtain hnone | ⟨-, e', he', hretryable', -⟩ := honly c rest u c' n e hrun hreturns hretryable
    · exact hnone
    · rw [hdoubt e' he'] at hretryable'
      cases hretryable'

/-! ## A broken connection -/

open Rehearsal

/-- A store with the tables of the store in memory, of which the connection may break while it
commits. -/
def brittle : Contract Tables where
  opens c t := t = c
  answers := Memory.Answers .epoch
  publishes _ t c := c = t
  others _ _ := False
  doubtful e := ∃ m, e = .database (.io m)

/-- The error of a commit whose connection broke. -/
def connectionLost : StoreError := .database (.io "connection reset by peer")

/-- Where there is room, a call for which there is no reason against it can be published. -/
theorem exists_goesThrough {t : Tables} {call : TransferCall} {k : Nat}
    {rest : List TransferCall} (ht : t.Intact) (hroom : Room k t (call :: rest))
    (hrefusal : call.refusal? t = none) :
    ∃ t', call.GoesThrough brittle t t' ∧ t'.Intact ∧ t'.activity = t.activity ∧
      Carried call.params call.reference t t' := by
  obtain ⟨v, hv⟩ := TransferCall.valid_of_refusal? hrefusal
  have hcalm : Probes.quiet.Calm := fun _ => rfl
  have hcomes := TransferCall.comes_of_valid ht.toWellFormed hcalm hv
  rw [TransferCall.hindrance?_of_affords fun hvalid => hroom.affords hvalid, hrefusal] at hcomes
  obtain ⟨_, ⟨t', p⟩, hyields, -, r, rfl⟩ := hcomes
  obtain ⟨hcarried, hactivity⟩ := TransferCall.carried_of_work ht hv hyields.ends
  refine ⟨t', ⟨v, t, r, t', hv, rfl, hyields.ends, rfl⟩, ?_, hactivity, hcarried⟩
  exact (hyields.ends.refines
    (fun ht hanswers => ⟨hanswers, ht.change (change_of_gives hanswers)⟩) ht).2

/-- A dollar, to be paid under a reference number that is made up. -/
def unnumbered : TransferCall := ⟨.default, "", { oneDollar with reference := none }⟩

/-- The reference numbers that are made up. -/
def madeUp : Nat → String
  | 0 => "G-1"
  | _ => "G-2"

/-- The tables on which the dollar is paid. -/
def beforePayment : Tables := (twoAccounts hundredDollars hundredDollars).tables

theorem intact_beforePayment : beforePayment.Intact :=
  (reachable_twoAccounts hundredDollars hundredDollars).intact

theorem room_beforePayment :
    Room 2 beforePayment [unnumbered.generating (madeUp 0), unnumbered.generating (madeUp 1)] :=
  room_hundred_each (by decide +kernel) (by decide +kernel)

theorem welcome_beforePayment (i : Nat) :
    (unnumbered.generating (madeUp i)).refusal? beforePayment = none := by
  cases i with
  | zero => decide +kernel
  | succ i =>
      show (unnumbered.generating "G-2").refusal? beforePayment = none
      decide +kernel

/-- The dollar can be paid while the connection breaks, so the promise is broken. -/
theorem brittle_promise_broken :
    ∃ t, (unnumbered.generating (madeUp 0)).GoesThrough brittle beforePayment t ∧
      ¬ ∀ rest u c n e,
        brittle.Steps ⟨(unnumbered.generating (madeUp 0)).job, none, beforePayment, 0⟩
          ⟨rest, u, c, n⟩ → rest.Returns (.error e) → e.isRetryable = true → n = 0 := by
  obtain ⟨t, hthrough, -⟩ := exists_goesThrough intact_beforePayment room_beforePayment
    (welcome_beforePayment 0)
  obtain ⟨-, -, hiff⟩ := retry_safe_iff brittle (unnumbered.generating (madeUp 0))
  refine ⟨t, hthrough, fun hsafe => ?_⟩
  cases (hiff _ _ hthrough).1 hsafe connectionLost ⟨_, rfl⟩

/-- The caller pays the dollar, is told that nothing was committed, pays it again, and is told so
again.  Two dollars are gone. -/
theorem dollar_paid_again :
    ∃ c e, brittle.Retried (fun i => (unnumbered.generating (madeUp i)).job)
        beforePayment 1 c 2 (.error e) ∧
      e.isRetryable = true ∧ (c.balance? 1).map Decimal.toRat = some 98 ∧
      (c.balance? 2).map Decimal.toRat = some 102 := by
  have hintact := intact_beforePayment
  have hroom := room_beforePayment
  have hvalid := welcome_beforePayment 0
  obtain ⟨t₁, hfirst, hintact₁, hactivity, hcarried⟩ :=
    exists_goesThrough hintact hroom hvalid
  have hroom₁ := hroom.carried (TransferCall.valid_of_refusal? hvalid) hcarried.balances
  have hvalid₁ : (unnumbered.generating (madeUp 1)).refusal? t₁ = none := by
    rw [TransferCall.refusal?_congr hactivity]
    · exact welcome_beforePayment 1
    · rw [Bool.eq_iff_iff, ← hintact₁.uses_iff, ← hintact.uses_iff, hcarried.uses,
        or_iff_left (by decide)]
  obtain ⟨t₂, hsecond, -, -, hcarried₁⟩ := exists_goesThrough hintact₁ hroom₁ hvalid₁
  have hdoubtful : brittle.doubtful connectionLost := ⟨_, rfl⟩
  obtain ⟨rest, hrun, hreturns⟩ := hfirst.inDoubt (n := 0) hdoubtful
  obtain ⟨rest', hrun', hreturns'⟩ := hsecond.inDoubt (n := 1) hdoubtful
  have hvalue := fun account => gains_trans
    (hroom.value (TransferCall.valid_of_refusal? hvalid) hcarried.balances account)
    (hroom₁.value (TransferCall.valid_of_refusal? hvalid₁) hcarried₁.balances account)
  have honce : brittle.Retried (fun i => (unnumbered.generating (madeUp i)).job)
      beforePayment 0 t₁ 1 (.error (.commit connectionLost)) := .once hrun hreturns
  refine ⟨t₂, .commit connectionLost, honce.again rfl hrun' hreturns', rfl, ?_, ?_⟩
  · rw [hvalue]
    decide +kernel
  · rw [hvalue]
    decide +kernel

end FundsTransfer
