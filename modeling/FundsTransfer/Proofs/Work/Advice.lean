import FundsTransfer.Proofs.Rehearsal.Reachable
import FundsTransfer.Proofs.Transfer.Conservation
import FundsTransfer.Proofs.Work.Lifecycle

/-!
# What a failed rollback does to the advice to retry

A unit of work that went wrong may go wrong once more when it is taken back.  Its error then
carries both errors.  Whether it helps to do the work again is a matter of what went wrong
first, `TransferError.innermost`: nothing was published either way.

The error of the store is found through any number of failed rollbacks.  A limit that was
exceeded is not, because no store said it.  So a failed rollback leaves the advice as it was
for every cause but this one: work that took too long may be done again, and when it cannot
be taken back either, it is said that it may not.  `retry_advice_iff` says so for any error,
and for whatever a call of the executor meets.
-/

namespace FundsTransfer

namespace TransferError

/-- What went wrong before any rollback failed. -/
def innermost : TransferError → TransferError
  | .rollbackFailed cause _ => cause.innermost
  | e => e

/-- A limit was exceeded, and then a rollback failed. -/
def HidesLimit (e : TransferError) : Prop :=
  (∃ cause r, e = .rollbackFailed cause r) ∧ ∃ limit, e.innermost = .timedOut limit

theorem storeError?_innermost (e : TransferError) : e.innermost.storeError? = e.storeError? := by
  induction e with
  | rollbackFailed cause r ih => exact ih
  | _ => rfl

/-- But for limits, the advice is that of the store. -/
theorem isRetryable_eq_any {e : TransferError} (h : ∀ limit, e ≠ .timedOut limit) :
    e.isRetryable = e.storeError?.any StoreError.isRetryable := by
  cases e with
  | timedOut limit => exact absurd rfl (h limit)
  | rollbackFailed cause r =>
      simp only [isRetryable, storeError?]
      cases cause.storeError? with
      | some s => rfl
      | none => rfl
  | _ => rfl

/-- A rollback that failed hides limits, and changes the advice in no other way. -/
theorem isRetryable_rollbackFailed (cause : TransferError) (r : StoreError) :
    (rollbackFailed cause r).isRetryable = true ↔
      cause.isRetryable = true ∧ ∀ limit, cause ≠ .timedOut limit := by
  have houter : (rollbackFailed cause r).isRetryable =
      cause.storeError?.any StoreError.isRetryable := isRetryable_eq_any nofun
  constructor
  · intro h
    have hlimit : ∀ limit, cause ≠ .timedOut limit := by
      rintro limit rfl
      cases h
    exact ⟨by rw [isRetryable_eq_any hlimit, ← houter, h], hlimit⟩
  · rintro ⟨h, hlimit⟩
    rw [houter, ← isRetryable_eq_any hlimit, h]

theorem isRetryable_iff_innermost (e : TransferError) :
    e.isRetryable = true ↔ e.innermost.isRetryable = true ∧ ¬ e.HidesLimit := by
  induction e with
  | rollbackFailed cause r ih =>
      rw [isRetryable_rollbackFailed, ih]
      constructor
      · rintro ⟨⟨h, hhides⟩, hlimit⟩
        refine ⟨h, fun ⟨_, limit, hinner⟩ => ?_⟩
        -- beneath this rollback stands another one, or the limit itself
        cases cause with
        | rollbackFailed => exact hhides ⟨⟨_, _, rfl⟩, limit, hinner⟩
        | _ => exact hlimit limit hinner
      · rintro ⟨h, hhides⟩
        refine ⟨⟨h, fun ⟨_, limit, hinner⟩ => hhides ⟨⟨_, _, rfl⟩, limit, hinner⟩⟩, ?_⟩
        rintro limit rfl
        exact hhides ⟨⟨_, _, rfl⟩, limit, rfl⟩
  | _ => exact ⟨fun h => ⟨h, fun ⟨⟨_, _, hfailed⟩, _⟩ => nomatch hfailed⟩, And.left⟩

end TransferError

/-! ## Units of work -/

section

variable {σ α : Type} {b : Backend σ} {limit : Option Duration} {work : Work α} {s : σ} {now : Nat}
  {calls : List Call} {o : Outcome α}

/-- A unit of work that fails is taken back. -/
theorem Way.rolledBack_of_fails (h : Way b limit work s now calls o) {cause : TransferError}
    (hfails : Fails b limit work s now cause) :
    ∃ asked answer, Aside asked ∧
      calls = .begin (.ended (.ok ())) :: (asked ++ [.rollback answer]) ∧
      o = .rolledBack cause answer := by
  cases h with
  | late hopens => exact absurd hfails (not_fails_of_opens hopens nofun cause)
  | refused hopens => exact absurd hfails (not_fails_of_opens hopens nofun cause)
  | overflowed hworks => cases hworks.fails_iff.1 hfails
  | committed hworks => cases hworks.fails_iff.1 hfails
  | @rolledBack asked r _ _ cause' hworks hcause answer =>
      have hsame := hcause.symm.trans (hworks.fails_iff.1 hfails)
      cases hsame
      exact ⟨asked, answer, aside_of_isWork hworks.isWork, rfl, rfl⟩

end

/-- Through any number of failed rollbacks, the error of the store is that of the innermost cause,
and the advice is the innermost one unless this is a limit.  So when a unit of work fails, on any
store and under any limit, its error is as retryable as the cause, unless the cause is a limit and
the rollback fails. -/
theorem retry_advice_iff (error : TransferError) {σ α : Type} (b : Backend σ)
    (limit : Option Duration) (work : Work α) (s : σ) (now : Nat) (calls : List Call)
    (o : Outcome α) (cause : TransferError) :
    (error.storeError? = error.innermost.storeError? ∧
      (error.isRetryable = true ↔ error.innermost.isRetryable = true ∧ ¬ error.HidesLimit)) ∧
    ((Job.execute limit work).course b s now = some (calls, o) →
      Fails b limit work s now cause →
        ∃ e, o = .error e ∧ e.innermost = cause.innermost ∧
          (e.isRetryable = true ↔ cause.isRetryable = true ∧
            ¬ ((∃ r, .rollback (.error r) ∈ calls) ∧ ∃ l, cause = .timedOut l))) := by
  refine ⟨⟨error.storeError?_innermost.symm, error.isRetryable_iff_innermost⟩, ?_⟩
  intro hcourse hfails
  obtain ⟨asked, answer, haside, rfl, rfl⟩ := (way_of_course hcourse).rolledBack_of_fails hfails
  cases answer with
  | ok u =>
      refine ⟨cause, rfl, rfl, ?_⟩
      simp [haside.not_rollback]
  | error r =>
      refine ⟨.rollbackFailed cause r, rfl, rfl, ?_⟩
      rw [TransferError.isRetryable_rollbackFailed]
      simp

/-- The connection breaks while a unit of work is taken back. -/
def connectionReset : StoreError := .database (.io "connection reset by peer")

/-- The requests of work that exceeds its limit then. -/
def lateCalls : List Call :=
  [.begin (.ended (.ok ())), .pause 16, .rollback (.error connectionReset)]

/-- Work of sixteen milliseconds exceeds a limit of twenty, and its rollback fails. -/
theorem late_work_loses_advice :
    (Job.execute (some brief) (.pause 16 (.done 1))).course sluggish () 0 =
        some (lateCalls, .error (.rollbackFailed (.timedOut brief) connectionReset)) ∧
      Fails sluggish (some brief) (.pause 16 (.done 1)) () 0 (.timedOut brief) ∧
      ¬ (TransferError.rollbackFailed (.timedOut brief) connectionReset).isRetryable = true := by
  have hcourse : (Job.execute (some brief) (.pause 16 (.done 1))).course sluggish () 0 =
      some (lateCalls, .error (.rollbackFailed (.timedOut brief) connectionReset)) := rfl
  have hfails : Fails sluggish (some brief) (.pause 16 (.done 1)) () 0 (.timedOut brief) :=
    ⟨_, _, _, .inr ⟨brief, rfl, rfl, (), 5000000, rfl, rfl⟩⟩
  have hrefused : .rollback (.error connectionReset) ∈ lateCalls := by simp [lateCalls]
  obtain ⟨e, he, -, hadvice⟩ :=
    (retry_advice_iff (.timedOut brief) sluggish _ _ _ _ _ _ _).2 hcourse hfails
  cases he
  exact ⟨hcourse, hfails, fun h => (hadvice.1 h).2 ⟨⟨_, hrefused⟩, brief, rfl⟩⟩

/-! ## A transfer that takes too long -/

namespace Rehearsal

/-- Two accounts with a hundred dollars each.  It takes a second to write an entry, and the first
rollback fails. -/
def slowWorld : World :=
  let w := twoAccounts hundredDollars hundredDollars
  { w with
    probes := w.probes.arm .rollback 1
    hooks := [⟨.createEntry, 0, .delay 1000⟩] }

/-- A quarter of a second. -/
def quarterSecond : Duration := .ofMilliseconds 250

/-- A payment of a dollar takes longer than it may, and its rollback fails.  What went wrong first
may be tried again, and the error says that it may not. -/
theorem late_payment_not_retryable :
    Reachable slowWorld ∧
      ∃ e, (call slowWorld
          ((⟨some quarterSecond, "Fund Transfer"⟩ : Coordinator).transfer "" oneDollar) 0).1 =
            .error e ∧
        e.innermost.isRetryable = true ∧ e.isRetryable = false := by
  refine ⟨.delay .createEntry 0 1000 (.fault .rollback 1 (reachable_twoAccounts _ _)),
    .rollbackFailed (.timedOut quarterSecond) (Memory.injected .rollback), ?_, rfl, rfl⟩
  decide +kernel

end Rehearsal

end FundsTransfer
