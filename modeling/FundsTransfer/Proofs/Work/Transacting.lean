import FundsTransfer.Proofs.Work.Publishing
import FundsTransfer.Transfer.Coordinator

/-!
# Jobs that do everything in one unit of work

A transfer opens one unit of work, and the end of the unit is the last thing that it does
to the store.  `Transacts` says so of a job: an opening that fails, a rollback, and either
answer to a commit leave nothing to do but to emit events and to return.  What is returned
tells which of them it was.

What is committed when the unit opens is not known before, since others commit in the
meantime.  So it is part of the state here, next to the copy that the work changes.
-/

namespace FundsTransfer.Job

variable {σ α β : Type}

/-- A job that returns a result after nothing but events. -/
def Returns : Job α → Except TransferError α → Prop
  | .done (.ok a), r => r = .ok a
  | .done (.error e), r => r = .error e
  | .log _ rest, r => rest.Returns r
  | _, _ => False

/-- A job returns one result at most. -/
theorem Returns.unique {job : Job α} {r r' : Except TransferError α} (h : job.Returns r)
    (h' : job.Returns r') : r = r' := by
  induction job with
  | done outcome =>
      cases outcome with
      | ok a => exact Eq.trans h (Eq.symm h')
      | error e => exact Eq.trans h (Eq.symm h')
      | overflow => exact h.elim
  | log event rest ih => exact ih h h'
  | _ => exact h.elim

/-- A job that works in one unit of work, and returns a value exactly when it committed rows that
go with the value.  The rows of the unit stand next to those that were committed when it was
opened, which have the property `I`. -/
def Transacts (A : Answering σ) (I : σ → Prop) (post : σ → σ → α → Prop) :
    Job α → Option (σ × σ) → Prop
  | .done outcome, _ => ∀ a, outcome ≠ .ok a
  | .log _ rest, u => rest.Transacts A I post u
  | .clock next, u => ∀ now, (next now).Transacts A I post u
  | .begin _ next, u => u = none ∧
      (∀ c, I c → (next (.ended (.ok ()))).Transacts A I post (some (c, c))) ∧
      (∀ e, (next (.ended (.error e))).Returns (.error (.begin e))) ∧
      ∀ limit, (next (.cutOff limit)).Returns (.error (.timedOut limit))
  | .call _ q next, u => ∃ c t, u = some (c, t) ∧
      (∀ r t', A t q r t' → (next (.ended r)).Transacts A I post (some (c, t'))) ∧
      ∀ limit, (next (.cutOff limit)).Transacts A I post (some (c, t))
  | .pause _ _ next, u => ∀ r, (next r).Transacts A I post u
  | .commit next, u => ∃ c t, u = some (c, t) ∧
      (∃ a, (next (.ok ())).Returns (.ok a) ∧ post c t a) ∧
      ∀ e, (next (.error e)).Returns (.error (.commit e))
  | .rollback next, _ => ∀ r, ∃ e, (next r).Returns (.error e)

variable {A : Answering σ} {I : σ → Prop} {post : σ → σ → α → Prop} {u : Option (σ × σ)}

/-- Such a job has not got its value yet. -/
theorem Transacts.not_returns_ok {job : Job α} {a : α} (h : job.Transacts A I post u) :
    ¬ job.Returns (.ok a) := by
  induction job with
  | done outcome =>
      intro hr
      cases outcome with
      | ok b => exact h b rfl
      | error e => cases hr
      | overflow => exact hr
  | log event rest ih => exact ih h
  | _ => exact id

/-! ## The executor -/

/-- Work is followed by what follows its success, from where it succeeds, or by what follows an
error, from anywhere. -/
theorem transacts_within {deadline : Option Deadline} {w : Work β}
    {k : Except TransferError β → Job α} {c t : σ}
    (hok : ∀ b t', w.Ends A t (.ok b) t' → (k (.ok b)).Transacts A I post (some (c, t')))
    (herror : ∀ e t', (k (.error e)).Transacts A I post (some (c, t'))) :
    (within deadline w k).Transacts A I post (some (c, t)) := by
  induction w generalizing t with
  | done b => exact hok b t ⟨rfl, rfl⟩
  | fail e => exact herror e t
  | overflow => exact nofun
  | log event rest ih => exact ih hok
  | pause ms rest ih =>
      intro r
      cases r with
      | ended r => exact ih hok
      | cutOff limit => exact herror _ t
  | call q next ih =>
      rw [within]
      refine ⟨c, t, rfl, fun r t₁ hA => ?_, fun limit => herror _ t⟩
      exact ih r fun b t' hends => hok b t' ⟨r, t₁, hA, hends⟩

/-- The executor does everything in one unit of work, and so does a job that goes on to return what
the executor returned. -/
theorem transacts_execute_andThen {limit : Option Duration} {work : Work β}
    {k : Except TransferError β → Job α}
    (hok : ∀ c, I c → ∀ b t, work.Ends A c (.ok b) t →
      ∃ a, (k (.ok b)).Returns (.ok a) ∧ post c t a)
    (herror : ∀ e, (k (.error e)).Returns (.error e)) :
    ((execute limit work).andThen k).Transacts A I post none := by
  intro now
  refine ⟨rfl, fun c hc => ?_, fun e => herror _, fun l => herror _⟩
  show ((within _ work settle).andThen k).Transacts A I post (some (c, c))
  rw [within_andThen]
  refine transacts_within (fun b t hends => ?_) fun e t r => ?_
  · exact ⟨c, t, rfl, hok c hc b t hends, fun e => herror _⟩
  · cases r with
    | ok u => exact ⟨_, herror e⟩
    | error rollback => exact ⟨_, herror _⟩

end FundsTransfer.Job

namespace FundsTransfer

/-- A transfer that is let through does everything in one unit of work. -/
theorem transfer_transacts {σ : Type} {A : Answering σ} {I : σ → Prop}
    {post : σ → σ → TransferResult → Prop} (c : Coordinator) (generated : String)
    (p : TransferParams)
    (hok : ∀ v r t t', p.validate = .ok v → I t →
      (runTransfer v (v.reference.getD generated) (v.description.getD c.description)).Ends
        A t (.ok r) t' → post t t' r) :
    (c.transfer generated p).Transacts A I post none := by
  unfold Coordinator.transfer
  cases hvalid : p.validate with
  | error e =>
      intro r h
      cases h
  | ok v =>
      refine Job.transacts_execute_andThen (fun t ht r t' hends => ?_) fun e => rfl
      exact ⟨r, rfl, hok v r t t' hvalid ht hends⟩

end FundsTransfer
