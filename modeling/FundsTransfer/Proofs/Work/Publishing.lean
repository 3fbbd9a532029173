import FundsTransfer.Proofs.Work.Step

/-!
# Jobs that publish last

A job that runs work in a unit of work and settles it changes what is committed at one
point only: its commit.  When the commit succeeds, nothing is left to do but to emit
events and to end with the value.  On every other way out the unit of work is taken back
or left where it stands.

`Publishes` says this of a job, `State.Sound` of a job under way, and a step keeps it.
`publishes_execute_andThen` says it of the executor: what is committed in the end is
what the work left behind, when the work succeeds from what was committed before.
-/

namespace FundsTransfer.Job

variable {σ α β : Type}

/-- A job that ends with a value after nothing but events. -/
def Concludes : Job α → α → Prop
  | .done outcome, a => outcome = .ok a
  | .log _ rest, a => rest.Concludes a
  | _, _ => False

/-- A job that holds a unit of work, or none, and ends with a value only when it committed, as its
last step, rows that go with the value.  `c` is what is committed until then. -/
def Publishes (A : Answering σ) (c : σ) (post : σ → α → Prop) : Job α → Option σ → Prop
  | .done outcome, _ => ∀ a, outcome ≠ .ok a
  | .log _ rest, u => rest.Publishes A c post u
  | .clock next, u => ∀ now, (next now).Publishes A c post u
  | .begin _ next, u => u = none ∧ (next (.ended (.ok ()))).Publishes A c post (some c) ∧
      (∀ e, (next (.ended (.error e))).Publishes A c post none) ∧
      ∀ limit, (next (.cutOff limit)).Publishes A c post none
  | .call _ q next, u => ∃ t, u = some t ∧
      (∀ r t', A t q r t' → (next (.ended r)).Publishes A c post (some t')) ∧
      ∀ limit, (next (.cutOff limit)).Publishes A c post (some t)
  | .pause _ _ next, u => ∀ r, (next r).Publishes A c post u
  | .commit next, u => ∃ t, u = some t ∧ (∃ a, (next (.ok ())).Concludes a ∧ post t a) ∧
      ∀ e, (next (.error e)).Publishes A c post none
  | .rollback next, _ => ∀ r, (next r).Publishes A c post none

variable {A : Answering σ} {c : σ} {post : σ → α → Prop}

/-! ## Along a run -/

/-- A job under way that has not committed yet, or has nothing left but events. -/
inductive State.Sound (A : Answering σ) (c : σ) (post : σ → α → Prop) (s : State σ α) : Prop where
  | pending (hcommitted : s.committed = c) (hjob : s.job.Publishes A c post s.unit)
  | published (a : α) (hjob : s.job.Concludes a) (hpost : post s.committed a)

theorem State.Sound.step [Inhabited σ] {s s' : State σ α} (hs : s.Sound A c post)
    (h : Step A s s') : s'.Sound A c post := by
  cases hs with
  | published a hjob hpost =>
      cases h with
      | log => exact .published a hjob hpost
      | clock => exact hjob.elim
      | opened => exact hjob.elim
      | notOpened => exact hjob.elim
      | notInTime => exact hjob.elim
      | answered => exact hjob.elim
      | overflowed => exact hjob.elim
      | cutOff => exact hjob.elim
      | paused => exact hjob.elim
      | committed => exact hjob.elim
      | notCommitted => exact hjob.elim
      | rolledBack => exact hjob.elim
  | pending hcommitted hjob =>
      cases h with
      | log => exact .pending hcommitted hjob
      | clock now => exact .pending hcommitted (hjob now)
      | opened =>
          cases hcommitted
          exact .pending rfl hjob.2.1
      | notOpened e => exact .pending hcommitted (hjob.2.2.1 e)
      | notInTime limit =>
          obtain ⟨rfl, -, -, hcut⟩ := hjob
          exact .pending hcommitted (hcut limit)
      | answered hA =>
          obtain ⟨t, rfl, hanswer, -⟩ := hjob
          exact .pending hcommitted (hanswer _ _ hA)
      | overflowed => exact .pending hcommitted nofun
      | cutOff limit =>
          obtain ⟨t, rfl, -, hcut⟩ := hjob
          exact .pending hcommitted (hcut limit)
      | paused r => exact .pending hcommitted (hjob r)
      | committed =>
          obtain ⟨t, rfl, ⟨a, hdone, hpost⟩, -⟩ := hjob
          exact .published a hdone hpost
      | notCommitted e =>
          obtain ⟨t, rfl, -, herror⟩ := hjob
          exact .pending hcommitted (herror e)
      | rolledBack r => exact .pending hcommitted (hjob r)

/-- A run keeps a job sound, to its end. -/
theorem State.Sound.steps [Inhabited σ] {s s' : State σ α} (hs : s.Sound A c post)
    (h : Steps A s s') : s'.Sound A c post :=
  h.preserves (fun hstep hs => hs.step hstep) hs

/-! ## The executor -/

/-- Ending as the last step did adds nothing. -/
@[simp] theorem andThen_conclude (job : Job α) : job.andThen conclude = job := by
  induction job with
  | done outcome => cases outcome <;> rfl
  | log event rest ih => exact congrArg (log event) ih
  | clock next ih => exact congrArg clock (funext ih)
  | begin deadline next ih => exact congrArg (begin deadline) (funext ih)
  | call deadline q next ih => exact congrArg (call deadline q) (funext ih)
  | pause deadline ms next ih => exact congrArg (pause deadline ms) (funext ih)
  | commit next ih => exact congrArg commit (funext ih)
  | rollback next ih => exact congrArg rollback (funext ih)

/-- What follows work under a deadline may be taken into what follows its end. -/
theorem within_andThen {γ : Type} (deadline : Option Deadline) (w : Work γ)
    (f : Except TransferError γ → Job α) (k : Except TransferError α → Job β) :
    (within deadline w f).andThen k = within deadline w fun r => (f r).andThen k := by
  induction w with
  | done a => rfl
  | fail e => rfl
  | overflow => rfl
  | log event rest ih => exact congrArg (log event) ih
  | pause ms rest ih =>
      refine congrArg (Job.pause deadline ms) (funext fun r => ?_)
      cases r with
      | ended r => exact ih
      | cutOff limit => rfl
  | call q next ih =>
      rw [within, within]
      refine congrArg (Job.call deadline q) (funext fun r => ?_)
      cases r with
      | ended r => exact ih r
      | cutOff limit => rfl

/-- Work is followed by what follows its success, from where it succeeds, or by what follows an
error, from anywhere. -/
theorem publishes_within {γ : Type} {deadline : Option Deadline} {w : Work γ}
    {k : Except TransferError γ → Job α} {t : σ}
    (hok : ∀ a t', w.Ends A t (.ok a) t' → (k (.ok a)).Publishes A c post (some t'))
    (herror : ∀ e t', (k (.error e)).Publishes A c post (some t')) :
    (within deadline w k).Publishes A c post (some t) := by
  induction w generalizing t with
  | done a => exact hok a t ⟨rfl, rfl⟩
  | fail e => exact herror e t
  | overflow => exact nofun
  | log event rest ih => exact ih hok
  | pause ms rest ih =>
      intro r
      cases r with
      | ended r => exact ih hok
      | cutOff limit => exact herror _ t
  | call q next ih =>
      rw [within]
      refine ⟨t, rfl, fun r t₁ hA => ?_, fun limit => herror _ t⟩
      exact ih r fun a t' hends => hok a t' ⟨r, t₁, hA, hends⟩

/-- A unit of work that is settled with an error publishes nothing. -/
theorem publishes_settle_error {e : TransferError} {k : Except TransferError β → Job α} {t : σ}
    (herror : ∀ e, (k (.error e)).Publishes A c post none) :
    ((settle (.error e)).andThen k).Publishes A c post (some t) := by
  intro r
  cases r with
  | ok u => exact herror e
  | error rollback => exact herror _

/-- A unit of work that is settled with a value publishes what it holds. -/
theorem publishes_settle_ok {b : β} {k : Except TransferError β → Job α} {t : σ}
    (hok : ∃ a, (k (.ok b)).Concludes a ∧ post t a)
    (herror : ∀ e, (k (.error e)).Publishes A c post none) :
    ((settle (.ok b)).andThen k).Publishes A c post (some t) :=
  ⟨t, rfl, hok, fun _ => herror _⟩

/-- The executor commits what its work left behind, from what was committed before. -/
theorem publishes_execute_andThen {limit : Option Duration} {work : Work β}
    {k : Except TransferError β → Job α}
    (hok : ∀ b t, work.Ends A c (.ok b) t → ∃ a, (k (.ok b)).Concludes a ∧ post t a)
    (herror : ∀ e, (k (.error e)).Publishes A c post none) :
    ((execute limit work).andThen k).Publishes A c post none := by
  intro now
  refine ⟨rfl, ?_, fun e => herror _, fun l => herror _⟩
  show ((within _ work settle).andThen k).Publishes A c post (some c)
  rw [within_andThen]
  exact publishes_within (fun b t hends => publishes_settle_ok (hok b t hends) herror)
    (fun e t => publishes_settle_error herror)

end FundsTransfer.Job
