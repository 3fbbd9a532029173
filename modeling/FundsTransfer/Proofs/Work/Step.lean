import FundsTransfer.Proofs.Work.Ending
import FundsTransfer.Work.Job

/-!
# The steps of a job

A job holds a unit of work or none, and next to it stand the committed rows.
`Job.Step` lists everything that one step can do to the two, whoever interprets the job:
a store answers or refuses, a wait ends or is cut off.  Only a commit changes what is
committed, and it puts the unit of work in its place.  Faults, hooks, clocks and locks
decide which of the steps is taken and are left out.

So a property of all runs is shown for the steps, one case each, and `Steps.preserves`
carries it along a run.  How a rehearsal takes these steps is shown elsewhere, once.
-/

namespace FundsTransfer.Job

/-- A job under way. -/
structure State (σ α : Type) where
  /-- What is left of the job. -/
  job : Job α
  /-- The unit of work it holds. -/
  unit : Option σ
  /-- The committed rows. -/
  committed : σ

variable {σ α : Type} [Inhabited σ]

/-- What one step of a job can do.  A query outside a unit of work gets a store without rows. -/
inductive Step (A : Answering σ) : State σ α → State σ α → Prop where
  | log : Step A ⟨.log event rest, u, c⟩ ⟨rest, u, c⟩
  | clock (now : Nat) : Step A ⟨.clock next, u, c⟩ ⟨next now, u, c⟩
  | opened : Step A ⟨.begin d next, u, c⟩ ⟨next (.ended (.ok ())), some c, c⟩
  | notOpened (e : StoreError) :
      Step A ⟨.begin d next, u, c⟩ ⟨next (.ended (.error e)), none, c⟩
  | notInTime (limit : Duration) : Step A ⟨.begin d next, u, c⟩ ⟨next (.cutOff limit), u, c⟩
  | answered : A (u.getD default) q r t →
      Step A ⟨.call d q next, u, c⟩ ⟨next (.ended r), some t, c⟩
  /-- A sum outgrew a decimal.  The unit of work is as it was. -/
  | overflowed : Step A ⟨.call d q next, u, c⟩ ⟨.done .overflow, some (u.getD default), c⟩
  | cutOff (limit : Duration) : Step A ⟨.call d q next, u, c⟩ ⟨next (.cutOff limit), u, c⟩
  | paused (r : Timed Unit) : Step A ⟨.pause d ms next, u, c⟩ ⟨next r, u, c⟩
  | committed : Step A ⟨.commit next, u, c⟩ ⟨next (.ok ()), none, u.getD default⟩
  | notCommitted (e : StoreError) :
      Step A ⟨.commit next, u, c⟩ ⟨next (.error e), none, c⟩
  | rolledBack (r : Except StoreError Unit) :
      Step A ⟨.rollback next, u, c⟩ ⟨next r, none, c⟩

/-- Any number of steps. -/
inductive Steps (A : Answering σ) : State σ α → State σ α → Prop where
  | refl : Steps A s s
  | head : Step A s s' → Steps A s' s'' → Steps A s s''

variable {A B : Answering σ} {s s' s'' : State σ α}

theorem Steps.single (h : Step A s s') : Steps A s s' := .head h .refl

theorem Steps.trans (h : Steps A s s') (h' : Steps A s' s'') : Steps A s s'' := by
  induction h with
  | refl => exact h'
  | head hs _ ih => exact .head hs (ih h')

/-- What every step keeps, a run keeps. -/
theorem Steps.preserves {I : State σ α → Prop} (hstep : ∀ {s s'}, Step A s s' → I s → I s')
    (h : Steps A s s') (hI : I s) : I s' := by
  induction h with
  | refl => exact hI
  | head hs _ ih => exact ih (hstep hs hI)

/-- A store that can answer more lets a job do more. -/
theorem Step.mono (hAB : ∀ s q r s', A s q r s' → B s q r s') (h : Step A s s') :
    Step B s s' := by
  cases h with
  | log => exact .log
  | clock now => exact .clock now
  | opened => exact .opened
  | notOpened e => exact .notOpened e
  | notInTime limit => exact .notInTime limit
  | answered hA => exact .answered (hAB _ _ _ _ hA)
  | overflowed => exact .overflowed
  | cutOff limit => exact .cutOff limit
  | paused r => exact .paused r
  | committed => exact .committed
  | notCommitted e => exact .notCommitted e
  | rolledBack r => exact .rolledBack r

theorem Steps.mono (hAB : ∀ s q r s', A s q r s' → B s q r s') (h : Steps A s s') :
    Steps B s s' := by
  induction h with
  | refl => exact .refl
  | head hs _ ih => exact .head (hs.mono hAB) ih

/-- A property of tables that answers keep holds of the unit of work and of what is committed, all
along a run. -/
theorem Steps.preserves_rows {I : σ → Prop} (hdefault : I default)
    (hA : ∀ {t q r t'}, A t q r t' → I t → I t') (h : Steps A s s')
    (hunit : ∀ t ∈ s.unit, I t) (hcommitted : I s.committed) :
    (∀ t ∈ s'.unit, I t) ∧ I s'.committed := by
  have hgetD : ∀ {u : Option σ}, (∀ t ∈ u, I t) → I (u.getD default) := by
    intro u hu
    cases u with
    | none => exact hdefault
    | some t => exact hu t rfl
  refine h.preserves (I := fun s => (∀ t ∈ s.unit, I t) ∧ I s.committed) ?_ ⟨hunit, hcommitted⟩
  rintro s s' hs ⟨hu, hc⟩
  cases hs with
  | log => exact ⟨hu, hc⟩
  | clock now => exact ⟨hu, hc⟩
  | opened => exact ⟨fun t ht => Option.some.inj ht ▸ hc, hc⟩
  | notOpened e => exact ⟨nofun, hc⟩
  | notInTime limit => exact ⟨hu, hc⟩
  | answered h => exact ⟨fun t ht => Option.some.inj ht ▸ hA h (hgetD hu), hc⟩
  | overflowed => exact ⟨fun t ht => Option.some.inj ht ▸ hgetD hu, hc⟩
  | cutOff limit => exact ⟨hu, hc⟩
  | paused r => exact ⟨hu, hc⟩
  | committed => exact ⟨nofun, hgetD hu⟩
  | notCommitted e => exact ⟨nofun, hc⟩
  | rolledBack r => exact ⟨nofun, hc⟩

end FundsTransfer.Job
