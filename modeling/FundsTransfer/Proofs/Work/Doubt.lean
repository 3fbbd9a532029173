import FundsTransfer.Proofs.Work.Transacting
import Mathlib.Logic.Relation

/-!
# Commits in doubt

A commit can be answered with an error although it took effect: the connection may break
after the server committed and before its answer arrives.  A caller who then makes the
request again has it done twice.  So the errors that a commit may come with in such a
case, the *doubtful* ones, must not invite anybody to do so.

`Contract` is a store of which nothing is known but that it keeps the contract of units
of work.  What is asked inside a unit of work reaches the committed rows when the unit is
published, and not otherwise.  Everything else is left open: which rows a unit of work
sees, what it is answered, how it is merged with what others committed in the meantime.

`Steps` is one attempt of a caller on such a store, and `Retried` a caller who goes on as
long as the error says that this is safe.
-/

namespace FundsTransfer

/-- A store that keeps the contract of units of work, as one caller sees it. -/
structure Contract (σ : Type) where
  /-- What a unit of work sees when it is opened over committed rows. -/
  opens : σ → σ → Prop
  /-- The answers to queries inside a unit of work. -/
  answers : Answering σ
  /-- What is committed after a unit of work was published over committed rows. -/
  publishes : σ → σ → σ → Prop
  /-- What others can do to the committed rows. -/
  others : σ → σ → Prop
  /-- The errors of a commit that may have published. -/
  doubtful : StoreError → Prop

/-- A job under way on a store. -/
structure Attempt (σ α : Type) where
  /-- What is left of the job. -/
  job : Job α
  /-- What its unit of work sees. -/
  unit : Option σ
  /-- The committed rows. -/
  committed : σ
  /-- The number of units of work that the caller has published, in this attempt and before. -/
  published : Nat

namespace Contract

variable {σ α β : Type}

/-- What can happen next to an attempt. -/
inductive Step (b : Contract σ) : Attempt σ α → Attempt σ α → Prop where
  | other (hothers : b.others c c') : Step b ⟨job, u, c, n⟩ ⟨job, u, c', n⟩
  | log : Step b ⟨.log event rest, u, c, n⟩ ⟨rest, u, c, n⟩
  | clock (now : Nat) : Step b ⟨.clock next, u, c, n⟩ ⟨next now, u, c, n⟩
  | opened (hopens : b.opens c t) :
      Step b ⟨.begin d next, none, c, n⟩ ⟨next (.ended (.ok ())), some t, c, n⟩
  | notOpened (e : StoreError) :
      Step b ⟨.begin d next, none, c, n⟩ ⟨next (.ended (.error e)), none, c, n⟩
  | notInTime : Step b ⟨.begin (some d) next, u, c, n⟩ ⟨next (.cutOff d.limit), u, c, n⟩
  | answered (hanswers : b.answers t q r t') :
      Step b ⟨.call d q next, some t, c, n⟩ ⟨next (.ended r), some t', c, n⟩
  /-- A sum outgrew a decimal. -/
  | overflowed : Step b ⟨.call d q next, some t, c, n⟩ ⟨.done .overflow, some t, c, n⟩
  | cutOff : Step b ⟨.call (some d) q next, u, c, n⟩ ⟨next (.cutOff d.limit), u, c, n⟩
  | paused : Step b ⟨.pause d ms next, u, c, n⟩ ⟨next (.ended ()), u, c, n⟩
  | pauseCutOff :
      Step b ⟨.pause (some d) ms next, u, c, n⟩ ⟨next (.cutOff d.limit), u, c, n⟩
  | committed (hpublishes : b.publishes c t c') :
      Step b ⟨.commit next, some t, c, n⟩ ⟨next (.ok ()), none, c', n + 1⟩
  | inDoubt (hpublishes : b.publishes c t c') (hdoubtful : b.doubtful e) :
      Step b ⟨.commit next, some t, c, n⟩ ⟨next (.error e), none, c', n + 1⟩
  | notCommitted (e : StoreError) :
      Step b ⟨.commit next, some t, c, n⟩ ⟨next (.error e), none, c, n⟩
  | rolledBack (r : Except StoreError Unit) :
      Step b ⟨.rollback next, some t, c, n⟩ ⟨next r, none, c, n⟩

/-- Anything that can become of an attempt. -/
abbrev Steps (b : Contract σ) : Attempt σ α → Attempt σ α → Prop :=
  Relation.ReflTransGen (Step b)

/-- A caller who makes an attempt, and another one after each error that says that this is safe: the
number of further attempts, what is committed at last, the number of units of work published, and
the last answer. -/
inductive Retried (b : Contract σ) (job : Nat → Job α) (c : σ) :
    Nat → σ → Nat → Except TransferError α → Prop where
  | once (hrun : b.Steps ⟨job 0, none, c, 0⟩ ⟨rest, u, c', n⟩) (hreturns : rest.Returns r) :
      Retried b job c 0 c' n r
  | again (h : Retried b job c k c' n (.error e)) (hretryable : e.isRetryable = true)
      (hrun : b.Steps ⟨job (k + 1), none, c', n⟩ ⟨rest, u, c'', n'⟩) (hreturns : rest.Returns r) :
      Retried b job c (k + 1) c'' n' r

/-- A job that does everything in one unit of work. -/
abbrev Transacts (b : Contract σ) (job : Job α) (u : Option (σ × σ)) : Prop :=
  job.Transacts b.answers (fun _ => True) (fun _ _ _ => True) u

/-! ## One attempt -/

/-- The ways in which a caller can be told about a unit of work that was published. -/
def Told (b : Contract σ) (r : Except TransferError α) : Prop :=
  (∃ a, r = .ok a) ∨ ∃ e, b.doubtful e ∧ r = .error (.commit e)

/-- How far an attempt has come that started after `n` publications. -/
inductive Sound (b : Contract σ) (n : Nat) : Attempt σ α → Prop where
  | closed (hjob : b.Transacts job none) : Sound b n ⟨job, none, c, n⟩
  | opened (t₀ t : σ) (hjob : b.Transacts job (some (t₀, t))) : Sound b n ⟨job, some t, c, n⟩
  | unpublished (hjob : job.Returns (.error e)) : Sound b n ⟨job, none, c, n⟩
  | published (hjob : job.Returns r) (htold : b.Told r) : Sound b n ⟨job, none, c, n + 1⟩

variable {b : Contract σ} {n : Nat} {s s' : Attempt σ α}

/-- A job that returns goes on to nothing but events. -/
theorem Step.returned {job : Job α} {c : σ} {r : Except TransferError α} (hjob : job.Returns r)
    (h : b.Step ⟨job, none, c, n⟩ s') :
    ∃ job' c', s' = ⟨job', none, c', n⟩ ∧ job'.Returns r := by
  cases h with
  | other => exact ⟨_, _, rfl, hjob⟩
  | log => exact ⟨_, _, rfl, hjob⟩
  | _ => exact hjob.elim

theorem Sound.step (hs : b.Sound n s) (h : b.Step s s') : b.Sound n s' := by
  cases hs with
  | unpublished hjob =>
      obtain ⟨job', c', rfl, hjob'⟩ := h.returned hjob
      exact .unpublished hjob'
  | published hjob htold =>
      obtain ⟨job', c', rfl, hjob'⟩ := h.returned hjob
      exact .published hjob' htold
  | closed hjob =>
      cases h with
      | other => exact .closed hjob
      | log => exact .closed hjob
      | clock now => exact .closed (hjob now)
      | opened => exact .opened _ _ (hjob.2.1 _ trivial)
      | notOpened e => exact .unpublished (hjob.2.2.1 e)
      | notInTime => exact .unpublished (hjob.2.2.2 _)
      | cutOff =>
          obtain ⟨t₀, t, hnone, -⟩ := hjob
          cases hnone
      | paused => exact .closed (hjob _)
      | pauseCutOff => exact .closed (hjob _)
  | opened t₀ t hjob =>
      cases h with
      | other => exact .opened _ _ hjob
      | log => exact .opened _ _ hjob
      | clock now => exact .opened _ _ (hjob now)
      | notInTime => exact absurd hjob.1 nofun
      | answered hanswers =>
          obtain ⟨t₀, t, hsome, hanswer, -⟩ := hjob
          cases hsome
          exact .opened _ _ (hanswer _ _ hanswers)
      | overflowed => exact .opened t₀ t nofun
      | cutOff =>
          obtain ⟨t₀, t, hsome, -, hcut⟩ := hjob
          cases hsome
          exact .opened _ _ (hcut _)
      | paused => exact .opened _ _ (hjob _)
      | pauseCutOff => exact .opened _ _ (hjob _)
      | committed =>
          obtain ⟨t₀, t, -, ⟨a, hreturns, -⟩, -⟩ := hjob
          exact .published hreturns (.inl ⟨a, rfl⟩)
      | @inDoubt _ _ _ e _ _ _ hdoubtful =>
          obtain ⟨t₀, t, -, -, herror⟩ := hjob
          exact .published (herror e) (.inr ⟨e, hdoubtful, rfl⟩)
      | notCommitted e =>
          obtain ⟨t₀, t, -, -, herror⟩ := hjob
          exact .unpublished (herror e)
      | rolledBack r =>
          obtain ⟨e, hreturns⟩ := hjob r
          exact .unpublished hreturns

theorem Sound.steps (hs : b.Sound n s) (h : b.Steps s s') : b.Sound n s' := by
  induction h with
  | refl => exact hs
  | tail _ hstep ih => exact ih.step hstep

/-- An attempt that returns has published nothing and returns an error, or it has published once and
returns a value or a doubtful error. -/
theorem Sound.told {job : Job α} {u : Option σ} {c : σ} {m : Nat} {r : Except TransferError α}
    (hs : b.Sound n ⟨job, u, c, m⟩) (hreturns : job.Returns r) :
    (m = n ∧ ∃ e, r = .error e) ∨ (m = n + 1 ∧ b.Told r) := by
  have herror : ∀ {u}, b.Transacts job u → ∃ e, r = .error e := by
    intro u hjob
    cases r with
    | ok a => exact absurd hreturns hjob.not_returns_ok
    | error e => exact ⟨e, rfl⟩
  cases hs with
  | closed hjob => exact .inl ⟨rfl, herror hjob⟩
  | opened _ _ hjob => exact .inl ⟨rfl, herror hjob⟩
  | unpublished hjob => exact .inl ⟨rfl, _, hreturns.unique hjob⟩
  | published hjob htold => exact .inr ⟨rfl, hreturns.unique hjob ▸ htold⟩

/-! ## Many attempts -/

/-- Where no doubtful error says that another attempt is safe, one unit of work is published at
most. -/
theorem Retried.published_le {job : Nat → Job α} {c c' : σ} {k n : Nat}
    {r : Except TransferError α} (hjob : ∀ i, b.Transacts (job i) none)
    (hdoubt : ∀ e, b.doubtful e → e.isRetryable = false) (h : b.Retried job c k c' n r) :
    n ≤ 1 ∧ ∀ e, r = .error e → e.isRetryable = true → n = 0 := by
  have hattempt : ∀ {i c rest u c' m} {r : Except TransferError α},
      b.Steps ⟨job i, none, c, 0⟩ ⟨rest, u, c', m⟩ → rest.Returns r →
        m ≤ 1 ∧ ∀ e, r = .error e → e.isRetryable = true → m = 0 := by
    intro i c rest u c' m r hrun hreturns
    obtain ⟨rfl, -⟩ | ⟨rfl, htold⟩ := ((Sound.closed (hjob i)).steps hrun).told hreturns
    · exact ⟨Nat.zero_le 1, fun _ _ _ => rfl⟩
    · refine ⟨Nat.le_refl 1, fun e he hretryable => ?_⟩
      obtain ⟨a, hok⟩ | ⟨e', hdoubtful, herror⟩ := htold
      · rw [hok] at he
        cases he
      · rw [herror] at he
        cases he
        exact absurd hretryable (by simp [TransferError.isRetryable, TransferError.storeError?,
          hdoubt e' hdoubtful])
  induction h with
  | once hrun hreturns => exact hattempt hrun hreturns
  | again h hretryable hrun hreturns ih =>
      -- the attempt before was told to try again, so nothing is published yet
      obtain rfl := ih.2 _ rfl hretryable
      exact hattempt hrun hreturns

/-! ## A run into doubt -/

/-- Work that can succeed takes its job to what follows. -/
theorem steps_within {d : Option Deadline} {w : Work β} {k : Except TransferError β → Job α}
    {t t' c : σ} {a : β} (h : w.Ends b.answers t (.ok a) t') :
    b.Steps ⟨Job.within d w k, some t, c, n⟩ ⟨k (.ok a), some t', c, n⟩ := by
  induction w generalizing t with
  | done a' =>
      obtain ⟨ha, rfl⟩ := h
      cases ha
      exact .refl
  | fail e => cases h.1
  | overflow => cases h.1
  | log event rest ih => exact .head .log (ih h)
  | pause ms rest ih => exact .head .paused (ih h)
  | call q next ih =>
      obtain ⟨r, t₁, hanswers, hnext⟩ := h
      rw [Job.within]
      exact .head (.answered hanswers) (ih r hnext)

/-- An executor whose work can succeed can get a doubtful error for it. -/
theorem steps_execute_inDoubt {limit : Option Duration} {w : Work β}
    {k : Except TransferError β → Job α} {c t t' c' : σ} {a : β} {e : StoreError}
    (hopens : b.opens c t) (h : w.Ends b.answers t (.ok a) t') (hpublishes : b.publishes c t' c')
    (hdoubtful : b.doubtful e) :
    b.Steps ⟨(Job.execute limit w).andThen k, none, c, n⟩
      ⟨k (.error (.commit e)), none, c', n + 1⟩ := by
  refine .head (.clock 0) (.head (.opened hopens) ?_)
  show b.Steps ⟨(Job.within _ w Job.settle).andThen k, some t, c, n⟩ _
  rw [Job.within_andThen]
  exact (steps_within h).tail (.inDoubt hpublishes hdoubtful)

end Contract

end FundsTransfer
