import FundsTransfer.Proofs.Rehearsal.Calculated
import FundsTransfer.Proofs.Work.Lifecycle

/-!
# What the engine and a store say to each other

An `Exchange` is a request of the engine together with what the store answered.
`Job.Talks` says which exchanges a job goes through, and how it ends then, when every
request is answered in time, as it is where there is no deadline.  The answers are left
open: a store may say anything at any time.  So what holds of every talk holds for every
store.

Everything between the opening and the end of a unit of work is a talk of its work, and
`UnitTalk` is what the executor adds to it.  `talk_of_way` says that what the executor does
on a store without a deadline is such a talk.
-/

namespace FundsTransfer

/-- A request of the engine, with what the store answered. -/
inductive Exchange where
  /-- A unit of work was to be opened. -/
  | begin (answer : Except StoreError Unit)
  /-- A query was asked. -/
  | ask (query : Query) (answer : Except StoreError query.Answer)
  /-- A query was asked, and a sum outgrew a decimal. -/
  | overflow (query : Query)
  /-- Some milliseconds went by. -/
  | pause (milliseconds : Nat)
  /-- A unit of work was to be published. -/
  | commit (answer : Except StoreError Unit)
  /-- A unit of work was to be taken back. -/
  | rollback (answer : Except StoreError Unit)

deriving instance DecidableEq for Timed, Call

/-- The request of an exchange. -/
def Exchange.call : Exchange → Call
  | begin answer => .begin (.ended answer)
  | ask q _ => .ask q
  | overflow q => .ask q
  | pause ms => .pause ms
  | commit answer => .commit answer
  | rollback answer => .rollback answer

variable {σ α β : Type} {es : List Exchange} {o : Outcome α}

/-! ## Work -/

namespace Work

/-- The exchanges that work can go through, and how it ends then. -/
def Talks : Work α → List Exchange → Outcome α → Prop
  | .done a, es, o => es = [] ∧ o = .ok a
  | .fail e, es, o => es = [] ∧ o = .error e
  | .overflow, es, o => es = [] ∧ o = .overflow
  | .log _ rest, es, o => rest.Talks es o
  | .pause ms rest, es, o => ∃ later, es = .pause ms :: later ∧ rest.Talks later o
  | .call q next, es, o => (es = [.overflow q] ∧ o = .overflow) ∨
      ∃ r later, es = .ask q r :: later ∧ (next r).Talks later o

/-- A sequence goes through its parts one after the other, or ends with the first. -/
theorem talks_bind {w : Work α} {f : α → Work β} {o : Outcome β} (h : (w >>= f).Talks es o) :
    (∃ a before after, es = before ++ after ∧ w.Talks before (.ok a) ∧ (f a).Talks after o) ∨
      (∃ e, w.Talks es (.error e) ∧ o = .error e) ∨ w.Talks es .overflow ∧ o = .overflow := by
  induction w generalizing es with
  | done a => exact .inl ⟨a, [], es, rfl, ⟨rfl, rfl⟩, h⟩
  | fail e => exact .inr (.inl ⟨e, ⟨h.1, rfl⟩, h.2⟩)
  | overflow => exact .inr (.inr ⟨⟨h.1, rfl⟩, h.2⟩)
  | log event rest ih => exact ih h
  | pause ms rest ih =>
      obtain ⟨later, rfl, h⟩ := h
      obtain ⟨a, before, after, rfl, hw, hf⟩ | ⟨e, hw, ho⟩ | ⟨hw, ho⟩ := ih h
      · exact .inl ⟨a, .pause ms :: before, after, rfl, ⟨before, rfl, hw⟩, hf⟩
      · exact .inr (.inl ⟨e, ⟨later, rfl, hw⟩, ho⟩)
      · exact .inr (.inr ⟨⟨later, rfl, hw⟩, ho⟩)
  | call q next ih =>
      obtain ⟨rfl, ho⟩ | ⟨r, later, rfl, h⟩ := h
      · exact .inr (.inr ⟨.inl ⟨rfl, rfl⟩, ho⟩)
      obtain ⟨a, before, after, rfl, hw, hf⟩ | ⟨e, hw, ho⟩ | ⟨hw, ho⟩ := ih r h
      · exact .inl ⟨a, .ask q r :: before, after, rfl, .inr ⟨r, before, rfl, hw⟩, hf⟩
      · exact .inr (.inl ⟨e, .inr ⟨r, later, rfl, hw⟩, ho⟩)
      · exact .inr (.inr ⟨.inr ⟨r, later, rfl, hw⟩, ho⟩)

/-- What work comes to on a store without a deadline, it comes to in a talk. -/
theorem talks_of_course {b : Backend σ} {w : Work α} {s s' : σ} {now now' : Nat}
    {calls : List Call} (h : w.course b none s now = some (calls, .ended o, s', now')) :
    ∃ es, w.Talks es o ∧ es.map Exchange.call = calls := by
  induction w generalizing s now calls with
  | done a =>
      cases h
      exact ⟨[], ⟨rfl, rfl⟩, rfl⟩
  | fail e =>
      cases h
      exact ⟨[], ⟨rfl, rfl⟩, rfl⟩
  | overflow =>
      cases h
      exact ⟨[], ⟨rfl, rfl⟩, rfl⟩
  | log event rest ih => exact ih h
  | pause ms rest ih =>
      obtain ⟨⟨r, s₁, now₁⟩, -, h⟩ := Option.bind_eq_some_iff.1 h
      cases r with
      | ended u =>
          obtain ⟨⟨later, e⟩, hlater, heq⟩ := Option.map_eq_some_iff.1 h
          cases heq
          obtain ⟨es, htalks, rfl⟩ := ih hlater
          exact ⟨.pause ms :: es, ⟨es, rfl, htalks⟩, rfl⟩
      | cutOff limit => cases h
  | call q next ih =>
      rw [course, Option.bind_eq_some_iff] at h
      obtain ⟨⟨r, s₁, now₁⟩, -, h⟩ := h
      cases r with
      | cutOff limit => cases h
      | ended answer =>
          cases answer with
          | none =>
              cases h
              exact ⟨[.overflow q], .inl ⟨rfl, rfl⟩, rfl⟩
          | some r =>
              obtain ⟨⟨later, e⟩, hlater, heq⟩ := Option.map_eq_some_iff.1 h
              cases heq
              obtain ⟨es, htalks, rfl⟩ := ih r hlater
              exact ⟨.ask q r :: es, .inr ⟨r, es, rfl, htalks⟩, rfl⟩

end Work

/-! ## Jobs -/

/-- What is said in a unit of work of which the inner part is given: it is opened, and when it was
opened and no sum outgrew a decimal, it is ended. -/
inductive UnitTalk (inner : List Exchange → Outcome α → Prop) :
    List Exchange → Outcome α → Prop where
  | notBegun (e : StoreError) : UnitTalk inner [.begin (.error e)] (.error (.begin e))
  | overflowed (h : inner asked .overflow) : UnitTalk inner (.begin (.ok ()) :: asked) .overflow
  | committed (h : inner asked (.ok a)) (answer : Except StoreError Unit) :
      UnitTalk inner (.begin (.ok ()) :: (asked ++ [.commit answer])) (.committed a answer)
  | rolledBack (h : inner asked (.error e)) (answer : Except StoreError Unit) :
      UnitTalk inner (.begin (.ok ()) :: (asked ++ [.rollback answer])) (.rolledBack e answer)

theorem UnitTalk.mono {inner outer : List Exchange → Outcome α → Prop}
    (hinner : ∀ es o, inner es o → outer es o) (h : UnitTalk inner es o) :
    UnitTalk outer es o := by
  cases h with
  | notBegun e => exact .notBegun e
  | overflowed h => exact .overflowed (hinner _ _ h)
  | committed h answer => exact .committed (hinner _ _ h) answer
  | rolledBack h answer => exact .rolledBack (hinner _ _ h) answer

namespace Job

/-- The exchanges that a job can go through when every request is answered in time, and how it ends
then. -/
def Talks : Job α → List Exchange → Outcome α → Prop
  | .done o', es, o => es = [] ∧ o = o'
  | .log _ rest, es, o => rest.Talks es o
  | .clock next, es, o => ∃ now, (next now).Talks es o
  | .begin _ next, es, o => ∃ r later, es = .begin r :: later ∧ (next (.ended r)).Talks later o
  | .call _ q next, es, o => (es = [.overflow q] ∧ o = .overflow) ∨
      ∃ r later, es = .ask q r :: later ∧ (next (.ended r)).Talks later o
  | .pause _ ms next, es, o => ∃ later, es = .pause ms :: later ∧ (next (.ended ())).Talks later o
  | .commit next, es, o => ∃ r later, es = .commit r :: later ∧ (next r).Talks later o
  | .rollback next, es, o => ∃ r later, es = .rollback r :: later ∧ (next r).Talks later o

/-- Work in a job talks as it would by itself, and then what follows it does. -/
theorem talks_within {γ : Type} {d : Option Deadline} {w : Work γ}
    {k : Except TransferError γ → Job α} (h : (within d w k).Talks es o) :
    (w.Talks es .overflow ∧ o = .overflow) ∨ ∃ r before after, es = before ++ after ∧
      w.Talks before (.ofExcept r) ∧ (k r).Talks after o := by
  induction w generalizing es with
  | done a => exact .inr ⟨.ok a, [], es, rfl, ⟨rfl, rfl⟩, h⟩
  | fail e => exact .inr ⟨.error e, [], es, rfl, ⟨rfl, rfl⟩, h⟩
  | overflow => exact .inl ⟨⟨h.1, rfl⟩, h.2⟩
  | log event rest ih => exact ih h
  | pause ms rest ih =>
      obtain ⟨later, rfl, h⟩ := h
      obtain ⟨hw, ho⟩ | ⟨r, before, after, rfl, hw, hk⟩ := ih h
      · exact .inl ⟨⟨later, rfl, hw⟩, ho⟩
      · exact .inr ⟨r, .pause ms :: before, after, rfl, ⟨before, rfl, hw⟩, hk⟩
  | call q next ih =>
      rw [within] at h
      obtain ⟨rfl, ho⟩ | ⟨r, later, rfl, h⟩ := h
      · exact .inl ⟨.inl ⟨rfl, rfl⟩, ho⟩
      obtain ⟨hw, ho⟩ | ⟨r', before, after, rfl, hw, hk⟩ := ih r h
      · exact .inl ⟨.inr ⟨r, later, rfl, hw⟩, ho⟩
      · exact .inr ⟨r', .ask q r :: before, after, rfl, .inr ⟨r, before, rfl, hw⟩, hk⟩

/-- What work says by itself, and then what follows it, is said by the job of both. -/
theorem talks_within_of_talks {γ : Type} {d : Option Deadline} {w : Work γ}
    {k : Except TransferError γ → Job α} {r : Except TransferError γ}
    {before after : List Exchange} (hw : w.Talks before (.ofExcept r))
    (hk : (k r).Talks after o) : (within d w k).Talks (before ++ after) o := by
  induction w generalizing before with
  | done a =>
      obtain ⟨rfl, hr⟩ := hw
      cases r with
      | ok a' =>
          cases hr
          exact hk
      | error e => cases hr
  | fail e =>
      obtain ⟨rfl, hr⟩ := hw
      cases r with
      | ok a => cases hr
      | error e' =>
          cases hr
          exact hk
  | overflow =>
      obtain ⟨rfl, hr⟩ := hw
      cases r with
      | ok a => cases hr
      | error e => cases hr
  | log event rest ih => exact ih hw
  | pause ms rest ih =>
      obtain ⟨later, rfl, hw⟩ := hw
      exact ⟨later ++ after, rfl, ih hw⟩
  | call q next ih =>
      obtain ⟨rfl, hr⟩ | ⟨answer, later, rfl, hw⟩ := hw
      · cases r with
        | ok a => cases hr
        | error e => cases hr
      · rw [within]
        exact .inr ⟨answer, later ++ after, rfl, ih answer hw⟩

/-- The executor opens a unit of work, has the work talk in it, and ends it. -/
theorem talks_execute {limit : Option Duration} {work : Work α}
    (h : (execute limit work).Talks es o) : UnitTalk work.Talks es o := by
  obtain ⟨now, opened, later, rfl, h⟩ := h
  cases opened with
  | error e =>
      obtain ⟨rfl, rfl⟩ := h
      exact .notBegun e
  | ok u =>
      obtain ⟨hw, rfl⟩ | ⟨r, before, after, rfl, hw, hend⟩ := talks_within h
      · exact .overflowed hw
      cases r with
      | ok a =>
          obtain ⟨answer, after, rfl, hend⟩ := hend
          cases answer with
          | ok u =>
              obtain ⟨rfl, rfl⟩ := hend
              exact .committed hw (.ok ())
          | error e =>
              obtain ⟨rfl, rfl⟩ := hend
              exact .committed hw (.error e)
      | error cause =>
          obtain ⟨answer, after, rfl, hend⟩ := hend
          cases answer with
          | ok u =>
              obtain ⟨rfl, rfl⟩ := hend
              exact .rolledBack hw (.ok ())
          | error e =>
              obtain ⟨rfl, rfl⟩ := hend
              exact .rolledBack hw (.error e)

theorem talks_of_reports {job : Job α} {o' : Outcome α} (hjob : job.Reports o')
    (h : job.Talks es o) : es = [] ∧ o = o' := by
  induction job with
  | done outcome =>
      cases hjob
      exact h
  | log event rest ih => exact ih hjob h
  | _ => exact hjob.elim

/-- A report of what a job came to is no talk. -/
theorem talks_andThen {job : Job α} {k : Except TransferError α → Job α}
    (hk : ∀ r, (k r).Reports (.ofExcept r)) (h : (job.andThen k).Talks es o) :
    job.Talks es o := by
  induction job generalizing es with
  | done outcome =>
      cases outcome with
      | ok a => exact talks_of_reports (hk (.ok a)) h
      | error e => exact talks_of_reports (hk (.error e)) h
      | overflow => exact h
  | log event rest ih => exact ih h
  | clock next ih =>
      obtain ⟨now, h⟩ := h
      exact ⟨now, ih now h⟩
  | begin d next ih =>
      obtain ⟨r, later, rfl, h⟩ := h
      exact ⟨r, later, rfl, ih _ h⟩
  | call d q next ih =>
      obtain hoverflow | ⟨r, later, rfl, h⟩ := h
      · exact .inl hoverflow
      · exact .inr ⟨r, later, rfl, ih _ h⟩
  | pause d ms next ih =>
      obtain ⟨later, rfl, h⟩ := h
      exact ⟨later, rfl, ih _ h⟩
  | commit next ih =>
      obtain ⟨r, later, rfl, h⟩ := h
      exact ⟨r, later, rfl, ih _ h⟩
  | rollback next ih =>
      obtain ⟨r, later, rfl, h⟩ := h
      exact ⟨r, later, rfl, ih _ h⟩

/-- A report makes no requests. -/
theorem course_of_reports {job : Job α} (hjob : job.Reports o) (b : Backend σ) (s : σ)
    (now : Nat) : job.course b s now = some ([], o) := by
  induction job with
  | done outcome =>
      cases hjob
      rfl
  | log event rest ih => exact ih hjob
  | _ => exact hjob.elim

theorem course_andThen {job : Job α} {k : Except TransferError α → Job α}
    (hk : ∀ r, (k r).Reports (.ofExcept r)) (b : Backend σ) (s : σ) (now : Nat) :
    (job.andThen k).course b s now = job.course b s now := by
  induction job generalizing s now with
  | done outcome =>
      cases outcome with
      | ok a => exact course_of_reports (hk (.ok a)) b s now
      | error e => exact course_of_reports (hk (.error e)) b s now
      | overflow => rfl
  | log event rest ih => exact ih s now
  | clock next ih => exact ih now s now
  | begin d next ih => simp only [andThen, course, ih]
  | call d q next ih => simp only [andThen, course, ih]
  | pause d ms next ih => simp only [andThen, course, ih]
  | commit next ih => simp only [andThen, course, ih]
  | rollback next ih => simp only [andThen, course, ih]

/-- A job that does its work in one unit talks as a unit of work does. -/
theorem InOneUnit.talks {job : Job α} {work : Work α} (hjob : job.InOneUnit work)
    (h : job.Talks es o) : UnitTalk work.Talks es o := by
  induction hjob with
  | unit limit hk => exact talks_execute (talks_andThen hk h)
  | log event _ ih => exact ih h

end Job

/-- What the executor does on a store without a deadline is a talk. -/
theorem talk_of_way {b : Backend σ} {work : Work α} {s : σ} {now : Nat} {calls : List Call}
    (h : Way b none work s now calls o) :
    ∃ es, UnitTalk work.Talks es o ∧ es.map Exchange.call = calls := by
  cases h with
  | late hopens =>
      obtain ⟨s', now', hopen⟩ := hopens
      cases Reply.limit_of_await hopen
  | @refused e => exact ⟨_, .notBegun e, rfl⟩
  | overflowed hworks =>
      obtain ⟨s₁, now₁, -, hcourse⟩ := hworks
      obtain ⟨es, htalks, rfl⟩ := Work.talks_of_course hcourse
      exact ⟨_, .overflowed htalks, rfl⟩
  | @committed _ a s' now' hworks =>
      obtain ⟨s₁, now₁, -, hcourse⟩ := hworks
      obtain ⟨es, htalks, rfl⟩ := Work.talks_of_course hcourse
      exact ⟨_, .committed htalks (b.commit s' now').answer, by simp [Exchange.call]⟩
  | @rolledBack _ r _ _ cause hworks hcause answer =>
      obtain ⟨s₁, now₁, -, hcourse⟩ := hworks
      obtain rfl : r = .ended (.error cause) := by
        cases r with
        | cutOff limit => cases (Work.course_inside hcourse).2 limit rfl
        | ended outcome =>
            cases outcome with
            | ok a => cases hcause
            | error e =>
                cases hcause
                rfl
            | overflow => cases hcause
      obtain ⟨es, htalks, rfl⟩ := Work.talks_of_course hcourse
      exact ⟨_, .rolledBack htalks answer, by simp [Exchange.call]⟩

/-- A transfer that passed its checks goes the way of its unit of work. -/
theorem TransferCall.way_of_course {call : TransferCall} {v : ValidTransfer} {b : Backend σ}
    {s : σ} {now : Nat} {calls : List Call} {o : Outcome TransferResult}
    (hvalid : call.params.validate = .ok v) (h : call.job.course b s now = some (calls, o)) :
    Way b call.coordinator.timeout (call.work v) s now calls o := by
  rw [job, Coordinator.transfer, hvalid] at h
  exact FundsTransfer.way_of_course
    ((Job.course_andThen (reports_report (v.reference.getD call.generated)) b s now).symm.trans h)

end FundsTransfer
