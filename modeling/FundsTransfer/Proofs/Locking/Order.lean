import FundsTransfer.Proofs.Locking.Waiting
import FundsTransfer.Proofs.Work.Publishing

/-!
# The rows that work locks

`Work.Takes` says which rows work can lock at most, and in which order.  A sequence takes
the rows of its first part and then those of its second, `Takes.bind`, and what the
executor does around the work takes none.

`Work.LocksAll` says more: the work locks all rows of a list, with nothing in between
that could fail, unless a refusal ends it.  So a job that does such work after other
work locks either none of the rows, or all of them, or stops in the middle because it
was refused or cut off (`Job.LocksLater`).
-/

namespace FundsTransfer

variable {κ α β : Type} {row : Query → Option κ} {ks ks' : List κ}

/-! ## At most these rows -/

theorem RowsAfter.mono {q : Query} {ks₁ : List κ} (h : RowsAfter row q ks₁ ks') (hks : ks₁ <:+ ks) :
    ∃ ks₂, RowsAfter row q ks ks₂ ∧ ks' <:+ ks₂ := by
  obtain ⟨hrow, rfl⟩ | ⟨k, hrow, h⟩ := h
  · exact ⟨ks, .inl ⟨hrow, rfl⟩, hks⟩
  · exact ⟨ks', .inr ⟨k, hrow, h.trans hks⟩, List.suffix_refl ks'⟩

theorem RowsAfter.append {q : Query} (h : RowsAfter row q ks ks') (ks₂ : List κ) :
    RowsAfter row q (ks ++ ks₂) (ks' ++ ks₂) := by
  obtain ⟨hrow, rfl⟩ | ⟨k, hrow, ks₁, rfl⟩ := h
  · exact .inl ⟨hrow, rfl⟩
  · exact .inr ⟨k, hrow, ks₁, (List.append_assoc ks₁ (k :: ks') ks₂).symm⟩

theorem rowsAfter_nil {q : Query} (h : RowsAfter row q [] ks') : row q = none ∧ ks' = [] := by
  obtain h | ⟨k, -, h⟩ := h
  · exact h
  · cases List.suffix_nil.1 h

theorem rowsAfter_of_some {q : Query} {k : κ} (h : row q = some k) : RowsAfter row q (k :: ks) ks :=
  .inr ⟨k, h, List.suffix_refl _⟩

/-- Whatever happens, the work locks no rows but those of a list, in this order. -/
def Work.Takes (row : Query → Option κ) : Work α → List κ → Prop
  | .done _, _ => True
  | .fail _, _ => True
  | .overflow, _ => True
  | .log _ rest, ks => rest.Takes row ks
  | .pause _ rest, ks => rest.Takes row ks
  | .call q next, ks => ∃ ks', RowsAfter row q ks ks' ∧ ∀ r, (next r).Takes row ks'

namespace Work

theorem Takes.mono {w : Work α} (h : w.Takes row ks') (hks : ks' <:+ ks) : w.Takes row ks := by
  induction w generalizing ks ks' with
  | done a => trivial
  | fail e => trivial
  | overflow => trivial
  | log event rest ih => exact ih h hks
  | pause ms rest ih => exact ih h hks
  | call q next ih =>
      obtain ⟨ks₁, hafter, hnext⟩ := h
      obtain ⟨ks₂, hafter', hks₂⟩ := hafter.mono hks
      exact ⟨ks₂, hafter', fun r => ih r (hnext r) hks₂⟩

/-- Work that locks no row takes none. -/
theorem takes_of_asks {w : Work α} (h : w.Asks fun q => row q = none) : w.Takes row ks := by
  induction w with
  | done a => trivial
  | fail e => trivial
  | overflow => trivial
  | log event rest ih => exact ih h
  | pause ms rest ih => exact ih h
  | call q next ih => exact ⟨ks, .inl ⟨h.1, rfl⟩, fun r => ih r (h.2 r)⟩

theorem takes_ask {q : Query} {k : κ} (h : row q = some k) : (ask q).Takes row [k] :=
  ⟨[], rowsAfter_of_some h, fun _ => trivial⟩

/-- A sequence takes the rows of its parts one after the other. -/
theorem Takes.bind {w : Work α} {f : α → Work β} (hw : w.Takes row ks)
    (hf : ∀ a, (f a).Takes row ks') : (w >>= f).Takes row (ks ++ ks') := by
  induction w generalizing ks with
  | done a => exact (hf a).mono (List.suffix_append ks ks')
  | fail e => trivial
  | overflow => trivial
  | log event rest ih => exact ih hw
  | pause ms rest ih => exact ih hw
  | call q next ih =>
      obtain ⟨ks₁, hafter, hnext⟩ := hw
      exact ⟨ks₁ ++ ks', hafter.append ks', fun r => ih r (hnext r)⟩

theorem Takes.bind_asks {w : Work α} {f : α → Work β} (hw : w.Takes row ks)
    (hf : ∀ a, (f a).Asks fun q => row q = none) : (w >>= f).Takes row ks := by
  rw [← List.append_nil ks]
  exact hw.bind fun a => takes_of_asks (hf a)

theorem Asks.bind_takes {w : Work α} {f : α → Work β} (hw : w.Asks fun q => row q = none)
    (hf : ∀ a, (f a).Takes row ks) : (w >>= f).Takes row ks := by
  rw [← List.nil_append ks]
  exact (takes_of_asks hw).bind hf

/-- Work done for each member of a list takes the row of each, in the order of the list. -/
theorem takes_mapM {γ : Type} {f : γ → Work α} {k : γ → κ} (hf : ∀ c, (f c).Takes row [k c])
    (cs : List γ) : (cs.mapM f).Takes row (cs.map k) := by
  induction cs with
  | nil =>
      rw [List.mapM_nil]
      trivial
  | cons c rest ih =>
      rw [List.mapM_cons]
      exact (hf c).bind fun a => ih.bind_asks fun as => trivial

end Work

namespace Job

theorem Takes.mono {job : Job α} (h : job.Takes row ks') (hks : ks' <:+ ks) : job.Takes row ks := by
  induction job generalizing ks ks' with
  | done outcome => trivial
  | log event rest ih => exact ih h hks
  | clock next ih => exact fun now => ih now (h now) hks
  | begin d next ih => exact fun r => ih r (h r) hks
  | call d q next ih =>
      obtain ⟨ks₁, hafter, hnext⟩ := h
      obtain ⟨ks₂, hafter', hks₂⟩ := hafter.mono hks
      exact ⟨ks₂, hafter', fun r => ih r (hnext r) hks₂⟩
  | pause d ms next ih => exact fun r => ih r (h r) hks
  | commit next ih => exact fun r => ih r (h r) hks
  | rollback next ih => exact fun r => ih r (h r) hks

theorem Takes.of_nil {job : Job α} (h : job.Takes row []) : job.Takes row ks :=
  h.mono (List.nil_suffix)

theorem Takes.andThen {job : Job α} {k : Except TransferError α → Job β} (h : job.Takes row ks)
    (hk : ∀ r, (k r).Takes row []) : (job.andThen k).Takes row ks := by
  induction job generalizing ks with
  | done outcome =>
      cases outcome with
      | ok a => exact (hk _).of_nil
      | error e => exact (hk _).of_nil
      | overflow => trivial
  | log event rest ih => exact ih h
  | clock next ih => exact fun now => ih now (h now)
  | begin d next ih => exact fun r => ih r (h r)
  | call d q next ih =>
      obtain ⟨ks', hafter, hnext⟩ := h
      exact ⟨ks', hafter, fun r => ih r (hnext r)⟩
  | pause d ms next ih => exact fun r => ih r (h r)
  | commit next ih => exact fun r => ih r (h r)
  | rollback next ih => exact fun r => ih r (h r)

/-- Ending a unit of work locks nothing. -/
theorem takes_settle (r : Except TransferError α) : (settle r).Takes row [] := by
  cases r with
  | ok a =>
      intro r
      cases r with
      | ok u => trivial
      | error e => trivial
  | error cause =>
      intro r
      cases r with
      | ok u => trivial
      | error e => trivial

theorem takes_within {d : Option Deadline} {w : Work α} {k : Except TransferError α → Job β}
    (hw : w.Takes row ks) (hk : ∀ r, (k r).Takes row []) : (within d w k).Takes row ks := by
  induction w generalizing ks with
  | done a => exact (hk _).of_nil
  | fail e => exact (hk _).of_nil
  | overflow => trivial
  | log event rest ih => exact ih hw
  | pause ms rest ih =>
      intro r
      cases r with
      | ended r => exact ih hw
      | cutOff limit => exact (hk _).of_nil
  | call q next ih =>
      obtain ⟨ks', hafter, hnext⟩ := hw
      rw [within]
      refine ⟨ks', hafter, fun r => ?_⟩
      cases r with
      | ended r => exact ih r (hnext r)
      | cutOff limit => exact (hk _).of_nil

/-- A job takes the rows of its work. -/
theorem takes_execute {limit : Option Duration} {work : Work α} (h : work.Takes row ks) :
    (execute limit work).Takes row ks := by
  intro now r
  cases r with
  | ended r =>
      cases r with
      | ok u => exact takes_within h takes_settle
      | error e => trivial
  | cutOff limit => trivial

end Job

/-! ## All of these rows -/

/-- The work locks the rows of a list one after the other, with nothing but events in between, and a
refusal ends it. -/
def Work.LocksAll (row : Query → Option κ) : Work α → List κ → Prop
  | .done _, ks => ks = []
  | .log _ rest, ks => rest.LocksAll row ks
  | .call q next, k :: ks => row q = some k ∧ (∀ a, (next (.ok a)).LocksAll row ks) ∧
      ∀ e, ∃ e', next (.error e) = .fail e'
  | _, _ => False

/-- The job locks the rows of a list next, with nothing but events in between, and no other row.  A
refusal or a deadline ends this. -/
def Job.LocksNext (row : Query → Option κ) : Job α → List κ → Prop
  | job, [] => job.Takes row []
  | .log _ rest, k :: ks => rest.LocksNext row (k :: ks)
  | .call _ q next, k :: ks => row q = some k ∧ (∀ a, (next (.ended (.ok a))).LocksNext row ks) ∧
      (∀ e, (next (.ended (.error e))).Takes row []) ∧ ∀ limit, (next (.cutOff limit)).Takes row []
  | _, _ :: _ => False

/-- As soon as the job locks a row, it locks the rows of a list. -/
def Job.LocksLater (row : Query → Option κ) : Job α → List κ → Prop
  | .done _, _ => True
  | .log _ rest, ks => rest.LocksLater row ks
  | .clock next, ks => ∀ now, (next now).LocksLater row ks
  | .begin _ next, ks => ∀ r, (next r).LocksLater row ks
  | .call d q next, ks => (row q = none ∧ ∀ r, (next r).LocksLater row ks) ∨
      (Job.call d q next).LocksNext row ks
  | .pause _ _ next, ks => ∀ r, (next r).LocksLater row ks
  | .commit next, ks => ∀ r, (next r).LocksLater row ks
  | .rollback next, ks => ∀ r, (next r).LocksLater row ks

theorem Work.LocksAll.bind {w : Work α} {f : α → Work β} (hw : w.LocksAll row ks)
    (hf : ∀ a, (f a).LocksAll row ks') : (w >>= f).LocksAll row (ks ++ ks') := by
  induction w generalizing ks with
  | done a =>
      cases hw
      exact hf a
  | fail e => exact hw.elim
  | overflow => exact hw.elim
  | log event rest ih => exact ih hw
  | pause ms rest ih => exact hw.elim
  | call q next ih =>
      cases ks with
      | nil => exact hw.elim
      | cons k ks =>
          obtain ⟨hrow, hok, herror⟩ := hw
          refine ⟨hrow, fun a => ih _ (hok a), fun e => ?_⟩
          obtain ⟨e', he'⟩ := herror e
          show ∃ e', (next (.error e) >>= f) = .fail e'
          exact ⟨e', by rw [he', fail_bind]⟩

namespace Job

theorem locksNext_nil {job : Job α} : job.LocksNext row [] ↔ job.Takes row [] := by
  cases job with
  | _ => exact Iff.rfl

theorem LocksNext.takes {job : Job α} (h : job.LocksNext row ks) : job.Takes row ks := by
  induction job generalizing ks with
  | log event rest ih =>
      cases ks with
      | nil => exact h
      | cons k ks => exact ih h
  | call d q next ih =>
      cases ks with
      | nil => exact h
      | cons k ks =>
          obtain ⟨hrow, hok, herror, hcut⟩ := h
          refine ⟨ks, rowsAfter_of_some hrow, fun r => ?_⟩
          cases r with
          | ended r =>
              cases r with
              | ok a => exact ih _ (hok a)
              | error e => exact (herror e).of_nil
          | cutOff limit => exact (hcut limit).of_nil
  | _ =>
      cases ks with
      | nil => exact h
      | cons k ks => exact h.elim

theorem LocksLater.takes {job : Job α} (h : job.LocksLater row ks) : job.Takes row ks := by
  induction job with
  | done outcome => trivial
  | log event rest ih => exact ih h
  | clock next ih => exact fun now => ih now (h now)
  | begin d next ih => exact fun r => ih r (h r)
  | call d q next ih =>
      obtain ⟨hrow, h⟩ | h := h
      · exact ⟨ks, .inl ⟨hrow, rfl⟩, fun r => ih r (h r)⟩
      · exact h.takes
  | pause d ms next ih => exact fun r => ih r (h r)
  | commit next ih => exact fun r => ih r (h r)
  | rollback next ih => exact fun r => ih r (h r)

theorem LocksLater.of_takes {job : Job α} (h : job.Takes row []) : job.LocksLater row ks := by
  induction job with
  | done outcome => trivial
  | log event rest ih => exact ih h
  | clock next ih => exact fun now => ih now (h now)
  | begin d next ih => exact fun r => ih r (h r)
  | call d q next ih =>
      obtain ⟨ks', hafter, hnext⟩ := h
      obtain ⟨hrow, rfl⟩ := rowsAfter_nil hafter
      exact .inl ⟨hrow, fun r => ih r (hnext r)⟩
  | pause d ms next ih => exact fun r => ih r (h r)
  | commit next ih => exact fun r => ih r (h r)
  | rollback next ih => exact fun r => ih r (h r)

theorem LocksNext.later {job : Job α} {k : κ} (h : job.LocksNext row (k :: ks)) :
    job.LocksLater row (k :: ks) := by
  induction job with
  | log event rest ih => exact ih h
  | call d q next ih => exact .inr h
  | _ => exact h.elim

/-- Work that locks all of the rows, and then work that locks none. -/
theorem locksNext_within {γ : Type} {d : Option Deadline} {w : Work α} {f : α → Work β}
    {k : Except TransferError β → Job γ} (hw : w.LocksAll row ks)
    (hf : ∀ a, (f a).Takes row []) (hk : ∀ r, (k r).Takes row []) :
    (within d (w >>= f) k).LocksNext row ks := by
  induction w generalizing ks with
  | done a =>
      cases hw
      exact locksNext_nil.2 (takes_within (hf a) hk)
  | fail e => exact hw.elim
  | overflow => exact hw.elim
  | log event rest ih =>
      cases ks with
      | nil =>
          have h := locksNext_nil.1 (ih hw)
          exact locksNext_nil.2 h
      | cons k ks => exact ih hw
  | pause ms rest ih => exact hw.elim
  | call q next ih =>
      cases ks with
      | nil => exact hw.elim
      | cons k₁ ks =>
          obtain ⟨hrow, hok, herror⟩ := hw
          rw [Work.call_bind, within]
          refine ⟨hrow, fun a => ih _ (hok a), fun e => ?_, fun limit => hk _⟩
          obtain ⟨e', he'⟩ := herror e
          show (within d (next (.error e) >>= f) k).Takes row []
          rw [he']
          exact hk _

/-- Work that locks none of the rows comes before. -/
theorem locksLater_within {γ : Type} {d : Option Deadline} {w : Work α} {f : α → Work β}
    {k : Except TransferError β → Job γ} (hw : w.Asks fun q => row q = none)
    (hf : ∀ a, (within d (f a) k).LocksLater row ks) (hk : ∀ r, (k r).Takes row []) :
    (within d (w >>= f) k).LocksLater row ks := by
  induction w with
  | done a => exact hf a
  | fail e => exact .of_takes (hk _)
  | overflow => trivial
  | log event rest ih => exact ih hw
  | pause ms rest ih =>
      intro r
      cases r with
      | ended r => exact ih hw
      | cutOff limit => exact .of_takes (hk _)
  | call q next ih =>
      rw [Work.call_bind, within]
      refine .inl ⟨hw.1, fun r => ?_⟩
      cases r with
      | ended r => exact ih r (hw.2 r)
      | cutOff limit => exact .of_takes (hk _)

/-- A job locks the rows of its work, and nothing after it. -/
theorem locksLater_execute_andThen {limit : Option Duration} {work : Work α}
    {k : Except TransferError α → Job β} (hk : ∀ r, (k r).Takes row [])
    (hwork : ∀ {d : Option Deadline} {k' : Except TransferError α → Job β},
      (∀ r, (k' r).Takes row []) → (within d work k').LocksLater row ks) :
    ((execute limit work).andThen k).LocksLater row ks := by
  intro now r
  cases r with
  | ended r =>
      cases r with
      | ok u =>
          show ((within _ work settle).andThen k).LocksLater row ks
          rw [within_andThen]
          exact hwork fun r => (takes_settle r).andThen hk
      | error e => exact .of_takes (hk _)
  | cutOff limit => exact .of_takes (hk _)

end Job

end FundsTransfer
