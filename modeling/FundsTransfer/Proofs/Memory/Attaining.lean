import FundsTransfer.Memory.Store
import FundsTransfer.Work.Basic

/-!
# What work comes to on a copy of its own

Nobody else touches the copy of a unit of work.  So what work comes to is decided by the
copy, the probes and the clock, and it does come to an end.  `Work.Attains` asks this for
whatever the clock shows at each query: the work ends, and some property holds of its
outcome and of the copy then.

A sequence attains what its second part attains behind the first, `attains_bind`.
-/

namespace FundsTransfer.Work

open Memory

variable {α β : Type}

/-- However the clock goes on, the work ends, and with a property of the outcome and the copy. -/
def Attains (P : Outcome α → Working → Prop) : Work α → Working → Prop
  | .done a, s => P (.ok a) s
  | .fail e, s => P (.error e) s
  | .overflow, s => P .overflow s
  | .log _ rest, s => rest.Attains P s
  | .pause _ rest, s => rest.Attains P s
  | .call q next, s => ∀ now,
    match (perform now q).run s with
    | (.ok a, s') => (next (.ok a)).Attains P s'
    | (.error (.refused e), s') => (next (.error e)).Attains P s'
    | (.error .overflow, s') => P .overflow s'

/-- What is left to attain where the first part of a sequence ends. -/
def Onward (f : α → Work β) (P : Outcome β → Working → Prop) : Outcome α → Working → Prop
  | .ok a, s => (f a).Attains P s
  | .error e, s => P (.error e) s
  | .overflow, s => P .overflow s

variable {P Q : Outcome α → Working → Prop} {s : Working}

@[simp] theorem attains_pure {a : α} : (pure a : Work α).Attains P s ↔ P (.ok a) s := Iff.rfl

@[simp] theorem attains_log {event : Log.Event} {w : Work α} :
    (log event w).Attains P s ↔ w.Attains P s := Iff.rfl

theorem Attains.mono {w : Work α} (h : w.Attains P s) (hP : ∀ o s, P o s → Q o s) :
    w.Attains Q s := by
  induction w generalizing s with
  | done a => exact hP _ _ h
  | fail e => exact hP _ _ h
  | overflow => exact hP _ _ h
  | log event rest ih => exact ih h
  | pause ms rest ih => exact ih h
  | call q next ih =>
      intro now
      have hnow := h now
      rcases hrun : (perform now q).run s with ⟨(e | _) | a, s'⟩
      · rw [hrun] at hnow
        exact ih _ hnow
      · rw [hrun] at hnow
        exact hP _ _ hnow
      · rw [hrun] at hnow
        exact ih _ hnow

/-- A query is answered with a value or a refusal, at any time. -/
theorem attains_ask {q : Query} {P : Outcome (Except StoreError q.Answer) → Working → Prop}
    (h : ∀ now, ∃ r s', (perform now q).run s = (r.mapError .refused, s') ∧ P (.ok r) s') :
    (ask q).Attains P s := by
  intro now
  obtain ⟨r, s', hrun, hr⟩ := h now
  rw [hrun]
  cases r with
  | ok a => exact hr
  | error e => exact hr

/-- A sequence is taken apart at the end of its first part. -/
@[simp] theorem attains_bind {w : Work α} {f : α → Work β} {P : Outcome β → Working → Prop} :
    (w >>= f).Attains P s ↔ w.Attains (Onward f P) s := by
  induction w generalizing s with
  | done a => exact Iff.rfl
  | fail e => exact Iff.rfl
  | overflow => exact Iff.rfl
  | log event rest ih => exact ih
  | pause ms rest ih => exact ih
  | call q next ih =>
      refine forall_congr' fun now => ?_
      rcases (perform now q).run s with ⟨(e | _) | a, s'⟩
      · exact ih _
      · exact Iff.rfl
      · exact ih _

end FundsTransfer.Work
