import FundsTransfer.Proofs.Transfer.Verdict
import FundsTransfer.Proofs.Work.Talk

/-!
# Errors that are the caller's

A web service answers 400 when the request itself is wrong.  Some errors with this status are
also made by the steps of a transfer: a reference code may be empty, and a rate of the catalog
may be no decimal.  No transfer ever gets there.  What the checks let through has a currency,
and every rate of the catalog is a decimal, so whatever a store does, only the checks answer
400, and they do so before the store is asked for anything.

`Work.Raises` follows the errors of work through its branches, whatever the store answers.
-/

namespace FundsTransfer

variable {σ α β : Type}

/-! ## Statuses -/

/-- The statuses of errors that are not the caller's. -/
def storeStatuses : List Nat := [404, 409, 500, 504]

namespace TransferError

/-- An error that is not the caller's. -/
def OfStore (e : TransferError) : Prop := e.httpStatus ∈ storeStatuses

theorem ofStore_retry (retryable : Bool) : (if retryable then 409 else 500) ∈ storeStatuses := by
  cases retryable with
  | true => decide
  | false => decide

theorem ofStore_storage (step : TransferStep) (e : StoreError) : (storage step e).OfStore := by
  cases e with
  | notFound what =>
      show (if step.namesAccount then 404 else 500) ∈ storeStatuses
      cases step.namesAccount with
      | true => decide
      | false => decide
  | uniqueViolation what =>
      show 409 ∈ storeStatuses
      decide
  | database e => exact ofStore_retry _
  | backend message =>
      show 500 ∈ storeStatuses
      decide

theorem ofStore_referenceVanished (table : ReferenceTable) (code : String) :
    (referenceVanished table code).OfStore := by
  show 500 ∈ storeStatuses
  decide

theorem ofStore_timedOut (limit : Duration) : (timedOut limit).OfStore := by
  show 504 ∈ storeStatuses
  decide

/-- What the checks refuse is the caller's error and stays one. -/
theorem of_validate {p : TransferParams} {e : TransferError} (h : p.validate = .error e) :
    e.httpStatus = 400 ∧ e.isRetryable = false := by
  unfold TransferParams.validate at h
  split at h
  · cases h
    exact ⟨rfl, rfl⟩
  split at h
  · cases h
    exact ⟨rfl, rfl⟩
  split at h
  · cases h
    exact ⟨rfl, rfl⟩
  split at h
  · cases h
    exact ⟨rfl, rfl⟩
  split at h
  · cases h
    exact ⟨rfl, rfl⟩
  · cases h

end TransferError

/-! ## The errors of work -/

namespace Work

/-- In no branch does the work end with an error outside a set. -/
def Raises (P : TransferError → Prop) : Work α → Prop
  | .done _ => True
  | .fail e => P e
  | .overflow => True
  | .log _ rest => rest.Raises P
  | .pause _ rest => rest.Raises P
  | .call _ next => ∀ r, (next r).Raises P

variable {P : TransferError → Prop}

theorem raises_ask (q : Query) : (ask q).Raises P := fun _ => trivial

theorem raises_require {q : Query} {asError : StoreError → TransferError}
    (h : ∀ e, P (asError e)) : (require q asError).Raises P := by
  intro r
  cases r with
  | ok a => trivial
  | error e => exact h e

/-- A sequence ends with the errors of its parts. -/
theorem Raises.bind {w : Work α} {f : α → Work β} (hw : w.Raises P)
    (hf : ∀ a, (f a).Raises P) : (w >>= f).Raises P := by
  induction w with
  | done a => exact hf a
  | fail e => exact hw
  | overflow => trivial
  | log event rest ih => exact ih hw
  | pause ms rest ih => exact ih hw
  | call q next ih => exact fun r => ih r (hw r)

/-- On any store, the work ends with one of its errors. -/
theorem Raises.of_course {b : Backend σ} {d : Option Deadline} {w : Work α} {s s' : σ}
    {now now' : Nat} {calls : List Call} {e : TransferError} (hw : w.Raises P)
    (h : w.course b d s now = some (calls, .ended (.error e), s', now')) : P e := by
  induction w generalizing s now calls with
  | done a => cases h
  | fail e =>
      cases h
      exact hw
  | overflow => cases h
  | log event rest ih => exact ih hw h
  | pause ms rest ih =>
      obtain ⟨⟨r, s₁, now₁⟩, -, h⟩ := Option.bind_eq_some_iff.1 h
      cases r with
      | ended u =>
          obtain ⟨⟨later, _⟩, hlater, heq⟩ := Option.map_eq_some_iff.1 h
          cases heq
          exact ih hw hlater
      | cutOff limit => cases h
  | call q next ih =>
      rw [course, Option.bind_eq_some_iff] at h
      obtain ⟨⟨r, s₁, now₁⟩, -, h⟩ := h
      cases r with
      | cutOff limit => cases h
      | ended answer =>
          cases answer with
          | none => cases h
          | some r =>
              obtain ⟨⟨later, _⟩, hlater, heq⟩ := Option.map_eq_some_iff.1 h
              cases heq
              exact ih r (hw r) hlater

end Work

/-- A unit of work of which no error is the caller's answers with none that is. -/
theorem Way.ofStore {b : Backend σ} {limit : Option Duration} {work : Work α} {s : σ} {now : Nat}
    {calls : List Call} {e : TransferError} (hwork : work.Raises TransferError.OfStore)
    (h : Way b limit work s now calls (.error e)) : e.OfStore := by
  generalize ho : (.error e : Outcome α) = o at h
  cases h with
  | late hopens =>
      cases ho
      exact TransferError.ofStore_timedOut _
  | refused hopens =>
      cases ho
      exact TransferError.ofStore_retry _
  | overflowed hworks => cases ho
  | @committed _ a s' now' hworks =>
      cases hanswer : (b.commit s' now').answer with
      | ok u =>
          rw [hanswer] at ho
          cases ho
      | error e' =>
          rw [hanswer] at ho
          cases ho
          exact TransferError.ofStore_retry _
  | @rolledBack _ r _ _ cause hworks hcause answer =>
      cases answer with
      | error e' =>
          cases ho
          exact TransferError.ofStore_retry _
      | ok u =>
          cases ho
          cases r with
          | cutOff limit =>
              cases hcause
              exact TransferError.ofStore_timedOut _
          | ended outcome =>
              obtain ⟨s₁, now₁, -, hcourse⟩ := hworks
              cases outcome with
              | ok a => cases hcause
              | overflow => cases hcause
              | error cause =>
                  cases hcause
                  exact hwork.of_course hcourse

/-! ## The errors of a transfer -/

namespace Reference

variable {ρ : Type} {r : Reference ρ} {code : String}

/-- A code that is not empty is resolved, or there is an error that is not the caller's. -/
theorem raises_resolve (hcode : code ≠ "") {create : Work (Except StoreError ρ)}
    (hfetch : (r.fetch code).Raises TransferError.OfStore) (hcreate : r.create code = .ok create)
    (hwrite : create.Raises TransferError.OfStore) :
    (r.resolve code).Raises TransferError.OfStore := by
  have hfetchOrFail : (r.fetchOrFail code).Raises TransferError.OfStore := by
    refine hfetch.bind fun answer => ?_
    cases answer with
    | ok row => trivial
    | error e => exact TransferError.ofStore_retry _
  have hcreateOrRefetch : (r.createOrRefetch code).Raises TransferError.OfStore := by
    rw [createOrRefetch, hcreate]
    refine hwrite.bind fun answer => ?_
    cases answer with
    | ok row => trivial
    | error e =>
        dsimp only
        split
        · refine hfetchOrFail.bind fun found => ?_
          cases found with
          | some row => trivial
          | none => exact TransferError.ofStore_referenceVanished _ _
        · exact TransferError.ofStore_retry _
  rw [resolve, if_neg (by simpa using hcode)]
  refine hfetchOrFail.bind fun found => ?_
  cases found with
  | none => exact hcreateOrRefetch
  | some row =>
      dsimp only
      split
      · trivial
      · exact hcreateOrRefetch

end Reference

theorem Question.raises_ask {q : Question α} {P : TransferError → Prop} : q.ask.Raises P := by
  obtain ⟨q, rfl⟩ := q
  exact Work.raises_ask q

theorem ReferenceTable.raises_resolve (k : ReferenceTable) {code : String} (hcode : code ≠ "") :
    (k.reference.resolve code).Raises TransferError.OfStore := by
  refine Reference.raises_resolve hcode ?_ (k.create_reference code) Question.raises_ask
  rw [k.fetch_reference]
  exact Question.raises_ask

theorem raises_applyDelta (account : Int) (delta : Decimal) :
    (applyDelta account delta).Raises TransferError.OfStore :=
  (Work.raises_require (TransferError.ofStore_storage _)).bind fun _ => trivial

theorem raises_updateBothBalances (sender receiver : Int) (amount : Decimal) :
    (updateBothBalances sender receiver amount).Raises TransferError.OfStore := by
  unfold updateBothBalances
  split
  · exact (raises_applyDelta _ _).bind fun _ => (raises_applyDelta _ _).bind fun _ => trivial
  · exact (raises_applyDelta _ _).bind fun _ => (raises_applyDelta _ _).bind fun _ => trivial

/-- A transfer that names a currency makes no error that is the caller's. -/
theorem raises_runTransfer {t : ValidTransfer} (hcurrency : t.currency ≠ "")
    (reference description : String) :
    (runTransfer t reference description).Raises TransferError.OfStore := by
  have hrefs : (transferReferences t.currency).Raises TransferError.OfStore :=
    (ReferenceTable.type.raises_resolve (by decide)).bind fun _ =>
      (ReferenceTable.status.raises_resolve (by decide)).bind fun _ =>
        (ReferenceTable.status.raises_resolve (by decide)).bind fun _ =>
          (ReferenceTable.currency.raises_resolve hcurrency).bind fun _ => trivial
  have hrequire : ∀ (q : Query) (step : TransferStep),
      (Work.require q (.storage step)).Raises TransferError.OfStore :=
    fun q step => Work.raises_require (TransferError.ofStore_storage step)
  refine hrefs.bind fun refs => (hrequire _ _).bind fun pending => ?_
  refine Work.Raises.bind (w := Work.emit _) trivial fun _ => ?_
  refine Work.Raises.bind ?_ fun entries => ?_
  · exact (hrequire _ _).bind fun _ => (hrequire _ _).bind fun _ => trivial
  refine (raises_updateBothBalances _ _ _).bind fun rows => ?_
  exact (hrequire _ _).bind fun _ => trivial

/-- Whatever a store does and whatever the limit is, a transfer answers 400 exactly when its checks
refuse it.  The error is theirs then, trying again does not help, and the store is asked for
nothing: a store in memory stays as it was.  A transfer that passed its checks fails with 404,
409, 500 or 504 only. -/
theorem client_errors_are_refused_checks (call : TransferCall) (b : Backend σ) (s : σ)
    (now : Nat) :
    ((∃ calls e, call.job.course b s now = some (calls, .error e) ∧ e.httpStatus = 400) ↔
      ∃ e, call.params.validate = .error e) ∧
    (∀ e, call.params.validate = .error e →
      call.job.course b s now = some ([], .error e) ∧ e.httpStatus = 400 ∧
        e.isRetryable = false ∧ ∀ (w : Rehearsal.World) (held : Bool) (pauses : Nat),
          w.LockHeld held → Rehearsal.call w call.job pauses = (.error e, w)) ∧
    ∀ v, call.params.validate = .ok v → ∀ calls e,
      call.job.course b s now = some (calls, .error e) → e.httpStatus ∈ [404, 409, 500, 504] := by
  have hrefused : ∀ e, call.params.validate = .error e →
      call.job.course b s now = some ([], .error e) := by
    intro e h
    rw [TransferCall.job, Coordinator.transfer, h]
    rfl
  have hpassed : ∀ v, call.params.validate = .ok v → ∀ calls e,
      call.job.course b s now = some (calls, .error e) → e.OfStore := by
    intro v h calls e hcourse
    have hcurrency : v.currency ≠ "" := by
      have hcurrency := TransferParams.currency_of_validate h
      obtain ⟨-, -, rate, -, rfl⟩ := TransferParams.of_validate h
      exact hcurrency
    exact (TransferCall.way_of_course h hcourse).ofStore (raises_runTransfer hcurrency _ _)
  refine ⟨⟨?_, ?_⟩, fun e h => ?_, hpassed⟩
  · rintro ⟨calls, e, hcourse, hstatus⟩
    cases h : call.params.validate with
    | error e => exact ⟨e, rfl⟩
    | ok v =>
        have hother := hpassed v h calls e hcourse
        rw [TransferError.OfStore, hstatus] at hother
        exact absurd hother (by decide)
  · rintro ⟨e, h⟩
    exact ⟨[], e, hrefused e h, (TransferError.of_validate h).1⟩
  · obtain ⟨hstatus, hretryable⟩ := TransferError.of_validate h
    exact ⟨hrefused e h, hstatus, hretryable,
      fun w held pauses hlock => Rehearsal.call_transfer_invalid hlock h pauses⟩

end FundsTransfer
