import FundsTransfer.Proofs.Database.Session
import FundsTransfer.Proofs.Decimal.Exact
import FundsTransfer.Proofs.Transfer.Script
import FundsTransfer.Transfer.ReferenceNumber

/-!
# Rows that fit their columns

The columns of the transactions table bound what is stored in them: the amount is above zero, and
every code and the reference number have a greatest length.  A transfer should not find out
from the database that its row is too wide, so its checks should let nothing through that
the columns do not hold.

The type and the status of a row come from reference rows, and so does the currency.  A store
that keeps codes brings them under the code that was asked for, `Query.KeepsCode`, and the
database does.  On such a store the row of a transfer is known before anything is asked,
`ValidTransfer.row`.  It fits, unless the caller brought a reference number that is too long:
the checks look at the currency code for its length, and not at the reference number.
-/

namespace FundsTransfer

variable {σ α β : Type}

/-- A new transaction that the columns of its table hold. -/
structure NewTransaction.Fits (new : NewTransaction) : Prop where
  amount : 0 < new.amount.toRat
  type : new.type.length ≤ 20
  currency : new.currency.length ≤ 10
  status : new.status.length ≤ 20
  reference : new.reference.length ≤ 64

/-- The row of a transfer. -/
def ValidTransfer.row (t : ValidTransfer) (reference description : String) : NewTransaction where
  sender := t.sender
  receiver := t.receiver
  type := TypeCode.transfer.text
  amount := t.amount
  currency := t.currency
  exchangeRate := t.exchangeRate
  status := StatusCode.pending.text
  description := some description
  reference := reference

/-! ## Stores that keep codes -/

/-- A reference row that an answer brings has the code that was asked for. -/
def Query.KeepsCode : (q : Query) → Except StoreError q.Answer → Prop
  | .status code, .ok found => ∀ row ∈ found, row.code = code
  | .createStatus code _, .ok row => row.code = code
  | .type code, .ok found => ∀ row ∈ found, row.code = code
  | .createType code _, .ok row => row.code = code
  | .currency code, .ok found => ∀ row ∈ found, row.code = code
  | .createCurrency new, .ok row => row.code = new.code
  | _, _ => True

/-- A store of which every answer keeps the code. -/
def Backend.KeepsCodes (b : Backend σ) : Prop :=
  ∀ s now q answer, (b.ask s now q).answer = some answer → q.KeepsCode answer

namespace Work

/-- As long as answers keep the codes, the work asks queries of a kind only, and a value it ends
with is of a kind as well. -/
def KeepsTo (Q : Query → Prop) (post : α → Prop) : Work α → Prop
  | .done a => post a
  | .fail _ => True
  | .overflow => True
  | .log _ rest => rest.KeepsTo Q post
  | .pause _ rest => rest.KeepsTo Q post
  | .call q next => Q q ∧ ∀ answer, q.KeepsCode answer → (next answer).KeepsTo Q post

variable {Q : Query → Prop} {P : α → Prop} {R : β → Prop}

theorem keepsTo_ask {q : Query} {P : Except StoreError q.Answer → Prop} (hq : Q q)
    (hP : ∀ answer, q.KeepsCode answer → P answer) : (ask q).KeepsTo Q P :=
  ⟨hq, hP⟩

theorem keepsTo_require {q : Query} {asError : StoreError → TransferError} (hq : Q q) :
    (require q asError).KeepsTo Q fun _ => True := by
  refine ⟨hq, fun answer _ => ?_⟩
  cases answer with
  | ok a => trivial
  | error e => trivial

/-- What the first part ends with is known when the second begins. -/
theorem KeepsTo.bind {w : Work α} {f : α → Work β} (hw : w.KeepsTo Q P)
    (hf : ∀ a, P a → (f a).KeepsTo Q R) : (w >>= f).KeepsTo Q R := by
  induction w with
  | done a => exact hf a hw
  | fail e => trivial
  | overflow => trivial
  | log event rest ih => exact ih hw
  | pause ms rest ih => exact ih hw
  | call q next ih => exact ⟨hw.1, fun answer hanswer => ih answer (hw.2 answer hanswer)⟩

theorem Asks.keepsTo {w : Work α} (h : w.Asks Q) : w.KeepsTo Q fun _ => True := by
  induction w with
  | done a => trivial
  | fail e => trivial
  | overflow => trivial
  | log event rest ih => exact ih h
  | pause ms rest ih => exact ih h
  | call q next ih => exact ⟨h.1, fun answer _ => ih answer (h.2 answer)⟩

/-- On a store that keeps codes, the work asks queries of its kind only. -/
theorem KeepsTo.of_course {b : Backend σ} {d : Option Deadline} {w : Work α} {s s' : σ}
    {now now' : Nat} {calls : List Call} {e : Timed (Outcome α)} (hb : b.KeepsCodes)
    (hw : w.KeepsTo Q P) (h : w.course b d s now = some (calls, e, s', now')) :
    ∀ q, .ask q ∈ calls → Q q := by
  induction w generalizing s now calls with
  | done a =>
      cases h
      exact nofun
  | fail error =>
      cases h
      exact nofun
  | overflow =>
      cases h
      exact nofun
  | log event rest ih => exact ih hw h
  | pause ms rest ih =>
      obtain ⟨⟨r, s₁, now₁⟩, -, h⟩ := Option.bind_eq_some_iff.1 h
      cases r with
      | ended u =>
          obtain ⟨⟨later, e'⟩, hlater, heq⟩ := Option.map_eq_some_iff.1 h
          cases heq
          intro q hmem
          exact ih hw hlater q (by simpa using hmem)
      | cutOff limit =>
          cases h
          intro q hmem
          simp at hmem
  | call q next ih =>
      rw [course, Option.bind_eq_some_iff] at h
      obtain ⟨⟨r, s₁, now₁⟩, hawait, h⟩ := h
      have hasked : ∀ q', Call.ask q' ∈ [Call.ask q] → Q q' := by
        intro q' hmem
        cases List.mem_singleton.1 hmem
        exact hw.1
      cases r with
      | cutOff limit =>
          cases h
          exact hasked
      | ended answer =>
          cases answer with
          | none =>
              cases h
              exact hasked
          | some r =>
              obtain ⟨⟨later, e'⟩, hlater, heq⟩ := Option.map_eq_some_iff.1 h
              cases heq
              have hkeeps : q.KeepsCode r := hb _ _ _ _ (Reply.answer_of_await hawait)
              intro q' hmem
              rcases List.mem_cons.1 hmem with hmem | hmem
              · exact hasked q' (List.mem_singleton.2 hmem)
              · exact ih r (hw.2 r hkeeps) hlater q' hmem

end Work

/-! ## Reference rows under their codes -/

namespace Reference

variable {ρ : Type} {r : Reference ρ} {Q : Query → Prop}

/-- Whatever is read or written of a table has the code that was asked for. -/
structure KeepsCodes (r : Reference ρ) (Q : Query → Prop) : Prop where
  fetch (code : String) : (r.fetch code).KeepsTo Q fun answer =>
    ∀ row, answer = .ok (some row) → r.codeOf row = code
  create {code : String} {create : Work (Except StoreError ρ)} : r.create code = .ok create →
    create.KeepsTo Q fun answer => ∀ row, answer = .ok row → r.codeOf row = code

theorem KeepsCodes.fetchOrFail (h : r.KeepsCodes Q) (code : String) :
    (r.fetchOrFail code).KeepsTo Q fun found => ∀ row ∈ found, r.codeOf row = code := by
  refine (h.fetch code).bind fun answer hanswer => ?_
  cases answer with
  | error e => trivial
  | ok found =>
      rintro row hrow
      cases hrow
      exact hanswer row rfl

/-- Whether it is found or written, the row that is resolved has the code. -/
theorem KeepsCodes.resolve (h : r.KeepsCodes Q) (code : String) :
    (r.resolve code).KeepsTo Q fun row => r.codeOf row = code := by
  have hrefetch : (r.refetch code).KeepsTo Q fun row => r.codeOf row = code := by
    refine (h.fetchOrFail code).bind fun found hfound => ?_
    cases found with
    | some row => exact hfound row rfl
    | none => trivial
  have hcreateOrRefetch : (r.createOrRefetch code).KeepsTo Q fun row => r.codeOf row = code := by
    unfold createOrRefetch
    cases hcreate : r.create code with
    | error e => trivial
    | ok create =>
        refine (h.create hcreate).bind fun answer hanswer => ?_
        cases answer with
        | ok row => exact hanswer row rfl
        | error e =>
            dsimp only
            split
            · exact hrefetch
            · trivial
  unfold Reference.resolve
  split
  · trivial
  refine (h.fetchOrFail code).bind fun found hfound => ?_
  cases found with
  | none => exact hcreateOrRefetch
  | some row =>
      dsimp only
      split
      · exact hfound row rfl
      · exact hcreateOrRefetch

end Reference

/-- On a store that keeps codes, every reference table does. -/
theorem ReferenceTable.keepsCodes (k : ReferenceTable) {Q : Query → Prop}
    (hQ : ∀ q, q.OfReference → Q q) : k.reference.KeepsCodes Q where
  fetch code := by
    cases k with
    | _ =>
        refine Work.keepsTo_ask (hQ _ trivial) ?_
        rintro answer hanswer row rfl
        exact hanswer row rfl
  create {code _} h := by
    rw [k.create_reference] at h
    cases h
    cases k with
    | currency =>
        refine Work.keepsTo_ask (hQ _ trivial) ?_
        rintro answer hanswer row rfl
        exact hanswer.trans (code_catalogCurrency code)
    | _ =>
        refine Work.keepsTo_ask (hQ _ trivial) ?_
        rintro answer hanswer row rfl
        exact hanswer

/-! ## The row of a transfer -/

/-- Whether a query writes no transaction but one. -/
def Query.WritesOnly (new : NewTransaction) : Query → Prop
  | .createTransaction new' => new' = new
  | _ => True

/-- On a store that keeps codes, a transfer writes its row and no other. -/
theorem keepsTo_runTransfer (t : ValidTransfer) (reference description : String) :
    (runTransfer t reference description).KeepsTo (Query.WritesOnly (t.row reference description))
      fun _ => True := by
  have hreference : ∀ q : Query, q.OfReference →
      q.WritesOnly (t.row reference description) := by
    intro q hq
    cases q with
    | createTransaction => exact hq.elim
    | _ => trivial
  have hrefs : (transferReferences t.currency).KeepsTo
      (Query.WritesOnly (t.row reference description)) fun refs =>
        refs.transferType.code = TypeCode.transfer.text ∧
          refs.pending.code = StatusCode.pending.text ∧ refs.currency.code = t.currency := by
    have hstatuses := ReferenceTable.status.keepsCodes hreference
    refine ((ReferenceTable.type.keepsCodes hreference).resolve _).bind fun transferType htype => ?_
    refine (hstatuses.resolve _).bind fun pending hpending => ?_
    refine (hstatuses.resolve _).bind fun completed _ => ?_
    exact ((ReferenceTable.currency.keepsCodes hreference).resolve _).bind
      fun currency hcurrency => ⟨htype, hpending, hcurrency⟩
  refine hrefs.bind fun refs ⟨htype, hpending, hcurrency⟩ => ?_
  have hrow : Query.WritesOnly (t.row reference description) (.createTransaction
      { sender := t.sender, receiver := t.receiver, type := refs.transferType.code,
        amount := t.amount, currency := refs.currency.code, exchangeRate := t.exchangeRate,
        status := refs.pending.code, description := some description, reference }) := by
    rw [htype, hpending, hcurrency]
    rfl
  refine (Work.keepsTo_require hrow).bind fun pending _ => Work.Asks.keepsTo ?_
  refine Work.Asks.bind (w := Work.emit _) trivial fun _ => ?_
  refine (asks_writeEntries (fun _ => trivial) _ _ _ _).bind fun entries => ?_
  refine (asks_updateBothBalances (fun _ _ => trivial) _ _ _).bind fun rows => ?_
  exact (Work.asks_require trivial).bind fun _ => trivial

/-- A unit of work asks what its work asks. -/
theorem Way.asks {b : Backend σ} {limit : Option Duration} {work : Work α} {s : σ} {now : Nat}
    {calls : List Call} {o : Outcome α} {Q : Query → Prop} {P : α → Prop} (hb : b.KeepsCodes)
    (hwork : work.KeepsTo Q P) (h : Way b limit work s now calls o) :
    ∀ q, .ask q ∈ calls → Q q := by
  have hworks : ∀ {asked e s' now'}, Works b limit work s now asked e s' now' →
      ∀ q, .ask q ∈ asked → Q q := by
    rintro asked e s' now' ⟨s₁, now₁, -, hcourse⟩
    exact hwork.of_course hb hcourse
  intro q hmem
  cases h with
  | late => simp at hmem
  | refused => simp at hmem
  | overflowed h => exact hworks h q (by simpa using hmem)
  | committed h => exact hworks h q (by simpa using hmem)
  | rolledBack h => exact hworks h q (by simpa using hmem)

/-- What the checks let through has a currency code that its column holds. -/
theorem TransferParams.length_currency_of_validate {p : TransferParams} {v : ValidTransfer}
    (h : p.validate = .ok v) : p.currency.length ≤ 10 := by
  unfold validate at h
  split at h
  · cases h
  split at h
  · cases h
  split at h
  · cases h
  rename_i hcode
  simp only [isCurrencyCode, Bool.not_eq_true', Bool.not_eq_false, Bool.and_eq_true,
    decide_eq_true_eq] at hcode
  exact hcode.1.2

/-- The row of what the checks let through fits, but for its reference number. -/
theorem TransferParams.fits_row_iff {p : TransferParams} {v : ValidTransfer}
    (h : p.validate = .ok v) (reference description : String) :
    (v.row reference description).Fits ↔ reference.length ≤ 64 := by
  have hcurrency := p.length_currency_of_validate h
  obtain ⟨hpositive, -, rate, -, rfl⟩ := TransferParams.of_validate h
  refine ⟨NewTransaction.Fits.reference, fun hreference => ?_⟩
  exact
    { amount := Decimal.toRat_pos_of_isPositive hpositive
      type := show TypeCode.transfer.text.length ≤ 20 by decide
      currency := hcurrency
      status := show StatusCode.pending.text.length ≤ 20 by decide
      reference := hreference }

/-- A number made up fits, so the caller's has to. -/
theorem length_reference_iff (milliseconds random : Nat) (reference : Option String) :
    (reference.getD (referenceNumber milliseconds random)).length ≤ 64 ↔
      ∀ r, reference = some r → r.length ≤ 64 := by
  cases reference with
  | none => simp [length_referenceNumber]
  | some r => simp

/-! ## The database -/

namespace Database

/-- A row that a statement returns has the code that was asked for. -/
def RowKeepsCode : (q : Query) → Returned q → Prop
  | .status code, row => row.code = code
  | .createStatus code _, row => row.code = code
  | .type code, row => row.code = code
  | .createType code _, row => row.code = code
  | .currency code, row => row.code = code
  | .createCurrency new, row => row.code = new.code
  | _, _ => True

theorem keepsCode_error (q : Query) (e : DatabaseError) : q.KeepsCode (answer q (.error e)) := by
  cases q with
  | _ => trivial

theorem keepsCode_answer {q : Query} {rows : List (Returned q)}
    (h : ∀ row ∈ rows, RowKeepsCode q row) : q.KeepsCode (answer q (.ok rows)) := by
  cases q with
  | status | type | currency => exact fun row hrow => h row (List.mem_of_mem_head? hrow)
  | createStatus | createType | createCurrency =>
      cases rows with
      | nil => trivial
      | cons row rest => exact h row List.mem_cons_self
  | _ => trivial

/-- An insertion into a reference table returns the row that was inserted, if any. -/
theorem mem_runCreateReference {ρ : Type} {race : Bool} {table : Option (List ρ)}
    {codeOf : ρ → String} {row row' : ρ}
    (h : row' ∈ (runCreateReference race table codeOf row).1) : row' = row := by
  unfold runCreateReference at h
  split at h
  · cases h
  · cases race with
    | true => cases h
    | false => exact List.mem_singleton.1 h

theorem rowKeepsCode_runQuery {d data : Data} {c counters : Counters} {race : Bool} {q : Query}
    {rows : List (Returned q)} (h : runQuery d c race q = (.ok (rows, data), counters)) :
    ∀ row ∈ rows, RowKeepsCode q row := by
  cases q with
  | status | type =>
      cases h
      intro row hrow
      exact eq_of_beq (List.mem_filter.1 hrow).2
  | currency code =>
      cases h
      intro row hrow
      obtain ⟨row, hread, rfl⟩ := List.mem_map.1 hrow
      exact eq_of_beq (List.mem_filter.1 hread).2
  | createStatus | createType | createCurrency =>
      simp only [runQuery, Prod.mk.injEq, Except.ok.injEq] at h
      obtain ⟨⟨rfl, -⟩, -⟩ := h
      intro row hrow
      rw [mem_runCreateReference hrow]
      rfl
  | _ => exact fun _ _ => trivial

/-- Whatever triggers wait, the answers of the database keep the codes. -/
theorem keepsCode_run (s : Server) (t : OpenTransaction) (q : Query) :
    q.KeepsCode (answer q (s.run t q).1) := by
  unfold Server.run
  split
  · exact keepsCode_error q _
  split
  · exact keepsCode_error q _
  split
  · exact keepsCode_answer nofun
  split
  · rename_i hrun
    exact keepsCode_answer (rowKeepsCode_runQuery hrun)
  · exact keepsCode_error q _

/-- A client as a store that answers at once.  An opening that has to wait counts as refused. -/
def Client.backend : Backend Client where
  begin c _ := ⟨some 0, match (c.begin none).1 with
    | .ended answer => answer
    | .cutOff _ => .error (.database .poolTimedOut), (c.begin none).2, c⟩
  ask c _ q := ⟨some 0, some (c.ask q).1, (c.ask q).2, c⟩
  pause c _ milliseconds := ⟨some (milliseconds * 1000000), (), c, c⟩
  commit c _ := ⟨some 0, c.commit.1, c.commit.2, c⟩
  rollback c _ := ⟨some 0, c.rollback.1, c.rollback.2, c⟩

theorem Client.keepsCodes : Client.backend.KeepsCodes := by
  rintro c now q answer ⟨⟩
  show q.KeepsCode (c.ask q).1
  unfold Client.ask
  cases c.current with
  | none =>
      cases q with
      | _ => trivial
  | some t => exact keepsCode_run c.server t q

end Database

/-! ## Transfers -/

/-- On a store that keeps codes, a transfer that passed its checks inserts one row, which is known
beforehand.  But for its reference number this row fits the columns, and with it, it fits
exactly when the caller brought no reference number of more than 64 characters.  The database
keeps codes. -/
theorem inserted_row_fits_iff {b : Backend σ} (hcodes : b.KeepsCodes) {p : TransferParams}
    {v : ValidTransfer} (hvalid : p.validate = .ok v) (c : Coordinator)
    (milliseconds random : Nat) (s : σ) (now : Nat) {calls : List Call}
    {o : Outcome TransferResult}
    (hcourse : (c.transfer (referenceNumber milliseconds random) p).course b s now =
      some (calls, o)) {new : NewTransaction} (hasked : .ask (.createTransaction new) ∈ calls) :
    new = v.row (p.reference.getD (referenceNumber milliseconds random))
        (p.description.getD c.description) ∧
      { new with reference := "" }.Fits ∧
      (new.Fits ↔ ∀ r, p.reference = some r → r.length ≤ 64) := by
  let call : TransferCall := ⟨c, referenceNumber milliseconds random, p⟩
  have hway : Way b call.coordinator.timeout (call.work v) s now calls o :=
    TransferCall.way_of_course hvalid hcourse
  have hrow : new = v.row (v.reference.getD (referenceNumber milliseconds random))
      (v.description.getD c.description) := hway.asks hcodes (keepsTo_runTransfer _ _ _) _ hasked
  have hfits := TransferParams.fits_row_iff hvalid
  obtain ⟨-, -, rate, -, rfl⟩ := TransferParams.of_validate hvalid
  subst hrow
  exact ⟨rfl, (hfits "" _).2 (by decide), (hfits _ _).trans (length_reference_iff _ _ p.reference)⟩

/-! ## A reference number that is too long -/

namespace Database

open Rehearsal

/-- A dollar from the first account to the second, under a reference number. -/
def dollar (reference : String) : TransferParams :=
  { oneDollar with reference := some reference }

/-- The dollar after the checks. -/
def dollarTransfer (reference : String) : ValidTransfer :=
  (dollar reference).withRate (.ofNat64 false 1 (by decide))

/-- Its row. -/
def dollarRow (reference : String) : NewTransaction :=
  (dollarTransfer reference).row reference "Fund Transfer"

/-- What the database is asked for when the dollar is paid. -/
def dollarCourse (reference : String) : Option (List Call × Outcome TransferResult) :=
  (Coordinator.default.transfer (referenceNumber 0 0) (dollar reference)).course Client.backend
    hundredEachThere 0

/-- The database is asked for the row of the dollar. -/
def RowAsked (reference : String) : Prop :=
  ∃ calls o, dollarCourse reference = some (calls, o) ∧
    .ask (.createTransaction (dollarRow reference)) ∈ calls

theorem rowAsked_of_any {reference : String} (h : (dollarCourse reference).any
    (fun course => .ask (.createTransaction (dollarRow reference)) ∈ course.1) = true) :
    RowAsked reference := by
  cases hcourse : dollarCourse reference with
  | none =>
      rw [hcourse] at h
      cases h
  | some course =>
      rw [hcourse] at h
      exact ⟨course.1, course.2, hcourse, of_decide_eq_true h⟩

theorem validate_dollar : (dollar "R-1").validate = .ok (dollarTransfer "R-1") := by
  decide +kernel

/-- A dollar is paid under a short reference number, and its row fits. -/
theorem dollarRow_fits :
    Client.backend.KeepsCodes ∧ (dollar "R-1").validate = .ok (dollarTransfer "R-1") ∧
      RowAsked "R-1" ∧ (dollarRow "R-1").Fits := by
  have hasked : RowAsked "R-1" := rowAsked_of_any (by decide +kernel)
  refine ⟨Client.keepsCodes, validate_dollar, hasked, ?_⟩
  obtain ⟨calls, o, hcourse, hmem⟩ := hasked
  obtain ⟨-, -, hfits⟩ := inserted_row_fits_iff Client.keepsCodes validate_dollar
    Coordinator.default 0 0 hundredEachThere 0 hcourse hmem
  refine hfits.2 ?_
  rintro _ ⟨⟩
  decide

/-- A reference number of 65 characters. -/
def longReference : String := String.ofList (List.replicate 65 'R')

/-- The dollar passes its checks under a reference number that its column does not hold, and the
database is asked for the row. -/
theorem long_reference_not_refused :
    (dollar longReference).validate = .ok (dollarTransfer longReference) ∧
      RowAsked longReference ∧ ¬ (dollarRow longReference).Fits := by
  refine ⟨by decide +kernel, rowAsked_of_any (by decide +kernel), fun hfits => ?_⟩
  exact absurd hfits.reference (by decide)

end Database

end FundsTransfer
