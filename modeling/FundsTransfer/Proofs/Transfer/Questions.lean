import FundsTransfer.Proofs.Work.Ending
import FundsTransfer.Transfer.Reference

/-!
# The reference tables as one

Statuses, types and currencies are three tables that differ in their rows, in the queries
that reach them and in the data of the catalog.  `ReferenceTable` names the three, and here
stands for each of them what the name means: its rows, the question for the row with a
code, the question to write one, and the table as the engine uses it.  So what holds of all
reference tables is said of a name, and shown by the cases of the name where they differ.

A `Question` is a query together with the type of its answers.  It is what makes the rows
of a table that is not known yet a type of answers.
-/

namespace FundsTransfer

variable {α : Type}

/-! ## Questions with answers of a type -/

/-- A query that brings answers of a type. -/
structure Question (α : Type) where
  /-- The query. -/
  query : Query
  /-- It brings answers of the type. -/
  answer_eq : query.Answer = α

namespace Question

/-- Asks a question. -/
def ask (q : Question α) : Work (Except StoreError α) :=
  cast (congrArg (fun β => Work (Except StoreError β)) q.answer_eq) (Work.ask q.query)

theorem ask_eq_call (q : Question α) : ∃ next, q.ask = .call q.query next := by
  obtain ⟨q, rfl⟩ := q
  exact ⟨_, rfl⟩

theorem asks_ask {Q : Query → Prop} {q : Question α} (h : Q q.query) : q.ask.Asks Q := by
  obtain ⟨q, rfl⟩ := q
  exact Work.asks_ask.2 h

/-- A question can get any answer where the store may give any. -/
theorem ends_ask {σ : Type} {A : Answering σ} {s s' : σ} {q : Question α}
    (h : ∀ r, A s q.query r s') (answer : Except StoreError α) :
    q.ask.Ends A s (.ok answer) s' := by
  obtain ⟨q, rfl⟩ := q
  exact Work.ends_ask_ok.2 (h answer)

end Question

/-! ## The catalog -/

/-- A rate in the catalog is a decimal. -/
theorem newCurrency_ok (code : String) : ∃ new, newCurrency code = .ok new := by
  have hcatalog : ∀ known ∈ KnownCurrency.all, (exchangeRate known.rate).isOk = true := by
    decide +kernel
  have hone : (exchangeRate .one).isOk = true := by decide +kernel
  unfold newCurrency
  split
  · rename_i known hknown
    have hrate := hcatalog known (List.mem_of_find?_eq_some hknown)
    cases hok : exchangeRate known.rate with
    | ok rate => exact ⟨_, rfl⟩
    | error e =>
        rw [hok] at hrate
        cases hrate
  · cases hok : exchangeRate .one with
    | ok rate => exact ⟨_, rfl⟩
    | error e =>
        rw [hok] at hone
        cases hone

namespace Reference

/-- A computation that is changed in its value succeeds when it does. -/
theorem ok_of_map {ε α β : Type} {x : Except ε α} {f : α → β} {b : β} (h : x.map f = .ok b) :
    ∃ a, x = .ok a ∧ f a = b := by
  cases x with
  | ok a => exact ⟨a, rfl, Except.ok.inj h⟩
  | error e => cases h

theorem code_of_newCurrency {code : String} {new : NewCurrency}
    (h : newCurrency code = .ok new) : new.code = code := by
  unfold newCurrency at h
  split at h
  · obtain ⟨rate, -, rfl⟩ := ok_of_map h
    rfl
  · obtain ⟨rate, -, rfl⟩ := ok_of_map h
    rfl

end Reference

/-! ## Reference tables -/

namespace ReferenceTable

/-- The rows of a reference table. -/
@[reducible] def Row : ReferenceTable → Type
  | status => TransactionStatus
  | type => TransactionType
  | currency => Currency

/-- The code of a row. -/
def codeOf : (k : ReferenceTable) → k.Row → String
  | status => TransactionStatus.code
  | type => TransactionType.code
  | currency => Currency.code

/-- The question for the row with a code. -/
def fetch : (k : ReferenceTable) → String → Question (Option k.Row)
  | status, code => ⟨.status code, rfl⟩
  | type, code => ⟨.type code, rfl⟩
  | currency, code => ⟨.currency code, rfl⟩

/-- The currency that the catalog has for a code. -/
def catalogCurrency (code : String) : NewCurrency := (newCurrency code).toOption.getD default

/-- The question to write the row for a code. -/
def create : (k : ReferenceTable) → String → Question k.Row
  | status, code => ⟨.createStatus code (statusDescription code), rfl⟩
  | type, code => ⟨.createType code (typeDescription code), rfl⟩
  | currency, code => ⟨.createCurrency (catalogCurrency code), rfl⟩

/-- The table as the engine uses it. -/
def reference : (k : ReferenceTable) → Reference k.Row
  | status => .statuses
  | type => .types
  | currency => .currencies

variable (k : ReferenceTable) (code : String)

theorem table_reference : k.reference.table = k := by
  cases k with
  | _ => rfl

theorem codeOf_reference : k.reference.codeOf = k.codeOf := by
  cases k with
  | _ => rfl

theorem fetch_reference : k.reference.fetch code = (k.fetch code).ask := by
  cases k with
  | _ => rfl

theorem create_reference : k.reference.create code = .ok (k.create code).ask := by
  cases k with
  | currency =>
      obtain ⟨new, hnew⟩ := newCurrency_ok code
      simp only [reference, Reference.currencies, create, catalogCurrency, hnew]
      rfl
  | _ => rfl

theorem exists_codeOf : ∃ row : k.Row, k.codeOf row = code := by
  cases k with
  | status => exact ⟨{ (default : TransactionStatus) with code }, rfl⟩
  | type => exact ⟨{ (default : TransactionType) with code }, rfl⟩
  | currency => exact ⟨{ (default : Currency) with code }, rfl⟩

theorem code_catalogCurrency : (catalogCurrency code).code = code := by
  obtain ⟨new, hnew⟩ := newCurrency_ok code
  rw [catalogCurrency, hnew]
  exact Reference.code_of_newCurrency hnew

end ReferenceTable

end FundsTransfer
