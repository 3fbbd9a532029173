import FundsTransfer.Proofs.Database.Columns
import FundsTransfer.Proofs.Transfer.Naming

/-!
# What becomes of a transaction row that is refused

A database that refuses a transaction row says what the row broke.  `insertError` makes an
error of the store of this, and the engine a code and a status.  Two codes are meant for the
caller: an account does not exist, and the reference number is taken.

That an account does not exist is said exactly when its column refers to nothing,
`MissesAccount`.  That the reference number is taken is said of every key that exists, and the
reference number is not the only key of the table.  So a caller whose reference number is new
may be told that it is taken, and this is the only way in which an error is given a wrong
code.

`refused_insertion_reported` takes this through a whole transfer.
-/

namespace FundsTransfer

namespace DatabaseError

variable {e : DatabaseError} {new : NewTransaction}

/-- The reference number of a row is taken. -/
def ReferenceTaken (e : DatabaseError) : Prop :=
  e.isUniqueViolation = true ∧ e.constraint? = some "transactions_reference_number_key"

/-- The column of an account of a transaction row refers to nothing. -/
inductive MissesAccount (e : DatabaseError) (new : NewTransaction) : Int → Prop where
  | sender (hkey : e.isForeignKeyViolation = true)
      (hcolumn : e.constraint? = some "transactions_from_account_id_fkey") :
      MissesAccount e new new.sender
  | receiver (hkey : e.isForeignKeyViolation = true)
      (hcolumn : e.constraint? = some "transactions_to_account_id_fkey") :
      MissesAccount e new new.receiver

/-- Of the complaints of a server, two may go away. -/
theorem isRetryable_of_code {code : String} (h : e.code? = some code) :
    e.isRetryable = (code == "40001" || code == "40P01") := by
  cases e with
  | reported =>
      cases h
      rfl
  | _ => cases h

theorem not_isRetryable_of_isUniqueViolation (h : e.isUniqueViolation = true) :
    e.isRetryable = false :=
  isRetryable_of_code (eq_of_beq h)

theorem MissesAccount.isForeignKeyViolation {id : Int} (h : e.MissesAccount new id) :
    e.isForeignKeyViolation = true := by
  cases h with
  | sender hkey => exact hkey
  | receiver hkey => exact hkey

theorem MissesAccount.not_isRetryable {id : Int} (h : e.MissesAccount new id) :
    e.isRetryable = false :=
  isRetryable_of_code (eq_of_beq h.isForeignKeyViolation)

/-- A complaint has one code. -/
theorem MissesAccount.not_isUniqueViolation {id : Int} (h : e.MissesAccount new id) :
    e.isUniqueViolation = false := by
  rw [isUniqueViolation, eq_of_beq h.isForeignKeyViolation]
  rfl

/-- One column is complained about. -/
theorem MissesAccount.unique {id id' : Int} (h : e.MissesAccount new id)
    (h' : e.MissesAccount new id') : id = id' := by
  cases h with
  | sender _ hcolumn =>
      cases h' with
      | sender => rfl
      | receiver _ hcolumn' => exact absurd (hcolumn.symm.trans hcolumn') (by decide)
  | receiver _ hcolumn =>
      cases h' with
      | sender _ hcolumn' => exact absurd (hcolumn.symm.trans hcolumn') (by decide)
      | receiver => rfl

end DatabaseError

namespace TransferError

variable {s : StoreError}

theorem code_eq_duplicate_iff :
    (storage .createTransaction s).code = "DUPLICATE_REFERENCE" ↔
      ∃ what, s = .uniqueViolation what := by
  cases s with
  | uniqueViolation what => exact ⟨fun _ => ⟨what, rfl⟩, fun _ => rfl⟩
  | _ => simp [code, TransferStep.namesAccount]

theorem code_eq_missing_iff :
    (storage .createTransaction s).code = "ACCOUNT_NOT_FOUND" ↔ ∃ what, s = .notFound what := by
  cases s with
  | notFound what => exact ⟨fun _ => ⟨what, rfl⟩, fun _ => rfl⟩
  | _ => simp [code]

end TransferError

namespace Database

open DatabaseError

/-! ## The error of the store -/

/-- What is made of the error of a transaction row. -/
inductive Classified (e : DatabaseError) (new : NewTransaction) : StoreError → Prop where
  | taken (hunique : e.isUniqueViolation = true) :
      Classified e new (.uniqueViolation ("reference number " ++ new.reference))
  | missing {id : Int} (h : e.MissesAccount new id) :
      Classified e new (.notFound ("account " ++ Text.intText id))
  | other (hunique : e.isUniqueViolation = false) (hmissing : ∀ id, ¬ e.MissesAccount new id) :
      Classified e new (.database e)

theorem classified_insertError (e : DatabaseError) (new : NewTransaction) :
    Classified e new (insertError e new) := by
  unfold insertError
  split
  · rename_i hunique
    exact .taken hunique
  rename_i hunique
  split
  · rename_i hkey
    split
    · rename_i hcolumn
      exact .missing (.sender hkey hcolumn)
    · rename_i hcolumn
      exact .missing (.receiver hkey hcolumn)
    · rename_i hsender hreceiver
      refine .other (by simpa using hunique) fun id hmissing => ?_
      cases hmissing with
      | sender _ hcolumn => exact hsender hcolumn
      | receiver _ hcolumn => exact hreceiver hcolumn
  · rename_i hkey
    exact .other (by simpa using hunique) fun id hmissing =>
      hkey hmissing.isForeignKeyViolation

/-! ## The error of the transfer -/

/-- The error of a transfer whose transaction row was refused. -/
def insertFailure (e : DatabaseError) (new : NewTransaction) : TransferError :=
  .storage .createTransaction (insertError e new)

/-- What a caller is told of an error of the transaction row. -/
structure Reported (e : DatabaseError) (new : NewTransaction) (failure : TransferError) : Prop where
  /-- Any key that exists counts as the reference number. -/
  taken : failure.code = "DUPLICATE_REFERENCE" ↔ e.isUniqueViolation = true
  /-- This is a conflict that stays. -/
  conflict : e.isUniqueViolation = true → failure.httpStatus = 409 ∧ failure.isRetryable = false
  /-- An account does not exist exactly when its column refers to nothing. -/
  missing : failure.code = "ACCOUNT_NOT_FOUND" ↔ ∃ id, e.MissesAccount new id
  /-- The account is named. -/
  named {id : Int} : e.MissesAccount new id → failure.httpStatus = 404 ∧
    failure.message =
      "Failed to create transfer transaction: Row not found: account " ++ Text.intText id
  /-- Every other error is passed on unchanged. -/
  unchanged : failure.storeError? = some (.database e) ↔
    e.isUniqueViolation = false ∧ ∀ id, ¬ e.MissesAccount new id
  /-- The advice to retry is that of the database. -/
  retryable : failure.isRetryable = (StoreError.database e).isRetryable

theorem reported_insertFailure (e : DatabaseError) (new : NewTransaction) :
    Reported e new (insertFailure e new) := by
  have hclassified := classified_insertError e new
  unfold insertFailure
  generalize insertError e new = s at hclassified ⊢
  cases hclassified with
  | taken hunique =>
      have hmissing : ∀ id, ¬ e.MissesAccount new id := fun id h =>
        Bool.false_ne_true (h.not_isUniqueViolation.symm.trans hunique)
      exact
        { taken := by simp [TransferError.code_eq_duplicate_iff, hunique]
          conflict := fun _ => ⟨rfl, rfl⟩
          missing := by simp [TransferError.code_eq_missing_iff, hmissing]
          named := fun h => absurd h (hmissing _)
          unchanged := by simp [TransferError.storeError?, hunique]
          retryable := (not_isRetryable_of_isUniqueViolation hunique).symm }
  | @missing id h =>
      have hunique := h.not_isUniqueViolation
      exact
        { taken := by simp [TransferError.code_eq_duplicate_iff, hunique]
          conflict := by simp [hunique]
          missing := TransferError.code_eq_missing_iff.trans ⟨fun _ => ⟨id, h⟩, fun _ => ⟨_, rfl⟩⟩
          named := fun h' => ⟨rfl, by rw [h'.unique h]; rfl⟩
          unchanged := ⟨nofun, fun ⟨_, hother⟩ => absurd h (hother id)⟩
          retryable := h.not_isRetryable.symm }
  | other hunique hmissing =>
      exact
        { taken := by simp [TransferError.code_eq_duplicate_iff, hunique]
          conflict := by simp [hunique]
          missing := by simp [TransferError.code_eq_missing_iff, hmissing]
          named := fun h => absurd h (hmissing _)
          unchanged := ⟨fun _ => ⟨hunique, hmissing⟩, fun _ => rfl⟩
          retryable := rfl }

/-- The code that tells of a taken reference number is right unless another key exists. -/
theorem duplicate_iff_referenceTaken (e : DatabaseError) (new : NewTransaction) :
    ((insertFailure e new).code = "DUPLICATE_REFERENCE" ↔ e.ReferenceTaken) ↔
      (e.isUniqueViolation = true →
        e.constraint? = some "transactions_reference_number_key") := by
  rw [(reported_insertFailure e new).taken]
  exact ⟨fun h hunique => (h.1 hunique).2, fun h => ⟨fun hunique => ⟨hunique, h hunique⟩, And.left⟩⟩

/-- What a caller is told of every error of every transaction row, and when the code that tells of a
taken reference number is right.  When the row of a transfer is refused, nothing is asked after
it, the unit of work is taken back, and the transfer ends with the error that tells this. -/
theorem refused_insertion_reported (e : DatabaseError) (new : NewTransaction) :
    Reported e new (insertFailure e new) ∧
    (((insertFailure e new).code = "DUPLICATE_REFERENCE" ↔ e.ReferenceTaken) ↔
      (e.isUniqueViolation = true →
        e.constraint? = some "transactions_reference_number_key")) ∧
    ∀ (call : TransferCall) (v : ValidTransfer), call.params.validate = .ok v →
      ∀ es o, call.job.Talks es o → ∀ before after,
        es = before ++ .ask (.createTransaction new)
          (answer (.createTransaction new) (.error e)) :: after →
        ∃ r, after = [.rollback r] ∧ o = .rolledBack (insertFailure e new) r := by
  refine ⟨reported_insertFailure e new, duplicate_iff_referenceTaken e new, ?_⟩
  intro call v hvalid es o htalks before after hes
  have hunit := ((TransferCall.inOneUnit hvalid).talks htalks).mono fun es o =>
    (TransferCall.follows hvalid).allows
  obtain ⟨error, r, hblame, rfl, rfl⟩ := hunit.refused (smooth_transferScript _ _ _) hes id
  cases hblame
  exact ⟨r, rfl, rfl⟩

/-! ## A payment whose number is taken -/

/-- The number of a transaction exists. -/
def numberTaken : DatabaseError := uniqueError "transactions_pkey"

/-- The error of the payment of which the row is refused for this. -/
def numberTakenFailure : TransferError := insertFailure numberTaken (dollarRow "R-1")

/-- How the reference rows of the payment are found. -/
def resolvedTalk : List Exchange :=
  [.ask (.type "TRANSFER") (.ok (some ⟨"TRANSFER", "", true⟩)),
   .ask (.status "PENDING") (.ok (some ⟨"PENDING", "", true⟩)),
   .ask (.status "COMPLETED") (.ok (some ⟨"COMPLETED", "", true⟩)),
   .ask (.currency "USD") (.ok (some ⟨"USD", "", none, true, .zero, .epoch⟩))]

/-- The talk of the payment, of which the row is refused because its number exists. -/
def refusedTalk : List Exchange :=
  .begin (.ok ()) :: (resolvedTalk ++ .ask (.createTransaction (dollarRow "R-1"))
    (answer (.createTransaction (dollarRow "R-1")) (.error numberTaken)) :: [.rollback (.ok ())])

theorem talks_refused : ∃ call : TransferCall, call.params = dollar "R-1" ∧
    call.job.Talks refusedTalk (.error numberTakenFailure) := by
  refine ⟨⟨.default, "", dollar "R-1"⟩, rfl, ?_⟩
  rw [TransferCall.job, Coordinator.transfer, validate_dollar]
  refine ⟨0, .ok (), _, rfl, ?_⟩
  show ((Job.within _ _ Job.settle).andThen _).Talks _ _
  rw [Job.within_andThen, List.append_cons]
  refine Job.talks_within_of_talks (r := .error numberTakenFailure) ?_ ⟨.ok (), [], rfl, rfl, rfl⟩
  exact .inr ⟨_, _, rfl, .inr ⟨_, _, rfl, .inr ⟨_, _, rfl, .inr ⟨_, _, rfl, .inr ⟨_, _, rfl,
    rfl, rfl⟩⟩⟩⟩⟩

/-- A conflict is reported that stays, and the unit of work is taken back. -/
theorem refused_number_reported :
    Reported numberTaken (dollarRow "R-1") numberTakenFailure ∧
      ∃ r, [Exchange.rollback (.ok ())] = [.rollback r] ∧
        (.error numberTakenFailure : Outcome TransferResult) =
          .rolledBack numberTakenFailure r := by
  obtain ⟨call, hparams, htalks⟩ := talks_refused
  obtain ⟨hreported, -, htransfer⟩ := refused_insertion_reported numberTaken (dollarRow "R-1")
  have hvalid := validate_dollar
  rw [← hparams] at hvalid
  exact ⟨hreported, htransfer call _ hvalid _ _ htalks (.begin (.ok ()) :: resolvedTalk) _ rfl⟩

/-- The number of the payment's row exists, and the caller is told that its reference number
does. -/
theorem fresh_reference_refused :
    (∃ call : TransferCall, call.params = dollar "R-1" ∧
      call.job.Talks refusedTalk (.error numberTakenFailure)) ∧
    ¬ numberTaken.ReferenceTaken ∧
    numberTakenFailure.code = "DUPLICATE_REFERENCE" ∧
    numberTakenFailure.httpStatus = 409 := by
  refine ⟨talks_refused, fun ⟨_, hconstraint⟩ => ?_, rfl, rfl⟩
  exact absurd hconstraint (by decide)

end Database

end FundsTransfer
