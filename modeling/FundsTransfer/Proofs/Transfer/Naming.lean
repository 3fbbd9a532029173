import FundsTransfer.Proofs.Transfer.Script

/-!
# Errors name the step that failed

A transfer goes through its steps in one order, and every step asks its own queries.  So
the query that a store refuses is enough to tell the step, and `ValidTransfer.blame` says
which error names it.  The error carries what the store said.

`transfer_names_failing_step` is this for any store: the talk of a transfer goes by
`TransferScript` until something fails, the first failure is the last thing that is asked
for, except that the unit of work is taken back once, and the error is the one that names
it.
-/

namespace FundsTransfer

variable {es : List Exchange}

/-! ## The script -/

/-- The error that names the refusal of a query of a transfer. -/
def ValidTransfer.blame (t : ValidTransfer) : Blame
  | .status code, e => some (.referenceData .status code e)
  | .createStatus code _, e => some (.referenceData .status code e)
  | .type code, e => some (.referenceData .type code e)
  | .createType code _, e => some (.referenceData .type code e)
  | .currency code, e => some (.referenceData .currency code e)
  | .createCurrency new, e => some (.referenceData .currency new.code e)
  | .createTransaction _, e => some (.storage .createTransaction e)
  | .createEntry new, e =>
    some (.storage (if new.account = t.sender then .debitEntry else .creditEntry) e)
  | .addBalance account _, e => some (.storage (.updateBalance account) e)
  | .setStatus .., e => some (.storage .updateStatus e)
  | _, _ => none

/-- How the reference rows of a transfer are resolved: the type, the two statuses, and the
currency. -/
inductive ReferencesScript (currency : String) : Script TransferReferences where
  | resolved
      (htype : ReferenceTable.type.Resolves TypeCode.transfer.text first transferType)
      (hpending : ReferenceTable.status.Resolves StatusCode.pending.text second pending)
      (hcompleted : ReferenceTable.status.Resolves StatusCode.completed.text third completed)
      (hcurrency : ReferenceTable.currency.Resolves currency fourth row) :
      ReferencesScript currency (first ++ (second ++ (third ++ fourth)))
        ⟨pending, completed, transferType, row⟩

/-- The debit and then the credit of a transfer are written. -/
def entryExchanges (t : ValidTransfer) (transaction : Int) (debit credit : Entry) :
    List Exchange :=
  [.ask (.createEntry ⟨t.sender, transaction, t.amount.negate⟩) (.ok debit),
   .ask (.createEntry ⟨t.receiver, transaction, t.amount⟩) (.ok credit)]

/-- The balances of a transfer are changed, that of the lower account first. -/
def balanceExchanges (t : ValidTransfer) (sender receiver : Account) : List Exchange :=
  if t.sender < t.receiver then
    [.ask (.addBalance t.sender t.amount.negate) (.ok sender),
     .ask (.addBalance t.receiver t.amount) (.ok receiver)]
  else
    [.ask (.addBalance t.receiver t.amount) (.ok receiver),
     .ask (.addBalance t.sender t.amount.negate) (.ok sender)]

/-- What a transfer does with its transaction: the entries, the balances, and the status. -/
inductive PostingScript (t : ValidTransfer) (refs : TransferReferences) (transaction : Int) :
    Script TransferResult where
  | posted (debit credit : Entry) (sender receiver : Account) (completed : Transaction) :
      PostingScript t refs transaction
        (entryExchanges t transaction debit credit ++ (balanceExchanges t sender receiver ++
          [.ask (.setStatus transaction refs.completed.code) (.ok completed)]))
        { transaction := completed, fromEntry := debit, toEntry := credit, fromAccount := sender,
          toAccount := receiver, status := refs.completed,
          transactionType := refs.transferType, currency := refs.currency }

/-- How a transfer talks in its unit of work when nothing stops it. -/
inductive TransferScript (t : ValidTransfer) (reference description : String) :
    Script TransferResult where
  | completed (hrefs : ReferencesScript t.currency resolved refs) (pending : Transaction)
      (hposted : PostingScript t refs pending.id posted result) :
      TransferScript t reference description
        (resolved ++ .ask (.createTransaction
          { sender := t.sender, receiver := t.receiver, type := refs.transferType.code,
            amount := t.amount, currency := refs.currency.code,
            exchangeRate := t.exchangeRate, status := refs.pending.code,
            description := some description, reference }) (.ok pending) :: posted) result

/-! ## The steps follow it -/

section Steps

variable {t : ValidTransfer}

/-- Resolving a code of a transfer names the table and the code. -/
theorem follows_resolve (t : ValidTransfer) (k : ReferenceTable) (code : String)
    (hcode : code ≠ "") : (k.reference.resolve code).Follows t.blame (k.Resolves code) := by
  refine Work.follows_resolve (fun e => ?_) (fun e => ?_) hcode
  · cases k with
    | status => rfl
    | type => rfl
    | currency => rfl
  · cases k with
    | status => rfl
    | type => rfl
    | currency =>
        show some (TransferError.referenceData .currency
          (ReferenceTable.catalogCurrency code).code e) = _
        rw [ReferenceTable.code_catalogCurrency]

theorem follows_transferReferences {currency : String} (hcurrency : currency ≠ "") :
    (transferReferences currency).Follows t.blame (ReferencesScript currency) := by
  refine ((follows_resolve t .type TypeCode.transfer.text (by decide)).bind fun transferType =>
    (follows_resolve t .status StatusCode.pending.text (by decide)).bind fun pending =>
      (follows_resolve t .status StatusCode.completed.text (by decide)).bind fun completed =>
        (follows_resolve t .currency currency hcurrency).bind fun row =>
          Work.follows_pure (⟨pending, completed, transferType, row⟩ : TransferReferences)).mono ?_
  rintro es refs ⟨transferType, first, _, htype, ⟨pending, second, _, hpending,
    ⟨completed, third, _, hcompleted, ⟨row, fourth, _, hrow, ⟨rfl, rfl⟩, rfl⟩, rfl⟩, rfl⟩, rfl⟩
  rw [List.append_nil]
  exact .resolved htype hpending hcompleted hrow

theorem follows_writeEntries (hne : t.sender ≠ t.receiver) (transaction : Int) :
    (writeEntries transaction t.sender t.receiver t.amount).Follows t.blame
      fun es entries => es = entryExchanges t transaction entries.1 entries.2 := by
  have hdebit : (Work.require (.createEntry ⟨t.sender, transaction, t.amount.negate⟩)
      (.storage .debitEntry)).Follows t.blame _ :=
    Work.follows_require ⟨(default : Entry)⟩ (fun e => id)
      fun e => by rw [ValidTransfer.blame, if_pos rfl]
  have hcredit : (Work.require (.createEntry ⟨t.receiver, transaction, t.amount⟩)
      (.storage .creditEntry)).Follows t.blame _ :=
    Work.follows_require ⟨(default : Entry)⟩ (fun e => id)
      fun e => by rw [ValidTransfer.blame, if_neg hne.symm]
  refine (hdebit.bind fun debit => Work.follows_emit_bind (hcredit.bind fun credit =>
    Work.follows_emit_bind (Work.follows_pure (debit, credit)))).mono ?_
  rintro es entries ⟨debit, _, _, rfl, ⟨credit, _, _, rfl, ⟨rfl, rfl⟩, rfl⟩, rfl⟩
  rfl

theorem follows_applyDelta (account : Int) (delta : Decimal) :
    (applyDelta account delta).Follows t.blame
      fun es row => es = [.ask (.addBalance account delta) (.ok row)] := by
  have hrequire : (Work.require (.addBalance account delta)
      (.storage (.updateBalance account))).Follows t.blame _ :=
    Work.follows_require ⟨(default : Account)⟩ (fun e => id) fun e => rfl
  refine (hrequire.bind fun row => Work.follows_emit_bind (Work.follows_pure row)).mono ?_
  rintro es row ⟨_, _, _, rfl, ⟨rfl, rfl⟩, rfl⟩
  rfl

theorem follows_updateBothBalances (hne : t.sender ≠ t.receiver) :
    (updateBothBalances t.sender t.receiver t.amount).Follows t.blame
      fun es rows => es = balanceExchanges t rows.1 rows.2 := by
  unfold updateBothBalances balanceExchanges lockOrder
  by_cases hle : t.sender ≤ t.receiver
  · simp only [if_pos hle, if_pos (lt_of_le_of_ne hle hne), if_true]
    refine ((follows_applyDelta _ _).bind fun s => (follows_applyDelta _ _).bind fun r =>
      Work.follows_pure (s, r)).mono ?_
    rintro es rows ⟨s, _, _, rfl, ⟨r, _, _, rfl, ⟨rfl, rfl⟩, rfl⟩, rfl⟩
    rfl
  · simp only [if_neg hle, if_neg (mt le_of_lt hle), if_neg hne.symm]
    refine ((follows_applyDelta _ _).bind fun r => (follows_applyDelta _ _).bind fun s =>
      Work.follows_pure (s, r)).mono ?_
    rintro es rows ⟨r, _, _, rfl, ⟨s, _, _, rfl, ⟨rfl, rfl⟩, rfl⟩, rfl⟩
    rfl

theorem follows_posting (hne : t.sender ≠ t.receiver) (refs : TransferReferences)
    (transaction : Int) :
    (do
      let entries ← writeEntries transaction t.sender t.receiver t.amount
      let rows ← updateBothBalances t.sender t.receiver t.amount
      let completed ← Work.require (.setStatus transaction refs.completed.code)
        (.storage .updateStatus)
      Work.emit (stepEvent "Transaction completed" transaction .updateStatus)
      pure (⟨completed, entries.1, entries.2, rows.1, rows.2, refs.completed,
        refs.transferType, refs.currency⟩ : TransferResult)).Follows t.blame
      (PostingScript t refs transaction) := by
  have hcomplete : (Work.require (.setStatus transaction refs.completed.code)
      (.storage .updateStatus)).Follows t.blame _ :=
    Work.follows_require ⟨(default : Transaction)⟩ (fun e => id) fun e => rfl
  refine ((follows_writeEntries hne transaction).bind fun entries =>
    (follows_updateBothBalances hne).bind fun rows => hcomplete.bind fun completed =>
      Work.follows_emit_bind (Work.follows_pure _)).mono ?_
  rintro es result ⟨entries, _, _, rfl, ⟨rows, _, _, rfl, ⟨completed, _, _, rfl, ⟨rfl, rfl⟩,
    rfl⟩, rfl⟩, rfl⟩
  exact .posted _ _ _ _ completed

theorem follows_runTransfer (hne : t.sender ≠ t.receiver) (hcurrency : t.currency ≠ "")
    (reference description : String) :
    (runTransfer t reference description).Follows t.blame
      (TransferScript t reference description) := by
  have hcreate : ∀ new : NewTransaction, (Work.require (.createTransaction new)
      (.storage .createTransaction)).Follows t.blame _ := fun new =>
    Work.follows_require ⟨(default : Transaction)⟩ (fun e => id) fun e => rfl
  refine ((follows_transferReferences hcurrency).bind fun refs => (hcreate _).bind fun pending =>
    Work.follows_emit_bind (follows_posting hne refs pending.id)).mono ?_
  rintro es result ⟨refs, resolved, _, hrefs, ⟨pending, _, posted, rfl, hposted, rfl⟩, rfl⟩
  exact .completed hrefs pending hposted

end Steps

/-! ## The first failure -/

/-- Whether a request was refused, other than because somebody else has just written the same
reference row. -/
def Exchange.Fails : Exchange → Prop
  | .begin answer => ∃ e, answer = .error e
  | .ask q answer => ∃ e, answer = .error e ∧ ¬ q.LosesRace e
  | .commit answer => ∃ e, answer = .error e
  | .rollback answer => ∃ e, answer = .error e
  | _ => False

theorem Exchange.not_fails_ask_ok {q : Query} {a : q.Answer} : ¬ (ask q (.ok a)).Fails := by
  rintro ⟨e, he, -⟩
  cases he

theorem Question.not_fails_exchange_ok {α : Type} (q : Question α) (a : α) :
    ¬ (q.exchange (.ok a)).Fails := by
  obtain ⟨answer, hanswer⟩ := q.exchange_ok a
  rw [hanswer]
  exact Exchange.not_fails_ask_ok

/-- No request fails in the talks of a script. -/
def Script.Smooth {α : Type} (S : Script α) : Prop := ∀ es a, S es a → ∀ x ∈ es, ¬ x.Fails

/-- What follows the first request that fails in a unit of work, and what comes of it. -/
inductive Named {α : Type} (blame : Blame) : Exchange → List Exchange → Outcome α → Prop where
  | begin (e : StoreError) : Named blame (.begin (.error e)) [] (.error (.begin e))
  | ask (hblame : blame q e = some error) (answer : Except StoreError Unit) :
      Named blame (.ask q (.error e)) [.rollback answer] (.rolledBack error answer)
  | commit (e : StoreError) : Named blame (.commit (.error e)) [] (.error (.commit e))
  /-- Nothing failed before, but a row was not there. -/
  | rollback (k : ReferenceTable) (code : String) (e : StoreError) :
      Named blame (.rollback (.error e)) [] (.error (.rollbackFailed (.referenceVanished k code) e))

section Failing

variable {α : Type} {blame : Blame} {S : Script α}

/-- What stands in a list with one more member stands last in it, or before. -/
theorem last_or_mem {before after : List Exchange} {x y : Exchange}
    (h : es ++ [y] = before ++ x :: after) :
    (es = before ∧ y = x ∧ after = []) ∨
      ∃ later, es = before ++ x :: later ∧ after = later ++ [y] := by
  obtain rfl | ⟨later, z, rfl⟩ := after.eq_nil_or_concat
  · obtain ⟨rfl, hlast⟩ := List.append_inj' h rfl
    cases hlast
    exact .inl ⟨rfl, rfl, rfl⟩
  · rw [List.concat_eq_append, ← List.cons_append, ← List.append_assoc] at h
    obtain ⟨rfl, hlast⟩ := List.append_inj' h rfl
    cases hlast
    exact .inr ⟨later, rfl, List.concat_eq_append⟩

theorem Script.Smooth.begins (hS : S.Smooth) {said later : List Exchange} {a : α}
    (h : S (said ++ later) a) {x : Exchange} (hx : x ∈ said) : ¬ x.Fails :=
  hS _ a h x (List.mem_append_left later hx)

/-- A talk that a script allows breaks off at the first request that fails. -/
theorem Script.Allows.named (hS : S.Smooth) {o : Outcome α} (h : S.Allows blame es o)
    {before after : List Exchange} {x : Exchange} (hes : es = before ++ x :: after)
    (hx : x.Fails) :
    after = [] ∧ ∃ q e error, x = .ask q (.error e) ∧ blame q e = some error ∧
      o = .error error := by
  have hmem : x ∈ es := hes ▸ List.mem_append_right _ List.mem_cons_self
  cases h with
  | ended h => exact absurd hx (hS _ _ h x hmem)
  | refused h hrace hblame =>
      obtain ⟨-, rfl, rfl⟩ | ⟨_, rfl, -⟩ := last_or_mem hes
      · exact ⟨rfl, _, _, _, rfl, hblame, rfl⟩
      · exact absurd hx (hS.begins h (by simp))
  | vanished k code e row h =>
      rw [List.append_cons] at h
      rcases List.mem_append.1 hmem with hmem | hmem
      · exact absurd hx (hS.begins h (List.mem_append_left _ hmem))
      · rcases List.mem_cons.1 hmem with rfl | hmem
        · exact absurd hx (hS.begins h (List.mem_append_right _ List.mem_cons_self))
        · rw [List.mem_singleton.1 hmem] at hx
          exact absurd hx ((k.fetch code).not_fails_exchange_ok none)
  | overflowed h =>
      rcases List.mem_append.1 hmem with hmem | hmem
      · exact absurd hx (hS.begins h hmem)
      · rw [List.mem_singleton.1 hmem] at hx
        exact hx.elim

/-- The first request that fails in a unit of work that a script allows. -/
theorem UnitTalk.named (hS : S.Smooth) {o : Outcome α} (h : UnitTalk (S.Allows blame) es o)
    {before after : List Exchange} {x : Exchange} (hes : es = before ++ x :: after)
    (hx : x.Fails) (hbefore : ∀ y ∈ before, ¬ y.Fails) : Named blame x after o := by
  cases before with
  | nil =>
      -- only the opening stands at the beginning, and it fails when nothing follows
      cases h with
      | notBegun e =>
          cases hes
          exact .begin e
      | _ =>
          cases hes
          obtain ⟨e, he⟩ := hx
          cases he
  | cons opening before =>
      have hbefore : ∀ y ∈ before, ¬ y.Fails := fun y hy => hbefore y (List.mem_cons_of_mem _ hy)
      have htail := congrArg List.tail hes
      cases h with
      | notBegun e => exact absurd htail (by simp)
      | overflowed h =>
          obtain ⟨-, q, e, error, -, -, ho⟩ := h.named hS htail hx
          cases ho
      | committed h answer =>
          obtain ⟨-, rfl, rfl⟩ | ⟨later, hasked, -⟩ := last_or_mem htail
          · obtain ⟨e, rfl⟩ := hx
            exact .commit e
          · obtain ⟨-, q, e, error, -, -, ho⟩ := h.named hS hasked hx
            cases ho
      | rolledBack h answer =>
          obtain ⟨rfl, rfl, rfl⟩ | ⟨later, hasked, rfl⟩ := last_or_mem htail
          · obtain ⟨e, rfl⟩ := hx
            cases h with
            | refused _ hrace =>
                exact absurd ⟨_, rfl, hrace⟩
                  (hbefore _ (List.mem_append_right _ List.mem_cons_self))
            | vanished k code => exact .rollback k code e
          · obtain ⟨rfl, q, e, error, rfl, hblame, ho⟩ := h.named hS hasked hx
            cases ho
            exact .ask hblame answer

/-- A query that is refused ends the work, unless it lost a race, and its unit is taken back. -/
theorem UnitTalk.refused (hS : S.Smooth) {o : Outcome α} (h : UnitTalk (S.Allows blame) es o)
    {before after : List Exchange} {q : Query} {e : StoreError}
    (hes : es = before ++ .ask q (.error e) :: after) (hrace : ¬ q.LosesRace e) :
    ∃ error answer, blame q e = some error ∧ after = [.rollback answer] ∧
      o = .rolledBack error answer := by
  have hfails : (Exchange.ask q (.error e)).Fails := ⟨e, rfl, hrace⟩
  cases before with
  | nil =>
      cases h with
      | _ => cases hes
  | cons opening before =>
      have htail := congrArg List.tail hes
      cases h with
      | notBegun e => exact absurd htail (by simp)
      | overflowed h =>
          obtain ⟨-, q, e, error, -, -, ho⟩ := h.named hS htail hfails
          cases ho
      | committed h answer =>
          obtain ⟨-, hcommit, -⟩ | ⟨later, hasked, -⟩ := last_or_mem htail
          · cases hcommit
          · obtain ⟨-, q, e, error, -, -, ho⟩ := h.named hS hasked hfails
            cases ho
      | rolledBack h answer =>
          obtain ⟨-, hrollback, -⟩ | ⟨later, hasked, rfl⟩ := last_or_mem htail
          · cases hrollback
          · obtain ⟨rfl, q, e, error, hask, hblame, ho⟩ := h.named hS hasked hfails
            cases hask
            cases ho
            exact ⟨_, answer, hblame, rfl, rfl⟩

end Failing

section Smooth

variable {k : ReferenceTable} {code : String}

theorem ReferenceTable.smooth_resolves : (k.Resolves code).Smooth := by
  intro es row h
  have hfetch := (k.fetch code).not_fails_exchange_ok
  have hcreate := (k.create code).not_fails_exchange_ok
  cases h with
  | found => exact List.forall_mem_singleton.2 (hfetch _)
  | created =>
      exact List.forall_mem_cons.2 ⟨hfetch _, List.forall_mem_singleton.2 (hcreate _)⟩
  | @lost found e hmissing hunique =>
      refine List.forall_mem_cons.2 ⟨hfetch _, List.forall_mem_cons.2 ⟨?_,
        List.forall_mem_singleton.2 (hfetch _)⟩⟩
      rw [Question.exchange_error]
      rintro ⟨e', he, hrace⟩
      cases he
      exact hrace ((k.losesRace_create e).2 hunique)

theorem smooth_referencesScript (currency : String) : (ReferencesScript currency).Smooth := by
  rintro es refs ⟨htype, hpending, hcompleted, hcurrency⟩
  simp only [List.forall_mem_append]
  exact ⟨ReferenceTable.smooth_resolves _ _ htype, ReferenceTable.smooth_resolves _ _ hpending,
    ReferenceTable.smooth_resolves _ _ hcompleted, ReferenceTable.smooth_resolves _ _ hcurrency⟩

theorem not_fails_entryExchanges (t : ValidTransfer) (transaction : Int) (debit credit : Entry) :
    ∀ x ∈ entryExchanges t transaction debit credit, ¬ x.Fails :=
  List.forall_mem_cons.2 ⟨Exchange.not_fails_ask_ok,
    List.forall_mem_singleton.2 Exchange.not_fails_ask_ok⟩

theorem not_fails_balanceExchanges (t : ValidTransfer) (sender receiver : Account) :
    ∀ x ∈ balanceExchanges t sender receiver, ¬ x.Fails := by
  unfold balanceExchanges
  split
  · exact List.forall_mem_cons.2 ⟨Exchange.not_fails_ask_ok,
      List.forall_mem_singleton.2 Exchange.not_fails_ask_ok⟩
  · exact List.forall_mem_cons.2 ⟨Exchange.not_fails_ask_ok,
      List.forall_mem_singleton.2 Exchange.not_fails_ask_ok⟩

theorem smooth_postingScript (t : ValidTransfer) (refs : TransferReferences) (transaction : Int) :
    (PostingScript t refs transaction).Smooth := by
  rintro es result ⟨debit, credit, sender, receiver, completed⟩
  simp only [List.forall_mem_append, List.forall_mem_singleton]
  exact ⟨not_fails_entryExchanges _ _ _ _, not_fails_balanceExchanges _ _ _,
    Exchange.not_fails_ask_ok⟩

theorem smooth_transferScript (t : ValidTransfer) (reference description : String) :
    (TransferScript t reference description).Smooth := by
  rintro es result ⟨hrefs, pending, hposted⟩
  simp only [List.forall_mem_append, List.forall_mem_cons]
  exact ⟨smooth_referencesScript _ _ _ hrefs, Exchange.not_fails_ask_ok,
    smooth_postingScript _ _ _ _ _ hposted⟩

end Smooth

/-! ## Transfers -/

/-- A talk of a transfer goes by the script until something fails, and the error names what did. -/
structure TransferTalk (t : ValidTransfer) (reference description : String) (es : List Exchange)
    (o : Outcome TransferResult) : Prop where
  /-- Its unit of work is opened, goes by the script until it breaks off, and is ended. -/
  talk : UnitTalk ((TransferScript t reference description).Allows t.blame) es o
  /-- The first request that fails is named. -/
  named : ∀ before x after, es = before ++ x :: after → x.Fails → (∀ y ∈ before, ¬ y.Fails) →
    Named t.blame x after o

/-- A transfer that passed its checks follows its script. -/
theorem TransferCall.follows {call : TransferCall} {t : ValidTransfer}
    (hvalid : call.params.validate = .ok t) :
    (call.work t).Follows t.blame (TransferScript t (t.reference.getD call.generated)
      (t.description.getD call.coordinator.description)) := by
  have hcurrency := TransferParams.currency_of_validate hvalid
  obtain ⟨-, hne, rate, -, rfl⟩ := TransferParams.of_validate hvalid
  exact follows_runTransfer hne hcurrency _ _

/-- Whatever a store answers, a transfer that passed its checks goes by its script until a request
fails.  Nothing is asked after that, but the unit of work is taken back if it is open, and the
error names the step and carries what the store said.  What a transfer without a deadline does
on a store is such a talk. -/
theorem transfer_names_failing_step (call : TransferCall) (t : ValidTransfer)
    (hvalid : call.params.validate = .ok t) :
    (∀ es o, call.job.Talks es o → TransferTalk t (t.reference.getD call.generated)
      (t.description.getD call.coordinator.description) es o) ∧
    ∀ (σ : Type) (b : Backend σ) (s : σ) (now : Nat) (calls : List Call)
      (o : Outcome TransferResult), call.coordinator.timeout = none →
      call.job.course b s now = some (calls, o) → ∃ es, es.map Exchange.call = calls ∧
        TransferTalk t (t.reference.getD call.generated)
          (t.description.getD call.coordinator.description) es o := by
  have hfollows := TransferCall.follows hvalid
  have htalk : ∀ {es o}, UnitTalk (call.work t).Talks es o →
      TransferTalk t (t.reference.getD call.generated)
        (t.description.getD call.coordinator.description) es o := by
    intro es o h
    have hunit := h.mono fun es o => hfollows.allows
    exact ⟨hunit, fun before x after hes hx => hunit.named (smooth_transferScript _ _ _) hes hx⟩
  refine ⟨fun es o h => htalk ((TransferCall.inOneUnit hvalid).talks h), ?_⟩
  intro σ b s now calls o htimeout hcourse
  have hway := TransferCall.way_of_course hvalid hcourse
  rw [htimeout] at hway
  obtain ⟨es, hunit, hcalls⟩ := talk_of_way hway
  exact ⟨es, hcalls, htalk hunit⟩

/-- A store that knows every account and reference row and writes no credit. -/
def creditless : Backend Unit where
  begin _ _ := ⟨some 0, .ok (), (), ()⟩
  ask _ _ q := ⟨some 0, some (match q with
    | .type code => .ok (some ⟨code, "", true⟩)
    | .status code => .ok (some ⟨code, "", true⟩)
    | .currency code => .ok (some ⟨code, "", none, true, .zero, .epoch⟩)
    | .createTransaction _ => .ok default
    | .createEntry new =>
      if new.amount.isPositive then .error (.backend "no credit") else .ok default
    | _ => .error (.notFound "row")), (), ()⟩
  pause _ _ _ := ⟨some 0, (), (), ()⟩
  commit _ _ := ⟨some 0, .ok (), (), ()⟩
  rollback _ _ := ⟨some 0, .error (.backend "no way back"), (), ()⟩

/-- One dollar is to be paid, the credit is refused, and the unit of work cannot be taken back.  The
error names the credit. -/
theorem refused_credit_named :
    ∃ t, Rehearsal.oneDollar.validate = .ok t ∧ ∃ es,
      es.map Exchange.call = [.begin (.ended (.ok ())), .ask (.type "TRANSFER"),
        .ask (.status "PENDING"), .ask (.status "COMPLETED"), .ask (.currency "USD"),
        .ask (.createTransaction ⟨1, 2, "TRANSFER", Rehearsal.oneDollar.amount, "USD",
          ⟨false, 1, 0, by decide, by decide⟩, "PENDING", some "Fund Transfer", "R-1"⟩),
        .ask (.createEntry ⟨1, 0, Rehearsal.oneDollar.amount.negate⟩),
        .ask (.createEntry ⟨2, 0, Rehearsal.oneDollar.amount⟩),
        .rollback (.error (.backend "no way back"))] ∧
      TransferTalk t "R-1" "Fund Transfer" es
        (.error (.rollbackFailed (.storage .creditEntry (.backend "no credit"))
          (.backend "no way back"))) := by
  obtain ⟨t, hvalid⟩ : TransferCall.Valid ⟨.default, "", Rehearsal.oneDollar⟩ :=
    TransferCall.valid_of_isOk (by decide +kernel)
  obtain ⟨-, -, rate, -, rfl⟩ := TransferParams.of_validate hvalid
  exact ⟨_, hvalid, (transfer_names_failing_step ⟨.default, "", Rehearsal.oneDollar⟩ _ hvalid).2
    Unit creditless () 0 _ _ rfl (by decide +kernel)⟩

end FundsTransfer
