import FundsTransfer.Proofs.Backends.Transfers

/-!
# Two services in step

The same calls are made one after another on the store in memory and on a database, where
nothing disturbs and both started from the same accounts.  They get the same answers, and
afterwards the same rows are committed: `backends_agree`.  One renaming of transactions and
entries serves all calls.

There is one exception.  A transfer with a reference number that is in use, between
accounts of which one is missing, breaks two rules at once.  The store in memory looks for
the accounts first, and a database for the reference number, since it checks foreign keys
at the end of a statement.  The two refuse for different reasons, and nothing changes in
either.

A call is one unit of work and a report on it.  So what both stores do with the work of a
call, `Together`, says what becomes of the call.
-/

namespace FundsTransfer

open Memory Database Data Rehearsal

/-! ## In step -/

/-- The store in memory and a database, between two calls. -/
structure InStep (R : Renaming) (w : World) (c : Client) : Prop
    extends Agree R w.tables c.server.published where
  intact : w.tables.Intact
  quiet : w.Undisturbed
  free : w.LockHeld false
  client : c.Undisturbed
  transactions_given :
    GivenOut R.transaction w.tables.lastTransaction c.server.counters.transaction
  entries_given : GivenOut R.entry w.tables.lastEntry c.server.counters.entry

/-- A unit of work begins with what is committed. -/
theorem InStep.abreast {R : Renaming} {k : Int → Nat} {w : World} {c : Client} (h : InStep R w c)
    (hk : ∀ a ∈ rowsOf c.server.published.accounts, a.balance.scale ≤ k a.id) :
    Abreast R k w.tables ⟨c.server.published, false, c.server.counters⟩ :=
  { h with live := rfl, scales := hk }

/-- How a call ended here and there, and that the two are still in step. -/
inductive BothEnd (R : Renaming) (same : Renaming → α → α → Prop)
    (errs : TransferError → TransferError → Prop) :
    CallEnd α × World → Outcome α × Client → Prop where
  | ok {R' : Renaming} (hle : R.Le R') (hrows : same R' a b) (hstep : InStep R' w' c') :
      BothEnd R same errs (.ok a, w') (.ok b, c')
  | error (herrors : errs e e') (hstep : InStep R w' c') :
      BothEnd R same errs (.error e, w') (.error e', c')

/-- Work that both stores do alike leaves them in step. -/
theorem InStep.call {α : Type} {R : Renaming} {k : Int → Nat} {w : World} {c : Client}
    {same : Renaming → α → α → Prop} {errs : TransferError → TransferError → Prop}
    {work : Work α} {job : Job α} (h : InStep R w c) (hjob : job.InOneUnit work)
    (hwork : Together work work w.tables w.probes ⟨c.server.published, false, c.server.counters⟩
      (fun a b t s => ∃ R', R.Le R' ∧ Abreast R' k t s ∧ same R' a b) errs) (pauses : Nat) :
    BothEnd R same errs (Rehearsal.call w job pauses) (c.call job) := by
  cases hwork with
  | goes hyields hp hreaches hpost =>
      rename_i a b t p s
      obtain ⟨R', hle, habreast, hrows⟩ := hpost
      obtain ⟨c₁, hc₁, hrun⟩ := h.client.call_settled (r := .ok b) hjob hreaches
      have hdata : c₁.server.published = s.data := by
        rw [hc₁.published, Session.settled, if_neg (by simp [habreast.live])]
      rw [call_settled (r := .ok a) hjob h.quiet h.free hp hyields, hrun]
      refine .ok hle hrows
        { toAgree := ?_, intact := habreast.intact, quiet := h.quiet.settled hp (.ok a) t,
          free := h.free.settled (.ok a) t p, client := { hc₁ with }, transactions_given := ?_,
          entries_given := ?_ }
      · exact hdata ▸ habreast.toAgree
      · exact hc₁.counters ▸ habreast.transactions_given
      · exact hc₁.counters ▸ habreast.entries_given
  | stops hyields hp hreaches herrors =>
      rename_i e e' t p s
      obtain ⟨c₁, hc₁, hrun⟩ := h.client.call_settled (r := .error e') hjob hreaches
      have hle : c.server.counters.Le c₁.server.counters := hc₁.counters ▸ hreaches.counters
      have hdata : c₁.server.published = c.server.published := hc₁.published
      rw [call_settled (r := .error e) hjob h.quiet h.free hp hyields, hrun]
      refine .error herrors
        { toAgree := ?_, intact := h.intact, quiet := h.quiet.settled hp (.error e) t,
          free := h.free.settled (.error e) t p, client := { hc₁ with }, transactions_given := ?_,
          entries_given := ?_ }
      · exact hdata ▸ h.toAgree
      · exact h.transactions_given.mono (Nat.le_refl _) hle.transaction
      · exact h.entries_given.mono (Nat.le_refl _) hle.entry

/-! ## Calls -/

/-- A call of the service: a transfer, or a resolver. -/
inductive ServiceCall where
  /-- A transfer. -/
  | transfer (call : TransferCall)
  /-- The resolver of statuses. -/
  | status (coordinator : Coordinator) (code : String)
  /-- The resolver of types. -/
  | type (coordinator : Coordinator) (code : String)
  /-- The resolver of currencies. -/
  | currency (coordinator : Coordinator) (code : String)
  /-- The resolver of the whole catalog. -/
  | catalog (coordinator : Coordinator)

/-- What is added to a balance can be added exactly in both stores: as many digits as the numbers
have are enough for the sum. -/
def Representable (t : Tables) (d : Data) (account : Int) (delta : Decimal) : Prop :=
  ∃ digits, Fits digits t account delta ∧
    ∀ a ∈ rowsOf d.accounts, a.id = account → a.balance.scale ≤ digits

/-- Two sums can be made exactly with as many digits as each of them needs. -/
theorem InStep.exists_abreast {R : Renaming} {w : World} {c : Client} (h : InStep R w c)
    {a b : Int} {d e : Decimal} (hne : a ≠ b)
    (hd : Representable w.tables c.server.published a d)
    (he : Representable w.tables c.server.published b e) :
    ∃ k : Int → Nat, Abreast R k w.tables ⟨c.server.published, false, c.server.counters⟩ ∧
      Fits (k a) w.tables a d ∧ Fits (k b) w.tables b e := by
  obtain ⟨first, hfirst, hscale⟩ := hd
  obtain ⟨second, hsecond, hscale'⟩ := he
  let k : Int → Nat := fun id => if id = a then first else if id = b then second else 28
  have ha : k a = first := if_pos rfl
  have hb : k b = second := (if_neg (Ne.symm hne)).trans (if_pos rfl)
  refine ⟨k, h.abreast fun row hrow => ?_, ha.symm ▸ hfirst, hb.symm ▸ hsecond⟩
  by_cases hrowa : row.id = a
  · rw [hrowa, ha]
    exact hscale row hrow hrowa
  by_cases hrowb : row.id = b
  · rw [hrowb, hb]
    exact hscale' row hrow hrowb
  have hother : k row.id = 28 := (if_neg hrowa).trans (if_neg hrowb)
  exact hother ▸ row.balance.scale_le

namespace ServiceCall

variable {R R' : Renaming} {w : World} {c : Client} {t : Tables}

/-- What a call brings. -/
@[reducible] def Result : ServiceCall → Type
  | transfer _ => TransferResult
  | status _ _ => TransactionStatus
  | type _ _ => TransactionType
  | currency _ _ => Currency
  | catalog _ => SeededCatalog

/-- The job of a call. -/
def job : (call : ServiceCall) → Job call.Result
  | transfer call => call.job
  | status coordinator code => coordinator.resolveStatus code
  | type coordinator code => coordinator.resolveType code
  | currency coordinator code => coordinator.resolveCurrency code
  | catalog coordinator => coordinator.seed

/-- The same rows. -/
def Alike (R : Renaming) : (call : ServiceCall) → call.Result → call.Result → Prop
  | transfer _ => TransferResult.Alike R
  | status _ _ => Eq
  | type _ _ => Eq
  | currency _ _ => Currency.Alike
  | catalog _ => SeededCatalog.Alike

/-- A call that the two stores refuse for different reasons: a transfer whose reference number is
in use, with an account that is missing. -/
def Clashes (t : Tables) : ServiceCall → Prop
  | transfer call => call.Valid ∧ Clash t call.params.sender call.params.receiver call.reference
  | _ => False

/-- The sums that a call needs can be made exactly. -/
def Affordable (t : Tables) (d : Data) : ServiceCall → Prop
  | transfer call => call.Valid →
      Representable t d call.params.sender call.params.amount.negate ∧
        Representable t d call.params.receiver call.params.amount
  | _ => True

/-- The answers of the two stores to a call. -/
inductive Agreed (R : Renaming) (t : Tables) (call : ServiceCall) :
    CallEnd call.Result → Outcome call.Result → Prop where
  | ok (hclash : ¬ call.Clashes t) (hrows : call.Alike R a b) : Agreed R t call (.ok a) (.ok b)
  | error (hclash : ¬ call.Clashes t) : Agreed R t call (.error e) (.error e)
  | clash (hclash : call.Clashes t) (hcode : e.code = "ACCOUNT_NOT_FOUND" ∧ e.httpStatus = 404)
      (hcode' : e'.code = "DUPLICATE_REFERENCE" ∧ e'.httpStatus = 409) :
      Agreed R t call (.error e) (.error e')

theorem Alike.mono {call : ServiceCall} {a b : call.Result} (h : call.Alike R a b)
    (hR : R.Le R') : call.Alike R' a b := by
  cases call with
  | transfer call => exact TransferResult.Alike.mono h hR
  | _ => exact h

theorem Agreed.mono {call : ServiceCall} {r : CallEnd call.Result} {o : Outcome call.Result}
    (h : call.Agreed R t r o) (hR : R.Le R') : call.Agreed R' t r o := by
  cases h with
  | ok hclash hrows => exact .ok hclash (hrows.mono hR)
  | error hclash => exact .error hclash
  | clash hclash hcode hcode' => exact .clash hclash hcode hcode'

/-- What is found against a call in one unit of work is what both stores answer. -/
theorem agreed_of_errorsAlike {call : ServiceCall} {e e' : TransferError}
    (h : ErrorsAlike (call.Clashes t) e e') : call.Agreed R t (.error e) (.error e') := by
  cases h with
  | same hclash => exact .error hclash
  | clash hclash => exact .clash hclash ⟨rfl, rfl⟩ ⟨rfl, rfl⟩

/-- Both stores answer a call, and are still in step. -/
def Served (R : Renaming) (w : World) (c : Client) (call : ServiceCall) : Prop :=
  ∃ R', R.Le R' ∧ InStep R' (Rehearsal.call w call.job 0).2 (c.call call.job).2 ∧
    call.Agreed R' w.tables (Rehearsal.call w call.job 0).1 (c.call call.job).1

theorem served_of_together {k : Int → Nat} {call : ServiceCall} {work : Work call.Result}
    (h : InStep R w c) (hjob : call.job.InOneUnit work)
    (hwork : Together work work w.tables w.probes ⟨c.server.published, false, c.server.counters⟩
      (fun a b t s => ∃ R', R.Le R' ∧ Abreast R' k t s ∧
        ¬ call.Clashes w.tables ∧ call.Alike R' a b) (ErrorsAlike (call.Clashes w.tables))) :
    call.Served R w c := by
  unfold Served
  have hends := h.call hjob hwork 0
  generalize Rehearsal.call w call.job 0 = here at hends ⊢
  generalize c.call call.job = there at hends ⊢
  cases hends with
  | ok hle hrows hstep => exact ⟨_, hle, hstep, .ok hrows.1 hrows.2⟩
  | error herrors hstep => exact ⟨R, .refl R, hstep, agreed_of_errorsAlike herrors⟩

/-- A resolver finds or creates the same rows in both stores. -/
theorem served_of_resolver {call : ServiceCall} {work : Work call.Result} (h : InStep R w c)
    (hjob : call.job.InOneUnit work) (hclash : ¬ call.Clashes w.tables)
    (hwork : ∀ {k : Int → Nat} {t : Tables} {p : Probes} {s : Session}, Abreast R k t s → p.Calm →
      Together work work t p s (fun a b t' s' => call.Alike R a b ∧ Abreast R k t' s')
        (ErrorsAlike (call.Clashes w.tables))) : call.Served R w c := by
  have habreast := h.abreast (k := fun _ => 28) fun a _ => a.balance.scale_le
  refine served_of_together (k := fun _ => 28) h hjob ((hwork habreast h.quiet.faults).mono ?_)
  rintro a b t s ⟨hrows, hafter⟩
  exact ⟨R, .refl R, hafter, hclash, hrows⟩

/-- A transfer that does not pass its checks gets to neither store. -/
theorem served_invalid {call : TransferCall} {e : TransferError} (h : InStep R w c)
    (hv : call.params.validate = .error e) : (transfer call).Served R w c := by
  have hclash : ¬ (transfer call).Clashes w.tables := by
    rintro ⟨⟨v, hv'⟩, -⟩
    rw [hv] at hv'
    cases hv'
  have hhere : Rehearsal.call w (transfer call).job 0 = (.error e, w) :=
    call_transfer_invalid h.free hv 0
  have hthere : c.call (transfer call).job = (.error e, { c with current := none }) := by
    have hjob : call.job = .done (.error e) := by
      rw [TransferCall.job, Coordinator.transfer, hv]
    simp only [job, hjob]
    rfl
  unfold Served
  rw [hhere, hthere]
  exact ⟨R, .refl R, { h with client := { h.client with } }, .error hclash⟩

theorem served_valid {call : TransferCall} {v : ValidTransfer} (h : InStep R w c)
    (hfits : (transfer call).Affordable w.tables c.server.published)
    (hv : call.params.validate = .ok v) : (transfer call).Served R w c := by
  obtain ⟨hdebit, hcredit⟩ := hfits ⟨v, hv⟩
  have hcurrency := TransferParams.currency_of_validate hv
  obtain ⟨hamount, hne, rate, -, rfl⟩ := TransferParams.of_validate hv
  obtain ⟨k, habreast, hdebit, hcredit⟩ := h.exists_abreast hne hdebit hcredit
  have hclash : (transfer call).Clashes w.tables =
      Clash w.tables call.params.sender call.params.receiver call.reference :=
    propext ⟨And.right, fun h => ⟨⟨_, hv⟩, h⟩⟩
  refine served_of_together (k := k) h (TransferCall.inOneUnit hv) ?_
  rw [hclash]
  refine (Together.runTransfer (v := call.params.withRate rate) habreast h.quiet.faults
    call.reference _ hamount hne hcurrency hdebit hcredit).mono ?_
  rintro a b t s ⟨hfree, R', hle, hafter, hrows⟩
  exact ⟨R', hle, hafter, hfree, hrows⟩

/-- Both stores serve every call. -/
theorem served (call : ServiceCall) (h : InStep R w c)
    (hfits : call.Affordable w.tables c.server.published) : call.Served R w c := by
  cases call with
  | transfer call =>
      cases hv : call.params.validate with
      | error e => exact served_invalid h hv
      | ok v => exact served_valid h hfits hv
  | status coordinator code =>
      refine served_of_resolver h (Job.inOneUnit_execute _ _) id fun h hp => ?_
      exact Together.resolve .status code h hp fun _ => .same id
  | type coordinator code =>
      refine served_of_resolver h (Job.inOneUnit_execute _ _) id fun h hp => ?_
      exact Together.resolve .type code h hp fun _ => .same id
  | currency coordinator code =>
      refine served_of_resolver h (Job.inOneUnit_execute _ _) id fun h hp => ?_
      exact Together.resolve .currency code h hp fun _ => .same id
  | catalog coordinator =>
      refine served_of_resolver h (Job.inOneUnit_execute _ _) id fun h hp => ?_
      exact Together.seedCatalog h hp fun _ => .same id

end ServiceCall

/-! ## One call after another -/

/-- The sums that the calls need, each at its turn, can be made exactly in both stores. -/
def AffordableInTurn : List ServiceCall → World → Client → Prop
  | [], _, _ => True
  | call :: rest, w, c =>
    call.Affordable w.tables c.server.published ∧
      AffordableInTurn rest (Rehearsal.call w call.job 0).2 (c.call call.job).2

/-- The two stores answer all calls alike, and hold the same rows before and after each. -/
def AgreeInTurn (R : Renaming) : List ServiceCall → World → Client → Prop
  | [], w, c => Agree R w.tables c.server.published
  | call :: rest, w, c =>
    Agree R w.tables c.server.published ∧
      call.Agreed R w.tables (Rehearsal.call w call.job 0).1 (c.call call.job).1 ∧
      AgreeInTurn R rest (Rehearsal.call w call.job 0).2 (c.call call.job).2

/-- Stores that are in step agree on all calls.  The numbers given out on the way extend the
renaming, and what was alike before is alike under the larger one. -/
theorem InStep.agreeInTurn {R : Renaming} {w : World} {c : Client} (h : InStep R w c)
    (calls : List ServiceCall) (hfits : AffordableInTurn calls w c) :
    ∃ R', R.Le R' ∧ R'.OneToOne ∧ AgreeInTurn R' calls w c := by
  induction calls generalizing R w c with
  | nil =>
      exact ⟨R, .refl R, ⟨h.transactions_given.oneToOne, h.entries_given.oneToOne⟩, h.toAgree⟩
  | cons call rest ih =>
      obtain ⟨R₁, hle₁, hstep, hagreed⟩ := call.served h hfits.1
      obtain ⟨R₂, hle₂, hone, hrest⟩ := ih hstep hfits.2
      exact ⟨R₂, hle₁.trans hle₂, hone, h.toAgree.mono (hle₁.trans hle₂), hagreed.mono hle₂, hrest⟩

/-- Both stores have the same accounts, and nothing else. -/
structure SameStart (t : Tables) (d : Data) : Prop where
  accounts : t.accounts.Mirrors (rowsOf d.accounts) Account.id Eq Account.Alike
  transactions : t.transactions = .empty ∧ rowsOf d.transactions = []
  entries : t.entries = [] ∧ rowsOf d.entries = []
  statuses : t.statuses = .empty ∧ rowsOf d.statuses = []
  types : t.types = .empty ∧ rowsOf d.types = []
  currencies : t.currencies = .empty ∧ rowsOf d.currencies = []

theorem SameStart.agree {t : Tables} {d : Data} (h : SameStart t d) : Agree .none t d where
  accounts := h.accounts
  transactions := by
    rw [h.transactions.1, h.transactions.2]
    exact .empty
  entries := by
    rw [h.entries.1, h.entries.2]
    exact .nil
  statuses := by
    rw [h.statuses.1, h.statuses.2]
    exact .empty
  types := by
    rw [h.types.1, h.types.2]
    exact .empty
  currencies := by
    rw [h.currencies.1, h.currencies.2]
    exact .empty

/-- Transfers and resolvers, called one after another on the store in memory and on a database that
started from the same accounts, get the same rows or the same error from both, and the same rows
are committed afterwards, up to one renaming of transactions and entries, as long as the sums can
be made exactly.  Only a transfer with a used reference number and a missing account is told
different reasons. -/
theorem backends_agree {w : World} {c : Client} (hw : Reachable w) (hquiet : w.Undisturbed)
    (hlock : w.LockHeld false) (hc : c.Undisturbed)
    (hstart : SameStart w.tables c.server.published) (calls : List ServiceCall)
    (hfits : AffordableInTurn calls w c) :
    ∃ R : Renaming, R.OneToOne ∧ AgreeInTurn R calls w c := by
  have hstep : InStep .none w c :=
    { hstart.agree with
      intact := hw.intact
      quiet := hquiet
      free := hlock
      client := hc
      transactions_given := .none
      entries_given := .none }
  obtain ⟨R, -, hone, hagree⟩ := hstep.agreeInTurn calls hfits
  exact ⟨R, hone, hagree⟩

/-! ## Two accounts of a hundred dollars -/

theorem sameStart_empty : SameStart .empty .empty where
  accounts := .empty
  transactions := ⟨rfl, rfl⟩
  entries := ⟨rfl, rfl⟩
  statuses := ⟨rfl, rfl⟩
  types := ⟨rfl, rfl⟩
  currencies := ⟨rfl, rfl⟩

/-- An account that is opened in both stores is the same in both. -/
theorem SameStart.openAccount {t : Tables} {server : Server} (h : SameStart t server.published)
    (ht : t.WellFormed) (hlast : t.lastAccount = server.counters.account) (user : Int)
    (currency : String) (balance : Decimal) :
    SameStart (t.openAccount .epoch user currency balance).2
      (server.openAccount user currency balance).2.published :=
  { h with
    accounts := by
      have hopened : Account.Alike (t.openAccount .epoch user currency balance).1
          (Account.checking (server.counters.account + 1 : Nat) user currency balance .epoch) := by
        rw [← hlast]
        exact ⟨rfl, rfl, rfl, rfl, rfl, rfl, rfl, rfl, rfl⟩
      exact h.accounts.put_new Table.biUnique_eq hopened hopened.id
        ht.accounts_within.find?_next }

/-- Two accounts of a hundred dollars each, in memory. -/
def hundredEach : World := twoAccounts hundredDollars hundredDollars

theorem sameStart_hundredEach :
    SameStart hundredEach.tables hundredEachThere.server.published := by
  have hfirst : SameStart _ (Server.fresh.openAccount 1 "USD" hundredDollars).2.published :=
    sameStart_empty.openAccount Tables.wellFormed_empty rfl 1 "USD" hundredDollars
  exact hfirst.openAccount (Tables.wellFormed_empty.openAccount 1 "USD" hundredDollars) rfl 2 "USD"
    hundredDollars

/-- A dollar for the second account. -/
def dollarToSecond : ServiceCall := .transfer ⟨.default, "", oneDollar⟩

/-- A dollar for an account that is not there, with the same reference number. -/
def dollarToNobody : ServiceCall := .transfer ⟨.default, "", { oneDollar with receiver := 999 }⟩

/-- Both, and a currency that nobody has used. -/
def dollarsAndEuro : List ServiceCall := [dollarToSecond, dollarToNobody, .currency .default "EUR"]

theorem affordable_dollarsAndEuro :
    AffordableInTurn dollarsAndEuro hundredEach hundredEachThere := by
  refine ⟨fun _ => ⟨⟨2, ?_, ?_⟩, ⟨2, ?_, ?_⟩⟩, fun _ => ⟨⟨2, ?_, ?_⟩, ⟨2, ?_, ?_⟩⟩, trivial,
    trivial⟩
  all_goals decide +kernel

/-- The stores agree on the dollars and the euro. -/
theorem dollars_and_euro_in_both :
    AffordableInTurn dollarsAndEuro hundredEach hundredEachThere ∧
      ∃ R : Renaming, R.OneToOne ∧ AgreeInTurn R dollarsAndEuro hundredEach hundredEachThere := by
  have hfits := affordable_dollarsAndEuro
  exact ⟨hfits, backends_agree (reachable_twoAccounts _ _) ⟨rfl, fun _ => rfl⟩ ⟨rfl, rfl, rfl⟩
    ⟨rfl, rfl⟩ sameStart_hundredEach _ hfits⟩

/-- The word and the status that a caller is told with an error. -/
def Outcome.told? {α : Type} : Outcome α → Option (String × Nat)
  | .error e => some (e.code, e.httpStatus)
  | _ => none

/-- The word and the status that a caller of the store in memory is told with an error. -/
def Rehearsal.CallEnd.told? {α : Type} : CallEnd α → Option (String × Nat)
  | .error e => some (e.code, e.httpStatus)
  | _ => none

/-- After the first dollar, the second one is refused for different reasons. -/
theorem dollar_to_nobody_told_apart :
    SameStart hundredEach.tables hundredEachThere.server.published ∧
      AffordableInTurn dollarsAndEuro hundredEach hundredEachThere ∧
      (Rehearsal.call (Rehearsal.call hundredEach dollarToSecond.job 0).2
        dollarToNobody.job 0).1.told? = some ("ACCOUNT_NOT_FOUND", 404) ∧
      ((hundredEachThere.call dollarToSecond.job).2.call dollarToNobody.job).1.told? =
        some ("DUPLICATE_REFERENCE", 409) :=
  ⟨sameStart_hundredEach, affordable_dollarsAndEuro, by decide +kernel, by decide +kernel⟩

end FundsTransfer
