import FundsTransfer.Proofs.Memory.Answer

/-!
# A store in memory that nothing disturbs

Where no fault is armed, what a query comes to can be calculated.  Each query that writes
has a lemma for every way in which it can end then.  Races may be pending: an insertion
that loses one leaves the row of the winner behind, and whoever asks goes on from there.

`Work.Yields` is the calculation for work.  It is the one way in which the work can end,
where `Ends` says how it can end with any faults.
-/

namespace FundsTransfer.Memory

/-- No fault is armed. -/
def Probes.Calm (p : Probes) : Prop := ∀ point, p.countdown point = 0

variable {t : Tables} {p : Probes} {now : Timestamp}

/-- A call goes through where no fault is armed for its kind. -/
theorem Probes.trip_of_zero {point : FaultPoint} (h : p.countdown point = 0) :
    p.trip point = (false, p) := by
  rw [Probes.trip, h]

namespace Probes.Calm

theorem trip (h : p.Calm) (point : FaultPoint) : p.trip point = (false, p) :=
  trip_of_zero (h point)

theorem touch (h : p.Calm) (id : Int) : (p.touch id).Calm := h

theorem takeRace (h : p.Calm) : p.takeRace.2.Calm := by
  rw [Probes.takeRace]
  split
  · exact h
  · exact h

end Probes.Calm

/-! ## Primitives -/

namespace Operation

variable {β : Type} (f : Unit → Operation β)

theorem run_trip_bind {point : FaultPoint} (h : p.countdown point = 0) :
    (trip point >>= f).run ⟨t, p⟩ = (f ()).run ⟨t, p⟩ := by
  rw [run_bind, run_trip, Probes.trip_of_zero h]
  rfl

theorem run_check_bind (c : Bool) (e : StoreError) (w : Working) :
    (check c e >>= f).run w = if c then (f ()).run w else (.error (.refused e), w) := by
  cases c with
  | true => rfl
  | false => rfl

theorem run_tables_bind (g : Tables → Operation β) (w : Working) :
    (tables >>= g).run w = (g w.tables).run w := rfl

theorem run_setTables_bind (t' : Tables) :
    (setTables t' >>= f).run ⟨t, p⟩ = (f ()).run ⟨t', p⟩ := rfl

theorem run_takeRace_bind (g : Bool → Operation β) :
    (takeRace >>= g).run ⟨t, p⟩ = (g p.takeRace.1).run ⟨t, p.takeRace.2⟩ := rfl

end Operation

open Operation

/-! ## Queries -/

section

variable (hp : p.Calm)
include hp

theorem run_createTransaction {new : NewTransaction} (h : t.Admits new) :
    (perform now (.createTransaction new)).run ⟨t, p⟩ =
      (.ok (t.insertTransaction now new).1, ⟨(t.insertTransaction now new).2, p⟩) := by
  simp only [perform, createTransaction, checkAccount, checkStatus]
  simp only [run_trip_bind _ (hp _), run_tables_bind, run_check_bind, run_setTables_bind, h.sender,
    h.receiver, h.status, h.type, h.currency, h.reference]
  rfl

theorem run_createTransaction_noSender {new : NewTransaction}
    (h : t.accounts.contains new.sender = false) :
    (perform now (.createTransaction new)).run ⟨t, p⟩ =
      (.error (.refused (.notFound ("account " ++ Text.intText new.sender))), ⟨t, p⟩) := by
  simp only [perform, createTransaction, checkAccount, checkStatus]
  simp [run_trip_bind _ (hp _), run_tables_bind, run_check_bind, h]

theorem run_createTransaction_noReceiver {new : NewTransaction}
    (hsender : t.accounts.contains new.sender = true)
    (h : t.accounts.contains new.receiver = false) :
    (perform now (.createTransaction new)).run ⟨t, p⟩ =
      (.error (.refused (.notFound ("account " ++ Text.intText new.receiver))), ⟨t, p⟩) := by
  simp only [perform, createTransaction, checkAccount, checkStatus]
  simp [run_trip_bind _ (hp _), run_tables_bind, run_check_bind, hsender, h]

/-- A reference number in use is the last thing that a new transaction is refused for. -/
theorem run_createTransaction_used {new : NewTransaction}
    (hsender : t.accounts.contains new.sender = true)
    (hreceiver : t.accounts.contains new.receiver = true)
    (hstatus : t.statuses.contains new.status = true)
    (htype : t.types.contains new.type = true)
    (hcurrency : t.currencies.contains new.currency = true)
    (h : t.hasReference new.reference = true) :
    (perform now (.createTransaction new)).run ⟨t, p⟩ =
      (.error (.refused (.uniqueViolation ("reference number " ++ new.reference))), ⟨t, p⟩) := by
  simp only [perform, createTransaction, checkAccount, checkStatus]
  simp [run_trip_bind _ (hp _), run_tables_bind, run_check_bind, hsender, hreceiver, hstatus,
    htype, hcurrency, h]

theorem run_createEntry {new : NewEntry} (haccount : t.accounts.contains new.account = true)
    (htransaction : t.transactions.contains new.transaction = true) :
    (perform now (.createEntry new)).run ⟨t, p⟩ =
      (.ok (t.insertEntry now new).1, ⟨(t.insertEntry now new).2, p⟩) := by
  simp only [perform, createEntry, checkAccount]
  simp only [run_trip_bind _ (hp _), run_tables_bind, run_check_bind, run_setTables_bind, haccount,
    htransaction]
  rfl

theorem run_setStatus {id : Int} {code : String} {old : Transaction}
    (hcode : t.statuses.contains code = true) (hold : t.transactions.find? id = some old) :
    (perform now (.setStatus id code)).run ⟨t, p⟩ =
      (.ok { old with status := code, updatedAt := now },
        ⟨{ t with transactions := t.transactions.put id
                    { old with status := code, updatedAt := now } }, p⟩) := by
  simp only [perform, setStatus, checkStatus]
  simp only [run_trip_bind _ (hp _), run_tables_bind, run_check_bind, run_setTables_bind, hcode,
    hold]
  rfl

theorem run_addBalance {id : Int} {delta balance : Decimal} {old : Account}
    (hold : t.accounts.find? id = some old) (hactive : old.isActive = true)
    (hsum : old.balance.add? delta = some balance) :
    (perform now (.addBalance id delta)).run ⟨t, p⟩ =
      (.ok { old with balance, updatedAt := now },
        ⟨{ t with accounts := t.accounts.put id { old with balance, updatedAt := now } },
          p.touch id⟩) := by
  show (trip .addBalance >>= _).run ⟨t, p.touch id⟩ = _
  simp only [run_trip_bind _ (hp.touch id _), run_tables_bind, run_check_bind, run_setTables_bind,
    hold, hactive, hsum]
  rfl

/-- A closed account is refused, and so is one that is not there. -/
theorem run_addBalance_closed {id : Int} (delta : Decimal)
    (h : (t.accounts.find? id).any Account.isActive = false) :
    (perform now (.addBalance id delta)).run ⟨t, p⟩ =
      (.error (.refused (.notFound ("active account " ++ Text.intText id))),
        ⟨t, p.touch id⟩) := by
  show (trip .addBalance >>= _).run ⟨t, p.touch id⟩ = _
  rw [run_trip_bind _ (hp.touch id _), run_tables_bind]
  cases hold : t.accounts.find? id with
  | none => rfl
  | some old =>
      have hclosed : old.isActive = false := by simpa [hold] using h
      simp [run_check_bind, hclosed]

/-- A sum that no decimal holds changes nothing. -/
theorem run_addBalance_overflow {id : Int} {delta : Decimal} {old : Account}
    (hold : t.accounts.find? id = some old) (hactive : old.isActive = true)
    (hsum : old.balance.add? delta = none) :
    (perform now (.addBalance id delta)).run ⟨t, p⟩ = (.error .overflow, ⟨t, p.touch id⟩) := by
  show (trip .addBalance >>= _).run ⟨t, p.touch id⟩ = _
  simp only [run_trip_bind _ (hp.touch id _), run_tables_bind, run_check_bind, hold, hactive, hsum]
  rfl

end

/-- A reference row that is not there is written, unless a fault fires.  If a race is lost, the
caller is told that it was. -/
theorem run_createReference {ρ : Type} {p₁ : Probes} (table : Tables → Table String ρ)
    (update : Tables → Table String ρ → Tables) (label code : String) (row : ρ)
    (hp : p.trip .createReference = (false, p₁)) (h : (table t).contains code = false) :
    (createReference table update label code row).run ⟨t, p⟩ =
      (if p₁.takeRace.1 then .error (.refused (.uniqueViolation (label ++ " " ++ code)))
        else .ok row, ⟨update t ((table t).put code row), p₁.takeRace.2⟩) := by
  unfold createReference
  rw [run_bind, run_trip, hp]
  simp only [Bool.false_eq_true, if_false, run_takeRace_bind, run_tables_bind, h,
    run_setTables_bind]
  cases p₁.takeRace.1 with
  | true => rfl
  | false => rfl

end FundsTransfer.Memory

/-! ## Work -/

namespace FundsTransfer.Work

open Memory

variable {α β : Type} {s s₁ s' : Working}

/-- What work comes to when nobody else has a hand in it, and what it leaves behind.  Work that
waits comes to nothing. -/
def Yields : Work α → Working → Outcome α → Working → Prop
  | .done a, s, o, s' => o = .ok a ∧ s' = s
  | .fail e, s, o, s' => o = .error e ∧ s' = s
  | .overflow, s, o, s' => o = .overflow ∧ s' = s
  | .log _ rest, s, o, s' => rest.Yields s o s'
  | .pause _ _, _, _, _ => False
  | .call q next, s, o, s' =>
    match (perform .epoch q).run s with
    | (.ok a, s₁) => (next (.ok a)).Yields s₁ o s'
    | (.error (.refused e), s₁) => (next (.error e)).Yields s₁ o s'
    | (.error .overflow, s₁) => o = .overflow ∧ s' = s₁

theorem yields_pure (a : α) : (pure a : Work α).Yields s (.ok a) s := ⟨rfl, rfl⟩

@[simp] theorem yields_log {event : Log.Event} {w : Work α} {o : Outcome α} :
    (log event w).Yields s o s' ↔ w.Yields s o s' := Iff.rfl

@[simp] theorem yields_emit_bind {event : Log.Event} {f : Unit → Work β} {o : Outcome β} :
    (emit event >>= f).Yields s o s' ↔ (f ()).Yields s o s' := Iff.rfl

/-- A query has an answer to go on with, or its sum outgrew a decimal. -/
theorem yields_call {q : Query} {next : Except StoreError q.Answer → Work α} {o : Outcome α} :
    (call q next).Yields s o s' ↔
      (∃ r s₁, (perform .epoch q).run s = (r.mapError .refused, s₁) ∧ (next r).Yields s₁ o s') ∨
        (perform .epoch q).run s = (.error .overflow, s') ∧ o = .overflow := by
  rw [Yields]
  rcases hrun : (perform .epoch q).run s with ⟨(e | _) | a, s₁⟩
  · constructor
    · exact fun h => .inl ⟨.error e, s₁, rfl, h⟩
    · rintro (⟨r, s₂, hr, h⟩ | ⟨hr, -⟩)
      · cases r with
        | ok a => cases hr
        | error e =>
            cases hr
            exact h
      · cases hr
  · constructor
    · rintro ⟨rfl, rfl⟩
      exact .inr ⟨rfl, rfl⟩
    · rintro (⟨r, s₂, hr, h⟩ | ⟨hr, rfl⟩)
      · cases r with
        | ok a => cases hr
        | error e => cases hr
      · cases hr
        exact ⟨rfl, rfl⟩
  · constructor
    · exact fun h => .inl ⟨.ok a, s₁, rfl, h⟩
    · rintro (⟨r, s₂, hr, h⟩ | ⟨hr, -⟩)
      · cases r with
        | ok a =>
            cases hr
            exact h
        | error e => cases hr
      · cases hr

theorem yields_ask {q : Query} {r : Except StoreError q.Answer}
    (h : (perform .epoch q).run s = (r.mapError .refused, s')) : (ask q).Yields s (.ok r) s' :=
  yields_call.2 (.inl ⟨r, s', h, rfl, rfl⟩)

theorem yields_require {q : Query} {f : StoreError → TransferError} {a : q.Answer}
    (h : (perform .epoch q).run s = (.ok a, s')) : (require q f).Yields s (.ok a) s' :=
  yields_call.2 (.inl ⟨.ok a, s', h, rfl, rfl⟩)

theorem yields_require_error {q : Query} {f : StoreError → TransferError} {e : StoreError}
    (h : (perform .epoch q).run s = (.error (.refused e), s')) :
    (require q f).Yields s (.error (f e)) s' :=
  yields_call.2 (.inl ⟨.error e, s', h, rfl, rfl⟩)

/-- A sequence goes on from where its first part succeeded. -/
theorem Yields.bind {w : Work α} {f : α → Work β} {a : α} {o : Outcome β}
    (hw : w.Yields s (.ok a) s₁) (hf : (f a).Yields s₁ o s') : (w >>= f).Yields s o s' := by
  induction w generalizing s with
  | done b =>
      obtain ⟨ha, rfl⟩ := hw
      cases ha
      exact hf
  | fail e => cases hw.1
  | overflow => cases hw.1
  | log event rest ih => exact ih hw
  | pause ms rest ih => exact hw.elim
  | call q next ih =>
      obtain ⟨r, s₂, hrun, h⟩ | ⟨-, ho⟩ := yields_call.1 hw
      · exact yields_call.2 (.inl ⟨r, s₂, hrun, ih r h⟩)
      · cases ho

/-- A sequence stops where its first part does. -/
theorem Yields.bind_error {w : Work α} {f : α → Work β} {e : TransferError}
    (hw : w.Yields s (.error e) s') : (w >>= f).Yields s (.error e) s' := by
  induction w generalizing s with
  | done b => cases hw.1
  | fail e' =>
      obtain ⟨he, rfl⟩ := hw
      cases he
      exact ⟨rfl, rfl⟩
  | overflow => cases hw.1
  | log event rest ih => exact ih hw
  | pause ms rest ih => exact hw.elim
  | call q next ih =>
      obtain ⟨r, s₂, hrun, h⟩ | ⟨-, ho⟩ := yields_call.1 hw
      · exact yields_call.2 (.inl ⟨r, s₂, hrun, ih r h⟩)
      · cases ho

/-- A sequence stops at an overflow of its first part. -/
theorem Yields.bind_overflow {w : Work α} {f : α → Work β} (hw : w.Yields s .overflow s') :
    (w >>= f).Yields s .overflow s' := by
  induction w generalizing s with
  | done b => cases hw.1
  | fail e => cases hw.1
  | overflow => exact ⟨rfl, hw.2⟩
  | log event rest ih => exact ih hw
  | pause ms rest ih => exact hw.elim
  | call q next ih =>
      obtain ⟨r, s₂, hrun, h⟩ | ⟨hrun, -⟩ := yields_call.1 hw
      · exact yields_call.2 (.inl ⟨r, s₂, hrun, ih r h⟩)
      · exact yields_call.2 (.inr ⟨hrun, rfl⟩)

/-- What work comes to is one of the ways in which it can end. -/
theorem Yields.ends {w : Work α} {a : α} (h : w.Yields s (.ok a) s') :
    w.Ends (Answers .epoch) s.tables (.ok a) s'.tables := by
  induction w generalizing s with
  | done b =>
      obtain ⟨ha, rfl⟩ := h
      exact ⟨ha, rfl⟩
  | fail e => cases h.1
  | overflow => cases h.1
  | log event rest ih => exact ih h
  | pause ms rest ih => exact h.elim
  | call q next ih =>
      obtain ⟨r, s₁, hrun, hnext⟩ | ⟨-, ho⟩ := yields_call.1 h
      · exact ⟨r, s₁.tables, ⟨s.probes, s₁.probes, hrun⟩, ih r hnext⟩
      · cases ho

end FundsTransfer.Work
