import FundsTransfer.Memory.Store
import FundsTransfer.Proofs.Work.Ending

/-!
# What the store in memory answers

`Memory.Answers` is the store in memory as work sees it.  It forgets the faults and races:
an answer is possible when some of them make the store give it.  So what is shown of it
holds whatever was armed before.

An operation is taken apart one primitive after the other.  Each primitive has a lemma
that says what is left to do behind it, such as `refused_or_of_check`.  From these, each
query that writes has one lemma on what a success did to the tables, and nothing else.
Inserting a reference row can change the tables and be refused all the same, when it
loses a race, so `gives_createReference` lists all its results.
-/

namespace FundsTransfer.Memory

/-! ## Operations, one primitive after the other -/

namespace Operation

variable {α β : Type} {t t' : Tables} {r : Except Refusal β}

/-- Whether an operation on tables can have a result and leave other tables behind, whatever faults
and races are pending. -/
def Gives (x : Operation α) (t : Tables) (r : Except Refusal α) (t' : Tables) : Prop :=
  ∃ p p', x.run ⟨t, p⟩ = (r, ⟨t', p'⟩)

theorem run_bind (x : Operation α) (f : α → Operation β) (w : Working) :
    (x >>= f).run w = match x.run w with
      | (.ok a, w') => (f a).run w'
      | (.error e, w') => (.error e, w') := by
  show (match x.run w with
      | (r, w') => (ExceptT.bindCont f r : StateM Working _) w') = _
  rcases x.run w with ⟨r, w'⟩
  cases r with
  | ok a => rfl
  | error e => rfl

theorem run_trip (point : FaultPoint) (w : Working) :
    (trip point).run w =
      (if (w.probes.trip point).1 then .error (.refused (injected point)) else .ok (),
        { w with probes := (w.probes.trip point).2 }) := by
  show (if (w.probes.trip point).1 then refuse (injected point) else pure () :
    Operation Unit).run { w with probes := (w.probes.trip point).2 } = _
  split <;> rfl

/-- An operation stopped at an error and left the tables as they were. -/
def Refused (t : Tables) (r : Except Refusal β) (t' : Tables) : Prop :=
  (∃ e, r = .error e) ∧ t' = t

theorem Refused.absurd {b : β} (h : Refused t (.ok b) t') : False := by
  obtain ⟨⟨e, he⟩, -⟩ := h
  cases he

theorem gives_pure {a : β} (h : (pure a : Operation β).Gives t r t') : r = .ok a ∧ t' = t := by
  obtain ⟨p, p', h⟩ := h
  cases h
  exact ⟨rfl, rfl⟩

theorem gives_refuse {e : StoreError} (h : (refuse e : Operation β).Gives t r t') :
    r = .error (.refused e) ∧ t' = t := by
  obtain ⟨p, p', h⟩ := h
  cases h
  exact ⟨rfl, rfl⟩

theorem refused_of_refuse {e : StoreError} (h : (refuse e : Operation β).Gives t r t') :
    Refused t r t' :=
  ⟨⟨_, (gives_refuse h).1⟩, (gives_refuse h).2⟩

theorem refused_of_throw {e : Refusal} (h : (throw e : Operation β).Gives t r t') :
    Refused t r t' := by
  obtain ⟨p, p', h⟩ := h
  cases h
  exact ⟨⟨_, rfl⟩, rfl⟩

theorem gives_map {x : Operation α} {f : α → β} (h : (f <$> x).Gives t r t') :
    ∃ r₁, x.Gives t r₁ t' ∧ r = r₁.map f := by
  obtain ⟨p, p', h⟩ := h
  rw [map_eq_pure_bind, run_bind] at h
  rcases hx : x.run ⟨t, p⟩ with ⟨r₁, w⟩
  rw [hx] at h
  cases r₁ with
  | ok a =>
      cases h
      exact ⟨_, ⟨p, p', hx⟩, rfl⟩
  | error e =>
      cases h
      exact ⟨_, ⟨p, p', hx⟩, rfl⟩

/-- Counting a call does not touch the tables. -/
theorem gives_trip_bind {point : FaultPoint} {f : Unit → Operation β}
    (h : (trip point >>= f).Gives t r t') :
    (r = .error (.refused (injected point)) ∧ t' = t) ∨ (f ()).Gives t r t' := by
  obtain ⟨p, p', h⟩ := h
  rw [run_bind, run_trip] at h
  cases hfails : (p.trip point).1 with
  | true =>
      rw [hfails] at h
      cases h
      exact .inl ⟨rfl, rfl⟩
  | false =>
      rw [hfails] at h
      exact .inr ⟨_, _, h⟩

theorem refused_or_of_trip {point : FaultPoint} {f : Unit → Operation β}
    (h : (trip point >>= f).Gives t r t') : Refused t r t' ∨ (f ()).Gives t r t' := by
  rcases gives_trip_bind h with ⟨hr, ht⟩ | h
  · exact .inl ⟨⟨_, hr⟩, ht⟩
  · exact .inr h

/-- A check lets through what meets its condition. -/
theorem refused_or_of_check {c : Bool} {e : StoreError} {f : Unit → Operation β}
    (h : (check c e >>= f).Gives t r t') : Refused t r t' ∨ (c = true ∧ (f ()).Gives t r t') := by
  obtain ⟨p, p', h⟩ := h
  rw [run_bind] at h
  cases c with
  | true => exact .inr ⟨rfl, _, _, h⟩
  | false =>
      cases h
      exact .inl ⟨⟨_, rfl⟩, rfl⟩

theorem gives_tables_bind {f : Tables → Operation β} (h : (tables >>= f).Gives t r t') :
    (f t).Gives t r t' := by
  obtain ⟨p, p', h⟩ := h
  exact ⟨_, _, h⟩

theorem gives_read {f : Tables → β} (h : (tables >>= fun t => pure (f t)).Gives t r t') :
    r = .ok (f t) ∧ t' = t := by
  obtain ⟨p, p', h⟩ := h
  cases h
  exact ⟨rfl, rfl⟩

theorem gives_setTables_bind {t₁ : Tables} {f : Unit → Operation β}
    (h : (setTables t₁ >>= f).Gives t r t') : (f ()).Gives t₁ r t' := by
  obtain ⟨p, p', h⟩ := h
  exact ⟨_, _, h⟩

theorem gives_takeRace_bind {f : Bool → Operation β} (h : (takeRace >>= f).Gives t r t') :
    ∃ raced, (f raced).Gives t r t' := by
  obtain ⟨p, p', h⟩ := h
  exact ⟨_, _, _, h⟩

/-- Recording a touched balance does not touch the tables. -/
theorem gives_touch_bind {id : Int} {f : Unit → Operation β}
    (h : ((modify fun w : Working => { w with probes := w.probes.touch id }) >>= f).Gives t r t') :
    (f ()).Gives t r t' := by
  obtain ⟨p, p', h⟩ := h
  exact ⟨_, _, h⟩

end Operation

open Operation

/-! ## What a query can do to the tables -/

/-- All that the store checks of a new transaction. -/
structure Tables.Admits (t : Tables) (new : NewTransaction) : Prop where
  sender : t.accounts.contains new.sender = true
  receiver : t.accounts.contains new.receiver = true
  status : t.statuses.contains new.status = true
  type : t.types.contains new.type = true
  currency : t.currencies.contains new.currency = true
  reference : t.hasReference new.reference = false

/-- Everything that a query can do to the tables, whatever comes back.  A query that reads or is
refused does nothing, and an insertion that lost a race is refused and done. -/
inductive Change (now : Timestamp) : Query → Tables → Tables → Prop where
  | none : Change now q t t
  | balance {id : Int} {delta balance : Decimal} {old : Account}
      (hold : t.accounts.find? id = some old) (hsum : old.balance.add? delta = some balance) :
      Change now (.addBalance id delta) t
        { t with accounts := t.accounts.put id { old with balance, updatedAt := now } }
  | transaction (hnew : t.Admits new) :
      Change now (.createTransaction new) t (t.insertTransaction now new).2
  | status {id : Int} {code : String} {old : Transaction}
      (hcode : t.statuses.contains code = true) (hold : t.transactions.find? id = some old) :
      Change now (.setStatus id code) t
        { t with transactions := t.transactions.put id
                  { old with status := code, updatedAt := now } }
  | entry (haccount : t.accounts.contains new.account = true)
      (htransaction : t.transactions.contains new.transaction = true) :
      Change now (.createEntry new) t (t.insertEntry now new).2
  | newStatus (hnew : t.statuses.contains code = false) :
      Change now (.createStatus code description) t
        { t with statuses := t.statuses.put code ⟨code, description, true⟩ }
  | newType (hnew : t.types.contains code = false) :
      Change now (.createType code description) t
        { t with types := t.types.put code ⟨code, description, true⟩ }
  | newCurrency {new : NewCurrency} (hnew : t.currencies.contains new.code = false) :
      Change now (.createCurrency new) t
        { t with currencies := t.currencies.put new.code
                  ⟨new.code, new.name, new.symbol, true, new.exchangeRate, now⟩ }

/-! ## The queries that write -/

variable {t t' : Tables} {now : Timestamp}

/-- An addition is refused, or finds an open account whose balance becomes the sum. -/
theorem gives_addBalance {id : Int} {delta : Decimal} {r : Except Refusal Account}
    (h : (addBalance now id delta).Gives t r t') :
    Refused t r t' ∨
      ∃ old balance a, t.accounts.find? id = some old ∧ old.isActive = true ∧
        old.balance.add? delta = some balance ∧ a = { old with balance, updatedAt := now } ∧
        r = .ok a ∧ t' = { t with accounts := t.accounts.put id a } := by
  obtain href | h := refused_or_of_trip (gives_touch_bind h)
  · exact .inl href
  have h := gives_tables_bind h
  cases hold : t.accounts.find? id with
  | none =>
      simp only [hold] at h
      exact .inl (refused_of_refuse h)
  | some old =>
      simp only [hold] at h
      obtain href | ⟨hactive, h⟩ := refused_or_of_check h
      · exact .inl href
      cases hsum : old.balance.add? delta with
      | none =>
          simp only [hsum] at h
          exact .inl (refused_of_throw h)
      | some balance =>
          simp only [hsum] at h
          have h := gives_setTables_bind h
          obtain ⟨hr, ht⟩ := gives_pure h
          exact .inr ⟨old, balance, _, rfl, hactive, hsum, rfl, hr, ht⟩

/-- A new transaction is refused, or passes all checks and is written under the next number. -/
theorem gives_createTransaction {new : NewTransaction} {r : Except Refusal Transaction}
    (h : (createTransaction now new).Gives t r t') :
    Refused t r t' ∨
      (r = .ok (t.insertTransaction now new).1 ∧ t' = (t.insertTransaction now new).2 ∧
        t.Admits new) := by
  obtain href | h := refused_or_of_trip h
  · exact .inl href
  have h := gives_tables_bind h
  obtain href | ⟨hsender, h⟩ := refused_or_of_check h
  · exact .inl href
  obtain href | ⟨hreceiver, h⟩ := refused_or_of_check h
  · exact .inl href
  obtain href | ⟨hstatus, h⟩ := refused_or_of_check h
  · exact .inl href
  obtain href | ⟨htype, h⟩ := refused_or_of_check h
  · exact .inl href
  obtain href | ⟨hcurrency, h⟩ := refused_or_of_check h
  · exact .inl href
  obtain href | ⟨hreference, h⟩ := refused_or_of_check h
  · exact .inl href
  have h := gives_setTables_bind h
  obtain ⟨hr, ht⟩ := gives_pure h
  have hunused : t.hasReference new.reference = false := by simpa using hreference
  exact .inr ⟨hr, ht, hsender, hreceiver, hstatus, htype, hcurrency, hunused⟩

/-- A change of status is refused, or gives a transaction that exists a status that exists. -/
theorem gives_setStatus {id : Int} {code : String} {r : Except Refusal Transaction}
    (h : (setStatus now id code).Gives t r t') :
    Refused t r t' ∨
      ∃ old row, t.statuses.contains code = true ∧ t.transactions.find? id = some old ∧
        row = { old with status := code, updatedAt := now } ∧ r = .ok row ∧
        t' = { t with transactions := t.transactions.put id row } := by
  obtain href | h := refused_or_of_trip h
  · exact .inl href
  have h := gives_tables_bind h
  obtain href | ⟨hcode, h⟩ := refused_or_of_check h
  · exact .inl href
  cases hold : t.transactions.find? id with
  | none =>
      simp only [hold] at h
      exact .inl (refused_of_refuse h)
  | some old =>
      simp only [hold] at h
      have h := gives_setTables_bind h
      obtain ⟨hr, ht⟩ := gives_pure h
      exact .inr ⟨old, _, hcode, rfl, rfl, hr, ht⟩

/-- A new entry is refused, or written at the end under the next number. -/
theorem gives_createEntry {new : NewEntry} {r : Except Refusal Entry}
    (h : (createEntry now new).Gives t r t') :
    Refused t r t' ∨
      (r = .ok (t.insertEntry now new).1 ∧ t' = (t.insertEntry now new).2 ∧
        t.accounts.contains new.account = true ∧
        t.transactions.contains new.transaction = true) := by
  obtain href | h := refused_or_of_trip h
  · exact .inl href
  have h := gives_tables_bind h
  obtain href | ⟨haccount, h⟩ := refused_or_of_check h
  · exact .inl href
  obtain href | ⟨htransaction, h⟩ := refused_or_of_check h
  · exact .inl href
  have h := gives_setTables_bind h
  obtain ⟨hr, ht⟩ := gives_pure h
  exact .inr ⟨hr, ht, haccount, htransaction⟩

/-! ## Inserting a reference row -/

/-- An insertion is refused and changes nothing, or puts the row where there was none.  In the
second case it may be refused as a duplicate, when it lost a race. -/
theorem gives_createReference {ρ : Type} {table : Tables → Table String ρ}
    {update : Tables → Table String ρ → Tables} {label code : String} {row : ρ}
    {r : Except Refusal ρ}
    (h : (createReference table update label code row).Gives t r t') :
    (t' = t ∧ ∃ e, r = .error (.refused e) ∧
        (e.isUniqueViolation = true → (table t).contains code = true)) ∨
      ((table t).contains code = false ∧ t' = update t ((table t).put code row) ∧
        (r = .ok row ∨ ∃ e, r = .error (.refused e) ∧ e.isUniqueViolation = true)) := by
  obtain ⟨hr, ht⟩ | h := gives_trip_bind h
  · exact .inl ⟨ht, _, hr, nofun⟩
  obtain ⟨raced, h⟩ := gives_takeRace_bind h
  have h := gives_tables_bind h
  cases hfound : (table t).contains code with
  | true =>
      simp only [hfound, if_true] at h
      obtain ⟨hr, ht⟩ := gives_refuse h
      exact .inl ⟨ht, _, hr, fun _ => rfl⟩
  | false =>
      simp only [hfound, Bool.false_eq_true, if_false] at h
      have h := gives_setTables_bind h
      refine .inr ⟨rfl, ?_⟩
      cases raced with
      | true =>
          obtain ⟨hr, ht⟩ := gives_refuse h
          exact ⟨ht, .inr ⟨_, hr, rfl⟩⟩
      | false =>
          obtain ⟨hr, ht⟩ := gives_pure h
          exact ⟨ht, .inl hr⟩

/-- An insertion adds no decimals. -/
theorem createReference_ne_overflow {ρ : Type} {table : Tables → Table String ρ}
    {update : Tables → Table String ρ → Tables} {label code : String} {row : ρ}
    (h : (createReference table update label code row).Gives t (.error .overflow) t') : False := by
  obtain ⟨-, e, h, -⟩ | ⟨-, -, h | ⟨e, h, -⟩⟩ := gives_createReference h
  · cases h
  · cases h
  · cases h

/-! ## All queries -/

/-- Nothing happens to the tables but what `Change` lists. -/
theorem change_of_gives {q : Query} {r : Except Refusal q.Answer}
    (h : (perform now q).Gives t r t') : Change now q t t' := by
  cases q with
  | account id =>
      have h := gives_read (f := fun t => t.accounts.find? id) h
      exact h.2 ▸ .none
  | addBalance id delta =>
      obtain ⟨-, ht⟩ | ⟨old, balance, a, hold, -, hsum, ha, -, ht⟩ := gives_addBalance h
      · exact ht ▸ .none
      · rw [ht, ha]
        exact .balance hold hsum
  | createTransaction new =>
      obtain ⟨-, ht⟩ | ⟨-, ht, hnew⟩ := gives_createTransaction h
      · exact ht ▸ .none
      · exact ht ▸ .transaction hnew
  | transaction id =>
      have h := gives_read (f := fun t => t.transactions.find? id) h
      exact h.2 ▸ .none
  | setStatus id code =>
      obtain ⟨-, ht⟩ | ⟨old, row, hcode, hold, hrow, -, ht⟩ := gives_setStatus h
      · exact ht ▸ .none
      · rw [ht, hrow]
        exact .status hcode hold
  | createEntry new =>
      obtain ⟨-, ht⟩ | ⟨-, ht, haccount, htransaction⟩ := gives_createEntry h
      · exact ht ▸ .none
      · exact ht ▸ .entry haccount htransaction
  | entries transaction =>
      have h := gives_read (f := fun t => t.entriesOf transaction) h
      exact h.2 ▸ .none
  | status code =>
      have h := gives_read (f := fun t => t.statuses.find? code) h
      exact h.2 ▸ .none
  | createStatus code description =>
      simp only [perform] at h
      obtain ⟨ht, -⟩ | ⟨hnew, ht, -⟩ := gives_createReference h
      · exact ht ▸ .none
      · exact ht ▸ .newStatus hnew
  | type code =>
      have h := gives_read (f := fun t => t.types.find? code) h
      exact h.2 ▸ .none
  | createType code description =>
      simp only [perform] at h
      obtain ⟨ht, -⟩ | ⟨hnew, ht, -⟩ := gives_createReference h
      · exact ht ▸ .none
      · exact ht ▸ .newType hnew
  | currency code =>
      have h := gives_read (f := fun t => t.currencies.find? code) h
      exact h.2 ▸ .none
  | createCurrency new =>
      simp only [perform] at h
      obtain ⟨ht, -⟩ | ⟨hnew, ht, -⟩ := gives_createReference h
      · exact ht ▸ .none
      · exact ht ▸ .newCurrency hnew

/-- An overflow comes from an addition only, and leaves the tables as they were. -/
theorem overflow_keeps {q : Query} (h : (perform now q).Gives t (.error .overflow) t') :
    t' = t := by
  cases change_of_gives h with
  | none => rfl
  | balance =>
      obtain ⟨-, ht⟩ | ⟨old, balance, a, -, -, -, -, hr, -⟩ := gives_addBalance h
      · exact ht
      · cases hr
  | transaction =>
      obtain ⟨-, ht⟩ | ⟨hr, -⟩ := gives_createTransaction h
      · exact ht
      · cases hr
  | status =>
      obtain ⟨-, ht⟩ | ⟨old, row, -, -, -, hr, -⟩ := gives_setStatus h
      · exact ht
      · cases hr
  | entry =>
      obtain ⟨-, ht⟩ | ⟨hr, -⟩ := gives_createEntry h
      · exact ht
      · cases hr
  | newStatus =>
      simp only [perform] at h
      exact (createReference_ne_overflow h).elim
  | newType =>
      simp only [perform] at h
      exact (createReference_ne_overflow h).elim
  | newCurrency =>
      simp only [perform] at h
      exact (createReference_ne_overflow h).elim

/-! ## The store as work sees it -/

/-- The answers of the store in memory, whatever faults and races are pending. -/
def Answers (now : Timestamp) : Answering Tables := fun t q r t' =>
  (perform now q).Gives t (r.mapError Refusal.refused) t'

end FundsTransfer.Memory
