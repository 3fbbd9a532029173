import FundsTransfer.Proofs.Memory.Intact
import FundsTransfer.Proofs.Memory.Mishap

/-!
# Refused queries

Work goes on behind a query that was refused: the resolver reads again what it could not
insert.  So a refusal must leave nothing half done.  It leaves the tables as they were, with
all their rows and counters, whatever the reason: a fault, a row that is missing or closed, a
reference to a row that is not there, a duplicate.

There is one exception, and it is meant: an insertion of a reference row that loses a race
leaves the row of the winner, `LostRace`.  It does so only where there was no row with the code,
so a row that is there is never written over.

`refused_query_keeps_tables` also says what comes behind.  The refused query has spent what it met,
and has no other effect on what is asked later.
-/

namespace FundsTransfer.Memory

/-- What an insertion that loses a race comes to: the row of the winner is there with what the loser
would have written, and the loser is told of a duplicate. -/
inductive LostRace (now : Timestamp) (t : Tables) : Query → StoreError → Tables → Prop
  | status {code description : String} (hnew : t.statuses.contains code = false) :
      LostRace now t (.createStatus code description)
        (.uniqueViolation ("transaction status " ++ code))
        { t with statuses := t.statuses.put code ⟨code, description, true⟩ }
  | type {code description : String} (hnew : t.types.contains code = false) :
      LostRace now t (.createType code description)
        (.uniqueViolation ("transaction type " ++ code))
        { t with types := t.types.put code ⟨code, description, true⟩ }
  | currency {new : NewCurrency} (hnew : t.currencies.contains new.code = false) :
      LostRace now t (.createCurrency new) (.uniqueViolation ("currency " ++ new.code))
        { t with currencies := t.currencies.put new.code
                  ⟨new.code, new.name, new.symbol, true, new.exchangeRate, now⟩ }

variable {now : Timestamp} {t t' : Tables} {p : Probes} {q : Query} {s s' : Working}
  {e : StoreError}

/-- The row of the winner takes no row away and changes none. -/
theorem LostRace.grows (h : LostRace now t q e t') : t.Grows t' := by
  cases h with
  | status hnew => exact { Tables.Grows.refl t with statuses := Tables.persists_put_new hnew _ }
  | type hnew => exact { Tables.Grows.refl t with types := Tables.persists_put_new hnew _ }
  | currency hnew =>
      exact { Tables.Grows.refl t with currencies := Tables.persists_put_new hnew _ }

/-- A refused insertion lost a race to a new row, or changed nothing. -/
theorem refused_createReference {ρ : Type} {table : Tables → Table String ρ}
    {update : Tables → Table String ρ → Tables} {label code : String} {row : ρ}
    (hpoint : faultPoint? q = some .createReference) (hlog : balanceOf q = none)
    (h : (createReference table update label code row).run ⟨t, p⟩ = (.error (.refused e), s')) :
    s'.tables = t ∨ p.mishap q = .race ∧ (table t).contains code = false ∧
      e = .uniqueViolation (label ++ " " ++ code) ∧
      s'.tables = update t ((table t).put code row) := by
  rw [run_createReference_eq table update label code row hpoint hlog] at h
  cases hmishap : p.mishap q with
  | fault point =>
      rw [hmishap] at h
      cases h
      exact .inl rfl
  | none =>
      rw [hmishap] at h
      cases hfound : (table t).contains code with
      | true =>
          simp only [hfound, if_true] at h
          cases h
          exact .inl rfl
      | false =>
          simp only [hfound, Bool.false_eq_true, if_false] at h
          cases h
  | race =>
      rw [hmishap] at h
      cases hfound : (table t).contains code with
      | true =>
          simp only [hfound, if_true] at h
          cases h
          exact .inl rfl
      | false =>
          simp only [hfound, Bool.false_eq_true, if_false] at h
          cases h
          exact .inr ⟨rfl, rfl, rfl, rfl⟩

/-- A refused query leaves the tables as they were, unless it lost a race. -/
theorem tables_of_refused (h : (perform now q).run ⟨t, p⟩ = (.error (.refused e), s')) :
    s'.tables = t ∨ p.mishap q = .race ∧ LostRace now t q e s'.tables := by
  obtain ⟨t', p'⟩ := s'
  cases q with
  | account id => cases h
  | transaction id => cases h
  | entries transaction => cases h
  | status code => cases h
  | type code => cases h
  | currency code => cases h
  | addBalance id delta =>
      obtain ⟨-, ht⟩ | ⟨_, _, _, -, -, -, -, hr, -⟩ := gives_addBalance ⟨_, _, h⟩
      · exact .inl ht
      · cases hr
  | createTransaction new =>
      obtain ⟨-, ht⟩ | ⟨hr, -⟩ := gives_createTransaction ⟨_, _, h⟩
      · exact .inl ht
      · cases hr
  | setStatus id code =>
      obtain ⟨-, ht⟩ | ⟨_, _, -, -, -, hr, -⟩ := gives_setStatus ⟨_, _, h⟩
      · exact .inl ht
      · cases hr
  | createEntry new =>
      obtain ⟨-, ht⟩ | ⟨hr, -⟩ := gives_createEntry ⟨_, _, h⟩
      · exact .inl ht
      · cases hr
  | createStatus code description =>
      rw [perform] at h
      obtain ht | ⟨hmishap, hnew, rfl, rfl⟩ :=
        refused_createReference (q := .createStatus code description) rfl rfl h
      · exact .inl ht
      · exact .inr ⟨hmishap, .status hnew⟩
  | createType code description =>
      rw [perform] at h
      obtain ht | ⟨hmishap, hnew, rfl, rfl⟩ :=
        refused_createReference (q := .createType code description) rfl rfl h
      · exact .inl ht
      · exact .inr ⟨hmishap, .type hnew⟩
  | createCurrency new =>
      rw [perform] at h
      obtain ht | ⟨hmishap, hnew, rfl, rfl⟩ :=
        refused_createReference (q := .createCurrency new) rfl rfl h
      · exact .inl ht
      · exact .inr ⟨hmishap, .currency hnew⟩

/-- A query that is refused leaves the tables as they were, with their rows and counters, unless it
inserts a reference row under a new code and loses a race.  Then the row of the winner is there, and
nothing else is new.  In no case is a row written over.

The probes have spent what the query met, and it has no other effect: what is asked behind it is
answered as if it had not been asked at all, from these tables and under any probes by which the
same happens to the rest. -/
theorem refused_query_keeps_tables
    (h : (perform now q).run s = (.error (.refused e), s')) :
    (s'.tables = s.tables ∨ s.probes.mishap q = .race ∧ LostRace now s.tables q e s'.tables) ∧
    s.tables.Grows s'.tables ∧
    s'.probes = s.probes.spend q ∧
    ∀ later p, p.mishaps later = (s.probes.spend q).mishaps later →
      (performAll ((now, q) :: later) s).1 =
          ⟨q, .error (.refused e)⟩ :: (performAll later ⟨s'.tables, p⟩).1 ∧
        (performAll ((now, q) :: later) s).2.tables =
          (performAll later ⟨s'.tables, p⟩).2.tables := by
  have htables := tables_of_refused h
  have hprobes : s'.probes = s.probes.spend q := by
    rw [← probes_perform now q s, h]
  refine ⟨htables, ?_, hprobes, fun later p hlater => ?_⟩
  · obtain hsame | ⟨-, hlost⟩ := htables
    · rw [hsame]
      exact .refl s.tables
    · exact hlost.grows
  · rw [← hprobes] at hlater
    obtain ⟨hanswers, hleft⟩ := performAll_congr later s'.tables hlater.symm
    rw [performAll, h]
    exact ⟨congrArg (⟨q, .error (.refused e)⟩ :: ·) hanswers, hleft⟩

/-- A store without rows, in which the next insertion of a reference row loses a race. -/
def emptyRaced : Working := ⟨.empty, Probes.quiet.addRace⟩

/-- An insertion that loses a race leaves the row, and a read finds it.  An addition to an account
that is not there leaves nothing, and an insertion behind it loses the race. -/
theorem emptyRaced_refuses :
    (∃ e s', (perform .epoch (.createStatus "PENDING" "Transaction pending")).run emptyRaced =
        (.error (.refused e), s') ∧
      LostRace .epoch .empty (.createStatus "PENDING" "Transaction pending") e s'.tables ∧
      (performAll [(.epoch, .createStatus "PENDING" "Transaction pending"),
          (.epoch, .status "PENDING")] emptyRaced).1 =
        [⟨.createStatus "PENDING" "Transaction pending", .error (.refused e)⟩,
          ⟨.status "PENDING", .ok (some ⟨"PENDING", "Transaction pending", true⟩)⟩]) ∧
    ∃ e s', (perform .epoch (.addBalance 1 .zero)).run emptyRaced = (.error (.refused e), s') ∧
      s'.tables = .empty ∧ s'.probes.races = 1 := by
  have hinsert : (perform .epoch (.createStatus "PENDING" "Transaction pending")).run emptyRaced =
      (.error (.refused (.uniqueViolation "transaction status PENDING")), _) := rfl
  have hadd : (perform .epoch (.addBalance 1 .zero)).run emptyRaced =
      (.error (.refused (.notFound "active account 1")), _) := rfl
  obtain ⟨htables, -, -, hlater⟩ := refused_query_keeps_tables hinsert
  obtain ⟨hadded, -, hprobes, -⟩ := refused_query_keeps_tables hadd
  refine ⟨⟨_, _, hinsert, ?_, (hlater [(.epoch, .status "PENDING")] .quiet rfl).1⟩, _, _, hadd,
    ?_, by rw [hprobes]; rfl⟩
  · obtain hsame | ⟨-, hlost⟩ := htables
    · exact absurd (congrArg (fun t : Tables => t.statuses.contains "PENDING") hsame) (by decide)
    · exact hlost
  · obtain hsame | ⟨-, hlost⟩ := hadded
    · exact hsame
    · cases hlost

end FundsTransfer.Memory
