import FundsTransfer.Proofs.Memory.Calm
import FundsTransfer.Proofs.Memory.Probing

/-!
# What a query meets

The probes of a store decide two things about a query: whether a fault fires at it, and
whether it loses a race.  This is its *mishap*, and it is read off the probes alone.  So is
what becomes of the probes, `Probes.spend`: a query is counted, takes a race with it and is
logged no matter what the tables hold and what is answered (`probes_perform`).

The other way round, the probes have no other say in an answer.  Under two probes with the
same mishap a query is answered alike and leaves the same tables (`perform_congr`), and
so are any number of queries in a row (`performAll_congr`).

Only `Unprobed` operations stand behind the primitives that look at the probes, so this is
shown once for what is counted and once for an insertion of a reference row.
-/

namespace FundsTransfer.Memory

/-! ## Mishaps -/

/-- The fault point at which a query is counted.  Reads are not counted. -/
def faultPoint? : Query → Option FaultPoint
  | .addBalance .. => some .addBalance
  | .createTransaction _ => some .createTransaction
  | .setStatus .. => some .updateStatus
  | .createEntry _ => some .createEntry
  | .createStatus .. => some .createReference
  | .createType .. => some .createReference
  | .createCurrency _ => some .createReference
  | .account _ => none
  | .transaction _ => none
  | .entries _ => none
  | .status _ => none
  | .type _ => none
  | .currency _ => none

/-- What can happen to a query whatever the tables hold. -/
inductive Mishap where
  /-- Nothing happens to it. -/
  | none
  /-- A fault fires. -/
  | fault (point : FaultPoint)
  /-- It is an insertion that loses a race. -/
  | race
deriving DecidableEq

namespace Probes

/-- What happens to a query.  An insertion at which a fault fires does not come to the race. -/
def mishap (p : Probes) (q : Query) : Mishap :=
  match faultPoint? q with
  | none => .none
  | some point =>
    if (p.trip point).1 then .fault point
    else if point = .createReference ∧ p.races ≠ 0 then .race
    else .none

/-- The probes with the balance logged that a query touches. -/
def log (p : Probes) (q : Query) : Probes :=
  match balanceOf q with
  | some id => p.touch id
  | none => p

/-- The probes after a query: it is logged and counted, and takes a race if it loses one. -/
def spend (p : Probes) (q : Query) : Probes :=
  match faultPoint? q with
  | none => p.log q
  | some point =>
    let counted := ((p.log q).trip point).2
    if p.mishap q = .race then counted.takeRace.2 else counted

/-- What happens to queries one after the other. -/
def mishaps (p : Probes) : List (Timestamp × Query) → List Mishap
  | [] => []
  | (_, q) :: later => p.mishap q :: (p.spend q).mishaps later

variable (p : Probes) (q : Query) (point : FaultPoint)

theorem races_trip : (p.trip point).2.races = p.races := by
  rw [trip]
  split <;> rfl

/-- The log has no bearing on faults. -/
theorem fails_log : ((p.log q).trip point).1 = (p.trip point).1 := by
  have hsame : (p.log q).countdown point = p.countdown point := by
    unfold log
    split <;> rfl
  unfold trip
  rw [hsame]
  split <;> rfl

theorem log_of_none {q : Query} (h : balanceOf q = none) : p.log q = p := by
  unfold log
  rw [h]

variable {p q}

theorem mishap_of_fails (hpoint : faultPoint? q = some point) (h : (p.trip point).1 = true) :
    p.mishap q = .fault point := by
  unfold mishap
  rw [hpoint]
  exact if_pos h

theorem mishap_of_passes (hpoint : faultPoint? q = some point) (h : (p.trip point).1 = false) :
    p.mishap q = if point = .createReference ∧ p.races ≠ 0 then .race else .none := by
  unfold mishap
  rw [hpoint]
  exact if_neg (by simp [h])

end Probes

namespace Operation

/-- An operation that has nothing to do with the probes. -/
inductive Unprobed : {α : Type} → Operation α → Prop where
  | pure {α : Type} (a : α) : Unprobed (pure a)
  | throw {α : Type} (e : Refusal) : Unprobed (throw e : Operation α)
  | tables : Unprobed tables
  | setTables (t : Tables) : Unprobed (setTables t)
  | bind {α β : Type} {x : Operation α} {f : α → Operation β} (hx : Unprobed x)
      (hf : ∀ a, Unprobed (f a)) : Unprobed (x >>= f)

variable {α β : Type}

theorem Unprobed.check (c : Bool) (e : StoreError) : Unprobed (check c e) := by
  cases c with
  | true => exact .pure ()
  | false => exact .throw _

/-- Such an operation leaves the probes as they are, and they make no difference to it. -/
theorem Unprobed.run {x : Operation α} (hx : x.Unprobed) (t : Tables) (p : Probes) :
    x.run ⟨t, p⟩ = ((x.outcome t).1, ⟨(x.outcome t).2, p⟩) := by
  induction hx generalizing t p with
  | pure => rfl
  | throw => rfl
  | tables => rfl
  | setTables => rfl
  | @bind _ _ x f _ _ ihx ihf =>
      have hout : (x >>= f).outcome t =
          (((x >>= f).run ⟨t, .quiet⟩).1, ((x >>= f).run ⟨t, .quiet⟩).2.tables) := rfl
      rw [hout, run_bind, run_bind, ihx t p, ihx t .quiet]
      rcases x.outcome t with ⟨e | a, t₁⟩
      · rfl
      · simp only [ihf a t₁ p, ihf a t₁ .quiet]

theorem run_trip_bind_eq (point : FaultPoint) (x : Operation β) (t : Tables) (p : Probes) :
    (trip point >>= fun _ => x).run ⟨t, p⟩ =
      if (p.trip point).1 then (.error (.refused (injected point)), ⟨t, (p.trip point).2⟩)
      else x.run ⟨t, (p.trip point).2⟩ := by
  rw [run_bind, run_trip]
  cases (p.trip point).1 with
  | true => rfl
  | false => rfl

end Operation

open Operation

/-! ## One query -/

variable {now : Timestamp} {q : Query}

/-- A query that inserts no reference row is logged and counted, and then has nothing to do with the
probes. -/
theorem perform_counted (now : Timestamp) {point : FaultPoint} (hq : SparesReferences q)
    (hpoint : faultPoint? q = some point) :
    ∃ x : Operation q.Answer, x.Unprobed ∧
      ∀ t p, (perform now q).run ⟨t, p⟩ = (trip point >>= fun _ => x).run ⟨t, p.log q⟩ := by
  cases q with
  | addBalance id delta =>
      cases hpoint
      refine ⟨_, ?_, fun t p => rfl⟩
      refine Unprobed.tables.bind fun t => ?_
      split
      · refine (Unprobed.check _ _).bind fun _ => ?_
        split
        · exact (Unprobed.setTables _).bind fun _ => .pure _
        · exact .throw _
      · exact .throw _
  | createTransaction new =>
      cases hpoint
      refine ⟨_, ?_, fun t p => rfl⟩
      refine Unprobed.tables.bind fun t => ?_
      refine (Unprobed.check _ _).bind fun _ => (Unprobed.check _ _).bind fun _ => ?_
      refine (Unprobed.check _ _).bind fun _ => (Unprobed.check _ _).bind fun _ => ?_
      refine (Unprobed.check _ _).bind fun _ => (Unprobed.check _ _).bind fun _ => ?_
      exact (Unprobed.setTables _).bind fun _ => .pure _
  | setStatus id code =>
      cases hpoint
      refine ⟨_, ?_, fun t p => rfl⟩
      refine Unprobed.tables.bind fun t => (Unprobed.check _ _).bind fun _ => ?_
      split
      · exact (Unprobed.setTables _).bind fun _ => .pure _
      · exact .throw _
  | createEntry new =>
      cases hpoint
      refine ⟨_, ?_, fun t p => rfl⟩
      refine Unprobed.tables.bind fun t => ?_
      refine (Unprobed.check _ _).bind fun _ => (Unprobed.check _ _).bind fun _ => ?_
      exact (Unprobed.setTables _).bind fun _ => .pure _
  | createStatus code description => exact hq.elim
  | createType code description => exact hq.elim
  | createCurrency new => exact hq.elim
  | account id => cases hpoint
  | transaction id => cases hpoint
  | entries transaction => cases hpoint
  | status code => cases hpoint
  | type code => cases hpoint
  | currency code => cases hpoint

/-- A read is neither logged nor counted. -/
theorem perform_uncounted (now : Timestamp) (hpoint : faultPoint? q = none) :
    balanceOf q = none ∧ (perform now q).Unprobed := by
  cases q with
  | account id => exact ⟨rfl, Unprobed.tables.bind fun t => .pure _⟩
  | transaction id => exact ⟨rfl, Unprobed.tables.bind fun t => .pure _⟩
  | entries transaction => exact ⟨rfl, Unprobed.tables.bind fun t => .pure _⟩
  | status code => exact ⟨rfl, Unprobed.tables.bind fun t => .pure _⟩
  | type code => exact ⟨rfl, Unprobed.tables.bind fun t => .pure _⟩
  | currency code => exact ⟨rfl, Unprobed.tables.bind fun t => .pure _⟩
  | addBalance id delta => cases hpoint
  | createTransaction new => cases hpoint
  | setStatus id code => cases hpoint
  | createEntry new => cases hpoint
  | createStatus code description => cases hpoint
  | createType code description => cases hpoint
  | createCurrency new => cases hpoint

/-- An insertion of a reference row by what happens to it. -/
theorem run_createReference_eq {ρ : Type} (table : Tables → Table String ρ)
    (update : Tables → Table String ρ → Tables) (label code : String) (row : ρ)
    (hpoint : faultPoint? q = some .createReference) (hlog : balanceOf q = none) (t : Tables)
    (p : Probes) :
    (createReference table update label code row).run ⟨t, p⟩ =
      match p.mishap q with
      | .fault point => (.error (.refused (injected point)), ⟨t, p.spend q⟩)
      | .race =>
        (.error (.refused (.uniqueViolation (label ++ " " ++ code))),
          ⟨if (table t).contains code then t else update t ((table t).put code row), p.spend q⟩)
      | .none =>
        if (table t).contains code then
          (.error (.refused (.uniqueViolation (label ++ " " ++ code))), ⟨t, p.spend q⟩)
        else (.ok row, ⟨update t ((table t).put code row), p.spend q⟩) := by
  have hspend : p.spend q = if p.mishap q = .race then (p.trip .createReference).2.takeRace.2
      else (p.trip .createReference).2 := by
    unfold Probes.spend
    rw [hpoint, p.log_of_none hlog]
  rw [hspend]
  unfold createReference
  rw [run_trip_bind_eq]
  cases hfails : (p.trip .createReference).1 with
  | true =>
      rw [Probes.mishap_of_fails _ hpoint hfails]
      rfl
  | false =>
      rw [Probes.mishap_of_passes _ hpoint hfails, ← p.races_trip .createReference]
      generalize (p.trip .createReference).2 = counted
      obtain ⟨countdown, races, touched⟩ := counted
      simp only [Bool.false_eq_true, if_false, run_takeRace_bind, run_tables_bind, true_and]
      cases races with
      | zero =>
          cases (table t).contains code with
          | true => rfl
          | false => rfl
      | succ n =>
          cases (table t).contains code with
          | true => rfl
          | false => rfl

/-- What comes of the operation of a query, and the tables after it, by what happens to the
query. -/
def Operation.reply {α : Type} (x : Operation α) (t : Tables) : Mishap → Except Refusal α × Tables
  | .none => x.outcome t
  | .fault point => (.error (.refused (injected point)), t)
  | .race =>
    ((x.run ⟨t, Probes.quiet.addRace⟩).1, (x.run ⟨t, Probes.quiet.addRace⟩).2.tables)

/-- What is counted as an insertion of a reference row is one, and touches no balance. -/
theorem perform_insertion (now : Timestamp) (hpoint : faultPoint? q = some .createReference) :
    balanceOf q = none ∧ ∃ (table : Tables → Table String q.Answer)
      (update : Tables → Table String q.Answer → Tables) (label code : String) (row : q.Answer),
      perform now q = createReference table update label code row := by
  cases q with
  | createStatus code description => exact ⟨rfl, _, _, _, _, _, by rw [perform]⟩
  | createType code description => exact ⟨rfl, _, _, _, _, _, by rw [perform]⟩
  | createCurrency new => exact ⟨rfl, _, _, _, _, _, by rw [perform]⟩
  | _ => cases hpoint

theorem sparesReferences_of_point {point : FaultPoint} (hpoint : faultPoint? q = some point)
    (hne : point ≠ .createReference) : SparesReferences q := by
  cases q with
  | createStatus code description => exact absurd (Option.some.inj hpoint).symm hne
  | createType code description => exact absurd (Option.some.inj hpoint).symm hne
  | createCurrency new => exact absurd (Option.some.inj hpoint).symm hne
  | _ => trivial

theorem run_of_createReference {ρ : Type} {table : Tables → Table String ρ}
    {update : Tables → Table String ρ → Tables} {label code : String} {row : ρ} {x : Operation ρ}
    (hx : x = createReference table update label code row)
    (hpoint : faultPoint? q = some .createReference) (hlog : balanceOf q = none) (t : Tables)
    (p : Probes) :
    x.run ⟨t, p⟩ = ((x.reply t (p.mishap q)).1, ⟨(x.reply t (p.mishap q)).2, p.spend q⟩) := by
  have hquiet : Probes.quiet.mishap q = .none := by
    rw [Probes.mishap_of_passes _ hpoint rfl]
    exact if_neg fun h => h.2 rfl
  have hraced : Probes.quiet.addRace.mishap q = .race := by
    rw [Probes.mishap_of_passes _ hpoint rfl]
    exact if_pos ⟨rfl, Nat.succ_ne_zero 0⟩
  have hrun := run_createReference_eq table update label code row hpoint hlog t
  rw [← hx] at hrun
  have hnone := hrun .quiet
  have hrace := hrun Probes.quiet.addRace
  rw [hquiet] at hnone
  rw [hraced] at hrace
  rw [hrun p]
  cases p.mishap q with
  | none =>
      show _ = ((x.run ⟨t, .quiet⟩).1, Working.mk (x.run ⟨t, .quiet⟩).2.tables (p.spend q))
      rw [hnone]
      cases (table t).contains code with
      | true => rfl
      | false => rfl
  | fault point => rfl
  | race =>
      show _ = ((x.run ⟨t, Probes.quiet.addRace⟩).1,
        Working.mk (x.run ⟨t, Probes.quiet.addRace⟩).2.tables (p.spend q))
      rw [hrace]

/-- A query is answered by the tables and by what happens to it, and the probes after it are those
before it with what it takes spent. -/
theorem perform_run (now : Timestamp) (q : Query) (t : Tables) (p : Probes) :
    (perform now q).run ⟨t, p⟩ =
      (((perform now q).reply t (p.mishap q)).1,
        ⟨((perform now q).reply t (p.mishap q)).2, p.spend q⟩) := by
  cases hpoint : faultPoint? q with
  | none =>
      obtain ⟨hlog, hx⟩ := perform_uncounted now hpoint
      have hmishap : p.mishap q = .none := by
        unfold Probes.mishap
        rw [hpoint]
      have hspend : p.spend q = p := by
        unfold Probes.spend
        rw [hpoint]
        exact p.log_of_none hlog
      rw [hx.run, hmishap, hspend]
      rfl
  | some point =>
      by_cases hreference : point = .createReference
      · subst hreference
        obtain ⟨hlog, _, _, _, _, _, hx⟩ := perform_insertion now hpoint
        exact run_of_createReference hx hpoint hlog t p
      · have hq := sparesReferences_of_point hpoint hreference
        obtain ⟨x, hx, hperform⟩ := perform_counted now hq hpoint
        have hreply : (perform now q).reply t .none = x.outcome t := by
          unfold reply outcome
          rw [hperform, run_trip_bind_eq, Probes.fails_log]
          simp only [hx.run]
          rfl
        have hspend : p.mishap q ≠ .race → p.spend q = ((p.log q).trip point).2 := by
          intro hne
          unfold Probes.spend
          rw [hpoint]
          exact if_neg hne
        rw [hperform, run_trip_bind_eq, p.fails_log]
        cases hfails : (p.trip point).1 with
        | true =>
            have hmishap := Probes.mishap_of_fails point hpoint hfails
            rw [hmishap, hspend (by simp [hmishap])]
            rfl
        | false =>
            have hmishap : p.mishap q = .none := by
              rw [Probes.mishap_of_passes point hpoint hfails]
              exact if_neg fun h => hreference h.1
            rw [hmishap, hspend (by simp [hmishap]), hx.run, hreply]
            rfl

/-- What becomes of the probes does not hang on the tables. -/
theorem probes_perform (now : Timestamp) (q : Query) (s : Working) :
    ((perform now q).run s).2.probes = s.probes.spend q := by
  rw [perform_run]

/-! ## Queries in a row -/

/-- The answers to queries one after the other, each at its own time, and what they leave.  A
refused query does not keep the next from being asked.  An overflow does. -/
def performAll : List (Timestamp × Query) → Working →
    List (Σ q : Query, Except Refusal q.Answer) × Working
  | [], s => ([], s)
  | (now, q) :: later, s =>
    match (perform now q).run s with
    | (.error .overflow, s') => ([⟨q, .error .overflow⟩], s')
    | (r, s') => (⟨q, r⟩ :: (performAll later s').1, (performAll later s').2)

/-- Two probes under which the same happens to all queries in a row have the same say in the
answers. -/
theorem performAll_congr (later : List (Timestamp × Query)) (t : Tables) {p p' : Probes}
    (h : p.mishaps later = p'.mishaps later) :
    (performAll later ⟨t, p⟩).1 = (performAll later ⟨t, p'⟩).1 ∧
      (performAll later ⟨t, p⟩).2.tables = (performAll later ⟨t, p'⟩).2.tables := by
  induction later generalizing t p p' with
  | nil => exact ⟨rfl, rfl⟩
  | cons first later ih =>
      obtain ⟨now, q⟩ := first
      obtain ⟨hmishap, hlater⟩ := List.cons.inj h
      rw [performAll, performAll, perform_run, perform_run now q t p', hmishap]
      rcases (perform now q).reply t (p'.mishap q) with ⟨(e | _) | a, t'⟩
      · obtain ⟨hanswers, htables⟩ := ih t' hlater
        exact ⟨congrArg (⟨q, .error (.refused e)⟩ :: ·) hanswers, htables⟩
      · exact ⟨rfl, rfl⟩
      · obtain ⟨hanswers, htables⟩ := ih t' hlater
        exact ⟨congrArg (⟨q, .ok a⟩ :: ·) hanswers, htables⟩

end FundsTransfer.Memory
