import FundsTransfer.Proofs.Memory.Answer

/-!
# Queries and the probes

Faults and races decide what a query answers, and a query leaves a trace in the log of
the balances touched.  Whatever is armed, the log grows by the account of an addition
and by nothing else (`touched_perform`).  And where nothing is armed, nothing gets
armed, and what comes back depends on the tables alone (`perform_disarmed`): the answer
of a query is then a function of the tables, `answer`.

Both are shown of the primitives and carried through sequences.  `Plain` lists the
primitives that do not touch a balance.
-/

namespace FundsTransfer.Memory

namespace Probes

theorem touched_trip (p : Probes) (point : FaultPoint) : (p.trip point).2.touched = p.touched := by
  rw [trip]
  split <;> rfl

theorem touched_takeRace (p : Probes) : p.takeRace.2.touched = p.touched := by
  rw [takeRace]
  split <;> rfl

/-- Nothing is armed, and some balances were touched. -/
def disarmed (touched : List Int) : Probes := ⟨fun _ => 0, 0, touched⟩

end Probes

namespace Operation

/-- An operation made of primitives other than a touch. -/
inductive Plain : {α : Type} → Operation α → Prop where
  | pure {α : Type} (a : α) : Plain (pure a)
  | throw {α : Type} (e : Refusal) : Plain (throw e : Operation α)
  | tables : Plain tables
  | setTables (t : Tables) : Plain (setTables t)
  | trip (point : FaultPoint) : Plain (trip point)
  | takeRace : Plain takeRace
  | bind {α β : Type} {x : Operation α} {f : α → Operation β} (hx : Plain x)
      (hf : ∀ a, Plain (f a)) : Plain (x >>= f)

/-- One that has nothing to do with races either. -/
inductive Raceless : {α : Type} → Operation α → Prop where
  | pure {α : Type} (a : α) : Raceless (pure a)
  | throw {α : Type} (e : Refusal) : Raceless (throw e : Operation α)
  | tables : Raceless tables
  | setTables (t : Tables) : Raceless (setTables t)
  | trip (point : FaultPoint) : Raceless (trip point)
  | bind {α β : Type} {x : Operation α} {f : α → Operation β} (hx : Raceless x)
      (hf : ∀ a, Raceless (f a)) : Raceless (x >>= f)

variable {α β : Type}

theorem Raceless.plain {x : Operation α} (hx : x.Raceless) : x.Plain := by
  induction hx with
  | pure a => exact .pure a
  | throw e => exact .throw e
  | tables => exact .tables
  | setTables t => exact .setTables t
  | trip point => exact .trip point
  | bind _ _ ihx ihf => exact ihx.bind ihf

theorem Raceless.check (c : Bool) (e : StoreError) : Raceless (check c e) := by
  cases c with
  | true => exact .pure ()
  | false => exact .throw _

/-! ## The log of touched balances -/

theorem Plain.touched {x : Operation α} (hx : x.Plain) (w : Working) :
    (x.run w).2.probes.touched = w.probes.touched := by
  induction hx generalizing w with
  | pure => rfl
  | throw => rfl
  | tables => rfl
  | setTables => rfl
  | trip point =>
      rw [run_trip]
      exact w.probes.touched_trip point
  | takeRace => exact w.probes.touched_takeRace
  | @bind _ _ x f _ _ ihx ihf =>
      have h := ihx w
      rw [run_bind]
      rcases hr : x.run w with ⟨r, w₁⟩
      rw [hr] at h
      cases r with
      | ok a => exact (ihf a w₁).trans h
      | error e => exact h

/-! ## Nothing armed -/

/-- The result of an operation and the tables after it, when nothing is armed. -/
def outcome (x : Operation α) (t : Tables) : Except Refusal α × Tables :=
  ((x.run ⟨t, .quiet⟩).1, (x.run ⟨t, .quiet⟩).2.tables)

/-- An operation whose result comes from the tables alone, when nothing is armed. -/
def Steady (x : Operation α) : Prop :=
  ∀ t l, ∃ l', x.run ⟨t, .disarmed l⟩ = ((x.outcome t).1, ⟨(x.outcome t).2, .disarmed l'⟩)

theorem Steady.bind {x : Operation α} {f : α → Operation β} (hx : x.Steady)
    (hf : ∀ a, (f a).Steady) : (x >>= f).Steady := by
  intro t l
  obtain ⟨l₁, hl₁⟩ := hx t l
  obtain ⟨l₀, hl₀⟩ := hx t []
  have hout : (x >>= f).outcome t =
      (((x >>= f).run ⟨t, .disarmed []⟩).1, ((x >>= f).run ⟨t, .disarmed []⟩).2.tables) := rfl
  rw [hout, run_bind, run_bind, hl₁, hl₀]
  rcases x.outcome t with ⟨r, t₁⟩
  cases r with
  | ok a =>
      obtain ⟨l₁', hl₁'⟩ := hf a t₁ l₁
      obtain ⟨l₀', hl₀'⟩ := hf a t₁ l₀
      exact ⟨l₁', by simp only [hl₁', hl₀']⟩
  | error e => exact ⟨l₁, rfl⟩

theorem Plain.steady {x : Operation α} (hx : x.Plain) : x.Steady := by
  induction hx with
  | pure => exact fun _ l => ⟨l, rfl⟩
  | throw => exact fun _ l => ⟨l, rfl⟩
  | tables => exact fun _ l => ⟨l, rfl⟩
  | setTables => exact fun _ l => ⟨l, rfl⟩
  | trip => exact fun _ l => ⟨l, rfl⟩
  | takeRace => exact fun _ l => ⟨l, rfl⟩
  | bind _ _ ihx ihf => exact ihx.bind ihf

/-- Recording a touched balance. -/
abbrev touch (id : Int) : Operation PUnit :=
  modify fun w : Working => { w with probes := w.probes.touch id }

theorem steady_touch (id : Int) : (touch id).Steady := fun _ l => ⟨l ++ [id], rfl⟩

end Operation

open Operation

/-! ## What the queries are made of -/

/-- The account whose balance a query touches, if it touches one. -/
def balanceOf : Query → Option Int
  | .addBalance id _ => some id
  | _ => none

theorem plain_createReference {ρ : Type} (table : Tables → Table String ρ)
    (update : Tables → Table String ρ → Tables) (label code : String) (row : ρ) :
    (createReference table update label code row).Plain := by
  refine (Plain.trip _).bind fun _ => Plain.takeRace.bind fun raced => Plain.tables.bind fun t => ?_
  split
  · exact .throw _
  · refine (Plain.setTables _).bind fun _ => ?_
    split
    · exact .throw _
    · exact .pure row

theorem raceless_createTransaction (now : Timestamp) (new : NewTransaction) :
    (createTransaction now new).Raceless := by
  refine (Raceless.trip _).bind fun _ => Raceless.tables.bind fun t => ?_
  refine (Raceless.check _ _).bind fun _ => (Raceless.check _ _).bind fun _ => ?_
  refine (Raceless.check _ _).bind fun _ => (Raceless.check _ _).bind fun _ => ?_
  refine (Raceless.check _ _).bind fun _ => (Raceless.check _ _).bind fun _ => ?_
  exact (Raceless.setTables _).bind fun _ => .pure _

theorem raceless_setStatus (now : Timestamp) (id : Int) (code : String) :
    (setStatus now id code).Raceless := by
  refine (Raceless.trip _).bind fun _ => Raceless.tables.bind fun t => ?_
  refine (Raceless.check _ _).bind fun _ => ?_
  split
  · exact (Raceless.setTables _).bind fun _ => .pure _
  · exact .throw _

theorem raceless_createEntry (now : Timestamp) (new : NewEntry) :
    (createEntry now new).Raceless := by
  refine (Raceless.trip _).bind fun _ => Raceless.tables.bind fun t => ?_
  refine (Raceless.check _ _).bind fun _ => (Raceless.check _ _).bind fun _ => ?_
  exact (Raceless.setTables _).bind fun _ => .pure _

/-- An addition is recorded first, also when it is refused. -/
theorem addBalance_eq_touch (now : Timestamp) (id : Int) (delta : Decimal) :
    ∃ x : Operation Account, x.Raceless ∧ addBalance now id delta = (touch id >>= fun _ => x) := by
  refine ⟨_, ?_, rfl⟩
  refine (Raceless.trip _).bind fun _ => Raceless.tables.bind fun t => ?_
  split
  · refine (Raceless.check _ _).bind fun _ => ?_
    split
    · exact (Raceless.setTables _).bind fun _ => .pure _
    · exact .throw _
  · exact .throw _

/-- The queries that write no reference row. -/
def SparesReferences : Query → Prop
  | .createStatus .. => False
  | .createType .. => False
  | .createCurrency _ => False
  | _ => True

/-- A query that writes no reference row has nothing to do with races.  It touches a balance first
if it is an addition. -/
theorem raceless_or_touch (now : Timestamp) {q : Query} (hq : SparesReferences q) :
    (balanceOf q = none ∧ (perform now q).Raceless) ∨
      ∃ id x, balanceOf q = some id ∧ x.Raceless ∧ perform now q = (touch id >>= fun _ => x) := by
  cases q with
  | account id => exact .inl ⟨rfl, Raceless.tables.bind fun t => .pure _⟩
  | addBalance id delta =>
      obtain ⟨x, hx, heq⟩ := addBalance_eq_touch now id delta
      exact .inr ⟨id, x, rfl, hx, heq⟩
  | createTransaction new => exact .inl ⟨rfl, raceless_createTransaction now new⟩
  | transaction id => exact .inl ⟨rfl, Raceless.tables.bind fun t => .pure _⟩
  | setStatus id code => exact .inl ⟨rfl, raceless_setStatus now id code⟩
  | createEntry new => exact .inl ⟨rfl, raceless_createEntry now new⟩
  | entries transaction => exact .inl ⟨rfl, Raceless.tables.bind fun t => .pure _⟩
  | status code => exact .inl ⟨rfl, Raceless.tables.bind fun t => .pure _⟩
  | type code => exact .inl ⟨rfl, Raceless.tables.bind fun t => .pure _⟩
  | currency code => exact .inl ⟨rfl, Raceless.tables.bind fun t => .pure _⟩
  | createStatus code description => exact hq.elim
  | createType code description => exact hq.elim
  | createCurrency new => exact hq.elim

/-- A query is made of plain primitives, behind a touch if it is an addition. -/
theorem plain_or_touch (now : Timestamp) (q : Query) :
    (balanceOf q = none ∧ (perform now q).Plain) ∨
      ∃ id x, balanceOf q = some id ∧ x.Plain ∧ perform now q = (touch id >>= fun _ => x) := by
  by_cases hq : SparesReferences q
  · obtain ⟨hnone, hx⟩ | ⟨id, x, hsome, hx, heq⟩ := raceless_or_touch now hq
    · exact .inl ⟨hnone, hx.plain⟩
    · exact .inr ⟨id, x, hsome, hx.plain, heq⟩
  · refine .inl ?_
    cases q with
    | createStatus code description =>
        rw [perform]
        exact ⟨rfl, plain_createReference ..⟩
    | createType code description =>
        rw [perform]
        exact ⟨rfl, plain_createReference ..⟩
    | createCurrency new =>
        rw [perform]
        exact ⟨rfl, plain_createReference ..⟩
    | _ => exact absurd trivial hq

/-- The log grows by what a query touches, whatever is armed. -/
theorem touched_perform (now : Timestamp) (q : Query) (w : Working) :
    ((perform now q).run w).2.probes.touched = w.probes.touched ++ (balanceOf q).toList := by
  obtain ⟨hnone, hplain⟩ | ⟨id, x, hsome, hplain, heq⟩ := plain_or_touch now q
  · rw [hnone, Option.toList_none, List.append_nil]
    exact hplain.touched w
  · rw [hsome, Option.toList_some, heq]
    exact hplain.touched { w with probes := w.probes.touch id }

theorem steady_perform (now : Timestamp) (q : Query) : (perform now q).Steady := by
  obtain ⟨-, hplain⟩ | ⟨id, x, -, hplain, heq⟩ := plain_or_touch now q
  · exact hplain.steady
  · rw [heq]
    exact (steady_touch id).bind fun _ => hplain.steady

/-- What a query answers when nothing is armed, and the tables after it. -/
def answer (now : Timestamp) (q : Query) (t : Tables) : Except Refusal q.Answer × Tables :=
  (perform now q).outcome t

/-- Where nothing is armed a query depends on the tables alone, and nothing gets armed. -/
theorem perform_disarmed (now : Timestamp) (q : Query) (t : Tables) (touched : List Int) :
    (perform now q).run ⟨t, .disarmed touched⟩ =
      ((answer now q t).1, ⟨(answer now q t).2, .disarmed (touched ++ (balanceOf q).toList)⟩) := by
  obtain ⟨l, hl⟩ := steady_perform now q t touched
  have htouched := touched_perform now q ⟨t, .disarmed touched⟩
  rw [hl] at htouched ⊢
  rw [show l = touched ++ (balanceOf q).toList from htouched]
  rfl

end FundsTransfer.Memory
