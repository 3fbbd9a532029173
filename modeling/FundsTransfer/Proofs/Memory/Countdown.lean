import FundsTransfer.Proofs.Memory.Mishap

/-!
# Countdowns

Each fault point counts its calls down.  A query lowers the countdown of the point at which it
is counted by one, whatever it is answered, and leaves all others alone
(`Probes.countdown_spend`).

A query is refused with the error of an injected fault if and only if it is counted and the
countdown stood at one (`refused_injected_iff`).  For this, no refusal of the store's own may
read like an injected one, so a query is made of `Sincere` primitives behind its count.
-/

namespace FundsTransfer.Memory

/-! ## Errors of injected faults -/

theorem FaultPoint.label_injective {p q : FaultPoint} (h : p.label = q.label) : p = q := by
  cases p <;> cases q <;> first | rfl | exact absurd h (by decide)

theorem injected_injective {p q : FaultPoint} (h : injected p = injected q) : p = q :=
  FaultPoint.label_injective (String.append_right_inj _ |>.1 (StoreError.backend.inj h))

theorem foreignKey_ne_injected (what : String) (point : FaultPoint) :
    foreignKey what ≠ injected point := by
  intro h
  have hfirst := congrArg (fun s : String => s.toList.head?) (StoreError.backend.inj h)
  simp at hfirst

theorem notFound_ne_injected (what : String) (point : FaultPoint) :
    StoreError.notFound what ≠ injected point :=
  nofun

theorem uniqueViolation_ne_injected (what : String) (point : FaultPoint) :
    StoreError.uniqueViolation what ≠ injected point :=
  nofun

/-! ## What is left of a countdown -/

namespace Probes

variable (p : Probes) (q : Query) (point other : FaultPoint)

theorem countdown_arm (occurrence : Nat) :
    (p.arm point occurrence).countdown other =
      if other = point then max occurrence 1 else p.countdown other :=
  rfl

/-- A call lowers the countdown of its own point. -/
theorem countdown_trip :
    (p.trip point).2.countdown other =
      if other = point then p.countdown other - 1 else p.countdown other := by
  by_cases hother : other = point
  · subst hother
    unfold trip
    split <;> simp_all [setCountdown]
  · unfold trip
    split <;> simp [setCountdown, hother]

theorem fails_iff : (p.trip point).1 = true ↔ p.countdown point = 1 := by
  unfold trip
  split <;> simp_all

theorem countdown_takeRace : p.takeRace.2.countdown = p.countdown := by
  unfold takeRace
  split <;> rfl

theorem countdown_log : (p.log q).countdown = p.countdown := by
  unfold log
  split <;> rfl

/-- A query lowers the countdown of the point at which it is counted. -/
theorem countdown_spend :
    (p.spend q).countdown point =
      if faultPoint? q = some point then p.countdown point - 1 else p.countdown point := by
  unfold spend
  cases hpoint : faultPoint? q with
  | none => simp [countdown_log]
  | some counted =>
      have hcounted : ((p.log q).trip counted).2.countdown point =
          if counted = point then p.countdown point - 1 else p.countdown point := by
        rw [countdown_trip, countdown_log]
        simp only [eq_comm]
      simp only [Option.some.injEq]
      split
      · rw [countdown_takeRace, hcounted]
      · exact hcounted

end Probes

/-! ## Who is told of an injected fault -/

namespace Operation

/-- An operation that refuses nothing with the error of an injected fault. -/
inductive Sincere : {α : Type} → Operation α → Prop where
  | pure {α : Type} (a : α) : Sincere (pure a)
  | refuse {α : Type} {e : StoreError} (h : ∀ point, e ≠ injected point) :
      Sincere (refuse e : Operation α)
  | overflow {α : Type} : Sincere (throw .overflow : Operation α)
  | tables : Sincere tables
  | setTables (t : Tables) : Sincere (setTables t)
  | takeRace : Sincere takeRace
  | bind {α β : Type} {x : Operation α} {f : α → Operation β} (hx : Sincere x)
      (hf : ∀ a, Sincere (f a)) : Sincere (x >>= f)

variable {α : Type}

theorem Sincere.check {e : StoreError} (h : ∀ point, e ≠ injected point) (c : Bool) :
    Sincere (check c e) := by
  cases c with
  | true => exact .pure ()
  | false => exact .refuse h

theorem Sincere.run {x : Operation α} (hx : x.Sincere) (w : Working) (point : FaultPoint) :
    (x.run w).1 ≠ .error (.refused (injected point)) := by
  induction hx generalizing w with
  | pure a => exact nofun
  | refuse h => exact fun heq => h point (Refusal.refused.inj (Except.error.inj heq))
  | overflow => exact nofun
  | tables => exact nofun
  | setTables t => exact nofun
  | takeRace => exact nofun
  | @bind _ _ x f _ _ ihx ihf =>
      have h := ihx w
      rw [run_bind]
      rcases hr : x.run w with ⟨r, w₁⟩
      rw [hr] at h
      cases r with
      | ok a => exact ihf a w₁
      | error e => exact fun heq => h (congrArg Except.error (Except.error.inj heq))

end Operation

open Operation

variable {now : Timestamp} {q : Query}

theorem sincere_of_uncounted (now : Timestamp) (hpoint : faultPoint? q = none) :
    (perform now q).Sincere := by
  cases q with
  | account id => exact Sincere.tables.bind fun t => .pure _
  | transaction id => exact Sincere.tables.bind fun t => .pure _
  | entries transaction => exact Sincere.tables.bind fun t => .pure _
  | status code => exact Sincere.tables.bind fun t => .pure _
  | type code => exact Sincere.tables.bind fun t => .pure _
  | currency code => exact Sincere.tables.bind fun t => .pure _
  | addBalance id delta => cases hpoint
  | createTransaction new => cases hpoint
  | setStatus id code => cases hpoint
  | createEntry new => cases hpoint
  | createStatus code description => cases hpoint
  | createType code description => cases hpoint
  | createCurrency new => cases hpoint

theorem createReference_eq_trip {ρ : Type} (table : Tables → Table String ρ)
    (update : Tables → Table String ρ → Tables) (label code : String) (row : ρ) :
    ∃ x : Operation ρ, x.Sincere ∧
      createReference table update label code row = (trip .createReference >>= fun _ => x) := by
  refine ⟨_, ?_, rfl⟩
  refine Sincere.takeRace.bind fun raced => Sincere.tables.bind fun t => ?_
  split
  · exact .refuse (uniqueViolation_ne_injected _)
  · refine (Sincere.setTables _).bind fun _ => ?_
    split
    · exact .refuse (uniqueViolation_ne_injected _)
    · exact .pure row

/-- Behind its count a query is sincere. -/
theorem exists_sincere (now : Timestamp) {point : FaultPoint}
    (hpoint : faultPoint? q = some point) :
    ∃ x : Operation q.Answer, x.Sincere ∧
      ∀ t p, (perform now q).run ⟨t, p⟩ = (trip point >>= fun _ => x).run ⟨t, p.log q⟩ := by
  by_cases hreference : point = .createReference
  · subst hreference
    obtain ⟨hlog, table, update, label, code, row, hq⟩ := perform_insertion now hpoint
    obtain ⟨x, hx, heq⟩ := createReference_eq_trip table update label code row
    exact ⟨x, hx, fun t p => by rw [hq, heq, p.log_of_none hlog]⟩
  · cases q with
    | addBalance id delta =>
        cases hpoint
        refine ⟨_, ?_, fun t p => rfl⟩
        refine Sincere.tables.bind fun t => ?_
        split
        · refine (Sincere.check (notFound_ne_injected _) _).bind fun _ => ?_
          split
          · exact (Sincere.setTables _).bind fun _ => .pure _
          · exact .overflow
        · exact .refuse (notFound_ne_injected _)
    | createTransaction new =>
        cases hpoint
        refine ⟨_, ?_, fun t p => rfl⟩
        refine Sincere.tables.bind fun t => ?_
        refine (Sincere.check (notFound_ne_injected _) _).bind fun _ => ?_
        refine (Sincere.check (notFound_ne_injected _) _).bind fun _ => ?_
        refine (Sincere.check (foreignKey_ne_injected _) _).bind fun _ => ?_
        refine (Sincere.check (foreignKey_ne_injected _) _).bind fun _ => ?_
        refine (Sincere.check (foreignKey_ne_injected _) _).bind fun _ => ?_
        refine (Sincere.check (uniqueViolation_ne_injected _) _).bind fun _ => ?_
        exact (Sincere.setTables _).bind fun _ => .pure _
    | setStatus id code =>
        cases hpoint
        refine ⟨_, ?_, fun t p => rfl⟩
        refine Sincere.tables.bind fun t => ?_
        refine (Sincere.check (foreignKey_ne_injected _) _).bind fun _ => ?_
        split
        · exact (Sincere.setTables _).bind fun _ => .pure _
        · exact .refuse (notFound_ne_injected _)
    | createEntry new =>
        cases hpoint
        refine ⟨_, ?_, fun t p => rfl⟩
        refine Sincere.tables.bind fun t => ?_
        refine (Sincere.check (notFound_ne_injected _) _).bind fun _ => ?_
        refine (Sincere.check (foreignKey_ne_injected _) _).bind fun _ => ?_
        exact (Sincere.setTables _).bind fun _ => .pure _
    | createStatus code description => exact absurd (Option.some.inj hpoint).symm hreference
    | createType code description => exact absurd (Option.some.inj hpoint).symm hreference
    | createCurrency new => exact absurd (Option.some.inj hpoint).symm hreference
    | account id => cases hpoint
    | transaction id => cases hpoint
    | entries transaction => cases hpoint
    | status code => cases hpoint
    | type code => cases hpoint
    | currency code => cases hpoint

/-- A query is refused with the error of an injected fault just when it is counted at the point of
the fault and the countdown stands at one. -/
theorem refused_injected_iff (now : Timestamp) (q : Query) (s : Working) (point : FaultPoint) :
    ((perform now q).run s).1 = .error (.refused (injected point)) ↔
      faultPoint? q = some point ∧ s.probes.countdown point = 1 := by
  cases hpoint : faultPoint? q with
  | none =>
      exact iff_of_false ((sincere_of_uncounted now hpoint).run s point) fun h => nomatch h.1
  | some counted =>
      obtain ⟨x, hx, hrun⟩ := exists_sincere now hpoint
      obtain ⟨t, p⟩ := s
      rw [hrun, run_trip_bind_eq, p.fails_log]
      by_cases hfails : (p.trip counted).1 = true
      · rw [if_pos hfails]
        have hone := (p.fails_iff counted).1 hfails
        constructor
        · intro h
          obtain rfl := injected_injective (Refusal.refused.inj (Except.error.inj h))
          exact ⟨rfl, hone⟩
        · rintro ⟨hsame, -⟩
          cases hsame
          rfl
      · rw [if_neg hfails]
        refine iff_of_false (hx.run _ point) ?_
        rintro ⟨hsame, hone⟩
        cases hsame
        exact hfails ((p.fails_iff _).2 hone)

end FundsTransfer.Memory
