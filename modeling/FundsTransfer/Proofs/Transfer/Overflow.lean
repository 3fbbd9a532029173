import FundsTransfer.Proofs.Memory.Mishap
import FundsTransfer.Proofs.Transfer.Ensuring
import FundsTransfer.Proofs.Transfer.Verdict

/-!
# Where an overflow comes from

A computation that ends in an overflow has tried to make a sum that no decimal holds.  The
only query that makes one is an addition to a balance, and it does so when it has found the
account open (`sum_of_overflow`).  Faults and races do not come into this: what they do to a
query is told as an error.

So a transfer that ends in an overflow was not refused before, and it is told from the
tables alone that it could not succeed, `hindrance?_of_overflow`.  This is the converse of
`comes_runTransfer`, and it holds with any faults armed.
-/

namespace FundsTransfer

open Memory

/-! ## Queries -/

namespace Memory

namespace Operation

variable {α β : Type}

/-- An operation that makes no sum.  It may be refused, but it does not overflow. -/
def Sumless (x : Operation α) : Prop := ∀ s, (x.run s).1 ≠ .error .overflow

theorem Sumless.bind {x : Operation α} {f : α → Operation β} (hx : x.Sumless)
    (hf : ∀ a, (f a).Sumless) : (x >>= f).Sumless := by
  intro s
  have hfirst := hx s
  rw [run_bind]
  rcases hrun : x.run s with ⟨e | a, s₁⟩
  · rw [hrun] at hfirst
    exact fun h => hfirst (congrArg Except.error (Except.error.inj h))
  · exact hf a s₁

theorem sumless_pure (a : α) : (pure a : Operation α).Sumless := fun _ => nofun

theorem sumless_refuse (e : StoreError) : (refuse e : Operation α).Sumless := fun _ => nofun

theorem sumless_tables : tables.Sumless := fun _ => nofun

theorem sumless_setTables (t : Tables) : (setTables t).Sumless := fun _ => nofun

theorem sumless_takeRace : takeRace.Sumless := fun _ => nofun

theorem sumless_trip (point : FaultPoint) : (trip point).Sumless := by
  intro s
  rw [run_trip]
  cases (s.probes.trip point).1 with
  | true => exact nofun
  | false => exact nofun

theorem sumless_check (c : Bool) (e : StoreError) : (check c e).Sumless := by
  cases c with
  | true => exact sumless_pure ()
  | false => exact sumless_refuse e

end Operation

open Operation

theorem sumless_createReference {ρ : Type} (table : Tables → Table String ρ)
    (update : Tables → Table String ρ → Tables) (label code : String) (row : ρ) :
    (createReference table update label code row).Sumless := by
  refine (sumless_trip _).bind fun _ => sumless_takeRace.bind fun raced => ?_
  refine sumless_tables.bind fun t => ?_
  split
  · exact sumless_refuse _
  · refine (sumless_setTables _).bind fun _ => ?_
    split
    · exact sumless_refuse _
    · exact sumless_pure row

/-- Only additions make a sum. -/
theorem sumless_perform (now : Timestamp) {q : Query} (h : balanceOf q = none) :
    (perform now q).Sumless := by
  cases q with
  | addBalance id delta => cases h
  | createTransaction new =>
      refine (sumless_trip _).bind fun _ => sumless_tables.bind fun t => ?_
      refine (sumless_check _ _).bind fun _ => (sumless_check _ _).bind fun _ => ?_
      refine (sumless_check _ _).bind fun _ => (sumless_check _ _).bind fun _ => ?_
      refine (sumless_check _ _).bind fun _ => (sumless_check _ _).bind fun _ => ?_
      exact (sumless_setTables _).bind fun _ => sumless_pure _
  | setStatus id code =>
      refine (sumless_trip _).bind fun _ => sumless_tables.bind fun t => ?_
      refine (sumless_check _ _).bind fun _ => ?_
      split
      · exact (sumless_setTables _).bind fun _ => sumless_pure _
      · exact sumless_refuse _
  | createEntry new =>
      refine (sumless_trip _).bind fun _ => sumless_tables.bind fun t => ?_
      refine (sumless_check _ _).bind fun _ => (sumless_check _ _).bind fun _ => ?_
      exact (sumless_setTables _).bind fun _ => sumless_pure _
  | createStatus code description =>
      rw [perform]
      exact sumless_createReference _ _ _ _ _
  | createType code description =>
      rw [perform]
      exact sumless_createReference _ _ _ _ _
  | createCurrency new =>
      rw [perform]
      exact sumless_createReference _ _ _ _ _
  | account id => exact sumless_tables.bind fun t => sumless_pure _
  | transaction id => exact sumless_tables.bind fun t => sumless_pure _
  | entries transaction => exact sumless_tables.bind fun t => sumless_pure _
  | status code => exact sumless_tables.bind fun t => sumless_pure _
  | type code => exact sumless_tables.bind fun t => sumless_pure _
  | currency code => exact sumless_tables.bind fun t => sumless_pure _

/-- A query that overflows adds to the balance of an open account, and no decimal holds the sum. -/
theorem sum_of_overflow {now : Timestamp} {q : Query} {t : Tables} {p : Probes} {s : Working}
    (h : (perform now q).run ⟨t, p⟩ = (.error .overflow, s)) :
    ∃ id delta old, q = .addBalance id delta ∧ t.accounts.find? id = some old ∧
      old.isActive = true ∧ old.balance.add? delta = none := by
  cases q with
  | addBalance id delta =>
      have hrun : (perform now (.addBalance id delta)).run ⟨t, p⟩ = _ :=
        run_trip_bind_eq .addBalance _ t (p.touch id)
      rw [hrun] at h
      split at h
      · cases h
      rw [run_tables_bind] at h
      cases hold : t.accounts.find? id with
      | none =>
          simp only [hold] at h
          cases h
      | some old =>
          simp only [hold, run_check_bind] at h
          cases hactive : old.isActive with
          | false =>
              rw [hactive] at h
              cases h
          | true =>
              rw [hactive] at h
              cases hsum : old.balance.add? delta with
              | none => exact ⟨id, delta, old, rfl, hold, hactive, hsum⟩
              | some balance =>
                  rw [hsum] at h
                  cases h
  | _ => exact absurd (congrArg Prod.fst h) (sumless_perform now rfl ⟨t, p⟩)

end Memory

/-! ## Work -/

namespace Work

variable {α β : Type} {s s' : Working}

/-- Work that does not overflow, whatever faults and races are pending. -/
def Sumless (w : Work α) : Prop := ∀ s s', ¬ w.Yields s .overflow s'

theorem sumless_pure (a : α) : (pure a : Work α).Sumless := fun _ _ h => nomatch h.1

theorem sumless_fail (e : TransferError) : (fail e : Work α).Sumless := fun _ _ h => nomatch h.1

theorem sumless_emit (event : Log.Event) : (emit event).Sumless := fun _ _ h => nomatch h.1

theorem sumless_ask {q : Query} (hq : balanceOf q = none) : (ask q).Sumless := by
  intro s s' h
  obtain ⟨r, s₁, -, hr⟩ | ⟨hrun, -⟩ := yields_call.1 h
  · exact nomatch hr.1
  · exact sumless_perform .epoch hq s (congrArg Prod.fst hrun)

theorem sumless_require {q : Query} {f : StoreError → TransferError} (hq : balanceOf q = none) :
    (require q f).Sumless := by
  intro s s' h
  obtain ⟨r, s₁, -, hr⟩ | ⟨hrun, -⟩ := yields_call.1 h
  · cases r with
    | ok a => exact nomatch hr.1
    | error e => exact nomatch hr.1
  · exact sumless_perform .epoch hq s (congrArg Prod.fst hrun)

/-- A sequence overflows in its first part, or in its second from where the first succeeded. -/
theorem Yields.of_bind_overflow {w : Work α} {f : α → Work β}
    (h : (w >>= f).Yields s .overflow s') :
    w.Yields s .overflow s' ∨ ∃ a s₁, w.Yields s (.ok a) s₁ ∧ (f a).Yields s₁ .overflow s' := by
  induction w generalizing s with
  | done a => exact .inr ⟨a, s, ⟨rfl, rfl⟩, h⟩
  | fail e => exact nomatch h.1
  | overflow => exact .inl ⟨rfl, h.2⟩
  | log event rest ih => exact ih h
  | pause ms rest ih => exact h.elim
  | call q next ih =>
      obtain ⟨r, s₁, hrun, hnext⟩ | ⟨hrun, -⟩ := yields_call.1 h
      · obtain hfirst | ⟨a, s₂, hfirst, hrest⟩ := ih r hnext
        · exact .inl (yields_call.2 (.inl ⟨r, s₁, hrun, hfirst⟩))
        · exact .inr ⟨a, s₂, yields_call.2 (.inl ⟨r, s₁, hrun, hfirst⟩), hrest⟩
      · exact .inl (yields_call.2 (.inr ⟨hrun, rfl⟩))

/-- Behind work that makes no sum, a sequence overflows in its second part. -/
theorem Sumless.of_bind {w : Work α} {f : α → Work β} (hw : w.Sumless)
    (h : (w >>= f).Yields s .overflow s') :
    ∃ a s₁, w.Yields s (.ok a) s₁ ∧ (f a).Yields s₁ .overflow s' :=
  h.of_bind_overflow.resolve_left (hw s s')

/-- Before work that makes no sum, a sequence overflows in its first part. -/
theorem Yields.overflow_of_sumless {w : Work α} {f : α → Work β} (hf : ∀ a, (f a).Sumless)
    (h : (w >>= f).Yields s .overflow s') : w.Yields s .overflow s' :=
  h.of_bind_overflow.resolve_right fun ⟨a, s₁, _, hrest⟩ => hf a s₁ s' hrest

theorem Sumless.bind {w : Work α} {f : α → Work β} (hw : w.Sumless) (hf : ∀ a, (f a).Sumless) :
    (w >>= f).Sumless := by
  intro s s' h
  obtain ⟨a, s₁, -, hrest⟩ := hw.of_bind h
  exact hf a s₁ s' hrest

end Work

/-! ## Reference rows -/

namespace ReferenceTable

variable (k : ReferenceTable) (code : String)

theorem sumless_fetchOrFail : (k.reference.fetchOrFail code).Sumless := by
  have hfetch : (k.fetch code).ask.Sumless := by
    cases k with
    | _ => exact Work.sumless_ask rfl
  unfold Reference.fetchOrFail
  rw [k.fetch_reference]
  refine hfetch.bind fun answer => ?_
  cases answer with
  | ok row => exact Work.sumless_pure row
  | error e => exact Work.sumless_fail _

theorem sumless_createOrRefetch : (k.reference.createOrRefetch code).Sumless := by
  have hcreate : (k.create code).ask.Sumless := by
    cases k with
    | _ => exact Work.sumless_ask rfl
  have hrefetch : (k.reference.refetch code).Sumless := by
    refine (k.sumless_fetchOrFail code).bind fun found => ?_
    cases found with
    | some row => exact Work.sumless_pure row
    | none => exact Work.sumless_fail _
  unfold Reference.createOrRefetch
  rw [k.create_reference]
  show ((k.create code).ask >>= _).Sumless
  refine hcreate.bind fun answer => ?_
  cases answer with
  | ok row => exact Work.sumless_pure row
  | error e =>
      dsimp only
      split
      · exact hrefetch
      · exact Work.sumless_fail _

theorem sumless_resolve : (k.reference.resolve code).Sumless := by
  unfold Reference.resolve
  split
  · exact Work.sumless_fail _
  refine (k.sumless_fetchOrFail code).bind fun found => ?_
  cases found with
  | none => exact k.sumless_createOrRefetch code
  | some row =>
      dsimp only
      split
      · exact Work.sumless_pure row
      · exact k.sumless_createOrRefetch code

end ReferenceTable

/-! ## Transfers -/

variable {t t' : Tables} {p : Probes} {s' : Working}

theorem sumless_transferReferences (currency : String) :
    (transferReferences currency).Sumless :=
  (ReferenceTable.type.sumless_resolve _).bind fun _ =>
    (ReferenceTable.status.sumless_resolve _).bind fun _ =>
      (ReferenceTable.status.sumless_resolve _).bind fun _ =>
        (ReferenceTable.currency.sumless_resolve _).bind fun _ => Work.sumless_pure _

theorem sumless_writeEntries (transaction sender receiver : Int) (amount : Decimal) :
    (writeEntries transaction sender receiver amount).Sumless :=
  (Work.sumless_require rfl).bind fun _ => (Work.sumless_emit _).bind fun _ =>
    (Work.sumless_require rfl).bind fun _ => (Work.sumless_emit _).bind fun _ =>
      Work.sumless_pure _

theorem additionHindrance?_of_overflow {id : Int} {delta : Decimal}
    (h : (applyDelta id delta).Yields ⟨t, p⟩ .overflow s') :
    additionHindrance? t.accounts id delta = some .overflow := by
  have hquery := h.overflow_of_sumless fun _ =>
    (Work.sumless_emit _).bind fun _ => Work.sumless_pure _
  obtain ⟨r, s₁, -, hr⟩ | ⟨hrun, -⟩ := Work.yields_call.1 hquery
  · cases r with
    | ok a => exact nomatch hr.1
    | error e => exact nomatch hr.1
  · obtain ⟨_, _, old, ⟨⟩, hold, hactive, hsum⟩ := sum_of_overflow hrun
    simp [additionHindrance?, isOpen, hold, hactive, hsum]

theorem additionHindrance?_of_ends {id : Int} {delta : Decimal} {row : Account} {now : Timestamp}
    (h : (applyDelta id delta).Ends (Answers now) t (.ok row) t') :
    additionHindrance? t.accounts id delta = none := by
  obtain ⟨old, balance, hold, hactive, hsum, -, -⟩ := ends_applyDelta h
  simp [additionHindrance?, isOpen, hold, hactive, hsum]

theorem hindrance?_of_twoDeltas {a b : Int} {d e : Decimal} {β : Type} {f : Account → Account → β}
    (hne : b ≠ a) (h : (applyDelta a d >>= fun x => applyDelta b e >>= fun y => pure (f x y)).Yields
      ⟨t, p⟩ .overflow s') :
    (additionHindrance? t.accounts a d).or (additionHindrance? t.accounts b e) =
      some .overflow := by
  obtain hfirst | ⟨x, ⟨t₁, p₁⟩, hfirst, hrest⟩ := h.of_bind_overflow
  · rw [additionHindrance?_of_overflow hfirst]
    rfl
  · have hsecond := additionHindrance?_of_overflow
      (hrest.overflow_of_sumless fun _ => Work.sumless_pure _)
    obtain ⟨old, balance, -, -, -, -, rfl⟩ := ends_applyDelta hfirst.ends
    rw [additionHindrance?_put hne] at hsecond
    rw [additionHindrance?_of_ends hfirst.ends, Option.none_or]
    exact hsecond

theorem balancesHindrance?_of_overflow {params : TransferParams}
    (hne : params.sender ≠ params.receiver)
    (h : (updateBothBalances params.sender params.receiver params.amount).Yields ⟨t, p⟩ .overflow
      s') : balancesHindrance? t.accounts params = some .overflow := by
  have hdebit : params.delta params.sender = params.amount.negate := if_pos rfl
  have hcredit : params.delta params.receiver = params.amount := if_neg hne.symm
  unfold updateBothBalances lockOrder at h
  unfold balancesHindrance? lockOrder
  by_cases hle : params.sender ≤ params.receiver
  · simp only [if_pos hle, if_true, hdebit, hcredit] at h ⊢
    exact hindrance?_of_twoDeltas hne.symm h
  · simp only [if_neg hle, if_neg hne.symm, hdebit, hcredit] at h ⊢
    exact hindrance?_of_twoDeltas hne h

/-- A transfer that overflows could not succeed, and this is why. -/
theorem hindrance?_of_overflow {params : TransferParams} {rate : Decimal}
    {reference description : String} (ht : t.WellFormed) (hne : params.sender ≠ params.receiver)
    (h : (runTransfer (params.withRate rate) reference description).Yields ⟨t, p⟩ .overflow s') :
    hindrance? t params reference = some .overflow := by
  obtain ⟨refs, ⟨t₁, p₁⟩, hrefs, h⟩ := (sumless_transferReferences _).of_bind h
  obtain ⟨-, haccounts₁, htransactions₁⟩ := stored_of_ends ht hrefs.ends
  obtain ⟨pending, ⟨t₂, p₂⟩, hcreate, h⟩ := (Work.sumless_require rfl).of_bind h
  obtain ⟨-, haccounts, -, hadmits⟩ := pending_of_ends hcreate.ends
  obtain ⟨⟨debit, credit⟩, ⟨t₃, p₃⟩, hentries, h⟩ :=
    (sumless_writeEntries _ _ _ _).of_bind (Work.yields_emit_bind.1 h)
  obtain ⟨-, -, ht₃⟩ := ends_writeEntries hentries.ends
  have haccounts₃ : t₃.accounts = t₁.accounts := (congrArg Tables.accounts ht₃).trans haccounts
  have hboth : (updateBothBalances params.sender params.receiver params.amount).Yields
      ⟨t₃, p₃⟩ .overflow s' := by
    refine Work.Yields.overflow_of_sumless (fun both => ?_) h
    exact (Work.sumless_require rfl).bind fun _ => (Work.sumless_emit _).bind fun _ =>
      Work.sumless_pure _
  have hcreation : creationRefusal? t₁ params reference = none :=
    creationRefusal?_eq_none.2 ⟨hadmits.sender, hadmits.receiver, hadmits.reference⟩
  rw [← hindrance?_congr haccounts₁ htransactions₁, hindrance?, hcreation, Option.map_none,
    Option.none_or, ← haccounts₃]
  exact balancesHindrance?_of_overflow hne hboth

end FundsTransfer
