import FundsTransfer.Proofs.Memory.Intact
import FundsTransfer.Proofs.Transfer.Asking
import FundsTransfer.Proofs.Work.Transacting
import FundsTransfer.Proofs.Transfer.Posting

/-!
# What a transfer moves

Of all that a transfer does to the tables, two things matter to other transfers: it adds to
two balances, and it takes a reference number that nobody had.  `Carried` says just this.
Unlike `Posted` it does not speak of clock columns, so it holds also when the clock goes on
between two queries.

Balances change by sums, which round when they must.  So what transfers do to a balance one
after another is the list of their deltas added in this order, `Shifts`.
-/

namespace FundsTransfer

namespace Memory.Tables

/-- The balance of an account. -/
def balance? (t : Tables) (account : Int) : Option Decimal :=
  (t.accounts.find? account).map Account.balance

/-- A transaction carries a reference number. -/
def Uses (t : Tables) (reference : String) : Prop :=
  ∃ id row, t.transactions.find? id = some row ∧ row.reference = some reference

theorem Intact.uses_iff {t : Tables} (h : t.Intact) {reference : String} :
    t.Uses reference ↔ t.hasReference reference = true := h.hasReference_iff.symm

/-! ## Deltas -/

/-- Every balance has its deltas added, one after the other. -/
def Shifts (deltas : Int → List Decimal) (t t' : Tables) : Prop :=
  ∀ account, t'.balance? account =
    (t.balance? account).bind fun b => (deltas account).foldlM Decimal.add? b

variable {deltas deltas' : Int → List Decimal} {t t' t'' : Tables}

theorem Shifts.none (h : t'.balance? = t.balance?) : Shifts (fun _ => []) t t' := by
  intro account
  rw [h]
  cases t.balance? account with
  | none => rfl
  | some b => rfl

theorem Shifts.trans (h : Shifts deltas t t') (h' : Shifts deltas' t' t'') :
    Shifts (fun account => deltas account ++ deltas' account) t t'' := by
  intro account
  rw [h' account, h account]
  cases t.balance? account with
  | none => rfl
  | some b => simp [List.foldlM_append]

/-- An addition to one balance. -/
theorem shifts_putAccount {id : Int} {old a : Account} {delta : Decimal}
    (hold : t.accounts.find? id = some old) (ha : old.balance.add? delta = some a.balance) :
    Shifts (fun account => if account = id then [delta] else []) t
      { t with accounts := t.accounts.put id a } := by
  intro account
  simp only [balance?, Table.find?_put]
  by_cases haccount : account = id
  · simp [haccount, hold, ha]
  · cases hfind : t.accounts.find? account with
    | none => simp [haccount]
    | some b => simp [haccount]

/-! ## Queries that move nothing -/

/-- The balances and the reference numbers are the same. -/
structure SameMoney (t t' : Tables) : Prop where
  balances : t'.balance? = t.balance?
  uses : t'.Uses = t.Uses

theorem SameMoney.refl (t : Tables) : SameMoney t t := ⟨rfl, rfl⟩

theorem SameMoney.trans (h : SameMoney t t') (h' : SameMoney t' t'') : SameMoney t t'' :=
  ⟨h'.balances.trans h.balances, h'.uses.trans h.uses⟩

/-- A transaction written over one with its reference number changes no use. -/
theorem uses_restated {id : Int} {old row : Transaction}
    (hold : t.transactions.find? id = some old) (hrow : row.reference = old.reference) :
    { t with transactions := t.transactions.put id row }.Uses = t.Uses := by
  funext reference
  refine propext ⟨?_, ?_⟩
  · rintro ⟨id', row', hfind, hrow'⟩
    simp only [Table.find?_put] at hfind
    split at hfind
    · cases hfind
      exact ⟨id, old, hold, hrow ▸ hrow'⟩
    · exact ⟨id', row', hfind, hrow'⟩
  · rintro ⟨id', row', hfind, hrow'⟩
    by_cases hid : id' = id
    · rw [hid, hold] at hfind
      cases hfind
      exact ⟨id, row, Table.find?_put_self _ _ _, hrow.trans hrow'⟩
    · refine ⟨id', row', ?_, hrow'⟩
      simp only [Table.find?_put, if_neg hid]
      exact hfind

end Memory.Tables

open Memory Memory.Tables

/-- The queries that change no balance and write no transaction. -/
def Query.SparesMoney : Query → Prop
  | .addBalance .. => False
  | .createTransaction _ => False
  | _ => True

theorem sparesMoney_of_reference (q : Query) (h : q.OfReference) : q.SparesMoney := by
  cases q with
  | addBalance id delta => exact h
  | createTransaction new => exact h
  | _ => trivial

variable {t t' : Tables}

theorem sameMoney_of_change {now : Timestamp} {q : Query} (hq : q.SparesMoney)
    (h : Change now q t t') : SameMoney t t' := by
  cases h with
  | none => exact .refl t
  | balance => exact hq.elim
  | transaction => exact hq.elim
  | status hcode hold => exact ⟨rfl, uses_restated hold rfl⟩
  | entry => exact ⟨rfl, rfl⟩
  | newStatus => exact ⟨rfl, rfl⟩
  | newType => exact ⟨rfl, rfl⟩
  | newCurrency => exact ⟨rfl, rfl⟩

/-- What a unit of work with intact tables can be answered, whatever the clock says. -/
def Answered : Answering Tables := fun t q r t' => t.Intact ∧ ∃ now, Answers now t q r t'

theorem answered_of_ends {α : Type} {w : Work α} {o : Outcome α} {now : Timestamp}
    (ht : t.Intact) (h : w.Ends (Answers now) t o t') : w.Ends Answered t o t' :=
  (h.refines (fun ht hanswers =>
    ⟨⟨ht, now, hanswers⟩, ht.change (change_of_gives hanswers)⟩) ht).1

theorem sameMoney_of_ends {α : Type} {w : Work α} {o : Outcome α}
    (hw : w.Asks Query.SparesMoney) (h : w.Ends Answered t o t') : SameMoney t t' := by
  refine h.preserves .refl .trans (fun hq hanswered => ?_) hw
  obtain ⟨-, now, hanswers⟩ := hanswered
  exact sameMoney_of_change hq (change_of_gives hanswers)

/-! ## Transfers -/

/-- The deltas of a transfer on an account. -/
def TransferParams.deltas (p : TransferParams) (account : Int) : List Decimal :=
  if account = p.sender then [p.amount.negate]
  else if account = p.receiver then [p.amount]
  else []

/-- A transfer used a reference number that was not in use, and moved its amount. -/
structure Carried (p : TransferParams) (reference : String) (t t' : Tables) : Prop where
  unused : ¬ t.Uses reference
  uses (r : String) : t'.Uses r ↔ t.Uses r ∨ r = reference
  balances : Shifts p.deltas t t'

theorem shifts_applyDelta {account : Int} {delta : Decimal} {row : Account}
    (h : (applyDelta account delta).Ends Answered t (.ok row) t') :
    Shifts (fun a => if a = account then [delta] else []) t t' ∧ t'.Uses = t.Uses := by
  obtain ⟨row', t₁, hadd, h⟩ := Work.ends_bind_ok.1 h
  rw [Work.ends_emit_bind] at h
  obtain ⟨rfl, rfl⟩ := Work.ends_pure_ok.1 h
  obtain ⟨-, now, hanswers⟩ := Work.ends_require_ok.1 hadd
  obtain ⟨old, balance, hold, -, hsum, hrow, rfl⟩ := added_of_answers hanswers
  exact ⟨shifts_putAccount hold (hrow ▸ hsum), rfl⟩

/-- The order of the two accounts does not matter to either of them. -/
theorem shifts_updateBothBalances {p : TransferParams} {s r : Account}
    (hne : p.sender ≠ p.receiver)
    (h : (updateBothBalances p.sender p.receiver p.amount).Ends Answered t (.ok (s, r)) t') :
    Shifts p.deltas t t' ∧ t'.Uses = t.Uses := by
  unfold updateBothBalances at h
  split at h
  · obtain ⟨s', t₁, hs, h⟩ := Work.ends_bind_ok.1 h
    obtain ⟨r', t₂, hr, h⟩ := Work.ends_bind_ok.1 h
    obtain ⟨-, rfl⟩ := Work.ends_pure_ok.1 h
    obtain ⟨hdebit, huses⟩ := shifts_applyDelta hs
    obtain ⟨hcredit, huses'⟩ := shifts_applyDelta hr
    refine ⟨?_, huses'.trans huses⟩
    convert hdebit.trans hcredit using 2 with account
    grind [TransferParams.deltas]
  · obtain ⟨r', t₁, hr, h⟩ := Work.ends_bind_ok.1 h
    obtain ⟨s', t₂, hs, h⟩ := Work.ends_bind_ok.1 h
    obtain ⟨-, rfl⟩ := Work.ends_pure_ok.1 h
    obtain ⟨hcredit, huses'⟩ := shifts_applyDelta hr
    obtain ⟨hdebit, huses⟩ := shifts_applyDelta hs
    refine ⟨?_, huses.trans huses'⟩
    convert hcredit.trans hdebit using 2 with account
    grind [TransferParams.deltas]

theorem uses_insertTransaction {now : Timestamp} {new : NewTransaction} (ht : t.WellFormed)
    (r : String) : (t.insertTransaction now new).2.Uses r ↔ t.Uses r ∨ r = new.reference := by
  have hfree := ht.transactions_within.find?_next
  constructor
  · rintro ⟨id, row, hfind, hrow⟩
    simp only [Tables.insertTransaction, Table.find?_put] at hfind
    split at hfind
    · cases hfind
      exact .inr (Option.some.inj hrow).symm
    · exact .inl ⟨id, row, hfind, hrow⟩
  · rintro (⟨id, row, hfind, hrow⟩ | rfl)
    · refine ⟨id, row, ?_, hrow⟩
      have hid : id ≠ (t.lastTransaction + 1 : Nat) := by
        rintro rfl
        rw [hfree] at hfind
        cases hfind
      simp only [Tables.insertTransaction, Table.find?_put, if_neg hid]
      exact hfind
    · exact ⟨_, _, Table.find?_put_self _ _ _, rfl⟩

/-- A transfer that succeeds carries its amount. -/
theorem carried_of_ends {p : TransferParams} {rate : Decimal} {reference description : String}
    {r : TransferResult} (hne : p.sender ≠ p.receiver)
    (h : (runTransfer (p.withRate rate) reference description).Ends Answered t (.ok r) t') :
    Carried p reference t t' := by
  obtain ⟨refs, t₁, hrefs, h⟩ := Work.ends_bind_ok.1 h
  have hresolved := sameMoney_of_ends
    ((asks_transferReferences _).mono sparesMoney_of_reference) hrefs
  obtain ⟨pending, t₂, hcreate, h⟩ := Work.ends_bind_ok.1 h
  obtain ⟨hintact, now, hanswers⟩ := Work.ends_require_ok.1 hcreate
  obtain ⟨hpending, rfl, hunused⟩ := created_of_answers hanswers
  obtain ⟨⟨debit, credit⟩, t₃, hentries, h⟩ := Work.ends_bind_ok.1 (Work.ends_emit_bind.1 h)
  have hwritten := sameMoney_of_ends (asks_writeEntries (fun _ => trivial) _ _ _ _) hentries
  obtain ⟨⟨s, d⟩, t₄, hboth, h⟩ := Work.ends_bind_ok.1 h
  obtain ⟨hshifts, huses⟩ := shifts_updateBothBalances hne hboth
  obtain ⟨row, t₅, hstatus, h⟩ := Work.ends_bind_ok.1 h
  rw [Work.ends_emit_bind] at h
  obtain ⟨-, rfl⟩ := Work.ends_pure_ok.1 h
  have hquery : Query.SparesMoney (.setStatus pending.id refs.completed.code) := trivial
  have hrest := sameMoney_of_ends (Work.asks_require hquery) hstatus
  have hbefore : t₃.balance? = t.balance? := hwritten.balances.trans hresolved.balances
  constructor
  · rw [← hresolved.uses, hintact.uses_iff, hunused]
    exact Bool.false_ne_true
  · intro r'
    rw [hrest.uses, huses, hwritten.uses, uses_insertTransaction hintact.toWellFormed,
      hresolved.uses]
  · intro account
    rw [hrest.balances, hshifts account, hbefore]

end FundsTransfer
