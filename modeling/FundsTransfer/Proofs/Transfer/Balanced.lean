import FundsTransfer.Proofs.Decimal.Limits
import FundsTransfer.Transfer.Ledger

/-!
# What an audit accepts

An audit makes four checks one after the other, and none of them says that the entries of
a transaction are a debit and a credit.  There are two, they cancel, one of them fits the
sender and one of them fits the receiver.  Could one entry fit both?  Not unless the amount
is zero, since what it takes from the sender is what it would give to the receiver.  So
what passes is balanced, `balanced_iff`, and the sum need not be checked at all.

What is balanced passes because a sum of two decimals is zero exactly when they cancel:
rounding does not hide a difference, and it does not make one.  `audit_accepts_balanced`
says both, with the fault that is found in all other entries.
-/

namespace FundsTransfer

/-! ## Entries -/

/-- An entry that moves a value on an account, or on none. -/
def Entry.Moves (e : Entry) (account : Option Int) (value : Rat) : Prop :=
  e.account = account ∧ e.amount.toRat = value

/-- Two entries that take the amount of a transaction from its sender and give it to its receiver,
in one of the two orders. -/
def Balanced (t : Transaction) (entries : List Entry) : Prop :=
  ∃ debit credit, (entries = [debit, credit] ∨ entries = [credit, debit]) ∧
    debit.Moves t.sender (-t.amount.toRat) ∧ credit.Moves t.receiver t.amount.toRat

/-- The values of entries together, without any rounding. -/
def entriesValue (entries : List Entry) : Rat := (entries.map fun e => e.amount.toRat).sum

/-- What is wrong with the entries of a transaction: the first of four faults, in words. -/
inductive AuditFault (t : Transaction) (entries : List Entry) (sum : Decimal) : String → Prop
  | count (h : entries.length ≠ 2) :
      AuditFault t entries sum ("expected 2 entries, found " ++ toString entries.length)
  | sum (hcount : entries.length = 2) (h : entriesValue entries ≠ 0) :
      AuditFault t entries sum ("entries sum to " ++ sum.toText)
  | debit (hcount : entries.length = 2) (hsum : entriesValue entries = 0)
      (h : ¬ ∃ e ∈ entries, e.Moves t.sender (-t.amount.toRat)) :
      AuditFault t entries sum ("no debit of " ++ t.amount.toText ++ " on the sending account")
  | credit (hcount : entries.length = 2) (hsum : entriesValue entries = 0)
      (hdebit : ∃ e ∈ entries, e.Moves t.sender (-t.amount.toRat))
      (h : ¬ ∃ e ∈ entries, e.Moves t.receiver t.amount.toRat) :
      AuditFault t entries sum ("no credit of " ++ t.amount.toText ++ " on the receiving account")

variable {t : Transaction} {entries : List Entry} {sum : Decimal}

theorem hasEntry_iff (entries : List Entry) (account : Option Int) (amount : Decimal) :
    hasEntry entries account amount = true ↔ ∃ e ∈ entries, e.Moves account amount.toRat := by
  simp only [hasEntry, List.any_eq_true, Bool.and_eq_true, beq_iff_eq, Decimal.sameValue_iff,
    Entry.Moves]

theorem hasEntry_negate_iff (entries : List Entry) (account : Option Int) (amount : Decimal) :
    hasEntry entries account amount.negate = true ↔
      ∃ e ∈ entries, e.Moves account (-amount.toRat) := by
  rw [hasEntry_iff, Decimal.toRat_negate]

/-- An entry does not take an amount and give it as well. -/
theorem Entry.Moves.ne {debit credit : Entry} {sender receiver : Option Int} {value : Rat}
    (hdebit : debit.Moves sender (-value)) (hcredit : credit.Moves receiver value)
    (hvalue : value ≠ 0) : debit ≠ credit := by
  rintro rfl
  refine hvalue ?_
  have := hdebit.2.symm.trans hcredit.2
  linarith

theorem Balanced.entriesValue_eq_zero (h : Balanced t entries) : entriesValue entries = 0 := by
  obtain ⟨debit, credit, rfl | rfl, ⟨-, hdebit⟩, -, hcredit⟩ := h
  · simp [entriesValue, hdebit, hcredit]
  · simp [entriesValue, hdebit, hcredit]

/-- Two entries are balanced as soon as one fits the sender and one the receiver. -/
theorem balanced_iff (hamount : t.amount.isZero = false) :
    Balanced t entries ↔ entries.length = 2 ∧
      (∃ e ∈ entries, e.Moves t.sender (-t.amount.toRat)) ∧
      ∃ e ∈ entries, e.Moves t.receiver t.amount.toRat := by
  constructor
  · rintro ⟨debit, credit, rfl | rfl, hdebit, hcredit⟩
    · exact ⟨rfl, ⟨debit, by simp, hdebit⟩, credit, by simp, hcredit⟩
    · exact ⟨rfl, ⟨debit, by simp, hdebit⟩, credit, by simp, hcredit⟩
  · rintro ⟨hcount, ⟨debit, hdmem, hdebit⟩, credit, hcmem, hcredit⟩
    have hvalue : t.amount.toRat ≠ 0 := fun h => by
      rw [(Decimal.isZero_iff _).2 h] at hamount
      cases hamount
    have hne := hdebit.ne hcredit hvalue
    obtain ⟨first, second, rfl⟩ := List.length_eq_two.1 hcount
    simp only [List.mem_cons, List.not_mem_nil, or_false] at hdmem hcmem
    obtain rfl | rfl := hdmem <;> obtain rfl | rfl := hcmem
    · exact absurd rfl hne
    · exact ⟨debit, credit, .inl rfl, hdebit, hcredit⟩
    · exact ⟨debit, credit, .inr rfl, hdebit, hcredit⟩
    · exact absurd rfl hne

/-! ## The checks -/

/-- Two entries have a computed sum of zero exactly when they cancel. -/
theorem isZero_sum?_iff (hcount : entries.length = 2)
    (h : Decimal.sum? (entries.map Entry.amount) = some sum) :
    sum.isZero = true ↔ entriesValue entries = 0 := by
  obtain ⟨first, second, rfl⟩ := List.length_eq_two.1 hcount
  have hadd : first.amount.add? second.amount = some sum := by
    rw [← h]
    exact (bind_pure (first.amount.add? second.amount)).symm
  rw [Decimal.isZero_add?_iff hadd]
  simp [entriesValue]

/-- An audit passes balanced entries whose sum fits a decimal, and names a fault of all others. -/
theorem auditEntries_of_sum (h : Decimal.sum? (entries.map Entry.amount) = some sum)
    (hamount : t.amount.isZero = false) :
    Balanced t entries ∧ auditEntries t entries = .ok sum ∨
      ∃ reason, AuditFault t entries sum reason ∧
        auditEntries t entries = .error (.ledgerImbalance t.id sum reason) := by
  unfold auditEntries
  rw [h]
  dsimp only
  by_cases hcount : entries.length = 2
  · rw [if_neg (not_not.2 hcount)]
    by_cases hsum : entriesValue entries = 0
    · have hzero := (isZero_sum?_iff hcount h).2 hsum
      rw [if_neg (by simp [hzero])]
      by_cases hdebit : ∃ e ∈ entries, e.Moves t.sender (-t.amount.toRat)
      · rw [if_neg (by simp [(hasEntry_negate_iff ..).2 hdebit])]
        by_cases hcredit : ∃ e ∈ entries, e.Moves t.receiver t.amount.toRat
        · rw [if_neg (by simp [(hasEntry_iff ..).2 hcredit])]
          exact .inl ⟨(balanced_iff hamount).2 ⟨hcount, hdebit, hcredit⟩, rfl⟩
        · rw [if_pos (by simpa [← hasEntry_iff] using hcredit)]
          exact .inr ⟨_, .credit hcount hsum hdebit hcredit, rfl⟩
      · rw [if_pos (by simpa [← hasEntry_negate_iff] using hdebit)]
        exact .inr ⟨_, .debit hcount hsum hdebit, rfl⟩
    · rw [if_pos (by simpa using mt (isZero_sum?_iff hcount h).1 hsum)]
      exact .inr ⟨_, .sum hcount hsum, rfl⟩
  · rw [if_pos hcount]
    exact .inr ⟨_, .count hcount, rfl⟩

/-- Entries with a fault are not balanced. -/
theorem AuditFault.not_balanced {reason : String} (h : AuditFault t entries sum reason)
    (hamount : t.amount.isZero = false) : ¬ Balanced t entries := by
  intro hbalanced
  obtain ⟨hcount, hdebit, hcredit⟩ := (balanced_iff hamount).1 hbalanced
  cases h with
  | count h => exact h hcount
  | sum _ h => exact h hbalanced.entriesValue_eq_zero
  | debit _ _ h => exact h hdebit
  | credit _ _ _ h => exact h hcredit

/-- No entries have two faults that come first. -/
theorem AuditFault.unique {first second : String} (h : AuditFault t entries sum first)
    (h' : AuditFault t entries sum second) : first = second := by
  cases h with
  | count h =>
      cases h' with
      | count => rfl
      | sum hcount => exact absurd hcount h
      | debit hcount => exact absurd hcount h
      | credit hcount => exact absurd hcount h
  | sum hcount h =>
      cases h' with
      | count h' => exact absurd hcount h'
      | sum => rfl
      | debit _ hsum => exact absurd hsum h
      | credit _ hsum => exact absurd hsum h
  | debit hcount hsum h =>
      cases h' with
      | count h' => exact absurd hcount h'
      | sum _ h' => exact absurd hsum h'
      | debit => rfl
      | credit _ _ hdebit => exact absurd hdebit h
  | credit hcount hsum hdebit h =>
      cases h' with
      | count h' => exact absurd hcount h'
      | sum _ h' => exact absurd hsum h'
      | debit _ _ h' => exact absurd hdebit h'
      | credit => rfl

/-- Entries whose sum fits a decimal pass the audit of a transaction of some amount exactly when
they are balanced, and then their sum is zero.  In all others it finds the first fault, and tells it
with the number of the transaction and the sum. -/
theorem audit_accepts_balanced (t : Transaction) (entries : List Entry) (sum : Decimal)
    (hamount : t.amount.isZero = false)
    (hsum : Decimal.sum? (entries.map Entry.amount) = some sum) :
    (∀ s, auditEntries t entries = .ok s ↔ Balanced t entries ∧ s = sum) ∧
    (Balanced t entries → sum.isZero = true) ∧
    (∀ e, auditEntries t entries = .error e ↔
      ∃ reason, AuditFault t entries sum reason ∧ e = .ledgerImbalance t.id sum reason) ∧
    (¬ Balanced t entries ↔ ∃ reason, AuditFault t entries sum reason) := by
  have hzero : Balanced t entries → sum.isZero = true := fun hbalanced =>
    (isZero_sum?_iff ((balanced_iff hamount).1 hbalanced).1 hsum).2
      hbalanced.entriesValue_eq_zero
  obtain ⟨hbalanced, haudit⟩ | ⟨reason, hfault, haudit⟩ := auditEntries_of_sum hsum hamount
  · have hclean : ∀ reason, ¬ AuditFault t entries sum reason :=
      fun reason hfault => hfault.not_balanced hamount hbalanced
    rw [haudit]
    refine ⟨fun s => ⟨?_, ?_⟩, hzero, fun e => ⟨?_, ?_⟩,
      fun h => absurd hbalanced h, fun ⟨reason, hfault⟩ => absurd hfault (hclean reason)⟩
    · rintro ⟨⟩
      exact ⟨hbalanced, rfl⟩
    · rintro ⟨-, rfl⟩
      rfl
    · rintro ⟨⟩
    · rintro ⟨reason, hfault, -⟩
      exact absurd hfault (hclean reason)
  · have hnot := hfault.not_balanced hamount
    rw [haudit]
    refine ⟨fun s => ⟨?_, ?_⟩, hzero, fun e => ⟨?_, ?_⟩, fun _ => ⟨reason, hfault⟩, fun _ => hnot⟩
    · rintro ⟨⟩
    · rintro ⟨hbalanced, -⟩
      exact absurd hbalanced hnot
    · rintro ⟨⟩
      exact ⟨reason, hfault, rfl⟩
    · rintro ⟨reason', hfault', rfl⟩
      rw [hfault.unique hfault']

/-- A payment of five to account 7 from an account that is gone. -/
def payout : Transaction :=
  { (default : Transaction) with
    id := 1, receiver := some 7, amount := .ofNat64 false 5 (by decide) }

/-- Its entries with the credit first, each with a scale of its own. -/
def payoutEntries : List Entry :=
  [⟨1, some 7, some 1, ⟨false, 5000, 3, by decide, by decide⟩, .epoch⟩,
    ⟨2, none, some 1, ⟨true, 50, 1, by decide, by decide⟩, .epoch⟩]

/-- The credit may come first, and scales do not matter.  Without the debit, the count is wrong. -/
theorem payout_balanced :
    (payout.amount.isZero = false ∧
      Decimal.sum? (payoutEntries.map Entry.amount) =
        some ⟨false, 0, 3, by decide, by decide⟩ ∧
      Balanced payout payoutEntries) ∧
    Decimal.sum? ((payoutEntries.take 1).map Entry.amount) =
        some ⟨false, 5000, 3, by decide, by decide⟩ ∧
      ¬ Balanced payout (payoutEntries.take 1) := by
  have hamount : payout.amount.isZero = false := by decide
  have hsum : Decimal.sum? (payoutEntries.map Entry.amount) =
      some ⟨false, 0, 3, by decide, by decide⟩ := by decide
  have hcredit : Decimal.sum? ((payoutEntries.take 1).map Entry.amount) =
      some ⟨false, 5000, 3, by decide, by decide⟩ := by decide
  obtain ⟨hok, -⟩ := audit_accepts_balanced payout payoutEntries _ hamount hsum
  obtain ⟨-, -, -, hfault⟩ := audit_accepts_balanced payout (payoutEntries.take 1) _ hamount hcredit
  have hpasses : auditEntries payout payoutEntries = .ok ⟨false, 0, 3, by decide, by decide⟩ := by
    decide
  exact ⟨⟨hamount, hsum, ((hok _).1 hpasses).1⟩, hcredit, hfault.2 ⟨_, .count (by decide)⟩⟩

end FundsTransfer
