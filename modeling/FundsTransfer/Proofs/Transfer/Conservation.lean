import FundsTransfer.Proofs.Decimal.Exact
import FundsTransfer.Proofs.Transfer.Posting

/-!
# When a transfer conserves the balances

A transfer is meant to take exactly the amount from one balance and to give exactly the
amount to the other.  It does so when a decimal can have the new value, and
`balance_exact_iff` says that it does so then only: nothing checks that a sum was exact.
When the new value needs more digits than a decimal has, a rounded balance is committed.

`rounded_balance_committed` is such a transfer.  An account that holds the largest whole
number of a decimal pays one cent.  The receiver gains the cent and the sender loses
nothing.
-/

namespace FundsTransfer.Rehearsal

open Memory Decimal

/-- Each balance of a transfer that succeeded changed by exactly the amount if and only if some
decimal has the exact value.  When this is so on both sides, the sum of the two balances is what it
was. -/
theorem balance_exact_iff {w : World} (hw : Reachable w) (c : Coordinator) (generated : String)
    (p : TransferParams) (pauses : Nat) {r : TransferResult}
    (h : (call w (c.transfer generated p) pauses).1 = .ok r) :
    ∃ s d s' d', w.tables.accounts.find? p.sender = some s ∧
      w.tables.accounts.find? p.receiver = some d ∧
      (call w (c.transfer generated p) pauses).2.tables.accounts.find? p.sender = some s' ∧
      (call w (c.transfer generated p) pauses).2.tables.accounts.find? p.receiver = some d' ∧
      (s'.balance.toRat = s.balance.toRat - p.amount.toRat ↔
        Representable (s.balance.toRat - p.amount.toRat)) ∧
      (d'.balance.toRat = d.balance.toRat + p.amount.toRat ↔
        Representable (d.balance.toRat + p.amount.toRat)) ∧
      (Representable (s.balance.toRat - p.amount.toRat) →
        Representable (d.balance.toRat + p.amount.toRat) →
          s'.balance.toRat + d'.balance.toRat = s.balance.toRat + d.balance.toRat) := by
  obtain ⟨r', rate, hr, -, hne, -, hposted⟩ | ⟨hnone, -⟩ :=
    posted_or_kept hw c generated p pauses
  · obtain ⟨s, balance, hs, -, hsum, hrow⟩ := hposted.sender
    obtain ⟨d, balance', hd, -, hsum', hrow'⟩ := hposted.receiver
    have hfrom := hposted.find?_account p.sender
    have hto := hposted.find?_account p.receiver
    have hsender : r'.fromAccount.balance.toRat = s.balance.toRat - p.amount.toRat ↔
        Representable (s.balance.toRat - p.amount.toRat) := by
      rw [hrow, Rat.sub_eq_add_neg, ← toRat_negate]
      exact toRat_add?_iff hsum
    have hreceiver : r'.toAccount.balance.toRat = d.balance.toRat + p.amount.toRat ↔
        Representable (d.balance.toRat + p.amount.toRat) := by
      rw [hrow']
      exact toRat_add?_iff hsum'
    refine ⟨s, d, r'.fromAccount, r'.toAccount, hs, hd, ?_, ?_, hsender, hreceiver, ?_⟩
    · rw [hfrom]
      exact (if_neg hne).trans (if_pos rfl)
    · rw [hto]
      exact if_pos rfl
    · intro hexact hexact'
      rw [hsender.2 hexact, hreceiver.2 hexact']
      grind
  · exact absurd h (hnone r)

/-- The largest whole number that a decimal holds. -/
def fullBalance : Decimal :=
  { Decimal.zero with mantissa := 79228162514264337593543950335, mantissa_lt := by decide }

/-- A request to move one cent from the first account to the second. -/
def oneCent : TransferParams :=
  { oneDollar with amount := { oneDollar.amount with mantissa := 1, mantissa_lt := by decide } }

/-- What becomes of one cent paid from a full balance. -/
def centPaid : CallEnd TransferResult × World :=
  call (twoAccounts fullBalance .zero) (Coordinator.default.transfer "" oneCent) 0

theorem cent_paid : centPaid.1.Succeeded := by decide +kernel

theorem full_before :
    ((twoAccounts fullBalance .zero).tables.accounts.find? 1).map Account.balance =
      some fullBalance := by
  decide +kernel

theorem full_after :
    (centPaid.2.tables.accounts.find? 1).map Account.balance = some fullBalance := by
  decide +kernel

theorem cent_missing : fullBalance.toRat ≠ fullBalance.toRat - oneCent.amount.toRat := by
  decide +kernel

/-- The cent is paid, and the sender still has what it had. -/
theorem rounded_balance_committed :
    ∃ r s s', centPaid.1 = .ok r ∧
      (twoAccounts fullBalance .zero).tables.accounts.find? 1 = some s ∧
      centPaid.2.tables.accounts.find? 1 = some s' ∧
      s'.balance = s.balance ∧
      s'.balance.toRat ≠ s.balance.toRat - oneCent.amount.toRat := by
  obtain ⟨r, hr⟩ := cent_paid
  obtain ⟨s, hs, hbalance⟩ := Option.map_eq_some_iff.1 full_before
  obtain ⟨s', hs', hbalance'⟩ := Option.map_eq_some_iff.1 full_after
  refine ⟨r, s, s', hr, hs, hs', hbalance'.trans hbalance.symm, ?_⟩
  rw [hbalance, hbalance']
  exact cent_missing

/-- The cent is paid though no decimal has the balance that is right for the sender. -/
theorem cent_not_representable :
    (∃ r, centPaid.1 = .ok r) ∧ ¬ Representable (fullBalance.toRat - oneCent.amount.toRat) := by
  have hafter := full_after
  obtain ⟨r, hr⟩ := cent_paid
  unfold centPaid at hr hafter ⊢
  obtain ⟨s, d, s', d', hs, -, hs', -, hexact, -, -⟩ :=
    balance_exact_iff (reachable_twoAccounts fullBalance .zero) Coordinator.default "" oneCent 0 hr
  have hbalance : s.balance = fullBalance :=
    Option.some.inj ((congrArg (Option.map Account.balance) hs).symm.trans full_before)
  have hbalance' : s'.balance = fullBalance :=
    Option.some.inj ((congrArg (Option.map Account.balance) hs').symm.trans hafter)
  rw [hbalance, hbalance'] at hexact
  exact ⟨⟨r, hr⟩, fun hvalue => cent_missing (hexact.2 hvalue)⟩

end FundsTransfer.Rehearsal
