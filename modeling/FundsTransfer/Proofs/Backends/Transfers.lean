import FundsTransfer.Proofs.Backends.References
import FundsTransfer.Proofs.Rehearsal.Reordering

/-!
# A transfer in two stores

A transfer is put together from the queries, step by step as it runs.  Once its transaction
is written there was no clash, and what can still go wrong is an account that is closed.  Both
stores find that at the same account, since both change the balance of the lower one first.
-/

namespace FundsTransfer

open Memory Database Data

variable {R : Renaming} {k : Int → Nat} {t : Tables} {p : Probes} {s : Session}
  {errs : TransferError → TransferError → Prop}

/-- The debit and the credit are written in both stores. -/
theorem Together.writeEntries (h : Abreast R k t s) (hp : p.Calm) {transaction transaction' : Int}
    (htransaction : R.transaction transaction transaction') {sender receiver : Int}
    (amount : Decimal) (hsender : t.accounts.contains sender = true)
    (hreceiver : t.accounts.contains receiver = true)
    (hposted : t.transactions.contains transaction = true) :
    Together (writeEntries transaction sender receiver amount)
      (writeEntries transaction' sender receiver amount) t p s
      (fun x y t' s' => ∃ R', R.Le R' ∧ Abreast R' k t' s' ∧ x.1.Alike R' y.1 ∧ x.2.Alike R' y.2)
      errs := by
  unfold FundsTransfer.writeEntries
  refine (Together.createEntry h hp htransaction amount.negate hsender hposted _).bind
    fun {debit debit' _ _ _} _ hp ⟨ht, R₁, hle₁, h₁, hdebit⟩ => .emit_bind ?_
  subst ht
  refine (Together.createEntry h₁ hp (hle₁.transaction _ _ htransaction) amount hreceiver hposted
    _).bind fun {credit credit' _ _ _} _ hp ⟨_, R₂, hle₂, h₂, hcredit⟩ => .emit_bind ?_
  exact .pure hp ⟨R₂, hle₁.trans hle₂, h₂, hdebit.mono hle₂, hcredit⟩

/-- Two balances change in both stores, or one of the accounts is closed in both. -/
theorem Together.twoDeltas (h : Abreast R k t s) (hp : p.Calm) {a b : Int} {d e : Decimal}
    {f : Account → Account → Account × Account} (hne : b ≠ a) (hd : Fits (k a) t a d)
    (he : Fits (k b) t b e) (herrs : ∀ e, errs e e) :
    Together (FundsTransfer.applyDelta a d >>= fun x => FundsTransfer.applyDelta b e >>= fun y =>
        Pure.pure (f x y))
      (FundsTransfer.applyDelta a d >>= fun x => FundsTransfer.applyDelta b e >>= fun y =>
        Pure.pure (f x y)) t p s
      (fun x y t' s' => ∃ a₁ b₁ a₂ b₂, x = f a₁ b₁ ∧ y = f a₂ b₂ ∧ a₁.Alike a₂ ∧ b₁.Alike b₂ ∧
        Abreast R k t' s') errs := by
  refine (Together.applyDelta h hp hd herrs).bind
    fun {a₁ a₂ _ _ _} _ hp ⟨ha, h₁, hother⟩ => ?_
  refine (Together.applyDelta h₁ hp (he.congr (hother b hne)) herrs).bind
    fun {b₁ b₂ _ _ _} _ hp ⟨hb, h₂, _⟩ => ?_
  exact .pure hp ⟨a₁, b₁, a₂, b₂, rfl, rfl, ha, hb, h₂⟩

/-- Both balances change in both stores, the lower account first. -/
theorem Together.updateBothBalances (h : Abreast R k t s) (hp : p.Calm) {sender receiver : Int}
    {amount : Decimal} (hne : sender ≠ receiver) (hdebit : Fits (k sender) t sender amount.negate)
    (hcredit : Fits (k receiver) t receiver amount) (herrs : ∀ e, errs e e) :
    Together (updateBothBalances sender receiver amount)
      (updateBothBalances sender receiver amount) t p s
      (fun x y t' s' => x.1.Alike y.1 ∧ x.2.Alike y.2 ∧ Abreast R k t' s') errs := by
  unfold FundsTransfer.updateBothBalances
  split
  · refine (Together.twoDeltas (f := fun s r => (s, r)) h hp hne.symm hdebit hcredit herrs).mono ?_
    rintro x y t' s' ⟨s₁, r₁, s₂, r₂, rfl, rfl, hs, hr, h'⟩
    exact ⟨hs, hr, h'⟩
  · refine (Together.twoDeltas (f := fun r s => (s, r)) h hp hne hcredit hdebit herrs).mono ?_
    rintro x y t' s' ⟨r₁, s₁, r₂, s₂, rfl, rfl, hr, hs, h'⟩
    exact ⟨hs, hr, h'⟩

theorem Clash.congr {t' : Tables} (haccounts : t'.accounts = t.accounts)
    (htransactions : t'.transactions = t.transactions) : Clash t' = Clash t := by
  unfold Clash Tables.hasReference
  rw [haccounts, htransactions]

/-- A transaction that memory takes does not clash. -/
theorem Memory.Tables.Admits.not_clash {new : NewTransaction} (h : t.Admits new) :
    ¬ Clash t new.sender new.receiver new.reference := by
  rintro ⟨-, hused⟩
  rw [h.reference] at hused
  cases hused

/-- A transfer comes to the same in both stores, unless it runs into a clash. -/
theorem Together.runTransfer (h : Abreast R k t s) (hp : p.Calm) {v : ValidTransfer}
    (reference description : String) (hamount : v.amount.isPositive = true)
    (hne : v.sender ≠ v.receiver) (hcurrency : v.currency ≠ "")
    (hdebit : Fits (k v.sender) t v.sender v.amount.negate)
    (hcredit : Fits (k v.receiver) t v.receiver v.amount) :
    Together (runTransfer v reference description) (runTransfer v reference description) t p s
      (fun r r' t' s' => ¬ Clash t v.sender v.receiver reference ∧
        ∃ R', R.Le R' ∧ Abreast R' k t' s' ∧ r.Alike R' r')
      (ErrorsAlike (Clash t v.sender v.receiver reference)) := by
  unfold FundsTransfer.runTransfer
  refine (Together.transferReferences hcurrency h hp).bind
    fun {refs refs' t₁ p₁ s₁} hyields hp ⟨hrefs, h₁⟩ => ?_
  obtain ⟨hstored, haccounts, htransactions⟩ := stored_of_ends h.intact.toWellFormed hyields.ends
  rw [← hrefs.transferType, ← hrefs.pending, ← hrefs.completed, ← hrefs.currency.code,
    ← Clash.congr haccounts htransactions]
  refine (Together.createTransaction h₁ hp hamount hstored.pending hstored.type
    hstored.currency).bind
    fun {pending pending' t₂ p₂ s₂} _ hp ⟨hadmits, ht₂, hposted, R₂, hle₂, h₂, hpending⟩ =>
      .emit_bind ?_
  subst ht₂
  have hclash : ¬ Clash t₁ v.sender v.receiver reference := hadmits.not_clash
  refine (Together.writeEntries h₂ hp hpending.id v.amount hadmits.sender hadmits.receiver
    hposted).bind
    fun {x x' t₃ p₃ s₃} hyields₃ hp ⟨R₃, hle₃, h₃, hfrom, hto⟩ => ?_
  obtain ⟨fromEntry, toEntry⟩ := x
  obtain ⟨fromEntry', toEntry'⟩ := x'
  obtain ⟨-, -, rfl⟩ := ends_writeEntries hyields₃.ends
  refine (Together.updateBothBalances h₃ hp hne
    (hdebit.congr (congrArg (·.find? v.sender) haccounts))
    (hcredit.congr (congrArg (·.find? v.receiver) haccounts)) fun e => .same hclash).bind
    fun {x x' t₄ p₄ s₄} hyields₄ hp ⟨hs, hr, h₄⟩ => ?_
  obtain ⟨fromAccount, toAccount⟩ := x
  obtain ⟨fromAccount', toAccount'⟩ := x'
  obtain ⟨-, -, rfl⟩ := ends_updateBothBalances hne hyields₄.ends
  refine (Together.setStatus h₄ hp (hle₃.transaction _ _ hpending.id) hposted hstored.completed
    _).bind fun {row row' t₅ p₅ s₅} _ hp ⟨hrow, h₅⟩ => .emit_bind ?_
  exact .pure hp ⟨hclash, R₃, hle₂.trans hle₃, h₅,
    ⟨hrow, hfrom, hto, hs, hr, rfl, rfl, hrefs.currency⟩⟩

end FundsTransfer
