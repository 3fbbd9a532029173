import FundsTransfer.Proofs.Decimal.Exact
import FundsTransfer.Proofs.Transfer.Asking
import FundsTransfer.Proofs.Transfer.Posting

/-!
# The books

The entries say what was moved on each account, and the balances say what is there.  The
two are written apart.  `Reconciled` says that they agree: each balance is what its
account was opened with and what its entries moved, as exact numbers.

It is kept by everything that callers do to the store.  Opening and closing an account
move nothing.  Most requests of the engine leave the books alone, since no query that
they ask touches an account or an entry, `SparesBooks`.  A transfer keeps it as long as
its two sums are exact.  They are when nobody ever had or moved too much, and this is why
`Reconciled` bounds what was moved.
-/

namespace FundsTransfer

open Memory

/-! ## Requests that leave the books alone -/

/-- Two tables with the same accounts and the same entries. -/
structure SameBooks (t t' : Tables) : Prop where
  accounts : t'.accounts = t.accounts
  entries : t'.entries = t.entries
  lastAccount : t'.lastAccount = t.lastAccount

theorem SameBooks.refl (t : Tables) : SameBooks t t := ⟨rfl, rfl, rfl⟩

theorem SameBooks.trans {t₁ t₂ t₃ : Tables} (h : SameBooks t₁ t₂) (h' : SameBooks t₂ t₃) :
    SameBooks t₁ t₃ :=
  ⟨h'.accounts.trans h.accounts, h'.entries.trans h.entries, h'.lastAccount.trans h.lastAccount⟩

/-- Whether a query leaves the accounts and the entries alone. -/
def SparesBooks : Query → Prop
  | .addBalance .. => False
  | .createEntry _ => False
  | _ => True

theorem sameBooks_of_answers {now : Timestamp} {t t' : Tables} {q : Query}
    {r : Except StoreError q.Answer} (hq : SparesBooks q) (h : Answers now t q r t') :
    SameBooks t t' := by
  cases change_of_gives h with
  | none => exact .refl t
  | balance => exact hq.elim
  | transaction => exact ⟨rfl, rfl, rfl⟩
  | status => exact ⟨rfl, rfl, rfl⟩
  | entry => exact hq.elim
  | newStatus => exact ⟨rfl, rfl, rfl⟩
  | newType => exact ⟨rfl, rfl, rfl⟩
  | newCurrency => exact ⟨rfl, rfl, rfl⟩

theorem sparesBooks_of_reference (q : Query) (h : q.OfReference) : SparesBooks q := by
  cases q with
  | addBalance id delta => exact h
  | createEntry new => exact h
  | _ => trivial

/-- The queries of an audit. -/
def Query.OfAudit : Query → Prop
  | .transaction _ => True
  | .entries _ => True
  | _ => False

theorem eq_of_answers {now : Timestamp} {t t' : Tables} {q : Query}
    {r : Except StoreError q.Answer} (hq : q.OfAudit) (h : Answers now t q r t') : t' = t := by
  cases change_of_gives h with
  | none => rfl
  | _ => exact hq.elim

namespace Rehearsal

variable {α : Type} {w : World}

theorem sameBooks_execute (hw : Reachable w) {work : Work α} (limit : Option Duration)
    (pauses : Nat) (hwork : work.Asks SparesBooks) :
    SameBooks w.tables (call w (Job.execute limit work) pauses).2.tables :=
  call_execute_keeps .refl .trans sameBooks_of_answers hw.sound.hooked hwork limit pauses

/-- An audit changes nothing at all. -/
theorem tables_verify (hw : w.Hooked Disturbance.IsDelay) (c : Coordinator) (transaction : Int)
    (pauses : Nat) : (call w (c.verify transaction) pauses).2.tables = w.tables := by
  have hasks : (readLedger transaction).Asks Query.OfAudit :=
    asks_readLedger (fun _ => trivial) (fun _ => trivial) transaction
  refine call_execute_andThen_keeps (R := fun t t' => t' = t) (fun _ => rfl)
    (fun h h' => h'.trans h) eq_of_answers hw hasks (fun audit => ⟨audit, ?_⟩)
    (fun e => ⟨e, ?_⟩) c.timeout pauses
  · rfl
  · rfl

end Rehearsal

/-! ## Balances and entries agree -/

/-- The sum of the amounts of all entries on an account. -/
def moved (t : Tables) (account : Int) : Rat :=
  ((t.entries.filter fun e => e.account == some account).map fun e => e.amount.toRat).sum

/-- What an account was opened with, when the accounts were opened with these balances. -/
def openingOf (openings : List Decimal) (account : Int) : Option Decimal :=
  if 1 ≤ account then openings[account.toNat - 1]? else none

/-- The books agree.  The accounts were opened with these balances, their entries moved no more than
was paid, and neither needs more fraction digits than the scale. -/
structure Reconciled (scale : Nat) (openings : List Decimal) (paid : Rat) (t : Tables) :
    Prop where
  /-- Each balance is the opening balance and what was moved. -/
  balances (account : Int) : (t.accounts.find? account).map (fun a => a.balance.toRat) =
    (openingOf openings account).map fun o => o.toRat + moved t account
  /-- All balances together are all opening balances together. -/
  total : (t.accounts.rows.map fun a => a.balance.toRat).sum = (openings.map Decimal.toRat).sum
  opened : t.lastAccount = openings.length
  scales {account : Int} {a : Account} : t.accounts.find? account = some a →
    a.balance.scale ≤ scale
  moved_le (account : Int) : |moved t account| ≤ paid
  /-- Entries are on accounts that were opened. -/
  known {e : Entry} {account : Int} : e ∈ t.entries → e.account = some account →
    account ≤ t.lastAccount

namespace Reconciled

variable {scale : Nat} {openings : List Decimal} {paid : Rat} {t t' : Tables}

theorem empty (scale : Nat) : Reconciled scale [] 0 .empty where
  balances account := by
    unfold openingOf
    split <;> rfl
  total := rfl
  opened := rfl
  scales h := by cases h
  moved_le account := by
    show |(0 : Rat)| ≤ 0
    rw [abs_zero]
  known h := by cases h

theorem of_sameBooks (h : Reconciled scale openings paid t) (hsame : SameBooks t t') :
    Reconciled scale openings paid t' := by
  have hmoved : ∀ account, moved t' account = moved t account := by
    intro account
    unfold moved
    rw [hsame.entries]
  constructor
  · intro account
    rw [hsame.accounts, hmoved]
    exact h.balances account
  · rw [hsame.accounts]
    exact h.total
  · exact hsame.lastAccount.trans h.opened
  · intro account a hfind
    rw [hsame.accounts] at hfind
    exact h.scales hfind
  · intro account
    rw [hmoved]
    exact h.moved_le account
  · intro e account hmem
    rw [hsame.entries] at hmem
    rw [hsame.lastAccount]
    exact h.known hmem

/-- More may have been paid than was moved. -/
theorem mono {paid' : Rat} (h : Reconciled scale openings paid t) (hle : paid ≤ paid') :
    Reconciled scale openings paid' t :=
  { h with moved_le := fun account => (h.moved_le account).trans hle }

/-- Nothing was moved on an account that was not opened. -/
theorem moved_eq_zero (h : Reconciled scale openings paid t) {account : Int}
    (haccount : (t.lastAccount : Int) < account) : moved t account = 0 := by
  unfold moved
  rw [List.filter_eq_nil_iff.2]
  · rfl
  · intro e hmem heq
    have := h.known hmem (eq_of_beq heq)
    omega

theorem openAccount {balance : Decimal} (h : Reconciled scale openings paid t)
    (ht : t.WellFormed) (hscale : balance.scale ≤ scale) (now : Timestamp) (user : Int)
    (currency : String) :
    Reconciled scale (openings ++ [balance]) paid
      (t.openAccount now user currency balance).2 := by
  have hfree := ht.accounts_within.find?_next
  constructor
  · intro account
    show (((t.accounts.put (t.lastAccount + 1 : Nat) _).find? account).map _) =
      (openingOf (openings ++ [balance]) account).map fun o => o.toRat + moved t account
    rw [Table.find?_put]
    by_cases hnew : account = (t.lastAccount + 1 : Nat)
    · rw [if_pos hnew, hnew, h.moved_eq_zero (by omega), h.opened, openingOf, if_pos (by omega)]
      simp [Account.checking]
    · rw [if_neg hnew, h.balances account]
      unfold openingOf
      split
      · have hother : account.toNat - 1 ≠ openings.length := by
          have := h.opened
          omega
        rw [List.getElem?_append]
        grind
      · rfl
  · have hsum := Table.sum_put ht.accounts_ascending (fun a => a.balance.toRat)
      (t.lastAccount + 1 : Nat) (Account.checking (t.lastAccount + 1) user currency balance now)
    rw [hfree, h.total] at hsum
    simp only [Option.map_none, Option.getD_none, add_zero] at hsum
    rw [List.map_append, List.sum_append, List.map_singleton, List.sum_singleton]
    exact hsum
  · rw [List.length_append, List.length_singleton, ← h.opened]
    rfl
  · intro account a hfind
    exact Table.forall_put (fun _ _ hfind => h.scales hfind) hscale account a hfind
  · exact h.moved_le
  · intro e account hmem heq
    have := h.known hmem heq
    show account ≤ ((t.lastAccount + 1 : Nat) : Int)
    omega

theorem deactivate (h : Reconciled scale openings paid t) (ht : t.WellFormed) (id : Int) :
    Reconciled scale openings paid (t.deactivate id) := by
  unfold Tables.deactivate
  split
  · rename_i old hold
    constructor
    · intro account
      show (((t.accounts.put id _).find? account).map _) =
        (openingOf openings account).map fun o => o.toRat + moved t account
      rw [← h.balances account, Table.find?_put]
      split
      · rename_i heq
        rw [heq, hold]
        rfl
      · rfl
    · have hsum := Table.sum_put ht.accounts_ascending (fun a => a.balance.toRat) id
        { old with isActive := false }
      rw [hold, h.total] at hsum
      simp only [Option.map_some, Option.getD_some] at hsum
      exact add_right_cancel hsum
    · exact h.opened
    · intro account a hfind
      have hscale := h.scales hold
      refine Table.forall_put (I := fun _ a => a.balance.scale ≤ scale)
        (fun _ _ hfind => h.scales hfind) ?_ account a hfind
      exact hscale
    · exact h.moved_le
    · exact h.known
  · exact h

/-- An account that exists was opened. -/
theorem exists_opening (h : Reconciled scale openings paid t) {account : Int} {a : Account}
    (hfind : t.accounts.find? account = some a) :
    ∃ o ∈ openings, openingOf openings account = some o ∧
      o.toRat + moved t account = a.balance.toRat := by
  have hbalance := h.balances account
  rw [hfind] at hbalance
  obtain ⟨o, ho, hvalue⟩ := Option.map_eq_some_iff.1 hbalance.symm
  refine ⟨o, ?_, ho, hvalue⟩
  unfold openingOf at ho
  split at ho
  · exact List.mem_of_getElem? ho
  · cases ho

/-- What is added to a balance is what more was moved. -/
theorem add_balance (h : Reconciled scale openings paid t) {account : Int} {a : Account}
    (hfind : t.accounts.find? account = some a) (x : Rat) :
    some (a.balance.toRat + x) =
      (openingOf openings account).map fun o => o.toRat + (moved t account + x) := by
  obtain ⟨o, -, ho, hvalue⟩ := h.exists_opening hfind
  rw [ho, Option.map_some, ← hvalue, add_assoc]

/-- A sum on the balance of an account is exact as long as the account was not opened with too much
and not too much is paid. -/
theorem exact_sum (h : Reconciled scale openings paid t) {account : Int} {old : Account}
    {delta sum : Decimal} {amount : Rat} (hold : t.accounts.find? account = some old)
    (hsum : old.balance.add? delta = some sum) (hdelta : |delta.toRat| ≤ amount)
    (hscale : delta.scale ≤ scale)
    (hbound : ∀ o ∈ openings, (|o.toRat| + (paid + amount)) * 10 ^ scale < 2 ^ 96) :
    sum.toRat = old.balance.toRat + delta.toRat ∧ sum.scale ≤ scale := by
  obtain ⟨o, hmem, -, hvalue⟩ := h.exists_opening hold
  refine Decimal.toRat_add?_of_lt (h.scales hold) hscale hsum ?_
  have habs : |old.balance.toRat + delta.toRat| ≤ |o.toRat| + (paid + amount) := by
    rw [← hvalue]
    calc |o.toRat + moved t account + delta.toRat|
        ≤ |o.toRat + moved t account| + |delta.toRat| := abs_add_le _ _
      _ ≤ |o.toRat| + |moved t account| + |delta.toRat| := by
        linarith [abs_add_le o.toRat (moved t account)]
      _ ≤ |o.toRat| + (paid + amount) := by linarith [h.moved_le account]
  calc |old.balance.toRat + delta.toRat| * 10 ^ scale
      ≤ (|o.toRat| + (paid + amount)) * 10 ^ scale :=
        mul_le_mul_of_nonneg_right habs (by positivity)
    _ < 2 ^ 96 := hbound o hmem

end Reconciled

/-! ## A transfer and the books -/

section

variable {v : ValidTransfer} {reference description : String} {t t' : Tables}
  {r : TransferResult}

/-- A transfer moves the amount from one account to the other, and nothing on any other. -/
theorem Posted.moved_eq (h : Posted v reference description t t' r) (account : Int) :
    moved t' account = moved t account
      + (if account = v.sender then -v.amount.toRat else 0)
      + (if account = v.receiver then v.amount.toRat else 0) := by
  have hsingle : ∀ e : Entry,
      (([e].filter fun e => e.account == some account).map fun e => e.amount.toRat).sum =
        if e.account = some account then e.amount.toRat else 0 := by
    intro e
    by_cases he : e.account = some account
    · simp [he]
    · simp [he]
  have hpair : [r.fromEntry, r.toEntry] = [r.fromEntry] ++ [r.toEntry] := rfl
  unfold moved
  rw [h.entries, hpair, List.filter_append, List.filter_append, List.map_append, List.map_append,
    List.sum_append, List.sum_append, hsingle, hsingle, h.fromEntry, h.toEntry,
    Decimal.toRat_negate, add_assoc]
  simp only [Option.some.injEq, eq_comm (a := account)]

/-- The two new balances of a transfer are exact, and need no more fraction digits than the
scale. -/
structure Posted.Exact (v : ValidTransfer) (r : TransferResult) (s d : Account) (scale : Nat) :
    Prop where
  sender : r.fromAccount.balance.toRat = s.balance.toRat + -v.amount.toRat
  receiver : r.toAccount.balance.toRat = d.balance.toRat + v.amount.toRat
  sender_scale : r.fromAccount.balance.scale ≤ scale
  receiver_scale : r.toAccount.balance.scale ≤ scale

variable {scale : Nat} {openings : List Decimal} {paid : Rat} {s d : Account}

/-- They are when not too much is paid. -/
theorem Reconciled.exact_posted (h : Reconciled scale openings paid t)
    (hp : Posted v reference description t t' r) (hamount : 0 ≤ v.amount.toRat)
    (hscale : v.amount.scale ≤ scale)
    (hbound : ∀ o ∈ openings, (|o.toRat| + (paid + v.amount.toRat)) * 10 ^ scale < 2 ^ 96) :
    ∃ s d, t.accounts.find? v.sender = some s ∧ t.accounts.find? v.receiver = some d ∧
      Posted.Exact v r s d scale := by
  obtain ⟨s, balance, hs, -, hsum, hsrow⟩ := hp.sender
  obtain ⟨d, balance', hd, -, hsum', hdrow⟩ := hp.receiver
  have hdebit : |v.amount.negate.toRat| ≤ v.amount.toRat := by
    rw [Decimal.toRat_negate, abs_neg, abs_of_nonneg hamount]
  have hcredit : |v.amount.toRat| ≤ v.amount.toRat := by rw [abs_of_nonneg hamount]
  obtain ⟨hexact, hsscale⟩ := h.exact_sum hs hsum hdebit hscale hbound
  obtain ⟨hexact', hdscale⟩ := h.exact_sum hd hsum' hcredit hscale hbound
  rw [Decimal.toRat_negate] at hexact
  refine ⟨s, d, hs, hd, ?_⟩
  constructor
  · rw [hsrow]
    exact hexact
  · rw [hdrow]
    exact hexact'
  · rw [hsrow]
    exact hsscale
  · rw [hdrow]
    exact hdscale

/-- Each account goes on to have what it was opened with and what its entries moved. -/
theorem Reconciled.balances_posted (h : Reconciled scale openings paid t)
    (hp : Posted v reference description t t' r) (hexact : Posted.Exact v r s d scale)
    (hne : v.sender ≠ v.receiver) (hs : t.accounts.find? v.sender = some s)
    (hd : t.accounts.find? v.receiver = some d) (account : Int) :
    (t'.accounts.find? account).map (fun a => a.balance.toRat) =
      (openingOf openings account).map fun o => o.toRat + moved t' account := by
  rw [hp.moved_eq, hp.find?_account]
  by_cases hto : account = v.receiver
  · rw [if_pos hto, if_neg (hto ▸ hne.symm), if_pos hto, Option.map_some, hexact.receiver,
      add_zero]
    exact h.add_balance (hto ▸ hd) _
  · rw [if_neg hto, if_neg hto, add_zero]
    by_cases hfrom : account = v.sender
    · rw [if_pos hfrom, if_pos hfrom, Option.map_some, hexact.sender]
      exact h.add_balance (hfrom ▸ hs) _
    · rw [if_neg hfrom, if_neg hfrom, add_zero]
      exact h.balances account

/-- Exact balances change and keep their sum. -/
theorem Posted.total_eq (hp : Posted v reference description t t' r)
    (hexact : Posted.Exact v r s d scale) (ht : t.WellFormed) (hne : v.sender ≠ v.receiver)
    (hs : t.accounts.find? v.sender = some s) (hd : t.accounts.find? v.receiver = some d) :
    (t'.accounts.rows.map fun a => a.balance.toRat).sum =
      (t.accounts.rows.map fun a => a.balance.toRat).sum := by
  have hfirst := Table.sum_put ht.accounts_ascending (fun a => a.balance.toRat) v.sender
    r.fromAccount
  have hsecond := Table.sum_put (ht.accounts_ascending.put v.sender r.fromAccount)
    (fun a => a.balance.toRat) v.receiver r.toAccount
  rw [hs] at hfirst
  rw [Table.find?_put, if_neg hne.symm, hd] at hsecond
  simp only [Option.map_some, Option.getD_some, hexact.sender, hexact.receiver]
    at hfirst hsecond
  rw [hp.accounts]
  linarith

theorem Reconciled.moved_posted_le (h : Reconciled scale openings paid t)
    (hp : Posted v reference description t t' r) (hne : v.sender ≠ v.receiver)
    (hamount : 0 ≤ v.amount.toRat) (account : Int) :
    |moved t' account| ≤ paid + v.amount.toRat := by
  have hle := abs_le.1 (h.moved_le account)
  rw [hp.moved_eq, abs_le]
  split
  · rw [if_neg (by omega)]
    constructor <;> linarith
  · split
    · constructor <;> linarith
    · constructor <;> linarith

/-- The two new entries are on accounts that exist. -/
theorem Reconciled.known_posted (h : Reconciled scale openings paid t)
    (hp : Posted v reference description t t' r) (ht : t.WellFormed)
    (hs : t.accounts.find? v.sender = some s) (hd : t.accounts.find? v.receiver = some d)
    {e : Entry} {account : Int} (hmem : e ∈ t'.entries) (heq : e.account = some account) :
    account ≤ t'.lastAccount := by
  have hsender := (ht.accounts_within _ _ hs).2
  have hreceiver := (ht.accounts_within _ _ hd).2
  rw [hp.lastAccount]
  rw [hp.entries] at hmem
  rcases List.mem_append.1 hmem with hmem | hmem
  · exact h.known hmem heq
  · simp only [List.mem_cons, List.not_mem_nil, or_false] at hmem
    rcases hmem with rfl | rfl
    · rw [hp.fromEntry] at heq
      cases heq
      exact hsender
    · rw [hp.toEntry] at heq
      cases heq
      exact hreceiver

/-- A transfer whose sums stay below the limit keeps the books in agreement. -/
theorem Reconciled.posted (h : Reconciled scale openings paid t)
    (hp : Posted v reference description t t' r) (ht : t.WellFormed)
    (hne : v.sender ≠ v.receiver) (hamount : 0 ≤ v.amount.toRat)
    (hscale : v.amount.scale ≤ scale)
    (hbound : ∀ o ∈ openings, (|o.toRat| + (paid + v.amount.toRat)) * 10 ^ scale < 2 ^ 96) :
    Reconciled scale openings (paid + v.amount.toRat) t' := by
  obtain ⟨s, d, hs, hd, hexact⟩ := h.exact_posted hp hamount hscale hbound
  constructor
  · exact h.balances_posted hp hexact hne hs hd
  · rw [hp.total_eq hexact ht hne hs hd]
    exact h.total
  · rw [hp.lastAccount]
    exact h.opened
  · intro account a hfind
    rw [hp.accounts] at hfind
    have hfirst : ∀ id row, (t.accounts.put v.sender r.fromAccount).find? id = some row →
        row.balance.scale ≤ scale :=
      Table.forall_put (fun _ _ hfind => h.scales hfind) hexact.sender_scale
    exact Table.forall_put hfirst hexact.receiver_scale account a hfind
  · exact h.moved_posted_le hp hne hamount
  · exact h.known_posted hp ht hs hd

end

end FundsTransfer
