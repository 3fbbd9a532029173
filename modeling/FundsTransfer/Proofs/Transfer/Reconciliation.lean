import FundsTransfer.Proofs.Transfer.Books
import Mathlib.Data.List.MinMax

/-!
# The books agree after any run

A run starts from an empty store.  Callers open and close accounts, make transfers, audit
and resolve, arm faults and races, and make requests wait, in any order.  Whatever failed
on the way, the books agree in the end: each balance is what its account was opened with
and the sum of its entries, and all balances together are what all accounts were opened
with.

The numbers are exact as long as no account was opened with too much and not too much was
asked to be paid.  `AmountsFit` says what this means.  A request with an amount that is
not above zero is turned down before it starts, so it does not count.
-/

namespace FundsTransfer.Rehearsal

open Memory

/-- What callers do to the store, outside units of work of their own. -/
inductive Action where
  | openAccount (user : Int) (currency : String) (balance : Decimal)
  | deactivate (account : Int)
  | transfer (c : Coordinator) (generated : String) (p : TransferParams)
  | verify (c : Coordinator) (transaction : Int)
  | resolveStatus (c : Coordinator) (code : String)
  | resolveType (c : Coordinator) (code : String)
  | resolveCurrency (c : Coordinator) (code : String)
  | seed (c : Coordinator)
  | fault (point : FaultPoint) (occurrence : Nat)
  | race
  | delay (request : Request) (skip milliseconds : Nat)

namespace Action

/-- The world after an action. -/
def run (w : World) : Action → World
  | openAccount user currency balance =>
    (direct w fun t => t.openAccount .epoch user currency balance).2
  | deactivate account => (direct w fun t => ((), t.deactivate account)).2
  | transfer c generated p => (call w (c.transfer generated p) 0).2
  | verify c transaction => (call w (c.verify transaction) 0).2
  | resolveStatus c code => (call w (c.resolveStatus code) 0).2
  | resolveType c code => (call w (c.resolveType code) 0).2
  | resolveCurrency c code => (call w (c.resolveCurrency code) 0).2
  | seed c => (call w c.seed 0).2
  | fault point occurrence => { w with probes := w.probes.arm point occurrence }
  | race => { w with probes := w.probes.addRace }
  | delay request skip milliseconds =>
    { w with hooks := w.hooks ++ [⟨request, skip, .delay milliseconds⟩] }

/-- The balance an action opens an account with. -/
def opening? : Action → Option Decimal
  | openAccount _ _ balance => some balance
  | _ => none

/-- The amount an action asks to be paid, if it is above zero. -/
def amount? : Action → Option Decimal
  | transfer _ _ p => if p.amount.isPositive then some p.amount else none
  | _ => none

end Action

/-- The world after a run from an empty store. -/
def runAll (actions : List Action) : World := actions.foldl Action.run .fresh

/-- The balances with which a run opens accounts, in the order of the accounts. -/
def openingsOf (actions : List Action) : List Decimal := actions.filterMap Action.opening?

/-- The amounts a run asks to be paid. -/
def amountsOf (actions : List Action) : List Decimal := actions.filterMap Action.amount?

/-- The sum of the amounts a run asks to be paid. -/
def attempted (actions : List Action) : Rat := ((amountsOf actions).map Decimal.toRat).sum

/-- The largest scale among the opening balances and the amounts of a run. -/
def largestScale (actions : List Action) : Nat :=
  ((openingsOf actions ++ amountsOf actions).map Decimal.scale).foldr max 0

/-- Everything that could be on an account in a run has few enough digits at the largest scale. -/
def AmountsFit (actions : List Action) : Prop :=
  ∀ o ∈ openingsOf actions,
    (|o.toRat| + attempted actions) * 10 ^ largestScale actions < 2 ^ 96

instance (actions : List Action) : Decidable (AmountsFit actions) :=
  inferInstanceAs (Decidable (∀ o ∈ openingsOf actions,
    (|o.toRat| + attempted actions) * 10 ^ largestScale actions < 2 ^ 96))

/-! ## One action -/

theorem openingsOf_cons (a : Action) (rest : List Action) :
    openingsOf (a :: rest) = a.opening?.toList ++ openingsOf rest := by
  unfold openingsOf
  cases h : a.opening? with
  | none => simp [h]
  | some balance => simp [h]

theorem amountsOf_cons (a : Action) (rest : List Action) :
    amountsOf (a :: rest) = a.amount?.toList ++ amountsOf rest := by
  unfold amountsOf
  cases h : a.amount? with
  | none => simp [h]
  | some amount => simp [h]

theorem attempted_cons (a : Action) (rest : List Action) :
    attempted (a :: rest) = attempted [a] + attempted rest := by
  have hone : amountsOf [a] = a.amount?.toList := (amountsOf_cons a []).trans (List.append_nil _)
  unfold attempted
  rw [amountsOf_cons, hone, List.map_append, List.sum_append]

theorem Action.amount_nonneg {a : Action} {amount : Decimal} (h : a.amount? = some amount) :
    0 ≤ amount.toRat := by
  cases a with
  | transfer c generated p =>
      simp only [amount?] at h
      split at h
      · cases h
        exact Decimal.toRat_nonneg_of_isPositive ‹_›
      · cases h
  | _ => cases h

theorem attempted_nonneg (actions : List Action) : 0 ≤ attempted actions := by
  induction actions with
  | nil => exact le_refl _
  | cons a rest ih =>
      rw [attempted_cons]
      refine add_nonneg ?_ ih
      unfold attempted amountsOf
      cases h : a.amount? with
      | none => simp [h]
      | some amount => simpa [h] using Action.amount_nonneg h

theorem direct_of_unopened {α : Type} {w : World} (h : w.slot = none)
    (action : Tables → α × Tables) :
    (direct w action).2 = { w with tables := (action w.tables).2 } := by
  unfold direct
  rw [if_neg (by simp [h])]

/-- What every action keeps. -/
structure RunState (scale : Nat) (openings : List Decimal) (paid : Rat) (w : World) : Prop where
  reachable : Reachable w
  unopened : w.slot = none
  reconciled : Reconciled scale openings paid w.tables

namespace RunState

variable {scale : Nat} {openings : List Decimal} {paid : Rat} {w : World}

theorem fresh (scale : Nat) : RunState scale [] 0 .fresh :=
  ⟨.fresh, rfl, .empty scale⟩

/-- A call keeps what its books keep. -/
theorem call {α : Type} {paid' : Rat} (h : RunState scale openings paid w) (job : Job α)
    (hbooks : Reconciled scale openings paid' (Rehearsal.call w job 0).2.tables) :
    RunState scale openings paid' (Rehearsal.call w job 0).2 :=
  ⟨h.reachable.call job 0, (call_frame job 0 h.reachable.sound.hooked).1.trans h.unopened,
    hbooks⟩

/-- A transfer keeps the books in agreement, when what it asks for still fits. -/
theorem transfer (h : RunState scale openings paid w) (c : Coordinator) (generated : String)
    (p : TransferParams)
    (hscale : ∀ amount ∈ (Action.transfer c generated p).amount?, amount.scale ≤ scale)
    (hbound : ∀ o ∈ openings,
      (|o.toRat| + (paid + attempted [.transfer c generated p])) * 10 ^ scale < 2 ^ 96) :
    RunState scale openings (paid + attempted [.transfer c generated p])
      (Action.run w (.transfer c generated p)) := by
  refine h.call (c.transfer generated p) ?_
  obtain ⟨r, rate, -, hpositive, hne, -, hposted⟩ | ⟨-, hkept⟩ :=
    posted_or_kept h.reachable c generated p 0
  · have hamount : (Action.transfer c generated p).amount? = some p.amount := if_pos hpositive
    have hattempted : attempted [.transfer c generated p] = p.amount.toRat := by
      simp [attempted, amountsOf, hamount]
    rw [hattempted] at hbound ⊢
    exact h.reconciled.posted hposted h.reachable.wellFormed hne
      (Decimal.toRat_nonneg_of_isPositive hpositive) (hscale _ hamount) hbound
  · rw [hkept]
    exact h.reconciled.mono (le_add_of_nonneg_right (attempted_nonneg _))

/-- An action that opens no account and asks for no amount, and leaves the books alone. -/
theorem of_sameBooks {α : Type} (h : RunState scale openings paid w) {job : Job α}
    (hsame : SameBooks w.tables (Rehearsal.call w job 0).2.tables) :
    RunState scale (openings ++ []) (paid + 0) (Rehearsal.call w job 0).2 := by
  rw [List.append_nil, add_zero]
  exact h.call job (h.reconciled.of_sameBooks hsame)

/-- Resolving reference rows leaves the books alone. -/
theorem execute {α : Type} (h : RunState scale openings paid w) {work : Work α}
    (limit : Option Duration) (hwork : work.Asks Query.OfReference) :
    RunState scale (openings ++ []) (paid + 0)
      (Rehearsal.call w (Job.execute limit work) 0).2 :=
  h.of_sameBooks (sameBooks_execute h.reachable limit 0 (hwork.mono sparesBooks_of_reference))

/-- Every action keeps the books in agreement, when what it brings still fits. -/
theorem step (h : RunState scale openings paid w) (a : Action)
    (hopening : ∀ o ∈ a.opening?, o.scale ≤ scale)
    (hamount : ∀ amount ∈ a.amount?, amount.scale ≤ scale)
    (hbound : ∀ o ∈ openings, (|o.toRat| + (paid + attempted [a])) * 10 ^ scale < 2 ^ 96) :
    RunState scale (openings ++ a.opening?.toList) (paid + attempted [a]) (a.run w) := by
  have hw := h.reachable
  cases a with
  | openAccount user currency balance =>
      refine ⟨hw.openAccount user currency balance, ?_, ?_⟩
      · show (direct w _).2.slot = none
        rw [direct_of_unopened h.unopened]
        exact h.unopened
      · show Reconciled scale (openings ++ [balance]) (paid + 0) (direct w _).2.tables
        rw [direct_of_unopened h.unopened, add_zero]
        exact h.reconciled.openAccount hw.wellFormed (hopening balance rfl) _ _ _
  | deactivate account =>
      refine ⟨hw.deactivate account, ?_, ?_⟩
      · show (direct w _).2.slot = none
        rw [direct_of_unopened h.unopened]
        exact h.unopened
      · show Reconciled scale (openings ++ []) (paid + 0) (direct w _).2.tables
        rw [direct_of_unopened h.unopened, add_zero, List.append_nil]
        exact h.reconciled.deactivate hw.wellFormed account
  | transfer c generated p =>
      show RunState scale (openings ++ []) _ _
      rw [List.append_nil]
      exact h.transfer c generated p hamount hbound
  | verify c transaction =>
      refine h.of_sameBooks ?_
      rw [tables_verify hw.sound.hooked]
      exact .refl _
  | resolveStatus c code => exact h.execute c.timeout (ReferenceTable.status.asks_resolve code)
  | resolveType c code => exact h.execute c.timeout (ReferenceTable.type.asks_resolve code)
  | resolveCurrency c code => exact h.execute c.timeout (ReferenceTable.currency.asks_resolve code)
  | seed c => exact h.execute c.timeout asks_seedCatalog
  | fault point occurrence =>
      show RunState scale (openings ++ []) (paid + 0) _
      rw [List.append_nil, add_zero]
      exact ⟨hw.fault point occurrence, h.unopened, h.reconciled⟩
  | race =>
      show RunState scale (openings ++ []) (paid + 0) _
      rw [List.append_nil, add_zero]
      exact ⟨hw.race, h.unopened, h.reconciled⟩
  | delay request skip milliseconds =>
      show RunState scale (openings ++ []) (paid + 0) _
      rw [List.append_nil, add_zero]
      exact ⟨hw.delay request skip milliseconds, h.unopened, h.reconciled⟩

/-- A run keeps the books in agreement, when everything it brings fits. -/
theorem steps (h : RunState scale openings paid w) (actions : List Action)
    (hopenings : ∀ o ∈ openingsOf actions, o.scale ≤ scale)
    (hamounts : ∀ amount ∈ amountsOf actions, amount.scale ≤ scale)
    (hbound : ∀ o ∈ openings ++ openingsOf actions,
      (|o.toRat| + (paid + attempted actions)) * 10 ^ scale < 2 ^ 96) :
    RunState scale (openings ++ openingsOf actions) (paid + attempted actions)
      (actions.foldl Action.run w) := by
  induction actions generalizing openings paid w with
  | nil =>
      show RunState scale (openings ++ []) (paid + 0) w
      rw [List.append_nil, add_zero]
      exact h
  | cons a rest ih =>
      rw [openingsOf_cons] at hopenings hbound
      rw [amountsOf_cons] at hamounts
      rw [attempted_cons] at hbound
      have hrest := attempted_nonneg rest
      have hfirst : RunState scale (openings ++ a.opening?.toList) (paid + attempted [a])
          (a.run w) := by
        refine h.step a (fun o ho => ?_) (fun amount hmem => ?_) fun o ho => ?_
        · exact hopenings o (List.mem_append_left _ (Option.mem_toList.2 ho))
        · exact hamounts amount (List.mem_append_left _ (Option.mem_toList.2 hmem))
        · -- what the rest of the run asks for is not negative, so its bound covers the first action
          refine lt_of_le_of_lt (mul_le_mul_of_nonneg_right ?_ (by positivity))
            (hbound o (List.mem_append_left _ ho))
          linarith
      rw [openingsOf_cons, attempted_cons, ← List.append_assoc, ← add_assoc]
      refine ih hfirst (fun o ho => ?_) (fun amount hmem => ?_) fun o ho => ?_
      · exact hopenings o (List.mem_append_right _ ho)
      · exact hamounts amount (List.mem_append_right _ hmem)
      · rw [add_assoc]
        rw [List.append_assoc] at ho
        exact hbound o ho

end RunState

/-! ## The main result -/

theorem scale_le_largestScale {actions : List Action} {d : Decimal}
    (h : d ∈ openingsOf actions ++ amountsOf actions) : d.scale ≤ largestScale actions :=
  List.le_max_of_le' 0 (List.mem_map_of_mem h) le_rfl

/-- After any run in which all amounts fit, each account has the balance it was opened with and what
its entries moved, and all balances together are all opening balances together. -/
theorem books_agree (actions : List Action) (hfit : AmountsFit actions) :
    (∀ account, ((runAll actions).tables.accounts.find? account).map (fun a => a.balance.toRat) =
      (openingOf (openingsOf actions) account).map fun o =>
        o.toRat + moved (runAll actions).tables account) ∧
    ((runAll actions).tables.accounts.rows.map fun a => a.balance.toRat).sum =
      ((openingsOf actions).map Decimal.toRat).sum := by
  have hstate := (RunState.fresh (largestScale actions)).steps actions
    (fun o ho => scale_le_largestScale (List.mem_append_left _ ho))
    (fun amount hmem => scale_le_largestScale (List.mem_append_right _ hmem))
    (fun o ho => by
      rw [zero_add]
      exact hfit o ho)
  exact ⟨hstate.reconciled.balances, hstate.reconciled.total⟩

/-- A run in which one dollar is paid from a hundred. -/
def dollarRun : List Action :=
  [.openAccount 1 "USD" hundredDollars, .openAccount 2 "USD" .zero,
    .transfer .default "" oneDollar]

/-- The books agree after this run. -/
theorem books_agree_after_dollar :
    AmountsFit dollarRun ∧
    (∀ account, ((runAll dollarRun).tables.accounts.find? account).map
        (fun a => a.balance.toRat) =
      (openingOf (openingsOf dollarRun) account).map fun o =>
        o.toRat + moved (runAll dollarRun).tables account) ∧
    ((runAll dollarRun).tables.accounts.rows.map fun a => a.balance.toRat).sum =
      ((openingsOf dollarRun).map Decimal.toRat).sum := by
  have hfit : AmountsFit dollarRun := by decide +kernel
  exact ⟨hfit, books_agree dollarRun hfit⟩

end FundsTransfer.Rehearsal
