import FundsTransfer.Proofs.Locking.Transfers
import FundsTransfer.Proofs.Transfer.Script

/-!
# Transfers that meet at an account

A store that answers anything and locks the account of every addition lets transfers come
as far as they can.  On it a transfer comes to its lower account while it holds nothing,
and from there to its higher account while it holds the lower one.  So two transfers with
the same lower account can meet there, and the one that comes second waits for the other:
`exists_waiting`.
-/

namespace FundsTransfer

open Locking Memory

/-- A store that answers anything, and locks the account of every addition. -/
def anyLocking : RowStore balanceOf where
  answers _ own q _ own' := own' = own ∪ { k | balanceOf q = some k }
  locks h k hk := by
    rw [h] at hk
    exact hk

variable {c locked own own' : Set Int} {k : Int}

namespace anyLocking

/-! ## What the store lets happen -/

theorem free_of_none {q : Query} (h : balanceOf q = none) (r : Except StoreError q.Answer) :
    anyLocking.free c locked own q r own := by
  refine ⟨fun k hk => ?_, ?_⟩
  · rw [h] at hk
    cases hk
  · show own = own ∪ { k | balanceOf q = some k }
    rw [h]
    simp

theorem free_addBalance {account : Int} (hfree : account ∉ locked) (delta : Decimal)
    (r : Except StoreError Account) :
    anyLocking.free c locked own (.addBalance account delta) r (own ∪ {account}) := by
  refine ⟨fun k hk => ?_, ?_⟩
  · cases hk
    exact hfree
  · show own ∪ {account} = own ∪ { k | some account = some k }
    congr 1
    ext k
    simp [eq_comm]

theorem ends_require {q : Query} (h : balanceOf q = none) (f : StoreError → TransferError)
    (a : q.Answer) : (Work.require q f).Ends (anyLocking.free c locked) own (.ok a) own :=
  Work.ends_require_ok.2 (free_of_none h _)

theorem balanceOf_fetch (k : ReferenceTable) (code : String) :
    balanceOf (k.fetch code).query = none := by
  cases k with
  | _ => rfl

theorem exists_ends_resolve (k : ReferenceTable) (code : String) (hcode : code ≠ "") :
    ∃ row, (k.reference.resolve code).Ends (anyLocking.free c locked) own (.ok row) own := by
  obtain ⟨row, hrow⟩ := k.exists_codeOf code
  rw [← k.codeOf_reference] at hrow
  refine ⟨row, Reference.ends_resolve_of_found hcode hrow ?_⟩
  rw [k.fetch_reference]
  exact Question.ends_ask (free_of_none (balanceOf_fetch k code)) _

theorem exists_ends_transferReferences {currency : String} (hcurrency : currency ≠ "") :
    ∃ refs, (transferReferences currency).Ends (anyLocking.free c locked) own (.ok refs) own := by
  obtain ⟨type, htype⟩ := exists_ends_resolve .type TypeCode.transfer.text (by decide)
  obtain ⟨pending, hpending⟩ := exists_ends_resolve .status StatusCode.pending.text (by decide)
  obtain ⟨completed, hcompleted⟩ :=
    exists_ends_resolve .status StatusCode.completed.text (by decide)
  obtain ⟨row, hrow⟩ := exists_ends_resolve .currency currency hcurrency
  refine ⟨⟨pending, completed, type, row⟩, Work.ends_bind_ok.2 ⟨_, _, htype, ?_⟩⟩
  refine Work.ends_bind_ok.2 ⟨_, _, hpending, Work.ends_bind_ok.2 ⟨_, _, hcompleted, ?_⟩⟩
  exact Work.ends_bind_ok.2 ⟨_, _, hrow, rfl, rfl⟩

theorem ends_writeEntries (transaction sender receiver : Int) (amount : Decimal)
    (entries : Entry × Entry) :
    (writeEntries transaction sender receiver amount).Ends (anyLocking.free c locked) own
      (.ok entries) own := by
  refine Work.ends_bind_ok.2 ⟨entries.1, own, ends_require rfl _ _, Work.ends_emit_bind.2 ?_⟩
  refine Work.ends_bind_ok.2 ⟨entries.2, own, ends_require rfl _ _, Work.ends_emit_bind.2 ?_⟩
  exact ⟨rfl, rfl⟩

/-! ## How far a transfer comes -/

theorem canWant_applyDelta (account : Int) (delta : Decimal) :
    CanWant anyLocking c locked own (applyDelta account delta) own account := by
  intro β γ d f next
  refine ⟨_, .refl, rfl, ?_⟩
  rw [applyDelta, Work.require, Work.call_bind, Work.call_bind, Job.within]
  exact ⟨d, _, _, rfl, rfl⟩

theorem ends_applyDelta {account : Int} (hfree : account ∉ locked) (delta : Decimal) (a : Account) :
    (applyDelta account delta).Ends (anyLocking.free c locked) own (.ok a) (own ∪ {account}) :=
  Work.ends_bind_ok.2 ⟨a, _, Work.ends_require_ok.2 (free_addBalance hfree delta _), rfl, rfl⟩

/-- A transfer wants its lower account first. -/
theorem canWant_low (sender receiver : Int) (amount : Decimal) :
    CanWant anyLocking c locked own (updateBothBalances sender receiver amount) own
      (min sender receiver) := by
  obtain ⟨d, e, f, heq⟩ := updateBothBalances_eq sender receiver amount
  rw [heq]
  exact (canWant_applyDelta _ d).bind

/-- While it holds its lower account, it wants the higher one. -/
theorem canWant_high {sender receiver : Int} (hfree : min sender receiver ∉ locked)
    (amount : Decimal) :
    CanWant anyLocking c locked own (updateBothBalances sender receiver amount)
      (own ∪ {min sender receiver}) (max sender receiver) := by
  obtain ⟨d, e, f, heq⟩ := updateBothBalances_eq sender receiver amount
  rw [heq]
  exact canWant_bind_of_ends (ends_applyDelta hfree d default) (canWant_applyDelta _ e).bind

/-- What comes before the balances holds no account. -/
theorem canWant_runTransfer {t : ValidTransfer} (hcurrency : t.currency ≠ "")
    (reference description : String)
    (h : CanWant anyLocking c locked own (updateBothBalances t.sender t.receiver t.amount) own' k) :
    CanWant anyLocking c locked own (runTransfer t reference description) own' k := by
  obtain ⟨refs, hrefs⟩ := exists_ends_transferReferences hcurrency
  refine canWant_bind_of_ends hrefs ?_
  -- which rows come back does not matter, so the default ones will do
  refine canWant_bind_of_ends (ends_require rfl _ default) ?_
  refine canWant_bind_of_ends (a := ()) ⟨rfl, rfl⟩ ?_
  exact canWant_bind_of_ends (ends_writeEntries _ _ _ _ default) h.bind

end anyLocking

namespace TransferCall

open anyLocking

variable {call : TransferCall}

/-- A call that is let through comes as far as it comes with its balances. -/
theorem exists_path_of_balances (hvalid : call.Valid)
    (h : ∀ amount, CanWant anyLocking c locked ∅
      (updateBothBalances call.params.sender call.params.receiver amount) own' k) :
    ∃ t, Task.Path anyLocking c locked ⟨call.job, ∅⟩ t ∧ t.rows = own' ∧ t.Wants balanceOf k := by
  refine exists_path_of_canWant hvalid fun t reference description hs hr hcurrency => ?_
  obtain ⟨v, hv⟩ := hvalid
  have hnamed : t.currency ≠ "" := hcurrency ▸ TransferParams.currency_of_validate hv
  refine canWant_runTransfer hnamed reference description ?_
  rw [hs, hr]
  exact h t.amount

variable {ι : Type} [DecidableEq ι] {calls : ι → TransferCall}

/-- Of two calls with the same lower account, one can come to wait for the other. -/
theorem exists_waiting {i j : ι} (hne : i ≠ j) (hi : (calls i).Valid) (hj : (calls j).Valid)
    (hlow : (calls i).low = (calls j).low) (c : Set Int) :
    ∃ s, (System.start c fun i => (calls i).job).Reaches anyLocking s ∧
      s.Waits balanceOf i j := by
  -- the other call goes as far as its higher account and stays there, with the lower one locked
  have hfirst : ∃ t, Task.Path anyLocking c ∅ ⟨(calls j).job, ∅⟩ t ∧ t.rows = ∅ ∪ {(calls j).low} ∧
      t.Wants balanceOf (calls j).high :=
    exists_path_of_balances hj fun amount => canWant_high (Set.notMem_empty _) amount
  obtain ⟨t, hpath, hrows, -⟩ := hfirst
  have hsecond : ∃ t', Task.Path anyLocking c t.rows ⟨(calls i).job, ∅⟩ t' ∧ t'.rows = ∅ ∧
      t'.Wants balanceOf (calls i).low :=
    exists_path_of_balances hi fun amount => canWant_low _ _ amount
  obtain ⟨t', hpath', -, hwants⟩ := hsecond
  obtain ⟨s, hreaches, hj', hi'⟩ :=
    reaches_of_paths (fun i => (calls i).job) hne.symm hpath hpath'
  refine ⟨s, hreaches, hne, (calls i).low, ?_, ?_⟩
  · rw [hi']
    exact hwants
  · rw [hj', hrows, hlow]
    exact .inr rfl

end TransferCall

end FundsTransfer
