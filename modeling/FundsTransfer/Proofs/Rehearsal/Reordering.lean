import FundsTransfer.Proofs.Decimal.Exact
import FundsTransfer.Proofs.Rehearsal.Deciding
import FundsTransfer.Proofs.Rehearsal.Reachable
import FundsTransfer.Proofs.Sharing.Balances
import Mathlib.Algebra.BigOperators.Group.List.Basic

/-!
# Transfers in another order

Transfers that are made one after another, each with a reference number of its own, do
not get in each other's way.  Whether a transfer is refused is decided by its accounts
and by its reference number, and the transfers before it change neither.  What it moves
is added to what the others moved.

The sums are another matter.  A sum of decimals depends on the order when it is rounded,
and there is none when it is too large.  `Room` says that neither happens: whatever part
of the amounts is added to a balance, the digits fit at one scale.
-/

namespace FundsTransfer

open Memory Memory.Tables

variable {t t' : Tables}

/-! ## What transfers do not change -/

/-- Whether an account is open, if it is there. -/
def Memory.Tables.activity (t : Tables) (id : Int) : Option Bool :=
  (t.accounts.find? id).map Account.isActive

/-- An account is there, and it is open. -/
def Memory.Tables.Open (t : Tables) (id : Int) : Prop := t.activity id = some true

theorem activity_of_change {now : Timestamp} {q : Query} (h : Change now q t t') :
    t'.activity = t.activity := by
  cases h with
  | balance hold hsum =>
      funext account
      simp only [activity, Table.find?_put]
      split
      · rename_i haccount
        rw [haccount, hold]
        rfl
      · rfl
  | _ => rfl

/-- Whatever the clock says meanwhile, work leaves accounts as open as they were. -/
theorem activity_of_ends {α : Type} {w : Work α} {o : Outcome α} {A : Answering Tables}
    (hA : ∀ {t q r t'}, A t q r t' → ∃ now, Answers now t q r t') (h : w.Ends A t o t') :
    t'.activity = t.activity := by
  refine (h.refines (I := fun t₁ => t₁.activity = t.activity) (B := A)
    (fun ht hanswers => ?_) rfl).2
  obtain ⟨now, hgives⟩ := hA hanswers
  exact ⟨hanswers, (activity_of_change (change_of_gives hgives)).trans ht⟩

/-- A balance that gains twice gains the sum. -/
theorem gains_trans {t'' : Tables} {account : Int} {x y : Rat}
    (h : (t'.balance? account).map Decimal.toRat =
      (t.balance? account).map fun b => b.toRat + x)
    (h' : (t''.balance? account).map Decimal.toRat =
      (t'.balance? account).map fun b => b.toRat + y) :
    (t''.balance? account).map Decimal.toRat =
      (t.balance? account).map fun b => b.toRat + (x + y) := by
  have hsum := congrArg (Option.map (· + y)) h
  rw [Option.map_map, Option.map_map] at hsum
  refine h'.trans (hsum.trans ?_)
  congr 1
  funext b
  exact add_assoc _ _ _

/-- Why a transfer is refused does not depend on anything else. -/
theorem refusal?_congr {params : TransferParams} {reference : String}
    (hactivity : t'.activity = t.activity)
    (hreference : t'.hasReference reference = t.hasReference reference) :
    refusal? t' params reference = refusal? t params reference := by
  have hcontains : ∀ id, t'.accounts.contains id = t.accounts.contains id := by
    intro id
    have h := congrArg Option.isSome (congrFun hactivity id)
    simpa [activity, Table.contains] using h
  have hopen : ∀ id, isOpen t'.accounts id = isOpen t.accounts id := by
    intro id
    have h := congrArg (Option.any fun active => active) (congrFun hactivity id)
    simpa [activity, isOpen, Option.any_map] using h
  simp only [refusal?, creationRefusal?, closedRefusal?, hcontains, hopen, hreference]

namespace TransferCall

/-- Why a call is refused where nothing disturbs, if it is. -/
def refusal? (call : TransferCall) (t : Tables) : Option TransferError :=
  match call.params.validate with
  | .error e => some e
  | .ok _ => FundsTransfer.refusal? t call.params call.reference

/-- What a call can add to a balance or take from it, at most.  An amount that is not positive is
refused, and moves nothing. -/
def size (call : TransferCall) : Rat := max call.params.amount.toRat 0

/-- What a call adds to the balance of an account, on tables from which it starts. -/
def gain (call : TransferCall) (t : Tables) (account : Int) : Rat :=
  match call.refusal? t with
  | some _ => 0
  | none => ((call.params.deltas account).map Decimal.toRat).sum

theorem size_nonneg (call : TransferCall) : 0 ≤ call.size := le_max_right _ _

theorem refusal?_congr {call : TransferCall} (hactivity : t'.activity = t.activity)
    (hreference : t'.hasReference call.reference = t.hasReference call.reference) :
    call.refusal? t' = call.refusal? t := by
  unfold refusal?
  cases call.params.validate with
  | error e => rfl
  | ok v => exact FundsTransfer.refusal?_congr hactivity hreference

theorem gain_congr {call : TransferCall} (h : call.refusal? t' = call.refusal? t) :
    call.gain t' = call.gain t := by
  funext account
  rw [gain, gain, h]

theorem valid_of_refusal? {call : TransferCall} (h : call.refusal? t = none) : call.Valid := by
  unfold refusal? at h
  cases hv : call.params.validate with
  | error e =>
      rw [hv] at h
      cases h
  | ok v => exact ⟨v, hv⟩

theorem Valid.isPositive {call : TransferCall} (h : call.Valid) :
    call.params.amount.isPositive = true := by
  obtain ⟨v, hv⟩ := h
  exact (TransferParams.of_validate hv).1

/-- What a call moves when it succeeds. -/
theorem carried_of_work {call : TransferCall} {v : ValidTransfer} {r : TransferResult}
    (ht : t.Intact) (hvalid : call.params.validate = .ok v)
    (h : (call.work v).Ends (Answers .epoch) t (.ok r) t') :
    Carried call.params call.reference t t' ∧ t'.activity = t.activity := by
  refine ⟨?_, activity_of_ends (fun hanswers => ⟨_, hanswers⟩) h⟩
  obtain ⟨-, hne, rate, -, rfl⟩ := TransferParams.of_validate hvalid
  exact carried_of_ends hne (answered_of_ends ht h)

/-- A call whose sums can be made breaks off at what the engine finds against it. -/
theorem hindrance?_of_affords {call : TransferCall}
    (haffords : call.Valid → Affords t.accounts call.params) :
    call.hindrance? t = (call.refusal? t).map .refused := by
  unfold hindrance? refusal?
  cases hv : call.params.validate with
  | error e => rfl
  | ok v =>
      obtain ⟨-, hne, -⟩ := TransferParams.of_validate hv
      exact FundsTransfer.hindrance?_of_affords hne (haffords ⟨v, hv⟩)

end TransferCall

/-! ## Room for all amounts -/

/-- Whatever part of the amounts of some calls is added to a balance or taken from it, the digits
fit at a scale. -/
structure Room (k : Nat) (t : Tables) (calls : List TransferCall) : Prop where
  balances : ∀ account b, t.balance? account = some b → b.scale ≤ k
  amounts : ∀ call ∈ calls, call.params.amount.isPositive = true → call.params.amount.scale ≤ k
  bound : ∀ account b, t.balance? account = some b →
    (|b.toRat| + (calls.map TransferCall.size).sum) * 10 ^ k < 2 ^ 96

theorem TransferParams.mem_deltas {p : TransferParams} {account : Int} {delta : Decimal}
    (h : delta ∈ p.deltas account) : delta = p.amount ∨ delta = p.amount.negate := by
  unfold deltas at h
  split at h
  · exact .inr (List.mem_singleton.1 h)
  split at h
  · exact .inl (List.mem_singleton.1 h)
  · exact absurd h List.not_mem_nil

/-- An account has one delta at most. -/
theorem TransferParams.deltas_cases (p : TransferParams) (account : Int) :
    p.deltas account = [] ∨ ∃ delta, p.deltas account = [delta] := by
  unfold deltas
  split
  · exact .inr ⟨_, rfl⟩
  split
  · exact .inr ⟨_, rfl⟩
  · exact .inl rfl

namespace Room

variable {k : Nat} {call : TransferCall} {rest : List TransferCall}

theorem sum_size_nonneg (calls : List TransferCall) : 0 ≤ (calls.map TransferCall.size).sum := by
  refine List.sum_nonneg fun x hx => ?_
  obtain ⟨call, -, rfl⟩ := List.mem_map.1 hx
  exact call.size_nonneg

/-- The sum that a call needs can be made, and it is exact. -/
theorem exists_sum (h : Room k t (call :: rest)) (hvalid : call.Valid) {account : Int}
    {b delta : Decimal} (hb : t.balance? account = some b)
    (hdelta : delta ∈ call.params.deltas account) :
    |delta.toRat| ≤ call.size ∧
      ∃ sum, b.add? delta = some sum ∧ sum.toRat = b.toRat + delta.toRat ∧ sum.scale ≤ k := by
  have hpositive := hvalid.isPositive
  have habs : |delta.toRat| = call.params.amount.toRat := by
    have hnonneg := Decimal.toRat_nonneg_of_isPositive hpositive
    obtain rfl | rfl := TransferParams.mem_deltas hdelta
    · exact abs_of_nonneg hnonneg
    · rw [Decimal.toRat_negate, abs_neg, abs_of_nonneg hnonneg]
  have hscale : delta.scale ≤ k := by
    have hamount := h.amounts call List.mem_cons_self hpositive
    obtain rfl | rfl := TransferParams.mem_deltas hdelta
    · exact hamount
    · exact hamount
  have hsize : |delta.toRat| ≤ call.size := habs ▸ le_max_left _ _
  have hbound := h.bound account b hb
  rw [List.map_cons, List.sum_cons] at hbound
  refine ⟨hsize, Decimal.exists_add?_of_lt (h.balances account b hb) hscale ?_⟩
  calc |b.toRat + delta.toRat| * 10 ^ k
      ≤ (|b.toRat| + (call.size + (rest.map TransferCall.size).sum)) * 10 ^ k := by
        refine mul_le_mul_of_nonneg_right ?_ (by positivity)
        linarith [abs_add_le b.toRat delta.toRat, sum_size_nonneg rest]
    _ < 2 ^ 96 := hbound

theorem affords (h : Room k t (call :: rest)) (hvalid : call.Valid) :
    Affords t.accounts call.params := by
  intro account a ha delta hdelta
  have hb : t.balance? account = some a.balance := by rw [balance?, ha]; rfl
  obtain ⟨-, sum, hsum, -⟩ := h.exists_sum hvalid hb hdelta
  exact ⟨sum, hsum⟩

/-- A call that is refused leaves room for the others. -/
theorem refused (h : Room k t (call :: rest)) : Room k t rest where
  balances := h.balances
  amounts c hc := h.amounts c (List.mem_cons_of_mem _ hc)
  bound account b hb := by
    refine lt_of_le_of_lt ?_ (h.bound account b hb)
    rw [List.map_cons, List.sum_cons]
    refine mul_le_mul_of_nonneg_right ?_ (by positivity)
    linarith [call.size_nonneg]

/-- After a call that went through, every balance has its exact value. -/
theorem shifted (h : Room k t (call :: rest)) (hvalid : call.Valid)
    (hshifts : Shifts call.params.deltas t t') (account : Int) :
    t.balance? account = none ∧ t'.balance? account = none ∨
      ∃ b b', t.balance? account = some b ∧ t'.balance? account = some b' ∧ b'.scale ≤ k ∧
        b'.toRat = b.toRat + ((call.params.deltas account).map Decimal.toRat).sum ∧
        |b'.toRat| ≤ |b.toRat| + call.size := by
  have hafter := hshifts account
  cases hb : t.balance? account with
  | none =>
      rw [hb] at hafter
      exact .inl ⟨rfl, hafter⟩
  | some b =>
      rw [hb, Option.bind_some] at hafter
      refine .inr ⟨b, ?_⟩
      obtain hnil | ⟨delta, hone⟩ := call.params.deltas_cases account
      · rw [hnil] at hafter ⊢
        refine ⟨b, rfl, hafter, h.balances account b hb, ?_, ?_⟩
        · simp
        · linarith [call.size_nonneg]
      · have hdelta : delta ∈ call.params.deltas account := hone ▸ List.mem_singleton_self delta
        obtain ⟨hsize, sum, hsum, hexact, hscale⟩ := h.exists_sum hvalid hb hdelta
        rw [hone] at hafter ⊢
        refine ⟨sum, rfl, ?_, hscale, ?_, ?_⟩
        · rw [hafter, List.foldlM_cons, hsum]
          rfl
        · simpa using hexact
        · rw [hexact]
          linarith [abs_add_le b.toRat delta.toRat]

theorem value (h : Room k t (call :: rest)) (hvalid : call.Valid)
    (hshifts : Shifts call.params.deltas t t') (account : Int) :
    (t'.balance? account).map Decimal.toRat = (t.balance? account).map fun b =>
      b.toRat + ((call.params.deltas account).map Decimal.toRat).sum := by
  obtain ⟨hbefore, hafter⟩ | ⟨b, b', hbefore, hafter, -, hvalue, -⟩ :=
    h.shifted hvalid hshifts account
  · rw [hbefore, hafter]
    rfl
  · rw [hbefore, hafter, Option.map_some, Option.map_some, hvalue]

/-- A call that went through leaves room for the others. -/
theorem carried (h : Room k t (call :: rest)) (hvalid : call.Valid)
    (hshifts : Shifts call.params.deltas t t') : Room k t' rest where
  balances account b' hb' := by
    obtain ⟨-, hnone⟩ | ⟨b, b'', -, hafter, hscale, -⟩ := h.shifted hvalid hshifts account
    · rw [hnone] at hb'
      cases hb'
    · rw [hafter] at hb'
      exact Option.some.inj hb' ▸ hscale
  amounts c hc := h.amounts c (List.mem_cons_of_mem _ hc)
  bound account b' hb' := by
    obtain ⟨-, hnone⟩ | ⟨b, b'', hb, hafter, -, -, hle⟩ := h.shifted hvalid hshifts account
    · rw [hnone] at hb'
      cases hb'
    · rw [hafter] at hb'
      rw [← Option.some.inj hb']
      refine lt_of_le_of_lt ?_ (h.bound account b hb)
      rw [List.map_cons, List.sum_cons]
      refine mul_le_mul_of_nonneg_right ?_ (by positivity)
      linarith

theorem perm {calls calls' : List TransferCall} (h : Room k t calls) (hperm : calls'.Perm calls) :
    Room k t calls' where
  balances := h.balances
  amounts c hc := h.amounts c (hperm.mem_iff.1 hc)
  bound account b hb := by
    rw [(hperm.map _).sum_eq]
    exact h.bound account b hb

end Room

namespace Rehearsal

/-! ## One call -/

/-- How a call ended, as far as a caller can act on it. -/
inductive Verdict where
  /-- With a value. -/
  | ok
  /-- With an error that has this word. -/
  | error (code : String)
  /-- With a sum that no decimal holds. -/
  | overflow
  /-- Not within the hour. -/
  | blocked
deriving DecidableEq

/-- The verdict on a call. -/
def CallEnd.verdict {α : Type} : CallEnd α → Verdict
  | .ok _ => .ok
  | .error e => .error e.code
  | .overflow => .overflow
  | .blocked => .blocked

/-- The verdict on a call that was refused for a reason, if there was one. -/
def Verdict.ofRefusal : Option TransferError → Verdict
  | some e => .error e.code
  | none => .ok

/-- Such a call ended with a value or with an error. -/
theorem CallEnd.ended_of_verdict {α : Type} {r : CallEnd α} {refusal : Option TransferError}
    (h : r.verdict = .ofRefusal refusal) : (∃ a, r = .ok a) ∨ ∃ e, r = .error e := by
  cases r with
  | ok a => exact .inl ⟨a, rfl⟩
  | error e => exact .inr ⟨e, rfl⟩
  | overflow =>
      cases refusal with
      | none => cases h
      | some e => cases h
  | blocked =>
      cases refusal with
      | none => cases h
      | some e => cases h

/-- What becomes of a call that nothing disturbs, and of the tables. -/
inductive Settles (call : TransferCall) (t : Tables) : CallEnd TransferResult → Tables → Prop where
  | refused (hrefusal : call.refusal? t = some e) : Settles call t (.error e) t
  | carried {t' : Tables} (hrefusal : call.refusal? t = none)
      (hcarried : Carried call.params call.reference t t') (hactivity : t'.activity = t.activity) :
      Settles call t (.ok a) t'

variable {w : World} {call : TransferCall} {k : Nat} {rest : List TransferCall}

theorem call_settles (hw : Reachable w) (hquiet : w.Undisturbed) (hlock : w.LockHeld false)
    (haffords : call.Valid → Affords w.tables.accounts call.params) (pauses : Nat) :
    ∃ r w', Rehearsal.call w call.job pauses = (r, w') ∧ w'.Undisturbed ∧ w'.LockHeld false ∧
      Settles call w.tables r w'.tables := by
  obtain ⟨r, w', t', hcall, ⟨rfl, -, hquiet', hlock'⟩, hturns⟩ :=
    call_turnsOut call ⟨rfl, hw.wellFormed, hquiet, hlock⟩ pauses
  refine ⟨r, w', hcall, hquiet', hlock', ?_⟩
  have hhindrance := TransferCall.hindrance?_of_affords haffords
  generalize w'.tables = t' at hturns
  cases hturns with
  | refused h =>
      obtain ⟨e, hrefusal, ⟨⟩⟩ := Option.map_eq_some_iff.1 (hhindrance.symm.trans h)
      exact .refused hrefusal
  | overflowed h =>
      obtain ⟨e, -, ⟨⟩⟩ := Option.map_eq_some_iff.1 (hhindrance.symm.trans h)
  | succeeded h hvalid hends =>
      have hrefusal := Option.map_eq_none_iff.1 (hhindrance.symm.trans h)
      obtain ⟨hcarried, hactivity⟩ := TransferCall.carried_of_work hw.intact hvalid hends
      exact .carried hrefusal hcarried hactivity

namespace Settles

variable {r : CallEnd TransferResult}

theorem activity (h : Settles call t r t') : t'.activity = t.activity := by
  cases h with
  | refused => rfl
  | carried _ _ hactivity => exact hactivity

theorem uses (h : Settles call t r t') {reference : String} (hne : reference ≠ call.reference) :
    t'.Uses reference ↔ t.Uses reference := by
  cases h with
  | refused => exact Iff.rfl
  | carried _ hcarried _ => rw [hcarried.uses, or_iff_left hne]

/-- A call with another reference number is none the worse. -/
theorem refusal?_eq (h : Settles call t r t') (ht : t.Intact) (ht' : t'.Intact)
    {other : TransferCall} (hne : other.reference ≠ call.reference) :
    other.refusal? t' = other.refusal? t := by
  refine TransferCall.refusal?_congr h.activity ?_
  rw [Bool.eq_iff_iff, ← ht.uses_iff, ← ht'.uses_iff]
  exact h.uses hne

theorem verdict (h : Settles call t r t') : r.verdict = .ofRefusal (call.refusal? t) := by
  cases h with
  | refused hrefusal =>
      rw [hrefusal]
      rfl
  | carried hrefusal _ _ =>
      rw [hrefusal]
      rfl

theorem room (h : Settles call t r t') (hroom : Room k t (call :: rest)) : Room k t' rest := by
  cases h with
  | refused => exact hroom.refused
  | carried hrefusal hcarried _ =>
      exact hroom.carried (TransferCall.valid_of_refusal? hrefusal) hcarried.balances

theorem balance (h : Settles call t r t') (hroom : Room k t (call :: rest)) (account : Int) :
    (t'.balance? account).map Decimal.toRat =
      (t.balance? account).map fun b => b.toRat + call.gain t account := by
  cases h with
  | refused hrefusal => simp only [TransferCall.gain, hrefusal, add_zero]
  | carried hrefusal hcarried _ =>
      simp only [TransferCall.gain, hrefusal]
      exact hroom.value (TransferCall.valid_of_refusal? hrefusal) hcarried.balances account

end Settles

/-! ## One call after another -/

/-- Calls that are made one after another, with how each of them ended. -/
def callAll (w : World) :
    List TransferCall → List (TransferCall × CallEnd TransferResult) × World
  | [] => ([], w)
  | call :: rest =>
    let (r, w) := Rehearsal.call w call.job 0
    let (rs, w) := callAll w rest
    ((call, r) :: rs, w)

/-- A call with the verdict on it. -/
def judge (outcome : TransferCall × CallEnd TransferResult) : TransferCall × Verdict :=
  (outcome.1, outcome.2.verdict)

/-- Calls with different reference numbers come to what each of them comes to from the start. -/
theorem callAll_settles (hw : Reachable w) (hquiet : w.Undisturbed) (hlock : w.LockHeld false)
    {calls : List TransferCall} (hdistinct : (calls.map TransferCall.reference).Nodup)
    (hroom : Room k w.tables calls) :
    (callAll w calls).1.map judge =
        calls.map (fun c => (c, Verdict.ofRefusal (c.refusal? w.tables))) ∧
      ∀ account, ((callAll w calls).2.tables.balance? account).map Decimal.toRat =
        (w.tables.balance? account).map fun b =>
          b.toRat + (calls.map fun c => c.gain w.tables account).sum := by
  induction calls generalizing w with
  | nil => exact ⟨rfl, fun account => by simp [callAll]⟩
  | cons call rest ih =>
      obtain ⟨r, w', hcall, hquiet', hlock', hsettles⟩ :=
        call_settles hw hquiet hlock (fun hvalid => hroom.affords hvalid) 0
      have hw' : Reachable w' := by
        have hnext := hw.call call.job 0
        rwa [hcall] at hnext
      obtain ⟨hother, hrest⟩ := List.nodup_cons.1 hdistinct
      have hsame : ∀ c ∈ rest, c.refusal? w'.tables = c.refusal? w.tables := by
        intro c hc
        have hne : c.reference ≠ call.reference :=
          fun heq => hother (heq ▸ List.mem_map_of_mem hc)
        exact hsettles.refusal?_eq hw.intact hw'.intact hne
      obtain ⟨hverdicts, hbalances⟩ := ih hw' hquiet' hlock' hrest (hsettles.room hroom)
      have hrun : callAll w (call :: rest) =
          ((call, r) :: (callAll w' rest).1, (callAll w' rest).2) := by
        rw [callAll, hcall]
      rw [hrun]
      constructor
      · have hrest : rest.map (fun c => (c, Verdict.ofRefusal (c.refusal? w'.tables))) =
            rest.map fun c => (c, Verdict.ofRefusal (c.refusal? w.tables)) :=
          List.map_congr_left fun c hc => by rw [hsame c hc]
        rw [List.map_cons, List.map_cons, hverdicts, hrest, judge, hsettles.verdict]
      · intro account
        have hgains : rest.map (fun c => c.gain w'.tables account) =
            rest.map fun c => c.gain w.tables account :=
          List.map_congr_left fun c hc =>
            congrFun (TransferCall.gain_congr (hsame c hc)) account
        have hlater := hbalances account
        rw [hgains] at hlater
        rw [List.map_cons, List.sum_cons]
        exact gains_trans (hsettles.balance hroom account) hlater

/-- Transfers with different reference numbers may be made in any order.  Each of them ends as it
does in any other, with a value or with an error, and every balance has the same value in the
end. -/
theorem order_independent (hw : Reachable w) (hquiet : w.Undisturbed) (hlock : w.LockHeld false)
    {calls calls' : List TransferCall} (hperm : calls'.Perm calls)
    (hdistinct : (calls.map TransferCall.reference).Nodup) (hroom : Room k w.tables calls) :
    ((callAll w calls').1.map judge).Perm ((callAll w calls).1.map judge) ∧
      (∀ outcome ∈ (callAll w calls).1,
        (∃ a, outcome.2 = .ok a) ∨ ∃ e, outcome.2 = .error e) ∧
      ∀ account, ((callAll w calls').2.tables.balance? account).map Decimal.toRat =
        ((callAll w calls).2.tables.balance? account).map Decimal.toRat := by
  obtain ⟨hverdicts, hbalances⟩ := callAll_settles hw hquiet hlock hdistinct hroom
  have hdistinct' : (calls'.map TransferCall.reference).Nodup :=
    (hperm.map _).nodup_iff.2 hdistinct
  obtain ⟨hverdicts', hbalances'⟩ :=
    callAll_settles hw hquiet hlock hdistinct' (hroom.perm hperm)
  refine ⟨?_, fun outcome hmem => ?_, fun account => ?_⟩
  · rw [hverdicts, hverdicts']
    exact hperm.map _
  · have hjudged := List.mem_map_of_mem (f := judge) hmem
    rw [hverdicts] at hjudged
    obtain ⟨c, -, hc⟩ := List.mem_map.1 hjudged
    exact CallEnd.ended_of_verdict (congrArg Prod.snd hc).symm
  · rw [hbalances account, hbalances' account, (hperm.map _).sum_eq]

theorem hundred_each (account : Int) (b : Decimal)
    (h : (twoAccounts hundredDollars hundredDollars).tables.balance? account = some b) :
    b = hundredDollars := by
  have hrows : ∀ a ∈ (twoAccounts hundredDollars hundredDollars).tables.accounts.rows,
      a.balance = hundredDollars := by decide +kernel
  have hkeys := (reachable_twoAccounts hundredDollars hundredDollars).wellFormed
    |>.accounts_ascending.keys_nodup
  obtain ⟨a, hfind, rfl⟩ := Option.map_eq_some_iff.1 h
  exact hrows a ((Table.mem_rows hkeys).2 ⟨account, hfind⟩)

/-- There is room for small amounts beside two balances of a hundred dollars. -/
theorem room_hundred_each {calls : List TransferCall}
    (hamounts : ∀ call ∈ calls, call.params.amount.scale ≤ 2)
    (hsum : (|hundredDollars.toRat| + (calls.map TransferCall.size).sum) * 10 ^ 2 < 2 ^ 96) :
    Room 2 (twoAccounts hundredDollars hundredDollars).tables calls where
  balances account b hb := hundred_each account b hb ▸ Nat.le_refl 2
  amounts call hcall _ := hamounts call hcall
  bound account b hb := hundred_each account b hb ▸ hsum

/-- A dollar goes to and fro, in either order. -/
theorem crossing_in_any_order :
    ((callAll (twoAccounts hundredDollars hundredDollars)
        [crossing false, crossing true]).1.map fun outcome => outcome.2.verdict) = [.ok, .ok] ∧
      ∀ account,
        ((callAll (twoAccounts hundredDollars hundredDollars)
          [crossing true, crossing false]).2.tables.balance? account).map Decimal.toRat =
        ((callAll (twoAccounts hundredDollars hundredDollars)
          [crossing false, crossing true]).2.tables.balance? account).map Decimal.toRat := by
  have hroom : Room 2 (twoAccounts hundredDollars hundredDollars).tables
      [crossing false, crossing true] :=
    room_hundred_each (by decide +kernel) (by decide +kernel)
  obtain ⟨-, -, hbalances⟩ := order_independent
    (reachable_twoAccounts hundredDollars hundredDollars) ⟨rfl, fun _ => rfl⟩ ⟨rfl, rfl, rfl⟩
    (List.Perm.swap (crossing false) (crossing true) []) (by decide +kernel) hroom
  exact ⟨by decide +kernel, hbalances⟩

end Rehearsal

end FundsTransfer
