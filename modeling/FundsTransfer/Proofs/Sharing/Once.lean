import FundsTransfer.Proofs.Rehearsal.Deciding
import FundsTransfer.Proofs.Rehearsal.Reachable
import FundsTransfer.Proofs.Sharing.Publishing

/-!
# Once per reference number

A caller who does not know whether a transfer went through makes it again with the same
reference number.  Whatever becomes of the calls that were made, of those with one
reference number one at most moves its amount, and this one is told so.

No index guards reference numbers.  A unit of work looks for the number in its own copy
of the tables, and a rollback forgets the copy with the number in it.  So the reason is
the order in which units of work are published: each starts from what the one before it
left, where it would find the number if it were in use.
-/

namespace FundsTransfer

open Memory Memory.Tables

namespace TransferCall

/-- The movement of a call. -/
def Moves (call : TransferCall) (t t' : Tables) (_ : TransferResult) : Prop :=
  Carried call.params call.reference t t'

/-- A call moves its amount in the one unit of work that it opens. -/
theorem transacts (call : TransferCall) :
    call.job.Transacts Answered Tables.Intact call.Moves none := by
  refine transfer_transacts _ _ _ fun v r t t' hvalid _ hends => ?_
  obtain ⟨-, hne, rate, -, rfl⟩ := TransferParams.of_validate hvalid
  exact carried_of_ends hne hends

end TransferCall

namespace Sharing

variable {ι : Type} {α : ι → Type}

/-- A task that has nothing to do but to return a value. -/
def Task.Succeeds {β : Type} (task : Task β) : Prop :=
  ∃ job a, task = ⟨.ready job, none⟩ ∧ job.Returns (.ok a)

/-- A task that was not dropped succeeds exactly when it has published. -/
theorem Underway.succeeds_iff {β : Type} {post : Tables → Tables → β → Prop} {c : Tables}
    {published : Prop} {task : Task β} (h : Underway post c published task)
    (hgone : task.stage ≠ .gone) : published ↔ task.Succeeds := by
  cases h with
  | closed hpublished hjob =>
      refine ⟨fun h => absurd h hpublished, ?_⟩
      rintro ⟨job, a, heq, hreturns⟩
      cases heq
      exact absurd hreturns hjob.not_returns_ok
  | waiting hpublished hjob =>
      refine ⟨fun h => absurd h hpublished, ?_⟩
      rintro ⟨job, a, heq, -⟩
      cases heq
  | opened hpublished hjob =>
      refine ⟨fun h => absurd h hpublished, ?_⟩
      rintro ⟨job, a, heq, -⟩
      cases heq
  | returned hpublished hjob =>
      rw [hpublished]
      constructor
      · rintro ⟨a, rfl⟩
        exact ⟨_, a, rfl, hjob⟩
      · rintro ⟨job, a, heq, hreturns⟩
        cases heq
        exact ⟨a, hjob.unique hreturns⟩
  | gone => exact absurd rfl hgone

variable [DecidableEq ι] {post : (i : ι) → Tables → Tables → α i → Prop} {t₀ : Tables}

/-- A task that does not write directly is gone only when it was dropped. -/
theorem Underway.dropped {β : Type} {i : ι} {s s' : Store ι} {task task' : Task β} {e : Event}
    {post : Tables → Tables → β → Prop} {c : Tables} {published : Prop}
    (hu : Underway post c published task) (h : Act i s task e s' task')
    (hgone : task'.stage = .gone) : e = .dropped := by
  cases h with
  | dropped => rfl
  | wrote => cases hu
  | _ => cases hgone

theorem History.dropped_of_gone {s₀ s : System ι α} {es : Trace ι} (h : History s₀ es s)
    (hs : s₀.Published post t₀ []) (hstart : ∀ i, (s₀.task i).stage ≠ .gone) :
    ∀ i, (s.task i).stage = .gone → (i, Event.dropped) ∈ es := by
  refine (h.preserves (I := fun es s => s.Published post t₀ es ∧
    ∀ i, (s.task i).stage = .gone → (i, Event.dropped) ∈ es)
    (fun {es s i e store task} hact hI => ?_)
    (fun hI => ⟨{ hI.1 with sound := { hI.1.sound with } }, hI.2⟩)
    ⟨hs, fun i hi => absurd hi (hstart i)⟩).2
  refine ⟨hI.1.act hact, fun j hj => ?_⟩
  by_cases hji : j = i
  · subst hji
    rw [System.task_update_self] at hj
    rw [(hI.1.tasks j).dropped hact hj]
    exact List.mem_cons_self
  · rw [System.task_update_of_ne hji] at hj
    exact List.mem_cons_of_mem _ (hI.2 j hj)

end Sharing

/-! ## Calls that share a store -/

section Calls

variable {ι : Type} {calls : ι → TransferCall} {t₀ t : Tables} {order : List ι}

/-- Movements one after another use different reference numbers, and none that was in use. -/
structure InTurn (calls : ι → TransferCall) (t₀ : Tables) (order : List ι) (t : Tables) : Prop where
  uses (r : String) : t.Uses r ↔ t₀.Uses r ∨ ∃ i ∈ order, (calls i).reference = r
  unused : ∀ i ∈ order, ¬ t₀.Uses (calls i).reference
  once : ∀ i ∈ order, ∀ j ∈ order, (calls i).reference = (calls j).reference → i = j
  balances : Shifts (fun account => order.flatMap fun i => (calls i).params.deltas account) t₀ t

theorem inTurn_of_posts (h : Sharing.Posts (fun i => (calls i).Moves) t₀ order t) :
    InTurn calls t₀ order t := by
  induction h with
  | none => exact ⟨fun r => by simp, nofun, nofun, Shifts.none rfl⟩
  | @next order i a t t' _ hpost ih =>
      obtain ⟨hunused, huses, hbalances⟩ := hpost
      obtain ⟨hstart, hothers⟩ := not_or.1 ((ih.uses _).not.1 hunused)
      have hfresh : ∀ j ∈ order, (calls j).reference ≠ (calls i).reference :=
        fun j hj heq => hothers ⟨j, hj, heq⟩
      refine ⟨fun r => ?_, fun j hj => ?_, fun j hj k hk heq => ?_, ?_⟩
      · rw [huses, ih.uses, or_assoc]
        simp only [List.mem_append, List.mem_singleton, or_and_right, exists_or, exists_eq_left,
          eq_comm (a := r)]
      · rcases List.mem_append.1 hj with hj | hj
        · exact ih.unused j hj
        · exact List.mem_singleton.1 hj ▸ hstart
      · rcases List.mem_append.1 hj with hj | hj
        · rcases List.mem_append.1 hk with hk | hk
          · exact ih.once j hj k hk heq
          · exact absurd (List.mem_singleton.1 hk ▸ heq) (hfresh j hj)
        · rcases List.mem_append.1 hk with hk | hk
          · exact absurd (List.mem_singleton.1 hj ▸ heq).symm (hfresh k hk)
          · rw [List.mem_singleton.1 hj, List.mem_singleton.1 hk]
      · convert ih.balances.trans hbalances using 2 with account
        simp

variable [DecidableEq ι]

theorem TransferCall.published_start (calls : ι → TransferCall) {tables : Tables}
    (htables : tables.Intact) (probes : Probes) :
    (TransferCall.sharing calls tables probes).Published (fun i => (calls i).Moves) tables [] where
  sound := Sharing.System.Fresh.sound ⟨rfl, fun _ => rfl, fun _ _ => nofun⟩ htables
  tasks i := .closed List.not_mem_nil (calls i).transacts
  nodup := List.nodup_nil
  tables := .none

/-- What became of calls that share a store, and of the reference numbers that came with them. -/
structure OncePerReference (calls : ι → TransferCall) (t₀ : Tables) (es : Sharing.Trace ι)
    (s : Sharing.System ι fun _ => TransferResult) : Prop where
  /-- No two transactions carry one reference number. -/
  unique : ∀ id id' row row', s.store.tables.transactions.find? id = some row →
    s.store.tables.transactions.find? id' = some row' → row.reference = row'.reference → id = id'
  /-- No call publishes twice. -/
  nodup : (Sharing.publishers es).Nodup
  /-- Of the calls with one reference number, one at most publishes. -/
  once : ∀ i ∈ Sharing.publishers es, ∀ j ∈ Sharing.publishers es,
    (calls i).reference = (calls j).reference → i = j
  /-- A call that was not dropped succeeds exactly when it has published. -/
  succeeds : ∀ i, (i, .dropped) ∉ es → (i ∈ Sharing.publishers es ↔ (s.task i).Succeeds)
  /-- A reference number that a caller supplied is in use exactly when it was so before, or when a
  call that came with it has published. -/
  uses : ∀ i r, (calls i).params.reference = some r → (s.store.tables.Uses r ↔
    t₀.Uses r ∨ ∃ j ∈ Sharing.publishers es, (calls j).params.reference = some r)
  /-- Nothing is published under a reference number that was in use before. -/
  unused : ∀ i ∈ Sharing.publishers es, ¬ t₀.Uses (calls i).reference
  /-- Every balance has the amounts of the published calls added, each of them once. -/
  balances : Shifts (fun account =>
    (Sharing.publishers es).flatMap fun i => (calls i).params.deltas account) t₀ s.store.tables

theorem TransferCall.oncePerReference {tables : Tables} (htables : tables.Intact)
    {probes : Probes}
    (hgenerated : ∀ i j, i ≠ j → (calls i).params.reference = none →
      (calls i).generated ≠ (calls j).reference)
    {es : Sharing.Trace ι} {s : Sharing.System ι fun _ => TransferResult}
    (h : Sharing.History (TransferCall.sharing calls tables probes) es s) :
    OncePerReference calls tables es s := by
  have hstart := TransferCall.published_start calls htables probes
  have hpublished := h.published hstart
  have hturn := inTurn_of_posts hpublished.tables
  have hgone := h.dropped_of_gone hstart fun i => nofun
  refine ⟨hpublished.sound.tables.reference_unique, hpublished.nodup, hturn.once, fun i hi => ?_,
    fun i r hi => ?_, hturn.unused, hturn.balances⟩
  · exact (hpublished.tasks i).succeeds_iff fun hstage => hi (hgone i hstage)
  · rw [hturn.uses]
    refine or_congr_right (exists_congr fun j => and_congr_right fun _ => ⟨fun hj => ?_, ?_⟩)
    · -- the number of a call that came without one is the number of no other call
      by_cases hji : j = i
      · rw [hji, hi]
      · cases hsupplied : (calls j).params.reference with
        | some r' => rw [← hj, reference_of_supplied hsupplied]
        | none =>
            refine absurd ?_ (hgenerated j i hji hsupplied)
            rw [reference_of_supplied hi, ← hj, reference, hsupplied]
            rfl
    · exact reference_of_supplied

end Calls

namespace Rehearsal

variable {w : World} {call : TransferCall}

/-- A transfer whose reference number is in use is refused. -/
theorem call_duplicate {r : String} (hw : w.Undisturbed) (hlock : w.LockHeld false)
    (hintact : w.tables.Intact) (hvalid : call.Valid)
    (hreference : call.params.reference = some r) (hused : w.tables.Uses r)
    (hsender : w.tables.accounts.contains call.params.sender = true)
    (hreceiver : w.tables.accounts.contains call.params.receiver = true) (pauses : Nat) :
    ∃ p, Rehearsal.call w call.job pauses =
      (.error (.storage .createTransaction (.uniqueViolation ("reference number " ++ r))),
        { w with probes := p }) := by
  obtain ⟨v, hvalid⟩ := hvalid
  have hrefused : creationRefusal? w.tables call.params call.reference =
      some (.storage .createTransaction (.uniqueViolation ("reference number " ++ r))) := by
    rw [TransferCall.reference_of_supplied hreference]
    simp [creationRefusal?, hsender, hreceiver, hintact.uses_iff.1 hused]
  have hcomes := TransferCall.comes_of_valid hintact.toWellFormed hw.faults hvalid
  rw [TransferCall.hindrance?_of_valid hvalid, hindrance?, hrefused] at hcomes
  obtain ⟨_, ⟨t, p⟩, hyields, hp, rfl⟩ := hcomes
  exact ⟨p, call_transfer_settled (r := .error _) hw hlock hp hvalid hyields pauses⟩

/-- Whatever becomes of transfers that share a store, with any faults, deadlines and interruptions
and in any interleaving, each reference number is used at most once, by a call that succeeds, and
the balances show it once.  Whoever comes later with a number that is in use is refused, and nothing
is changed. -/
theorem reference_used_once (hw : Reachable w) :
    (∀ {ι : Type} [DecidableEq ι] (calls : ι → TransferCall),
      (∀ i j, i ≠ j → (calls i).params.reference = none →
        (calls i).generated ≠ (calls j).reference) →
      ∀ es s, Sharing.History (TransferCall.sharing calls w.tables w.probes) es s →
        OncePerReference calls w.tables es s) ∧
    ∀ (call : TransferCall) (r : String) (pauses : Nat), w.Undisturbed → w.LockHeld false →
      call.Valid → call.params.reference = some r → w.tables.Uses r →
      w.tables.accounts.contains call.params.sender = true →
      w.tables.accounts.contains call.params.receiver = true →
        ∃ e p, Rehearsal.call w call.job pauses = (.error e, { w with probes := p }) ∧
          e.code = "DUPLICATE_REFERENCE" ∧ e.httpStatus = 409 ∧ e.isRetryable = false := by
  refine ⟨fun calls hgenerated es s h => ?_,
    fun call r pauses hquiet hlock hvalid hreference hused hsender hreceiver => ?_⟩
  · exact TransferCall.oncePerReference hw.intact hgenerated h
  · obtain ⟨p, hcall⟩ := call_duplicate hquiet hlock hw.intact hvalid hreference hused hsender
      hreceiver pauses
    exact ⟨_, p, hcall, rfl, rfl, rfl⟩

/-- A dollar that is asked for twice with one reference number. -/
def twice (_ : Bool) : TransferCall :=
  ⟨.default, "", { oneDollar with reference := some "R-2" }⟩

/-- Both calls take turns, where a dollar was paid before. -/
def twiceRun : Sharing.Trace Bool × Sharing.System Bool fun _ => TransferResult :=
  Sharing.play (TransferCall.sharing twice dollarPaid.2.tables dollarPaid.2.probes)
    (List.replicate 60 [true, false]).flatten

/-- One of the two calls pays the dollar, and nobody pays the first dollar again. -/
theorem dollar_paid_once :
    (Sharing.publishers twiceRun.1 = [false] ∧
      OncePerReference twice dollarPaid.2.tables twiceRun.1 twiceRun.2) ∧
    ∃ e p, Rehearsal.call dollarPaid.2 (TransferCall.job ⟨.default, "", oneDollar⟩) 0 =
        (.error e, { dollarPaid.2 with probes := p }) ∧
      e.code = "DUPLICATE_REFERENCE" ∧ e.httpStatus = 409 ∧ e.isRetryable = false := by
  have hreachable : Reachable dollarPaid.2 :=
    .call _ 0 (reachable_twoAccounts hundredDollars .zero)
  have hquiet : dollarPaid.2.Undisturbed := by
    refine ⟨by decide +kernel, fun point => ?_⟩
    revert point
    have hall : ∀ point ∈ FaultPoint.all, dollarPaid.2.probes.countdown point = 0 := by
      decide +kernel
    exact fun point => hall point (by cases point <;> decide)
  have hlock : dollarPaid.2.LockHeld false :=
    ⟨by decide +kernel, by decide +kernel, by decide +kernel⟩
  have hvalid : TransferCall.Valid ⟨.default, "", oneDollar⟩ := by
    have hok : oneDollar.validate.isOk = true := by decide +kernel
    cases hv : oneDollar.validate with
    | ok v => exact ⟨v, hv⟩
    | error e =>
        rw [hv] at hok
        cases hok
  have hused : dollarPaid.2.tables.Uses "R-1" :=
    hreachable.intact.uses_iff.2 (by decide +kernel)
  obtain ⟨hshared, hlater⟩ := reference_used_once hreachable
  refine ⟨⟨by decide +kernel, hshared twice (fun _ _ _ h => nomatch h) _ _ ?_⟩, ?_⟩
  · exact (Sharing.run_play _ _).history
  · exact hlater _ "R-1" 0 hquiet hlock hvalid rfl hused (by decide +kernel) (by decide +kernel)

end Rehearsal

end FundsTransfer
