import FundsTransfer.Proofs.Decimal.Limits
import FundsTransfer.Proofs.Rehearsal.Racing
import FundsTransfer.Proofs.Rehearsal.Reasons
import FundsTransfer.Proofs.Transfer.Conservation
import FundsTransfer.Proofs.Transfer.Overflow

/-!
# Transfers whose sums outgrow a decimal

A transfer is meant to end with a result or with an error.  It does not when one of its two
sums outgrows a decimal.  The engine has no error for this, and the caller gets no answer.
Nothing is committed then.

`TransferCall.Overflows` says which calls these are.  Nothing speaks against such a call up
to the sum: it passes its checks, both accounts exist, its reference number is new, and the
accounts whose sums are made are open.  The lower account comes first, so the sum of the
higher one is not made when the lower account is closed.  A sum outgrows a decimal from
`Decimal.overflowThreshold` on.

`overflows_at_sum` shows that these are all: every other call ends with a result or with an
error, also with faults armed.  And where no fault is armed, these calls do overflow.
-/

namespace FundsTransfer

open Memory Memory.Tables

/-- No decimal holds the balance of an account with an amount added. -/
def Memory.Tables.Outgrown (t : Tables) (id : Int) (delta : Decimal) : Prop :=
  ∃ b, t.balance? id = some b ∧ Decimal.overflowThreshold ≤ |b.toRat + delta.toRat|

/-- Nothing speaks against a call up to a sum that no decimal holds. -/
structure TransferCall.Overflows (call : TransferCall) (t : Tables) : Prop where
  placed : call.Placed t
  unused : ∀ r, call.params.reference = some r → ¬ t.Uses r
  low : t.Open call.low
  sum : t.Outgrown call.low (call.params.delta call.low) ∨
    t.Open call.high ∧ t.Outgrown call.high (call.params.delta call.high)

namespace TransferCall

variable {call : TransferCall} {t : Tables}

/-! ## Hindrances -/

theorem outgrown_iff {id : Int} {delta : Decimal} :
    t.Outgrown id delta ↔ ∃ a, t.accounts.find? id = some a ∧ a.balance.add? delta = none := by
  simp only [Outgrown, balance?, Option.map_eq_some_iff, ← Decimal.add?_eq_none_iff]
  constructor
  · rintro ⟨b, ⟨a, ha, rfl⟩, hsum⟩
    exact ⟨a, ha, hsum⟩
  · rintro ⟨a, ha, hsum⟩
    exact ⟨a.balance, ⟨a, ha, rfl⟩, hsum⟩

/-- An addition is refused, overflows or succeeds, by whether the account is open and the sum is too
large. -/
theorem additionHindrance?_cases (t : Tables) (id : Int) (delta : Decimal) :
    (additionHindrance? t.accounts id delta = some (.refused (closedError id)) ∧ ¬ t.Open id) ∨
      (additionHindrance? t.accounts id delta = some .overflow ∧ t.Open id ∧
        t.Outgrown id delta) ∨
      (additionHindrance? t.accounts id delta = none ∧ t.Open id ∧ ¬ t.Outgrown id delta) := by
  rw [outgrown_iff, ← isOpen_iff, additionHindrance?]
  cases hopen : isOpen t.accounts id with
  | false => exact .inl ⟨rfl, Bool.false_ne_true⟩
  | true =>
      obtain ⟨a, ha, -⟩ := find?_of_isOpen hopen
      rw [ha]
      cases hsum : a.balance.add? delta with
      | none => exact .inr (.inl ⟨by simp [hsum], rfl, a, rfl, hsum⟩)
      | some sum =>
          refine .inr (.inr ⟨by simp [hsum], rfl, ?_⟩)
          rintro ⟨_, ⟨⟩, hnone⟩
          rw [hsum] at hnone
          cases hnone

/-- The two additions overflow at one of them. -/
theorem balancesHindrance?_eq_overflow :
    balancesHindrance? t.accounts call.params = some .overflow ↔
      t.Open call.low ∧ (t.Outgrown call.low (call.params.delta call.low) ∨
        t.Open call.high ∧ t.Outgrown call.high (call.params.delta call.high)) := by
  rw [balancesHindrance?, lockOrder_eq]
  obtain ⟨hlow, hclosed⟩ | ⟨hlow, hopen, hout⟩ | ⟨hlow, hopen, hfits⟩ :=
    additionHindrance?_cases t call.low (call.params.delta call.low)
  · simp [hlow, hclosed]
  · simp [hlow, hopen, hout]
  · obtain ⟨hhigh, hclosed⟩ | ⟨hhigh, hopen', hout⟩ | ⟨hhigh, hopen', hfits'⟩ :=
      additionHindrance?_cases t call.high (call.params.delta call.high)
    · simp [hlow, hopen, hfits, hhigh, hclosed]
    · simp [hlow, hopen, hhigh, hopen', hout]
    · simp [hlow, hopen, hfits, hhigh, hfits']

/-- Nothing is refused to a call that breaks off at a sum. -/
theorem overflows_of_hindrance? (ht : t.Intact) (h : call.hindrance? t = some .overflow) :
    call.Overflows t := by
  unfold hindrance? at h
  cases hv : call.params.validate with
  | error e =>
      rw [hv] at h
      cases h
  | ok v =>
      simp only [hv, FundsTransfer.hindrance?] at h
      cases hcreation : creationRefusal? t call.params call.reference with
      | some e =>
          rw [hcreation] at h
          cases h
      | none =>
          rw [hcreation, Option.map_none, Option.none_or] at h
          obtain ⟨hsender, hreceiver, hreference⟩ := creationRefusal?_eq_none.1 hcreation
          obtain ⟨hlow, hsum⟩ := balancesHindrance?_eq_overflow.1 h
          refine ⟨⟨⟨v, hv⟩, hsender, hreceiver⟩, fun r hr hused => ?_, hlow, hsum⟩
          rw [ht.uses_iff, ← reference_of_supplied hr, hreference] at hused
          cases hused

/-- Such a call breaks off at a sum. -/
theorem Overflows.hindrance?_eq (h : call.Overflows t) (ht : t.Intact)
    (hfresh : call.params.reference = none → ¬ t.Uses call.generated) :
    call.hindrance? t = some .overflow := by
  obtain ⟨v, hv⟩ := h.placed.valid
  have hcreation := h.placed.creationRefusal?_eq ht
  rw [if_neg (unused_reference hfresh h.unused)] at hcreation
  have hbalances := balancesHindrance?_eq_overflow.2 ⟨h.low, h.sum⟩
  rw [hindrance?, hv]
  simp only [FundsTransfer.hindrance?, hcreation, hbalances]
  rfl

end TransferCall

/-! ## One unit of work -/

namespace Rehearsal

variable {α β : Type} {w w₁ : World} {t : Tables} {p : Probes}

/-- A unit of work that came to a result ends with a result, though maybe with another one. -/
theorem advance_settle {r : Except TransferError α} {k : Except TransferError α → Job β}
    (hhooks : w.hooks = []) :
    ∃ r' w', Process.advance 0 (some t) w ((Job.settle r).andThen k) =
      Process.advance 0 none w' (k r') := by
  cases r with
  | ok a =>
      rw [Job.settle, Job.andThen, Process.advance, takeHook_of_nil hhooks]
      simp only [sleepOf, if_true, Option.getD_some]
      rcases w.commit t none with ⟨_ | _, w'⟩
      · exact ⟨_, w', rfl⟩
      · exact ⟨_, w', rfl⟩
  | error e =>
      rw [Job.settle, Job.andThen, Process.advance, takeHook_of_nil hhooks]
      simp only [sleepOf, if_true]
      rcases w.rollback none with ⟨_ | _, w'⟩
      · exact ⟨_, w', rfl⟩
      · exact ⟨_, w', rfl⟩

/-- From the end of its work a process goes on to its own end. -/
theorem proceed_ends {k : Except TransferError α → Job α} (t : Tables) (hhooks : w.hooks = [])
    (hk : ∀ r, (k r).Reports (.ofExcept r)) (o : Outcome α) :
    ∃ process w' o', proceed t w (fun r => (Job.settle r).andThen k) o = (process, w') ∧
      process.place = .ended o' ∧
      (o = .overflow ∧ o' = .overflow ∨ o ≠ .overflow ∧ ∃ r, o' = .ofExcept r) := by
  have hsettles (r : Except TransferError α) : ∃ r' w', Process.advance 0 (some t) w
      ((Job.settle r).andThen k) = (⟨none, .ended (.ofExcept r')⟩, w') := by
    obtain ⟨r', w', hsettled⟩ := advance_settle (t := t) (r := r) (k := k) hhooks
    exact ⟨r', w', hsettled.trans (advance_of_reports (hk r') w')⟩
  cases o with
  | ok a =>
      obtain ⟨r, w', hsettled⟩ := hsettles (.ok a)
      exact ⟨_, _, _, hsettled, rfl, .inr ⟨nofun, r, rfl⟩⟩
  | error e =>
      obtain ⟨r, w', hsettled⟩ := hsettles (.error e)
      exact ⟨_, _, _, hsettled, rfl, .inr ⟨nofun, r, rfl⟩⟩
  | overflow => exact ⟨_, _, _, rfl, rfl, .inl ⟨rfl, rfl⟩⟩

theorem hooks_of_trip {point : FaultPoint} {fails : Bool} (hhooks : w.hooks = [])
    (htrip : w.trip point = (fails, w₁)) : w₁.hooks = [] := by
  have hsame := w.trip_same point
  rw [htrip] at hsame
  exact hsame.hooks.trans hhooks

/-- The first turn of a job that does its work in one unit overflows when the unit is opened and the
work overflows, and ends it with a result otherwise. -/
theorem advance_ends {job : Job α} {work : Work α} {o : Outcome α} {s : Working}
    (hjob : job.InOneUnit work) (hhooks : w.hooks = []) (hlock : w.LockHeld false)
    (h : work.Yields ⟨w.tables, (w.trip .begin).2.probes⟩ o s) :
    ∃ process w' o', Process.advance 0 none w job = (process, w') ∧ process.place = .ended o' ∧
      (((w.trip .begin).1 = false ∧ o = .overflow) ∧ o' = .overflow ∨
        ¬ ((w.trip .begin).1 = false ∧ o = .overflow) ∧ ∃ r, o' = .ofExcept r) := by
  induction hjob with
  | log event _ ih => exact ih
  | @unit limit k hk =>
      rcases htrip : w.trip .begin with ⟨fails, w₁⟩
      have hopened := advance_opened limit work k hhooks hlock htrip
      rw [htrip] at h
      cases fails with
      | true =>
          exact ⟨_, _, _, hopened.trans (advance_of_reports (hk _) _), rfl, .inr ⟨nofun, _, rfl⟩⟩
      | false =>
          have hleft := hooks_of_trip hhooks htrip
          have hworking : { w₁ with locked := true }.hooks = [] := hleft
          obtain ⟨process, w', o', hproceed, hplace, hend⟩ := proceed_ends s.tables
            (w := { w₁ with locked := true, probes := s.probes }) hleft hk o
          refine ⟨process, w', o', ?_, hplace, ?_⟩
          · exact hopened.trans ((advance_within_yields hworking h).trans hproceed)
          · obtain ⟨ho, rfl⟩ | ⟨ho, r, rfl⟩ := hend
            · exact .inl ⟨⟨rfl, ho⟩, rfl⟩
            · exact .inr ⟨fun hboth => ho hboth.2, r, rfl⟩

theorem call_overflow_iff {job : Job α} {work : Work α} {o : Outcome α} {s : Working}
    (hjob : job.InOneUnit work) (hhooks : w.hooks = []) (hlock : w.LockHeld false)
    (h : work.Yields ⟨w.tables, (w.trip .begin).2.probes⟩ o s) (pauses : Nat) :
    ((call w job pauses).1 = .overflow ↔ (w.trip .begin).1 = false ∧ o = .overflow) ∧
      ((∃ r, (call w job pauses).1 = .ofOutcome (.ofExcept r)) ∨
        (call w job pauses).1 = .overflow) := by
  obtain ⟨process, w', o', hadvance, hplace, hend⟩ := advance_ends hjob hhooks hlock h
  rw [call_of_advance hadvance hplace pauses]
  obtain ⟨hboth, rfl⟩ | ⟨hnot, r, rfl⟩ := hend
  · exact ⟨⟨fun _ => hboth, fun _ => rfl⟩, .inr rfl⟩
  · refine ⟨⟨fun hover => ?_, fun hboth => absurd hboth hnot⟩, .inl ⟨r, rfl⟩⟩
    cases r with
    | error e => cases hover
    | ok a => cases hover

/-- A call that does its work in one unit ends with a result, unless the work overflows on the
committed tables. -/
theorem call_ends {job : Job α} {work : Work α} (hjob : job.InOneUnit work)
    (hwork : work.RaceBlind) (hw : w.Bare) (hlock : w.LockHeld false) (pauses : Nat) :
    (∃ r, (call w job pauses).1 = .ofOutcome (.ofExcept r)) ∨
      (call w job pauses).1 = .overflow ∧ ∃ p s, work.Yields ⟨w.tables, p⟩ .overflow s := by
  obtain ⟨o, t', p', h⟩ := hwork w.tables (w.trip .begin).2.probes hw.tables
  obtain ⟨m, hm⟩ := h (w.trip .begin).2.probes.races
  have hyields : work.Yields ⟨w.tables, (w.trip .begin).2.probes⟩ o ⟨t', p'.withRaces m⟩ := hm
  obtain ⟨hiff, hends⟩ := call_overflow_iff hjob hw.hooks hlock hyields pauses
  refine hends.imp_right fun hover => ⟨hover, ?_⟩
  rw [(hiff.1 hover).2] at hyields
  exact ⟨_, _, hyields⟩

/-! ## Transfers -/

variable {call : TransferCall}

theorem hindrance?_of_call_overflow {v : ValidTransfer} {s : Working} (ht : w.tables.WellFormed)
    (hv : call.params.validate = .ok v) (h : (call.work v).Yields ⟨w.tables, p⟩ .overflow s) :
    call.hindrance? w.tables = some .overflow := by
  rw [TransferCall.hindrance?_of_valid hv]
  obtain ⟨-, hne, rate, -, rfl⟩ := TransferParams.of_validate hv
  exact hindrance?_of_overflow ht hne h

/-- Whatever faults are armed and whatever races are pending, a transfer ends with a result or with
an error, unless one of its sums outgrows a decimal before anything else speaks against it.  Then it
may overflow, and nothing is committed.  Where no fault is armed, it does overflow. -/
theorem overflows_at_sum (hw : Reachable w) (hhooks : w.hooks = []) (hlock : w.LockHeld false)
    (pauses : Nat) :
    ((∃ r, (Rehearsal.call w call.job pauses).1 = .ok r) ∨
        (∃ e, (Rehearsal.call w call.job pauses).1 = .error e) ∨
        (Rehearsal.call w call.job pauses).1 = .overflow ∧ call.Overflows w.tables ∧
          (Rehearsal.call w call.job pauses).2.tables = w.tables) ∧
      (w.probes.Calm → (call.params.reference = none → ¬ w.tables.Uses call.generated) →
        call.Overflows w.tables → (Rehearsal.call w call.job pauses).1 = .overflow) := by
  constructor
  · cases hv : call.params.validate with
    | error e =>
        rw [call_transfer_invalid hlock hv pauses]
        exact .inr (.inl ⟨e, rfl⟩)
    | ok v =>
        obtain ⟨r, hr⟩ | ⟨hover, p, s, hyields⟩ := call_ends (TransferCall.inOneUnit hv)
          (raceBlind_runTransfer _ _ _) ⟨hhooks, hw.wellFormed⟩ hlock pauses
        · rw [hr]
          cases r with
          | ok a => exact .inl ⟨a, rfl⟩
          | error e => exact .inr (.inl ⟨e, rfl⟩)
        · have hhindrance := hindrance?_of_call_overflow hw.wellFormed hv hyields
          obtain ⟨hends, -, -⟩ := transfer_all_or_nothing w call.coordinator call.generated
            call.params
          refine .inr (.inr ⟨hover, TransferCall.overflows_of_hindrance? hw.intact hhindrance,
            (hends pauses).resolve_left fun ⟨r, hr⟩ => ?_⟩)
          exact nomatch hover.symm.trans hr
  · intro hcalm hfresh hoverflows
    have hquiet : w.Undisturbed := ⟨hhooks, hcalm⟩
    obtain ⟨v, hv⟩ := hoverflows.placed.valid
    have hcomes := TransferCall.comes_of_valid hw.wellFormed hcalm hv
    rw [hoverflows.hindrance?_eq hw.intact hfresh] at hcomes
    obtain ⟨_, ⟨t, p⟩, hyields, -, rfl⟩ := hcomes
    rw [call_overflowed (TransferCall.inOneUnit hv) hquiet hlock hyields pauses]

/-- Two accounts with as much as a decimal holds. -/
def twoFull : World := twoAccounts fullBalance fullBalance

/-- The sum of the receiver outgrows a decimal, and the caller has no answer. -/
theorem full_receiver_overflows :
    (crossing false).Overflows twoFull.tables ∧
      (Rehearsal.call twoFull (crossing false).job 0).1 = .overflow := by
  have hreachable : Reachable twoFull := reachable_twoAccounts fullBalance fullBalance
  have hplaced : (crossing false).Placed twoFull.tables :=
    ⟨TransferCall.valid_of_isOk (by decide +kernel), by decide +kernel, by decide +kernel⟩
  have hunused : ¬ twoFull.tables.Uses "R-1" := by
    rw [hreachable.intact.uses_iff]
    decide +kernel
  have hlow : isOpen twoFull.tables.accounts 1 = true := by decide +kernel
  have hhigh : isOpen twoFull.tables.accounts 2 = true := by decide +kernel
  have hfull : twoFull.tables.balance? 2 = some fullBalance := by decide +kernel
  have hsum : fullBalance.add? oneDollar.amount = none := by decide +kernel
  have hoverflows : (crossing false).Overflows twoFull.tables :=
    { placed := hplaced
      unused := by
        rintro _ ⟨⟩
        exact hunused
      low := TransferCall.isOpen_iff.1 hlow
      sum := .inr ⟨TransferCall.isOpen_iff.1 hhigh, fullBalance, hfull,
        (Decimal.add?_eq_none_iff _ _).1 hsum⟩ }
  obtain ⟨-, hover⟩ := overflows_at_sum hreachable rfl ⟨rfl, rfl, rfl⟩ 0
  exact ⟨hoverflows, hover (fun _ => rfl) nofun hoverflows⟩

/-- A transfer that passes its checks, in a reachable world where nothing disturbs, does not always
end with a result or an error. -/
theorem valid_transfer_overflows :
    ¬ ∀ (w : World) (call : TransferCall), Reachable w → w.Undisturbed → w.LockHeld false →
      call.Valid → (∃ r, (Rehearsal.call w call.job 0).1 = .ok r) ∨
        ∃ e, (Rehearsal.call w call.job 0).1 = .error e := by
  intro h
  have hends := h twoFull (crossing false) (reachable_twoAccounts fullBalance fullBalance)
    ⟨rfl, fun _ => rfl⟩ ⟨rfl, rfl, rfl⟩ (TransferCall.valid_of_isOk (by decide +kernel))
  have hover : (Rehearsal.call twoFull (crossing false).job 0).1 = .overflow := by decide +kernel
  rw [hover] at hends
  obtain ⟨_, ⟨⟩⟩ | ⟨_, ⟨⟩⟩ := hends

end Rehearsal

end FundsTransfer
