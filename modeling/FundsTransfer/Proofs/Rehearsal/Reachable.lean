import FundsTransfer.Proofs.Memory.Intact
import FundsTransfer.Proofs.Rehearsal.Course

/-!
# Reachable worlds

A world is reachable when callers of the engine and of the store in memory can bring it
about from an empty store: they open and close accounts, arm faults and races, run jobs
one by one or together, open units of work by hand, and leave them or drop them.  The
jobs are arbitrary, so this includes every request of the engine and every sequence of
queries.

Hooks are no part of the store, and a hook that answers in the place of the store can
make it seem anything.  So a reachable world has only hooks that let time go by.  These
are enough to stop a caller at every request, and under them the store answers for
itself, `answers_of_delayed`.
-/

namespace FundsTransfer.Rehearsal

open Memory

/-- A disturbance that lets time go by and does nothing else. -/
def Disturbance.IsDelay (d : Disturbance) : Prop :=
  d.error = none ∧ d.missing = false ∧ d.code = none

/-- The disturbance that lets a number of milliseconds go by. -/
def Disturbance.delay (milliseconds : Nat) : Disturbance := ⟨milliseconds, none, false, none⟩

theorem Disturbance.isDelay_delay (milliseconds : Nat) : (delay milliseconds).IsDelay :=
  ⟨rfl, rfl, rfl⟩

/-- The worlds that callers can bring about from an empty store. -/
inductive Reachable : World → Prop where
  | fresh : Reachable .fresh
  | openAccount (user : Int) (currency : String) (balance : Decimal) : Reachable w →
      Reachable (direct w fun t => t.openAccount .epoch user currency balance).2
  | deactivate (account : Int) : Reachable w →
      Reachable (direct w fun t => ((), t.deactivate account)).2
  | fault (point : FaultPoint) (occurrence : Nat) : Reachable w →
      Reachable { w with probes := w.probes.arm point occurrence }
  | race : Reachable w → Reachable { w with probes := w.probes.addRace }
  | delay (request : Request) (skip milliseconds : Nat) : Reachable w →
      Reachable { w with hooks := w.hooks ++ [⟨request, skip, .delay milliseconds⟩] }
  | call {α : Type} (job : Job α) (pauses : Nat) : Reachable w → Reachable (call w job pauses).2
  | callTogether {α : Type} (jobs : List (Job α)) : Reachable w → Reachable (callTogether w jobs).2
  | callInSlot {α : Type} (job : Job α) : Reachable w → Reachable (callInSlot w job).2
  | dropSlot : Reachable w → Reachable (dropSlot w)

variable {α : Type} {w : World}

/-- The world in which two accounts were opened, and nothing else was done. -/
def twoAccounts (first second : Decimal) : World :=
  (direct (direct .fresh fun t => t.openAccount .epoch 1 "USD" first).2
    fun t => t.openAccount .epoch 2 "USD" second).2

theorem reachable_twoAccounts (first second : Decimal) : Reachable (twoAccounts first second) :=
  .openAccount 2 "USD" second (.openAccount 1 "USD" first .fresh)

theorem Disturbance.perform_of_isDelay {hook : Option Disturbance} (hhook : ∀ d ∈ hook, d.IsDelay)
    (now : Timestamp) (q : Query) : perform hook now q = Memory.perform now q := by
  cases hook with
  | none => rfl
  | some d =>
      obtain ⟨herror, hmissing, hcode⟩ := hhook d rfl
      simp only [perform, herror, hmissing, hcode, Bool.false_eq_true, if_false]

/-- When hooks only let time go by, the store answers for itself. -/
theorem answers_of_delayed {t t' : Tables} {q : Query} {r : Except StoreError q.Answer}
    (h : Answers Disturbance.IsDelay t q r t') : Memory.Answers .epoch t q r t' := by
  obtain ⟨hook, hhook, hgives⟩ := h
  rw [Disturbance.perform_of_isDelay hhook] at hgives
  exact hgives

theorem wellFormed_of_answers {t t' : Tables} {q : Query} {r : Except StoreError q.Answer}
    (h : Answers Disturbance.IsDelay t q r t') (ht : t.WellFormed) : t'.WellFormed :=
  ht.change (change_of_gives (answers_of_delayed h))

/-- What opening and closing accounts keeps, and every answer of the store, holds everywhere in a
reachable world, whose hooks only let time go by. -/
theorem Reachable.keeps {I : Tables → Prop} (hempty : I .empty)
    (hopened : ∀ {t} user currency balance, I t → I (t.openAccount .epoch user currency balance).2)
    (hclosed : ∀ {t} id, I t → I (t.deactivate id))
    (hanswer : ∀ {t q r t'}, Answers Disturbance.IsDelay t q r t' → I t → I t')
    (h : Reachable w) : w.Sound I Disturbance.IsDelay := by
  induction h with
  | fresh => exact ⟨hempty, nofun, fun hook hmem => absurd hmem List.not_mem_nil⟩
  | openAccount user currency balance _ ih =>
      exact direct_sound ih fun t ht => hopened user currency balance ht
  | deactivate account _ ih => exact direct_sound ih fun t ht => hclosed account ht
  | fault point occurrence _ ih => exact ih.of_same ⟨rfl, rfl, rfl⟩
  | race _ ih => exact ih.of_same ⟨rfl, rfl, rfl⟩
  | delay request skip milliseconds _ ih =>
      refine ⟨ih.tables, ih.slot, fun hook hmem => ?_⟩
      rcases List.mem_append.1 hmem with hmem | hmem
      · exact ih.hooked hook hmem
      · rw [List.mem_singleton.1 hmem]
        exact Disturbance.isDelay_delay milliseconds
  | call job pauses _ ih => exact call_sound hempty hanswer ih job pauses
  | callTogether jobs _ ih => exact callTogether_sound hempty hanswer ih jobs
  | callInSlot job _ ih => exact callInSlot_sound hempty hanswer ih job
  | dropSlot _ ih => exact dropSlot_sound ih

/-- Everything in a reachable world is well formed. -/
theorem Reachable.sound (h : Reachable w) :
    w.Sound Tables.WellFormed Disturbance.IsDelay := by
  refine h.keeps Tables.wellFormed_empty (fun user currency balance ht => ?_)
    (fun id ht => ?_) wellFormed_of_answers
  · exact ht.openAccount user currency balance
  · exact ht.deactivate id

theorem Reachable.wellFormed (h : Reachable w) : w.tables.WellFormed := h.sound.tables

theorem Reachable.intact (h : Reachable w) : w.tables.Intact := by
  refine (h.keeps Tables.intact_empty (fun user currency balance ht => ?_) (fun id ht => ?_)
    fun hanswer ht => ?_).tables
  · exact ht.openAccount user currency balance
  · exact ht.deactivate id
  · exact ht.change (change_of_gives (answers_of_delayed hanswer))

/-- In a reachable world, a call of a job that publishes last over the store in memory commits rows
with its value, or commits nothing. -/
theorem call_publishes_of_reachable (h : Reachable w) {job : Job α}
    {post : Tables → α → Prop} (pauses : Nat)
    (hjob : job.Publishes (Memory.Answers .epoch) w.tables post none) :
    (∃ a, (call w job pauses).1 = .ok a ∧ post (call w job pauses).2.tables a) ∨
      ((∀ a, (call w job pauses).1 ≠ .ok a) ∧ (call w job pauses).2.tables = w.tables) :=
  call_publishes pauses h.sound.hooked (fun _ _ _ _ => answers_of_delayed) hjob

section Keeping

variable {β : Type} {R : Tables → Tables → Prop} {Q : Query → Prop} {work : Work β}
  (hrefl : ∀ t, R t t) (htrans : ∀ {t₁ t₂ t₃}, R t₁ t₂ → R t₂ t₃ → R t₁ t₃)
  (hstep : ∀ {t q r t'}, Q q → Memory.Answers .epoch t q r t' → R t t')

include hrefl htrans hstep

/-- What every query of the work keeps, a call of the work in a unit of its own keeps. -/
theorem call_execute_andThen_keeps (hw : w.Hooked Disturbance.IsDelay) (hwork : work.Asks Q)
    {k : Except TransferError β → Job α} (hok : ∀ b, ∃ a, (k (.ok b)).Concludes a)
    (herror : ∀ e, ∃ e', k (.error e) = .done (.error e')) (limit : Option Duration)
    (pauses : Nat) :
    R w.tables (call w ((Job.execute limit work).andThen k) pauses).2.tables := by
  have hjob : ((Job.execute limit work).andThen k).Publishes (Memory.Answers .epoch) w.tables
      (fun t _ => R w.tables t) none := by
    refine Job.publishes_execute_andThen (fun b t hends => ?_) fun e => ?_
    · obtain ⟨a, ha⟩ := hok b
      exact ⟨a, ha, hends.preserves hrefl htrans hstep hwork⟩
    · obtain ⟨e', he⟩ := herror e
      rw [he]
      exact nofun
  obtain ⟨a, -, hkeeps⟩ | ⟨-, hkept⟩ :=
    call_publishes pauses hw (fun _ _ _ _ => answers_of_delayed) hjob
  · exact hkeeps
  · rw [hkept]
    exact hrefl _

theorem call_execute_keeps (hw : w.Hooked Disturbance.IsDelay) (hwork : work.Asks Q)
    (limit : Option Duration) (pauses : Nat) :
    R w.tables (call w (Job.execute limit work) pauses).2.tables := by
  rw [← Job.andThen_conclude (Job.execute limit work)]
  refine call_execute_andThen_keeps hrefl htrans hstep hw hwork (fun b => ⟨b, ?_⟩)
    (fun e => ⟨e, ?_⟩) limit pauses
  · rfl
  · rfl

end Keeping

end FundsTransfer.Rehearsal
