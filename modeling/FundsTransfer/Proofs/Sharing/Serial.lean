import FundsTransfer.Proofs.Memory.Probing
import FundsTransfer.Proofs.Sharing.Run
import FundsTransfer.Transfer.Balance

/-!
# Sharing tasks one after another

What a trace says was published and written is done once more, one after another, each
unit of work on the tables that the one before it left: `serial`.  Units of work that
were taken back or dropped are left out, and those still under way.

`serializable` says that the interleaving makes no difference, as long as no fault and
no race is armed.  The committed tables are at every moment those of the sequential run,
and whatever a unit of work was answered it would have been answered there.
-/

namespace FundsTransfer.Sharing

open Memory

/-! ## The sequential run -/

/-- A query inside a unit of work, with its answer. -/
structure Asking where
  /-- The time at which it was answered. -/
  now : Timestamp
  /-- The query. -/
  query : Query
  /-- What came back. -/
  answer : Except Refusal query.Answer

/-- The tables after a unit of work asked some queries, the latest of them first. -/
def replay (t : Tables) : List Asking → Tables
  | [] => t
  | a :: past => (answer a.now a.query (replay t past)).2

/-- Whether the answers are those that a unit of work gets which has the store to itself. -/
def Faithful (t : Tables) : List Asking → Prop
  | [] => True
  | a :: past => a.answer = (answer a.now a.query (replay t past)).1 ∧ Faithful t past

/-- What a unit of work asked, after one more event. -/
def Event.extend : Event → List Asking → List Asking
  | .opened, _ => []
  | .asked now q r, past => ⟨now, q, r⟩ :: past
  | _, past => past

variable {ι : Type} [DecidableEq ι]

/-- What a task asked since it last opened a unit of work, latest first. -/
def asked (i : ι) : Trace ι → List Asking
  | [] => []
  | (j, e) :: past => if j = i then e.extend (asked i past) else asked i past

/-- The tables after everything that was published or written directly so far, done one after
another in this order. -/
def serial (t₀ : Tables) : Trace ι → Tables
  | [] => t₀
  | (i, .published) :: past => replay (serial t₀ past) (asked i past)
  | (_, .wrote now write) :: past => write.run now (serial t₀ past)
  | _ :: past => serial t₀ past

@[simp] theorem asked_self (i : ι) (e : Event) (past : Trace ι) :
    asked i ((i, e) :: past) = e.extend (asked i past) := if_pos rfl

theorem asked_of_ne {i j : ι} (hne : j ≠ i) (e : Event) (past : Trace ι) :
    asked i ((j, e) :: past) = asked i past := if_neg hne

/-! ## Every interleaving is one -/

/-- A unit of work holds what it would hold, and was answered what it would be answered, if it had
the store to itself. -/
def Alone (t : Tables) (u : Option Tables) (as : List Asking) : Prop :=
  ∀ t', u = some t' → t' = replay t as ∧ Faithful t as

theorem alone_none {t : Tables} {as : List Asking} : Alone t none as := nofun

variable {α : ι → Type} {s₀ s : System ι α} {t₀ : Tables} {es : Trace ι}

/-- What holds at every moment of a run in which nothing is armed. -/
structure Serial (t₀ : Tables) (es : Trace ι) (s : System ι α) : Prop where
  exclusive : s.Exclusive
  disarmed : ∃ touched, s.store.probes = .disarmed touched
  tables : s.store.tables = serial t₀ es
  units : ∀ i, Alone (serial t₀ es) (s.task i).unit (asked i es)

/-- An act goes on with the sequential run, for the task that acts. -/
theorem serial_act {β : Type} {i : ι} {store store' : Store ι} {task task' : Task β} {e : Event}
    (h : Act i store task e store' task')
    (hprobes : ∃ touched, store.probes = .disarmed touched)
    (htables : store.tables = serial t₀ es) (hunit : Alone (serial t₀ es) task.unit (asked i es)) :
    (∃ touched, store'.probes = .disarmed touched) ∧
      store'.tables = serial t₀ ((i, e) :: es) ∧
      Alone (serial t₀ ((i, e) :: es)) task'.unit (asked i ((i, e) :: es)) := by
  obtain ⟨touched, hprobes⟩ := hprobes
  have htrip : ∀ {point fails p}, store.probes.trip point = (fails, p) → p = .disarmed touched := by
    intro point fails p h
    rw [hprobes] at h
    exact (congrArg Prod.snd h).symm
  rw [asked_self]
  cases h with
  | log => exact ⟨⟨_, hprobes⟩, htables, hunit⟩
  | clock => exact ⟨⟨_, hprobes⟩, htables, hunit⟩
  | refused h => exact ⟨⟨_, htrip h⟩, htables, hunit⟩
  | admitted h => exact ⟨⟨_, htrip h⟩, htables, hunit⟩
  | opened =>
      refine ⟨⟨_, hprobes⟩, htables, fun t ht => ?_⟩
      cases ht
      exact ⟨htables, trivial⟩
  | late => exact ⟨⟨_, hprobes⟩, htables, hunit⟩
  | notInTime => exact ⟨⟨_, hprobes⟩, htables, hunit⟩
  | asked now hperform =>
      obtain ⟨ht, hfaithful⟩ := hunit _ rfl
      rw [hprobes, perform_disarmed] at hperform
      cases hperform
      refine ⟨⟨_, rfl⟩, htables, fun t' ht' => ?_⟩
      cases ht'
      rw [ht]
      exact ⟨rfl, rfl, hfaithful⟩
  | cutOff => exact ⟨⟨_, hprobes⟩, htables, hunit⟩
  | paused => exact ⟨⟨_, hprobes⟩, htables, hunit⟩
  | pauseCutOff => exact ⟨⟨_, hprobes⟩, htables, hunit⟩
  | committed h =>
      -- the copy is the committed tables with the queries of this unit of work run on them
      exact ⟨⟨_, htrip h⟩, (hunit _ rfl).1, alone_none⟩
  | notCommitted h => exact ⟨⟨_, htrip h⟩, htables, alone_none⟩
  | rolledBack h => exact ⟨⟨_, htrip h⟩, htables, alone_none⟩
  | dropped =>
      rw [Store.leave]
      split
      · exact ⟨⟨_, hprobes⟩, htables, alone_none⟩
      · exact ⟨⟨_, hprobes⟩, htables, alone_none⟩
  | taken => exact ⟨⟨_, hprobes⟩, htables, alone_none⟩
  | wrote now => exact ⟨⟨_, hprobes⟩, congrArg (Direct.run now · _) htables, alone_none⟩

theorem Serial.act {i : ι} {e : Event} {store : Store ι} {task : Task (α i)}
    (hs : Serial t₀ es s) (h : Act i s.store (s.task i) e store task) :
    Serial t₀ ((i, e) :: es) (s.update i store task) := by
  obtain ⟨hdisarmed, htables, hunit⟩ := serial_act h hs.disarmed hs.tables (hs.units i)
  refine ⟨hs.exclusive.act h, hdisarmed, htables, fun j => ?_⟩
  by_cases hji : j = i
  · subst hji
    rw [System.task_update_self]
    exact hunit
  · rw [System.task_update_of_ne hji, asked_of_ne (Ne.symm hji)]
    intro t ht
    -- Another unit of work is open, so the act was not one of the holder of the lock.
    have hholder : s.store.holder = some j := hs.exclusive j (.inl (by rw [ht]; rfl))
    have hnot : ¬ (s.task i).Locks := fun hlocks =>
      hji (Option.some.inj (hholder.symm.trans (hs.exclusive i hlocks)))
    rw [← htables, h.tables_of_not_locks hnot, hs.tables]
    exact hs.units j t ht

theorem Run.serial (h : Run s₀ es s) (hs : s₀.Fresh)
    (hdisarmed : ∃ touched, s₀.store.probes = .disarmed touched) :
    Serial s₀.store.tables es s := by
  induction h with
  | start =>
      refine ⟨Run.start.exclusive hs, hdisarmed, rfl, fun i => ?_⟩
      rw [hs.closed i]
      exact alone_none
  | act _ hact ih => exact ih.act hact

theorem Act.unit_of_published {β : Type} {i : ι} {store store' : Store ι} {task task' : Task β}
    (h : Act i store task .published store' task') : ∃ t, task.unit = some t := by
  cases h with
  | committed => exact ⟨_, rfl⟩

/-- A unit of work that is published was answered as in the sequential run. -/
theorem Run.faithful_of_published (h : Run s₀ es s) (hs : s₀.Fresh)
    (hdisarmed : ∃ touched, s₀.store.probes = .disarmed touched) {i : ι} {past : Trace ι}
    (hpast : (i, .published) :: past <:+ es) :
    Faithful (Sharing.serial s₀.store.tables past) (asked i past) := by
  induction h with
  | start => cases List.suffix_nil.1 hpast
  | act hrun hact ih =>
      obtain heq | hpast := List.suffix_cons_iff.1 hpast
      · cases heq
        obtain ⟨t, ht⟩ := hact.unit_of_published
        exact ((hrun.serial hs hdisarmed).units i t ht).2
      · exact ih hpast

/-- However the acts of any number of tasks interleave, what is committed is what comes of running
the published units of work and the direct writes one after another, and every unit of work is
answered as it is there. -/
theorem serializable (h : Run s₀ es s) (hs : s₀.Fresh)
    (hdisarmed : ∃ touched, s₀.store.probes = .disarmed touched) :
    s.store.tables = serial s₀.store.tables es ∧
      (∀ i t, (s.task i).unit = some t →
        t = replay (serial s₀.store.tables es) (asked i es) ∧
          Faithful (serial s₀.store.tables es) (asked i es)) ∧
      ∀ i past, (i, .published) :: past <:+ es →
        Faithful (serial s₀.store.tables past) (asked i past) :=
  ⟨(h.serial hs hdisarmed).tables, (h.serial hs hdisarmed).units,
    fun _ _ hpast => h.faithful_of_published hs hdisarmed hpast⟩

/-- A dollar. -/
def dollar : Decimal := (Decimal.ofParts? false 100 2).get (by decide)

/-- One task pays a dollar into an account, and another closes the account. -/
def depositAndClosing : System Bool fun _ => Account where
  store := ⟨(Tables.empty.openAccount .epoch 1 "USD" .zero).2, .quiet, none⟩
  task
    | false => ⟨.ready (Job.execute none (applyDelta 1 dollar)), none⟩
    | true => ⟨.direct (.deactivate 1), none⟩

theorem fresh_depositAndClosing : depositAndClosing.Fresh where
  free := rfl
  closed i := by
    cases i with
    | false => rfl
    | true => rfl
  idle i := by
    cases i with
    | false => nofun
    | true => nofun

/-- The account is closed while the dollar is under way, and waits for it. -/
def closingWaits : List Bool := [true, true, false, false, true, false, true, false, false, false]

/-- Both tasks did what they came for, and the store is as if they had come one after the other. -/
theorem deposit_serial :
    ((play depositAndClosing closingWaits).2.store.tables.accounts.rows.map fun a =>
        (a.balance, a.isActive)) = [(dollar, false)] ∧
      (play depositAndClosing closingWaits).2.store.tables =
        serial depositAndClosing.store.tables (play depositAndClosing closingWaits).1 :=
  ⟨by decide +kernel,
    (serializable (run_play depositAndClosing closingWaits) fresh_depositAndClosing ⟨[], rfl⟩).1⟩

end FundsTransfer.Sharing
