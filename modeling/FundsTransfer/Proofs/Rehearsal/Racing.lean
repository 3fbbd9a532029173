import FundsTransfer.Proofs.Rehearsal.Calculated
import FundsTransfer.Proofs.Rehearsal.Reachable
import FundsTransfer.Proofs.Sharing.Resolving
import FundsTransfer.Proofs.Transfer.Racing

/-!
# Nobody notices a lost race

A call of the engine is made in two worlds that differ in the number of pending races only.
It answers the same, and the two worlds after it differ in the number of races that are left
only, whatever faults are armed, and whether the lock is free or not.

The two runs are not the same step by step.  Inside a unit of work, one of them may ask the
store once more than the other, for a row that it lost a race about.  `Work.RaceBlind` bridges
this gap.  Everything else a process does is done by both, and `ComesAlike` carries the two
runs along from the end of one piece of work to the next.
-/

namespace FundsTransfer

open Memory

/-! ## Jobs -/

/-- A job that opens a unit of work only when it holds none, and whose work in the unit is
race-blind.  The flag says whether it holds one. -/
inductive Job.RaceBlind {α : Type} : Job α → Bool → Prop where
  | done : RaceBlind (.done outcome) held
  | log (h : RaceBlind rest held) : RaceBlind (.log event rest) held
  | clock (h : ∀ now, RaceBlind (next now) held) : RaceBlind (.clock next) held
  | begin (hopened : RaceBlind (next (.ended (.ok ()))) true)
      (hrefused : ∀ e, RaceBlind (next (.ended (.error e))) false)
      (hcut : ∀ limit, RaceBlind (next (.cutOff limit)) false) : RaceBlind (.begin d next) false
  | work {β : Type} {work : Work β} {k : Except TransferError β → Job α} (hwork : work.RaceBlind)
      (hk : ∀ r, RaceBlind (k r) true) : RaceBlind (.within d work k) true
  | commit (h : ∀ r, RaceBlind (next r) false) : RaceBlind (.commit next) true
  | rollback (h : ∀ r, RaceBlind (next r) false) : RaceBlind (.rollback next) true

namespace Job

variable {α β : Type}

theorem Reports.raceBlind {job : Job α} {o : Outcome α} (h : job.Reports o) :
    job.RaceBlind false := by
  induction job with
  | done => exact .done
  | log event rest ih => exact .log (ih h)
  | _ => exact h.elim

theorem raceBlind_settle_andThen {r : Except TransferError α} {k : Except TransferError α → Job β}
    (hk : ∀ r, (k r).RaceBlind false) : ((settle r).andThen k).RaceBlind true := by
  cases r with
  | ok a =>
      refine .commit fun answer => ?_
      cases answer with
      | ok u => exact .log (hk _)
      | error e => exact hk _
  | error cause =>
      refine .rollback fun answer => ?_
      cases answer with
      | ok u => exact .log (hk _)
      | error e => exact .log (hk _)

theorem InOneUnit.raceBlind {job : Job α} {work : Work α} (h : job.InOneUnit work)
    (hwork : work.RaceBlind) : job.RaceBlind false := by
  induction h with
  | unit limit hk =>
      have hk := fun r => (hk r).raceBlind
      refine .clock fun now => .begin ?_ (fun e => hk _) fun l => .log (hk _)
      show ((within _ work settle).andThen _).RaceBlind true
      rw [within_andThen]
      exact .work hwork fun r => raceBlind_settle_andThen hk
  | log event _ ih => exact .log ih

end Job

namespace Rehearsal

/-! ## Worlds -/

/-- The world with another number of pending races. -/
def World.withRaces (w : World) (n : Nat) : World := { w with probes := w.probes.withRaces n }

/-- No hook is pending and the committed tables are well formed. -/
structure World.Bare (w : World) : Prop where
  hooks : w.hooks = []
  tables : w.tables.WellFormed

namespace World

theorem Bare.of_same {w w' : World} (h : w.Bare) (hsame : w.SameStore w') : w'.Bare :=
  ⟨hsame.hooks.trans h.hooks, hsame.tables ▸ h.tables⟩

/-- The copy of a unit of work that is opened now. -/
theorem Bare.copy {w : World} (h : w.Bare) : ∀ t ∈ some w.tables, t.WellFormed :=
  fun _ ht => Option.some.inj ht ▸ h.tables

variable (w : World) (n : Nat)

theorem trip_withRaces (point : FaultPoint) :
    (w.withRaces n).trip point = ((w.trip point).1, (w.trip point).2.withRaces n) := by
  have htrip : (w.withRaces n).probes.trip point = _ := w.probes.trip_withRaces n point
  rw [trip, htrip]
  rfl

theorem release_withRaces : (w.withRaces n).release = w.release.withRaces n := by
  obtain ⟨tables, probes, hooks, now, locked, handed, queue, slot⟩ := w
  cases queue with
  | nil => rfl
  | cons i rest => rfl

theorem leave_withRaces (i : Nat) : (w.withRaces n).leave i = (w.leave i).withRaces n := by
  have hleft := release_withRaces
    { w with queue := w.queue.filter (· != i), handed := none } n
  unfold leave
  show (if w.handed = some i then _ else _) = _
  by_cases hi : w.handed = some i
  · rw [if_pos hi, if_pos hi]
    exact hleft
  · rw [if_neg hi, if_neg hi]
    rfl

theorem commit_withRaces (t : Tables) :
    (w.withRaces n).commit t none = ((w.commit t none).1, (w.commit t none).2.withRaces n) := by
  simp only [commit, Option.bind_none, trip_withRaces]
  rcases w.trip .commit with ⟨_ | _, w'⟩
  · exact congrArg _ ({ w' with tables := t }.release_withRaces n)
  · exact congrArg _ (w'.release_withRaces n)

theorem rollback_withRaces :
    (w.withRaces n).rollback none = ((w.rollback none).1, (w.rollback none).2.withRaces n) := by
  simp only [rollback, Option.bind_none, trip_withRaces]
  rcases w.trip .rollback with ⟨_ | _, w'⟩
  · exact congrArg _ (w'.release_withRaces n)
  · exact congrArg _ (w'.release_withRaces n)

end World

/-! ## One process -/

variable {α : Type} {w w₁ : World}

/-- A process that goes on with race-blind jobs only. -/
inductive Process.RaceBlind : Process α → Prop where
  | ready (hjob : job.RaceBlind false) : RaceBlind ⟨none, .ready job⟩
  | queued (hopened : (next (.ended (.ok ()))).RaceBlind true)
      (hcut : ∀ limit, (next (.cutOff limit)).RaceBlind false) : RaceBlind ⟨none, .queued d next⟩
  | ended : RaceBlind ⟨u, .ended outcome⟩

/-- What comes of a world, in which no hook is pending, is the same whatever races are pending. -/
def ComesAlike {ρ : Type} (P : ρ → Prop) (f : World → ρ × World) (w : World) : Prop :=
  ∃ (a : ρ) (w' : World), P a ∧ w'.Bare ∧ ∀ n, ∃ m, f (w.withRaces n) = (a, w'.withRaces m)

namespace ComesAlike

variable {ρ : Type} {P : ρ → Prop} {f g : World → ρ × World}

theorem stops {a : ρ} (ha : P a) (hw : w₁.Bare) (h : ∀ n, f (w.withRaces n) = (a, w₁.withRaces n)) :
    ComesAlike P f w :=
  ⟨a, w₁, ha, hw, fun n => ⟨n, h n⟩⟩

/-- One thing that comes to another. -/
theorem of_eq (hg : ComesAlike P g w₁)
    (h : ∀ n, ∃ m, f (w.withRaces n) = g (w₁.withRaces m)) : ComesAlike P f w := by
  obtain ⟨a, w', ha, hw', hcomes⟩ := hg
  refine ⟨a, w', ha, hw', fun n => ?_⟩
  obtain ⟨m, hm⟩ := h n
  obtain ⟨m', hm'⟩ := hcomes m
  exact ⟨m', hm.trans hm'⟩

end ComesAlike

/-- A unit of work is opened, refused or waited for, whatever races are pending. -/
theorem comesAlike_begin {d : Option Deadline} {next : Timed (Except StoreError Unit) → Job α}
    (hw : w.Bare)
    (hopened : ∀ {w : World}, w.Bare → ComesAlike Process.RaceBlind
      (Process.advance 0 (some w.tables) · (next (.ended (.ok ())))) w)
    (hrefused : ∀ {w : World} (e : StoreError), w.Bare → ComesAlike Process.RaceBlind
      (Process.advance 0 none · (next (.ended (.error e)))) w)
    (hcut : ∀ {w : World} (limit : Duration), w.Bare → ComesAlike Process.RaceBlind
      (Process.advance 0 none · (next (.cutOff limit))) w)
    (hqueued : Process.RaceBlind ⟨none, .queued d next⟩) :
    ComesAlike Process.RaceBlind (Process.advance 0 none · (.begin d next)) w := by
  rcases htrip : w.trip .begin with ⟨fails, w₁⟩
  have hw₁ : w₁.Bare := by
    have hsame := World.trip_same w .begin
    rw [htrip] at hsame
    exact hw.of_same hsame
  have htrip' (n : Nat) : (w.withRaces n).trip .begin = (fails, w₁.withRaces n) := by
    rw [World.trip_withRaces, htrip]
  have hbegin (n : Nat) : Process.advance 0 none (w.withRaces n) (.begin d next) = _ :=
    advance_begin hw.hooks (htrip' n)
  cases fails with
  | true => exact (hrefused (injected .begin) hw₁).of_eq fun n => ⟨n, hbegin n⟩
  | false =>
      by_cases hlocked : w₁.locked = true
      · have hwaits (n : Nat) := (hbegin n).trans (if_pos hlocked)
        by_cases hover : isOver w₁.now d = true
        · exact (hcut (limitOf d) hw₁).of_eq fun n => ⟨n, (hwaits n).trans (if_pos hover)⟩
        · have hlater : { w₁ with queue := w₁.queue ++ [0] }.Bare := ⟨hw₁.hooks, hw₁.tables⟩
          exact .stops hqueued hlater fun n => (hwaits n).trans (if_neg hover)
      · have htaken : { w₁ with locked := true }.Bare := ⟨hw₁.hooks, hw₁.tables⟩
        exact (hopened htaken).of_eq fun n => ⟨n, (hbegin n).trans (if_neg hlocked)⟩

/-- A race-blind job comes to the same, up to where it ends or waits for the lock. -/
theorem comesAlike_advance {job : Job α} {held : Bool} (h : job.RaceBlind held)
    {u : Option Tables} (hheld : u.isSome = held) (hunit : ∀ t ∈ u, t.WellFormed) (hw : w.Bare) :
    ComesAlike Process.RaceBlind (Process.advance 0 u · job) w := by
  induction h generalizing u w with
  | done => exact .stops .ended hw fun n => rfl
  | log _ ih => exact (ih hheld hunit hw).of_eq fun n => ⟨n, rfl⟩
  | clock _ ih => exact (ih w.now hheld hunit hw).of_eq fun n => ⟨n, rfl⟩
  | begin hopened _ hcut ihopened ihrefused ihcut =>
      cases u with
      | some t => cases hheld
      | none =>
          exact comesAlike_begin hw (fun hw => ihopened rfl hw.copy hw)
            (fun e hw => ihrefused e rfl nofun hw) (fun limit hw => ihcut limit rfl nofun hw)
            (.queued hopened hcut)
  | @work d _ work k hwork hk ihk =>
      cases u with
      | none => cases hheld
      | some t =>
          have ht := hunit t rfl
          obtain ⟨o, t', p', h⟩ := hwork t w.probes ht
          have ht' : ∀ t ∈ some t', t.WellFormed := by
            obtain ⟨m, hm⟩ := h 0
            exact fun t ht₁ => Option.some.inj ht₁ ▸ hm.wellFormed ht
          have hafter : { w with probes := p' }.Bare := ⟨hw.hooks, hw.tables⟩
          have hgoes (n : Nat) : ∃ m, Process.advance 0 (some t) (w.withRaces n)
              (.within d work k) = proceed t' ({ w with probes := p' }.withRaces m) k o :=
            (h n).imp fun m hm => advance_within_yields hw.hooks hm
          cases o with
          | ok b => exact (ihk (.ok b) rfl ht' hafter).of_eq hgoes
          | error e => exact (ihk (.error e) rfl ht' hafter).of_eq hgoes
          | overflow => exact ⟨⟨some t', .ended .overflow⟩, _, .ended, hafter, hgoes⟩
  | @commit next _ ih =>
      cases u with
      | none => cases hheld
      | some t =>
          have hbare : (w.commit t none).2.Bare := by
            have hput : { w with tables := t }.Bare := ⟨hw.hooks, hunit t rfl⟩
            obtain ⟨-, hsame⟩ | ⟨-, hsame⟩ := w.commit_cases t none
            · exact hput.of_same hsame
            · exact hw.of_same hsame
          refine (ih (w.commit t none).1 (u := none) rfl nofun hbare).of_eq fun n => ⟨n, ?_⟩
          have hhooks : (w.withRaces n).hooks = [] := hw.hooks
          simp only [Process.advance, takeHook_of_nil hhooks, sleepOf, if_true, Option.getD_some,
            World.commit_withRaces]
  | @rollback next _ ih =>
      cases u with
      | none => cases hheld
      | some t =>
          have hbare : (w.rollback none).2.Bare := hw.of_same (w.rollback_same none)
          refine (ih (w.rollback none).1 (u := none) rfl nofun hbare).of_eq fun n => ⟨n, ?_⟩
          have hhooks : (w.withRaces n).hooks = [] := hw.hooks
          simp only [Process.advance, takeHook_of_nil hhooks, sleepOf, if_true,
            World.rollback_withRaces]

/-- A turn of a process. -/
theorem comesAlike_poll {p : Process α} (hp : p.RaceBlind) (hw : w.Bare) :
    ComesAlike Process.RaceBlind (fun w => p.poll 0 w) w := by
  cases hp with
  | ready hjob => exact comesAlike_advance hjob rfl nofun hw
  | @queued next d hopened hcut =>
      by_cases hhanded : w.handed = some 0
      · have htaken : { w with handed := none }.Bare := ⟨hw.hooks, hw.tables⟩
        exact (comesAlike_advance hopened rfl hw.copy htaken).of_eq fun n => ⟨n, if_pos hhanded⟩
      · by_cases hover : isOver w.now d = true
        · have hleft : (w.leave 0).Bare := hw.of_same (w.leave_same 0)
          refine (comesAlike_advance (hcut (limitOf d)) (u := none) rfl nofun hleft).of_eq
            fun n => ⟨n, ?_⟩
          rw [← World.leave_withRaces]
          exact (if_neg hhanded).trans (if_pos hover)
        · exact .stops (.queued hopened hcut) hw fun n => (if_neg hhanded).trans (if_neg hover)
  | ended => exact .stops .ended hw fun n => rfl

/-! ## One call -/

/-- All rounds of a process that runs alone. -/
theorem comesAlike_runUntil (moment rounds : Nat) {p : Process α} (hp : p.RaceBlind)
    (hw : w.Bare) :
    ComesAlike (fun ps => ∃ p, ps = [p]) (fun w => runUntil moment rounds w [p]) w := by
  induction rounds generalizing w p with
  | zero =>
      have hlate : { w with now := moment }.Bare := ⟨hw.hooks, hw.tables⟩
      exact .stops ⟨p, rfl⟩ hlate fun n => rfl
  | succ rounds ih =>
      have hlate (m : Nat) : { w with now := m }.Bare := ⟨hw.hooks, hw.tables⟩
      have hsame (n : Nat) : anyReady 0 (w.withRaces n) [p] = anyReady 0 w [p] := rfl
      by_cases hover : [p].any Process.overflowed = true
      · exact .stops ⟨p, rfl⟩ hw fun n => if_pos hover
      by_cases hready : anyReady 0 w [p] = true
      · obtain ⟨p', w', hp', hw', hpoll⟩ := comesAlike_poll hp hw
        refine (ih hp' hw').of_eq fun n => ?_
        obtain ⟨m, hm⟩ := hpoll n
        refine ⟨m, ?_⟩
        simp only [runUntil, if_neg hover, hsame, if_pos hready, round_single, hm]
      -- a process that cannot go on ended, or it waits for its deadline
      cases hp with
      | ready hjob => exact absurd rfl hready
      | ended => exact .stops ⟨_, rfl⟩ hw fun n => (if_neg hover).trans (if_neg hready)
      | @queued next d hopened hcut =>
          have hqueued : Process.RaceBlind ⟨none, .queued d next⟩ := .queued hopened hcut
          cases d with
          | none =>
              exact .stops ⟨_, rfl⟩ (hlate (max moment w.now)) fun n => if_neg hready
          | some d =>
              by_cases hsoon : d.moment ≤ moment
              · refine (ih hqueued (hlate (max d.moment w.now))).of_eq fun n => ?_
                exact ⟨n, (if_neg hready).trans (if_pos hsoon)⟩
              · exact .stops ⟨_, rfl⟩ (hlate (max moment w.now)) fun n =>
                  (if_neg hready).trans (if_neg hsoon)

theorem abandon_withRaces (p : Process α) (w : World) (n : Nat) :
    abandon 0 (w.withRaces n) [p] = (abandon 0 w [p]).withRaces n := by
  simp only [abandon, World.leave_withRaces]
  split
  · exact (w.leave 0).release_withRaces n
  · rfl

/-- Two calls of a job that are made in worlds which differ in the pending races only: they answer
the same, and the worlds after them differ in the races that are left only. -/
def HidesRaces (w : World) (job : Job α) : Prop :=
  ∀ pauses r₁ r₂, (call (w.withRaces r₁) job pauses).1 = (call (w.withRaces r₂) job pauses).1 ∧
    ∃ left, (call (w.withRaces r₁) job pauses).2 =
      (call (w.withRaces r₂) job pauses).2.withRaces left

theorem hidesRaces_of_raceBlind {job : Job α} (h : job.RaceBlind false) (hw : w.Bare) :
    HidesRaces w job := by
  intro pauses r₁ r₂
  obtain ⟨ps, w', ⟨p, rfl⟩, -, hrun⟩ := comesAlike_runUntil (w.after patience)
    (roundsFor w 1 pauses) (.ready h) hw
  have hcall (n : Nat) : ∃ m,
      call (w.withRaces n) job pauses = (p.callEnd, (abandon 0 w' [p]).withRaces m) := by
    obtain ⟨m, hm⟩ := hrun n
    have hrun : run pauses (w.withRaces n) [⟨none, .ready job⟩] = ([p], w'.withRaces m) := hm
    refine ⟨m, ?_⟩
    simp only [call, hrun, abandon_withRaces]
  obtain ⟨m₁, h₁⟩ := hcall r₁
  obtain ⟨m₂, h₂⟩ := hcall r₂
  rw [h₁, h₂]
  exact ⟨rfl, m₁, rfl⟩

/-- However many races are pending when a transfer, a seeding of the catalog or a resolver is
called, and whatever faults are armed, the call answers the same, and it leaves the same rows,
the same faults and the same record of touched balances.  Hooks are left out: they are no part of
the store, and one that counts the reads of a row would notice the one after a lost race. -/
theorem lost_races_are_invisible (hw : Reachable w) (hhooks : w.hooks = []) :
    (∀ call : TransferCall, HidesRaces w call.job) ∧
      (∀ c : Coordinator, HidesRaces w c.seed) ∧
      ∀ (k : ReferenceTable) (c : Coordinator) (code : String),
        HidesRaces w (k.resolver c code) := by
  have hbare : w.Bare := ⟨hhooks, hw.wellFormed⟩
  refine ⟨fun call => ?_, fun c => ?_, fun k c code => ?_⟩
  · cases hvalid : call.params.validate with
    | ok v =>
        have hunit := TransferCall.inOneUnit hvalid
        exact hidesRaces_of_raceBlind (hunit.raceBlind (raceBlind_runTransfer _ _ _)) hbare
    | error e =>
        have hrefused : call.job = .done (.error e) := by
          rw [TransferCall.job, Coordinator.transfer, hvalid]
        rw [hrefused]
        exact hidesRaces_of_raceBlind .done hbare
  · have hunit := Job.inOneUnit_execute c.timeout seedCatalog
    exact hidesRaces_of_raceBlind (hunit.raceBlind raceBlind_seedCatalog) hbare
  · have hunit := Job.inOneUnit_execute c.timeout (k.reference.resolve code)
    rw [k.resolver_eq]
    exact hidesRaces_of_raceBlind (hunit.raceBlind (k.raceBlind_resolve code)) hbare

/-- Two accounts and nothing paid yet, where the third reference row from now on is refused. -/
def thirdRowRefused : World :=
  let opened := twoAccounts hundredDollars .zero
  { opened with probes := opened.probes.arm .createReference 3 }

/-- The third row is the one of the status of a paid transfer, also for a transfer that loses the
races for the first two rows. -/
theorem third_row_refused_alike :
    let job := TransferCall.job ⟨.default, "", oneDollar⟩
    let refused := CallEnd.error (.referenceData .status "COMPLETED" (injected .createReference))
    (call (thirdRowRefused.withRaces 0) job 0).1 = refused ∧
      (call (thirdRowRefused.withRaces 2) job 0).1 = refused ∧
      ∃ left, (call (thirdRowRefused.withRaces 2) job 0).2 =
        (call (thirdRowRefused.withRaces 0) job 0).2.withRaces left := by
  intro job refused
  have hreachable : Reachable thirdRowRefused :=
    .fault .createReference 3 (reachable_twoAccounts hundredDollars .zero)
  have hrefused : (call (thirdRowRefused.withRaces 0) job 0).1 = refused := by decide +kernel
  obtain ⟨htransfer, -⟩ := lost_races_are_invisible hreachable rfl
  obtain ⟨hanswer, hleft⟩ := htransfer ⟨.default, "", oneDollar⟩ 0 2 0
  exact ⟨hrefused, hanswer.trans hrefused, hleft⟩

end Rehearsal

end FundsTransfer
