import FundsTransfer.Proofs.Rehearsal.Turn
import FundsTransfer.Proofs.Work.Publishing
import FundsTransfer.Rehearsal.Schedule

/-!
# Calls as runs, and what all schedules keep

A call runs one process to its end.  `call_cases` says that its rounds together are a run
of its job, as if it had gone on in one turn, and that the units of work it leaves behind
do not reach the committed tables.  `call_publishes` is what a job that publishes last
makes of it: the call ends with a value and its rows are committed, or the committed
tables are what they were.

Several processes take turns in an order that hooks and clocks decide.  What is said of
them here is only what holds of any order: `runUntil_sound` keeps a property of tables
that the answers of the store keep, for the committed tables and all units of work.
-/

namespace FundsTransfer.Rehearsal

open Memory

variable {α : Type} {P : Disturbance → Prop} {I : Tables → Prop}

/-! ## One process -/

theorem round_single (p : Process α) (w : World) :
    round 0 w [p] = ([(p.poll 0 w).1], (p.poll 0 w).2) := by
  rcases hpoll : p.poll 0 w with ⟨p', w'⟩
  simp only [round, hpoll]
  split <;> rfl

/-- Rounds of one process are one turn, or nothing happened. -/
theorem runUntil_single (moment rounds : Nat) (w : World) (p : Process α) (hw : w.Hooked P)
    (hp : p.place.Stopped P ∨ ∃ job, p.place = .ready job) :
    ∃ p' w', runUntil moment rounds w [p] = ([p'], w') ∧
      (Turn P ⟨p.place.rest, p.unit, w.tables⟩ w (p', w') ∨ p' = p ∧ w.SameStore w') := by
  induction rounds generalizing w p with
  | zero => exact ⟨p, _, rfl, .inr ⟨rfl, rfl, rfl, rfl⟩⟩
  | succ n ih =>
      rw [runUntil]
      split
      · exact ⟨p, w, rfl, .inr ⟨rfl, rfl, rfl, rfl⟩⟩
      split
      · have hturn := Process.poll_turn p 0 hw hp
        obtain ⟨p', w', hrun, hrest⟩ := ih (p.poll 0 w).2 (p.poll 0 w).1 hturn.hooked
          (.inl hturn.stopped)
        refine ⟨p', w', ?_, .inl ?_⟩
        · rw [round_single]
          exact hrun
        · rcases hrest with hnext | ⟨rfl, hsame⟩
          · exact hturn.trans hnext
          · exact hturn.to_same hsame
      split
      · exact ⟨p, w, rfl, .inr ⟨rfl, rfl, rfl, rfl⟩⟩
      split
      · split
        · rename_i m _ _
          have hsame : w.SameStore { w with now := max m w.now } := ⟨rfl, rfl, rfl⟩
          obtain ⟨p', w', hrun, hrest⟩ := ih { w with now := max m w.now } p hw hp
          refine ⟨p', w', hrun, ?_⟩
          rcases hrest with hturn | ⟨rfl, hrest⟩
          · exact .inl (.of_slot hsame.slot hturn)
          · exact .inr ⟨rfl, hsame.trans hrest⟩
        · exact ⟨p, _, rfl, .inr ⟨rfl, rfl, rfl, rfl⟩⟩
      · exact ⟨p, _, rfl, .inr ⟨rfl, rfl, rfl, rfl⟩⟩

/-- Abandoning processes gives up locks and nothing else. -/
theorem abandon_same (ps : List (Process α)) (i : Nat) (w : World) :
    w.SameStore (abandon i w ps) := by
  induction ps generalizing i w with
  | nil => exact ⟨rfl, rfl, rfl⟩
  | cons p rest ih =>
      have hleft := w.leave_same i
      simp only [abandon]
      split
      · exact (hleft.trans (World.release_same _)).trans (ih _ _)
      · exact hleft.trans (ih _ _)

/-- A call is a run of its job to a place where a process stops. -/
theorem call_cases (w : World) (job : Job α) (pauses : Nat) (hw : w.Hooked P) :
    ∃ p w', call w job pauses = (p.callEnd, w') ∧
      (Turn P ⟨job, none, w.tables⟩ w (p, w') ∨ p = ⟨none, .ready job⟩ ∧ w.SameStore w') := by
  obtain ⟨p, w', hrun, h⟩ := runUntil_single (w.after patience) (roundsFor w 1 pauses) w
    ⟨none, .ready job⟩ hw (.inr ⟨job, rfl⟩)
  have hsame := abandon_same [p] 0 w'
  refine ⟨p, abandon 0 w' [p], ?_, ?_⟩
  · have : run pauses w [⟨none, .ready job⟩] = ([p], w') := hrun
    simp only [call, this]
  · rcases h with hturn | ⟨hp, hkept⟩
    · exact .inl (hturn.to_same hsame)
    · exact .inr ⟨hp, hkept.trans hsame⟩

/-- A call ended with a value. -/
def CallEnd.Succeeded (e : CallEnd α) : Prop := ∃ a, e = .ok a

instance (e : CallEnd α) : Decidable e.Succeeded :=
  match e with
  | .ok a => .isTrue ⟨a, rfl⟩
  | .error _ => .isFalse fun ⟨_, h⟩ => by cases h
  | .overflow => .isFalse fun ⟨_, h⟩ => by cases h
  | .blocked => .isFalse fun ⟨_, h⟩ => by cases h

/-- A call leaves the slot alone, and hooks do not change what they do. -/
theorem call_frame {w : World} (job : Job α) (pauses : Nat) (hw : w.Hooked P) :
    (call w job pauses).2.slot = w.slot ∧ (call w job pauses).2.Hooked P := by
  obtain ⟨p, w', hcall, hturn | ⟨-, hsame⟩⟩ := call_cases w job pauses hw
  · rw [hcall]
    exact ⟨hturn.slot, hturn.hooked⟩
  · rw [hcall]
    exact ⟨hsame.slot, hsame.hooked hw⟩

/-! ## Jobs that publish last -/

/-- A process that stopped and has only events left has ended. -/
theorem Place.ended_of_concludes {place : Place α} {a : α} (hplace : place.Stopped P)
    (h : place.rest.Concludes a) : place = .ended (.ok a) := by
  cases place with
  | ready job => exact hplace.elim
  | asleep moment deadline hook job =>
      obtain ⟨hjob, -⟩ := hplace
      cases job with
      | done => exact hjob.elim
      | log => exact hjob.elim
      | clock => exact hjob.elim
      | begin => exact h.elim
      | call => exact h.elim
      | pause => exact h.elim
      | commit => exact h.elim
      | rollback => exact h.elim
  | queued deadline next => exact h.elim
  | ended outcome => exact congrArg Place.ended h

variable {A : Answering Tables} {post : Tables → α → Prop}

/-- After a turn, a job that publishes last has ended with a value and committed, or has committed
nothing and still publishes last. -/
theorem Turn.publishes {s : Job.State Tables α} {w w' : World} {p : Process α} {c : Tables}
    (h : Turn P s w (p, w')) (hA : ∀ t q r t', Answers P t q r t' → A t q r t')
    (hs : s.Sound A c post) :
    (∃ a, p.place = .ended (.ok a) ∧ post w'.tables a) ∨
      ((∀ a, p.place ≠ .ended (.ok a)) ∧ w'.tables = c ∧
        p.place.rest.Publishes A c post p.unit) := by
  cases hs.steps (h.steps.mono hA) with
  | published a hjob hpost => exact .inl ⟨a, Place.ended_of_concludes h.stopped hjob, hpost⟩
  | pending hcommitted hjob =>
      refine .inr ⟨fun a hplace => ?_, hcommitted, hjob⟩
      rw [show p.place.rest = .done (.ok a) from congrArg Place.rest hplace] at hjob
      exact hjob a rfl

/-- A call of a job that publishes last ends with a value and with its rows committed, or it ends
otherwise and nothing is committed. -/
theorem call_publishes {w : World} {job : Job α} (pauses : Nat) (hw : w.Hooked P)
    (hA : ∀ t q r t', Answers P t q r t' → A t q r t')
    (hjob : job.Publishes A w.tables post none) :
    (∃ a, (call w job pauses).1 = .ok a ∧ post (call w job pauses).2.tables a) ∨
      ((∀ a, (call w job pauses).1 ≠ .ok a) ∧ (call w job pauses).2.tables = w.tables) := by
  obtain ⟨p, w', hcall, hturn | ⟨rfl, hsame⟩⟩ := call_cases w job pauses hw
  · rw [hcall]
    obtain ⟨a, hplace, hpost⟩ | ⟨hplace, htables, -⟩ :=
      hturn.publishes hA (.pending rfl hjob)
    · refine .inl ⟨a, ?_, hpost⟩
      simp only [Process.callEnd, hplace, CallEnd.ofOutcome]
    · refine .inr ⟨fun a h => ?_, htables⟩
      obtain ⟨unit, place⟩ := p
      cases place with
      | ended outcome =>
          cases outcome with
          | ok b => exact hplace b rfl
          | error e => cases h
          | overflow => cases h
      | ready job => cases h
      | asleep => cases h
      | queued => cases h
  · rw [hcall]
    exact .inr ⟨nofun, hsame.tables⟩

/-! ## Properties of tables that all schedules keep -/

/-- A property of tables holds of the committed ones and of the unit of work in the slot, and the
hooks satisfy a condition. -/
structure World.Sound (I : Tables → Prop) (P : Disturbance → Prop) (w : World) : Prop where
  tables : I w.tables
  slot : ∀ t ∈ w.slot, I t
  hooked : w.Hooked P

/-- A property of tables holds of the unit of work of a process, which waits properly. -/
structure Process.Sound (I : Tables → Prop) (P : Disturbance → Prop) (p : Process α) : Prop where
  unit : ∀ t ∈ p.unit, I t
  place : p.place.Stopped P ∨ ∃ job, p.place = .ready job

theorem World.Sound.of_same {w w' : World} (h : w.Sound I P) (hsame : w.SameStore w') :
    w'.Sound I P where
  tables := hsame.tables ▸ h.tables
  slot := hsame.slot ▸ h.slot
  hooked := hsame.hooked h.hooked

section

variable (hempty : I .empty) (hkeep : ∀ {t q r t'}, Answers P t q r t' → I t → I t')

include hempty hkeep

theorem poll_sound {p : Process α} {w : World} (i : Nat) (hp : p.Sound I P)
    (hw : w.Sound I P) : (p.poll i w).1.Sound I P ∧ (p.poll i w).2.Sound I P := by
  have hturn := Process.poll_turn p i hw.hooked hp.place
  obtain ⟨hunit, htables⟩ := hturn.steps.preserves_rows hempty hkeep hp.unit hw.tables
  exact ⟨⟨hunit, .inl hturn.stopped⟩, ⟨htables, hturn.slot ▸ hw.slot, hturn.hooked⟩⟩

theorem round_sound (ps : List (Process α)) (i : Nat) {w : World}
    (hps : ∀ p ∈ ps, p.Sound I P) (hw : w.Sound I P) :
    (∀ p ∈ (round i w ps).1, p.Sound I P) ∧ (round i w ps).2.Sound I P := by
  induction ps generalizing i w with
  | nil => exact ⟨hps, hw⟩
  | cons p rest ih =>
      obtain ⟨hp, hrest⟩ := List.forall_mem_cons.1 hps
      obtain ⟨hp', hw'⟩ := poll_sound hempty hkeep i hp hw
      simp only [round]
      split
      · exact ⟨List.forall_mem_cons.2 ⟨hp', hrest⟩, hw'⟩
      · obtain ⟨hrest', hw''⟩ := ih (i + 1) hrest hw'
        exact ⟨List.forall_mem_cons.2 ⟨hp', hrest'⟩, hw''⟩

/-- Whatever processes do together, the property still holds. -/
theorem runUntil_sound (moment rounds : Nat) {w : World} {ps : List (Process α)}
    (hps : ∀ p ∈ ps, p.Sound I P) (hw : w.Sound I P) :
    (∀ p ∈ (runUntil moment rounds w ps).1, p.Sound I P) ∧
      (runUntil moment rounds w ps).2.Sound I P := by
  have hlater : ∀ {w : World} (m : Nat), w.Sound I P → { w with now := m }.Sound I P :=
    fun m hw => hw.of_same ⟨rfl, rfl, rfl⟩
  induction rounds generalizing w ps with
  | zero => exact ⟨hps, hlater moment hw⟩
  | succ n ih =>
      rw [runUntil]
      split
      · exact ⟨hps, hw⟩
      split
      · obtain ⟨hps', hw'⟩ := round_sound hempty hkeep ps 0 hps hw
        exact ih hps' hw'
      split
      · exact ⟨hps, hw⟩
      split
      · split
        · exact ih hps (hlater _ hw)
        · exact ⟨hps, hlater _ hw⟩
      · exact ⟨hps, hlater _ hw⟩

theorem run_sound (pauses : Nat) {w : World} {ps : List (Process α)}
    (hps : ∀ p ∈ ps, p.Sound I P) (hw : w.Sound I P) :
    (∀ p ∈ (run pauses w ps).1, p.Sound I P) ∧ (run pauses w ps).2.Sound I P :=
  runUntil_sound hempty hkeep _ _ hps hw

theorem call_sound {w : World} (hw : w.Sound I P) (job : Job α) (pauses : Nat) :
    (call w job pauses).2.Sound I P := by
  have hps : ∀ p ∈ [(⟨none, .ready job⟩ : Process α)], p.Sound I P := by
    intro p hp
    rw [List.mem_singleton.1 hp]
    exact ⟨nofun, .inr ⟨job, rfl⟩⟩
  have hw' := (run_sound hempty hkeep pauses hps hw).2
  unfold call
  split
  · rename_i p w' h
    rw [h] at hw'
    exact hw'.of_same (abandon_same _ _ _)
  · rename_i ps w' _ h
    rw [h] at hw'
    exact hw'

theorem callTogether_sound {w : World} (hw : w.Sound I P) (jobs : List (Job α)) :
    (callTogether w jobs).2.Sound I P := by
  have hps : ∀ p ∈ jobs.map fun t => (⟨none, .ready t⟩ : Process α), p.Sound I P := by
    intro p hp
    obtain ⟨job, -, rfl⟩ := List.mem_map.1 hp
    exact ⟨nofun, .inr ⟨job, rfl⟩⟩
  have hw' := (run_sound hempty hkeep 0 hps hw).2.of_same
    (abandon_same (run 0 w (jobs.map fun t => ⟨none, .ready t⟩)).1 0 _)
  unfold callTogether
  dsimp only
  split
  · exact hw'
  · split
    · exact hw'
    · exact hw'

theorem callInSlot_sound {w : World} (hw : w.Sound I P) (job : Job α) :
    (callInSlot w job).2.Sound I P := by
  have hps : ∀ p ∈ [(⟨w.slot, .ready job⟩ : Process α)], p.Sound I P := by
    intro p hp
    rw [List.mem_singleton.1 hp]
    exact ⟨hw.slot, .inr ⟨job, rfl⟩⟩
  have hfree : { w with slot := none }.Sound I P := ⟨hw.tables, nofun, hw.hooked⟩
  obtain ⟨hps', hw'⟩ := run_sound hempty hkeep 0 hps hfree
  unfold callInSlot
  split
  · rename_i p w' h
    rw [h] at hps' hw'
    have hleft := hw'.of_same (w'.leave_same 0)
    dsimp only
    split
    · exact hleft.of_same (World.release_same _)
    · exact ⟨hleft.tables, (hps' p List.mem_cons_self).unit, hleft.hooked⟩
  · rename_i ps w' _ h
    rw [h] at hw'
    exact hw'

end

theorem dropSlot_sound {w : World} (hw : w.Sound I P) : (dropSlot w).Sound I P := by
  have hfree : { w with slot := none }.Sound I P := ⟨hw.tables, nofun, hw.hooked⟩
  exact hfree.of_same (World.release_same _)

theorem direct_sound {w : World} (hw : w.Sound I P) {action : Tables → α × Tables}
    (hkeep : ∀ t, I t → I (action t).2) : (direct w action).2.Sound I P := by
  unfold direct
  split
  · exact hw.of_same ⟨rfl, rfl, rfl⟩
  · exact ⟨hkeep _ hw.tables, hw.slot, hw.hooked⟩

end FundsTransfer.Rehearsal
