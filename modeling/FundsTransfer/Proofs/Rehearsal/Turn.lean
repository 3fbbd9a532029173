import FundsTransfer.Proofs.Memory.Answer
import FundsTransfer.Proofs.Work.Step
import FundsTransfer.Rehearsal.Process

/-!
# The turn of a process

When a process gets its turn, its job takes steps until it ends or waits.  `poll_turn`
says so: whatever `poll` does to a process and to the world is a run of the job in the
sense of `Job.Steps`, over the answers that the store in memory can give.  What the
clock, the lock, the faults and the hooks decide is which run it is.

The hooks are restricted by a condition `P` on what they do.  A hook that is used up
leaves no other behind, so a world whose hooks satisfy `P` stays one.  With the condition
that is always true, everything here is about all worlds.
-/

namespace FundsTransfer.Rehearsal

open Memory

variable {α : Type} {P : Disturbance → Prop}

/-- The answers of the store in memory under hooks that satisfy a condition, whatever faults and
races are pending. -/
def Answers (P : Disturbance → Prop) : Answering Tables := fun t q r t' =>
  ∃ hook : Option Disturbance, (∀ d ∈ hook, P d) ∧
    (Disturbance.perform hook .epoch q).Gives t (r.mapError Refusal.refused) t'

/-- The hooks of a world satisfy a condition. -/
def World.Hooked (P : Disturbance → Prop) (w : World) : Prop := ∀ h ∈ w.hooks, P h.effect

/-! ## What a turn does not touch -/

/-- Two worlds with the same committed tables, the same hooks and the same slot. -/
structure World.SameStore (w w' : World) : Prop where
  tables : w'.tables = w.tables
  hooks : w'.hooks = w.hooks
  slot : w'.slot = w.slot

namespace World

theorem SameStore.trans {w w' w'' : World} (h : w.SameStore w') (h' : w'.SameStore w'') :
    w.SameStore w'' :=
  ⟨h'.tables.trans h.tables, h'.hooks.trans h.hooks, h'.slot.trans h.slot⟩

theorem SameStore.hooked {w w' : World} (h : w.SameStore w') (hw : w.Hooked P) :
    w'.Hooked P := by
  intro hook hmem
  rw [h.hooks] at hmem
  exact hw hook hmem

theorem release_same (w : World) : w.SameStore w.release := by
  unfold release
  split <;> exact ⟨rfl, rfl, rfl⟩

theorem leave_same (w : World) (i : Nat) : w.SameStore (w.leave i) := by
  unfold leave
  dsimp only
  split
  · have hleft : w.SameStore
        { w with queue := w.queue.filter (· != i), handed := none } := ⟨rfl, rfl, rfl⟩
    exact hleft.trans (release_same _)
  · exact ⟨rfl, rfl, rfl⟩

theorem trip_same (w : World) (point : FaultPoint) : w.SameStore (w.trip point).2 :=
  ⟨rfl, rfl, rfl⟩

/-- A commit puts the unit of work in the place of the tables, or fails and changes nothing. -/
theorem commit_cases (w : World) (unit : Tables) (hook : Option Disturbance) :
    ((w.commit unit hook).1 = .ok () ∧ { w with tables := unit }.SameStore (w.commit unit hook).2) ∨
      ((∃ e, (w.commit unit hook).1 = .error e) ∧ w.SameStore (w.commit unit hook).2) := by
  unfold commit
  split
  · exact .inr ⟨⟨_, rfl⟩, release_same w⟩
  · have htrip := trip_same w .commit
    split
    · rename_i w₁ h
      rw [h] at htrip
      exact .inr ⟨⟨_, rfl⟩, htrip.trans (release_same w₁)⟩
    · rename_i w₁ h
      rw [h] at htrip
      have hput : { w with tables := unit }.SameStore { w₁ with tables := unit } :=
        ⟨rfl, htrip.hooks, htrip.slot⟩
      exact .inl ⟨rfl, hput.trans (release_same _)⟩

theorem rollback_same (w : World) (hook : Option Disturbance) :
    w.SameStore (w.rollback hook).2 := by
  unfold rollback
  split
  · exact release_same w
  · have htrip := trip_same w .rollback
    split
    · rename_i w₁ h
      rw [h] at htrip
      exact htrip.trans (release_same w₁)
    · rename_i w₁ h
      rw [h] at htrip
      exact htrip.trans (release_same w₁)

end World

/-- A hook that fires was there, and so were those that are left, up to what they let pass. -/
theorem effect_of_take (request : Request) {hooks : List Hook}
    (h : ∀ hook ∈ hooks, P hook.effect) :
    (∀ d ∈ (Trigger.take request hooks).1, P d) ∧
      ∀ hook ∈ (Trigger.take request hooks).2, P hook.effect := by
  induction hooks with
  | nil =>
      refine ⟨fun d hd => ?_, h⟩
      cases hd
  | cons hook rest ih =>
      have hhead := h hook List.mem_cons_self
      have hrest := fun g hg => h g (List.mem_cons_of_mem hook hg)
      obtain ⟨hfired, hleft⟩ := ih hrest
      simp only [Trigger.take]
      split
      · split
        · refine ⟨fun d hd => ?_, hrest⟩
          cases hd
          exact hhead
        · refine ⟨fun d hd => ?_, fun g hg => ?_⟩
          · cases hd
          rcases List.mem_cons.1 hg with rfl | hg
          · exact hhead
          · exact hrest g hg
      · refine ⟨hfired, fun g hg => ?_⟩
        rcases List.mem_cons.1 hg with rfl | hg
        · exact hhead
        · exact hleft g hg

/-- Looking for a hook changes the hooks only. -/
theorem World.takeHook_keeps {w w' : World} {request : Request} {hook : Option Disturbance}
    (hw : w.Hooked P) (h : w.takeHook request = (hook, w')) :
    (∀ d ∈ hook, P d) ∧ w'.Hooked P ∧ w'.tables = w.tables ∧ w'.slot = w.slot := by
  obtain ⟨hfired, hleft⟩ := effect_of_take request hw
  cases h
  exact ⟨hfired, hleft, rfl, rfl⟩

/-! ## The answers of a turn -/

/-- An overflow leaves the copy as it was, under any hook. -/
theorem Disturbance.overflow_keeps {hook : Option Disturbance} {q : Query} {t t' : Tables}
    {now : Timestamp}
    (h : (Disturbance.perform hook now q).Gives t (.error .overflow) t') : t' = t := by
  unfold Disturbance.perform at h
  split at h
  · exact Memory.overflow_keeps h
  · split at h
    · exact (Operation.gives_refuse h).2
    · exact (Operation.gives_pure h).2
    · obtain ⟨r, h, hr⟩ := Operation.gives_map h
      cases r with
      | ok a => cases hr
      | error e =>
          cases hr
          exact Memory.overflow_keeps h
    · exact Memory.overflow_keeps h

namespace Process

/-- An opening takes a copy of the committed tables, or fails, or has to wait. -/
theorem open?_cases (w : World) (hook : Option Disturbance) :
    ∃ w', w.SameStore w' ∧
      ((∃ e, open? w hook = (some (.error e), none, w')) ∨ open? w hook = (none, none, w') ∨
        open? w hook = (some (.ok ()), some w.tables, w')) := by
  unfold open?
  split
  · exact ⟨w, ⟨rfl, rfl, rfl⟩, .inl ⟨_, rfl⟩⟩
  · have htrip := World.trip_same w .begin
    split
    · rename_i w₁ h
      rw [h] at htrip
      exact ⟨w₁, htrip, .inl ⟨_, rfl⟩⟩
    · rename_i w₁ h
      rw [h] at htrip
      split
      · exact ⟨w₁, htrip, .inr (.inl rfl)⟩
      · exact ⟨{ w₁ with locked := true }, ⟨htrip.tables, htrip.hooks, htrip.slot⟩,
          .inr (.inr (by rw [htrip.tables]))⟩

/-- A query gets an answer of the store, or ends in an overflow that leaves the unit of work as it
was. -/
theorem ask?_cases (w : World) (unit : Tables) {hook : Option Disturbance} (q : Query)
    (hP : ∀ d ∈ hook, P d) :
    ∃ w', w.SameStore w' ∧
      ((∃ r t, ask? w unit hook q = (some r, t, w') ∧ Answers P unit q r t) ∨
        ask? w unit hook q = (none, unit, w')) := by
  rcases hrun : (Disturbance.perform hook .epoch q).run ⟨unit, w.probes⟩ with ⟨r, t, p⟩
  have hgives : (Disturbance.perform hook .epoch q).Gives unit r t := ⟨_, _, hrun⟩
  have hquery : w.query unit hook q = (r, t, { w with probes := p }) := by
    simp only [World.query, hrun]
  refine ⟨{ w with probes := p }, ⟨rfl, rfl, rfl⟩, ?_⟩
  unfold ask?
  rw [hquery]
  cases r with
  | ok a => exact .inl ⟨.ok a, t, rfl, hook, hP, hgives⟩
  | error e =>
      cases e with
      | refused e => exact .inl ⟨.error e, t, rfl, hook, hP, hgives⟩
      | overflow =>
          cases Disturbance.overflow_keeps hgives
          exact .inr rfl

end Process

/-! ## One turn -/

/-- Whether the first step of a job is one that can take time. -/
def Waits : Job α → Prop
  | .done _ => False
  | .log .. => False
  | .clock _ => False
  | .begin .. => True
  | .call .. => True
  | .pause .. => True
  | .commit _ => True
  | .rollback _ => True

/-- What is left of the job at a place. -/
def Place.rest : Place α → Job α
  | .ready job => job
  | .asleep _ _ _ job => job
  | .queued deadline next => .begin deadline next
  | .ended outcome => .done outcome

/-- Where a process can stop.  If it sleeps, its job is at a step that can take time, and the hook
satisfies the condition. -/
def Place.Stopped (P : Disturbance → Prop) : Place α → Prop
  | .ready _ => False
  | .asleep _ _ hook job => Waits job ∧ ∀ d ∈ hook, P d
  | .queued .. => True
  | .ended _ => True

/-- What a turn that starts in a state comes to: a run of the job, up to a place where the process
stops. -/
structure Turn (P : Disturbance → Prop) (s : Job.State Tables α) (w : World)
    (r : Process α × World) : Prop where
  steps : Job.Steps (Answers P) s ⟨r.1.place.rest, r.1.unit, r.2.tables⟩
  stopped : r.1.place.Stopped P
  hooked : r.2.Hooked P
  slot : r.2.slot = w.slot

/-- A turn may begin with one more step. -/
theorem Turn.head {s s' : Job.State Tables α} {w w' : World} {r : Process α × World}
    (hstep : Job.Step (Answers P) s s') (hslot : w'.slot = w.slot) (h : Turn P s' w' r) :
    Turn P s w r :=
  ⟨.head hstep h.steps, h.stopped, h.hooked, h.slot.trans hslot⟩

theorem Turn.of_slot {s : Job.State Tables α} {w w' : World} {r : Process α × World}
    (hslot : w'.slot = w.slot) (h : Turn P s w' r) : Turn P s w r :=
  ⟨h.steps, h.stopped, h.hooked, h.slot.trans hslot⟩

/-- A turn may look for a hook before all else. -/
theorem Turn.of_takeHook {job : Job α} {u : Option Tables} {w : World} {r : Process α × World}
    (request : Request) (hw : w.Hooked P)
    (h : ∀ hook w', w.takeHook request = (hook, w') → w'.Hooked P → (∀ d ∈ hook, P d) →
      Turn P ⟨job, u, w'.tables⟩ w' r) : Turn P ⟨job, u, w.tables⟩ w r := by
  rcases htake : w.takeHook request with ⟨hook, w'⟩
  obtain ⟨hhook, hw', htables, hslot⟩ := World.takeHook_keeps hw htake
  rw [← htables]
  exact (h hook w' htake hw' hhook).of_slot hslot

/-- Turns of one process follow each other. -/
theorem Turn.trans {s : Job.State Tables α} {w w₁ : World} {p : Process α}
    {r : Process α × World} (h : Turn P s w (p, w₁))
    (h' : Turn P ⟨p.place.rest, p.unit, w₁.tables⟩ w₁ r) : Turn P s w r :=
  ⟨h.steps.trans h'.steps, h'.stopped, h'.hooked, h'.slot.trans h.slot⟩

/-- What happens to other parts of the world does not matter. -/
theorem Turn.to_same {s : Job.State Tables α} {w w₁ w₂ : World} {p : Process α}
    (h : Turn P s w (p, w₁)) (hsame : w₁.SameStore w₂) : Turn P s w (p, w₂) := by
  refine ⟨?_, h.stopped, hsame.hooked h.hooked, hsame.slot.trans h.slot⟩
  show Job.Steps _ _ ⟨_, _, w₂.tables⟩
  rw [hsame.tables]
  exact h.steps

namespace Process

variable {i : Nat} {u : Option Tables} {w w' : World} {hook : Option Disturbance}

/-- Letting a job go on is a turn, in every world. -/
def Goes (P : Disturbance → Prop) (i : Nat) (job : Job α) : Prop :=
  ∀ u w, w.Hooked P → Turn P ⟨job, u, w.tables⟩ w (advance i u w job)

/-- A process that falls asleep has taken no step. -/
theorem asleep_turn {job : Job α} {moment : Nat} {deadline : Option Deadline}
    (hjob : Waits job) (hw : w.Hooked P) (hhook : ∀ d ∈ hook, P d) :
    Turn P ⟨job, u, w.tables⟩ w (stop u (.asleep moment deadline hook job) w) :=
  ⟨.refl, ⟨hjob, hhook⟩, hw, rfl⟩

/-- What goes on from a world that only differs in other parts goes on from this one. -/
theorem Goes.after {job : Job α} {s : Job.State Tables α} (h : Goes P i job)
    (hw : w.Hooked P) (hsame : w.SameStore w')
    (hstep : Job.Step (Answers P) s ⟨job, u, w'.tables⟩) :
    Turn P s w (advance i u w' job) :=
  .head hstep hsame.slot (h u w' (hsame.hooked hw))

theorem wake_begin_turn {deadline : Option Deadline}
    {next : Timed (Except StoreError Unit) → Job α} (hnext : ∀ r, Goes P i (next r))
    (hw : w.Hooked P) :
    Turn P ⟨.begin deadline next, u, w.tables⟩ w (wake i u hook w (.begin deadline next)) := by
  obtain ⟨w', hsame, ⟨e, h⟩ | h | h⟩ := open?_cases w hook
  · simp only [wake, h]
    exact (hnext _).after hw hsame (hsame.tables ▸ .notOpened e)
  · simp only [wake, h]
    split
    · exact (hnext _).after hw hsame (hsame.tables ▸ .notInTime _)
    · refine ⟨?_, trivial, hsame.hooked hw, hsame.slot⟩
      show Job.Steps _ _ ⟨_, u, w'.tables⟩
      rw [hsame.tables]
      exact .refl
  · simp only [wake, h]
    exact (hnext _).after hw hsame (hsame.tables ▸ .opened)

theorem wake_call_turn {deadline : Option Deadline} {q : Query}
    {next : Timed (Except StoreError q.Answer) → Job α} (hnext : ∀ r, Goes P i (next r))
    (hw : w.Hooked P) (hhook : ∀ d ∈ hook, P d) :
    Turn P ⟨.call deadline q next, u, w.tables⟩ w (wake i u hook w (.call deadline q next)) := by
  obtain ⟨w', hsame, ⟨r, t, h, hanswer⟩ | h⟩ := ask?_cases w (u.getD .empty) q hhook
  · simp only [wake, h]
    exact (hnext _).after hw hsame (hsame.tables ▸ .answered hanswer)
  · simp only [wake, h]
    refine ⟨.single ?_, trivial, hsame.hooked hw, hsame.slot⟩
    show Job.Step _ _ ⟨_, _, w'.tables⟩
    rw [hsame.tables]
    exact .overflowed

theorem wake_commit_turn {next : Except StoreError Unit → Job α}
    (hnext : ∀ r, Goes P i (next r)) (hw : w.Hooked P) :
    Turn P ⟨.commit next, u, w.tables⟩ w (wake i u hook w (.commit next)) := by
  obtain ⟨h, hsame⟩ | ⟨⟨e, h⟩, hsame⟩ := World.commit_cases w (u.getD .empty) hook
  · show Turn P _ w (advance i none (w.commit (u.getD .empty) hook).2
      (next (w.commit (u.getD .empty) hook).1))
    rw [h]
    have hturn := hnext (.ok ()) none _ (hsame.hooked hw)
    rw [hsame.tables] at hturn
    exact hturn.head .committed hsame.slot
  · show Turn P _ w (advance i none (w.commit (u.getD .empty) hook).2
      (next (w.commit (u.getD .empty) hook).1))
    rw [h]
    exact (hnext _).after hw hsame (hsame.tables ▸ .notCommitted e)

theorem wake_rollback_turn {next : Except StoreError Unit → Job α}
    (hnext : ∀ r, Goes P i (next r)) (hw : w.Hooked P) :
    Turn P ⟨.rollback next, u, w.tables⟩ w (wake i u hook w (.rollback next)) :=
  have hsame := World.rollback_same w hook
  (hnext _).after hw hsame (hsame.tables ▸ .rolledBack _)

/-- A job goes on until it ends or waits, from every step on. -/
theorem goes (i : Nat) (job : Job α) : Goes P i job := by
  induction job with
  | done outcome => exact fun u w hw => ⟨.refl, trivial, hw, rfl⟩
  | log event rest ih => exact fun u w hw => .head .log rfl (ih u w hw)
  | clock next ih => exact fun u w hw => .head (.clock w.now) rfl (ih w.now u w hw)
  | begin deadline next ih =>
      intro u w hw
      refine .of_takeHook .begin hw fun hook w₁ htake hw₁ hhook => ?_
      simp only [advance, htake]
      split
      · exact wake_begin_turn ih hw₁
      · split
        · exact (ih _ u w₁ hw₁).head (.notInTime _) rfl
        · exact asleep_turn trivial hw₁ hhook
  | call deadline q next ih =>
      intro u w hw
      refine .of_takeHook q.request hw fun hook w₁ htake hw₁ hhook => ?_
      simp only [advance, htake]
      split
      · show Turn P _ w₁ (wake i u hook w₁ (.call deadline q next))
        exact wake_call_turn ih hw₁ hhook
      · split
        · exact (ih _ u w₁ hw₁).head (.cutOff _) rfl
        · exact asleep_turn trivial hw₁ hhook
  | pause deadline ms next ih =>
      intro u w hw
      simp only [advance]
      split
      · exact (ih _ u w hw).head (.paused _) rfl
      · split
        · exact (ih _ u w hw).head (.paused _) rfl
        · exact asleep_turn trivial hw nofun
  | commit next ih =>
      intro u w hw
      refine .of_takeHook .commit hw fun hook w₁ htake hw₁ hhook => ?_
      simp only [advance, htake]
      split
      · exact wake_commit_turn ih hw₁
      · exact asleep_turn trivial hw₁ hhook
  | rollback next ih =>
      intro u w hw
      refine .of_takeHook .rollback hw fun hook w₁ htake hw₁ hhook => ?_
      simp only [advance, htake]
      split
      · exact wake_rollback_turn ih hw₁
      · exact asleep_turn trivial hw₁ hhook

theorem wake_turn {job : Job α} (hw : w.Hooked P) (hhook : ∀ d ∈ hook, P d) :
    Turn P ⟨job, u, w.tables⟩ w (wake i u hook w job) := by
  cases job with
  | done outcome => exact goes i _ u w hw
  | log event rest => exact goes i _ u w hw
  | clock next => exact goes i _ u w hw
  | begin deadline next => exact wake_begin_turn (fun r => goes i (next r)) hw
  | call deadline q next => exact wake_call_turn (fun r => goes i (next r)) hw hhook
  | pause deadline ms next => exact (goes i _ u w hw).head (.paused _) rfl
  | commit next => exact wake_commit_turn (fun r => goes i (next r)) hw
  | rollback next => exact wake_rollback_turn (fun r => goes i (next r)) hw

theorem cut_turn {job : Job α} {limit : Duration} (hw : w.Hooked P) :
    Turn P ⟨job, u, w.tables⟩ w (cut i u limit w job) := by
  cases job with
  | done outcome => exact goes i _ u w hw
  | log event rest => exact goes i _ u w hw
  | clock next => exact goes i _ u w hw
  | begin deadline next => exact (goes i _ u w hw).head (.notInTime limit) rfl
  | call deadline q next => exact (goes i _ u w hw).head (.cutOff limit) rfl
  | pause deadline ms next => exact (goes i _ u w hw).head (.paused _) rfl
  | commit next => exact goes i _ u w hw
  | rollback next => exact goes i _ u w hw

/-- What a process does when its turn comes is a run of its job. -/
theorem poll_turn (p : Process α) (i : Nat) {w : World} (hw : w.Hooked P)
    (hp : p.place.Stopped P ∨ ∃ job, p.place = .ready job) :
    Turn P ⟨p.place.rest, p.unit, w.tables⟩ w (p.poll i w) := by
  obtain ⟨u, place⟩ := p
  cases place with
  | ready job => exact goes i job u w hw
  | asleep moment deadline hook job =>
      obtain ⟨hjob, hhook⟩ | ⟨_, h⟩ := hp
      · simp only [poll, Place.rest]
        split
        · exact wake_turn hw hhook
        · split
          · exact cut_turn hw
          · exact ⟨.refl, ⟨hjob, hhook⟩, hw, rfl⟩
      · cases h
  | queued deadline next =>
      simp only [poll, Place.rest]
      split
      · have hsame : w.SameStore { w with handed := none } := ⟨rfl, rfl, rfl⟩
        exact (goes i _).after hw hsame .opened
      · split
        · have hsame := World.leave_same w i
          exact (goes i _).after hw hsame (hsame.tables ▸ .notInTime _)
        · exact ⟨.refl, trivial, hw, rfl⟩
  | ended outcome => exact ⟨.refl, trivial, hw, rfl⟩

end Process

end FundsTransfer.Rehearsal
