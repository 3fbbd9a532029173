import FundsTransfer.Proofs.Memory.Countdown
import FundsTransfer.Proofs.Rehearsal.Undisturbed
import Mathlib.Logic.Function.Basic

/-!
# When an armed fault fires

Any number of clients share a store in memory.  They open units of work, ask queries inside
them, and publish them, take them back or drop them.  Meanwhile fault points are armed, races
are announced and the committed tables are written directly.

A *history* lists what happened, latest first.  It may be any list of moves, and what is shown
holds also if there are some among them that no client can make, such as a commit without a unit
of work.

When a fault fires can be read off the history alone.  A point was last armed for its `n`-th
call, and with the latest move this many calls were made at it since: this call is `Due`.  The
store does not look back at all, but counts down.  That both come to the same is shown along the
history.  `countdown_of_armed` says what is left of a countdown, and `due_iff` says that the call
that is due finds it at one.
-/

namespace FundsTransfer.Rehearsal

open Memory

/-! ## Calls -/

/-- One call of the store or of a unit of work. -/
inductive StoreCall where
  /-- Opens a unit of work. -/
  | begin
  /-- Asks the store inside a unit of work. -/
  | ask (q : Query)
  /-- Publishes a unit of work. -/
  | commit
  /-- Takes a unit of work back. -/
  | rollback

/-- The fault point at which a call is counted. -/
def StoreCall.point? : StoreCall → Option FaultPoint
  | begin => some .begin
  | ask q => faultPoint? q
  | commit => some .commit
  | rollback => some .rollback

/-- Ends a job with the error of its call, if there is one. -/
def tell {β : Type} : Timed (Except StoreError β) → Job (Except StoreError Unit)
  | .ended r => .done (.ok (r.map fun _ => ()))
  | .cutOff limit => .done (.error (.timedOut limit))

/-- The job that makes one call. -/
def StoreCall.job : StoreCall → Job (Except StoreError Unit)
  | begin => .begin none tell
  | ask q => .call none q tell
  | commit => .commit fun r => tell (.ended r)
  | rollback => .rollback fun r => tell (.ended r)

/-! ## Histories -/

/-- A world, and its clients with the call that each made last. -/
structure Clients where
  /-- The world. -/
  world : World
  /-- The clients. -/
  client : Nat → Process (Except StoreError Unit)

/-- What can happen. -/
inductive Move where
  /-- A fault point is armed. -/
  | arm (point : FaultPoint) (occurrence : Nat)
  /-- One more reference insertion will lose a race. -/
  | race
  /-- The committed tables are written outside units of work. -/
  | direct (write : Tables → Tables)
  /-- A client makes a call. -/
  | call (client : Nat) (c : StoreCall)
  /-- A client that waits for the lock goes on if it has it. -/
  | resume (client : Nat)
  /-- A client drops its unit of work, or waits for one no longer. -/
  | drop (client : Nat)

/-- A client that holds nothing and waits for nothing. -/
def idle : Process (Except StoreError Unit) := ⟨none, .ended (.ok (.ok ()))⟩

namespace Clients

/-- Nothing happened yet. -/
def start : Clients := ⟨.fresh, fun _ => idle⟩

/-- The clients when one of them got its turn, or was dropped. -/
def move (s : Clients) (i : Nat) (turn : Process (Except StoreError Unit) × World) : Clients :=
  ⟨turn.2, Function.update s.client i turn.1⟩

/-- The clients after something happened. -/
def after (s : Clients) : Move → Clients
  | .arm point n => { s with world := { s.world with probes := s.world.probes.arm point n } }
  | .race => { s with world := { s.world with probes := s.world.probes.addRace } }
  | .direct write => { s with world := (direct s.world fun t => ((), write t)).2 }
  | .call i c => s.move i (Process.poll ⟨(s.client i).unit, .ready c.job⟩ i s.world)
  | .resume i => s.move i ((s.client i).poll i s.world)
  | .drop i => s.move i (idle, abandon i s.world [s.client i])

/-- The clients after a history, latest first. -/
def now : List Move → Clients
  | [] => start
  | m :: earlier => (now earlier).after m

/-- The calls until a fault fires at a point, and zero where none is armed. -/
def countdown (s : Clients) (point : FaultPoint) : Nat := s.world.probes.countdown point

/-- The last call of a client failed with an error. -/
def Failed (s : Clients) (i : Nat) (e : StoreError) : Prop :=
  (s.client i).place = .ended (.ok (.error e))

end Clients

/-- A call that is counted at a fault point. -/
def Move.isAt (point : FaultPoint) : Move → Bool
  | .call _ c => c.point? = some point
  | .arm .. => false
  | .race => false
  | .direct _ => false
  | .resume _ => false
  | .drop _ => false

/-- A point was last armed for its `n`-th call, and a number of calls were made at it since. -/
def Armed (point : FaultPoint) (n calls : Nat) (history : List Move) : Prop :=
  ∃ later earlier, history = later ++ .arm point n :: earlier ∧ (∀ k, .arm point k ∉ later) ∧
    later.countP (·.isAt point) = calls

/-- With the latest move as many calls were made at a point as it was last armed for. -/
def Due (point : FaultPoint) (history : List Move) : Prop :=
  ∃ n, Armed point n (max n 1) history

/-! ## The rule, move by move -/

section

variable {point : FaultPoint} {n calls : Nat} {m : Move} {history : List Move}

theorem armed_arm : Armed point n 0 (.arm point n :: history) :=
  ⟨[], history, rfl, fun _ => List.not_mem_nil, rfl⟩

theorem Armed.cons (h : Armed point n calls history) (hm : ∀ k, m ≠ .arm point k) :
    Armed point n (if m.isAt point then calls + 1 else calls) (m :: history) := by
  obtain ⟨later, earlier, rfl, hlater, rfl⟩ := h
  refine ⟨m :: later, earlier, rfl, fun k hk => ?_, ?_⟩
  · rcases List.mem_cons.1 hk with hk | hk
    · exact hm k hk.symm
    · exact hlater k hk
  · rw [List.countP_cons]
    split <;> rfl

theorem Armed.cons_cases (h : Armed point n calls (m :: history)) :
    (m = .arm point n ∧ calls = 0) ∨
      (∀ k, m ≠ .arm point k) ∧ ∃ before, Armed point n before history ∧
        calls = if m.isAt point then before + 1 else before := by
  obtain ⟨later, earlier, heq, hlater, rfl⟩ := h
  cases later with
  | nil => exact .inl ⟨(List.cons.inj heq).1, rfl⟩
  | cons first later =>
      obtain ⟨rfl, rfl⟩ := List.cons.inj heq
      refine .inr ⟨fun k hk => hlater k (hk ▸ List.mem_cons_self), _,
        ⟨later, earlier, rfl, fun k hk => hlater k (List.mem_cons_of_mem _ hk), rfl⟩, ?_⟩
      rw [List.countP_cons]
      split <;> rfl

theorem armed_or_never (point : FaultPoint) (history : List Move) :
    (∃ n calls, Armed point n calls history) ∨ ∀ n, .arm point n ∉ history := by
  induction history with
  | nil => exact .inr fun _ => List.not_mem_nil
  | cons m history ih =>
      by_cases hm : ∃ n, m = .arm point n
      · obtain ⟨n, rfl⟩ := hm
        exact .inl ⟨n, 0, armed_arm⟩
      · have hm : ∀ k, m ≠ .arm point k := not_exists.1 hm
        rcases ih with ⟨n, calls, h⟩ | hnever
        · exact .inl ⟨n, _, h.cons hm⟩
        · refine .inr fun n hmem => ?_
          rcases List.mem_cons.1 hmem with hmem | hmem
          · exact hm n hmem.symm
          · exact hnever n hmem

end

/-! ## What a move does not touch -/

namespace World

theorem probes_release (w : World) : w.release.probes = w.probes := by
  unfold release
  split <;> rfl

theorem probes_leave (w : World) (i : Nat) : (w.leave i).probes = w.probes := by
  unfold leave
  dsimp only
  split
  · exact probes_release _
  · rfl

end World

/-- Whoever is dropped takes no fault along. -/
theorem probes_abandon {α : Type} (i : Nat) (w : World) (ps : List (Process α)) :
    (abandon i w ps).probes = w.probes := by
  induction ps generalizing i w with
  | nil => rfl
  | cons p rest ih =>
      rw [abandon, ih]
      split
      · rw [World.probes_release, World.probes_leave]
      · rw [World.probes_leave]

/-! ## One call -/

/-- Where a client is between its turns: its call ended, or waits for the lock. -/
inductive Resting : Place (Except StoreError Unit) → Prop where
  | ended (outcome : Outcome (Except StoreError Unit)) : Resting (.ended outcome)
  | queued : Resting (.queued none tell)

theorem ended_ok_ne (e : StoreError) :
    (.ended (.ok (.ok ())) : Place (Except StoreError Unit)) ≠ .ended (.ok (.error e)) := by
  simp

theorem queued_ne (e : StoreError) :
    (.queued none tell : Place (Except StoreError Unit)) ≠ .ended (.ok (.error e)) := by
  simp

/-- How a call ends that asks a query, by the answer of the store. -/
def endOf {α : Type} : Except Refusal α → Outcome (Except StoreError Unit)
  | .ok _ => .ok (.ok ())
  | .error (.refused e) => .ok (.error e)
  | .error .overflow => .overflow

theorem endOf_eq_error_iff {α : Type} {r : Except Refusal α} {e : StoreError} :
    endOf r = .ok (.error e) ↔ r = .error (.refused e) := by
  rcases r with (_ | _) | _ <;> simp [endOf]

/-- What comes of the turn in which a call is made. -/
structure Called (c : StoreCall) (w : World) (r : Process (Except StoreError Unit) × World) :
    Prop where
  hooks : r.2.hooks = []
  resting : Resting r.1.place
  countdown (point : FaultPoint) : r.2.probes.countdown point =
    if c.point? = some point then w.probes.countdown point - 1 else w.probes.countdown point
  failed (point : FaultPoint) : r.1.place = .ended (.ok (.error (injected point))) ↔
    c.point? = some point ∧ w.probes.countdown point = 1

section

variable {c : StoreCall} {w w₁ : World} {r : Process (Except StoreError Unit) × World}
  {counted : FaultPoint} {fails : Bool}

/-- Some calls are all decided by the check of their fault point, as far as faults go. -/
theorem Called.of_trip (h : w.hooks = []) (hpoint : c.point? = some counted)
    (htrip : w.trip counted = (fails, w₁)) (hhooks : r.2.hooks = w₁.hooks)
    (hprobes : r.2.probes = w₁.probes) (hresting : Resting r.1.place)
    (hfails : fails = true → r.1.place = .ended (.ok (.error (injected counted))))
    (hpasses : fails = false → ∀ e, r.1.place ≠ .ended (.ok (.error e))) : Called c w r := by
  have hfired : (w.probes.trip counted).1 = fails := congrArg Prod.fst htrip
  have hcounted : (w.probes.trip counted).2 = w₁.probes := congrArg (·.2.probes) htrip
  have hkept : w.hooks = w₁.hooks := congrArg (·.2.hooks) htrip
  refine ⟨hhooks.trans (hkept.symm.trans h), hresting, fun point => ?_, fun point => ?_⟩
  · rw [hprobes, ← hcounted, hpoint, Probes.countdown_trip]
    simp only [Option.some.injEq, eq_comm]
  · have hone := w.probes.fails_iff counted
    rw [hfired] at hone
    rw [hpoint, Option.some.injEq]
    cases fails with
    | true =>
        rw [hfails rfl]
        constructor
        · intro h
          have herror := Except.error.inj (Outcome.ok.inj (Place.ended.inj h))
          obtain rfl := injected_injective herror
          exact ⟨rfl, hone.1 rfl⟩
        · rintro ⟨rfl, -⟩
          rfl
    | false =>
        refine iff_of_false (hpasses rfl _) ?_
        rintro ⟨rfl, h⟩
        exact Bool.false_ne_true (hone.2 h)

/-- The end of a unit of work is such a call, and it gives the lock up. -/
theorem Called.of_ending {w₂ : World} (h : w.hooks = []) (hpoint : c.point? = some counted)
    (htrip : w.trip counted = (fails, w₁)) (hhooks : w₂.hooks = w₁.hooks)
    (hprobes : w₂.probes = w₁.probes) :
    Called c w
      (⟨none, .ended (.ok (if fails then .error (injected counted) else .ok ()))⟩, w₂.release) := by
  refine .of_trip h hpoint htrip ((World.release_same _).hooks.trans hhooks)
    ((World.probes_release _).trans hprobes) (.ended _) ?_ ?_
  · rintro rfl
    rfl
  · rintro rfl
    exact ended_ok_ne

variable (i : Nat) (u : Option Tables)

theorem called_begin (h : w.hooks = []) :
    Called .begin w (Process.advance i u w StoreCall.begin.job) := by
  rcases htrip : w.trip .begin with ⟨fails, w₁⟩
  have hadvance : Process.advance i u w StoreCall.begin.job =
      if fails then (⟨none, .ended (.ok (.error (injected .begin)))⟩, w₁)
      else if w₁.locked then (⟨u, .queued none tell⟩, { w₁ with queue := w₁.queue ++ [i] })
      else (⟨some w₁.tables, .ended (.ok (.ok ()))⟩, { w₁ with locked := true }) := by
    rw [StoreCall.job, Process.advance, takeHook_of_nil h]
    simp only [sleepOf, if_true, Process.open?, Option.bind_none, htrip]
    cases fails with
    | true => rfl
    | false =>
        by_cases hlocked : w₁.locked = true
        · simp only [if_pos hlocked]
          rfl
        · simp only [if_neg hlocked]
          rfl
  rw [hadvance]
  cases fails with
  | true =>
      rw [if_pos rfl]
      exact .of_trip h rfl htrip rfl rfl (.ended _) (fun _ => rfl)
        fun h => absurd h.symm Bool.false_ne_true
  | false =>
      rw [if_neg Bool.false_ne_true]
      split
      · exact .of_trip h rfl htrip rfl rfl .queued (fun h => absurd h Bool.false_ne_true)
          fun _ => queued_ne
      · exact .of_trip h rfl htrip rfl rfl (.ended _) (fun h => absurd h Bool.false_ne_true)
          fun _ => ended_ok_ne

theorem called_commit (h : w.hooks = []) :
    Called .commit w (Process.advance i u w StoreCall.commit.job) := by
  rcases htrip : w.trip .commit with ⟨fails, w₁⟩
  rw [StoreCall.job, Process.advance, takeHook_of_nil h]
  simp only [sleepOf, if_true, World.commit, Option.bind_none, htrip]
  cases fails with
  | true => exact .of_ending h rfl htrip rfl rfl
  | false => exact .of_ending h rfl htrip rfl rfl

theorem called_rollback (h : w.hooks = []) :
    Called .rollback w (Process.advance i u w StoreCall.rollback.job) := by
  rcases htrip : w.trip .rollback with ⟨fails, w₁⟩
  rw [StoreCall.job, Process.advance, takeHook_of_nil h]
  simp only [sleepOf, if_true, World.rollback, Option.bind_none, htrip]
  cases fails with
  | true => exact .of_ending h rfl htrip rfl rfl
  | false => exact .of_ending h rfl htrip rfl rfl

theorem called_ask (q : Query) (h : w.hooks = []) :
    Called (.ask q) w (Process.advance i u w (StoreCall.ask q).job) := by
  have hrefused := refused_injected_iff .epoch q ⟨u.getD .empty, w.probes⟩
  have hprobes := probes_perform .epoch q ⟨u.getD .empty, w.probes⟩
  rcases hrun : (perform .epoch q).run ⟨u.getD .empty, w.probes⟩ with ⟨r, t, p⟩
  rw [hrun] at hrefused hprobes
  have hadvance : Process.advance i u w (StoreCall.ask q).job =
      (⟨some t, .ended (endOf r)⟩, { w with probes := p }) := by
    rw [StoreCall.job, Process.advance, takeHook_of_nil h]
    simp only [sleepOf, if_true, Process.ask?, World.query, Disturbance.perform, hrun]
    rcases r with (e | _) | a
    · rfl
    · rfl
    · rfl
  rw [hadvance]
  refine ⟨h, .ended _, fun point => ?_, fun point => ?_⟩
  · show p.countdown point = _
    rw [show p = w.probes.spend q from hprobes]
    exact w.probes.countdown_spend q point
  · rw [Place.ended.injEq, endOf_eq_error_iff]
    exact hrefused point

/-- Each call comes to this, where no hook is pending. -/
theorem called (c : StoreCall) (h : w.hooks = []) : Called c w (Process.advance i u w c.job) := by
  cases c with
  | begin => exact called_begin i u h
  | ask q => exact called_ask i u q h
  | commit => exact called_commit i u h
  | rollback => exact called_rollback i u h

end

/-! ## One move -/

namespace Clients

variable {s : Clients} {m : Move} {point : FaultPoint} {i j : Nat} {e : StoreError}
  {p : Process (Except StoreError Unit)} {turn : Process (Except StoreError Unit) × World}

theorem client_move_self : (s.move i turn).client i = turn.1 := Function.update_self ..

theorem client_move_of_ne (h : j ≠ i) : (s.move i turn).client j = s.client j :=
  Function.update_of_ne h ..

/-- No hook is pending, and every client is between its turns. -/
structure Orderly (s : Clients) : Prop where
  hooks : s.world.hooks = []
  resting (i : Nat) : Resting (s.client i).place

theorem start_orderly : start.Orderly := ⟨rfl, fun _ => .ended _⟩

theorem Orderly.move (h : s.Orderly) (hhooks : turn.2.hooks = []) (hplace : Resting turn.1.place) :
    (s.move i turn).Orderly := by
  refine ⟨hhooks, fun j => ?_⟩
  by_cases hj : j = i
  · subst hj
    rwa [client_move_self]
  · rw [client_move_of_ne hj]
    exact h.resting j

/-- A client that is between its turns meets no fault in the next one. -/
theorem resumed (hp : Resting p.place) (i : Nat) (w : World) :
    (p.poll i w).2.hooks = w.hooks ∧ (p.poll i w).2.probes = w.probes ∧
      Resting (p.poll i w).1.place ∧
      ((p.poll i w).1.place = p.place ∨ (p.poll i w).1.place = .ended (.ok (.ok ()))) := by
  obtain ⟨u, place⟩ := p
  cases hp with
  | ended outcome => exact ⟨rfl, rfl, .ended _, .inl rfl⟩
  | queued =>
      unfold Process.poll
      by_cases hhanded : w.handed = some i
      · simp only [if_pos hhanded]
        exact ⟨rfl, rfl, .ended _, .inr rfl⟩
      · simp only [if_neg hhanded]
        exact ⟨rfl, rfl, .queued, .inl rfl⟩

theorem Orderly.after (h : s.Orderly) (m : Move) : (s.after m).Orderly := by
  cases m with
  | arm point n => exact ⟨h.hooks, h.resting⟩
  | race => exact ⟨h.hooks, h.resting⟩
  | direct write =>
      refine ⟨?_, h.resting⟩
      show (direct s.world fun t => ((), write t)).2.hooks = []
      unfold Rehearsal.direct
      split <;> exact h.hooks
  | call i c =>
      have hcalled := called i (s.client i).unit c h.hooks
      exact Orderly.move h hcalled.hooks hcalled.resting
  | resume i =>
      obtain ⟨hhooks, -, hplace, -⟩ := resumed (h.resting i) i s.world
      exact Orderly.move h (hhooks.trans h.hooks) hplace
  | drop i =>
      have hsame := abandon_same [s.client i] i s.world
      exact Orderly.move h (hsame.hooks.trans h.hooks) (.ended _)

/-- Arming a point replaces its countdown. -/
theorem countdown_arm (s : Clients) (point : FaultPoint) (n : Nat) :
    (s.after (.arm point n)).countdown point = max n 1 :=
  (s.world.probes.countdown_arm point point n).trans (if_pos rfl)

/-- Any other move lowers the countdown of the point at which it is counted, and leaves all others
alone. -/
theorem Orderly.countdown_after (h : s.Orderly) (hm : ∀ n, m ≠ .arm point n) :
    (s.after m).countdown point =
      if m.isAt point then s.countdown point - 1 else s.countdown point := by
  cases m with
  | arm other n =>
      have hne : point ≠ other := fun heq => hm n (heq ▸ rfl)
      exact (s.world.probes.countdown_arm other point n).trans (if_neg hne)
  | race => rfl
  | direct write =>
      show (Rehearsal.direct s.world fun t => ((), write t)).2.probes.countdown point = _
      unfold Rehearsal.direct
      split <;> rfl
  | call i c =>
      simp only [Move.isAt, decide_eq_true_eq]
      exact (called i (s.client i).unit c h.hooks).countdown point
  | resume i =>
      obtain ⟨-, hprobes, -⟩ := resumed (h.resting i) i s.world
      exact congrArg (·.countdown point) hprobes
  | drop i => exact congrArg (·.countdown point) (probes_abandon i s.world _)

/-- A call fails with the error of an injected fault just when it is counted at the point of the
fault and the countdown stands at one. -/
theorem Orderly.failed_call_iff (h : s.Orderly) (i : Nat) (c : StoreCall) (point : FaultPoint) :
    (s.after (.call i c)).Failed i (injected point) ↔
      c.point? = some point ∧ s.countdown point = 1 := by
  unfold Failed
  rw [Clients.after, client_move_self]
  exact (called i (s.client i).unit c h.hooks).failed point

/-- No client fails by a move that is not a call of its own. -/
theorem Orderly.failed_of_after (h : s.Orderly) (hm : ∀ c, m ≠ .call i c)
    (hfailed : (s.after m).Failed i e) : s.Failed i e := by
  have hother {j : Nat} {turn : Process (Except StoreError Unit) × World} (hj : i ≠ j)
      (hfailed : (s.move j turn).Failed i e) : s.Failed i e := by
    unfold Failed at hfailed
    rwa [client_move_of_ne hj] at hfailed
  cases m with
  | arm point n => exact hfailed
  | race => exact hfailed
  | direct write => exact hfailed
  | call j c => exact hother (fun hj => hm c (hj ▸ rfl)) hfailed
  | resume j =>
      by_cases hj : i = j
      · subst hj
        unfold Failed at hfailed
        rw [Clients.after, client_move_self] at hfailed
        obtain ⟨-, -, -, hsame | hok⟩ := resumed (h.resting i) i s.world
        · exact hsame.symm.trans hfailed
        · exact nomatch hok.symm.trans hfailed
      · exact hother hj hfailed
  | drop j =>
      by_cases hj : i = j
      · subst hj
        unfold Failed at hfailed
        rw [Clients.after, client_move_self] at hfailed
        exact nomatch hfailed
      · exact hother hj hfailed

theorem now_orderly (history : List Move) : (now history).Orderly := by
  induction history with
  | nil => exact start_orderly
  | cons m earlier ih => exact ih.after m

end Clients

/-! ## Along a history -/

open Clients

variable {point : FaultPoint} {n calls : Nat} {later history : List Move}

/-- A point stays disarmed until it is armed. -/
theorem countdown_append (h : (now history).countdown point = 0)
    (hlater : ∀ n, .arm point n ∉ later) : (now (later ++ history)).countdown point = 0 := by
  induction later with
  | nil => exact h
  | cons m later ih =>
      have hm (n : Nat) : m ≠ .arm point n := fun heq => hlater n (heq ▸ List.mem_cons_self)
      have hbefore := ih fun n hmem => hlater n (List.mem_cons_of_mem m hmem)
      show ((now (later ++ history)).after m).countdown point = 0
      rw [(now_orderly _).countdown_after hm, hbefore]
      split <;> rfl

theorem countdown_of_never (h : ∀ n, .arm point n ∉ history) :
    (now history).countdown point = 0 := by
  have hstart : (now []).countdown point = 0 := rfl
  rw [← List.append_nil history]
  exact countdown_append hstart h

/-- What is left of a countdown, whatever happened since its point was armed. -/
theorem countdown_of_armed (h : Armed point n calls history) :
    (now history).countdown point = max n 1 - calls := by
  induction history generalizing calls with
  | nil =>
      obtain ⟨later, earlier, heq, -⟩ := h
      exact absurd heq.symm (by simp)
  | cons m earlier ih =>
      show ((now earlier).after m).countdown point = _
      rcases h.cons_cases with ⟨rfl, rfl⟩ | ⟨hm, before, hbefore, rfl⟩
      · exact countdown_arm _ _ _
      · rw [(now_orderly earlier).countdown_after hm, ih hbefore]
        split <;> omega

/-- A call is due at the point at which it is counted just when the countdown stands at one. -/
theorem due_iff {i : Nat} {c : StoreCall} (hc : c.point? = some point) :
    Due point (.call i c :: history) ↔ (now history).countdown point = 1 := by
  have hm (n : Nat) : Move.call i c ≠ .arm point n := nofun
  have hat : (Move.call i c).isAt point = true := decide_eq_true hc
  constructor
  · rintro ⟨n, h⟩
    rcases h.cons_cases with ⟨heq, -⟩ | ⟨-, before, hbefore, hcalls⟩
    · cases heq
    · rw [if_pos hat] at hcalls
      rw [countdown_of_armed hbefore]
      omega
  · intro hone
    rcases armed_or_never point history with ⟨n, calls, h⟩ | hnever
    · have hleft := countdown_of_armed h
      have hdue := h.cons hm
      rw [if_pos hat, show calls + 1 = max n 1 by omega] at hdue
      exact ⟨n, hdue⟩
    · rw [countdown_of_never hnever] at hone
      cases hone

theorem failed_call_iff_due (i : Nat) (c : StoreCall) :
    (now (.call i c :: history)).Failed i (injected point) ↔
      c.point? = some point ∧ Due point (.call i c :: history) := by
  rw [now, (now_orderly history).failed_call_iff]
  exact and_congr_right fun hc => (due_iff hc).symm

/-- A fault that fired is gone. -/
theorem countdown_of_due (h : Due point history) : (now history).countdown point = 0 := by
  obtain ⟨n, hn⟩ := h
  rw [countdown_of_armed hn, Nat.sub_self]

/-- A call fails with the error of an injected fault if and only if it is counted at the fault's
point and is the call for which the point was last armed, whatever has happened meanwhile and
whatever became of the calls before it.  After that no call at the point fails until it is armed
again, and nobody fails of a fault without a call.  What is left of a countdown is told by the
last arming and the number of calls since, and nothing else has to do with it. -/
theorem fault_fires_iff_due (history : List Move) :
    (∀ i c point, (now (.call i c :: history)).Failed i (injected point) ↔
      c.point? = some point ∧ Due point (.call i c :: history)) ∧
    (∀ point, Due point history → ∀ later, (∀ n, .arm point n ∉ later) →
      ∀ i c, ¬ (now (.call i c :: (later ++ history))).Failed i (injected point)) ∧
    (∀ m i point, (∀ c, m ≠ .call i c) → (now (m :: history)).Failed i (injected point) →
      (now history).Failed i (injected point)) ∧
    (∀ point n calls, Armed point n calls history →
      (now history).countdown point = max n 1 - calls) ∧
    (∀ point, (∀ n, .arm point n ∉ history) → (now history).countdown point = 0) ∧
    ∀ m other, (∀ n, m ≠ .arm other n) → m.isAt other = false →
      (now (m :: history)).countdown other = (now history).countdown other := by
  refine ⟨fun i c point => failed_call_iff_due i c, fun point hdue later hlater i c hfailed => ?_,
    fun m i point hm => (now_orderly history).failed_of_after hm,
    fun point n calls => countdown_of_armed, fun point => countdown_of_never,
    fun m other hm hat => ?_⟩
  · have hzero := countdown_append (countdown_of_due hdue) hlater
    have hone := ((now_orderly _).failed_call_iff i c point).1 hfailed
    rw [hzero] at hone
    exact nomatch hone.2
  · rw [now, (now_orderly history).countdown_after hm, hat]
    rfl

/-- The balance of an account that is not there changes. -/
def strayQuery : Query := .addBalance 7 .zero

/-- What happens before a third change of a balance, latest first: the point is armed for its first
call and then for its third one, one change is refused and taken back, and one is dropped. -/
def beforeThird : List Move :=
  [.call 1 .begin, .drop 0, .call 0 (.ask strayQuery), .call 0 .begin, .call 0 .rollback,
    .call 0 (.ask strayQuery), .call 0 .begin, .arm .addBalance 3, .arm .addBalance 1]

/-- The third change fails of the fault, and the two before it of the missing account. -/
theorem third_change_fails :
    (now (.call 1 (.ask strayQuery) :: beforeThird)).Failed 1 (injected .addBalance) ∧
      (now (beforeThird.drop 2)).Failed 0 (.notFound "active account 7") ∧
      (now (beforeThird.drop 5)).Failed 0 (.notFound "active account 7") := by
  refine ⟨((fault_fires_iff_due beforeThird).1 1 (.ask strayQuery) .addBalance).2
    ⟨rfl, 3, .call 1 (.ask strayQuery) :: beforeThird.take 7, [.arm .addBalance 1], rfl, ?_, ?_⟩,
    ?_, ?_⟩
  · simp [beforeThird]
  · decide
  · rfl
  · rfl

end FundsTransfer.Rehearsal
