import FundsTransfer.Database.Client
import FundsTransfer.Proofs.Rehearsal.Calculated

/-!
# Jobs on a database that nothing disturbs

Where no trigger waits and no transaction is kept open by hand, what a job comes to can be
calculated.  `Session` is an open transaction with the numbers that the server has given
out, and a query takes one session to the next.  `Work.Reaches` is the calculation for
work, as `Work.Yields` is for the store in memory.

The session that the work leaves behind is published when the work succeeded and no
statement failed in it.  Otherwise the tables are as they were, and only the numbers that
were given out are gone.
-/

namespace FundsTransfer

namespace Database

/-- A transaction that is open, and the last numbers given out. -/
structure Session where
  /-- Its copy of the tables. -/
  data : Data
  /-- Whether a statement failed. -/
  aborted : Bool
  /-- The last numbers given out. -/
  counters : Counters

/-- The answer to a query, and the session after it. -/
def Session.ask (s : Session) (q : Query) : Except StoreError q.Answer × Session :=
  if s.aborted then (answer q (.error abortedError), s)
  else
    match runQuery s.data s.counters false q with
    | (.ok (rows, data), counters) => (answer q (.ok rows), ⟨data, false, counters⟩)
    | (.error e, counters) => (answer q (.error e), ⟨s.data, true, counters⟩)

theorem Session.ask_of_live {s : Session} (hs : s.aborted = false) (q : Query) :
    s.ask q = match runQuery s.data s.counters false q with
      | (.ok (rows, data), counters) => (answer q (.ok rows), ⟨data, false, counters⟩)
      | (.error e, counters) => (answer q (.error e), ⟨s.data, true, counters⟩) := by
  rw [ask, if_neg (by simp [hs])]

/-- Numbers were given out since, or not. -/
structure Counters.Le (c c' : Counters) : Prop where
  transaction : c.transaction ≤ c'.transaction
  entry : c.entry ≤ c'.entry

theorem Counters.Le.refl (c : Counters) : c.Le c := ⟨Nat.le_refl _, Nat.le_refl _⟩

theorem Counters.Le.trans {c c' c'' : Counters} (h : c.Le c') (h' : c'.Le c'') : c.Le c'' :=
  ⟨Nat.le_trans h.transaction h'.transaction, Nat.le_trans h.entry h'.entry⟩

/-- No number is taken back, whatever comes of a query. -/
theorem counters_runQuery (d : Data) (c : Counters) (race : Bool) (q : Query) :
    c.Le (runQuery d c race q).2 := by
  cases q with
  | createTransaction new => exact ⟨Nat.le_succ _, Nat.le_refl _⟩
  | createEntry new => exact ⟨Nat.le_refl _, Nat.le_succ _⟩
  | _ => exact .refl c

theorem Session.counters_ask (s : Session) (q : Query) : s.counters.Le (s.ask q).2.counters := by
  have hle := counters_runQuery s.data s.counters false q
  unfold ask
  split
  · exact .refl _
  · rcases hrun : runQuery s.data s.counters false q with ⟨e | ⟨rows, data⟩, counters⟩
    · rw [hrun] at hle
      exact hle
    · rw [hrun] at hle
      exact hle

end Database

/-! ## Work -/

namespace Work

open Database

variable {α β : Type} {s s₁ s' : Session}

/-- What work comes to in a session, and what it leaves behind.  Work that waits comes to
nothing. -/
def Reaches : Work α → Session → Outcome α → Session → Prop
  | .done a, s, o, s' => o = .ok a ∧ s' = s
  | .fail e, s, o, s' => o = .error e ∧ s' = s
  | .overflow, s, o, s' => o = .overflow ∧ s' = s
  | .log _ rest, s, o, s' => rest.Reaches s o s'
  | .pause _ _, _, _, _ => False
  | .call q next, s, o, s' => (next (s.ask q).1).Reaches (s.ask q).2 o s'

theorem reaches_pure (a : α) : (pure a : Work α).Reaches s (.ok a) s := ⟨rfl, rfl⟩

@[simp] theorem reaches_emit_bind {event : Log.Event} {f : Unit → Work β} {o : Outcome β} :
    (emit event >>= f).Reaches s o s' ↔ (f ()).Reaches s o s' := Iff.rfl

theorem reaches_ask {q : Query} {r : Except StoreError q.Answer} (h : s.ask q = (r, s')) :
    (ask q).Reaches s (.ok r) s' := by
  refine ⟨?_, ?_⟩
  · rw [h]
  · rw [h]

theorem reaches_require {q : Query} {f : StoreError → TransferError} {a : q.Answer}
    (h : s.ask q = (.ok a, s')) : (require q f).Reaches s (.ok a) s' := by
  rw [require, Reaches, h]
  exact ⟨rfl, rfl⟩

theorem reaches_require_error {q : Query} {f : StoreError → TransferError} {e : StoreError}
    (h : s.ask q = (.error e, s')) : (require q f).Reaches s (.error (f e)) s' := by
  rw [require, Reaches, h]
  exact ⟨rfl, rfl⟩

/-- A sequence goes on from where its first part succeeded. -/
theorem Reaches.bind {w : Work α} {f : α → Work β} {a : α} {o : Outcome β}
    (hw : w.Reaches s (.ok a) s₁) (hf : (f a).Reaches s₁ o s') : (w >>= f).Reaches s o s' := by
  induction w generalizing s with
  | done b =>
      obtain ⟨ha, rfl⟩ := hw
      cases ha
      exact hf
  | fail e => cases hw.1
  | overflow => cases hw.1
  | log event rest ih => exact ih hw
  | pause ms rest ih => exact hw.elim
  | call q next ih => exact ih _ hw

/-- A sequence stops where its first part does. -/
theorem Reaches.bind_error {w : Work α} {f : α → Work β} {e : TransferError}
    (hw : w.Reaches s (.error e) s') : (w >>= f).Reaches s (.error e) s' := by
  induction w generalizing s with
  | done b => cases hw.1
  | fail e' =>
      obtain ⟨he, rfl⟩ := hw
      cases he
      exact ⟨rfl, rfl⟩
  | overflow => cases hw.1
  | log event rest ih => exact ih hw
  | pause ms rest ih => exact hw.elim
  | call q next ih => exact ih _ hw

/-- However work ends, the numbers that it was given are gone. -/
theorem Reaches.counters {w : Work α} {o : Outcome α} (h : w.Reaches s o s') :
    s.counters.Le s'.counters := by
  induction w generalizing s with
  | done a => exact h.2 ▸ .refl _
  | fail e => exact h.2 ▸ .refl _
  | overflow => exact h.2 ▸ .refl _
  | log event rest ih => exact ih h
  | pause ms rest ih => exact h.elim
  | call q next ih => exact (s.counters_ask q).trans (ih _ h)

end Work

/-! ## Jobs -/

namespace Database

variable {α β : Type} {c : Client} {d : Data} {s s' : Session}

/-- A client to whom nothing happens but its own jobs. -/
structure Client.Undisturbed (c : Client) : Prop where
  triggers : c.server.triggers = []
  slot : c.slot = none

/-- A client of a database in which two accounts have a hundred dollars each. -/
def hundredEachThere : Client where
  server := ((Server.fresh.openAccount 1 "USD" Rehearsal.hundredDollars).2.openAccount 2 "USD"
    Rehearsal.hundredDollars).2
  pool := ⟨1, 0, 0⟩
  slot := none
  current := none
  now := 0
  events := []

/-- A client in the middle of a job, with the tables as they were last published. -/
structure Client.Holds (c : Client) (d : Data) (s : Session) : Prop extends c.Undisturbed where
  published : c.server.published = d
  counters : c.server.counters = s.counters
  current : c.current = some ⟨s.data, s.aborted⟩

theorem Server.attempt_of_nil {server : Server} (h : server.triggers = []) (st : Statement) :
    server.attempt st = (.ok none, server) := by
  obtain ⟨published, counters, triggers, migrated⟩ := server
  subst h
  rfl

/-- A query takes the session of the client to the next one. -/
theorem Client.Holds.ask (h : c.Holds d s) (q : Query) :
    ∃ c' : Client, c.ask q = ((s.ask q).1, c') ∧ c'.Holds d (s.ask q).2 := by
  obtain ⟨⟨published, counters, triggers, migrated⟩, pool, slot, current, now, events⟩ := c
  obtain ⟨⟨htriggers, hslot⟩, hpublished, hcounters, hcurrent⟩ := h
  simp only at htriggers hslot hpublished hcounters hcurrent
  subst htriggers hslot hpublished hcounters hcurrent
  unfold Client.ask Server.run Session.ask
  simp only [Server.attempt_of_nil]
  cases haborted : s.aborted with
  | true =>
      refine ⟨_, rfl, ⟨⟨rfl, rfl⟩, rfl, rfl, ?_⟩⟩
      simp only [if_true, haborted]
  | false =>
      rcases hrun : runQuery s.data s.counters false q with ⟨e | ⟨rows, data⟩, counters⟩
      · simp only [Bool.false_eq_true, if_false, Option.any_none, hrun]
        exact ⟨_, rfl, ⟨⟨rfl, rfl⟩, rfl, rfl, rfl⟩⟩
      · simp only [Bool.false_eq_true, if_false, Option.any_none, hrun]
        exact ⟨_, rfl, ⟨⟨rfl, rfl⟩, rfl, rfl, rfl⟩⟩

/-- Work comes to its result, whatever the deadline. -/
theorem Client.Holds.run_within (deadline : Option Deadline) {work : Work α}
    {r : Except TransferError α} {k : Except TransferError α → Job β} (hc : c.Holds d s)
    (h : work.Reaches s (.ofExcept r) s') :
    ∃ c' : Client, c'.Holds d s' ∧ c.run (Job.within deadline work k) = c'.run (k r) := by
  induction work generalizing c s with
  | done a =>
      obtain ⟨hr, rfl⟩ := h
      cases r with
      | ok b =>
          cases hr
          exact ⟨c, hc, rfl⟩
      | error e => cases hr
  | fail e =>
      obtain ⟨hr, rfl⟩ := h
      cases r with
      | ok b => cases hr
      | error e' =>
          cases hr
          exact ⟨c, hc, rfl⟩
  | overflow =>
      cases r with
      | ok b => cases h.1
      | error e => cases h.1
  | log event rest ih =>
      have hemit : (c.emit event).Holds d s := { hc with }
      exact ih hemit h
  | pause ms rest ih => exact h.elim
  | call q next ih =>
      obtain ⟨c₁, hask, hc₁⟩ := hc.ask q
      rw [Job.within, Client.run, hask]
      exact ih _ hc₁ h

/-- Nothing refuses to open a transaction. -/
theorem Client.Undisturbed.begin (hc : c.Undisturbed) (deadline : Option Deadline) :
    ∃ c' : Client, c.begin deadline = (.ended (.ok ()), c') ∧
      c'.Holds c.server.published ⟨c.server.published, false, c.server.counters⟩ := by
  obtain ⟨server, pool, slot, current, now, events⟩ := c
  obtain ⟨htriggers, hslot⟩ := hc
  simp only at htriggers hslot
  subst hslot
  unfold Client.begin Server.begin
  simp only [Server.attempt_of_nil htriggers, Option.isSome_none, Bool.false_eq_true, if_false]
  exact ⟨_, rfl, ⟨⟨htriggers, rfl⟩, rfl, rfl, rfl⟩⟩

/-- The tables that are published after a session in which work came to a result. -/
def Session.settled (s : Session) (before : Data) : Except TransferError α → Data
  | .ok _ => if s.aborted then before else s.data
  | .error _ => before

/-- The client after a session that was settled. -/
structure Client.Settled (c : Client) (d : Data) (s : Session) : Prop extends c.Undisturbed where
  published : c.server.published = d
  counters : c.server.counters = s.counters

theorem Client.Holds.commit (hc : c.Holds d s) :
    ∃ c' : Client, c.commit = (.ok (), c') ∧ c'.Settled (if s.aborted then d else s.data) s := by
  unfold Client.commit Server.commit
  simp only [hc.current, Server.attempt_of_nil hc.triggers]
  refine ⟨_, rfl, ?_⟩
  split
  · exact ⟨⟨hc.triggers, hc.slot⟩, hc.published, hc.counters⟩
  · exact ⟨⟨hc.triggers, hc.slot⟩, rfl, hc.counters⟩

theorem Client.Holds.rollback (hc : c.Holds d s) :
    ∃ c' : Client, c.rollback = (.ok (), c') ∧ c'.Settled d s := by
  unfold Client.rollback Server.rollback
  simp only [Server.attempt_of_nil hc.triggers]
  exact ⟨_, rfl, ⟨⟨hc.triggers, hc.slot⟩, hc.published, hc.counters⟩⟩

/-- A unit of work is settled as it came to its result. -/
theorem Client.Holds.run_settle {r : Except TransferError α}
    {k : Except TransferError α → Job β} (hc : c.Holds d s) :
    ∃ c' : Client, c'.Settled (s.settled d r) s ∧
      c.run ((Job.settle r).andThen k) = c'.run (k r) := by
  cases r with
  | ok a =>
      obtain ⟨c₁, hcommit, hc₁⟩ := hc.commit
      refine ⟨c₁.emit Job.committedEvent, { hc₁ with }, ?_⟩
      rw [Job.settle, Job.andThen, Client.run, hcommit]
      rfl
  | error e =>
      obtain ⟨c₁, hrollback, hc₁⟩ := hc.rollback
      refine ⟨c₁.emit (Job.rolledBackEvent e), { hc₁ with }, ?_⟩
      rw [Job.settle, Job.andThen, Client.run, hrollback]
      rfl

/-- A unit of work is opened, comes to its result and is settled. -/
theorem Client.Undisturbed.run_execute_andThen {limit : Option Duration} {work : Work α}
    {r : Except TransferError α} {k : Except TransferError α → Job β} (hc : c.Undisturbed)
    (h : work.Reaches ⟨c.server.published, false, c.server.counters⟩ (.ofExcept r) s') :
    ∃ c' : Client, c'.Settled (s'.settled c.server.published r) s' ∧
      c.run ((Job.execute limit work).andThen k) = c'.run (k r) := by
  let deadline : Option Deadline := limit.map fun l => ⟨c.now + l.nanoseconds, l⟩
  obtain ⟨c₁, hbegin, hc₁⟩ := hc.begin deadline
  obtain ⟨c₂, hc₂, hwork⟩ := hc₁.run_within deadline
    (k := fun r => (Job.settle r).andThen k) h
  obtain ⟨c₃, hc₃, hsettle⟩ := hc₂.run_settle (r := r) (k := k)
  refine ⟨c₃, hc₃, ?_⟩
  rw [Job.execute, Job.andThen, Client.run, Job.andThen, Client.run, hbegin]
  show c₁.run ((Job.within deadline work Job.settle).andThen k) = _
  rw [Job.within_andThen, hwork, hsettle]

theorem Client.run_of_reports {job : Job α} {o : Outcome α} (h : job.Reports o) (c : Client) :
    ∃ events, c.run job = (o, { c with events }) := by
  induction job generalizing c with
  | done o' =>
      cases h
      exact ⟨c.events, rfl⟩
  | log event rest ih => exact ih h (c.emit event)
  | _ => exact h.elim

theorem Client.Undisturbed.run_settled {job : Job α} {work : Work α} {r : Except TransferError α}
    (hjob : job.InOneUnit work) (hc : c.Undisturbed)
    (h : work.Reaches ⟨c.server.published, false, c.server.counters⟩ (.ofExcept r) s') :
    ∃ c' : Client, c'.Settled (s'.settled c.server.published r) s' ∧
      c.run job = (.ofExcept r, c') := by
  induction hjob generalizing c with
  | @unit limit k hk =>
      obtain ⟨c₁, hc₁, hrun⟩ := hc.run_execute_andThen h
      obtain ⟨events, hreport⟩ := c₁.run_of_reports (hk r)
      refine ⟨_, ?_, hrun.trans hreport⟩
      exact { hc₁ with }
  | log event _ ih =>
      have hemit : (c.emit event).Undisturbed := { hc with }
      exact ih hemit h

/-- A job that does its work in one unit comes to what the work comes to. -/
theorem Client.Undisturbed.call_settled {job : Job α} {work : Work α}
    {r : Except TransferError α} (hjob : job.InOneUnit work) (hc : c.Undisturbed)
    (h : work.Reaches ⟨c.server.published, false, c.server.counters⟩ (.ofExcept r) s') :
    ∃ c' : Client, c'.Settled (s'.settled c.server.published r) s' ∧
      c.call job = (.ofExcept r, c') := by
  obtain ⟨c₁, hc₁, hrun⟩ := hc.run_settled hjob h
  rw [Client.call, hrun]
  refine ⟨_, ?_, rfl⟩
  exact { hc₁ with }

end Database

end FundsTransfer
