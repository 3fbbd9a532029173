import FundsTransfer.Proofs.Work.Publishing

/-!
# The life of a unit of work

Whoever executes a unit of work makes three kinds of requests: it opens the unit, it works
in it, and it ends it.  A store may take any time for each of them, may never answer, and
may refuse.  `Backend` is such a store, and `Job.course` says which requests a job makes to
it and how it ends.  The deadline is looked at where a request is waited for:
`Reply.await` cuts off what is not there by then.

What the work comes to by itself is told by `Work.course`, which knows nothing of commits
and rollbacks.  `Way` lists the ways in which a unit of work can then go, and
`execute_lifecycle` says what they have in common.  Opening happens once.  A unit is
committed when its work succeeded in time and rolled back when it did not, and that is
the end of it.  Neither a commit nor a rollback is under the deadline, so a limit that is
reported was not reached by a commit.
-/

namespace FundsTransfer

/-! ## Stores that take their time -/

/-- What becomes of a request. -/
structure Reply (σ β : Type) where
  /-- After how many nanoseconds it is answered, if it is. -/
  delay : Option Nat
  /-- The answer. -/
  answer : β
  /-- The store when it has answered. -/
  after : σ
  /-- The store when nobody waited for the answer. -/
  dropped : σ

/-- A store that takes its time.  What it does may depend on all that happened before, and on the
clock. -/
structure Backend (σ : Type) where
  /-- A unit of work is opened. -/
  begin (s : σ) (now : Nat) : Reply σ (Except StoreError Unit)
  /-- A query is answered, or a sum outgrows a decimal. -/
  ask (s : σ) (now : Nat) (q : Query) : Reply σ (Option (Except StoreError q.Answer))
  /-- A number of milliseconds goes by. -/
  pause (s : σ) (now milliseconds : Nat) : Reply σ Unit
  /-- A unit of work is published. -/
  commit (s : σ) (now : Nat) : Reply σ (Except StoreError Unit)
  /-- A unit of work is taken back. -/
  rollback (s : σ) (now : Nat) : Reply σ (Except StoreError Unit)

variable {σ β : Type}

/-- Waits for an answer, with what is there and what time it is afterwards.  An answer that takes no
time is never too late, and one that comes at the deadline is not too late either. -/
def Reply.await (r : Reply σ β) : Option Deadline → Nat → Option (Timed β × σ × Nat)
  | none, now => r.delay.map fun delay => (.ended r.answer, r.after, now + delay)
  | some d, now =>
    match r.delay with
    | none => some (.cutOff d.limit, r.dropped, max now d.moment)
    | some delay =>
      if delay = 0 ∨ now + delay ≤ d.moment then some (.ended r.answer, r.after, now + delay)
      else some (.cutOff d.limit, r.dropped, max now d.moment)

/-- Only a deadline cuts off, and it says its limit. -/
theorem Reply.limit_of_await {r : Reply σ β} {d : Option Deadline} {now now' : Nat}
    {limit : Duration} {s : σ} (h : r.await d now = some (.cutOff limit, s, now')) :
    d.map Deadline.limit = some limit := by
  cases d with
  | none =>
      obtain ⟨delay, -, heq⟩ := Option.map_eq_some_iff.1 h
      cases heq
  | some d =>
      unfold await at h
      dsimp only at h
      split at h
      · cases h
        rfl
      · split at h
        · cases h
        · cases h
          rfl

/-- What is waited for in time is the answer. -/
theorem Reply.answer_of_await {r : Reply σ β} {d : Option Deadline} {now now' : Nat} {a : β}
    {s : σ} (h : r.await d now = some (.ended a, s, now')) : r.answer = a := by
  cases d with
  | none =>
      obtain ⟨delay, -, heq⟩ := Option.map_eq_some_iff.1 h
      cases heq
      rfl
  | some d =>
      unfold await at h
      dsimp only at h
      split at h
      · cases h
      · split at h
        · cases h
          rfl
        · cases h

/-! ## Courses -/

/-- A request that was made. -/
inductive Call where
  /-- To open a unit of work, and what became of it. -/
  | begin (result : Timed (Except StoreError Unit))
  /-- To answer a query. -/
  | ask (query : Query)
  /-- To let time go by. -/
  | pause (milliseconds : Nat)
  /-- To publish the unit of work, and what became of it. -/
  | commit (result : Except StoreError Unit)
  /-- To take the unit of work back, and what became of it. -/
  | rollback (result : Except StoreError Unit)

namespace Call

/-- Whether a unit of work was to be opened. -/
def isBegin : Call → Bool
  | begin _ => true
  | _ => false

/-- Whether a unit of work was to be published. -/
def isCommit : Call → Bool
  | commit _ => true
  | _ => false

/-- Whether a unit of work was to be taken back. -/
def isRollback : Call → Bool
  | rollback _ => true
  | _ => false

/-- A request to end the unit of work. -/
def IsEnd (c : Call) : Prop := c.isCommit = true ∨ c.isRollback = true

/-- Whether a request is made in the course of the work. -/
def IsWork : Call → Prop
  | ask _ => True
  | pause _ => True
  | _ => False

end Call

variable {α : Type}

/-- What the work comes to inside its unit of work, if it ever ends: the requests, the end, and what
is there and what time it is then. -/
def Work.course (b : Backend σ) (d : Option Deadline) :
    Work α → σ → Nat → Option (List Call × Timed (Outcome α) × σ × Nat)
  | .done a, s, now => some ([], .ended (.ok a), s, now)
  | .fail e, s, now => some ([], .ended (.error e), s, now)
  | .overflow, s, now => some ([], .ended .overflow, s, now)
  | .log _ rest, s, now => rest.course b d s now
  | .pause ms rest, s, now =>
    ((b.pause s now ms).await d now).bind fun
      | (.ended (), s, now) => (rest.course b d s now).map fun (rs, e) => (.pause ms :: rs, e)
      | (.cutOff limit, s, now) => some ([.pause ms], .cutOff limit, s, now)
  | .call q next, s, now =>
    ((b.ask s now q).await d now).bind fun
      | (.ended (some r), s, now) =>
        ((next r).course b d s now).map fun (rs, e) => (.ask q :: rs, e)
      | (.ended none, s, now) => some ([.ask q], .ended .overflow, s, now)
      | (.cutOff limit, s, now) => some ([.ask q], .cutOff limit, s, now)

/-- The requests that a job makes, and how it ends, if it ever does. -/
def Job.course (b : Backend σ) : Job α → σ → Nat → Option (List Call × Outcome α)
  | .done o, _, _ => some ([], o)
  | .log _ rest, s, now => rest.course b s now
  | .clock next, s, now => (next now).course b s now
  | .begin d next, s, now =>
    ((b.begin s now).await d now).bind fun (r, s, now) =>
      ((next r).course b s now).map fun (rs, o) => (.begin r :: rs, o)
  | .call d q next, s, now =>
    ((b.ask s now q).await d now).bind fun
      | (.ended (some r), s, now) =>
        ((next (.ended r)).course b s now).map fun (rs, o) => (.ask q :: rs, o)
      | (.ended none, _, _) => some ([.ask q], .overflow)
      | (.cutOff limit, s, now) =>
        ((next (.cutOff limit)).course b s now).map fun (rs, o) => (.ask q :: rs, o)
  | .pause d ms next, s, now =>
    ((b.pause s now ms).await d now).bind fun (r, s, now) =>
      ((next r).course b s now).map fun (rs, o) => (.pause ms :: rs, o)
  | .commit next, s, now =>
    (b.commit s now).delay.bind fun delay =>
      ((next (b.commit s now).answer).course b (b.commit s now).after (now + delay)).map
        fun (rs, o) => (.commit (b.commit s now).answer :: rs, o)
  | .rollback next, s, now =>
    (b.rollback s now).delay.bind fun delay =>
      ((next (b.rollback s now).answer).course b (b.rollback s now).after (now + delay)).map
        fun (rs, o) => (.rollback (b.rollback s now).answer :: rs, o)

/-- What the end of the work comes to for its unit of work, unless a sum outgrew a decimal. -/
def Timed.result? : Timed (Outcome α) → Option (Except TransferError α)
  | .ended (.ok a) => some (.ok a)
  | .ended (.error e) => some (.error e)
  | .ended .overflow => none
  | .cutOff limit => some (.error (.timedOut limit))

/-! ## The work and what follows it -/

namespace Work

variable {b : Backend σ} {d : Option Deadline} {calls : List Call} {e : Timed (Outcome α)}
  {s s' : σ} {now now' : Nat}

/-- The requests of the work neither open its unit nor end it, and it is cut off at the limit of its
deadline only. -/
theorem course_inside {work : Work α} (h : work.course b d s now = some (calls, e, s', now')) :
    (∀ c ∈ calls, c.IsWork) ∧ ∀ limit, e = .cutOff limit → d.map Deadline.limit = some limit := by
  induction work generalizing s now calls with
  | done a =>
      cases h
      exact ⟨nofun, nofun⟩
  | fail error =>
      cases h
      exact ⟨nofun, nofun⟩
  | overflow =>
      cases h
      exact ⟨nofun, nofun⟩
  | log event rest ih => exact ih h
  | pause ms rest ih =>
      obtain ⟨⟨r, s₁, now₁⟩, hawait, h⟩ := Option.bind_eq_some_iff.1 h
      cases r with
      | ended u =>
          obtain ⟨⟨later, e'⟩, hlater, heq⟩ := Option.map_eq_some_iff.1 h
          cases heq
          obtain ⟨hcalls, hlimit⟩ := ih hlater
          exact ⟨List.forall_mem_cons.2 ⟨trivial, hcalls⟩, hlimit⟩
      | cutOff limit =>
          cases h
          refine ⟨List.forall_mem_singleton.2 trivial, fun limit heq => ?_⟩
          cases heq
          exact Reply.limit_of_await hawait
  | call q next ih =>
      rw [course, Option.bind_eq_some_iff] at h
      obtain ⟨⟨r, s₁, now₁⟩, hawait, h⟩ := h
      cases r with
      | ended answer =>
          cases answer with
          | none =>
              cases h
              exact ⟨List.forall_mem_singleton.2 trivial, nofun⟩
          | some r =>
              obtain ⟨⟨later, e'⟩, hlater, heq⟩ := Option.map_eq_some_iff.1 h
              cases heq
              obtain ⟨hcalls, hlimit⟩ := ih r hlater
              exact ⟨List.forall_mem_cons.2 ⟨trivial, hcalls⟩, hlimit⟩
      | cutOff limit =>
          cases h
          refine ⟨List.forall_mem_singleton.2 trivial, fun limit heq => ?_⟩
          cases heq
          exact Reply.limit_of_await hawait

end Work

namespace Job

variable {γ : Type} {b : Backend σ} {s : σ} {now : Nat} {calls : List Call} {o : Outcome α}

/-- Work in a job takes its course, and what follows it goes on from there. -/
theorem course_within {d : Option Deadline} {work : Work γ} {k : Except TransferError γ → Job α}
    (h : (within d work k).course b s now = some (calls, o)) :
    ∃ asked e s' now', work.course b d s now = some (asked, e, s', now') ∧
      ((e.result? = none ∧ calls = asked ∧ o = .overflow) ∨
        ∃ r rest, e.result? = some r ∧ (k r).course b s' now' = some (rest, o) ∧
          calls = asked ++ rest) := by
  induction work generalizing s now calls with
  | done a => exact ⟨[], .ended (.ok a), s, now, rfl, .inr ⟨_, calls, rfl, h, rfl⟩⟩
  | fail e => exact ⟨[], .ended (.error e), s, now, rfl, .inr ⟨_, calls, rfl, h, rfl⟩⟩
  | overflow =>
      cases h
      exact ⟨[], .ended .overflow, s, now, rfl, .inl ⟨rfl, rfl, rfl⟩⟩
  | log event rest ih => exact ih h
  | pause ms rest ih =>
      obtain ⟨⟨r, s₁, now₁⟩, hawait, h⟩ := Option.bind_eq_some_iff.1 h
      obtain ⟨⟨rs, o'⟩, hrest, heq⟩ := Option.map_eq_some_iff.1 h
      cases heq
      cases r with
      | ended u =>
          obtain ⟨asked, e, s', now', hcourse, hend⟩ := ih hrest
          refine ⟨.pause ms :: asked, e, s', now', ?_, ?_⟩
          · simp only [Work.course, hawait, Option.bind_some, hcourse, Option.map_some]
          · obtain ⟨he, rfl, rfl⟩ | ⟨r, rest', he, hk, rfl⟩ := hend
            · exact .inl ⟨he, rfl, rfl⟩
            · exact .inr ⟨r, rest', he, hk, rfl⟩
      | cutOff limit =>
          refine ⟨[.pause ms], .cutOff limit, s₁, now₁, ?_, .inr ⟨_, rs, rfl, hrest, rfl⟩⟩
          simp only [Work.course, hawait, Option.bind_some]
  | call q next ih =>
      rw [within, course, Option.bind_eq_some_iff] at h
      obtain ⟨⟨r, s₁, now₁⟩, hawait, h⟩ := h
      cases r with
      | ended answer =>
          cases answer with
          | none =>
              cases h
              refine ⟨[.ask q], .ended .overflow, s₁, now₁, ?_, .inl ⟨rfl, rfl, rfl⟩⟩
              simp only [Work.course, hawait, Option.bind_some]
          | some r =>
              obtain ⟨⟨rs, o'⟩, hrest, heq⟩ := Option.map_eq_some_iff.1 h
              cases heq
              obtain ⟨asked, e, s', now', hcourse, hend⟩ := ih r hrest
              refine ⟨.ask q :: asked, e, s', now', ?_, ?_⟩
              · simp only [Work.course, hawait, Option.bind_some, hcourse, Option.map_some]
              · obtain ⟨he, rfl, rfl⟩ | ⟨r, rest', he, hk, rfl⟩ := hend
                · exact .inl ⟨he, rfl, rfl⟩
                · exact .inr ⟨r, rest', he, hk, rfl⟩
      | cutOff limit =>
          obtain ⟨⟨rs, o'⟩, hrest, heq⟩ := Option.map_eq_some_iff.1 h
          cases heq
          refine ⟨[.ask q], .cutOff limit, s₁, now₁, ?_, .inr ⟨_, rs, rfl, hrest, rfl⟩⟩
          simp only [Work.course, hawait, Option.bind_some]

end Job

/-! ## Ways of a unit of work -/

/-- What becomes of a value that is to be committed. -/
def Outcome.committed (v : α) : Except StoreError Unit → Outcome α
  | .ok () => .ok v
  | .error e => .error (.commit e)

/-- What becomes of an error whose unit of work is to be taken back. -/
def Outcome.rolledBack (cause : TransferError) : Except StoreError Unit → Outcome α
  | .ok () => .error cause
  | .error e => .error (.rollbackFailed cause e)

/-- The deadline of a limit that is set at a moment. -/
def deadlineAt (limit : Option Duration) (now : Nat) : Option Deadline :=
  limit.map fun l => ⟨now + l.nanoseconds, l⟩

theorem limit_of_deadlineAt {limit : Option Duration} {now : Nat} {l : Duration}
    (h : (deadlineAt limit now).map Deadline.limit = some l) : limit = some l := by
  cases limit with
  | none => cases h
  | some l' => exact h

section

variable (b : Backend σ) (limit : Option Duration) (work : Work α) (s : σ) (now : Nat)

/-- What became of the opening of the unit of work. -/
def Opens (r : Timed (Except StoreError Unit)) : Prop :=
  ∃ s' now', (b.begin s now).await (deadlineAt limit now) now = some (r, s', now')

/-- The unit of work was opened in time, and the work in it came to an end. -/
def Works (asked : List Call) (e : Timed (Outcome α)) (s' : σ) (now' : Nat) : Prop :=
  ∃ s₁ now₁, (b.begin s now).await (deadlineAt limit now) now =
      some (.ended (.ok ()), s₁, now₁) ∧
    work.course b (deadlineAt limit now) s₁ now₁ = some (asked, e, s', now')

/-- The ways in which a unit of work can go, with the requests that are made and the result. -/
inductive Way : List Call → Outcome α → Prop where
  | late (h : Opens b limit s now (.cutOff l)) : Way [.begin (.cutOff l)] (.error (.timedOut l))
  | refused (h : Opens b limit s now (.ended (.error e))) :
      Way [.begin (.ended (.error e))] (.error (.begin e))
  | overflowed (h : Works b limit work s now asked (.ended .overflow) s' now') :
      Way (.begin (.ended (.ok ())) :: asked) .overflow
  | committed (h : Works b limit work s now asked (.ended (.ok v)) s' now')
      (hdelay : (b.commit s' now').delay.isSome = true) :
      Way (.begin (.ended (.ok ())) :: (asked ++ [.commit (b.commit s' now').answer]))
        (.committed v (b.commit s' now').answer)
  | rolledBack (h : Works b limit work s now asked r s' now')
      (hcause : r.result? = some (.error cause)) (answer : Except StoreError Unit) :
      Way (.begin (.ended (.ok ())) :: (asked ++ [.rollback answer]))
        (.rolledBack cause answer)

end

variable {b : Backend σ} {limit : Option Duration} {work : Work α} {s : σ} {now : Nat}
  {calls : List Call} {o : Outcome α}

/-- A value of the work is a value, not the cause of an error. -/
theorem Timed.eq_of_result? {e : Timed (Outcome α)} {a : α} (h : e.result? = some (.ok a)) :
    e = .ended (.ok a) := by
  cases e with
  | ended o =>
      cases o with
      | ok a' =>
          cases h
          rfl
      | error e => cases h
      | overflow => cases h
  | cutOff limit => cases h

theorem Timed.eq_overflow_of_result? {e : Timed (Outcome α)} (h : e.result? = none) :
    e = .ended .overflow := by
  cases e with
  | ended o =>
      cases o with
      | ok a => cases h
      | error e => cases h
      | overflow => rfl
  | cutOff limit => cases h

/-- A call of the executor that runs to its end goes one of these ways. -/
theorem way_of_course (h : (Job.execute limit work).course b s now = some (calls, o)) :
    Way b limit work s now calls o := by
  obtain ⟨⟨r, s₁, now₁⟩, hopen, h⟩ := Option.bind_eq_some_iff.1 h
  obtain ⟨⟨rest, o'⟩, hrest, heq⟩ := Option.map_eq_some_iff.1 h
  cases heq
  cases r with
  | cutOff l =>
      cases hrest
      exact .late ⟨s₁, now₁, hopen⟩
  | ended answer =>
      cases answer with
      | error e =>
          cases hrest
          exact .refused ⟨s₁, now₁, hopen⟩
      | ok u =>
          obtain ⟨asked, e, s', now', hcourse, ⟨he, rfl, rfl⟩ | ⟨r, later, he, hsettle, rfl⟩⟩ :=
            Job.course_within hrest
          · rw [Timed.eq_overflow_of_result? he] at hcourse
            exact .overflowed ⟨s₁, now₁, hopen, hcourse⟩
          have hworks : Works b limit work s now asked e s' now' := ⟨s₁, now₁, hopen, hcourse⟩
          cases r with
          | ok v =>
              rw [Timed.eq_of_result? he] at hworks
              obtain ⟨delay, hdelay, hsettle⟩ := Option.bind_eq_some_iff.1 hsettle
              obtain ⟨⟨rest, o'⟩, hrest, heq⟩ := Option.map_eq_some_iff.1 hsettle
              cases heq
              have hway := Way.committed hworks (Option.isSome_of_eq_some hdelay)
              cases hanswer : (b.commit s' now').answer with
              | ok u =>
                  rw [hanswer] at hrest hway
                  cases hrest
                  exact hway
              | error e =>
                  rw [hanswer] at hrest hway
                  cases hrest
                  exact hway
          | error cause =>
              obtain ⟨delay, -, hsettle⟩ := Option.bind_eq_some_iff.1 hsettle
              obtain ⟨⟨rest, o'⟩, hrest, heq⟩ := Option.map_eq_some_iff.1 hsettle
              cases heq
              cases hanswer : (b.rollback s' now').answer with
              | ok u =>
                  rw [hanswer] at hrest
                  cases hrest
                  exact .rolledBack hworks he (.ok ())
              | error e =>
                  rw [hanswer] at hrest
                  cases hrest
                  exact .rolledBack hworks he (.error e)

/-! ## What they have in common -/

theorem Works.unique {asked asked' : List Call} {e e' : Timed (Outcome α)} {t t' : σ} {n n' : Nat}
    (h : Works b limit work s now asked e t n) (h' : Works b limit work s now asked' e' t' n') :
    asked = asked' ∧ e = e' ∧ t = t' ∧ n = n' := by
  obtain ⟨s₁, now₁, hopen, hcourse⟩ := h
  obtain ⟨s₂, now₂, hopen', hcourse'⟩ := h'
  rw [hopen] at hopen'
  cases hopen'
  rw [hcourse] at hcourse'
  cases hcourse'
  exact ⟨rfl, rfl, rfl, rfl⟩

theorem Opens.unique {r r' : Timed (Except StoreError Unit)} (h : Opens b limit s now r)
    (h' : Opens b limit s now r') : r = r' := by
  obtain ⟨s₁, now₁, hopen⟩ := h
  obtain ⟨s₂, now₂, hopen'⟩ := h'
  rw [hopen] at hopen'
  cases hopen'
  rfl

theorem Works.opens {asked : List Call} {e : Timed (Outcome α)} {t : σ} {n : Nat}
    (h : Works b limit work s now asked e t n) : Opens b limit s now (.ended (.ok ())) := by
  obtain ⟨s₁, now₁, hopen, -⟩ := h
  exact ⟨s₁, now₁, hopen⟩

/-- The unit of work was opened in time, and the work returned a value without being cut off. -/
def Succeeds (b : Backend σ) (limit : Option Duration) (work : Work α) (s : σ) (now : Nat)
    (v : α) : Prop :=
  ∃ asked s' now', Works b limit work s now asked (.ended (.ok v)) s' now'

/-- The unit of work was opened in time, and the work returned an error or was cut off. -/
def Fails (b : Backend σ) (limit : Option Duration) (work : Work α) (s : σ) (now : Nat)
    (cause : TransferError) : Prop :=
  ∃ asked s' now', Works b limit work s now asked (.ended (.error cause)) s' now' ∨
    ∃ l, limit = some l ∧ cause = .timedOut l ∧ Works b limit work s now asked (.cutOff l) s' now'

section Works

variable {asked : List Call} {e : Timed (Outcome α)} {t : σ} {n : Nat}

theorem Works.succeeds_iff (h : Works b limit work s now asked e t n) {v : α} :
    Succeeds b limit work s now v ↔ e = .ended (.ok v) := by
  constructor
  · rintro ⟨asked', t', n', h'⟩
    exact (h.unique h').2.1
  · rintro rfl
    exact ⟨asked, t, n, h⟩

theorem Works.fails_iff (h : Works b limit work s now asked e t n) {cause : TransferError} :
    Fails b limit work s now cause ↔ e.result? = some (.error cause) := by
  constructor
  · rintro ⟨asked', t', n', h' | ⟨l, -, rfl, h'⟩⟩
    · obtain ⟨-, rfl, -⟩ := h.unique h'
      rfl
    · obtain ⟨-, rfl, -⟩ := h.unique h'
      rfl
  · intro he
    cases e with
    | cutOff l =>
        cases he
        obtain ⟨s₁, now₁, hopen, hcourse⟩ := h
        have hlimit := limit_of_deadlineAt ((Work.course_inside hcourse).2 l rfl)
        exact ⟨asked, t, n, .inr ⟨l, hlimit, rfl, s₁, now₁, hopen, hcourse⟩⟩
    | ended o =>
        cases o with
        | ok v => cases he
        | error cause' =>
            cases he
            exact ⟨asked, t, n, .inl h⟩
        | overflow => cases he

theorem Works.isWork (h : Works b limit work s now asked e t n) : ∀ c ∈ asked, c.IsWork := by
  obtain ⟨s₁, now₁, -, hcourse⟩ := h
  exact (Work.course_inside hcourse).1

end Works

/-- A unit of work that is not opened has no work. -/
theorem not_succeeds_of_opens {r : Timed (Except StoreError Unit)} (h : Opens b limit s now r)
    (hr : r ≠ .ended (.ok ())) (v : α) : ¬ Succeeds b limit work s now v := by
  rintro ⟨asked, t, n, hworks⟩
  exact hr (h.unique hworks.opens)

theorem not_fails_of_opens {r : Timed (Except StoreError Unit)} (h : Opens b limit s now r)
    (hr : r ≠ .ended (.ok ())) (cause : TransferError) :
    ¬ Fails b limit work s now cause := by
  rintro ⟨asked, t, n, hworks | ⟨l, -, -, hworks⟩⟩
  · exact hr (h.unique hworks.opens)
  · exact hr (h.unique hworks.opens)

namespace Call

variable {asked : List Call}

theorem IsWork.not_isEnd {c : Call} (h : c.IsWork) : ¬ c.IsEnd := by
  rintro (hend | hend)
  · cases c with
    | commit result => exact h
    | _ => cases hend
  · cases c with
    | rollback result => exact h
    | _ => cases hend

theorem IsWork.not_isBegin {c : Call} (h : c.IsWork) : c.isBegin = false := by
  cases c with
  | begin result => exact h.elim
  | _ => rfl

/-- No request comes after an end of the unit of work that is the only one. -/
theorem last_of_append {c : Call} {before after calls : List Call} {last : Call}
    (hcalls : ∀ c ∈ calls, ¬ c.IsEnd) (h : calls ++ [last] = before ++ c :: after)
    (hend : c.IsEnd) : after = [] := by
  obtain rfl | ⟨init, x, rfl⟩ := after.eq_nil_or_concat
  · rfl
  · rw [List.concat_eq_append, ← List.cons_append, ← List.append_assoc] at h
    obtain rfl := (List.append_inj' h rfl).1
    exact absurd hend (hcalls c (by simp))

end Call

/-- What one call of the executor does that runs to its end, and what it returns. -/
structure Lifecycle (b : Backend σ) (limit : Option Duration) (work : Work α) (s : σ) (now : Nat)
    (calls : List Call) (o : Outcome α) : Prop where
  /-- A unit of work is opened once. -/
  begins : calls.countP Call.isBegin = 1
  /-- It is committed when the work succeeded. -/
  commits : calls.countP Call.isCommit = 1 ↔ ∃ v, Succeeds b limit work s now v
  /-- It is rolled back when the work failed. -/
  rollsBack : calls.countP Call.isRollback = 1 ↔ ∃ cause, Fails b limit work s now cause
  /-- It is ended once at most. -/
  endsOnce : calls.countP Call.isCommit + calls.countP Call.isRollback ≤ 1
  /-- Nothing comes after its end. -/
  last : ∀ before c after, calls = before ++ c :: after → c.IsEnd → after = []
  /-- A value is what the work returned, and it is committed. -/
  returns : ∀ v, o = .ok v ↔ Succeeds b limit work s now v ∧ .commit (.ok ()) ∈ calls
  /-- An opening that fails is reported. -/
  refused : ∀ e, Opens b limit s now (.ended (.error e)) → o = .error (.begin e)
  /-- An opening that is late is cut off at the limit. -/
  late : ∀ l, Opens b limit s now (.cutOff l) → limit = some l ∧ o = .error (.timedOut l)
  /-- A commit that fails is reported, and nothing is rolled back. -/
  notCommitted : ∀ e, .commit (.error e) ∈ calls →
    o = .error (.commit e) ∧ calls.countP Call.isRollback = 0
  /-- The cause of a rollback is reported, with the error of the rollback if there is one. -/
  rolledBack : ∀ cause, Fails b limit work s now cause →
    (.rollback (.ok ()) ∈ calls ∧ o = .error cause) ∨
      ∃ e, .rollback (.error e) ∈ calls ∧ o = .error (.rollbackFailed cause e)
  /-- A limit is reported only when nothing was to be committed. -/
  timedOut : ∀ l, (o = .error (.timedOut l) ∨ ∃ e, o = .error (.rollbackFailed (.timedOut l) e)) →
    calls.countP Call.isCommit = 0
  /-- A commit is waited for however long it takes. -/
  commitEnds : ∀ asked v s' now', Works b limit work s now asked (.ended (.ok v)) s' now' →
    (b.commit s' now').delay.isSome = true ∧ .commit (b.commit s' now').answer ∈ calls

section Common

variable {asked : List Call} {e : Timed (Outcome α)} {t : σ} {n : Nat}

/-- The requests of the work are counted nowhere else. -/
structure Aside (asked : List Call) : Prop where
  begins : asked.countP Call.isBegin = 0
  commits : asked.countP Call.isCommit = 0
  rollbacks : asked.countP Call.isRollback = 0
  not_commit (r : Except StoreError Unit) : Call.commit r ∉ asked
  not_rollback (r : Except StoreError Unit) : Call.rollback r ∉ asked
  not_isEnd (r : Timed (Except StoreError Unit)) : ∀ c ∈ Call.begin r :: asked, ¬ c.IsEnd

theorem aside_of_isWork (h : ∀ c ∈ asked, c.IsWork) : Aside asked where
  begins := List.countP_eq_zero.2 fun c hc => by simp [(h c hc).not_isBegin]
  commits := List.countP_eq_zero.2 fun c hc hend => (h c hc).not_isEnd (.inl hend)
  rollbacks := List.countP_eq_zero.2 fun c hc hend => (h c hc).not_isEnd (.inr hend)
  not_commit r hmem := h _ hmem
  not_rollback r hmem := h _ hmem
  not_isEnd r := by
    refine List.forall_mem_cons.2 ⟨?_, fun c hc => (h c hc).not_isEnd⟩
    rintro (hend | hend)
    · cases hend
    · cases hend

theorem Aside.last (h : Aside asked) {r : Timed (Except StoreError Unit)} {c : Call}
    {before after : List Call} (hcalls : Call.begin r :: asked = before ++ c :: after)
    (hend : c.IsEnd) : after = [] := by
  have hmem : c ∈ Call.begin r :: asked := hcalls ▸ by simp
  exact absurd hend (h.not_isEnd r c hmem)

/-- A unit of work that is not opened. -/
theorem lifecycle_unopened {r : Timed (Except StoreError Unit)} {error : TransferError}
    (hopens : Opens b limit s now r) (hr : r ≠ .ended (.ok ()))
    (hrefused : ∀ e, r = .ended (.error e) → error = .begin e)
    (hlate : ∀ l, r = .cutOff l → error = .timedOut l) :
    Lifecycle b limit work s now [.begin r] (.error error) where
  begins := rfl
  commits := ⟨nofun, fun ⟨v, h⟩ => absurd h (not_succeeds_of_opens hopens hr v)⟩
  rollsBack := ⟨nofun, fun ⟨cause, h⟩ => absurd h (not_fails_of_opens hopens hr cause)⟩
  endsOnce := Nat.zero_le 1
  last _ _ _ := (aside_of_isWork (List.forall_mem_nil _)).last
  returns v := ⟨nofun, fun h => absurd h.1 (not_succeeds_of_opens hopens hr v)⟩
  refused e h := by rw [hrefused e (hopens.unique h)]
  late l h := by
    rw [hlate l (hopens.unique h)]
    obtain ⟨s', now', hopen⟩ := h
    exact ⟨limit_of_deadlineAt (Reply.limit_of_await hopen), rfl⟩
  notCommitted e h := by simp at h
  rolledBack cause h := absurd h (not_fails_of_opens hopens hr cause)
  timedOut l _ := rfl
  commitEnds asked v t n h := absurd (hopens.unique h.opens) hr

/-- A unit of work in which a sum outgrew a decimal. -/
theorem lifecycle_overflowed (h : Works b limit work s now asked (.ended .overflow) t n) :
    Lifecycle b limit work s now (.begin (.ended (.ok ())) :: asked) .overflow := by
  have haside := aside_of_isWork h.isWork
  exact {
    begins := by simp [List.countP_cons, Call.isBegin, haside.begins]
    commits := by simp [Call.isCommit, haside.commits, h.succeeds_iff]
    rollsBack := by simp [Call.isRollback, haside.rollbacks, h.fails_iff, Timed.result?]
    endsOnce := by simp [Call.isCommit, Call.isRollback, haside.commits, haside.rollbacks]
    last := fun _ _ _ => haside.last
    returns := by simp [h.succeeds_iff]
    refused := fun e hrefused => by cases h.opens.unique hrefused
    late := fun l hlate => by cases h.opens.unique hlate
    notCommitted := by simp [haside.not_commit]
    rolledBack := fun cause hfails => by cases h.fails_iff.1 hfails
    timedOut := by simp
    commitEnds := fun _ _ _ _ h' => by cases (h.unique h').2.1 }

/-- A unit of work that is to be committed. -/
theorem lifecycle_committed {v : α} (h : Works b limit work s now asked (.ended (.ok v)) t n)
    (hdelay : (b.commit t n).delay.isSome = true) :
    Lifecycle b limit work s now
      (.begin (.ended (.ok ())) :: (asked ++ [.commit (b.commit t n).answer]))
      (.committed v (b.commit t n).answer) := by
  have haside := aside_of_isWork h.isWork
  exact {
    begins := by simp [List.countP_cons, Call.isBegin, haside.begins]
    commits := by simp [Call.isCommit, haside.commits, h.succeeds_iff]
    rollsBack := by simp [Call.isRollback, haside.rollbacks, h.fails_iff, Timed.result?]
    endsOnce := by simp [Call.isCommit, Call.isRollback, haside.commits, haside.rollbacks]
    last := fun _ _ _ => Call.last_of_append (haside.not_isEnd _)
    returns := fun v' => by
      cases (b.commit t n).answer with
      | ok u => simp [Outcome.committed, h.succeeds_iff]
      | error e => simp [Outcome.committed, haside.not_commit]
    refused := fun e hrefused => by cases h.opens.unique hrefused
    late := fun l hlate => by cases h.opens.unique hlate
    notCommitted := fun e hmem => by
      have hanswer : (b.commit t n).answer = .error e := by
        simpa [haside.not_commit, eq_comm] using hmem
      rw [hanswer]
      simp [Outcome.committed, Call.isRollback, haside.rollbacks]
    rolledBack := fun cause hfails => by cases h.fails_iff.1 hfails
    timedOut := fun l hl => by
      cases hanswer : (b.commit t n).answer with
      | ok u => simp [hanswer, Outcome.committed] at hl
      | error e => simp [hanswer, Outcome.committed] at hl
    commitEnds := fun _ _ _ _ h' => by
      obtain ⟨-, -, rfl, rfl⟩ := h.unique h'
      exact ⟨hdelay, by simp⟩ }

/-- A unit of work that is to be taken back. -/
theorem lifecycle_rolledBack {cause : TransferError} (h : Works b limit work s now asked e t n)
    (hcause : e.result? = some (.error cause)) (answer : Except StoreError Unit) :
    Lifecycle b limit work s now
      (.begin (.ended (.ok ())) :: (asked ++ [.rollback answer])) (.rolledBack cause answer) := by
  have haside := aside_of_isWork h.isWork
  have hnot : ∀ v, e ≠ .ended (.ok v) := by
    rintro v rfl
    cases hcause
  exact {
    begins := by simp [List.countP_cons, Call.isBegin, haside.begins]
    commits := by simp [Call.isCommit, haside.commits, h.succeeds_iff, hnot]
    rollsBack := by simp [Call.isRollback, haside.rollbacks, h.fails_iff, hcause]
    endsOnce := by simp [Call.isCommit, Call.isRollback, haside.commits, haside.rollbacks]
    last := fun _ _ _ => Call.last_of_append (haside.not_isEnd _)
    returns := fun v => by
      cases answer with
      | ok u => simp [Outcome.rolledBack, h.succeeds_iff, hnot]
      | error e' => simp [Outcome.rolledBack, h.succeeds_iff, hnot]
    refused := fun e hrefused => by cases h.opens.unique hrefused
    late := fun l hlate => by cases h.opens.unique hlate
    notCommitted := fun e' hmem => by simp [haside.not_commit] at hmem
    rolledBack := fun cause' hfails => by
      have hsame := h.fails_iff.1 hfails
      rw [hcause] at hsame
      cases hsame
      cases answer with
      | ok u => exact .inl ⟨by simp, rfl⟩
      | error e' => exact .inr ⟨e', by simp, rfl⟩
    timedOut := fun l _ => by simp [Call.isCommit, haside.commits]
    commitEnds := fun _ v _ _ h' => absurd (h.unique h').2.1 (hnot v) }

end Common

/-- Whatever store a call of the executor meets, whatever it does in its unit of work, and however
long each step of it takes: when it ends, the unit of work was opened once, it was committed if
its work succeeded in time and taken back if not, and the result says what became of it. -/
theorem execute_lifecycle (h : (Job.execute limit work).course b s now = some (calls, o)) :
    Lifecycle b limit work s now calls o := by
  cases way_of_course h with
  | late hopens => exact lifecycle_unopened hopens nofun nofun fun l hl => by cases hl; rfl
  | refused hopens => exact lifecycle_unopened hopens nofun (fun e he => by cases he; rfl) nofun
  | overflowed hworks => exact lifecycle_overflowed hworks
  | committed hworks hdelay => exact lifecycle_committed hworks hdelay
  | rolledBack hworks hcause answer => exact lifecycle_rolledBack hworks hcause answer

/-- A store that opens a unit of work in five milliseconds, knows no rows, publishes in an hour, and
cannot take anything back. -/
def sluggish : Backend Unit where
  begin _ _ := ⟨some 5000000, .ok (), (), ()⟩
  ask _ _ _ := ⟨some 0, some (.error (.notFound "row")), (), ()⟩
  pause _ _ milliseconds := ⟨some (milliseconds * 1000000), (), (), ()⟩
  commit _ _ := ⟨some 3600000000000, .ok (), (), ()⟩
  rollback _ _ := ⟨some 0, .error (.database (.io "connection reset by peer")), (), ()⟩

/-- Twenty milliseconds. -/
def brief : Duration := .ofMilliseconds 20

/-- Under a limit of twenty milliseconds, work of fifteen is committed, although this takes an hour.
Work of sixteen is cut off, and that it could not be taken back is said as well. -/
theorem commit_of_an_hour :
    Lifecycle sluggish (some brief) (.pause 15 (.done 1)) () 0
        [.begin (.ended (.ok ())), .pause 15, .commit (.ok ())] (.ok 1) ∧
      Lifecycle sluggish (some brief) (.pause 16 (.done 1)) () 0
        [.begin (.ended (.ok ())), .pause 16,
          .rollback (.error (.database (.io "connection reset by peer")))]
        (.error (.rollbackFailed (.timedOut brief)
          (.database (.io "connection reset by peer")))) :=
  ⟨execute_lifecycle rfl, execute_lifecycle rfl⟩

end FundsTransfer
