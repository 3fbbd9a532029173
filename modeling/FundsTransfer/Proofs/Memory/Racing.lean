import FundsTransfer.Proofs.Memory.Calm
import FundsTransfer.Proofs.Memory.Integrity
import FundsTransfer.Proofs.Memory.Probing

/-!
# Work that races do not show in

Two runs of one piece of work start from the same tables and probes, but for the number of
races that are pending.  `Work.RaceBlind` says that nobody can tell the runs apart: they come
to the same outcome and leave the same tables, and the same probes but for the races that are
left.  Faults may be armed, and both runs use them up in step.

A query that writes no reference row takes no notice of races.  One that does may be
answered differently in the two runs, and is not race-blind by itself.
-/

namespace FundsTransfer

open Memory

namespace Memory

/-- The probes with another number of pending races. -/
def Probes.withRaces (p : Probes) (n : Nat) : Probes := { p with races := n }

/-- What a unit of work works on, with another number of pending races. -/
def Working.withRaces (s : Working) (n : Nat) : Working := { s with probes := s.probes.withRaces n }

/-- Faults are counted apart from races. -/
theorem Probes.trip_withRaces (p : Probes) (n : Nat) (point : FaultPoint) :
    (p.withRaces n).trip point = ((p.trip point).1, (p.trip point).2.withRaces n) := by
  have hsame : (p.withRaces n).countdown point = p.countdown point := rfl
  unfold trip
  rw [hsame]
  rcases p.countdown point with _ | _ | calls
  · rfl
  · rfl
  · rfl

/-- Taking a race changes the number of races only. -/
theorem Probes.takeRace_eq_withRaces (p : Probes) : ∃ n, p.takeRace.2 = p.withRaces n := by
  rw [takeRace]
  split
  · exact ⟨p.races, rfl⟩
  · exact ⟨_, rfl⟩

namespace Operation

variable {α β : Type}

/-- An operation that comes to the same whatever races are pending, and leaves them pending. -/
def Oblivious (x : Operation α) : Prop :=
  ∀ s n, x.run (s.withRaces n) = ((x.run s).1, (x.run s).2.withRaces n)

theorem Oblivious.bind {x : Operation α} {f : α → Operation β} (hx : x.Oblivious)
    (hf : ∀ a, (f a).Oblivious) : (x >>= f).Oblivious := by
  intro s n
  rw [run_bind, run_bind, hx s n]
  rcases x.run s with ⟨e | a, s'⟩
  · rfl
  · exact hf a s' n

theorem Raceless.oblivious {x : Operation α} (hx : x.Raceless) : x.Oblivious := by
  induction hx with
  | pure => exact fun _ _ => rfl
  | throw => exact fun _ _ => rfl
  | tables => exact fun _ _ => rfl
  | setTables => exact fun _ _ => rfl
  | trip point =>
      intro s n
      have htrip : (s.withRaces n).probes.trip point = _ := s.probes.trip_withRaces n point
      rw [run_trip, run_trip, htrip]
      rfl
  | bind _ _ ihx ihf => exact ihx.bind ihf

theorem oblivious_touch (id : Int) : (touch id).Oblivious := fun _ _ => rfl

end Operation

theorem oblivious_perform (now : Timestamp) {q : Query} (hq : SparesReferences q) :
    (perform now q).Oblivious := by
  obtain ⟨-, hx⟩ | ⟨id, x, -, hx, heq⟩ := raceless_or_touch now hq
  · exact hx.oblivious
  · rw [heq]
    exact (Operation.oblivious_touch id).bind fun _ => hx.oblivious

end Memory

namespace Work

variable {α β : Type}

/-- Well-formed tables stay well formed, whatever the work comes to. -/
theorem Yields.wellFormed {w : Work α} {s s' : Working} {o : Outcome α} (h : w.Yields s o s')
    (hs : s.tables.WellFormed) : s'.tables.WellFormed := by
  induction w generalizing s with
  | done a => exact h.2 ▸ hs
  | fail e => exact h.2 ▸ hs
  | overflow => exact h.2 ▸ hs
  | log event rest ih => exact ih h hs
  | pause ms rest ih => exact h.elim
  | call q next ih =>
      obtain ⟨r, s₁, hrun, hnext⟩ | ⟨hrun, -⟩ := yields_call.1 h
      · exact ih r hnext (hs.change (change_of_gives ⟨_, _, hrun⟩))
      · exact hs.change (change_of_gives ⟨_, _, hrun⟩)

/-- From some tables and probes the work comes to the same, and leaves the same, whatever races are
pending. -/
def Alike (w : Work α) (t : Tables) (p : Probes) : Prop :=
  ∃ (o : Outcome α) (t' : Tables) (p' : Probes),
    ∀ n, ∃ m, w.Yields ⟨t, p.withRaces n⟩ o ⟨t', p'.withRaces m⟩

/-- Races do not show in the work, from any well-formed tables. -/
def RaceBlind (w : Work α) : Prop := ∀ t p, t.WellFormed → w.Alike t p

theorem raceBlind_pure (a : α) : (pure a : Work α).RaceBlind :=
  fun t p _ => ⟨.ok a, t, p, fun n => ⟨n, rfl, rfl⟩⟩

theorem raceBlind_fail (e : TransferError) : (fail e : Work α).RaceBlind :=
  fun t p _ => ⟨.error e, t, p, fun n => ⟨n, rfl, rfl⟩⟩

theorem raceBlind_emit (event : Log.Event) : (emit event).RaceBlind :=
  fun t p _ => ⟨.ok (), t, p, fun n => ⟨n, rfl, rfl⟩⟩

/-- A query that writes no reference row is answered the same in both runs. -/
theorem raceBlind_call {q : Query} (hq : SparesReferences q)
    {next : Except StoreError q.Answer → Work α} (hnext : ∀ r, (next r).RaceBlind) :
    (call q next).RaceBlind := by
  intro t p ht
  have hblind := oblivious_perform .epoch hq ⟨t, p⟩
  rcases hrun : (perform .epoch q).run ⟨t, p⟩ with ⟨r, t₁, p₁⟩
  rw [hrun] at hblind
  have ht₁ : t₁.WellFormed := ht.change (change_of_gives ⟨_, _, hrun⟩)
  have hanswered : ∀ answer, r = Except.mapError Refusal.refused answer →
      (call q next).Alike t p := by
    rintro answer rfl
    obtain ⟨o, t', p', h⟩ := hnext answer t₁ p₁ ht₁
    exact ⟨o, t', p', fun n => (h n).imp fun m hm =>
      yields_call.2 (.inl ⟨answer, _, hblind n, hm⟩)⟩
  rcases r with (e | _) | a
  · exact hanswered (.error e) rfl
  · exact ⟨.overflow, t₁, p₁, fun n => ⟨n, yields_call.2 (.inr ⟨hblind n, rfl⟩)⟩⟩
  · exact hanswered (.ok a) rfl

theorem raceBlind_require {q : Query} (hq : SparesReferences q) (f : StoreError → TransferError) :
    (require q f).RaceBlind := by
  refine raceBlind_call hq fun r => ?_
  cases r with
  | ok a => exact raceBlind_pure a
  | error e => exact raceBlind_fail (f e)

/-- The second part of a sequence starts where nobody can tell the runs apart. -/
theorem RaceBlind.bind {w : Work α} {f : α → Work β} (hw : w.RaceBlind)
    (hf : ∀ a, (f a).RaceBlind) : (w >>= f).RaceBlind := by
  intro t p ht
  obtain ⟨o, t₁, p₁, h⟩ := hw t p ht
  cases o with
  | ok a =>
      obtain ⟨m, hm⟩ := h 0
      obtain ⟨o, t', p', h'⟩ := hf a t₁ p₁ (hm.wellFormed ht)
      refine ⟨o, t', p', fun n => ?_⟩
      obtain ⟨m, hm⟩ := h n
      exact (h' m).imp fun m' hm' => hm.bind hm'
  | error e => exact ⟨.error e, t₁, p₁, fun n => (h n).imp fun m hm => hm.bind_error⟩
  | overflow => exact ⟨.overflow, t₁, p₁, fun n => (h n).imp fun m hm => hm.bind_overflow⟩

theorem raceBlind_mapM {f : α → Work β} (hf : ∀ a, (f a).RaceBlind) (as : List α) :
    (as.mapM f).RaceBlind := by
  induction as with
  | nil =>
      rw [List.mapM_nil]
      exact raceBlind_pure []
  | cons a rest ih =>
      rw [List.mapM_cons]
      exact (hf a).bind fun _ => ih.bind fun _ => raceBlind_pure _

end Work

end FundsTransfer
