import FundsTransfer.Work.Basic

/-!
# How work can end

`Work` says what is asked and in which order.  What comes of it depends on the store.  A
store is given here as a relation, `Answering`: in which state a query can get which
answer, and the state after it.  So a store may leave open what it answers, as one does
in which faults and races are pending that nobody listed.

`Work.Ends` says whether work that starts in one state can end with an outcome in
another.  `ends_bind_ok` takes a sequence of steps that succeeded apart, step by step,
and this is how every property of a whole transfer is reached.

`Work.Asks` is about the queries alone: no branch of the work asks anything else.
`Ends.preserves` derives from it that a relation between states which these queries keep
holds between the start and the end.
-/

namespace FundsTransfer

/-- A store as work sees it: the answers a query can get in a state, and the state after each. -/
abbrev Answering (σ : Type) := σ → (q : Query) → Except StoreError q.Answer → σ → Prop

namespace Work

variable {σ α β : Type} {A : Answering σ} {s s' : σ}

/-- Whether work that starts in a state can end with an outcome in another state. -/
def Ends (A : Answering σ) : Work α → σ → Outcome α → σ → Prop
  | .done a, s, o, s' => o = .ok a ∧ s' = s
  | .fail e, s, o, s' => o = .error e ∧ s' = s
  | .overflow, s, o, s' => o = .overflow ∧ s' = s
  | .log _ rest, s, o, s' => rest.Ends A s o s'
  | .pause _ rest, s, o, s' => rest.Ends A s o s'
  | .call q next, s, o, s' => ∃ r s₁, A s q r s₁ ∧ (next r).Ends A s₁ o s'

/-! ## Work that succeeds -/

@[simp] theorem ends_pure_ok {a b : α} :
    (pure a : Work α).Ends A s (.ok b) s' ↔ b = a ∧ s' = s := by
  show Outcome.ok b = Outcome.ok a ∧ s' = s ↔ b = a ∧ s' = s
  rw [Outcome.ok.injEq]

@[simp] theorem ends_fail_ok {e : TransferError} {a : α} :
    (fail e : Work α).Ends A s (.ok a) s' ↔ False := by
  simp [Ends]

@[simp] theorem ends_log {event : Log.Event} {w : Work α} {o : Outcome α} :
    (log event w).Ends A s o s' ↔ w.Ends A s o s' := Iff.rfl

@[simp] theorem ends_ask_ok {q : Query} {r : Except StoreError q.Answer} :
    (ask q).Ends A s (.ok r) s' ↔ A s q r s' := by
  constructor
  · rintro ⟨r₁, s₁, hA, hr, hs⟩
    cases hr
    cases hs
    exact hA
  · intro hA
    exact ⟨r, s', hA, rfl, rfl⟩

/-- A query that has to succeed does so when the store answers. -/
@[simp] theorem ends_require_ok {q : Query} {f : StoreError → TransferError} {a : q.Answer} :
    (require q f).Ends A s (.ok a) s' ↔ A s q (.ok a) s' := by
  constructor
  · rintro ⟨r, s₁, hA, hr⟩
    cases r with
    | ok b =>
        obtain ⟨hb, hs⟩ := hr
        cases hb
        cases hs
        exact hA
    | error e => exact absurd hr.1 nofun
  · intro hA
    exact ⟨.ok a, s', hA, rfl, rfl⟩

/-- A sequence succeeds when its first part does and the second goes on from there. -/
theorem ends_bind_ok {w : Work α} {f : α → Work β} {b : β} :
    (w >>= f).Ends A s (.ok b) s' ↔
      ∃ a s₁, w.Ends A s (.ok a) s₁ ∧ (f a).Ends A s₁ (.ok b) s' := by
  induction w generalizing s with
  | done a =>
      constructor
      · intro h
        exact ⟨a, s, ⟨rfl, rfl⟩, h⟩
      · rintro ⟨_, _, ⟨ha, hs⟩, h⟩
        cases ha
        cases hs
        exact h
  | fail e => simp [Ends]
  | overflow => simp [Ends]
  | log event rest ih => exact ih
  | pause ms rest ih => exact ih
  | call q next ih =>
      constructor
      · rintro ⟨r, s₁, hA, h⟩
        obtain ⟨a, s₂, hw, hf⟩ := (ih r).1 h
        exact ⟨a, s₂, ⟨r, s₁, hA, hw⟩, hf⟩
      · rintro ⟨a, s₂, ⟨r, s₁, hA, hw⟩, hf⟩
        exact ⟨r, s₁, hA, (ih r).2 ⟨a, s₂, hw, hf⟩⟩

/-- An event between two steps changes nothing. -/
@[simp] theorem ends_emit_bind {event : Log.Event} {f : Unit → Work β} {o : Outcome β} :
    (emit event >>= f).Ends A s o s' ↔ (f ()).Ends A s o s' := Iff.rfl

/-! ## Work that asks some queries only -/

/-- No branch of the work asks a query outside a set. -/
def Asks (Q : Query → Prop) : Work α → Prop
  | .done _ => True
  | .fail _ => True
  | .overflow => True
  | .log _ rest => rest.Asks Q
  | .pause _ rest => rest.Asks Q
  | .call q next => Q q ∧ ∀ r, (next r).Asks Q

variable {Q : Query → Prop}

theorem Asks.mono {Q' : Query → Prop} {w : Work α} (h : w.Asks Q) (hQ : ∀ q, Q q → Q' q) :
    w.Asks Q' := by
  induction w with
  | done a => trivial
  | fail e => trivial
  | overflow => trivial
  | log event rest ih => exact ih h
  | pause ms rest ih => exact ih h
  | call q next ih => exact ⟨hQ q h.1, fun r => ih r (h.2 r)⟩

@[simp] theorem asks_ask {q : Query} : (ask q).Asks Q ↔ Q q :=
  ⟨fun h => h.1, fun h => ⟨h, fun _ => trivial⟩⟩

theorem asks_require {q : Query} {f : StoreError → TransferError} (h : Q q) :
    (require q f).Asks Q := by
  refine ⟨h, fun r => ?_⟩
  cases r with
  | ok a => trivial
  | error e => trivial

theorem asks_ofOutcome (o : Outcome α) : (ofOutcome o).Asks Q := by
  cases o with
  | ok a => trivial
  | error e => trivial
  | overflow => trivial

/-- A sequence asks what its parts ask. -/
theorem Asks.bind {w : Work α} {f : α → Work β} (hw : w.Asks Q) (hf : ∀ a, (f a).Asks Q) :
    (w >>= f).Asks Q := by
  induction w with
  | done a => exact hf a
  | fail e => trivial
  | overflow => trivial
  | log event rest ih => exact ih hw
  | pause ms rest ih => exact ih hw
  | call q next ih => exact ⟨hw.1, fun r => ih r (hw.2 r)⟩

/-- Work done for each member of a list asks what it asks for one. -/
theorem asks_mapM {f : α → Work β} (hf : ∀ a, (f a).Asks Q) (as : List α) :
    (as.mapM f).Asks Q := by
  induction as with
  | nil => rw [List.mapM_nil]; trivial
  | cons a rest ih =>
      rw [List.mapM_cons]
      exact (hf a).bind fun _ => ih.bind fun _ => trivial

/-- What every query that the work asks keeps, the work keeps. -/
theorem Ends.preserves {I : σ → σ → Prop} (hrefl : ∀ s, I s s)
    (htrans : ∀ {s₁ s₂ s₃}, I s₁ s₂ → I s₂ s₃ → I s₁ s₃)
    (hstep : ∀ {s q r s'}, Q q → A s q r s' → I s s')
    {w : Work α} {o : Outcome α} (hw : w.Asks Q) (h : w.Ends A s o s') : I s s' := by
  induction w generalizing s with
  | done a => exact h.2 ▸ hrefl s
  | fail e => exact h.2 ▸ hrefl s
  | overflow => exact h.2 ▸ hrefl s
  | log event rest ih => exact ih hw h
  | pause ms rest ih => exact ih hw h
  | call q next ih =>
      obtain ⟨r, s₁, hA, hn⟩ := h
      exact htrans (hstep hw.1 hA) (ih r (hw.2 r) hn)

/-- What every answer keeps, the work keeps, and while it holds the answers may say more. -/
theorem Ends.refines {I : σ → Prop} {B : Answering σ}
    (hstep : ∀ {s q r s'}, I s → A s q r s' → B s q r s' ∧ I s')
    {w : Work α} {o : Outcome α} (hs : I s) (h : w.Ends A s o s') : w.Ends B s o s' ∧ I s' := by
  induction w generalizing s with
  | done a => exact ⟨h, h.2 ▸ hs⟩
  | fail e => exact ⟨h, h.2 ▸ hs⟩
  | overflow => exact ⟨h, h.2 ▸ hs⟩
  | log event rest ih => exact ih hs h
  | pause ms rest ih => exact ih hs h
  | call q next ih =>
      obtain ⟨r, s₁, hA, hn⟩ := h
      obtain ⟨hB, hs₁⟩ := hstep hs hA
      obtain ⟨hends, hs'⟩ := ih r hs₁ hn
      exact ⟨⟨r, s₁, hB, hends⟩, hs'⟩

end Work

end FundsTransfer
