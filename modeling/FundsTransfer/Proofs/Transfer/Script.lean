import FundsTransfer.Proofs.Transfer.Verdict
import FundsTransfer.Proofs.Work.Talk

/-!
# The script of a transfer

A *script* says how a talk goes that ends with a value: which query follows on which answers.
A store may depart from it anywhere, by refusing a query.  `Script.Allows` lists the talks that
can come of this.  Up to the query that was refused the talk is the beginning of one that goes
by the script, nothing is asked after it, and the error of the work names the query.  Only one
refusal is in the script itself: a reference row that somebody else has just written is refused
as a duplicate, and is then read back.

`Work.Follows` says that every talk of the work is one of these.  It is shown of the steps and
carried through sequences, `Follows.bind`.  `TransferScript` is what comes of it for a whole
transfer, and `transfer_names_failing_step` puts the unit of work around it.
-/

namespace FundsTransfer

variable {α β : Type} {es : List Exchange}

/-! ## Questions in a talk -/

namespace Question

/-- The exchange of a question and its answer. -/
def exchange (q : Question α) (answer : Except StoreError α) : Exchange :=
  .ask q.query (cast (congrArg _ q.answer_eq.symm) answer)

theorem exchange_error (q : Question α) (e : StoreError) :
    q.exchange (.error e) = .ask q.query (.error e) := by
  obtain ⟨q, rfl⟩ := q
  rfl

theorem exchange_ok (q : Question α) (a : α) :
    ∃ answer, q.exchange (.ok a) = .ask q.query (.ok answer) := by
  obtain ⟨q, rfl⟩ := q
  exact ⟨a, rfl⟩

theorem talks_ask_bind {q : Question α} {f : Except StoreError α → Work β} {o : Outcome β}
    (h : (q.ask >>= f).Talks es o) : (es = [.overflow q.query] ∧ o = .overflow) ∨
      ∃ r later, es = q.exchange r :: later ∧ (f r).Talks later o := by
  obtain ⟨q, rfl⟩ := q
  exact h

end Question

/-! ## Scripts -/

/-- How a talk goes that ends with a value. -/
abbrev Script (α : Type) := List Exchange → α → Prop

/-- One script after the other. -/
def Script.andThen (S : Script α) (T : α → Script β) : Script β := fun es b =>
  ∃ a before after, S before a ∧ T a after b ∧ es = before ++ after

/-- Whether a refusal means that somebody else has just written the reference row. -/
def Query.LosesRace (e : StoreError) : Query → Prop
  | .createStatus .. => e.isUniqueViolation = true
  | .createType .. => e.isUniqueViolation = true
  | .createCurrency _ => e.isUniqueViolation = true
  | _ => False

/-- The error that work makes of the refusal of a query. -/
abbrev Blame := Query → StoreError → Option TransferError

variable {blame : Blame} {S S' : Script α} {T : α → Script β}

/-- The talks that a script allows: those that go by it to the end, and those that break off. -/
inductive Script.Allows (blame : Blame) (S : Script α) : List Exchange → Outcome α → Prop where
  | ended (h : S said a) : Allows blame S said (.ok a)
  | refused (h : S (said ++ .ask q (.ok answer) :: later) a) (hrace : ¬ q.LosesRace e)
      (hblame : blame q e = some error) :
      Allows blame S (said ++ [.ask q (.error e)]) (.error error)
  /-- A row that was refused as a duplicate is not there. -/
  | vanished (k : ReferenceTable) (code : String) (e : StoreError) (row : k.Row)
      (h : S (said ++ (k.create code).exchange (.error e) ::
        (k.fetch code).exchange (.ok (some row)) :: later) a) :
      Allows blame S
        (said ++ [(k.create code).exchange (.error e), (k.fetch code).exchange (.ok none)])
        (.error (.referenceVanished k code))
  | overflowed (h : S (said ++ .ask q (.ok answer) :: later) a) :
      Allows blame S (said ++ [.overflow q]) .overflow

/-- Every talk of the work is one that the script allows, and there is one to its end. -/
structure Work.Follows (blame : Blame) (S : Script α) (w : Work α) : Prop where
  allows {es : List Exchange} {o : Outcome α} : w.Talks es o → S.Allows blame es o
  ends : ∃ es a, S es a

namespace Script.Allows

theorem ended_of_ok {a : α} (h : S.Allows blame es (.ok a)) : S es a := by
  cases h with
  | ended h => exact h

theorem mono {o : Outcome α} (h : S.Allows blame es o) (hS : ∀ es a, S es a → S' es a) :
    S'.Allows blame es o := by
  cases h with
  | ended h => exact .ended (hS _ _ h)
  | refused h hrace hblame => exact .refused (hS _ _ h) hrace hblame
  | vanished k code e row h => exact .vanished k code e row (hS _ _ h)
  | overflowed h => exact .overflowed (hS _ _ h)

theorem refused_first {q : Query} {answer : q.Answer} {later : List Exchange} {a : α}
    {e : StoreError} {error : TransferError} (h : S (.ask q (.ok answer) :: later) a)
    (hrace : ¬ q.LosesRace e) (hblame : blame q e = some error) :
    S.Allows blame [.ask q (.error e)] (.error error) :=
  .refused (show S ([] ++ .ask q (.ok answer) :: later) a from h) hrace hblame

theorem overflowed_first {q : Query} {answer : q.Answer} {later : List Exchange} {a : α}
    (h : S (.ask q (.ok answer) :: later) a) : S.Allows blame [.overflow q] .overflow :=
  .overflowed (show S ([] ++ .ask q (.ok answer) :: later) a from h)

/-- What is allowed of the second script is allowed after all of the first. -/
theorem after {before : List Exchange} {a : α} {o : Outcome β} (hS : S before a)
    (h : (T a).Allows blame es o) : (S.andThen T).Allows blame (before ++ es) o := by
  have hlater : ∀ {es b}, T a es b → S.andThen T (before ++ es) b :=
    fun hT => ⟨a, before, _, hS, hT, rfl⟩
  cases h with
  | ended h => exact .ended (hlater h)
  | refused h hrace hblame =>
      rw [← List.append_assoc]
      exact .refused (by rw [List.append_assoc]; exact hlater h) hrace hblame
  | vanished k code e row h =>
      rw [← List.append_assoc]
      exact .vanished k code e row (by rw [List.append_assoc]; exact hlater h)
  | overflowed h =>
      rw [← List.append_assoc]
      exact .overflowed (by rw [List.append_assoc]; exact hlater h)

section

variable (hT : ∀ a, ∃ es b, T a es b)
include hT

/-- What begins a talk by the first script begins one by both. -/
theorem begins {before later : List Exchange} {a : α} (h : S (before ++ later) a) :
    ∃ after b, S.andThen T (before ++ (later ++ after)) b := by
  obtain ⟨after, b, hafter⟩ := hT a
  exact ⟨after, b, a, _, after, h, hafter, (List.append_assoc ..).symm⟩

theorem error_before {e : TransferError} (h : S.Allows blame es (.error e)) :
    (S.andThen T).Allows blame es (.error e) := by
  cases h with
  | refused h hrace hblame =>
      obtain ⟨after, b, h⟩ := begins hT h
      exact .refused h hrace hblame
  | vanished k code e row h =>
      obtain ⟨after, b, h⟩ := begins hT h
      exact .vanished k code e row h

theorem overflow_before (h : S.Allows blame es .overflow) :
    (S.andThen T).Allows blame es .overflow := by
  cases h with
  | overflowed h =>
      obtain ⟨after, b, h⟩ := begins hT h
      exact .overflowed h

end

end Script.Allows

/-! ## Work that follows a script -/

namespace Work

theorem Follows.mono {w : Work α} (h : w.Follows blame S) (hS : ∀ es a, S es a → S' es a) :
    w.Follows blame S' where
  allows htalks := (h.allows htalks).mono hS
  ends := by
    obtain ⟨es, a, hends⟩ := h.ends
    exact ⟨es, a, hS es a hends⟩

/-- A sequence follows the scripts of its parts. -/
theorem Follows.bind {w : Work α} {f : α → Work β} (hw : w.Follows blame S)
    (hf : ∀ a, (f a).Follows blame (T a)) : (w >>= f).Follows blame (S.andThen T) where
  allows h := by
    have hT := fun a => (hf a).ends
    obtain ⟨a, before, after, rfl, hbefore, hafter⟩ | ⟨e, hw', rfl⟩ | ⟨hw', rfl⟩ := talks_bind h
    · exact ((hf a).allows hafter).after (hw.allows hbefore).ended_of_ok
    · exact (hw.allows hw').error_before hT
    · exact (hw.allows hw').overflow_before hT
  ends := by
    obtain ⟨before, a, hbefore⟩ := hw.ends
    obtain ⟨after, b, hafter⟩ := (hf a).ends
    exact ⟨before ++ after, b, a, before, after, hbefore, hafter, rfl⟩

theorem follows_pure (a : α) :
    (pure a : Work α).Follows blame fun es b => es = [] ∧ b = a where
  allows := by
    rintro es o ⟨rfl, rfl⟩
    exact .ended ⟨rfl, rfl⟩
  ends := ⟨[], a, rfl, rfl⟩

/-- An event is no exchange. -/
theorem follows_emit_bind {event : Log.Event} {w : Work α} (h : w.Follows blame S) :
    (emit event >>= fun _ => w).Follows blame S :=
  ⟨fun htalks => h.allows htalks, h.ends⟩

/-- A query that has to succeed is asked once. -/
theorem follows_require {q : Query} {asError : StoreError → TransferError}
    (hanswer : Nonempty q.Answer) (hrace : ∀ e, ¬ q.LosesRace e)
    (hblame : ∀ e, blame q e = some (asError e)) :
    (require q asError).Follows blame fun es a => es = [.ask q (.ok a)] := by
  obtain ⟨answer⟩ := hanswer
  have hasked : [Exchange.ask q (.ok answer)] = [.ask q (.ok answer)] := rfl
  refine ⟨?_, _, answer, hasked⟩
  rintro es o (⟨rfl, rfl⟩ | ⟨r, later, rfl, h⟩)
  · exact .overflowed_first hasked
  cases r with
  | ok a =>
      obtain ⟨rfl, rfl⟩ := h
      exact .ended rfl
  | error e =>
      obtain ⟨rfl, rfl⟩ := h
      exact .refused_first hasked (hrace e) (hblame e)

end Work

/-! ## Resolving a code -/

section Resolving

variable (k : ReferenceTable) (code : String)

/-- How a code is resolved when nothing stops it. -/
inductive ReferenceTable.Resolves : Script k.Row where
  /-- The row is there. -/
  | found (hcode : k.codeOf row = code) :
      Resolves [(k.fetch code).exchange (.ok (some row))] row
  /-- There is no row with the code, and it is written. -/
  | created (hmissing : ∀ row ∈ found, k.codeOf row ≠ code) (row : k.Row) :
      Resolves [(k.fetch code).exchange (.ok found), (k.create code).exchange (.ok row)] row
  /-- There is none, but somebody else writes it in this moment, and it is read back. -/
  | lost (hmissing : ∀ row ∈ found, k.codeOf row ≠ code) (hunique : e.isUniqueViolation = true)
      (row : k.Row) :
      Resolves [(k.fetch code).exchange (.ok found), (k.create code).exchange (.error e),
        (k.fetch code).exchange (.ok (some row))] row

variable {k code}

theorem ReferenceTable.losesRace_create (e : StoreError) :
    (k.create code).query.LosesRace e ↔ e.isUniqueViolation = true := by
  cases k with
  | status => rfl
  | type => rfl
  | currency => rfl

theorem ReferenceTable.not_losesRace_fetch (e : StoreError) :
    ¬ (k.fetch code).query.LosesRace e := by
  cases k with
  | status => exact id
  | type => exact id
  | currency => exact id

namespace Work

variable {o : Outcome k.Row}

/-- Reading a row is refused, or goes on with what was found. -/
theorem talks_fetchOrFail_bind {f : Option k.Row → Work k.Row}
    (h : (k.reference.fetchOrFail code >>= f).Talks es o) :
    (es = [.overflow (k.fetch code).query] ∧ o = .overflow) ∨
      (∃ e, es = [.ask (k.fetch code).query (.error e)] ∧
        o = .error (.referenceData k code e)) ∨
      ∃ found later, es = (k.fetch code).exchange (.ok found) :: later ∧
        (f found).Talks later o := by
  rw [Reference.fetchOrFail, k.fetch_reference, bind_assoc, k.table_reference] at h
  obtain hoverflow | ⟨r, later, rfl, hrest⟩ := Question.talks_ask_bind h
  · exact .inl hoverflow
  cases r with
  | ok found => exact .inr (.inr ⟨found, later, rfl, hrest⟩)
  | error e =>
      obtain ⟨rfl, rfl⟩ := hrest
      exact .inr (.inl ⟨e, by rw [Question.exchange_error], rfl⟩)

variable (hfetch : ∀ e, blame (k.fetch code).query e = some (.referenceData k code e))
  (hcreate : ∀ e, blame (k.create code).query e = some (.referenceData k code e))

include hfetch

/-- A row that was refused as a duplicate is read back, if it is there. -/
theorem allows_refetch {found : Option k.Row} {e : StoreError}
    (hmissing : ∀ row ∈ found, k.codeOf row ≠ code) (hunique : e.isUniqueViolation = true)
    (h : (k.reference.refetch code).Talks es o) :
    (k.Resolves code).Allows blame
      ([(k.fetch code).exchange (.ok found), (k.create code).exchange (.error e)] ++ es) o := by
  obtain ⟨row, -⟩ := k.exists_codeOf code
  have hlost : ∀ row, k.Resolves code
      ([(k.fetch code).exchange (.ok found), (k.create code).exchange (.error e)] ++
        [(k.fetch code).exchange (.ok (some row))]) row :=
    .lost hmissing hunique
  obtain ⟨answer, hanswer⟩ := (k.fetch code).exchange_ok (some row)
  have hasked := hlost row
  rw [hanswer] at hasked
  obtain ⟨rfl, rfl⟩ | ⟨e', rfl, rfl⟩ | ⟨again, later, rfl, hrest⟩ := talks_fetchOrFail_bind h
  · exact .overflowed hasked
  · exact .refused hasked (k.not_losesRace_fetch e') (hfetch e')
  cases again with
  | some row =>
      obtain ⟨rfl, rfl⟩ := hrest
      exact .ended (hlost row)
  | none =>
      obtain ⟨rfl, rfl⟩ := hrest
      rw [k.table_reference]
      show Script.Allows blame _ ([(k.fetch code).exchange (.ok found)] ++
        [(k.create code).exchange (.error e), (k.fetch code).exchange (.ok none)]) _
      exact .vanished k code e row (hlost row)

include hcreate

theorem allows_createOrRefetch {found : Option k.Row}
    (hmissing : ∀ row ∈ found, k.codeOf row ≠ code)
    (h : (k.reference.createOrRefetch code).Talks es o) :
    (k.Resolves code).Allows blame ([(k.fetch code).exchange (.ok found)] ++ es) o := by
  obtain ⟨row, -⟩ := k.exists_codeOf code
  have hcreated : ∀ row, k.Resolves code
      ([(k.fetch code).exchange (.ok found)] ++ [(k.create code).exchange (.ok row)]) row :=
    .created hmissing
  obtain ⟨answer, hanswer⟩ := (k.create code).exchange_ok row
  have hasked := hcreated row
  rw [hanswer] at hasked
  rw [Reference.createOrRefetch, k.create_reference] at h
  obtain ⟨rfl, rfl⟩ | ⟨r, later, rfl, hrest⟩ := Question.talks_ask_bind h
  · exact .overflowed hasked
  cases r with
  | ok row =>
      obtain ⟨rfl, rfl⟩ := hrest
      exact .ended (hcreated row)
  | error e =>
      dsimp only at hrest
      split at hrest
      · rename_i hunique
        exact allows_refetch hfetch hmissing hunique hrest
      · rename_i hunique
        obtain ⟨rfl, rfl⟩ := hrest
        rw [Question.exchange_error, k.table_reference]
        exact .refused hasked (mt (k.losesRace_create e).1 hunique) (hcreate e)

theorem follows_resolve (hcode : code ≠ "") :
    (k.reference.resolve code).Follows blame (k.Resolves code) := by
  obtain ⟨row, -⟩ := k.exists_codeOf code
  have hnone : ∀ row ∈ (none : Option k.Row), k.codeOf row ≠ code := nofun
  have hasked := ReferenceTable.Resolves.created hnone row
  refine ⟨fun {es o} h => ?_, _, row, hasked⟩
  obtain ⟨answer, hanswer⟩ := (k.fetch code).exchange_ok none
  rw [hanswer] at hasked
  rw [Reference.resolve, if_neg (by simpa using hcode)] at h
  obtain ⟨rfl, rfl⟩ | ⟨e, rfl, rfl⟩ | ⟨found, later, rfl, hrest⟩ := talks_fetchOrFail_bind h
  · exact .overflowed_first hasked
  · exact .refused_first hasked (k.not_losesRace_fetch e) (hfetch e)
  cases found with
  | none => exact allows_createOrRefetch hfetch hcreate hnone hrest
  | some row =>
      dsimp only at hrest
      rw [k.codeOf_reference] at hrest
      split at hrest
      · rename_i hrow
        obtain ⟨rfl, rfl⟩ := hrest
        exact .ended (.found hrow)
      · rename_i hrow
        refine allows_createOrRefetch hfetch hcreate (fun row' hrow' => ?_) hrest
        cases hrow'
        exact hrow

end Work

end Resolving

end FundsTransfer
