import FundsTransfer.Proofs.Rehearsal.Reordering
import FundsTransfer.Proofs.Sharing.Once

/-!
# Closed accounts are frozen

An account that was closed stays closed, and its balance stays what it was.  The flag is
looked at where a balance is to change and nowhere else.  So a transfer from or to a
closed account writes its transaction and both entries first, and it is the rollback
that keeps them out of sight.

A unit of work publishes a copy of all tables, and a copy that was taken while the account
was open would open it again.  There is none when the account is closed, because closing
waits for the lock, and whoever holds a copy has it.  From then on each copy is taken of
tables in which the account is closed, and no query changes such a row,
`find?_of_gives`.  A transfer that begins later finds the account closed when it opens
its unit of work, so it never publishes, `closed_account_frozen`.
-/

namespace FundsTransfer

open Memory Memory.Tables

/-! ## What leaves a closed account alone -/

section Rows

variable {t t' : Tables} {now : Timestamp} {account : Int} {row : Account}

/-- No query changes the row of a closed account. -/
theorem find?_of_gives {q : Query} {r : Except Refusal q.Answer}
    (h : (perform now q).Gives t r t') (hrow : t.accounts.find? account = some row)
    (hclosed : row.isActive = false) : t'.accounts.find? account = some row := by
  cases change_of_gives h with
  | balance =>
      obtain ⟨-, hsame⟩ | ⟨old, _, _, hold, hactive, -⟩ := gives_addBalance h
      · rw [hsame]
        exact hrow
      · rw [Table.find?_put, if_neg]
        · exact hrow
        · rintro rfl
          rw [hrow] at hold
          cases hold
          rw [hclosed] at hactive
          cases hactive
  | _ => exact hrow

/-- An account that was closed is closed. -/
theorem isActive_of_deactivate (h : (t.deactivate account).accounts.find? account = some row) :
    row.isActive = false := by
  unfold deactivate at h
  split at h
  · rw [Table.find?_put_self] at h
    cases h
    rfl
  · rename_i hnone
    rw [hnone] at h
    cases h

/-- Accounts that are opened later have other numbers, and an account that is closed again stays as
it is. -/
theorem find?_of_direct (write : Sharing.Direct) (ht : t.WellFormed)
    (hrow : t.accounts.find? account = some row) (hclosed : row.isActive = false) :
    (write.run now t).accounts.find? account = some row := by
  cases write with
  | openAccount user currency balance =>
      have hne : account ≠ (t.lastAccount + 1 : Nat) := by
        rintro rfl
        rw [ht.accounts_within.find?_next] at hrow
        cases hrow
      simp only [Sharing.Direct.run, openAccount, Table.find?_put, if_neg hne]
      exact hrow
  | deactivate id =>
      unfold Sharing.Direct.run deactivate
      dsimp only
      split
      · rename_i a ha
        rw [Table.find?_put]
        split
        · rename_i hid
          rw [← hid, hrow] at ha
          cases ha
          rw [← hclosed]
        · exact hrow
      · exact hrow

end Rows

/-! ## What a transfer needs -/

section Transfers

variable {t t' : Tables}

theorem activity_of_answered {α : Type} {w : Work α} {o : Outcome α}
    (h : w.Ends Answered t o t') : t'.activity = t.activity :=
  activity_of_ends (fun hanswered => hanswered.2) h

theorem open_of_applyDelta {account : Int} {delta : Decimal} {row : Account}
    (h : (applyDelta account delta).Ends Answered t (.ok row) t') :
    t.Open account := by
  obtain ⟨row', t₁, hadd, -⟩ := Work.ends_bind_ok.1 h
  obtain ⟨-, now, hanswers⟩ := Work.ends_require_ok.1 hadd
  obtain ⟨old, balance, hold, hactive, -⟩ := added_of_answers hanswers
  rw [Tables.Open, activity, hold, Option.map_some, hactive]

theorem open_of_updateBothBalances {sender receiver : Int} {amount : Decimal}
    {accounts : Account × Account}
    (h : (updateBothBalances sender receiver amount).Ends Answered t (.ok accounts) t') :
    t.Open sender ∧ t.Open receiver := by
  unfold updateBothBalances at h
  split at h
  · obtain ⟨s, t₁, hs, h⟩ := Work.ends_bind_ok.1 h
    obtain ⟨r, t₂, hr, -⟩ := Work.ends_bind_ok.1 h
    refine ⟨open_of_applyDelta hs, ?_⟩
    rw [Tables.Open, ← activity_of_answered hs]
    exact open_of_applyDelta hr
  · obtain ⟨r, t₁, hr, h⟩ := Work.ends_bind_ok.1 h
    obtain ⟨s, t₂, hs, -⟩ := Work.ends_bind_ok.1 h
    refine ⟨?_, open_of_applyDelta hr⟩
    rw [Tables.Open, ← activity_of_answered hr]
    exact open_of_applyDelta hs

/-- A transfer succeeds only when both accounts were open before its first query. -/
theorem open_of_runTransfer {v : ValidTransfer} {reference description : String}
    {r : TransferResult} (h : (runTransfer v reference description).Ends Answered t (.ok r) t') :
    t.Open v.sender ∧ t.Open v.receiver := by
  obtain ⟨refs, t₁, hrefs, h⟩ := Work.ends_bind_ok.1 h
  obtain ⟨pending, t₂, hcreate, h⟩ := Work.ends_bind_ok.1 h
  obtain ⟨⟨debit, credit⟩, t₃, hentries, h⟩ := Work.ends_bind_ok.1 (Work.ends_emit_bind.1 h)
  obtain ⟨accounts, t₄, hboth, -⟩ := Work.ends_bind_ok.1 h
  have hsame : t₃.activity = t.activity :=
    (activity_of_answered hentries).trans
      ((activity_of_answered hcreate).trans (activity_of_answered hrefs))
  rw [Tables.Open, Tables.Open, ← hsame]
  exact open_of_updateBothBalances hboth

/-- Both accounts of a call are open. -/
def TransferCall.Open (call : TransferCall) (t : Tables) : Prop :=
  t.Open call.params.sender ∧ t.Open call.params.receiver

/-- A call commits nothing unless both accounts were open when its unit of work was opened. -/
theorem TransferCall.transacts_open (call : TransferCall) :
    call.job.Transacts Answered Tables.Intact (fun t _ _ => call.Open t) none := by
  refine transfer_transacts _ _ _ fun v r t t' hvalid _ hends => ?_
  obtain ⟨-, -, rate, -, rfl⟩ := TransferParams.of_validate hvalid
  exact open_of_runTransfer hends

end Transfers

namespace Sharing

/-! ## One task among others -/

section Task

variable {ι : Type} {α : ι → Type} [DecidableEq ι] {s s' : System ι α} {es : Trace ι}

/-- A task that does everything in one unit of work never publishes while what is committed does not
let it. -/
theorem History.never_published {j : ι} {post : Tables → Tables → α j → Prop}
    (h : History s es s') (hs : s.Sound) (htask : Underway post s.store.tables False (s.task j))
    (hnever : ∀ es s', History s es s' → ∀ t a, ¬ post s'.store.tables t a) :
    (j, .published) ∉ es ∧ Underway post s'.store.tables False (s'.task j) := by
  induction h with
  | start => exact ⟨List.not_mem_nil, htask⟩
  | @act es s₁ e i store task hrun hact ih =>
      obtain ⟨hnot, hunderway⟩ := ih
      have hsound := (hrun.sound hs).1
      rw [List.mem_cons, not_or]
      by_cases hji : j = i
      · subst hji
        have hintact : ∀ t ∈ (s₁.task j).unit, t.Intact := fun t ht => (hsound.unit j t ht).1
        obtain ⟨hne, -, hself⟩ | ⟨-, -, ⟨a, hpost⟩, -⟩ :=
          hunderway.act hsound.tables hintact hact
        · refine ⟨⟨fun heq => hne (congrArg Prod.snd heq).symm, hnot⟩, ?_⟩
          rw [System.store_update, System.task_update_self]
          exact hself
        · exact absurd hpost (hnever _ _ hrun _ _)
      · refine ⟨⟨fun heq => hji (congrArg Prod.fst heq), hnot⟩, ?_⟩
        rw [System.store_update, System.task_update_of_ne hji]
        exact hunderway.other (hsound.exclusive.others hact hji)
  | fault _ _ _ ih => exact ih
  | race _ ih => exact ih

/-- A task that has not published, and does everything in one unit of work, has not succeeded. -/
theorem Underway.not_succeeds {β : Type} {post : Tables → Tables → β → Prop} {c : Tables}
    {task : Task β} (h : Underway post c False task) : ¬ task.Succeeds := by
  rintro ⟨job, a, rfl, hreturns⟩
  exact (h.succeeds_iff nofun).2 ⟨job, a, rfl, hreturns⟩

/-- A task is about to begin a transfer. -/
inductive Task.Begins (call : TransferCall) : {β : Type} → Task β → Prop where
  | ready : Begins call (⟨.ready call.job, none⟩ : Task TransferResult)

theorem Task.Begins.underway {call : TransferCall} {β : Type} {task : Task β}
    (h : task.Begins call) (c : Tables) :
    Underway (fun t _ _ => call.Open t) c False task := by
  cases h with
  | ready => exact .closed id call.transacts_open

end Task

/-! ## Frozen accounts -/

section Frozen

variable {ι : Type} [DecidableEq ι] {account : Int} {row : Account}

/-- An act keeps a closed account as it is, in what is committed and in the copy of its task. -/
theorem Act.keeps_closed {β : Type} {i : ι} {s s' : Store ι} {task task' : Task β} {e : Event}
    (h : Act i s task e s' task') (hs : s.tables.WellFormed) (hclosed : row.isActive = false)
    (htables : s.tables.accounts.find? account = some row)
    (hunit : ∀ t ∈ task.unit, t.accounts.find? account = some row) :
    s'.tables.accounts.find? account = some row ∧
      ∀ t ∈ task'.unit, t.accounts.find? account = some row := by
  cases h with
  | opened => exact ⟨htables, fun t ht => Option.some.inj ht ▸ htables⟩
  | asked now hperform =>
      refine ⟨htables, fun t ht => Option.some.inj ht ▸ ?_⟩
      exact find?_of_gives ⟨_, _, hperform⟩ (hunit _ rfl) hclosed
  | committed => exact ⟨hunit _ rfl, nofun⟩
  | notCommitted => exact ⟨htables, nofun⟩
  | rolledBack => exact ⟨htables, nofun⟩
  | dropped =>
      rw [Store.tables_leave]
      exact ⟨htables, nofun⟩
  | taken => exact ⟨htables, nofun⟩
  | wrote now => exact ⟨find?_of_direct _ hs htables hclosed, nofun⟩
  | _ => exact ⟨htables, hunit⟩

/-- When an account was closed, the lock is free and the account is closed. -/
theorem Act.closes {β : Type} {i : ι} {s s' : Store ι} {task task' : Task β} {now : Timestamp}
    (h : Act i s task (.wrote now (.deactivate account)) s' task') :
    s'.holder = none ∧
      ∀ row, s'.tables.accounts.find? account = some row → row.isActive = false := by
  cases h
  exact ⟨rfl, fun _ => isActive_of_deactivate⟩

variable {α : ι → Type} {s₀ s s' : System ι α} {es es' : Trace ι} {i : ι} {now : Timestamp}

theorem History.closes (h : History s₀ ((i, .wrote now (.deactivate account)) :: es) s) :
    s.store.holder = none ∧
      ∀ row, s.store.tables.accounts.find? account = some row → row.isActive = false := by
  generalize htrace : (i, Event.wrote now (.deactivate account)) :: es = trace at h
  induction h with
  | start => cases htrace
  | act _ hact _ =>
      cases htrace
      exact hact.closes
  | fault _ _ _ ih => exact ih htrace
  | race _ ih => exact ih htrace

/-- A closed account is the same in what is committed and in all copies of it. -/
structure System.Freezes (s : System ι α) (account : Int) (row : Account) : Prop where
  sound : s.Sound
  tables : s.store.tables.accounts.find? account = some row
  unit : ∀ i, ∀ t ∈ (s.task i).unit, t.accounts.find? account = some row

omit [DecidableEq ι] in
theorem System.Freezes.not_open (h : s.Freezes account row) (hclosed : row.isActive = false) :
    ¬ s.store.tables.Open account := by
  rw [Tables.Open, activity, h.tables, Option.map_some, hclosed]
  exact fun h => Bool.false_ne_true (Option.some.inj h)

omit [DecidableEq ι] in
/-- Where nobody holds the lock, there are no copies. -/
theorem System.Sound.freezes (hs : s.Sound) (hfree : s.store.holder = none)
    (hrow : s.store.tables.accounts.find? account = some row) : s.Freezes account row where
  sound := hs
  tables := hrow
  unit i t ht := by
    have hholder := hs.exclusive i (.inl (by rw [ht]; rfl))
    rw [hfree] at hholder
    cases hholder

theorem System.Freezes.act {e : Event} {store : Store ι} {task : Task (α i)}
    (hs : s.Freezes account row) (hclosed : row.isActive = false)
    (h : Act i s.store (s.task i) e store task) : (s.update i store task).Freezes account row := by
  obtain ⟨htables, hunit⟩ :=
    h.keeps_closed hs.sound.tables.toWellFormed hclosed hs.tables (hs.unit i)
  refine ⟨(hs.sound.act h).1, htables, fun j t ht => ?_⟩
  by_cases hji : j = i
  · subst hji
    rw [System.task_update_self] at ht
    exact hunit t ht
  · rw [System.task_update_of_ne hji] at ht
    exact hs.unit j t ht

theorem History.freezes (h : History s es s') (hclosed : row.isActive = false)
    (hs : s.Freezes account row) : s'.Freezes account row :=
  h.preserves (I := fun _ s => s.Freezes account row) (fun hact hs => hs.act hclosed hact)
    (fun hs => { hs with sound := { hs.sound with } }) hs

/-- Once an account was closed, it stays closed and its balance stays what it is, whatever any
number of tasks go on to do, and with any faults and races.  No transfer from it or to it that
begins later is ever committed, and none succeeds. -/
theorem closed_account_frozen (hfresh : s₀.Fresh) (hintact : s₀.store.tables.Intact)
    (h : History s₀ ((i, .wrote now (.deactivate account)) :: es) s)
    (hrow : s.store.tables.accounts.find? account = some row) :
    row.isActive = false ∧ ∀ es' s', History s es' s' →
      s'.store.tables.accounts.find? account = some row ∧
      ∀ j call, (s'.task j).Begins call →
        call.params.sender = account ∨ call.params.receiver = account →
        ∀ es'' s'', History s' es'' s'' →
          (j, .published) ∉ es'' ∧ ¬ (s''.task j).Succeeds := by
  obtain ⟨hfree, hclosed⟩ := h.closes
  have hclosed := hclosed row hrow
  have hsound := (h.sound (hfresh.sound hintact)).1
  refine ⟨hclosed, fun es' s' h' => ?_⟩
  have hfrozen := h'.freezes hclosed (hsound.freezes hfree hrow)
  refine ⟨hfrozen.tables, fun j call hbegins haccount es'' s'' h'' => ?_⟩
  have hnever : ∀ es s, History s' es s → ¬ call.Open s.store.tables := by
    intro es s hlater hopen
    have hnot := (hlater.freezes hclosed hfrozen).not_open hclosed
    obtain rfl | rfl := haccount
    · exact hnot hopen.1
    · exact hnot hopen.2
  obtain ⟨hpublished, hunderway⟩ :=
    h''.never_published hfrozen.sound (hbegins.underway _) fun es s hlater _ _ => hnever es s hlater
  exact ⟨hpublished, hunderway.not_succeeds⟩

end Frozen

/-! ## An account that is left -/

/-- A dollar goes from the first account to the second, the first account is closed, and somebody
wants to send the dollar back. -/
def leaving : System (Fin 3) fun _ => TransferResult where
  store := ⟨crossed, .quiet, none⟩
  task
    | 0 => ⟨.ready (crossing false).job, none⟩
    | 1 => ⟨.direct (.deactivate 1), none⟩
    | 2 => ⟨.ready (crossing true).job, none⟩

/-- The account is to be closed while the dollar is under way, and is closed when it got through. -/
def departed : Trace (Fin 3) × System (Fin 3) fun _ => TransferResult :=
  play leaving ([1, 1] ++ List.replicate 60 0 ++ [1] ++ List.replicate 6 0)

/-- The dollar was to be sent back. -/
def sentBack : Trace (Fin 3) × System (Fin 3) fun _ => TransferResult :=
  play departed.2 (List.replicate 60 2)

/-- The account that an event closed. -/
def Event.closed? : Event → Option Int
  | .wrote _ (.deactivate account) => some account
  | _ => none

theorem Event.eq_of_closed? {e : Event} {account : Int} (h : e.closed? = some account) :
    ∃ now, e = .wrote now (.deactivate account) := by
  unfold closed? at h
  split at h
  · cases h
    exact ⟨_, rfl⟩
  · cases h

/-- Closing the first account was the last that happened. -/
theorem exists_departed_eq : ∃ now past, departed.1 = (1, .wrote now (.deactivate 1)) :: past := by
  have hhead : departed.1.head?.map (fun x => (x.1, x.2.closed?)) = some (1, some 1) := by
    decide +kernel
  obtain ⟨⟨i, e⟩, hlast, heq⟩ := Option.map_eq_some_iff.1 hhead
  obtain ⟨now, rfl⟩ := Event.eq_of_closed? (congrArg Prod.snd heq)
  obtain rfl : i = 1 := congrArg Prod.fst heq
  exact ⟨now, _, (List.cons_head?_tail hlast).symm⟩

/-- Whoever does not act is where they were. -/
theorem task_play {ι : Type} [DecidableEq ι] {α : ι → Type} (s : System ι α) {is : List ι} {j : ι}
    (hj : j ∉ is) : (play s is).2.task j = s.task j := by
  induction is with
  | nil => rfl
  | cons i rest ih =>
      rw [List.mem_cons, not_or] at hj
      obtain ⟨hne, hrest⟩ := hj
      simp only [play]
      split
      · exact (System.task_update_of_ne hne _ _ _).trans (ih hrest)
      · exact ih hrest

/-- The dollar does not come back, and the account that is left keeps its ninety-nine dollars. -/
theorem dollar_not_sent_back :
    ((departed.2.store.tables.accounts.find? 1).map fun a => (a.isActive, a.balance.mantissa)) =
        some (false, 9900) ∧
      sentBack.2.store.tables.accounts.find? 1 = departed.2.store.tables.accounts.find? 1 ∧
      (2, .published) ∉ sentBack.1 ∧ ¬ (sentBack.2.task 2).Succeeds := by
  have hfresh : leaving.Fresh := by
    refine ⟨rfl, fun i => ?_, fun i write => ?_⟩
    · match i with
      | 0 | 1 | 2 => rfl
    · match i with
      | 0 | 1 | 2 => exact nofun
  have hrow : ((departed.2.store.tables.accounts.find? 1).map fun a =>
      (a.isActive, a.balance.mantissa)) = some (false, 9900) := by decide +kernel
  obtain ⟨row, hfind, -⟩ := Option.map_eq_some_iff.1 hrow
  have hdeparted : History leaving departed.1 departed.2 := (run_play _ _).history
  obtain ⟨now, past, htrace⟩ := exists_departed_eq
  rw [htrace] at hdeparted
  have hbegins : (departed.2.task 2).Begins (crossing true) := by
    rw [departed, task_play leaving (by decide)]
    exact .ready
  obtain ⟨-, hfrozen⟩ := closed_account_frozen hfresh
    (Rehearsal.reachable_twoAccounts _ _).intact hdeparted hfind
  have hlater : History departed.2 sentBack.1 sentBack.2 := (run_play _ _).history
  obtain ⟨hsame, -⟩ := hfrozen _ _ hlater
  obtain ⟨-, htransfers⟩ := hfrozen _ _ .start
  exact ⟨hrow, hsame.trans hfind.symm, htransfers 2 _ hbegins (.inr rfl) _ _ hlater⟩

end Sharing

end FundsTransfer
