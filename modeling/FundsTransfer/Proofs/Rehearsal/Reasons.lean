import FundsTransfer.Proofs.Rehearsal.Reordering

/-!
# When a transfer succeeds, and the first reason why it does not

A transfer can be refused for more than one reason at once.  The account it goes to is
missing and its reference number is in use, or both of its accounts are closed.  The
caller is told one of them, and which one is a matter of where the engine looks first:
at the parameters, at the sender, at the receiver, at the reference number, and at the
balances last, the lower account before the higher.

`FirstReason` is this list, with the error, its word and its status.  Where no fault is
armed, no hook is pending and both sums can be made, a transfer succeeds when nothing on
the list applies, and otherwise fails with the first that does, `transfer_decided`.  So
reference rows and the races for them are never a reason.
-/

namespace FundsTransfer

open Memory Memory.Tables

/-- Nothing speaks against a call. -/
structure TransferCall.Acceptable (call : TransferCall) (t : Tables) : Prop where
  valid : call.Valid
  sender : t.Open call.params.sender
  receiver : t.Open call.params.receiver
  reference : ∀ r, call.params.reference = some r → ¬ t.Uses r

/-- The checks before the first query have nothing against a call, and both accounts exist. -/
structure TransferCall.Placed (call : TransferCall) (t : Tables) : Prop where
  valid : call.Valid
  sender : t.accounts.contains call.params.sender = true
  receiver : t.accounts.contains call.params.receiver = true

/-- The first reason against a call: the error, its word and its status. -/
inductive TransferCall.FirstReason (call : TransferCall) (t : Tables) :
    TransferError → String → Nat → Prop where
  | invalid (h : call.params.validate = .error e) : FirstReason call t e e.code e.httpStatus
  | noSender (hvalid : call.Valid) (h : t.accounts.contains call.params.sender = false) :
      FirstReason call t (.storage .createTransaction
          (.notFound ("account " ++ Text.intText call.params.sender))) "ACCOUNT_NOT_FOUND" 404
  | noReceiver (hvalid : call.Valid) (hsender : t.accounts.contains call.params.sender = true)
      (h : t.accounts.contains call.params.receiver = false) :
      FirstReason call t (.storage .createTransaction
          (.notFound ("account " ++ Text.intText call.params.receiver))) "ACCOUNT_NOT_FOUND" 404
  | duplicate (hplaced : call.Placed t) (hreference : call.params.reference = some r)
      (h : t.Uses r) :
      FirstReason call t (.storage .createTransaction
          (.uniqueViolation ("reference number " ++ r))) "DUPLICATE_REFERENCE" 409
  | lowerClosed (hplaced : call.Placed t)
      (hunused : ∀ r, call.params.reference = some r → ¬ t.Uses r) (h : ¬ t.Open call.low) :
      FirstReason call t (.storage (.updateBalance call.low)
          (.notFound ("active account " ++ Text.intText call.low))) "ACCOUNT_NOT_FOUND" 404
  | higherClosed (hplaced : call.Placed t)
      (hunused : ∀ r, call.params.reference = some r → ¬ t.Uses r) (hlow : t.Open call.low)
      (h : ¬ t.Open call.high) :
      FirstReason call t (.storage (.updateBalance call.high)
          (.notFound ("active account " ++ Text.intText call.high))) "ACCOUNT_NOT_FOUND" 404

namespace TransferCall

variable {call : TransferCall} {t : Tables}

theorem lockOrder_eq (call : TransferCall) :
    lockOrder call.params.sender call.params.receiver = (call.low, call.high) := by
  unfold lockOrder low high
  split
  · rename_i hle
    rw [min_eq_left hle, max_eq_right hle]
  · rename_i hle
    rw [min_eq_right (not_le.1 hle).le, max_eq_left (not_le.1 hle).le]

theorem isOpen_iff {id : Int} : isOpen t.accounts id = true ↔ t.Open id := by
  rw [isOpen, Tables.Open, activity]
  cases t.accounts.find? id with
  | none => exact iff_of_false Bool.false_ne_true (Option.some_ne_none true).symm
  | some a => exact Option.some_inj.symm

theorem isOpen_eq_false {id : Int} : isOpen t.accounts id = false ↔ ¬ t.Open id := by
  rw [← isOpen_iff, Bool.not_eq_true]

theorem contains_of_open {id : Int} (h : t.Open id) : t.accounts.contains id = true := by
  obtain ⟨a, ha, -⟩ := Option.map_eq_some_iff.1 h
  rw [Table.contains, ha]
  rfl

/-- Two accounts are open when the lower and the higher of them are. -/
theorem open_low_high :
    t.Open call.low ∧ t.Open call.high ↔
      t.Open call.params.sender ∧ t.Open call.params.receiver := by
  unfold low high
  rcases le_total call.params.sender call.params.receiver with hle | hle
  · rw [min_eq_left hle, max_eq_right hle]
  · rw [min_eq_right hle, max_eq_left hle, and_comm]

/-- A number that was made up is new, so a number in use is one that the caller supplied. -/
theorem supplied_of_uses (hfresh : call.params.reference = none → ¬ t.Uses call.generated)
    (h : t.Uses call.reference) : call.params.reference = some call.reference := by
  cases hsupplied : call.params.reference with
  | none =>
      rw [reference, hsupplied] at h
      exact absurd h (hfresh hsupplied)
  | some r => rw [reference_of_supplied hsupplied]

theorem unused_reference (hfresh : call.params.reference = none → ¬ t.Uses call.generated)
    (h : ∀ r, call.params.reference = some r → ¬ t.Uses r) : ¬ t.Uses call.reference :=
  fun hused => h _ (supplied_of_uses hfresh hused) hused

namespace Placed

theorem refusal?_eq (h : call.Placed t) :
    call.refusal? t =
      (creationRefusal? t call.params call.reference).or
        (closedRefusal? t.accounts call.params) := by
  obtain ⟨v, hv⟩ := h.valid
  rw [refusal?, hv]
  rfl

open Classical in
/-- Where both accounts exist, a transaction is refused for its reference number only. -/
theorem creationRefusal?_eq (h : call.Placed t) (ht : t.Intact) :
    creationRefusal? t call.params call.reference =
      if t.Uses call.reference then some (.storage .createTransaction
        (.uniqueViolation ("reference number " ++ call.reference))) else none := by
  simp [creationRefusal?, h.sender, h.receiver, ht.uses_iff]

end Placed

/-- What the engine finds against a call is the first reason. -/
theorem firstReason_of_refusal? {e : TransferError} (ht : t.Intact)
    (hfresh : call.params.reference = none → ¬ t.Uses call.generated)
    (h : call.refusal? t = some e) : call.FirstReason t e e.code e.httpStatus := by
  unfold refusal? at h
  cases hvalid : call.params.validate with
  | error e' =>
      rw [hvalid] at h
      cases h
      exact .invalid hvalid
  | ok v =>
      have hvalid : call.Valid := ⟨v, hvalid⟩
      simp only [‹call.params.validate = _›, FundsTransfer.refusal?, creationRefusal?,
        closedRefusal?, lockOrder_eq] at h
      split at h
      · rename_i hsender
        cases h
        exact .noSender hvalid (by simpa using hsender)
      split at h
      · rename_i hsender hreceiver
        cases h
        exact .noReceiver hvalid (by simpa using hsender) (by simpa using hreceiver)
      rename_i hsender hreceiver
      have hplaced : call.Placed t := ⟨hvalid, by simpa using hsender, by simpa using hreceiver⟩
      split at h
      · rename_i hused
        cases h
        have hused := ht.uses_iff.2 hused
        exact .duplicate hplaced (supplied_of_uses hfresh hused) hused
      rename_i hunused
      have hunused : ∀ r, call.params.reference = some r → ¬ t.Uses r := by
        intro r hr
        rw [← reference_of_supplied hr, ht.uses_iff]
        exact hunused
      rw [Option.none_or] at h
      split at h
      · rename_i hlow
        cases h
        exact .lowerClosed hplaced hunused (isOpen_eq_false.1 (by simpa using hlow))
      split at h
      · rename_i hlow hhigh
        cases h
        exact .higherClosed hplaced hunused (isOpen_iff.1 (by simpa using hlow))
          (isOpen_eq_false.1 (by simpa using hhigh))
      · cases h

/-- The first reason is what the engine finds. -/
theorem refusal?_of_firstReason {e : TransferError} {code : String} {status : Nat}
    (ht : t.Intact) (hfresh : call.params.reference = none → ¬ t.Uses call.generated)
    (h : call.FirstReason t e code status) : call.refusal? t = some e := by
  cases h with
  | invalid herror => rw [refusal?, herror]
  | noSender hvalid hmissing =>
      obtain ⟨v, hv⟩ := hvalid
      simp [refusal?, hv, FundsTransfer.refusal?, creationRefusal?, hmissing]
  | noReceiver hvalid hsender hmissing =>
      obtain ⟨v, hv⟩ := hvalid
      simp [refusal?, hv, FundsTransfer.refusal?, creationRefusal?, hsender, hmissing]
  | duplicate hplaced hsupplied hused =>
      obtain rfl := reference_of_supplied hsupplied
      rw [hplaced.refusal?_eq, hplaced.creationRefusal?_eq ht, if_pos hused]
      rfl
  | lowerClosed hplaced hunused hclosed =>
      have hcreation := hplaced.creationRefusal?_eq ht
      rw [if_neg (unused_reference hfresh hunused)] at hcreation
      rw [hplaced.refusal?_eq, hcreation, Option.none_or, closedRefusal?, lockOrder_eq,
        isOpen_eq_false.2 hclosed]
      rfl
  | higherClosed hplaced hunused hlow hclosed =>
      have hcreation := hplaced.creationRefusal?_eq ht
      rw [if_neg (unused_reference hfresh hunused)] at hcreation
      rw [hplaced.refusal?_eq, hcreation, Option.none_or, closedRefusal?, lockOrder_eq,
        isOpen_iff.2 hlow, isOpen_eq_false.2 hclosed]
      rfl

/-- The engine finds nothing against an acceptable call. -/
theorem Acceptable.refusal?_eq (h : call.Acceptable t) (ht : t.Intact)
    (hfresh : call.params.reference = none → ¬ t.Uses call.generated) :
    call.refusal? t = none := by
  have hplaced : call.Placed t :=
    ⟨h.valid, contains_of_open h.sender, contains_of_open h.receiver⟩
  have hcreation := hplaced.creationRefusal?_eq ht
  rw [if_neg (unused_reference hfresh h.reference)] at hcreation
  obtain ⟨hlow, hhigh⟩ := open_low_high.2 ⟨h.sender, h.receiver⟩
  rw [hplaced.refusal?_eq, hcreation, Option.none_or, closedRefusal?, lockOrder_eq,
    isOpen_iff.2 hlow, isOpen_iff.2 hhigh]
  rfl

/-- A call with nothing against it is acceptable. -/
theorem acceptable_of_refusal? (ht : t.Intact) (h : call.refusal? t = none) :
    call.Acceptable t := by
  obtain ⟨v, hv⟩ := valid_of_refusal? h
  simp only [refusal?, hv, FundsTransfer.refusal?, creationRefusal?, closedRefusal?,
    lockOrder_eq] at h
  split at h
  · cases h
  split at h
  · cases h
  split at h
  · cases h
  rename_i hunused
  rw [Option.none_or] at h
  split at h
  · cases h
  split at h
  · cases h
  rename_i hlow hhigh
  have hboth := open_low_high.1
    ⟨isOpen_iff.1 (by simpa using hlow), isOpen_iff.1 (by simpa using hhigh)⟩
  refine ⟨⟨v, hv⟩, hboth.1, hboth.2, fun r hr => ?_⟩
  rw [← reference_of_supplied hr, ht.uses_iff]
  exact hunused

end TransferCall

namespace Rehearsal

variable {w : World} {call : TransferCall}

/-- Where no fault is armed, a transfer whose sums can be made succeeds if nothing speaks against
it, and otherwise fails with the first reason that does. -/
theorem transfer_decided (hw : Reachable w) (hquiet : w.Undisturbed) (hlock : w.LockHeld false)
    (hfresh : call.params.reference = none → ¬ w.tables.Uses call.generated)
    (haffords : Affords w.tables.accounts call.params) (pauses : Nat) :
    ((∃ r, (Rehearsal.call w call.job pauses).1 = .ok r) ↔ call.Acceptable w.tables) ∧
      (¬ call.Acceptable w.tables → ∃ e, (Rehearsal.call w call.job pauses).1 = .error e) ∧
      ∀ e, (Rehearsal.call w call.job pauses).1 = .error e ↔
        call.FirstReason w.tables e e.code e.httpStatus := by
  obtain ⟨r, w', hcall, -, -, hsettles⟩ := call_settles hw hquiet hlock (fun _ => haffords) pauses
  rw [hcall]
  generalize w'.tables = t' at hsettles
  cases hsettles with
  | carried hrefusal _ _ =>
      have hacceptable := TransferCall.acceptable_of_refusal? hw.intact hrefusal
      refine ⟨⟨fun _ => hacceptable, fun _ => ⟨_, rfl⟩⟩, fun hnot => absurd hacceptable hnot,
        fun e => ⟨nofun, fun hreason => ?_⟩⟩
      have hfound := TransferCall.refusal?_of_firstReason hw.intact hfresh hreason
      rw [hrefusal] at hfound
      cases hfound
  | refused hrefusal =>
      refine ⟨⟨?_, fun hacceptable => ?_⟩, fun _ => ⟨_, rfl⟩, fun e => ⟨?_, fun hreason => ?_⟩⟩
      · rintro ⟨r, ⟨⟩⟩
      · have hnone := hacceptable.refusal?_eq hw.intact hfresh
        rw [hrefusal] at hnone
        cases hnone
      · rintro ⟨⟩
        exact TransferCall.firstReason_of_refusal? hw.intact hfresh hrefusal
      · have hfound := TransferCall.refusal?_of_firstReason hw.intact hfresh hreason
        rw [hrefusal] at hfound
        cases hfound
        rfl

/-- Two accounts that were closed, the first one last, where somebody is about to win a race for a
reference row. -/
def bothClosed : World :=
  let opened := twoAccounts hundredDollars hundredDollars
  let second := (direct opened fun t => ((), t.deactivate 2)).2
  let both := (direct second fun t => ((), t.deactivate 1)).2
  { both with probes := both.probes.addRace }

/-- A dollar from the second account to the first, with a number that is made up. -/
def dollarBack : TransferCall :=
  ⟨.default, "R-9", { oneDollar with sender := 2, receiver := 1, reference := none }⟩

theorem affords_dollarBack : Affords bothClosed.tables.accounts dollarBack.params := by
  have hrows : ∀ a ∈ bothClosed.tables.accounts.rows, a.balance = hundredDollars := by
    decide +kernel
  have hkeys : bothClosed.tables.accounts.keys.Nodup := by decide +kernel
  have hsums : ∀ delta ∈ [oneDollar.amount, oneDollar.amount.negate],
      (hundredDollars.add? delta).isSome = true := by decide +kernel
  intro account a ha delta hdelta
  rw [hrows a ((Table.mem_rows hkeys).2 ⟨account, ha⟩)]
  refine Option.isSome_iff_exists.1 (hsums delta ?_)
  obtain rfl | rfl := TransferParams.mem_deltas hdelta
  · exact List.mem_cons_self
  · exact List.mem_cons_of_mem _ List.mem_cons_self

/-- Of two closed accounts the lower one is named, also when it is the receiver. -/
theorem lower_closed_is_named :
    dollarBack.FirstReason bothClosed.tables (closedError 1) "ACCOUNT_NOT_FOUND" 404 ∧
      (Rehearsal.call bothClosed dollarBack.job 0).1 = .error (closedError 1) := by
  have hreachable : Reachable bothClosed :=
    .race (.deactivate 1 (.deactivate 2 (reachable_twoAccounts hundredDollars hundredDollars)))
  have hplaced : dollarBack.Placed bothClosed.tables :=
    ⟨TransferCall.valid_of_isOk (by decide +kernel), by decide +kernel, by decide +kernel⟩
  have hclosed : isOpen bothClosed.tables.accounts 1 = false := by decide +kernel
  have hreason : dollarBack.FirstReason bothClosed.tables (closedError 1) "ACCOUNT_NOT_FOUND" 404 :=
    .lowerClosed hplaced nofun (TransferCall.isOpen_eq_false.1 hclosed)
  have hfresh : ¬ bothClosed.tables.Uses "R-9" := by
    rw [hreachable.intact.uses_iff]
    decide +kernel
  obtain ⟨-, -, herror⟩ := transfer_decided hreachable ⟨rfl, fun _ => rfl⟩ ⟨rfl, rfl, rfl⟩
    (fun _ => hfresh) affords_dollarBack 0
  exact ⟨hreason, (herror _).2 hreason⟩

end Rehearsal

end FundsTransfer
