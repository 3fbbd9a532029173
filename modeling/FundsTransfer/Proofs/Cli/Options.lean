import FundsTransfer.Proofs.Cli.Reading
import Mathlib.Control.Monad.Basic

/-!
# What the options of a line say

`Spells` says which request a way of looking options up stands for.  The program looks them up
by their names in all arguments, and makes the request that they spell in this way, or none
(`transferParams_eq_ok_iff`).

`option_read_unless_astray` compares this with the one reading of the line.
-/

namespace FundsTransfer.Cli

/-- The names of each option. -/
def options : List (List String) :=
  [["--env", "-e"], ["--from"], ["--to"], ["--amount"], ["--currency"], ["--rate"], ["--reference"],
    ["--description"], ["--transaction"]]

/-- The request that options spell, when each is looked up by its names. -/
structure Spells (option? : List String → Option String) (p : TransferParams) : Prop where
  sender : ∃ v, option? ["--from"] = some v ∧ Text.readInt64 v = .ok p.sender
  receiver : ∃ v, option? ["--to"] = some v ∧ Text.readInt64 v = .ok p.receiver
  amount : ∃ v, option? ["--amount"] = some v ∧ parseAmount v amountDecimals = .ok p.amount
  currency : option? ["--currency"] = some p.currency
  rate : (option? ["--rate"]).elim (some .one) (fun v => Binary64.ofText? v.toList) =
    some p.exchangeRate
  reference : option? ["--reference"] = p.reference
  description : option? ["--description"] = p.description

/-- Two ways of looking up that agree on all options spell the same. -/
theorem Spells.congr {f g : List String → Option String} {p : TransferParams}
    (h : ∀ names ∈ options, f names = g names) (hp : Spells f p) : Spells g p where
  sender := h ["--from"] (by decide) ▸ hp.sender
  receiver := h ["--to"] (by decide) ▸ hp.receiver
  amount := h ["--amount"] (by decide) ▸ hp.amount
  currency := h ["--currency"] (by decide) ▸ hp.currency
  rate := h ["--rate"] (by decide) ▸ hp.rate
  reference := h ["--reference"] (by decide) ▸ hp.reference
  description := h ["--description"] (by decide) ▸ hp.description

/-! ## The request of a line -/

variable {args : List String} {flag v : String}

theorem bind_eq_ok_iff {ε α β : Type} {x : Except ε α} {f : α → Except ε β} {b : β} :
    (x >>= f) = .ok b ↔ ∃ a, x = .ok a ∧ f a = .ok b := by
  cases x with
  | error e => exact ⟨nofun, fun ⟨_, h, _⟩ => nomatch h⟩
  | ok a => exact ⟨fun h => ⟨a, rfl, h⟩, fun ⟨_, h, hf⟩ => by cases h; exact hf⟩

theorem mapError_eq_ok_iff {ε ε' α : Type} {x : Except ε α} {f : ε → ε'} {a : α} :
    x.mapError f = .ok a ↔ x = .ok a := by
  cases x with
  | error e => simp [Except.mapError]
  | ok b => simp [Except.mapError]

theorem require_eq_ok_iff : require flag args = .ok v ↔ valueOf? [flag] args = some v := by
  unfold require
  cases valueOf? [flag] args with
  | none => exact ⟨nofun, nofun⟩
  | some w => simp

theorem account_eq_ok_iff {id : Int} :
    account flag args = .ok id ↔
      ∃ v, valueOf? [flag] args = some v ∧ Text.readInt64 v = .ok id := by
  simp only [account, bind_eq_ok_iff, mapError_eq_ok_iff, require_eq_ok_iff]

theorem transaction_eq_ok_iff {id : Int} :
    transaction flag args = .ok id ↔
      ∃ v, valueOf? [flag] args = some v ∧ Text.readInt64 v = .ok id := by
  simp only [transaction, bind_eq_ok_iff, mapError_eq_ok_iff, require_eq_ok_iff]

theorem amount_eq_ok_iff {amount : Decimal} :
    Cli.amount flag args = .ok amount ↔
      ∃ v, valueOf? [flag] args = some v ∧ parseAmount v amountDecimals = .ok amount := by
  simp only [Cli.amount, bind_eq_ok_iff, mapError_eq_ok_iff, require_eq_ok_iff]

theorem rate_eq_ok_iff {x : Binary64} :
    rate flag args = .ok x ↔
      (valueOf? [flag] args).elim (some .one) (fun v => Binary64.ofText? v.toList) = some x := by
  unfold rate
  cases valueOf? [flag] args with
  | none => simp
  | some v =>
      cases hread : Binary64.ofText? v.toList with
      | none => simp [hread]
      | some y => simp [hread]

/-- A line makes the request that its options spell. -/
theorem transferParams_eq_ok_iff {p : TransferParams} :
    transferParams args = .ok p ↔ Spells (valueOf? · args) p := by
  simp only [transferParams, bind_eq_ok_iff, account_eq_ok_iff, amount_eq_ok_iff,
    require_eq_ok_iff, rate_eq_ok_iff]
  constructor
  · rintro ⟨sender, hsender, receiver, hreceiver, amount, hamount, currency, hcurrency, rate, hrate,
      hp⟩
    cases hp
    exact ⟨hsender, hreceiver, hamount, hcurrency, hrate, rfl, rfl⟩
  · intro h
    refine ⟨_, h.sender, _, h.receiver, _, h.amount, _, h.currency, _, h.rate, ?_⟩
    rw [h.reference, h.description]
    rfl

/-! ## Where the reading is left -/

/-- A line has one reading, which uses every argument once, and the command is the first argument
that stands for itself in it.  An option has its value in the reading unless the line goes astray
for the names of the option.  Then it has the argument behind the name, with which another part
begins, and so another value than in the reading, unless this happens to be the same text.

In a line in which nothing but flags is spelled as an option, the environment, the request and the
transaction to verify are those of the reading. -/
theorem option_read_unless_astray (args : List String) :
    (reading args).flatMap Part.arguments = args ∧
    command? args = (reading args).findSome? Part.positional? ∧
    (∀ names v, Astray names (reading args) v → valueOf? names args = some v) ∧
    (∀ names, valueOf? names args = given? names (reading args) ↔
      ∀ v, Astray names (reading args) v → given? names (reading args) = some v) ∧
    ((∀ part ∈ reading args, ∀ a ∈ part.inert?, ∀ names ∈ options, a ∉ names) →
      environment args = (given? ["--env", "-e"] (reading args)).getD "dev" ∧
      (∀ p, transferParams args = .ok p ↔ Spells (given? · (reading args)) p) ∧
      ∀ id, transaction "--transaction" args = .ok id ↔
        ∃ v, given? ["--transaction"] (reading args) = some v ∧ Text.readInt64 v = .ok id) := by
  have hline := flatMap_reading args
  have hastray : ∀ names v, Astray names (reading args) v → valueOf? names args = some v := by
    intro names v h
    rw [← hline]
    exact h.valueOf?
  have hread : ∀ names, (∀ v, ¬ Astray names (reading args) v) →
      valueOf? names args = given? names (reading args) := by
    intro names h
    have heq := valueOf?_eq_given? (complete_reading args) h
    rwa [hline] at heq
  refine ⟨hline, command?_eq args, hastray, fun names => ⟨fun heq v h => ?_, fun h => ?_⟩, ?_⟩
  · rw [← heq]
    exact hastray names v h
  · by_cases hsome : ∃ v, Astray names (reading args) v
    · obtain ⟨v, hv⟩ := hsome
      rw [hastray names v hv, h v hv]
    · exact hread names fun v hv => hsome ⟨v, hv⟩
  · intro hinert
    have hoptions : ∀ names ∈ options, valueOf? names args = given? names (reading args) :=
      fun names hnames => hread names
        (not_astray fun part hpart a ha => hinert part hpart a ha names hnames)
    refine ⟨?_, fun p => ?_, fun id => ?_⟩
    · rw [environment, hoptions ["--env", "-e"] (by decide)]
    · rw [transferParams_eq_ok_iff]
      exact ⟨Spells.congr hoptions, Spells.congr fun names h => (hoptions names h).symm⟩
    · rw [transaction_eq_ok_iff, hoptions ["--transaction"] (by decide)]

/-- A line with values that start with a dash and are not spelled as options. -/
def rentLine : List String :=
  ["bin", "-e", "test", "transfer", "--from", "1", "--to", "2", "--amount", "10.50", "--currency",
    "EUR", "--description", "-- rent", "--reference", "-7"]

/-- Such values are no names of other options. -/
theorem rentLine_read :
    (∀ part ∈ reading rentLine, ∀ a ∈ part.inert?, ∀ names ∈ options, a ∉ names) ∧
      environment rentLine = "test" ∧
      Spells (given? · (reading rentLine))
        ⟨1, 2, ⟨false, 1050, 2, by decide, by decide⟩, "EUR", .one, some "-7", some "-- rent"⟩ := by
  have hinert : ∀ part ∈ reading rentLine, ∀ a ∈ part.inert?, ∀ names ∈ options, a ∉ names := by
    decide +kernel
  obtain ⟨-, -, -, -, hoptions⟩ := option_read_unless_astray rentLine
  obtain ⟨henvironment, hparams, -⟩ := hoptions hinert
  refine ⟨hinert, ?_, (hparams _).1 (by decide +kernel)⟩
  rw [henvironment]
  decide +kernel

/-- A line whose description is spelled as an option. -/
def describedLine : List String :=
  ["bin", "transfer", "--description", "--amount", "900.00", "--from", "1", "--to", "2", "--amount",
    "10.00", "--currency", "USD"]

/-- The description makes 900 dollars out of ten, and another one makes the command the
environment. -/
theorem amount_of_description :
    given? ["--amount"] (reading describedLine) = some "10.00" ∧
      given? ["--description"] (reading describedLine) = some "--amount" ∧
      transferParams describedLine =
        .ok ⟨1, 2, ⟨false, 90000, 2, by decide, by decide⟩, "USD", .one, none, some "--amount"⟩ ∧
      given? ["--env", "-e"] (reading ["bin", "--description", "-e", "prod"]) = none ∧
      command? ["bin", "--description", "-e", "prod"] = some "prod" ∧
      environment ["bin", "--description", "-e", "prod"] = "prod" := by
  decide +kernel

end FundsTransfer.Cli
