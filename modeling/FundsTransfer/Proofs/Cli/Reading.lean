import FundsTransfer.Cli.Arguments

/-!
# One reading of a command line

A line can be read from left to right.  A flag takes the argument behind it for its value,
whatever that looks like, and everything else stands for itself.  `reading` cuts a line
into such parts, and every argument belongs to one of them.

The command is read in this way (`command?_eq`).  An option is not.  It is looked for by its
name alone, and the name may be an argument that the reading does not take for a flag, as the
value of another flag.  What is behind it is then taken for the value of the option, although
a part of its own begins there: a positional argument, which may be the command, or a flag.
Such a line goes astray, `Astray`.

Nothing else can happen (`valueOf?_eq_given?`).  In a line in which no value is spelled as an
option, all options are those of the reading.
-/

namespace FundsTransfer.Cli

/-! ## Parts of a line -/

/-- A part of a line. -/
inductive Part where
  /-- The name of the program. -/
  | program (name : String)
  /-- An argument that stands for itself. -/
  | positional (argument : String)
  /-- A flag with the argument behind it, if there is one. -/
  | flag (name : String) (value : Option String)
deriving DecidableEq

namespace Part

/-- The arguments of a part. -/
def arguments : Part → List String
  | program name => [name]
  | positional a => [a]
  | flag name value => name :: value.toList

/-- The argument with which a part begins. -/
def first : Part → String
  | program name => name
  | positional a => a
  | flag name _ => name

/-- The argument of a part that is not a flag of the reading. -/
def inert? : Part → Option String
  | program name => some name
  | positional a => some a
  | flag _ value => value

/-- The argument of a part that stands for itself. -/
def positional? : Part → Option String
  | positional a => some a
  | _ => none

/-- The value that a part gives to an option that goes by some names. -/
def given? (names : List String) : Part → Option String
  | flag name value => if names.contains name then value else none
  | _ => none

end Part

/-- The parts of a line behind the name of the program. -/
def parts : List String → List Part
  | [] => []
  | a :: rest =>
    if a.startsWith "-" then
      match rest with
      | [] => [.flag a none]
      | value :: rest => .flag a (some value) :: parts rest
    else .positional a :: parts rest

/-- A line from left to right. -/
def reading : List String → List Part
  | [] => []
  | program :: rest => .program program :: parts rest

/-- The value that the reading gives to the first flag of some names that has one. -/
def given? (names : List String) (line : List Part) : Option String :=
  line.findSome? (Part.given? names)

/-- The argument that is taken for the value of an option, although the reading does not give it to
a flag: it stands behind one of the option's names that the reading does not take for a flag, and no
flag of these names comes before. -/
inductive Astray (names : List String) : List Part → String → Prop where
  | here {part next : Part} {rest : List Part} (hgiven : part.given? names = none)
      (hname : ∃ a ∈ part.inert?, a ∈ names) : Astray names (part :: next :: rest) next.first
  | later {part : Part} {rest : List Part} {v : String} (hnone : ∀ a ∈ part.arguments, a ∉ names)
      (h : Astray names rest v) : Astray names (part :: rest) v

/-! ## Every argument is in one part -/

section

variable {a : String} {rest : List String}

theorem parts_last (hflag : a.startsWith "-" = true) : parts [a] = [.flag a none] := by
  rw [parts, if_pos hflag]

theorem parts_flag (hflag : a.startsWith "-" = true) (value : String) :
    parts (a :: value :: rest) = .flag a (some value) :: parts rest := by
  rw [parts, if_pos hflag]

theorem parts_positional (hflag : ¬ a.startsWith "-" = true) :
    parts (a :: rest) = .positional a :: parts rest := by
  rw [parts.eq_def]
  exact if_neg hflag

end

theorem flatMap_parts (tokens : List String) : (parts tokens).flatMap Part.arguments = tokens := by
  induction tokens using parts.induct with
  | case1 => rfl
  | case2 a hflag =>
      rw [parts_last hflag]
      rfl
  | case3 a hflag value rest ih =>
      rw [parts_flag hflag, List.flatMap_cons, ih]
      rfl
  | case4 a rest hflag ih =>
      rw [parts_positional hflag, List.flatMap_cons, ih]
      rfl

theorem flatMap_reading (args : List String) : (reading args).flatMap Part.arguments = args := by
  cases args with
  | nil => rfl
  | cons program rest =>
      rw [reading, List.flatMap_cons, flatMap_parts]
      rfl

/-- Only the last part of a line can be a flag without a value. -/
def Complete : List Part → Prop
  | [] => True
  | part :: rest => (∀ name, part = .flag name none → rest = []) ∧ Complete rest

theorem complete_parts (tokens : List String) : Complete (parts tokens) := by
  induction tokens using parts.induct with
  | case1 => trivial
  | case2 a hflag =>
      rw [parts_last hflag]
      exact ⟨fun _ _ => rfl, trivial⟩
  | case3 a hflag value rest ih =>
      rw [parts_flag hflag]
      exact ⟨nofun, ih⟩
  | case4 a rest hflag ih =>
      rw [parts_positional hflag]
      exact ⟨nofun, ih⟩

theorem complete_reading (args : List String) : Complete (reading args) := by
  cases args with
  | nil => trivial
  | cons program rest => exact ⟨nofun, complete_parts rest⟩

/-! ## The command -/

theorem positional?_eq (tokens : List String) :
    positional? tokens = (parts tokens).findSome? Part.positional? := by
  induction tokens using parts.induct with
  | case1 => rfl
  | case2 a hflag =>
      rw [parts_last hflag, positional?, if_pos hflag]
      rfl
  | case3 a hflag value rest ih =>
      rw [parts_flag hflag, positional?, if_pos hflag]
      exact ih
  | case4 a rest hflag ih =>
      rw [parts_positional hflag, positional?.eq_def]
      exact if_neg hflag

/-- The command is the first argument that stands for itself. -/
theorem command?_eq (args : List String) :
    command? args = (reading args).findSome? Part.positional? := by
  cases args with
  | nil => rfl
  | cons program rest =>
      rw [command?, List.drop_one, List.tail_cons, positional?_eq, reading]
      rfl

/-! ## Options -/

variable {names : List String} {line : List Part} {v : String}

theorem valueOf?_of_mem {a b : String} {rest : List String} (h : a ∈ names) :
    valueOf? names (a :: b :: rest) = some b := by
  rw [valueOf?, if_pos (by simpa using h)]

theorem valueOf?_single (names : List String) (a : String) : valueOf? names [a] = none := rfl

/-- Arguments that are none of the names are passed over. -/
theorem valueOf?_append {front : List String} (hfront : ∀ a ∈ front, a ∉ names)
    (back : List String) : valueOf? names (front ++ back) = valueOf? names back := by
  induction front with
  | nil => rfl
  | cons a front ih =>
      obtain ⟨ha, hfront⟩ := List.forall_mem_cons.1 hfront
      rw [List.cons_append, ← ih hfront]
      cases front ++ back with
      | nil => rfl
      | cons b rest => rw [valueOf?, if_neg (by simpa using ha)]

/-- Where a part gives nothing, the name of the option can only be its last argument. -/
theorem valueOf?_inert {part : Part} {a : String} (hgiven : part.given? names = none)
    (ha : part.inert? = some a) (tokens : List String) :
    valueOf? names (part.arguments ++ tokens) = valueOf? names (a :: tokens) := by
  cases part with
  | program name =>
      cases ha
      rfl
  | positional b =>
      cases ha
      rfl
  | flag name value =>
      cases ha
      have hname : name ∉ names := by
        intro hmem
        rw [Part.given?, if_pos (by simpa using hmem)] at hgiven
        cases hgiven
      have hfront : ∀ b ∈ [name], b ∉ names := by simpa using hname
      exact valueOf?_append hfront (a :: tokens)

theorem arguments_eq_cons (part : Part) : ∃ rest, part.arguments = part.first :: rest := by
  cases part with
  | program name => exact ⟨_, rfl⟩
  | positional a => exact ⟨_, rfl⟩
  | flag name value => exact ⟨_, rfl⟩

/-- A line that goes astray gives the option what stands behind the name. -/
theorem Astray.valueOf? (h : Astray names line v) :
    valueOf? names (line.flatMap Part.arguments) = some v := by
  induction h with
  | @here part next rest hgiven hname =>
      obtain ⟨a, hinert, ha⟩ := hname
      obtain ⟨others, hnext⟩ := arguments_eq_cons next
      rw [List.flatMap_cons, valueOf?_inert hgiven hinert, List.flatMap_cons, hnext,
        List.cons_append, valueOf?_of_mem ha]
  | later hnone _ ih =>
      rw [List.flatMap_cons, valueOf?_append hnone, ih]

/-- What has a name among its arguments is a flag with a value, a flag without one, or not a flag of
the reading. -/
theorem Part.cases_of_mem {part : Part} {a : String} (ha : a ∈ part.arguments) (hname : a ∈ names) :
    (∃ name v, part = .flag name (some v) ∧ name ∈ names) ∨ (∃ name, part = .flag name none) ∨
      part.given? names = none ∧ ∃ b ∈ part.inert?, b ∈ names := by
  cases part with
  | program name =>
      rw [List.mem_singleton.1 ha] at hname
      exact .inr (.inr ⟨rfl, name, rfl, hname⟩)
  | positional b =>
      rw [List.mem_singleton.1 ha] at hname
      exact .inr (.inr ⟨rfl, b, rfl, hname⟩)
  | flag name value =>
      cases value with
      | none => exact .inr (.inl ⟨name, rfl⟩)
      | some v =>
          by_cases hflag : name ∈ names
          · exact .inl ⟨name, v, rfl, hflag⟩
          · refine .inr (.inr ⟨by simp [given?, hflag], v, rfl, ?_⟩)
            obtain rfl | hv := List.mem_cons.1 ha
            · exact absurd hname hflag
            · rwa [List.mem_singleton.1 hv] at hname

theorem Part.given?_of_absent {part : Part} (h : ∀ a ∈ part.arguments, a ∉ names) :
    part.given? names = none := by
  cases part with
  | program name => rfl
  | positional a => rfl
  | flag name value =>
      have hname : name ∉ names := h name List.mem_cons_self
      simp [given?, hname]

/-- A line that does not go astray gives the option its value in the reading. -/
theorem valueOf?_eq_given? (hline : Complete line) (h : ∀ v, ¬ Astray names line v) :
    valueOf? names (line.flatMap Part.arguments) = given? names line := by
  induction line with
  | nil => rfl
  | cons part rest ih =>
      obtain ⟨hlast, hrest⟩ := hline
      rw [List.flatMap_cons, given?, List.findSome?_cons]
      by_cases hnamed : ∃ a ∈ part.arguments, a ∈ names
      · obtain ⟨a, ha, hname⟩ := hnamed
        obtain ⟨name, v, rfl, hflag⟩ | ⟨name, rfl⟩ | ⟨hgiven, b, hinert, hb⟩ :=
          Part.cases_of_mem ha hname
        · have hvalue : Part.given? names (.flag name (some v)) = some v := by
            simp [Part.given?, hflag]
          rw [hvalue]
          exact valueOf?_of_mem hflag
        · rw [hlast name rfl]
          simp [Part.given?, Part.arguments, valueOf?_single]
        · -- the name is behind the last part that begins, or the line goes astray here
          cases rest with
          | nil =>
              rw [valueOf?_inert hgiven hinert, hgiven]
              rfl
          | cons next rest => exact absurd (.here hgiven ⟨b, hinert, hb⟩) (h next.first)
      · have habsent : ∀ a ∈ part.arguments, a ∉ names := fun a ha hname => hnamed ⟨a, ha, hname⟩
        rw [valueOf?_append habsent, Part.given?_of_absent habsent]
        exact ih hrest fun v hv => h v (.later habsent hv)

/-- A line in which no part hides a name does not go astray. -/
theorem not_astray (h : ∀ part ∈ line, ∀ a ∈ part.inert?, a ∉ names) (v : String) :
    ¬ Astray names line v := by
  intro hastray
  induction hastray with
  | here _ hname =>
      obtain ⟨a, hinert, ha⟩ := hname
      exact h _ List.mem_cons_self a hinert ha
  | later _ _ ih => exact ih fun part hpart => h part (List.mem_cons_of_mem _ hpart)

end FundsTransfer.Cli
