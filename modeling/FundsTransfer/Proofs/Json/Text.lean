import FundsTransfer.Json.Node
import FundsTransfer.Json.Value
import FundsTransfer.Proofs.Text.Numeral

/-!
# Printed values are read back

The text of a value is read as the node of the value, `toNode`, up to its end.  Reading does not
care about blanks, so the two ways of printing are taken together: a `Layout` says which
blanks stand in front of the items and members at each depth, before the end of a list, and behind
a colon, and `compact` and `indented` are two layouts of one text.

The induction is on the value, and carries what may stand behind its text.  Only a number
has to be told where it ends, so `Stops` is about digits, points and exponents.  The number of steps
that reading may take is bounded by the length of the text it was given, and every level and every
item takes at least one character, so it never runs out.
-/

namespace FundsTransfer.Json

open Text

/-! ## The node of a value -/

mutual

/-- The node as which the text of a value is read. -/
def toNode : Json → Node
  | null => .null
  | bool b => .bool b
  | integer n => .number ⟨decide (n < 0), digits n.natAbs, none, none⟩
  | string s => .string (some s)
  | array items => .array (toNodes items) true
  | object members => .object (toMembers members) true

/-- The nodes of the items of a list. -/
def toNodes : List Json → List Node
  | [] => []
  | v :: rest => v.toNode :: toNodes rest

/-- The nodes of the members of an object. -/
def toMembers : List (String × Json) → List (Option String × Node)
  | [] => []
  | (k, v) :: rest => (some k, v.toNode) :: toMembers rest

end

@[simp] theorem toNodes_eq_map (items : List Json) : toNodes items = items.map toNode := by
  induction items with
  | nil => rfl
  | cons v rest ih => rw [toNodes, ih, List.map_cons]

@[simp] theorem toMembers_eq_map (members : List (String × Json)) :
    toMembers members = members.map fun m => (some m.1, m.2.toNode) := by
  induction members with
  | nil => rfl
  | cons m rest ih => rw [toMembers, ih, List.map_cons]

/-! ## Layouts -/

/-- Whether every character is one of the blanks that are printed. -/
def IsGap (w : List Char) : Prop := ∀ c ∈ w, c = ' ' ∨ c = '\n'

/-- Where blanks stand in the text of a value. -/
structure Layout where
  /-- In front of an item or member at a depth, and before the end of a list at this depth. -/
  gap : Nat → List Char
  /-- Behind a colon. -/
  space : List Char
  /-- These are blanks. -/
  isGap_gap : ∀ depth, IsGap (gap depth)
  /-- These are blanks. -/
  isGap_space : IsGap space

namespace Layout

variable (l : Layout)

mutual

/-- The text of a value in a layout. -/
def text (depth : Nat) : Json → List Char
  | null => ['n', 'u', 'l', 'l']
  | bool b => if b then ['t', 'r', 'u', 'e'] else ['f', 'a', 'l', 's', 'e']
  | integer n => intDigits n
  | string s => quote s
  | array [] => ['[', ']']
  | array items => '[' :: itemsText (depth + 1) items ++ l.gap depth ++ [']']
  | object [] => ['\x7b', '\x7d']
  | object members => '\x7b' :: membersText (depth + 1) members ++ l.gap depth ++ ['\x7d']

/-- The text of the items of a list. -/
def itemsText (depth : Nat) : List Json → List Char
  | [] => []
  | [v] => l.gap depth ++ text depth v
  | v :: rest => l.gap depth ++ text depth v ++ ',' :: itemsText depth rest

/-- The text of the members of an object. -/
def membersText (depth : Nat) : List (String × Json) → List Char
  | [] => []
  | [(k, v)] => l.gap depth ++ quote k ++ ':' :: l.space ++ text depth v
  | (k, v) :: rest =>
    l.gap depth ++ quote k ++ ':' :: l.space ++ text depth v ++ ',' :: membersText depth rest

end

/-- No blanks at all. -/
def compact : Layout := ⟨fun _ => [], [], by simp [IsGap], by simp [IsGap]⟩

@[simp] theorem gap_compact (depth : Nat) : compact.gap depth = [] := rfl

@[simp] theorem space_compact : compact.space = [] := rfl

theorem isGap_newLine (depth : Nat) : IsGap (newLine depth) := by
  intro c hc
  rcases List.mem_cons.1 hc with rfl | hc
  · exact .inr rfl
  · exact .inl (List.eq_of_mem_replicate hc)

/-- One line for each item and member. -/
def indented : Layout := ⟨newLine, [' '], isGap_newLine, by simp [IsGap]⟩

@[simp] theorem gap_indented (depth : Nat) : indented.gap depth = newLine depth := rfl

@[simp] theorem space_indented : indented.space = [' '] := rfl

mutual

theorem text_compact (depth : Nat) : ∀ v : Json, compact.text depth v = v.compact
  | null => rfl
  | bool _ => rfl
  | integer _ => rfl
  | string _ => rfl
  | array [] => rfl
  | array (v :: rest) => by
      rw [text, itemsText_compact (depth + 1) (v :: rest), Json.compact]
      · simp
      · simp
  | object [] => rfl
  | object (m :: rest) => by
      rw [text, membersText_compact (depth + 1) (m :: rest), Json.compact]
      · simp
      · simp

theorem itemsText_compact (depth : Nat) :
    ∀ items : List Json, compact.itemsText depth items = compactItems items
  | [] => rfl
  | [v] => by simp [itemsText, compactItems, text_compact depth v]
  | v :: w :: rest => by
      simp [itemsText, compactItems, text_compact depth v, itemsText_compact depth (w :: rest)]

theorem membersText_compact (depth : Nat) :
    ∀ members : List (String × Json), compact.membersText depth members = compactMembers members
  | [] => rfl
  | [(k, v)] => by simp [membersText, compactMembers, text_compact depth v]
  | (k, v) :: m :: rest => by
      simp [membersText, compactMembers, text_compact depth v, membersText_compact depth (m :: rest)]

end

mutual

theorem text_indented (depth : Nat) : ∀ v : Json, indented.text depth v = v.indented depth
  | null => rfl
  | bool _ => rfl
  | integer _ => rfl
  | string _ => rfl
  | array [] => rfl
  | array (v :: rest) => by
      rw [text, itemsText_indented (depth + 1) (v :: rest), Json.indented]
      · simp
      · simp
      · simp
  | object [] => rfl
  | object (m :: rest) => by
      rw [text, membersText_indented (depth + 1) (m :: rest), Json.indented]
      · simp
      · simp
      · simp

theorem itemsText_indented (depth : Nat) :
    ∀ items : List Json, indented.itemsText depth items = indentedItems depth items
  | [] => rfl
  | [v] => by simp [itemsText, indentedItems, text_indented depth v]
  | v :: w :: rest => by
      simp [itemsText, indentedItems, text_indented depth v, itemsText_indented depth (w :: rest)]

theorem membersText_indented (depth : Nat) :
    ∀ members : List (String × Json),
      indented.membersText depth members = indentedMembers depth members
  | [] => rfl
  | [(k, v)] => by simp [membersText, indentedMembers, text_indented depth v]
  | (k, v) :: m :: rest => by
      simp [membersText, indentedMembers, text_indented depth v,
        membersText_indented depth (m :: rest)]

end

end Layout

/-! ## Blanks -/

theorem skipSpace_gap {w : List Char} (hw : IsGap w) (s : List Char) :
    skipSpace (w ++ s) = skipSpace s := by
  refine List.dropWhile_append_of_pos fun c hc => ?_
  rcases hw c hc with rfl | rfl
  · rfl
  · rfl

theorem skipSpace_cons {c : Char} (hc : c ∉ [' ', '\n', '\t', '\r']) (s : List Char) :
    skipSpace (c :: s) = c :: s :=
  List.dropWhile_cons_of_neg (by simpa [or_assoc] using hc)

theorem skipSpace_quote (s : List Char) : skipSpace ('"' :: s) = '"' :: s :=
  skipSpace_cons (by decide) s

theorem readValue_gap {w : List Char} (hw : IsGap w) (fuel : Nat) (s : List Char) :
    readValue fuel (w ++ s) = readValue fuel s := by
  cases fuel with
  | zero => rw [readValue, readValue]
  | succ fuel => rw [readValue, readValue, skipSpace_gap hw]

/-! ## Numbers -/

/-- Whether a number ends where a text goes on like this. -/
def Stops (s : List Char) : Prop :=
  ∀ c ∈ s.head?, c.isDigit = false ∧ c ≠ '.' ∧ c ≠ 'e' ∧ c ≠ 'E'

theorem stops_cons {c : Char} {s : List Char}
    (hc : c.isDigit = false ∧ c ≠ '.' ∧ c ≠ 'e' ∧ c ≠ 'E') : Stops (c :: s) := by
  intro d hd
  cases hd
  exact hc

theorem stops_gap {w s : List Char} (hw : IsGap w) (hs : Stops s) : Stops (w ++ s) := by
  cases w with
  | nil => exact hs
  | cons c w =>
      refine stops_cons ?_
      rcases hw c (by simp) with rfl | rfl
      · decide
      · decide

theorem readDigits_append {ds rest : List Char} (hds : ∀ c ∈ ds, c.isDigit = true)
    (hne : ds ≠ []) (hrest : Stops rest) : readDigits (ds ++ rest) = some (ds, rest) := by
  have htake : rest.takeWhile Char.isDigit = [] ∧ rest.dropWhile Char.isDigit = rest := by
    cases rest with
    | nil => exact ⟨rfl, rfl⟩
    | cons c r => simp [(hrest c rfl).1]
  rw [readDigits, List.takeWhile_append_of_pos hds, List.dropWhile_append_of_pos hds, htake.1,
    htake.2, List.append_nil]
  simp [hne]

theorem readFraction_stops {rest : List Char} (hrest : Stops rest) :
    readFraction rest = some (none, rest) := by
  unfold readFraction
  split
  · exact absurd rfl (hrest '.' rfl).2.1
  · rfl

theorem readExponent_stops {rest : List Char} (hrest : Stops rest) :
    readExponent rest = some (none, rest) := by
  unfold readExponent
  split
  · exact absurd rfl (hrest 'e' rfl).2.2.1
  · exact absurd rfl (hrest 'E' rfl).2.2.2
  · rfl

/-- The digits of a number are read as they are. -/
theorem readNumber_digits (negative : Bool) (n : Nat) {rest : List Char} (hrest : Stops rest) :
    readNumber negative (digits n ++ rest) = some (⟨negative, digits n, none, none⟩, rest) := by
  have hdigits := readDigits_append (fun c hc => isDigit_of_mem_digits hc)
    (List.ne_nil_of_length_pos Nat.length_toDigits_pos : digits n ≠ []) hrest
  simp only [readNumber, hdigits, readFraction_stops hrest, readExponent_stops hrest, bind,
    Option.bind, pure]
  rw [if_neg fun h => head?_digits h.1 h.2]

/-! ## Strings -/

/-- A control character is escaped in four digits. -/
theorem hex4?_escape {n : Nat} (h : n < 0x20) (rest : List Char) :
    hex4? (List.replicate (4 - (Nat.toDigits 16 n).length) '0' ++ Nat.toDigits 16 n ++ rest) =
      some (n, rest) := by
  have hdigits : ∀ n < 0x20, List.replicate (4 - (Nat.toDigits 16 n).length) '0' ++
      Nat.toDigits 16 n = ['0', '0', Nat.digitChar (n / 16), Nat.digitChar (n % 16)] := by decide
  have hvalue : ∀ d < 16, hexValue? (Nat.digitChar d) = some d := by decide
  have hzero : hexValue? '0' = some 0 := rfl
  rw [hdigits n h]
  simp only [List.cons_append, List.nil_append, hex4?, hzero, hvalue (n / 16) (by omega),
    hvalue (n % 16) (by omega), bind, Option.bind, pure, Option.some.injEq, Prod.mk.injEq, and_true]
  omega

/-- What one more unit does to the units read. -/
def consUnit (u : CodeUnit) (read : Option (List CodeUnit × List Char)) :
    Option (List CodeUnit × List Char) :=
  read.map fun (us, rest) => (u :: us, rest)

theorem readUnits_control (fuel : Nat) {n : Nat} (h : n < 0x20) (rest : List Char) :
    readUnits (fuel + 1) ('\\' :: 'u' :: (List.replicate (4 - (Nat.toDigits 16 n).length) '0' ++
      Nat.toDigits 16 n ++ rest)) = consUnit (.char (Char.ofNat n)) (readUnits fuel rest) := by
  have hunit : escapedUnit n = .char (Char.ofNat n) := by rw [escapedUnit, if_neg (by omega)]
  rw [readUnits, hex4?_escape h]
  simp only [bind, Option.bind, pure, hunit]
  cases readUnits fuel rest <;> rfl

theorem readUnits_letter (fuel : Nat) {d c : Char} (h : letterEscape? d = some c)
    (rest : List Char) :
    readUnits (fuel + 1) ('\\' :: d :: rest) = consUnit (.char c) (readUnits fuel rest) := by
  have hne : d ≠ 'u' := by
    rintro rfl
    cases h
  rw [readUnits]
  · simp only [bind, Option.bind, pure, h]
    cases readUnits fuel rest <;> rfl
  · exact hne

theorem readUnits_plain (fuel : Nat) {c : Char} (hquote : c ≠ '"') (hslash : c ≠ '\\')
    (hcontrol : ¬ c.toNat < 0x20) (rest : List Char) :
    readUnits (fuel + 1) (c :: rest) = consUnit (.char c) (readUnits fuel rest) := by
  rw [readUnits]
  · rw [if_neg (by simp [hcontrol, hslash])]
    simp only [bind, Option.bind, pure]
    cases readUnits fuel rest <;> rfl
  all_goals simp_all

/-- A character is read from its escape, or as itself. -/
theorem readUnits_escapeChar (fuel : Nat) (c : Char) (rest : List Char) :
    readUnits (fuel + 1) (escapeChar c ++ rest) = consUnit (.char c) (readUnits fuel rest) := by
  unfold escapeChar
  split
  case h_8 hquote hslash _ _ _ _ _ =>
    split
    · rename_i hcontrol
      have hread := readUnits_control fuel hcontrol rest
      rw [Char.ofNat_toNat] at hread
      exact hread
    · rename_i hcontrol
      exact readUnits_plain fuel hquote hslash hcontrol rest
  all_goals exact readUnits_letter fuel rfl rest

theorem readUnits_flatMap (s rest : List Char) :
    ∀ fuel, s.length < fuel →
      readUnits fuel (s.flatMap escapeChar ++ '"' :: rest) = some (s.map .char, rest) := by
  induction s with
  | nil =>
      intro fuel hfuel
      obtain ⟨fuel, rfl⟩ := Nat.exists_eq_add_of_lt hfuel
      simp [readUnits]
  | cons c s ih =>
      intro fuel hfuel
      rw [List.length_cons] at hfuel
      obtain ⟨fuel, rfl⟩ : ∃ f, fuel = f + 1 := ⟨fuel - 1, by omega⟩
      rw [List.flatMap_cons, List.append_assoc, readUnits_escapeChar, ih fuel (by omega)]
      rfl

theorem joinUnits_map (s : List Char) : joinUnits (s.map .char) = some s := by
  induction s with
  | nil => rfl
  | cons c s ih => rw [List.map_cons, joinUnits, ih, Option.map_some]

theorem length_le_flatMap (s : List Char) : s.length ≤ (s.flatMap escapeChar).length := by
  induction s with
  | nil => simp
  | cons c s ih =>
      have hpos : 0 < (escapeChar c).length := by
        unfold escapeChar
        split
        case h_8 => split <;> simp
        all_goals simp
      rw [List.flatMap_cons, List.length_append, List.length_cons]
      omega

/-- A text is read up to its closing quote. -/
theorem readString_quote (s : String) (rest : List Char) :
    readString (s.toList.flatMap escapeChar ++ '"' :: rest) = some (some s, rest) := by
  have hlength := length_le_flatMap s.toList
  rw [readString, readUnits_flatMap]
  · simp [joinUnits_map]
  · rw [List.length_append]
    omega

/-! ## Values -/

theorem skipSpace_digit {c : Char} (hc : c.isDigit = true) (s : List Char) :
    skipSpace (c :: s) = c :: s := by
  refine skipSpace_cons (fun hmem => ?_) s
  simp only [List.mem_cons, List.not_mem_nil, or_false] at hmem
  rcases hmem with rfl | rfl | rfl | rfl
  all_goals exact absurd hc (by decide)

theorem exists_digits_eq_cons (n : Nat) : ∃ c r, digits n = c :: r ∧ c.isDigit = true := by
  cases hdigits : digits n with
  | nil => exact absurd hdigits (List.ne_nil_of_length_pos Nat.length_toDigits_pos)
  | cons c r => exact ⟨c, r, rfl, isDigit_of_mem_digits (by rw [hdigits]; exact List.mem_cons_self)⟩

/-- A text that starts with a digit is a number. -/
theorem readValue_digit (fuel : Nat) {c : Char} (hc : c.isDigit = true) (s : List Char) :
    readValue (fuel + 1) (c :: s) =
      orMistake ((readNumber false (c :: s)).map fun (t, rest) => (.number t, rest)) := by
  rw [readValue, skipSpace_digit hc]
  split
  all_goals first | rfl | (rename_i heq; cases heq; exact absurd hc (by decide))

theorem readValue_intDigits (fuel : Nat) (n : Int) {rest : List Char} (hrest : Stops rest) :
    readValue (fuel + 1) (intDigits n ++ rest) = ((integer n).toNode, some rest) := by
  have hread := fun negative => readNumber_digits negative n.natAbs hrest
  rw [intDigits, toNode]
  split
  · rename_i hneg
    have hspace := skipSpace_cons (c := '-') (by decide) (digits n.natAbs ++ rest)
    rw [List.cons_append, readValue, hspace, decide_eq_true hneg]
    simp only [hread]
    rfl
  · rename_i hneg
    obtain ⟨c, r, hdigits, hc⟩ := exists_digits_eq_cons n.natAbs
    rw [decide_eq_false hneg]
    rw [hdigits] at hread ⊢
    rw [List.cons_append, readValue_digit fuel hc, ← List.cons_append, hread]
    rfl

namespace Layout

variable (l : Layout)

/-- The text of a value starts with neither a blank nor the end of a list. -/
theorem exists_text_eq_cons (depth : Nat) (v : Json) :
    ∃ c r, l.text depth v = c :: r ∧ (∀ s, skipSpace (c :: s) = c :: s) ∧ c ≠ ']' := by
  have hstart : ∀ {c : Char} {r}, c ∉ [' ', '\n', '\t', '\r'] → c ≠ ']' →
      ∃ c' r', c :: r = c' :: r' ∧ (∀ s, skipSpace (c' :: s) = c' :: s) ∧ c' ≠ ']' :=
    fun hc hne => ⟨_, _, rfl, skipSpace_cons hc, hne⟩
  cases v with
  | null => exact hstart (by decide) (by decide)
  | bool b => cases b <;> exact hstart (by decide) (by decide)
  | integer n =>
      rw [text, intDigits]
      split
      · exact hstart (by decide) (by decide)
      · obtain ⟨c, r, hdigits, hc⟩ := exists_digits_eq_cons n.natAbs
        refine ⟨c, r, hdigits, skipSpace_digit hc, ?_⟩
        rintro rfl
        exact absurd hc (by decide)
  | string s => exact hstart (by decide) (by decide)
  | array items => cases items <;> exact hstart (by decide) (by decide)
  | object members => cases members <;> exact hstart (by decide) (by decide)

theorem readItems_gap {w : List Char} (hw : IsGap w) (fuel : Nat) (s : List Char) :
    readItems fuel (w ++ s) = readItems fuel s := by
  cases fuel with
  | zero => rw [readItems, readItems]
  | succ fuel => rw [readItems, readItems, readValue_gap hw]

/-- A list is read up to the end of its items. -/
theorem readValue_array (fuel depth : Nat) (v : Json) (s : List Char) {rest : List Char}
    {nodes : List Node} (h : readItems fuel (l.gap depth ++ l.text depth v ++ s) =
      (nodes, some rest)) :
    readValue (fuel + 1) ('[' :: (l.gap depth ++ l.text depth v ++ s)) =
      (.array nodes true, some rest) := by
  obtain ⟨c, r, htext, hspace, hne⟩ := l.exists_text_eq_cons depth v
  rw [List.append_assoc] at h ⊢
  rw [readItems_gap (l.isGap_gap depth)] at h
  rw [readValue, skipSpace_cons (by decide)]
  simp only [skipSpace_gap (l.isGap_gap depth)]
  rw [htext] at h ⊢
  rw [List.cons_append] at h ⊢
  simp only [hspace]
  split
  · rename_i heq
    exact absurd (List.cons.inj heq).1 hne
  · rw [h]
    rfl

/-- The text of items starts with a gap and an item. -/
theorem exists_itemsText_eq (depth : Nat) (v : Json) (vs : List Json) :
    ∃ s, l.itemsText depth (v :: vs) = l.gap depth ++ l.text depth v ++ s := by
  cases vs with
  | nil => exact ⟨[], by rw [itemsText, List.append_nil]⟩
  | cons v' vs => exact ⟨_, by rw [itemsText]; simp⟩

/-- An object is read up to the end of its members. -/
theorem readValue_object {w : List Char} (hw : IsGap w) (fuel : Nat) (s : List Char)
    {rest : List Char} {members : List (Option String × Node)}
    (h : readMembers fuel (w ++ '"' :: s) = (members, some rest)) :
    readValue (fuel + 1) ('\x7b' :: (w ++ '"' :: s)) = (.object members true, some rest) := by
  have hspace : skipSpace ('"' :: s) = '"' :: s := skipSpace_cons (by decide) s
  have hsame : readMembers fuel (w ++ '"' :: s) = readMembers fuel ('"' :: s) := by
    cases fuel with
    | zero => rw [readMembers, readMembers]
    | succ fuel => rw [readMembers, readMembers, skipSpace_gap hw]
  rw [hsame] at h
  rw [readValue, skipSpace_cons (by decide)]
  simp only [skipSpace_gap hw, hspace]
  split
  · rename_i heq
    exact absurd (List.cons.inj heq).1 (by decide)
  · rw [h]
    rfl

section

variable {w s after rest : List Char} {fuel : Nat} {n : Node} (k : String)

/-- A member is read up to its value, and a comma takes reading to the next. -/
theorem readMembers_comma (hw : IsGap w) (h : readValue fuel s = (n, some after))
    (hafter : skipSpace after = ',' :: rest) :
    readMembers (fuel + 1) (w ++ quote k ++ ':' :: s) =
      ((some k, n) :: (readMembers fuel rest).1, (readMembers fuel rest).2) := by
  have hquote := readString_quote k (':' :: s)
  have hspace : skipSpace (':' :: s) = ':' :: s := skipSpace_cons (by decide) s
  rw [quote, List.append_assoc, readMembers, skipSpace_gap hw]
  simp only [List.cons_append, List.append_assoc, List.nil_append,
    skipSpace_quote, hquote, hspace, h, hafter]

/-- A member is read up to its value, and a brace ends the object. -/
theorem readMembers_brace (hw : IsGap w) (h : readValue fuel s = (n, some after))
    (hafter : skipSpace after = '\x7d' :: rest) :
    readMembers (fuel + 1) (w ++ quote k ++ ':' :: s) = ([(some k, n)], some rest) := by
  have hquote := readString_quote k (':' :: s)
  have hspace : skipSpace (':' :: s) = ':' :: s := skipSpace_cons (by decide) s
  rw [quote, List.append_assoc, readMembers, skipSpace_gap hw]
  simp only [List.cons_append, List.append_assoc, List.nil_append,
    skipSpace_quote, hquote, hspace, h, hafter]

end

/-- The text of members starts with a gap and a quote. -/
theorem exists_membersText_eq (depth : Nat) (m : String × Json) (ms : List (String × Json)) :
    ∃ s, l.membersText depth (m :: ms) = l.gap depth ++ '"' :: s := by
  cases ms with
  | nil =>
      exact ⟨m.1.toList.flatMap escapeChar ++ '"' :: ':' :: (l.space ++ l.text depth m.2),
        by simp [membersText, quote]⟩
  | cons m' ms =>
      exact ⟨m.1.toList.flatMap escapeChar ++ '"' :: ':' :: (l.space ++ l.text depth m.2 ++
        ',' :: l.membersText depth (m' :: ms)), by simp [membersText, quote]⟩

mutual

theorem readValue_text (depth : Nat) : ∀ (v : Json) (fuel : Nat) (rest : List Char), Stops rest →
    (l.text depth v).length < fuel → readValue fuel (l.text depth v ++ rest) = (v.toNode, some rest)
  | null, fuel + 1, rest, _, _ => rfl
  | bool b, fuel + 1, rest, _, _ => by cases b <;> rfl
  | integer n, fuel + 1, rest, hrest, _ => readValue_intDigits fuel n hrest
  | string s, fuel + 1, rest, _, _ => by
      have hread := readString_quote s rest
      simp only [text, quote, List.append_assoc, List.cons_append, List.nil_append, readValue,
        skipSpace_quote, hread]
      rfl
  | array [], fuel + 1, rest, _, _ => rfl
  | array (v :: vs), fuel + 1, rest, _, hfuel => by
      have hitems := readItems_text (depth + 1) v vs fuel (l.gap depth) rest (l.isGap_gap depth)
        (by simp only [text, List.length_append, List.length_cons, List.length_nil] at hfuel; omega)
      obtain ⟨s, hs⟩ := l.exists_itemsText_eq (depth + 1) v vs
      rw [hs, List.append_assoc, List.append_assoc] at hitems
      have hread := l.readValue_array fuel (depth + 1) v _ hitems
      simp only [text, hs, toNode]
      simpa using hread
  | object [], fuel + 1, rest, _, _ => rfl
  | object (m :: ms), fuel + 1, rest, _, hfuel => by
      have hmembers := readMembers_text (depth + 1) m ms fuel (l.gap depth) rest
        (l.isGap_gap depth)
        (by simp only [text, List.length_append, List.length_cons, List.length_nil] at hfuel; omega)
      obtain ⟨s, hs⟩ := l.exists_membersText_eq (depth + 1) m ms
      rw [hs, List.append_assoc, List.append_assoc] at hmembers
      have hread := readValue_object (l.isGap_gap (depth + 1)) fuel _ hmembers
      simp only [text, hs, toNode]
      simpa using hread

theorem readItems_text (depth : Nat) : ∀ (v : Json) (vs : List Json) (fuel : Nat)
    (w rest : List Char), IsGap w → (l.itemsText depth (v :: vs)).length + 1 < fuel →
      readItems fuel (l.itemsText depth (v :: vs) ++ w ++ ']' :: rest) =
        (toNodes (v :: vs), some rest)
  | v, [], fuel + 1, w, rest, hw, hfuel => by
      have hstop : Stops (w ++ ']' :: rest) := stops_gap hw (stops_cons (by decide))
      have hread := readValue_text depth v fuel _ hstop
        (by simp only [itemsText, List.length_append] at hfuel; omega)
      have hspace : skipSpace (w ++ ']' :: rest) = ']' :: rest := by
        rw [skipSpace_gap hw, skipSpace_cons (by decide)]
      rw [itemsText, List.append_assoc, List.append_assoc, readItems_gap (l.isGap_gap depth),
        readItems, hread]
      simp only [hspace]
      rfl
  | v, v' :: vs, fuel + 1, w, rest, hw, hfuel => by
      simp only [itemsText, List.length_append, List.length_cons] at hfuel
      have hread := readValue_text depth v fuel
        (',' :: (l.itemsText depth (v' :: vs) ++ w ++ ']' :: rest)) (stops_cons (by decide))
        (by omega)
      have hitems := readItems_text depth v' vs fuel w rest hw (by omega)
      have hspace : skipSpace (',' :: (l.itemsText depth (v' :: vs) ++ w ++ ']' :: rest)) = 
          ',' :: (l.itemsText depth (v' :: vs) ++ w ++ ']' :: rest) := skipSpace_cons (by decide) _
      simp only [itemsText, List.append_assoc, List.cons_append] at hread hitems hspace ⊢
      rw [readItems_gap (l.isGap_gap depth), readItems, hread]
      simp only [hspace, hitems]
      rfl

theorem readMembers_text (depth : Nat) : ∀ (m : String × Json) (ms : List (String × Json))
    (fuel : Nat) (w rest : List Char), IsGap w →
      (l.membersText depth (m :: ms)).length + 1 < fuel →
      readMembers fuel (l.membersText depth (m :: ms) ++ w ++ '\x7d' :: rest) =
        (toMembers (m :: ms), some rest)
  | (k, v), [], fuel + 1, w, rest, hw, hfuel => by
      have hstop : Stops (w ++ '\x7d' :: rest) := stops_gap hw (stops_cons (by decide))
      have hread := readValue_text depth v fuel _ hstop
        (by simp only [membersText, List.length_append, List.length_cons] at hfuel; omega)
      have hspace : skipSpace (w ++ '\x7d' :: rest) = '\x7d' :: rest := by
        rw [skipSpace_gap hw, skipSpace_cons (by decide)]
      rw [← readValue_gap l.isGap_space] at hread
      simp only [membersText, List.append_assoc, List.cons_append] at hread ⊢
      rw [← List.append_assoc, readMembers_brace k (l.isGap_gap depth) hread hspace]
      rfl
  | (k, v), m' :: ms, fuel + 1, w, rest, hw, hfuel => by
      simp only [membersText, List.length_append, List.length_cons] at hfuel
      have hread := readValue_text depth v fuel
        (',' :: (l.membersText depth (m' :: ms) ++ w ++ '\x7d' :: rest)) (stops_cons (by decide))
        (by omega)
      have hmembers := readMembers_text depth m' ms fuel w rest hw (by omega)
      have hspace := skipSpace_cons (show ',' ∉ [' ', '\n', '\t', '\r'] by decide)
        (l.membersText depth (m' :: ms) ++ w ++ '\x7d' :: rest)
      rw [← readValue_gap l.isGap_space] at hread
      simp only [membersText, List.append_assoc, List.cons_append] at hread hmembers hspace ⊢
      rw [← List.append_assoc, readMembers_comma k (l.isGap_gap depth) hread hspace, hmembers]
      rfl

end

end Layout

/-! ## Whole texts -/

end FundsTransfer.Json
