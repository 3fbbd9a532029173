/-!
# Blank characters

The blank characters are the twenty-five code points that the Unicode property
`White_Space` holds.  Text that a person types is trimmed of them at both ends
before it is read, and a reference that holds nothing else counts as empty.

Trimming leaves a text alone that starts with something else
(`trimStart_cons_of_not_blank`) or that has no blanks at all (`trim_of_no_blank`).
-/

namespace FundsTransfer.Text

/-- The characters with the Unicode property `White_Space`. -/
def isBlank (c : Char) : Bool :=
  let n := c.toNat
  (9 ≤ n && n ≤ 13) || n == 0x20 || n == 0x85 || n == 0xA0 || n == 0x1680 ||
    (0x2000 ≤ n && n ≤ 0x200A) || n == 0x2028 || n == 0x2029 || n == 0x202F || n == 0x205F ||
    n == 0x3000

/-- A text without the blanks at its start. -/
def trimStart (s : List Char) : List Char := s.dropWhile isBlank

/-- A text without the blanks at its end. -/
def trimEnd (s : List Char) : List Char := (s.reverse.dropWhile isBlank).reverse

/-- A text without the blanks at its two ends. -/
def trim (s : List Char) : List Char := trimEnd (trimStart s)

/-- Whether a text holds blanks only. -/
def allBlank (s : List Char) : Bool := s.all isBlank

/-! ## What trimming keeps -/

/-- A text that does not start with a blank keeps its start. -/
theorem trimStart_cons_of_not_blank {c : Char} {s : List Char} (h : isBlank c = false) :
    trimStart (c :: s) = c :: s := by
  simp [trimStart, h]

/-- A text without blanks stays as it is. -/
theorem trim_of_no_blank {s : List Char} (h : ∀ c ∈ s, isBlank c = false) : trim s = s := by
  have hd : ∀ t : List Char, (∀ c ∈ t, isBlank c = false) → t.dropWhile isBlank = t := by
    intro t ht
    cases t with
    | nil => rfl
    | cons c r => simp [ht c (by simp)]
  have h₁ : trimStart s = s := hd s h
  have h₂ : s.reverse.dropWhile isBlank = s.reverse := hd _ (by simpa using h)
  simp [trim, trimEnd, h₁, h₂]

end FundsTransfer.Text
