/-!
# Tables

A table maps keys to rows.  It is a list of pairs in ascending order of the keys, so its
rows come in the order of their numbers or codes.  `find?_put` says what writing a row
does to every look-up, and this is all that the rest of the library uses.
-/

namespace FundsTransfer

/-- Rows by key, in ascending order of the keys. -/
structure Table (κ ρ : Type) where
  /-- The keys with their rows. -/
  pairs : List (κ × ρ)
deriving DecidableEq

namespace Table

variable {κ ρ : Type}

/-- The table without rows. -/
def empty : Table κ ρ := ⟨[]⟩

instance : Inhabited (Table κ ρ) := ⟨empty⟩

/-- The rows in the order of their keys. -/
def rows (t : Table κ ρ) : List ρ := t.pairs.map (·.2)

variable [DecidableEq κ]

/-- The row under a key in a list of pairs. -/
def findIn (k : κ) : List (κ × ρ) → Option ρ
  | [] => none
  | (k', r) :: rest => if k = k' then some r else findIn k rest

/-- The row under a key. -/
def find? (t : Table κ ρ) (k : κ) : Option ρ := findIn k t.pairs

/-- Whether there is a row under a key. -/
def contains (t : Table κ ρ) (k : κ) : Bool := (t.find? k).isSome

variable [LT κ] [DecidableLT κ]

/-- A list of pairs with a row written under a key. -/
def putIn (k : κ) (row : ρ) : List (κ × ρ) → List (κ × ρ)
  | [] => [(k, row)]
  | (k', r) :: rest =>
    if k = k' then (k, row) :: rest
    else if k < k' then (k, row) :: (k', r) :: rest
    else (k', r) :: putIn k row rest

/-- The table with a row written under a key, in place of the one that was there. -/
def put (t : Table κ ρ) (k : κ) (row : ρ) : Table κ ρ := ⟨putIn k row t.pairs⟩

/-! ## What writing does to looking up -/

/-- A row written in a list of pairs is found under its key, and other keys find what they found. -/
theorem findIn_putIn (k k' : κ) (row : ρ) (pairs : List (κ × ρ)) :
    findIn k' (putIn k row pairs) = if k' = k then some row else findIn k' pairs := by
  induction pairs with
  | nil => simp [putIn, findIn]
  | cons p rest ih =>
    obtain ⟨k₀, r⟩ := p
    simp only [putIn]
    split
    · rename_i h
      subst h
      simp only [findIn]
      split <;> rfl
    · split
      · simp only [findIn]
      · rename_i h _
        simp only [findIn, ih]
        by_cases h₁ : k' = k₀
        · have : k' ≠ k := fun h₂ => h (h₂ ▸ h₁)
          simp [h₁, h₁ ▸ this]
        · simp [h₁]

/-- A row written is found under its key, and other keys find what they found. -/
theorem find?_put (t : Table κ ρ) (k k' : κ) (row : ρ) :
    (t.put k row).find? k' = if k' = k then some row else t.find? k' :=
  findIn_putIn k k' row t.pairs

/-- A row written is found under its key. -/
@[simp] theorem find?_put_self (t : Table κ ρ) (k : κ) (row : ρ) :
    (t.put k row).find? k = some row := by
  simp [find?_put]

end Table

end FundsTransfer
