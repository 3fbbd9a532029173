import FundsTransfer.Memory.Table
import Mathlib.Algebra.Order.Field.Rat

/-!
# Tables whose keys mean something

The rows of the store carry their own keys, and numbers are given out in order.  `Keyed`,
`Within` and `Ascending` say so of a table, and each is kept by writing a row that fits.

In an ascending table every number occurs once, so a sum over all rows changes by what is
written less what was there before.  This is `sum_put`.

`keys` lists the keys in use.  A row written over another one leaves them as they were,
and one under a new key adds that key.  Where no key occurs twice, the rows are those
that look-ups find.
-/

namespace FundsTransfer.Table

variable {κ ρ : Type}

section

variable [DecidableEq κ]

/-- Every row stands under its own key. -/
def Keyed (key : ρ → κ) (t : Table κ ρ) : Prop := ∀ k row, t.find? k = some row → key row = k

theorem keyed_empty (key : ρ → κ) : (empty : Table κ ρ).Keyed key := nofun

theorem contains_eq_false {t : Table κ ρ} {k : κ} : t.contains k = false ↔ t.find? k = none := by
  simp [contains]

@[simp] theorem contains_put_self [LT κ] [DecidableLT κ] (t : Table κ ρ) (k : κ) (row : ρ) :
    (t.put k row).contains k = true := by
  simp [contains]

/-- What holds of every row under its key goes on to hold when it holds of a row that is written. -/
theorem forall_put [LT κ] [DecidableLT κ] {I : κ → ρ → Prop} {t : Table κ ρ} {k : κ} {row : ρ}
    (h : ∀ k' row', t.find? k' = some row' → I k' row') (hrow : I k row) (k' : κ) (row' : ρ)
    (hfind : (t.put k row).find? k' = some row') : I k' row' := by
  rw [find?_put] at hfind
  split at hfind
  · rename_i hk
    cases hfind
    exact hk ▸ hrow
  · exact h k' row' hfind

theorem Keyed.put [LT κ] [DecidableLT κ] {key : ρ → κ} {t : Table κ ρ} {k : κ} {row : ρ}
    (h : t.Keyed key) (hrow : key row = k) : (t.put k row).Keyed key :=
  forall_put h hrow

end

/-- The last row written under a key counts. -/
theorem put_put [DecidableEq κ] [LT κ] [DecidableLT κ] (t : Table κ ρ) (k : κ) (row row' : ρ) :
    (t.put k row).put k row' = t.put k row' := by
  obtain ⟨pairs⟩ := t
  refine congrArg Table.mk ?_
  show putIn k row' (putIn k row pairs) = putIn k row' pairs
  induction pairs with
  | nil => simp only [putIn, if_true]
  | cons p rest ih =>
      obtain ⟨k₁, r⟩ := p
      simp only [putIn]
      split
      · simp only [putIn, if_true]
      · rename_i hne
        split
        · simp only [putIn, if_true]
        · rename_i hle
          rw [putIn, if_neg hne, if_neg hle, ih]

/-! ## Rows that persist -/

section

variable [DecidableEq κ]

/-- Every row is still there, changed as a relation allows. -/
def Persists (R : ρ → ρ → Prop) (t t' : Table κ ρ) : Prop :=
  ∀ k row, t.find? k = some row → ∃ row', t'.find? k = some row' ∧ R row row'

variable {R : ρ → ρ → Prop} {t t' t'' : Table κ ρ}

theorem Persists.refl (hR : ∀ row, R row row) (t : Table κ ρ) : t.Persists R t :=
  fun _ row hfind => ⟨row, hfind, hR row⟩

theorem Persists.trans (hR : ∀ {row row' row''}, R row row' → R row' row'' → R row row'')
    (h : t.Persists R t') (h' : t'.Persists R t'') : t.Persists R t'' := by
  intro k row hfind
  obtain ⟨row', hfind', hrow⟩ := h k row hfind
  obtain ⟨row'', hfind'', hrow'⟩ := h' k row' hfind'
  exact ⟨row'', hfind'', hR hrow hrow'⟩

theorem Persists.contains (h : t.Persists R t') {k : κ} (hk : t.contains k = true) :
    t'.contains k = true := by
  obtain ⟨row, hfind⟩ := Option.isSome_iff_exists.1 hk
  obtain ⟨row', hfind', -⟩ := h k row hfind
  exact Option.isSome_iff_exists.2 ⟨row', hfind'⟩

variable [LT κ] [DecidableLT κ]

/-- A row may be written where there was none, or over one that it may follow. -/
theorem persists_put (hR : ∀ row, R row row) {k : κ} {row : ρ}
    (hrow : ∀ old, t.find? k = some old → R old row) : t.Persists R (t.put k row) := by
  intro k' row' hfind
  rw [find?_put]
  split
  · rename_i hk
    exact ⟨row, rfl, hrow row' (hk ▸ hfind)⟩
  · exact ⟨row', hfind, hR row'⟩

end

/-! ## Tables by number -/

/-- Rows under different numbers may be written in either order. -/
theorem put_comm (t : Table Int ρ) {k k' : Int} (h : k ≠ k') (row row' : ρ) :
    (t.put k row).put k' row' = (t.put k' row').put k row := by
  obtain ⟨pairs⟩ := t
  refine congrArg Table.mk ?_
  show putIn k' row' (putIn k row pairs) = putIn k row (putIn k' row' pairs)
  induction pairs with
  | nil => grind [putIn]
  | cons p rest ih => grind [putIn]

/-- All numbers in use are between one and a last one. -/
def Within (last : Nat) (t : Table Int ρ) : Prop :=
  ∀ k row, t.find? k = some row → 1 ≤ k ∧ k ≤ last

theorem within_empty (last : Nat) : (empty : Table Int ρ).Within last := nofun

theorem Within.put {last : Nat} {t : Table Int ρ} {k : Int} {row : ρ} (h : t.Within last)
    (hk : 1 ≤ k ∧ k ≤ last) : (t.put k row).Within last :=
  forall_put h hk

/-- A row written under the next number moves the last one. -/
theorem Within.put_next {last : Nat} {t : Table Int ρ} {row : ρ} (h : t.Within last) :
    (t.put (last + 1 : Nat) row).Within (last + 1) := by
  have hlater : t.Within (last + 1) := fun k row hfind => by
    have := h k row hfind
    omega
  exact hlater.put (by omega)

/-- The next number is not in use. -/
theorem Within.find?_next {last : Nat} {t : Table Int ρ} (h : t.Within last) :
    t.find? (last + 1 : Nat) = none := by
  cases hfind : t.find? (last + 1 : Nat) with
  | none => rfl
  | some row =>
      have := h _ row hfind
      omega

/-- The numbers stand in ascending order, each of them once. -/
def Ascending (t : Table Int ρ) : Prop := t.pairs.Pairwise fun p q => p.1 < q.1

theorem ascending_empty : (empty : Table Int ρ).Ascending := .nil

theorem mem_putIn {k : Int} {row : ρ} {pairs : List (Int × ρ)} {p : Int × ρ}
    (h : p ∈ putIn k row pairs) : p.1 = k ∨ p ∈ pairs := by
  induction pairs with
  | nil =>
      rw [List.mem_singleton.1 h]
      exact .inl rfl
  | cons q rest ih =>
      obtain ⟨k₁, r⟩ := q
      simp only [putIn] at h
      split at h
      · rcases List.mem_cons.1 h with rfl | h
        · exact .inl rfl
        · exact .inr (List.mem_cons_of_mem _ h)
      · split at h
        · rcases List.mem_cons.1 h with rfl | h
          · exact .inl rfl
          · exact .inr h
        · rcases List.mem_cons.1 h with rfl | h
          · exact .inr List.mem_cons_self
          · exact (ih h).imp_right (List.mem_cons_of_mem _)

theorem Ascending.put {t : Table Int ρ} (h : t.Ascending) (k : Int) (row : ρ) :
    (t.put k row).Ascending := by
  obtain ⟨pairs⟩ := t
  show (putIn k row pairs).Pairwise _
  change pairs.Pairwise _ at h
  induction pairs with
  | nil => exact List.pairwise_singleton _ _
  | cons q rest ih =>
      obtain ⟨k₁, r⟩ := q
      obtain ⟨hfirst, hrest⟩ := List.pairwise_cons.1 h
      simp only [putIn]
      split
      · rename_i hk
        refine List.pairwise_cons.2 ⟨fun p hp => ?_, hrest⟩
        rw [hk]
        exact hfirst p hp
      · split
        · rename_i hlt
          refine List.pairwise_cons.2 ⟨fun p hp => ?_, h⟩
          rcases List.mem_cons.1 hp with rfl | hp
          · exact hlt
          · exact Int.lt_trans hlt (hfirst p hp)
        · rename_i hne hle
          refine List.pairwise_cons.2 ⟨fun p hp => ?_, ih hrest⟩
          rcases mem_putIn hp with hk | hp
          · show k₁ < p.1
            omega
          · exact hfirst p hp

/-! ## Sums over all rows -/

theorem findIn_of_lt {pairs : List (Int × ρ)} {k : Int} (h : ∀ p ∈ pairs, k < p.1) :
    findIn k pairs = none := by
  induction pairs with
  | nil => rfl
  | cons q rest ih =>
      obtain ⟨hq, hrest⟩ := List.forall_mem_cons.1 h
      rw [findIn, if_neg (Int.ne_of_lt hq), ih hrest]

/-- Writing a row changes a sum over all rows by the row less the one that was there. -/
theorem sum_put {t : Table Int ρ} (h : t.Ascending) (f : ρ → Rat) (k : Int) (row : ρ) :
    ((t.put k row).rows.map f).sum + ((t.find? k).map f).getD 0 =
      (t.rows.map f).sum + f row := by
  obtain ⟨pairs⟩ := t
  show (((putIn k row pairs).map (·.2)).map f).sum + ((findIn k pairs).map f).getD 0 =
    ((pairs.map (·.2)).map f).sum + f row
  change pairs.Pairwise _ at h
  induction pairs with
  | nil =>
      simp only [putIn, findIn, List.map_cons, List.map_nil, List.sum_cons, List.sum_nil,
        Option.map_none, Option.getD_none]
      grind
  | cons q rest ih =>
      obtain ⟨k₁, r⟩ := q
      obtain ⟨hfirst, hrest⟩ := List.pairwise_cons.1 h
      simp only [putIn]
      by_cases hk : k = k₁
      · simp only [hk, if_true, findIn, List.map_cons, List.sum_cons, Option.map_some,
          Option.getD_some]
        grind
      · simp only [if_neg hk, findIn]
        split
        · rename_i hlt
          rw [findIn_of_lt fun p hp => Int.lt_trans hlt (hfirst p hp)]
          simp only [List.map_cons, List.sum_cons, Option.map_none, Option.getD_none]
          grind
        · simp only [List.map_cons, List.sum_cons]
          have := ih hrest
          grind

/-! ## The keys in use -/

/-- The keys in use, in the order of the table. -/
def keys (t : Table κ ρ) : List κ := t.pairs.map (·.1)

section

variable [DecidableEq κ]

theorem findIn_isSome_iff {pairs : List (κ × ρ)} {k : κ} :
    (findIn k pairs).isSome = true ↔ k ∈ pairs.map (·.1) := by
  induction pairs with
  | nil => simp [findIn]
  | cons p rest ih =>
      simp only [findIn, List.map_cons, List.mem_cons, ← ih]
      split <;> simp_all

theorem mem_keys {t : Table κ ρ} {k : κ} : k ∈ t.keys ↔ t.contains k = true :=
  findIn_isSome_iff.symm

theorem findIn_of_mem {pairs : List (κ × ρ)} {k : κ} {row : ρ}
    (hpairs : (pairs.map (·.1)).Nodup) (h : (k, row) ∈ pairs) : findIn k pairs = some row := by
  induction pairs with
  | nil => cases h
  | cons p rest ih =>
      obtain ⟨hp, hrest⟩ := List.nodup_cons.1 hpairs
      cases h with
      | head => simp [findIn]
      | tail _ h =>
          have hmem : k ∈ rest.map (·.1) := List.mem_map_of_mem h
          have hne : k ≠ p.1 := ne_of_mem_of_not_mem hmem hp
          simp [findIn, hne, ih hrest h]

theorem mem_of_findIn {pairs : List (κ × ρ)} {k : κ} {row : ρ} (h : findIn k pairs = some row) :
    (k, row) ∈ pairs := by
  induction pairs with
  | nil => cases h
  | cons p rest ih =>
      simp only [findIn] at h
      split at h
      · rename_i hk
        cases h
        exact hk ▸ List.mem_cons_self
      · exact List.mem_cons_of_mem _ (ih h)

/-- The rows are those that look-ups find. -/
theorem mem_rows {t : Table κ ρ} (h : t.keys.Nodup) {row : ρ} :
    row ∈ t.rows ↔ ∃ k, t.find? k = some row := by
  constructor
  · intro hrow
    obtain ⟨⟨k, row⟩, hmem, rfl⟩ := List.mem_map.1 hrow
    exact ⟨k, findIn_of_mem h hmem⟩
  · rintro ⟨k, hfind⟩
    exact List.mem_map_of_mem (mem_of_findIn hfind)

/-- The rows with a key are those that a look-up finds, so there is one at most. -/
theorem filter_rows {key : ρ → κ} {t : Table κ ρ} (hkeyed : t.Keyed key) (hkeys : t.keys.Nodup)
    (k : κ) : (t.rows.filter fun row => key row = k) = (t.find? k).toList := by
  obtain ⟨pairs⟩ := t
  change (pairs.map (·.1)).Nodup at hkeys
  have hkey : ∀ p ∈ pairs, key p.2 = p.1 := fun p hp => hkeyed _ _ (findIn_of_mem hkeys hp)
  show ((pairs.map (·.2)).filter fun row => key row = k) = (findIn k pairs).toList
  clear hkeyed
  induction pairs with
  | nil => rfl
  | cons p rest ih =>
      obtain ⟨hp, hrest⟩ := List.nodup_cons.1 hkeys
      obtain ⟨hfirst, hkey⟩ := List.forall_mem_cons.1 hkey
      have hothers := ih hrest hkey
      simp only [List.map_cons, List.filter_cons, hfirst, findIn, decide_eq_true_eq,
        eq_comm (a := k)]
      split
      · rename_i hk
        have hnone : findIn k rest = none := by
          rw [← Option.not_isSome_iff_eq_none, findIn_isSome_iff, ← hk]
          exact hp
        rw [hothers, hnone]
        rfl
      · exact hothers

variable [LT κ] [DecidableLT κ]

/-- A row under a new key adds that key. -/
theorem perm_keys_put {t : Table κ ρ} {k : κ} (h : t.contains k = false) (row : ρ) :
    (t.put k row).keys.Perm (k :: t.keys) := by
  obtain ⟨pairs⟩ := t
  have hnew : k ∉ pairs.map (·.1) := by
    rw [← findIn_isSome_iff]
    exact Bool.eq_false_iff.1 h
  show ((putIn k row pairs).map (·.1)).Perm (k :: pairs.map (·.1))
  clear h
  induction pairs with
  | nil => rfl
  | cons p rest ih =>
      obtain ⟨hp, hrest⟩ := not_or.1 (mt List.mem_cons.2 hnew)
      simp only [putIn, if_neg hp]
      split
      · rfl
      · exact ((ih hrest).cons p.1).trans (.swap k p.1 _)

theorem nodup_keys_put {t : Table κ ρ} {k : κ} (h : t.keys.Nodup) (hnew : t.contains k = false)
    (row : ρ) : (t.put k row).keys.Nodup := by
  have hk : k ∉ t.keys := by simp [mem_keys, hnew]
  exact (perm_keys_put hnew row).nodup_iff.2 (List.nodup_cons.2 ⟨hk, h⟩)

end

theorem Ascending.keys_nodup {t : Table Int ρ} (h : t.Ascending) : t.keys.Nodup :=
  List.pairwise_map.2 (h.imp Int.ne_of_lt)

/-- A row written over another one leaves the keys as they were. -/
theorem Ascending.keys_put {t : Table Int ρ} (h : t.Ascending) {k : Int} {old : ρ}
    (hold : t.find? k = some old) (row : ρ) : (t.put k row).keys = t.keys := by
  obtain ⟨pairs⟩ := t
  show (putIn k row pairs).map (·.1) = pairs.map (·.1)
  change findIn k pairs = some old at hold
  change pairs.Pairwise _ at h
  induction pairs with
  | nil => cases hold
  | cons p rest ih =>
      obtain ⟨hfirst, hrest⟩ := List.pairwise_cons.1 h
      simp only [findIn] at hold
      split at hold
      · rename_i hk
        simp [putIn, hk]
      · rename_i hk
        have hlt : p.1 < k := hfirst _ (mem_of_findIn hold)
        simp [putIn, hk, Int.not_lt.2 (Int.le_of_lt hlt), ih hold hrest]

/-- A row under a number past all others comes last. -/
theorem keys_put_last {t : Table Int ρ} {k : Int} (h : ∀ k' ∈ t.keys, k' < k) (row : ρ) :
    (t.put k row).keys = t.keys ++ [k] := by
  obtain ⟨pairs⟩ := t
  show (putIn k row pairs).map (·.1) = pairs.map (·.1) ++ [k]
  change ∀ k' ∈ pairs.map (·.1), k' < k at h
  induction pairs with
  | nil => rfl
  | cons p rest ih =>
      obtain ⟨hp, hrest⟩ := List.forall_mem_cons.1 h
      simp [putIn, Int.ne_of_gt hp, Int.not_lt.2 (Int.le_of_lt hp), ih hrest]

/-- The numbers from one to a last one. -/
def numbers (last : Nat) : List Int := (List.range' 1 last).map fun n : Nat => (n : Int)

theorem numbers_succ (last : Nat) :
    numbers (last + 1) = numbers last ++ [((last + 1 : Nat) : Int)] := by
  simp [numbers, List.range'_concat, Nat.add_comm]

theorem mem_numbers {last : Nat} {k : Int} : k ∈ numbers last ↔ 1 ≤ k ∧ k ≤ last := by
  simp only [numbers, List.mem_map, List.mem_range'_1]
  constructor
  · rintro ⟨n, hn, rfl⟩
    omega
  · intro hk
    exact ⟨k.toNat, by omega, by omega⟩

/-- Numbers given out in order stay the numbers from one on when the next one is given out. -/
theorem keys_put_next {last : Nat} {t : Table Int ρ} (h : t.keys = numbers last) (row : ρ) :
    (t.put (last + 1 : Nat) row).keys = numbers (last + 1) := by
  rw [numbers_succ, ← h]
  refine keys_put_last (fun k hk => ?_) row
  rw [h, mem_numbers] at hk
  omega

end FundsTransfer.Table
