import FundsTransfer.Proofs.Memory.Table
import Mathlib.Logic.Relator

/-!
# A table by key and a list of rows

The store in memory keeps the rows of a table by key, a database in a list.  `Mirrors` says
that the two hold the same rows, where the rows may be numbered differently: a relation
tells which key here goes with which key there.

When this relation is one-to-one, a look-up here finds a row exactly when the look-up
under the other key finds one there.  A row added on both sides and a row written over on
both sides keep the tables alike, `Mirrors.put_new` and `Mirrors.put_over`.
-/

namespace FundsTransfer.Table

variable {κ ρ : Type} [DecidableEq κ] {t : Table κ ρ} {rows : List ρ} {key : ρ → κ}
  {R R' : κ → κ → Prop} {same same' : ρ → ρ → Prop} {k k' : κ} {row row' : ρ}

/-- A table by key and a list hold the same rows, under keys that go with each other. -/
structure Mirrors (t : Table κ ρ) (rows : List ρ) (key : ρ → κ) (R : κ → κ → Prop)
    (same : ρ → ρ → Prop) : Prop where
  nodup : (rows.map key).Nodup
  forth {k : κ} {row : ρ} : t.find? k = some row →
    ∃ row' ∈ rows, R k (key row') ∧ same row row'
  back {row' : ρ} : row' ∈ rows → ∃ k row, t.find? k = some row ∧ R k (key row') ∧ same row row'

/-- A list in which no key occurs twice has one row under each. -/
theorem find?_key_of_mem {row : ρ} (hnodup : (rows.map key).Nodup) (hrow : row ∈ rows) :
    rows.find? (key · == key row) = some row := by
  induction rows with
  | nil => cases hrow
  | cons first rest ih =>
      obtain ⟨hfirst, hrest⟩ := List.nodup_cons.1 hnodup
      rcases List.mem_cons.1 hrow with rfl | hrow
      · simp
      · have hne : key first ≠ key row := fun h => hfirst (h ▸ List.mem_map_of_mem hrow)
        rw [List.find?_cons_of_neg (by simpa using hne), ih hrest hrow]

/-- Looking for a key and more finds the row with the key, or none. -/
theorem find?_key_and (hnodup : (rows.map key).Nodup) (P : ρ → Bool) (k : κ) :
    rows.find? (fun r => key r == k && P r) = (rows.find? (key · == k)).filter P := by
  induction rows with
  | nil => rfl
  | cons first rest ih =>
      obtain ⟨hfirst, hrest⟩ := List.nodup_cons.1 hnodup
      by_cases hkey : key first = k
      · subst hkey
        have hnone : rest.find? (fun r => key r == key first && P r) = none := by
          refine List.find?_eq_none.2 fun r hr hand => hfirst ?_
          have hsame : key r = key first := by
            simp only [Bool.and_eq_true, beq_iff_eq] at hand
            exact hand.1
          exact hsame ▸ List.mem_map_of_mem hr
        cases hP : P first with
        | true => simp [hP, Option.filter]
        | false => simp [hP, hnone, Option.filter]
      · simp [hkey, ih hrest]

theorem biUnique_eq {α : Type} : Relator.BiUnique (@Eq α) :=
  ⟨fun _ _ _ h h' => h.trans h'.symm, fun _ _ _ h h' => h.symm.trans h'⟩

namespace Mirrors

theorem empty : (Table.empty : Table κ ρ).Mirrors [] key R same where
  nodup := List.nodup_nil
  forth := nofun
  back := nofun

theorem mono (h : t.Mirrors rows key R same) (hR : ∀ k k', R k k' → R' k k')
    (hsame : ∀ row row', same row row' → same' row row') : t.Mirrors rows key R' same' where
  nodup := h.nodup
  forth hfind := by
    obtain ⟨row', hmem, hk, hrow⟩ := h.forth hfind
    exact ⟨row', hmem, hR _ _ hk, hsame _ _ hrow⟩
  back hmem := by
    obtain ⟨k, row, hfind, hk, hrow⟩ := h.back hmem
    exact ⟨k, row, hfind, hR _ _ hk, hsame _ _ hrow⟩

section

variable (h : t.Mirrors rows key R same) (hR : Relator.BiUnique R)
include h hR

/-- A row that is found under a key is found under the other one. -/
theorem find?_of_some (hk : R k k') (hfind : t.find? k = some row) :
    ∃ row', rows.find? (key · == k') = some row' ∧ same row row' := by
  obtain ⟨row', hmem, hkey, hrow⟩ := h.forth hfind
  refine ⟨row', ?_, hrow⟩
  rw [hR.2 hk hkey]
  exact find?_key_of_mem h.nodup hmem

/-- Where a key finds nothing, the other one does not, either. -/
theorem find?_of_none (hk : R k k') (hfind : t.find? k = none) :
    rows.find? (key · == k') = none := by
  refine List.find?_eq_none.2 fun row' hmem hkey => ?_
  obtain ⟨k₁, row, hfind₁, hk₁, -⟩ := h.back hmem
  rw [beq_iff_eq.1 hkey] at hk₁
  rw [hR.1 hk₁ hk, hfind] at hfind₁
  cases hfind₁

theorem contains (hk : R k k') : rows.any (key · == k') = t.contains k := by
  have hany : rows.any (key · == k') = (rows.find? (key · == k')).isSome := by
    rw [Bool.eq_iff_iff, List.any_eq_true, List.find?_isSome]
  rw [hany, Table.contains]
  cases hfind : t.find? k with
  | none => rw [h.find?_of_none hR hk hfind]
  | some row =>
      obtain ⟨row', hfind', -⟩ := h.find?_of_some hR hk hfind
      rw [hfind']
      rfl

variable [LT κ] [DecidableLT κ]

/-- A row under a new key is added on both sides. -/
theorem put_new (hrow : same row row') (hk : R k (key row')) (hnew : t.find? k = none) :
    (t.put k row).Mirrors (rows ++ [row']) key R same where
  nodup := by
    rw [List.map_append, List.map_singleton]
    refine List.nodup_append.2 ⟨h.nodup, List.pairwise_singleton _ _, fun k₁ hk₁ k₂ hk₂ heq => ?_⟩
    obtain ⟨row₁, hmem, rfl⟩ := List.mem_map.1 hk₁
    have hnone := List.find?_eq_none.1 (h.find?_of_none hR hk hnew) row₁ hmem
    exact hnone (by simpa using heq.trans (List.mem_singleton.1 hk₂))
  forth {k₁ row₁} hfind := by
    rw [find?_put] at hfind
    split at hfind
    · rename_i hk₁
      cases hfind
      exact ⟨row', List.mem_append_right _ List.mem_cons_self, hk₁ ▸ hk, hrow⟩
    · obtain ⟨row₂, hmem, hkey, hsame⟩ := h.forth hfind
      exact ⟨row₂, List.mem_append_left _ hmem, hkey, hsame⟩
  back {row₁} hmem := by
    rcases List.mem_append.1 hmem with hmem | hmem
    · obtain ⟨k₁, row₂, hfind, hkey, hsame⟩ := h.back hmem
      have hne : k₁ ≠ k := by
        rintro rfl
        rw [hnew] at hfind
        cases hfind
      exact ⟨k₁, row₂, by rw [find?_put, if_neg hne, hfind], hkey, hsame⟩
    · rw [List.mem_singleton.1 hmem]
      exact ⟨k, row, find?_put_self _ _ _, hk, hrow⟩

/-- A row is written over on both sides. -/
theorem put_over (hrow : same row row') (hk : R k (key row')) (hold : t.contains k = true) :
    (t.put k row).Mirrors (rows.map fun r => if key r == key row' then row' else r) key R
      same where
  nodup := by
    have hkeys : (rows.map fun r => if key r == key row' then row' else r).map key =
        rows.map key := by
      rw [List.map_map]
      refine List.map_congr_left fun r _ => ?_
      by_cases hr : key r = key row'
      · simp [hr]
      · simp [hr]
    rw [hkeys]
    exact h.nodup
  forth {k₁ row₁} hfind := by
    rw [find?_put] at hfind
    split at hfind
    · rename_i hk₁
      cases hfind
      obtain ⟨old, hfind⟩ := Option.isSome_iff_exists.1 hold
      obtain ⟨old', hmem, hkey, -⟩ := h.forth hfind
      refine ⟨row', List.mem_map.2 ⟨old', hmem, ?_⟩, hk₁ ▸ hk, hrow⟩
      rw [hR.2 hkey hk, beq_self_eq_true, if_pos rfl]
    · rename_i hk₁
      obtain ⟨row₂, hmem, hkey, hsame⟩ := h.forth hfind
      have hne : key row₂ ≠ key row' := fun heq => hk₁ (hR.1 (heq ▸ hkey) hk)
      exact ⟨row₂, List.mem_map.2 ⟨row₂, hmem, by simp [hne]⟩, hkey, hsame⟩
  back {row₁} hmem := by
    obtain ⟨row₂, hmem₂, rfl⟩ := List.mem_map.1 hmem
    by_cases hkey₂ : key row₂ = key row'
    · refine ⟨k, row, find?_put_self _ _ _, ?_, ?_⟩
      · simpa [hkey₂] using hk
      · simpa [hkey₂] using hrow
    · obtain ⟨k₁, row₃, hfind, hkey, hsame⟩ := h.back hmem₂
      have hne : k₁ ≠ k := by
        rintro rfl
        exact hkey₂ (hR.2 hkey hk)
      refine ⟨k₁, row₃, by rw [find?_put, if_neg hne, hfind], ?_, ?_⟩
      · simpa [hkey₂] using hkey
      · simpa [hkey₂] using hsame

end

end Mirrors

end FundsTransfer.Table
