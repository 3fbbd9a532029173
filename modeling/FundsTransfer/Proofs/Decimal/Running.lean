import FundsTransfer.Proofs.Decimal.Limits

/-!
# Sums of many decimals

A running sum is a decimal at every step, so it is rounded at every step, and it may outgrow a
decimal on the way although the sum of all members would not.  `Outgrows` says at which
member this happens, and `sum?_eq_none_iff` that there is no sum exactly then.

Members whose digits fit all together at one scale are safe: their running sum is exact,
`exists_sum?_of_lt`.
-/

namespace FundsTransfer.Decimal

/-- The running sum of a list is there up to some member, and with this member it is too large for a
decimal. -/
def Outgrows (ds : List Decimal) : Prop :=
  ∃ before d after s, ds = before ++ d :: after ∧ sum? before = some s ∧
    overflowThreshold ≤ |s.toRat + d.toRat|

theorem sum?_concat (ds : List Decimal) (d : Decimal) :
    sum? (ds ++ [d]) = (sum? ds).bind (·.add? d) := by
  unfold sum?
  rw [List.foldlM_append]
  exact congrArg _ (funext fun s => bind_pure (s.add? d))

/-- A longer list outgrows a decimal where the shorter one does, or at its end. -/
theorem outgrows_concat_iff (ds : List Decimal) (d : Decimal) :
    Outgrows (ds ++ [d]) ↔
      Outgrows ds ∨ ∃ s, sum? ds = some s ∧ overflowThreshold ≤ |s.toRat + d.toRat| := by
  constructor
  · rintro ⟨before, x, after, s, heq, hsum, hlarge⟩
    obtain rfl | ⟨init, last, rfl⟩ := after.eq_nil_or_concat
    · obtain ⟨rfl, hlast⟩ := List.append_inj' heq rfl
      cases hlast
      exact .inr ⟨s, hsum, hlarge⟩
    · rw [List.concat_eq_append, ← List.cons_append, ← List.append_assoc] at heq
      obtain ⟨rfl, -⟩ := List.append_inj' heq rfl
      exact .inl ⟨before, x, init, s, rfl, hsum, hlarge⟩
  · rintro (⟨before, x, after, s, rfl, hsum, hlarge⟩ | ⟨s, hsum, hlarge⟩)
    · exact ⟨before, x, after ++ [d], s, by simp, hsum, hlarge⟩
    · exact ⟨ds, d, [], s, rfl, hsum, hlarge⟩

/-- There is no sum exactly when the running sum is too large at some member. -/
theorem sum?_eq_none_iff (ds : List Decimal) : sum? ds = none ↔ Outgrows ds := by
  induction ds using List.reverseRecOn with
  | nil =>
      refine ⟨nofun, ?_⟩
      rintro ⟨before, d, after, s, heq, -⟩
      simp at heq
  | append_singleton ds d ih =>
      rw [sum?_concat, outgrows_concat_iff, ← ih]
      cases hsum : sum? ds with
      | none => simp
      | some s => simp [add?_eq_none_iff]

/-- Members whose digits fit all together at one scale have an exact sum. -/
theorem exists_sum?_of_lt {ds : List Decimal} {scale : Nat} (hscale : ∀ d ∈ ds, d.scale ≤ scale)
    (hbound : (ds.map fun d => |d.toRat|).sum * 10 ^ scale < 2 ^ 96) :
    ∃ s, sum? ds = some s ∧ s.toRat = (ds.map toRat).sum ∧ s.scale ≤ scale := by
  suffices h : ∃ s, sum? ds = some s ∧ s.toRat = (ds.map toRat).sum ∧ s.scale ≤ scale ∧
      |s.toRat| ≤ (ds.map fun d => |d.toRat|).sum by
    obtain ⟨s, hsum, hvalue, hs, -⟩ := h
    exact ⟨s, hsum, hvalue, hs⟩
  induction ds using List.reverseRecOn with
  | nil =>
      have hzero : zero.toRat = 0 := toRat_of_isZero rfl
      exact ⟨zero, rfl, hzero, Nat.zero_le scale, by simp [hzero]⟩
  | append_singleton ds d ih =>
      simp only [List.map_append, List.map_singleton, List.sum_append, List.sum_singleton]
        at hbound ⊢
      have hpow : (0 : Rat) < 10 ^ scale := by positivity
      have hfewer : (ds.map fun d => |d.toRat|).sum * 10 ^ scale < 2 ^ 96 :=
        lt_of_le_of_lt (mul_le_mul_of_nonneg_right (le_add_of_nonneg_right (abs_nonneg _)) hpow.le)
          hbound
      obtain ⟨s, hsum, hvalue, hs, habs⟩ :=
        ih (fun x hx => hscale x (List.mem_append_left _ hx)) hfewer
      have hle : |s.toRat + d.toRat| ≤ (ds.map fun d => |d.toRat|).sum + |d.toRat| :=
        (abs_add_le _ _).trans (by linarith)
      obtain ⟨s', hadd, hvalue', hs'⟩ := exists_add?_of_lt hs (hscale d (by simp))
        (lt_of_le_of_lt (mul_le_mul_of_nonneg_right hle hpow.le) hbound)
      refine ⟨s', ?_, by rw [hvalue', hvalue], hs', by rw [hvalue']; exact hle⟩
      rw [sum?_concat, hsum]
      exact hadd

end FundsTransfer.Decimal
