import FundsTransfer.Time.Calendar

/-!
# Days and their dates

Every day has a date that the calendar has, `isValid_ofDays`, and the date names the day,
`toDays_ofDays`.

Both are about one era of 146097 days, since the calendar repeats itself.  The year of a day
in its era is worked out by one division from which the leap days before it have been taken.
That this is the year is the heart of the matter: `daysBefore` counts the days before a year, and
the day lies between the days before its year and those before the next, `daysBefore_le` and
`lt_daysBefore`.
-/

namespace FundsTransfer.CivilDate

/-! ## The year -/

/-- The days of an era before a year of it. -/
def daysBefore (y : Int) : Int := 365 * y + y / 4 - y / 100 + y / 400

/-- The year of an era to which a day of it belongs. -/
def yearOfEra (d : Int) : Int := (d - d / 1460 + d / 36524 - d / 146096) / 365

section

variable {d : Int} (h0 : 0 ≤ d) (h1 : d ≤ 146096)

include h0 h1

theorem yearOfEra_mem : 0 ≤ yearOfEra d ∧ yearOfEra d ≤ 399 := by
  unfold yearOfEra
  omega

theorem century_mem :
    d / 36524 = 0 ∨ d / 36524 = 1 ∨ d / 36524 = 2 ∨ d / 36524 = 3 ∨ d / 36524 = 4 := by
  omega

theorem daysBefore_le : daysBefore (yearOfEra d) ≤ d := by
  have hcentury := century_mem h0 h1
  have hy : yearOfEra d = (d - d / 1460 + d / 36524 - d / 146096) / 365 := rfl
  obtain ⟨hy0, hy1⟩ := yearOfEra_mem h0 h1
  generalize yearOfEra d = y at hy hy0 hy1 ⊢
  have hera : y / 400 = 0 := by omega
  have hcenturies : y / 100 = 0 ∨ y / 100 = 1 ∨ y / 100 = 2 ∨ y / 100 = 3 := by omega
  unfold daysBefore
  omega

theorem lt_daysBefore : d < daysBefore (yearOfEra d + 1) := by
  have hcentury := century_mem h0 h1
  have hy : yearOfEra d = (d - d / 1460 + d / 36524 - d / 146096) / 365 := rfl
  obtain ⟨hy0, hy1⟩ := yearOfEra_mem h0 h1
  generalize yearOfEra d = y at hy hy0 hy1 ⊢
  have hcenturies : (y + 1) / 100 = 0 ∨ (y + 1) / 100 = 1 ∨ (y + 1) / 100 = 2 ∨
      (y + 1) / 100 = 3 ∨ (y + 1) / 100 = 4 ∧ (y + 1) / 400 = 1 := by omega
  have hera : (y + 1) / 400 = 0 ∨ (y + 1) / 400 = 1 ∧ (y + 1) / 100 = 4 := by omega
  -- Which of four years it is has to be known before the quarters can be compared.
  obtain ⟨q, r, hq, hr⟩ : ∃ q r, y + 1 = 4 * q + r ∧ (r = 0 ∨ r = 1 ∨ r = 2 ∨ r = 3) :=
    ⟨(y + 1) / 4, (y + 1) % 4, by omega, by omega⟩
  have hquarter : (y + 1) / 4 = q := by omega
  unfold daysBefore
  rw [hquarter]
  omega

end

/-- A year of 366 days, which starts in March, ends with the leap day of the next one. -/
theorem isLeapYear_of_daysBefore {y era : Int} (hy0 : 0 ≤ y) (hy1 : y ≤ 399)
    (h : daysBefore (y + 1) = daysBefore y + 366) : isLeapYear (y + 1 + era * 400) = true := by
  unfold daysBefore at h
  have hfour : (y + 1) % 4 = 0 := by omega
  have hhundred : (y + 1) % 100 ≠ 0 ∨ (y + 1) % 400 = 0 := by omega
  simp only [isLeapYear, Bool.and_eq_true, Bool.or_eq_true, beq_iff_eq, bne_iff_ne, ne_eq]
  omega

theorem daysBefore_succ_le (y : Int) : daysBefore (y + 1) ≤ daysBefore y + 366 := by
  unfold daysBefore
  omega

/-! ## The month -/

/-- The month of a day of the year, counted from March. -/
def monthFromMarch (dayOfYear : Int) : Int := (5 * dayOfYear + 2) / 153

/-- The day of the month of a day of the year. -/
def dayOfMonth (dayOfYear : Int) : Int := dayOfYear - (153 * monthFromMarch dayOfYear + 2) / 5 + 1

section

variable {n : Int} (h0 : 0 ≤ n) (h1 : n ≤ 365)

include h0 h1

theorem monthFromMarch_mem : 0 ≤ monthFromMarch n ∧ monthFromMarch n ≤ 11 := by
  unfold monthFromMarch
  omega

end

/-! ## The date -/

/-- The parts of the date of a day: its era, its year and its day of the year. -/
structure Parts (days era y n : Int) : Prop where
  year_nonneg : 0 ≤ y
  year_le : y ≤ 399
  day_nonneg : 0 ≤ n
  day_le : n ≤ 365
  leap : n = 365 → isLeapYear (y + 1 + era * 400) = true
  days_eq : days = era * 146097 + (y * 365 + y / 4 - y / 100 + n) - 719468
  ofDays_eq : ofDays days =
    ⟨(if (if monthFromMarch n < 10 then monthFromMarch n + 3 else monthFromMarch n - 9) ≤ 2 then
        y + era * 400 + 1 else y + era * 400),
      if monthFromMarch n < 10 then monthFromMarch n + 3 else monthFromMarch n - 9, dayOfMonth n⟩

theorem exists_parts (days : Int) : ∃ era y n, Parts days era y n := by
  let d := days + 719468 - (days + 719468) / 146097 * 146097
  have h0 : 0 ≤ d := by omega
  have h1 : d ≤ 146096 := by omega
  obtain ⟨hy0, hy1⟩ := yearOfEra_mem h0 h1
  have hle := daysBefore_le h0 h1
  have hlt := lt_daysBefore h0 h1
  have hsucc := daysBefore_succ_le (yearOfEra d)
  have hbefore : daysBefore (yearOfEra d) =
      365 * yearOfEra d + yearOfEra d / 4 - yearOfEra d / 100 := by
    unfold daysBefore
    omega
  refine ⟨(days + 719468) / 146097, yearOfEra d, d - daysBefore (yearOfEra d), hy0, hy1, ?_, ?_, ?_,
    ?_, ?_⟩
  · omega
  · omega
  · intro hlast
    exact isLeapYear_of_daysBefore hy0 hy1 (by omega)
  · omega
  · rw [hbefore]
    rfl

namespace Parts

variable {days era y n : Int} (h : Parts days era y n)

include h

theorem toDays_eq : (ofDays days).toDays = days := by
  obtain ⟨hy0, hy1, hn0, hn1, -, hdays, hdate⟩ := h
  obtain ⟨hm0, hm1⟩ := monthFromMarch_mem hn0 hn1
  have hday : dayOfMonth n = n - (153 * monthFromMarch n + 2) / 5 + 1 := rfl
  have hera : (y + era * 400) / 400 = era := by omega
  have hyear : y + era * 400 - era * 400 = y := by omega
  rw [hdate, toDays]
  dsimp only
  generalize monthFromMarch n = m at hm0 hm1 hday ⊢
  by_cases hm : m < 10
  · have hmonth : ¬ m + 3 ≤ 2 := by omega
    have hback : (m + 3 + 9) % 12 = m := by omega
    simp only [if_pos hm, if_neg hmonth, hera, hyear, hback, hday]
    omega
  · have hmonth : m - 9 ≤ 2 := by omega
    have hback : (m - 9 + 9) % 12 = m := by omega
    have hnext : y + era * 400 + 1 - 1 = y + era * 400 := by omega
    simp only [if_neg hm, if_pos hmonth, hnext, hera, hyear, hback, hday]
    omega

theorem isValid_eq : (ofDays days).isValid = true := by
  obtain ⟨hy0, hy1, hn0, hn1, hleap, -, hdate⟩ := h
  obtain ⟨hm0, hm1⟩ := monthFromMarch_mem hn0 hn1
  have hday : dayOfMonth n = n - (153 * monthFromMarch n + 2) / 5 + 1 := rfl
  have hm : monthFromMarch n = (5 * n + 2) / 153 := rfl
  rw [hdate, isValid]
  simp only [Bool.and_eq_true, decide_eq_true_eq, daysInMonth, hday]
  generalize monthFromMarch n = m at hm0 hm1 hm ⊢
  have hcases : m = 0 ∨ m = 1 ∨ m = 2 ∨ m = 3 ∨ m = 4 ∨ m = 5 ∨ m = 6 ∨ m = 7 ∨ m = 8 ∨ m = 9 ∨
      m = 10 ∨ m = 11 := by omega
  rcases hcases with rfl | rfl | rfl | rfl | rfl | rfl | rfl | rfl | rfl | rfl | rfl | rfl
  case inr.inr.inr.inr.inr.inr.inr.inr.inr.inr.inr =>
    have hyear : y + era * 400 + 1 = y + 1 + era * 400 := by omega
    simp only [Int.reduceLT, Int.reduceSub, Int.reduceLE, if_true, if_false, hyear]
    refine ⟨⟨⟨trivial, trivial⟩, by omega⟩, ?_⟩
    by_cases hlast : n = 365
    · rw [if_pos (hleap hlast)]
      omega
    · split
      · omega
      · omega
  all_goals
    simp
    omega

end Parts

/-- The date of a day names the day. -/
theorem toDays_ofDays (days : Int) : (ofDays days).toDays = days := by
  obtain ⟨era, y, n, h⟩ := exists_parts days
  exact h.toDays_eq

/-- The calendar has the date of every day. -/
theorem isValid_ofDays (days : Int) : (ofDays days).isValid = true := by
  obtain ⟨era, y, n, h⟩ := exists_parts days
  exact h.isValid_eq

end FundsTransfer.CivilDate
