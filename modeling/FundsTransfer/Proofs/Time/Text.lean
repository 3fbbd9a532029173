import FundsTransfer.Proofs.Text.Numeral
import FundsTransfer.Proofs.Time.Calendar
import FundsTransfer.Time.Reader
import FundsTransfer.Time.Text
import Mathlib.Data.List.TakeWhile

/-!
# Timestamps are read back

A timestamp in the range of the calendar is read back from its text to the nanosecond,
`ofText?_text`.  A leap second is written as second 60, and is one only where a minute ends,
since there is no other second 60 on the clock.

Whatever a timestamp was read from, it is such a timestamp, `representable_of_ofText?`: an
offset is a number of minutes, so a second 60 in any time zone is the end of a minute in UTC.

A reader goes through the text from the left.  For the first result every step is told what it
takes off the text, `bind_of_eq`, and for the second what it may yield, `Gives`.
-/

namespace FundsTransfer.Timestamp

open Text Reader

variable {α β : Type}

/-- A timestamp in the range of the calendar, with a leap second at the end of a minute only. -/
structure Representable (t : Timestamp) : Prop where
  le_year : -262143 ≤ (CivilDate.ofDays (t.second / 86400)).year
  year_le : (CivilDate.ofDays (t.second / 86400)).year ≤ 262142
  leap : 1000000000 ≤ t.nanosecond → t.second % 60 = 59

/-! ## Steps of reading -/

/-- A step takes its part off the text, and reading goes on behind it. -/
theorem bind_of_eq {r : Reader α} {f : α → Reader β} {s rest : List Char} {a : α}
    (h : r s = some (a, rest)) : (r >>= f) s = f a rest := by
  show (r s >>= fun p => f p.1 p.2) = f a rest
  rw [h]
  rfl

theorem skipBlanks_cons {c : Char} (hc : isBlank c = false) (s : List Char) :
    skipBlanks (c :: s) = some ((), c :: s) := by
  show some ((), trimStart (c :: s)) = _
  rw [trimStart_cons_of_not_blank hc]

theorem take_cons {p : Char → Bool} {c : Char} (hc : p c = true) (s : List Char) :
    Reader.take p (c :: s) = some (c, s) := if_pos hc

theorem mark_cons {c : Char} (hc : isBlank c = false) (s : List Char) :
    mark c (c :: s) = some ((), s) := by
  have htake : Reader.take (fun x => x == c) (c :: s) = some (c, s) :=
    take_cons (beq_self_eq_true c) s
  rw [mark, bind_of_eq (skipBlanks_cons hc s), bind_of_eq htake]
  rfl

theorem digitsUpTo_append {ds : List Char} (hds : ∀ c ∈ ds, c.isDigit = true) (hne : ds ≠ [])
    (s : List Char) : digitsUpTo ds.length (ds ++ s) = some (ds, s) := by
  have htake : ds.takeWhile Char.isDigit = ds := List.takeWhile_eq_self_iff.2 hds
  simp [digitsUpTo, htake, hne]

theorem allDigits_append {ds s : List Char} (hds : ∀ c ∈ ds, c.isDigit = true) (hne : ds ≠ [])
    (hs : ∀ c ∈ s.head?, c.isDigit = false) : allDigits (ds ++ s) = some (ds, s) := by
  have hrest : s.takeWhile Char.isDigit = [] ∧ s.dropWhile Char.isDigit = s := by
    cases s with
    | nil => exact ⟨rfl, rfl⟩
    | cons c s => simp [hs c rfl]
  simp [allDigits, List.takeWhile_append_of_pos hds, List.dropWhile_append_of_pos hds, hrest.1,
    hrest.2, hne]

theorem exists_padded_eq_cons (width n : Nat) :
    ∃ c r, padded width n = c :: r ∧ c.isDigit = true := by
  cases hpadded : padded width n with
  | nil => exact absurd hpadded (padded_ne_nil width n)
  | cons c r => exact ⟨c, r, rfl, isDigit_of_mem_padded (by rw [hpadded]; exact List.mem_cons_self)⟩

theorem skipBlanks_padded (width n : Nat) (s : List Char) :
    skipBlanks (padded width n ++ s) = some ((), padded width n ++ s) := by
  obtain ⟨c, r, hpadded, hc⟩ := exists_padded_eq_cons width n
  rw [hpadded]
  exact skipBlanks_cons (isBlank_of_isDigit hc) _

/-- A number of two digits is read from two digits. -/
theorem twoDigits_padded {n : Nat} (h : n < 100) (s : List Char) :
    twoDigits (padded 2 n ++ s) = some (n, s) := by
  have hlength : (padded 2 n).length = 2 := length_padded_of_lt (by decide) h
  have hread := digitsUpTo_append (fun c hc => isDigit_of_mem_padded hc) (padded_ne_nil 2 n) s
  rw [hlength] at hread
  rw [twoDigits, bind_of_eq (skipBlanks_padded 2 n s), bind_of_eq hread]
  show some (digitsValue (padded 2 n), s) = _
  rw [digitsValue_padded]

/-! ## Date and time -/

theorem peek_cons (c : Char) (s : List Char) : peek (c :: s) = some (some c, c :: s) := rfl

/-- A year is read up to the sign behind it. -/
theorem readYear_yearDigits (year : Int) (s : List Char) :
    readYear (yearDigits year ++ '-' :: s) = some (year, '-' :: s) := by
  have hdigits : ∀ c ∈ padded 4 year.natAbs, c.isDigit = true :=
    fun c hc => isDigit_of_mem_padded hc
  have hall : allDigits (padded 4 year.natAbs ++ '-' :: s) = some (padded 4 year.natAbs, '-' :: s) :=
    allDigits_append hdigits (padded_ne_nil _ _) (by simp)
  rw [yearDigits]
  split
  · rename_i hyear
    have hlength : (padded 4 year.natAbs).length = 4 :=
      length_padded_of_lt (by decide) (by omega)
    have hread := digitsUpTo_append hdigits (padded_ne_nil _ _) ('-' :: s)
    have hvalue : (digitsValue (padded 4 year.natAbs) : Int) = year := by
      rw [digitsValue_padded]
      omega
    rw [hlength] at hread
    rw [readYear, bind_of_eq (skipBlanks_padded 4 _ _)]
    obtain ⟨c, r, hpadded, hc⟩ := exists_padded_eq_cons 4 year.natAbs
    rw [hpadded] at hread hvalue ⊢
    rw [List.cons_append] at hread ⊢
    have hfrom : readYearFrom (some c) = (do return (digitsValue (← digitsUpTo 4) : Int)) := by
      unfold readYearFrom
      split
      · rename_i heq
        cases heq
        exact absurd hc (by decide)
      · rename_i heq
        cases heq
        exact absurd hc (by decide)
      · rfl
    rw [bind_of_eq (peek_cons c _), hfrom, bind_of_eq hread]
    show some ((digitsValue (c :: r) : Int), '-' :: s) = _
    rw [hvalue]
  · split
    · rename_i hneg
      have hvalue : -(digitsValue (padded 4 year.natAbs) : Int) = year := by
        rw [digitsValue_padded]
        omega
      rw [List.cons_append, readYear, bind_of_eq (skipBlanks_cons (by decide) _),
        bind_of_eq (peek_cons '-' _), readYearFrom, bind_of_eq (take_cons (by decide) _),
        bind_of_eq hall]
      show some (-(digitsValue (padded 4 year.natAbs) : Int), '-' :: s) = _
      rw [hvalue]
    · rename_i hyear hneg
      have hvalue : (digitsValue (padded 4 year.natAbs) : Int) = year := by
        rw [digitsValue_padded]
        omega
      rw [List.cons_append, readYear, bind_of_eq (skipBlanks_cons (by decide) _),
        bind_of_eq (peek_cons '+' _), readYearFrom, bind_of_eq (take_cons (by decide) _),
        bind_of_eq hall]
      show some ((digitsValue (padded 4 year.natAbs) : Int), '-' :: s) = _
      rw [hvalue]

theorem readDate_text (date : CivilDate) (hvalid : date.isValid = true) (s : List Char) :
    readDate (yearDigits date.year ++ '-' :: padded 2 date.month.toNat ++
      '-' :: padded 2 date.day.toNat ++ s) = some (date, s) := by
  simp only [CivilDate.isValid, CivilDate.daysInMonth, Bool.and_eq_true, decide_eq_true_eq]
    at hvalid
  obtain ⟨⟨⟨hm0, hm1⟩, hd0⟩, hd1⟩ := hvalid
  have hday : date.day ≤ 31 := by
    refine Int.le_trans (of_decide_eq_true hd1) ?_
    split
    · split <;> decide
    · split <;> decide
  have hmonth : ((date.month.toNat : Nat) : Int) = date.month := by omega
  have hdays : ((date.day.toNat : Nat) : Int) = date.day := by omega
  simp only [List.append_assoc, List.cons_append]
  rw [readDate, bind_of_eq (readYear_yearDigits date.year _), bind_of_eq (mark_cons (by decide) _),
    bind_of_eq (twoDigits_padded (by omega) _), bind_of_eq (mark_cons (by decide) _),
    bind_of_eq (twoDigits_padded (by omega) _)]
  show some ((⟨date.year, (date.month.toNat : Nat), (date.day.toNat : Nat)⟩ : CivilDate), s) = _
  rw [hmonth, hdays]

/-- Digits behind a point are a fraction of a second. -/
theorem readFraction_point {width n : Nat} (hwidth : 0 < width) (hle : width ≤ 9)
    (hn : n < 10 ^ width) :
    readFraction ('.' :: padded width n ++ ['Z']) = some (n * 10 ^ (9 - width), ['Z']) := by
  have hlength : (padded width n).length = width := length_padded_of_lt hwidth hn
  have hall : allDigits (padded width n ++ ['Z']) = some (padded width n, ['Z']) :=
    allDigits_append (fun c hc => isDigit_of_mem_padded hc) (padded_ne_nil _ _) (by simp)
  have hnine : (padded width n).take 9 = padded width n := List.take_of_length_le (by omega)
  rw [List.cons_append, readFraction, bind_of_eq (peek_cons '.' _), readFractionFrom,
    bind_of_eq (take_cons (by decide) _), bind_of_eq hall]
  show some (nanoseconds (padded width n), ['Z']) = _
  rw [nanoseconds, hnine, hlength, digitsValue_padded]
  rfl

theorem readFraction_fractionDigits {n : Nat} (h : n < 1000000000) :
    readFraction (fractionDigits n ++ ['Z']) = some (n, ['Z']) := by
  rw [fractionDigits]
  split
  · rename_i hzero
    rw [hzero]
    rfl
  split
  · rename_i hmilli
    rw [readFraction_point (by decide) (by decide) (by omega)]
    congr 2
    omega
  split
  · rename_i hmicro
    rw [readFraction_point (by decide) (by decide) (by omega)]
    congr 2
    omega
  · rw [readFraction_point (by decide) (by decide) (by omega)]
    congr 2
    omega

theorem readTime_text {hour minute second n : Nat} (hhour : hour < 100) (hminute : minute < 100)
    (hsecond : second < 100) (hn : n < 1000000000) :
    readTime (padded 2 hour ++ ':' :: padded 2 minute ++ ':' :: padded 2 second ++
      fractionDigits n ++ ['Z']) = some ((hour, minute, second, n), ['Z']) := by
  simp only [List.append_assoc, List.cons_append]
  rw [readTime, bind_of_eq (twoDigits_padded hhour _), bind_of_eq (mark_cons (by decide) _),
    bind_of_eq (twoDigits_padded hminute _), bind_of_eq (mark_cons (by decide) _),
    bind_of_eq (twoDigits_padded hsecond _), bind_of_eq (readFraction_fractionDigits hn)]
  rfl

theorem readOffset_utc : readOffset ['Z'] = some (0, []) := rfl

/-- The date and the time on the clock make the timestamp. -/
theorem ofParts?_eq {t : Timestamp} (h : t.Representable) :
    ofParts? (CivilDate.ofDays (t.second / 86400))
      ((t.second % 86400).toNat / 3600, (t.second % 86400).toNat / 60 % 60,
        (t.second % 86400).toNat % 60 + (if 1000000000 ≤ t.nanosecond then 1 else 0),
        if 1000000000 ≤ t.nanosecond then t.nanosecond - 1000000000 else t.nanosecond) 0 =
      some t := by
  obtain ⟨hlow, hhigh, hleap⟩ := h
  have hvalid := CivilDate.isValid_ofDays (t.second / 86400)
  have hdays := CivilDate.toDays_ofDays (t.second / 86400)
  have hclock : ((t.second % 86400).toNat : Int) = t.second % 86400 := by omega
  generalize (t.second % 86400).toNat = clock at hclock ⊢
  have hmoment : (CivilDate.ofDays (t.second / 86400)).toDays * 86400 + (clock / 3600 : Nat) * 3600 +
      (clock / 60 % 60 : Nat) * 60 + (clock % 60 : Nat) - 0 = t.second := by
    rw [hdays]
    omega
  have hnanosecond := t.nanosecond_lt
  by_cases hl : 1000000000 ≤ t.nanosecond
  · have hlast : clock % 60 = 59 := by
      have := hleap hl
      omega
    have hback : t.nanosecond - 1000000000 + 1000000000 = t.nanosecond := by omega
    rw [hlast] at hmoment
    simp only [ofParts?, if_pos hl, hlast, Nat.reduceAdd, if_true, hback, hmoment, hvalid]
    rw [dif_pos hnanosecond, if_pos]
    simp [hlow, hhigh]
    omega
  · have hsecond : ¬ clock % 60 = 60 := by omega
    simp only [ofParts?, if_neg hl, if_neg hsecond, Nat.add_zero, hmoment, hvalid]
    rw [dif_pos hnanosecond, if_pos]
    simp [hlow, hhigh]
    omega

/-- A timestamp in the range of the calendar is read back from its text. -/
theorem ofText?_text {t : Timestamp} (h : t.Representable) : ofText? t.text = some t := by
  have hdate := CivilDate.isValid_ofDays (t.second / 86400)
  have hread : reader.run t.text = some (t, []) := by
    have hparts := ofParts?_eq h
    have hsecond : (t.second % 86400).toNat % 60 + (if 1000000000 ≤ t.nanosecond then 1 else 0) <
        100 := by split <;> omega
    have hnanosecond : (if 1000000000 ≤ t.nanosecond then t.nanosecond - 1000000000
        else t.nanosecond) < 1000000000 := by
      have := t.nanosecond_lt
      split <;> omega
    have htime := readTime_text (show (t.second % 86400).toNat / 3600 < 100 by omega)
      (show (t.second % 86400).toNat / 60 % 60 < 100 by omega) hsecond hnanosecond
    have htext : t.text = yearDigits (CivilDate.ofDays (t.second / 86400)).year ++
        '-' :: padded 2 (CivilDate.ofDays (t.second / 86400)).month.toNat ++
        '-' :: padded 2 (CivilDate.ofDays (t.second / 86400)).day.toNat ++
        'T' :: (padded 2 ((t.second % 86400).toNat / 3600) ++
          ':' :: padded 2 ((t.second % 86400).toNat / 60 % 60) ++
          ':' :: padded 2 ((t.second % 86400).toNat % 60 +
            if 1000000000 ≤ t.nanosecond then 1 else 0) ++
          fractionDigits (if 1000000000 ≤ t.nanosecond then t.nanosecond - 1000000000
            else t.nanosecond) ++ ['Z']) := by
      simp [text]
    have hskip : skipBlanks [] = some ((), []) := rfl
    rw [StateT.run, htext, reader, bind_of_eq (readDate_text _ hdate _), bind_of_eq (take_cons rfl _),
      bind_of_eq htime, bind_of_eq readOffset_utc, bind_of_eq hskip, hparts]
    rfl
  rw [ofText?, hread]

/-! ## Whatever was read -/

/-- Whatever a reader yields is like this. -/
def Gives (r : Reader α) (P : α → Prop) : Prop := ∀ s a rest, r s = some (a, rest) → P a

namespace Gives

theorem any (r : Reader α) : Gives r fun _ => True := fun _ _ _ _ => trivial

theorem pure {P : α → Prop} {a : α} (ha : P a) : Gives (pure a) P := by
  rintro s b rest ⟨⟩
  exact ha

theorem failure {P : α → Prop} : Gives (failure : Reader α) P := by
  rintro s b rest ⟨⟩

theorem bind {r : Reader α} {f : α → Reader β} {P : α → Prop} {Q : β → Prop} (hr : Gives r P)
    (hf : ∀ a, P a → Gives (f a) Q) : Gives (r >>= f) Q := by
  intro s b rest h
  change (r s >>= fun p => f p.1 p.2) = some (b, rest) at h
  obtain ⟨⟨a, rest'⟩, ha, hb⟩ := Option.bind_eq_some_iff.1 h
  exact hf a (hr s a rest' ha) rest' b rest hb

/-- A step that does not matter. -/
theorem skip {r : Reader α} {f : α → Reader β} {Q : β → Prop} (hf : ∀ a, Gives (f a) Q) :
    Gives (r >>= f) Q := (any r).bind fun a _ => hf a

end Gives

theorem gives_allDigits : Gives allDigits fun ds => ∀ c ∈ ds, c.isDigit = true := by
  intro s ds rest h
  simp only [allDigits] at h
  split at h
  · cases h
  · cases h
    exact fun c hc => List.mem_takeWhile_imp hc

theorem nanoseconds_lt {ds : List Char} (hds : ∀ c ∈ ds, c.isDigit = true) :
    nanoseconds ds < 1000000000 := by
  have hlt : digitsValue (ds.take 9) < 10 ^ (ds.take 9).length :=
    digitsValue_lt fun c hc => hds c (List.mem_of_mem_take hc)
  have hlength : (ds.take 9).length ≤ 9 := List.length_take_le 9 ds
  calc nanoseconds ds < 10 ^ (ds.take 9).length * 10 ^ (9 - (ds.take 9).length) :=
        Nat.mul_lt_mul_of_pos_right hlt (Nat.pow_pos (by decide))
    _ = 1000000000 := by rw [← Nat.pow_add, Nat.add_sub_cancel' hlength]

theorem gives_readFraction : Gives readFraction fun n => n < 1000000000 := by
  refine .skip fun c => ?_
  unfold readFractionFrom
  split
  · exact .skip fun _ => gives_allDigits.bind fun ds hds => .pure (nanoseconds_lt hds)
  · exact .pure (by decide)

theorem gives_readTime : Gives readTime fun time => time.2.2.2 < 1000000000 :=
  .skip fun _ => .skip fun _ => .skip fun _ => .skip fun _ => .skip fun _ =>
    gives_readFraction.bind fun _ hn => .pure hn

/-- An offset is a number of minutes. -/
theorem gives_readOffset : Gives readOffset fun offset => offset % 60 = 0 := by
  refine .skip fun _ => .skip fun rest => ?_
  split
  · exact .skip fun _ => .pure rfl
  · refine .skip fun c => ?_
    split
    · exact .skip fun _ => .pure rfl
    · exact .skip fun _ => .pure rfl
    · refine .skip fun sign => .skip fun hours => .skip fun _ => .skip fun minutes => ?_
      dsimp only
      split
      · exact Gives.bind (P := fun _ => False) .failure fun _ h => h.elim
      · refine .pure ?_
        split <;> omega

/-- The date and the time on a clock that is minutes off make a timestamp in the range. -/
theorem representable_of_ofParts? {date : CivilDate} {time : Nat × Nat × Nat × Nat} {offset : Int}
    {t : Timestamp} (htime : time.2.2.2 < 1000000000) (hoffset : offset % 60 = 0)
    (h : ofParts? date time offset = some t) : t.Representable := by
  obtain ⟨hour, minute, second, n⟩ := time
  dsimp only at htime
  by_cases hsecond : second = 60
  · simp only [ofParts?, if_pos hsecond] at h
    split at h
    · split at h
      · rename_i hparts
        simp only [Bool.and_eq_true, decide_eq_true_eq] at hparts
        cases h
        exact ⟨hparts.1.2, hparts.2, fun _ => by dsimp only; omega⟩
      · cases h
    · cases h
  · simp only [ofParts?, if_neg hsecond] at h
    split at h
    · split at h
      · rename_i hparts
        simp only [Bool.and_eq_true, decide_eq_true_eq] at hparts
        cases h
        exact ⟨hparts.1.2, hparts.2, fun hleap => by dsimp only at hleap; omega⟩
      · cases h
    · cases h

theorem gives_reader : Gives reader Representable := by
  refine .skip fun date => .skip fun _ => gives_readTime.bind fun time htime =>
    gives_readOffset.bind fun offset hoffset => .skip fun _ => ?_
  split
  · rename_i t ht
    exact .pure (representable_of_ofParts? htime hoffset ht)
  · exact .failure

/-- Whatever a timestamp was read from, it is in the range of the calendar. -/
theorem representable_of_ofText? {s : List Char} {t : Timestamp} (h : ofText? s = some t) :
    t.Representable := by
  rw [ofText?] at h
  split at h
  · rename_i hread
    cases h
    exact gives_reader s t [] hread
  · cases h

end FundsTransfer.Timestamp
