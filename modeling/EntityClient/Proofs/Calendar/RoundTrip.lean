import EntityClient.Proofs.Calendar.Forms
import Mathlib.Algebra.Group.Nat.Defs

/-!
Dates and timestamps are read back as they were written. A written number has as many digits as
are read at most, or ends before a character that is no digit, so the greedy scan takes all of it
and nothing behind it.
-/

namespace EntityClient

/-- A date names one of twelve months and a day up to the 31st. -/
theorem IsDate.bounds {year : Int} {month day : Nat} (h : IsDate year month day) :
    1 ≤ month ∧ month ≤ 12 ∧ day ≤ 31 := by
  obtain ⟨-, -, first, last⟩ := h
  unfold daysInMonth at last
  split at last
  · split at last <;> omega
  split at last
  next short =>
    simp only [List.mem_cons, List.not_mem_nil, or_false] at short
    omega
  split at last <;> omega

namespace Date

theorem isDigit_padded {width n : Nat} : ∀ c ∈ padded width n, c.isDigit = true := by
  intro c hc
  obtain hc | hc := List.mem_append.mp hc
  · rw [List.eq_of_mem_replicate hc]
    rfl
  · exact Nat.isDigit_of_mem_toDigits (by decide) (by decide) hc

theorem padded_ne_nil (width n : Nat) : padded width n ≠ [] := by
  intro h
  exact Nat.toDigits_ne_nil (List.append_eq_nil_iff.mp h).2

theorem ofDigitChars_padded (width n : Nat) : Nat.ofDigitChars 10 (padded width n) 0 = n := by
  rw [padded, Nat.ofDigitChars_append, Nat.ofDigitChars_replicate_zero, Nat.mul_zero]
  exact Nat.ofDigitChars_ten_toDigits

theorem length_padded {width n : Nat} (pos : 0 < width) (h : n < 10 ^ width) :
    (padded width n).length = width := by
  have hle : (Nat.toDigits 10 n).length ≤ width :=
    (Nat.length_toDigits_le_iff (by decide) pos).mpr h
  simp only [padded, List.length_append, List.length_replicate]
  omega

theorem isBlank_padded {width n : Nat} : ∀ c ∈ padded width n, Text.isBlank c = false :=
  fun c hc => Text.isBlank_of_isDigit (isDigit_padded c hc)

theorem isBlank_yearText (year : Int) : ∀ c ∈ yearText year, Text.isBlank c = false := by
  intro c hc
  unfold yearText at hc
  split at hc
  · obtain rfl | hc := List.mem_cons.mp hc
    · rfl
    · exact isBlank_padded c hc
  split at hc
  · obtain rfl | hc := List.mem_cons.mp hc
    · rfl
    · exact isBlank_padded c hc
  · exact isBlank_padded c hc

theorem yearText_ne_nil (year : Int) : yearText year ≠ [] := by
  unfold yearText
  split
  · exact List.cons_ne_nil _ _
  split
  · exact List.cons_ne_nil _ _
  · exact padded_ne_nil 4 year.natAbs

end Date

namespace Calendar

open Date

theorem run_padded {width n most : Nat} {rest : List Char} (le : (padded width n).length ≤ most)
    (stop : (padded width n).length = most ∨ Stops rest) : Run most (padded width n) rest :=
  ⟨padded_ne_nil width n, isDigit_padded, le, stop⟩

theorem scanNumber_padded {width n : Nat} (rest : List Char) (pos : 0 < width)
    (h : n < 10 ^ width) : scanNumber width (padded width n ++ rest) = .ok (n, rest) := by
  have full : (padded width n).length = width := length_padded pos h
  rw [scanNumber_run (run_padded (Nat.le_of_eq full) (.inl full)), ofDigitChars_padded]

theorem scanField_padded {low high n : Nat} (rest : List Char) (hlow : low ≤ n) (hhigh : n ≤ high)
    (two : high < 100) : scanField low high (padded 2 n ++ rest) = .ok (n, rest) := by
  have number : scanNumber 2 (padded 2 n ++ rest) = .ok (n, rest) :=
    scanNumber_padded rest (by decide) (by omega)
  rw [scanField_eq_ok_iff, Text.trimLeft_append rest (padded_ne_nil 2 n) isBlank_padded]
  exact ⟨number, hlow, hhigh⟩

/-- After a sign any number of digits belongs to the year. -/
theorem scanNumber_signed {width n : Nat} {rest : List Char} (stops : Stops rest) :
    scanNumber (padded width n ++ rest).length (padded width n ++ rest) = .ok (n, rest) := by
  rw [scanNumber_run (run_padded (by simp) (.inr stops)), ofDigitChars_padded]

theorem yearForm_yearText {year : Int} {rest : List Char} (stops : Stops rest) :
    YearForm year (yearText year ++ rest) rest := by
  have signed : scanNumber (padded 4 year.natAbs ++ rest).length (padded 4 year.natAbs ++ rest) =
      .ok (year.natAbs, rest) := scanNumber_signed stops
  unfold yearText
  split
  next neg =>
    have value : -(year.natAbs : Int) = year := by omega
    have form := YearForm.negative signed
    rwa [value] at form
  next nonneg =>
    have value : (year.natAbs : Int) = year := by omega
    split
    next large =>
      have form := YearForm.positive signed
      rwa [value] at form
    next small =>
      have number : scanNumber 4 (padded 4 year.natAbs ++ rest) = .ok (year.natAbs, rest) :=
        scanNumber_padded rest (by decide) (by omega)
      have form := YearForm.plain number
      rwa [value] at form

theorem scanYear_yearText {year : Int} {rest : List Char} (lower : -2147483648 ≤ year)
    (upper : year < 2147483648) (stops : Stops rest) :
    scanYear (yearText year ++ rest) = .ok (year, rest) := by
  rw [scanYear_eq_ok_iff, Text.trimLeft_append rest (yearText_ne_nil year) (isBlank_yearText year)]
  exact ⟨yearForm_yearText stops, lower, upper⟩

theorem scanDay_text (d : Date) (rest : List Char) :
    scanDay (d.text ++ rest) = .ok ((d.year, d.month, d.day), rest) := by
  obtain ⟨lower, upper, hday, -⟩ := d.valid
  obtain ⟨hmonth, hmonth', hday'⟩ := IsDate.bounds d.valid
  have year : scanYear (d.text ++ rest) =
      .ok (d.year, '-' :: (padded 2 d.month ++ '-' :: (padded 2 d.day ++ rest))) := by
    have stops : Stops ('-' :: (padded 2 d.month ++ '-' :: (padded 2 d.day ++ rest))) := by
      simp [Stops]
    simpa [text] using scanYear_yearText (by omega) (by omega) stops
  have month := scanField_padded ('-' :: (padded 2 d.day ++ rest)) hmonth hmonth' (by decide)
  have day := scanField_padded rest hday hday' (by decide)
  have mark (cs : List Char) : scanMark '-' ('-' :: cs) = .ok cs := scanMark_eq_ok_iff.mpr rfl
  exact scanDay_eq_ok_iff.mpr ⟨_, year, _, mark _, _, month, _, mark _, day⟩

theorem dateOf_eq (d : Date) : dateOf (d.year, d.month, d.day) = .ok d := dif_pos d.valid

end Calendar

namespace Date

theorem scan_text (d : Date) : scan d.text = .ok d := by
  have day := Calendar.scanDay_text d []
  rw [List.append_nil] at day
  simp only [scan, day, bind, Except.bind, Calendar.scanEnd, Calendar.dateOf_eq]

/-- What stands between a year and a number of two digits may be anything. -/
theorem trim_yearText (year : Int) (inner : List Char) (n : Nat) :
    Text.trim (yearText year ++ (inner ++ padded 2 n)) = yearText year ++ (inner ++ padded 2 n) := by
  refine Text.trim_append inner (yearText_ne_nil year) (padded_ne_nil 2 n) fun c hc => ?_
  cases List.mem_append.mp hc with
  | inl front => exact isBlank_yearText year c front
  | inr back => exact isBlank_padded c back

theorem trim_text (d : Date) : Text.trim d.text = d.text := by
  simpa [text] using trim_yearText d.year ('-' :: padded 2 d.month ++ ['-']) d.day

theorem parse_render (d : Date) : parse d.render = .ok d := by
  rw [parse, render, String.toList_ofList, trim_text, scan_text]

end Date

namespace Timestamp

open Calendar Date

theorem scanTime_timeText (t : Timestamp) :
    scanTime (t.date.year, t.date.month, t.date.day) t.timeText = .ok t := by
  have hour := scanField_padded (':' :: (padded 2 t.minute ++ ':' :: padded 2 t.second))
    (Nat.zero_le t.hour) t.hour_le (by decide)
  have minute := scanField_padded (':' :: padded 2 t.second) (Nat.zero_le t.minute) t.minute_le
    (by decide)
  have second : scanField 0 60 (padded 2 t.second) = .ok (t.second, []) := by
    simpa using scanField_padded [] (Nat.zero_le t.second) t.second_le (by decide)
  have time : t.timeText =
      padded 2 t.hour ++ ':' :: (padded 2 t.minute ++ ':' :: padded 2 t.second) := by
    simp [timeText]
  rw [time]
  simp only [scanTime, bind, Except.bind, scanHour, hour, scanMark, if_true, scanMinute, minute,
    scanSecond, second, scanEnd, dateOf_eq, timestampOf]
  exact dif_pos ⟨t.hour_le, t.minute_le, t.second_le⟩

theorem scan_text (t : Timestamp) : scan .blank t.text = .ok t := by
  have solid : Text.trimLeft t.timeText = t.timeText := by
    simpa [timeText] using Text.trimLeft_append _ (padded_ne_nil 2 t.hour) isBlank_padded
  have blank : Text.trimLeft (' ' :: t.timeText) = t.timeText := solid
  exact scan_eq_ok_iff.mpr
    ⟨_, _, _, scanDay_text t.date _, congrArg Except.ok blank, scanTime_timeText t⟩

theorem trim_text (t : Timestamp) : Text.trim t.text = t.text := by
  simpa [Timestamp.text, timeText, Date.text] using trim_yearText t.date.year
    ('-' :: padded 2 t.date.month ++ '-' :: padded 2 t.date.day ++ ' ' :: padded 2 t.hour ++
      ':' :: padded 2 t.minute ++ [':']) t.second

/-- A written timestamp has a blank for its separator, so the first reading succeeds. -/
theorem parse_render (t : Timestamp) : parse t.render = .ok t := by
  rw [parse, render, String.toList_ofList, trim_text, scan_text]

end Timestamp
end EntityClient
