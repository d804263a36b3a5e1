import EntityClient.Proofs.Calendar.Locality

/-!
The two separators of a timestamp. Behind the day of a text a blank or a digit fits one separator
and the letter the other, so no text fits both, and since the day does not depend on what stands
behind it, one separator may be written for the other.
-/

namespace EntityClient
namespace Calendar

/-! The separator that fits -/

/-- A time starts with a digit, blanks before it apart. -/
theorem scanTime_starts {day : Int × Nat × Nat} {cs : List Char} {t : Timestamp}
    (h : scanTime day cs = .ok t) : ∃ c more, Text.trimLeft cs = c :: more ∧ c.isDigit = true := by
  obtain ⟨⟨hour, rest⟩, hhour, -⟩ := exists_of_bind_ok h
  obtain ⟨number, -⟩ := scanField_eq_ok_iff.mp hhour
  obtain ⟨digits, taken, run, -⟩ := (scanNumber_eq_ok_iff (by decide)).mp number
  obtain ⟨c, more, rfl⟩ := List.exists_cons_of_ne_nil run.ne_nil
  exact ⟨c, more ++ rest, taken, run.isDigit c List.mem_cons_self⟩

theorem scanDay_trimLeft (cs : List Char) : scanDay (Text.trimLeft cs) = scanDay cs := by
  simp only [scanDay, scanYear, Text.trimLeft_trimLeft]

theorem scanTime_trimLeft (day : Int × Nat × Nat) (cs : List Char) :
    scanTime day (Text.trimLeft cs) = scanTime day cs := by
  simp only [scanTime, scanHour, scanField, Text.trimLeft_trimLeft]

theorem scan_trim {k : Separator} {text : List Char} {t : Timestamp} :
    Timestamp.scan k (Text.trim text) = .ok t ↔
      Timestamp.scan k (Text.dropTail Text.isBlank text) = .ok t := by
  rw [scan_eq_ok_iff, scan_eq_ok_iff, Text.trim_eq, scanDay_trimLeft]

/-- The letter is no blank and starts no time. -/
theorem not_scan_both {cs : List Char} {t u : Timestamp}
    (blank : Timestamp.scan .blank cs = .ok t) : Timestamp.scan .letterT cs ≠ .ok u := by
  intro letter
  obtain ⟨day, rest, time, hday, hblank, htime⟩ := scan_eq_ok_iff.mp blank
  obtain ⟨day', rest', time', hday', hletter, -⟩ := scan_eq_ok_iff.mp letter
  cases hday.symm.trans hday'
  cases hblank
  obtain ⟨c, more, starts, digit⟩ := scanTime_starts htime
  rw [Text.trimLeft_trimLeft] at starts
  cases scanMark_eq_ok_iff.mp hletter
  have kept : Text.trimLeft ('T' :: time') = 'T' :: time' :=
    List.dropWhile_cons_of_neg (by decide)
  rw [kept] at starts
  cases starts
  exact absurd digit (by decide)

theorem separator_unique {k l : Separator} {cs : List Char} {t u : Timestamp}
    (hk : Timestamp.scan k cs = .ok t) (hl : Timestamp.scan l cs = .ok u) : k = l := by
  cases k with
  | blank =>
      cases l with
      | blank => rfl
      | letterT => exact absurd hl (not_scan_both hk)
  | letterT =>
      cases l with
      | blank => exact absurd hk (not_scan_both hl)
      | letterT => rfl

/-- Reads with one separator, and with another one where that does not fit. -/
def scanEither (k l : Separator) (cs : List Char) : Except ScanFault Timestamp :=
  match Timestamp.scan k cs with
  | .ok t => .ok t
  | .error _ => Timestamp.scan l cs

theorem scanEither_eq_ok_iff {k l : Separator} {cs : List Char} {t : Timestamp} :
    scanEither k l cs = .ok t ↔ Timestamp.scan k cs = .ok t ∨ Timestamp.scan l cs = .ok t := by
  unfold scanEither
  split
  next u fits =>
    constructor
    · exact fun h => .inl (fits.trans h)
    · rintro (hk | hl)
      · exact fits.symm.trans hk
      · cases separator_unique fits hl
        exact fits.symm.trans hl
  next x misfit => simp [misfit]

/-! Writing one separator for the other -/

/-- The one character that is written for a separator. -/
def Separator.mark : Separator → Char
  | .blank => ' '
  | .letterT => 'T'

/-- What stands between a date and the time behind it: all the blanks, or the letter. -/
def Separator.Covers : Separator → List Char → List Char → Prop
  | .blank, between, time =>
      (∀ c ∈ between, Text.isBlank c = true) ∧ ∀ c ∈ time.head?, Text.isBlank c = false
  | .letterT, between, _ => between = ['T']

/-- A text cut into the date, which is what the scan of a day takes, the separator and the time. -/
structure Parts (k : Separator) (text date between time : List Char) : Prop where
  whole : text = date ++ (between ++ time)
  day : ∃ day, scanDay text = .ok (day, between ++ time)
  separator : k.Covers between time

section Parts

variable {k : Separator} {text date between time : List Char}

theorem Separator.Covers.unique {between' time' : List Char} (covers : k.Covers between time)
    (covers' : k.Covers between' time') (same : between ++ time = between' ++ time') :
    between = between' ∧ time = time' := by
  cases k with
  | blank =>
      have behind := congrArg Text.trimLeft same
      rw [Text.trimLeft_run covers.1 covers.2, Text.trimLeft_run covers'.1 covers'.2] at behind
      subst behind
      exact ⟨List.append_cancel_right same, rfl⟩
  | letterT =>
      cases covers
      cases covers'
      exact ⟨rfl, (List.cons.inj same).2⟩

theorem Parts.unique {date' between' time' : List Char} (parts : Parts k text date between time)
    (parts' : Parts k text date' between' time') :
    date = date' ∧ between = between' ∧ time = time' := by
  obtain ⟨day, hday⟩ := parts.day
  obtain ⟨day', hday'⟩ := parts'.day
  have behind := (Prod.mk.inj (Except.ok.inj (hday.symm.trans hday'))).2
  have cut := parts.whole.symm.trans parts'.whole
  rw [← behind] at cut
  exact ⟨List.append_cancel_right cut, parts.separator.unique parts'.separator behind⟩

/-- What is read behind a day is the separator and the time. -/
theorem covers_of_scan {rest : List Char} {day : Int × Nat × Nat} {t : Timestamp}
    (separator : k.scan rest = .ok time) (read : scanTime day time = .ok t) (back : List Char) :
    ∃ between, rest = between ++ time ∧ k.Covers between (time ++ back) := by
  cases k with
  | blank =>
      cases separator
      obtain ⟨c, more, starts, digit⟩ := scanTime_starts read
      rw [Text.trimLeft_trimLeft] at starts
      refine ⟨rest.takeWhile Text.isBlank, List.takeWhile_append_dropWhile.symm,
        fun c hc => List.mem_takeWhile_imp hc, ?_⟩
      rw [starts]
      simpa using Text.isBlank_of_isDigit digit
  | letterT => exact ⟨['T'], scanMark_eq_ok_iff.mp separator, rfl⟩

theorem solid_of_scanTime {day : Int × Nat × Nat} {t : Timestamp}
    (read : scanTime day time = .ok t) : ∃ c ∈ time, Text.isBlank c = false := by
  obtain ⟨c, more, starts, digit⟩ := scanTime_starts read
  have mem : c ∈ Text.trimLeft time := starts ▸ List.mem_cons_self
  exact ⟨c, (List.dropWhile_sublist _).mem mem, Text.isBlank_of_isDigit digit⟩

/-- A text that fits a separator has its parts, and the time is read from the last of them, blanks
behind it dropped. -/
theorem exists_parts {t : Timestamp} (h : Timestamp.scan k (Text.trim text) = .ok t) :
    ∃ date between time day, Parts k text date between time ∧
      (∀ rest, Replaces rest (between ++ time) → scanDay (date ++ rest) = .ok (day, rest)) ∧
      (∃ c ∈ time, Text.isBlank c = false) ∧
      scanTime day (Text.dropTail Text.isBlank time) = .ok t := by
  obtain ⟨day, rest, time, hday, separator, read⟩ := scan_eq_ok_iff.mp (scan_trim.mp h)
  obtain ⟨date, kept, again⟩ := local_scanDay _ _ hday
  obtain ⟨c, mem, solid⟩ := solid_of_scanTime read
  obtain ⟨back, whole⟩ : ∃ back, Text.dropTail Text.isBlank text ++ back = text :=
    List.rdropWhile_prefix Text.isBlank text
  obtain ⟨between, rfl, covers⟩ := covers_of_scan separator read back
  have cut : date ++ (between ++ (time ++ back)) = text := by
    rw [← whole, kept, List.append_assoc, List.append_assoc]
  -- the blanks at the end of the text are those at the end of its time
  have solid' : ∃ c ∈ time ++ back, Text.isBlank c = false :=
    ⟨c, List.mem_append_left back mem, solid⟩
  have trimmed : Text.dropTail Text.isBlank (time ++ back) = time := by
    rw [← cut, ← List.append_assoc, Text.dropTail_append_of_mem _ solid', List.append_assoc] at kept
    exact List.append_cancel_left (List.append_cancel_left kept)
  have starts : (between ++ (time ++ back)).head? = (between ++ time).head? := by
    rw [← List.append_assoc]
    exact List.head?_append_of_ne_nil _ (by simp [List.ne_nil_of_mem mem])
  refine ⟨date, between, time ++ back, day, ⟨cut.symm, ⟨day, ?_⟩, covers⟩, ?_, solid', ?_⟩
  · rw [← cut]
    exact again _ (.inl starts)
  · intro rest replaces
    apply again rest
    rwa [Replaces, ← starts]
  · rw [trimmed]
    exact read

/-- Behind the day, either separator may stand before the time. -/
theorem scan_mark {day : Int × Nat × Nat} {t : Timestamp} (l : Separator)
    (hday : ∀ rest, Stops rest → scanDay (date ++ rest) = .ok (day, rest))
    (solid : ∃ c ∈ time, Text.isBlank c = false)
    (read : scanTime day (Text.dropTail Text.isBlank time) = .ok t) :
    Timestamp.scan l (Text.trim (date ++ l.mark :: time)) = .ok t := by
  have trimmed : Text.dropTail Text.isBlank (date ++ l.mark :: time) =
      date ++ l.mark :: Text.dropTail Text.isBlank time := by
    have behind := Text.dropTail_append_of_mem (date ++ [l.mark]) solid
    simpa using behind
  have stops (rest : List Char) : Stops (l.mark :: rest) := by
    cases l <;> simp [Stops, Separator.mark]
  rw [scan_trim, trimmed, scan_eq_ok_iff]
  generalize Text.dropTail Text.isBlank time = time' at read
  cases l with
  | blank =>
      refine ⟨day, _, Text.trimLeft time', hday _ (stops _), ?_, ?_⟩
      · exact congrArg Except.ok (List.dropWhile_cons_of_pos rfl)
      · rw [scanTime_trimLeft, read]
  | letterT => exact ⟨day, _, time', hday _ (stops _), rfl, read⟩

end Parts

end Calendar

namespace Timestamp

open Calendar

theorem parse_eq (s : String) : parse s = scanEither .blank .letterT (Text.trim s.toList) := rfl

theorem parse_of_scan {k : Separator} {s : String} {t : Timestamp}
    (h : scan k (Text.trim s.toList) = .ok t) : parse s = .ok t := by
  rw [parse_eq, scanEither_eq_ok_iff]
  cases k with
  | blank => exact .inl h
  | letterT => exact .inr h

/-- At most one separator fits a text, so it does not matter which is tried first. A text that is
read has one date, separator and time, and with a blank or the letter in the separator's place it
is read as the same timestamp. -/
theorem parse_separated (s : String) :
    (∀ k l t u, scan k (Text.trim s.toList) = .ok t → scan l (Text.trim s.toList) = .ok u →
      k = l) ∧
    (∀ t, parse s = .ok t ↔ scanEither .letterT .blank (Text.trim s.toList) = .ok t) ∧
    ∀ t, parse s = .ok t → ∃ k, scan k (Text.trim s.toList) = .ok t ∧
      (∃ date between time, Parts k s.toList date between time) ∧
      ∀ date between time, Parts k s.toList date between time → ∀ l : Separator,
        parse (String.ofList (date ++ l.mark :: time)) = .ok t := by
  refine ⟨fun k l t u => separator_unique, fun t => ?_, fun t h => ?_⟩
  · rw [parse_eq, scanEither_eq_ok_iff, scanEither_eq_ok_iff]
    exact Or.comm
  · obtain ⟨k, fits⟩ : ∃ k, scan k (Text.trim s.toList) = .ok t := by
      rw [parse_eq, scanEither_eq_ok_iff] at h
      exact h.elim (⟨.blank, ·⟩) (⟨.letterT, ·⟩)
    obtain ⟨date, between, time, day, parts, hday, solid, read⟩ := exists_parts fits
    refine ⟨k, fits, ⟨date, between, time, parts⟩, ?_⟩
    intro date' between' time' parts' l
    obtain ⟨rfl, rfl, rfl⟩ := parts.unique parts'
    apply parse_of_scan (k := l)
    rw [String.toList_ofList]
    exact scan_mark l (fun rest stops => hday rest (.inr stops)) solid read

/-- The separator of this text is an empty run of blanks, and its day ends after two digits. -/
theorem parse_separated_unspaced :
    let s := "2020-02-2914:13:38\t"
    let date := "2020-02-29".toList
    let time := "14:13:38\t".toList
    let t : Timestamp :=
      ⟨⟨2020, 2, 29, by decide⟩, 14, 13, 38, by decide, by decide, by decide⟩
    parse s = .ok t ∧ Parts .blank s.toList date [] time ∧
      ∀ l : Separator, parse (String.ofList (date ++ l.mark :: time)) = .ok t := by
  intro s date time t
  have read : parse s = .ok t := by decide
  have parts : Parts .blank s.toList date [] time :=
    ⟨by decide, ⟨(2020, 2, 29), by decide⟩, List.forall_mem_nil _, by rintro c ⟨⟩; rfl⟩
  obtain ⟨one, -, separated⟩ := parse_separated s
  obtain ⟨k, fits, -, replaced⟩ := separated t read
  have blank : k = .blank := one k .blank t t fits (by decide)
  subst blank
  exact ⟨read, parts, replaced date [] time parts⟩

end Timestamp
end EntityClient
