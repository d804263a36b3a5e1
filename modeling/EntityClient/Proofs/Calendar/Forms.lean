import EntityClient.Calendar.Scan
import EntityClient.Proofs.Outcome
import EntityClient.Proofs.Text.Numeral
import Mathlib.Logic.Relation

/-!
What the steps of a scan accept, and what they leave. A number is a run of digits that no other
digit follows, unless it has as many as it may have; a day is numbers and marks in a row, and a
timestamp a day, a separator and a time.
-/

namespace EntityClient
namespace Calendar

/-- No digit comes next. -/
def Stops (rest : List Char) : Prop := ∀ c ∈ rest.head?, c.isDigit = false

/-- The digits of a number in front of a text. -/
structure Run (most : Nat) (digits rest : List Char) : Prop where
  ne_nil : digits ≠ []
  isDigit : ∀ c ∈ digits, c.isDigit = true
  length_le : digits.length ≤ most
  stops : digits.length = most ∨ Stops rest

/-- The forms of a year, blanks before it apart. -/
inductive YearForm : Int → List Char → List Char → Prop where
  | negative {digits rest n} :
      scanNumber digits.length digits = .ok (n, rest) → YearForm (-(n : Int)) ('-' :: digits) rest
  | positive {digits rest n} :
      scanNumber digits.length digits = .ok (n, rest) → YearForm n ('+' :: digits) rest
  | plain {digits rest n} : scanNumber 4 digits = .ok (n, rest) → YearForm n digits rest

section Numbers

variable {most low high n : Nat} {cs digits rest : List Char} {year : Int}

theorem Run.isBlank (run : Run most digits rest) : ∀ c ∈ digits, Text.isBlank c = false :=
  fun c hc => Text.isBlank_of_isDigit (run.isDigit c hc)

/-- A run of digits is read whole, and nothing behind it. -/
theorem scanNumber_run (run : Run most digits rest) :
    scanNumber most (digits ++ rest) = .ok (Nat.ofDigitChars 10 digits 0, rest) := by
  obtain ⟨ne, all, le, stop⟩ := run
  have behind : (rest.take (most - digits.length)).takeWhile Char.isDigit = [] := by
    cases stop with
    | inl full => simp [full]
    | inr stops =>
        cases rest with
        | nil => simp
        | cons c cs =>
            have hc : c.isDigit = false := stops c rfl
            cases most - digits.length with
            | zero => rfl
            | succ n => simp [hc]
  have whole : ((digits ++ rest).take most).takeWhile Char.isDigit = digits := by
    rw [List.take_append, List.take_of_length_le le, List.takeWhile_append_of_pos all, behind,
      List.append_nil]
  cases digits with
  | nil => exact absurd rfl ne
  | cons c cs =>
      have hc : c.isDigit = true := all c List.mem_cons_self
      rw [List.cons_append, scanNumber, if_pos hc, ← List.cons_append]
      simp only [whole, List.drop_left]

/-- The longest run of at most so many digits in front of a text. -/
theorem takeDigits (most : Nat) (cs : List Char) :
    let digits := (cs.take most).takeWhile Char.isDigit
    cs = digits ++ cs.drop digits.length ∧ (∀ c ∈ digits, c.isDigit = true) ∧
      digits.length ≤ most ∧ (digits.length = most ∨ Stops (cs.drop digits.length)) := by
  induction cs generalizing most with
  | nil => simp [Stops]
  | cons c cs ih =>
      cases most with
      | zero => simp
      | succ most =>
          by_cases hc : c.isDigit = true
          · obtain ⟨taken, all, le, stop⟩ := ih most
            simp only [List.take_succ_cons, List.takeWhile_cons_of_pos hc, List.length_cons,
              List.drop_succ_cons, List.cons_append, List.cons.injEq, true_and,
              List.forall_mem_cons]
            exact ⟨taken, ⟨hc, all⟩, by omega, by simpa using stop⟩
          · simp [hc, Stops]

theorem scanNumber_eq_ok_iff (pos : 0 < most) :
    scanNumber most cs = .ok (n, rest) ↔
      ∃ digits, cs = digits ++ rest ∧ Run most digits rest ∧ Nat.ofDigitChars 10 digits 0 = n := by
  constructor
  · intro h
    obtain ⟨taken, all, le, stop⟩ := takeDigits most cs
    cases cs with
    | nil => cases h
    | cons c cs =>
        rw [scanNumber] at h
        split at h
        next hc =>
          cases h
          refine ⟨_, taken, ⟨?_, all, le, stop⟩, rfl⟩
          obtain ⟨k, rfl⟩ := Nat.exists_eq_add_one.mpr pos
          simp [hc]
        next => cases h
  · rintro ⟨digits, rfl, run, rfl⟩
    exact scanNumber_run run

/-- Where every character may be a digit, what is left of the text starts with none. -/
theorem scanNumber_length_eq_ok_iff :
    scanNumber cs.length cs = .ok (n, rest) ↔ ∃ digits, cs = digits ++ rest ∧
      Run cs.length digits rest ∧ Stops rest ∧ Nat.ofDigitChars 10 digits 0 = n := by
  constructor
  · intro h
    have pos : 0 < cs.length := by
      cases cs with
      | nil => cases h
      | cons c cs => exact Nat.succ_pos _
    obtain ⟨digits, rfl, run, value⟩ := (scanNumber_eq_ok_iff pos).mp h
    refine ⟨digits, rfl, run, ?_, value⟩
    cases run.stops with
    | inl full =>
        have none : rest = [] := by simpa using full
        rw [none]
        exact nofun
    | inr stops => exact stops
  · rintro ⟨digits, rfl, run, -, rfl⟩
    exact scanNumber_run run

/-- A number is held against its range as soon as it is read. -/
theorem ranged_eq_ok_iff {α : Type} {P : α → Prop} [DecidablePred P]
    {number : Except ScanFault (α × List Char)} {x : α} :
    (number >>= fun (x, rest) => if P x then .ok (x, rest) else .error .outOfRange) =
      .ok (x, rest) ↔ number = .ok (x, rest) ∧ P x := by
  constructor
  · intro h
    obtain ⟨⟨y, left⟩, read, h⟩ := exists_of_bind_ok h
    dsimp only at h
    split at h
    next range =>
      cases h
      exact ⟨read, range⟩
    next => cases h
  · rintro ⟨read, range⟩
    rw [read]
    exact if_pos range

theorem scanField_eq_ok_iff :
    scanField low high cs = .ok (n, rest) ↔
      scanNumber 2 (Text.trimLeft cs) = .ok (n, rest) ∧ low ≤ n ∧ n ≤ high :=
  ranged_eq_ok_iff (P := fun n => low ≤ n ∧ n ≤ high)

/-- A year is counted from its number, and held against its range then. -/
theorem counted_eq_ok_iff (f : Nat → Int) {number : Except ScanFault (Nat × List Char)} :
    ((number.map fun (n, rest) => (f n, rest)) >>= fun (year, rest) =>
        if -2147483648 ≤ year ∧ year < 2147483648 then .ok (year, rest) else .error .outOfRange) =
      .ok (year, rest) ↔
      (∃ n, number = .ok (n, rest) ∧ f n = year) ∧ -2147483648 ≤ year ∧ year < 2147483648 := by
  rw [ranged_eq_ok_iff (P := fun year : Int => -2147483648 ≤ year ∧ year < 2147483648)]
  apply and_congr_left
  intro _
  cases number with
  | error x => simp [Except.map]
  | ok read => simp [Except.map, Prod.ext_iff, and_comm]

theorem scanYear_eq_ok_iff :
    scanYear cs = .ok (year, rest) ↔
      YearForm year (Text.trimLeft cs) rest ∧ -2147483648 ≤ year ∧ year < 2147483648 := by
  have sign {c : Char} {digits : List Char} {n : Nat} (h : c.isDigit = false) :
      scanNumber 4 (c :: digits) ≠ .ok (n, rest) := by simp [scanNumber, h]
  rw [scanYear]
  generalize Text.trimLeft cs = word
  split
  next digits =>
    refine (counted_eq_ok_iff fun n => -(n : Int)).trans
      (and_congr_left fun _ => ⟨?_, fun form => ?_⟩)
    · rintro ⟨n, number, rfl⟩
      exact .negative number
    · cases form with
      | negative number => exact ⟨_, number, rfl⟩
      | plain number => exact absurd number (sign rfl)
  next digits =>
    refine (counted_eq_ok_iff fun n => (n : Int)).trans
      (and_congr_left fun _ => ⟨?_, fun form => ?_⟩)
    · rintro ⟨n, number, rfl⟩
      exact .positive number
    · cases form with
      | positive number => exact ⟨_, number, rfl⟩
      | plain number => exact absurd number (sign rfl)
  next minus plus =>
    refine (counted_eq_ok_iff fun n => (n : Int)).trans
      (and_congr_left fun _ => ⟨?_, fun form => ?_⟩)
    · rintro ⟨n, number, rfl⟩
      exact .plain number
    · cases form with
      | negative number => exact absurd rfl (minus _)
      | positive number => exact absurd rfl (plus _)
      | plain number => exact ⟨_, number, rfl⟩

end Numbers

variable {cs rest : List Char}

theorem scanMark_eq_ok_iff {mark : Char} : scanMark mark cs = .ok rest ↔ cs = mark :: rest := by
  cases cs with
  | nil => simp [scanMark]
  | cons c cs =>
      rw [scanMark, List.cons_eq_cons]
      split
      next same => simp [same]
      next other => simp [other]

theorem scanDay_eq_ok_iff {day : Int × Nat × Nat} :
    scanDay cs = .ok (day, rest) ↔
      Relation.Comp (fun cs rest => scanYear cs = .ok (day.1, rest))
        (Relation.Comp (fun cs rest => scanMark '-' cs = .ok rest)
          (Relation.Comp (fun cs rest => scanField 1 12 cs = .ok (day.2.1, rest))
            (Relation.Comp (fun cs rest => scanMark '-' cs = .ok rest)
              fun cs rest => scanField 1 31 cs = .ok (day.2.2, rest)))) cs rest := by
  rw [scanDay]
  constructor
  · intro h
    obtain ⟨⟨year, a⟩, hyear, h⟩ := exists_of_bind_ok h
    obtain ⟨b, hb, h⟩ := exists_of_bind_ok h
    obtain ⟨⟨month, c⟩, hmonth, h⟩ := exists_of_bind_ok h
    obtain ⟨d, hd, h⟩ := exists_of_bind_ok h
    obtain ⟨⟨date, e⟩, hdate, h⟩ := exists_of_bind_ok h
    cases h
    exact ⟨a, hyear, b, hb, c, hmonth, d, hd, hdate⟩
  · rintro ⟨a, hyear, b, hb, c, hmonth, d, hd, hdate⟩
    simp only [hyear, hb, hmonth, hd, hdate, bind, Except.bind]
    rfl

/-- What is read behind the separator of a timestamp. -/
def scanTime (day : Int × Nat × Nat) (cs : List Char) : Except ScanFault Timestamp := do
  let (hour, cs) ← scanHour cs
  let (minute, cs) ← scanMinute (← scanMark ':' cs)
  let (second, cs) ← scanSecond (← scanMark ':' cs)
  scanEnd cs
  timestampOf (← dateOf day) hour minute second

theorem scan_eq_ok_iff {k : Separator} {t : Timestamp} :
    Timestamp.scan k cs = .ok t ↔ ∃ day rest time, scanDay cs = .ok (day, rest) ∧
      k.scan rest = .ok time ∧ scanTime day time = .ok t := by
  have split : Timestamp.scan k cs =
      scanDay cs >>= fun read => k.scan read.2 >>= scanTime read.1 := rfl
  rw [split]
  constructor
  · intro h
    obtain ⟨⟨day, rest⟩, hday, h⟩ := exists_of_bind_ok h
    obtain ⟨time, htime, h⟩ := exists_of_bind_ok h
    exact ⟨day, rest, time, hday, htime, h⟩
  · rintro ⟨day, rest, time, hday, htime, h⟩
    simp only [hday, htime, bind, Except.bind, h]

end Calendar
end EntityClient
