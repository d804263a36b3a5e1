import EntityClient.Proofs.Calendar.Forms

/-!
A scan takes a day from the front of a text, and takes the same day whatever stands behind it, if
that starts as the rest of the text did or with no digit. Every step of the scan has this property,
and steps in a row have it when each of them has.
-/

namespace EntityClient
namespace Calendar

/-- Text that may stand for `rest` behind a number: it starts alike, or with no digit. -/
def Replaces (rest' rest : List Char) : Prop := rest'.head? = rest.head? ∨ Stops rest'

section Local

variable {R S : List Char → List Char → Prop} {rest rest' : List Char}

theorem Replaces.append (replaces : Replaces rest' rest) (front : List Char) :
    Replaces (front ++ rest') (front ++ rest) := by
  cases front with
  | nil => exact replaces
  | cons c front => exact .inl rfl

theorem Replaces.stops (replaces : Replaces rest' rest) (stops : Stops rest) : Stops rest' := by
  cases replaces with
  | inl same => rwa [Stops, same]
  | inr stops' => exact stops'

/-- The step from a text to what it leaves takes a front, and takes it before other text too. -/
def Local (R : List Char → List Char → Prop) : Prop :=
  ∀ cs rest, R cs rest → ∃ front, cs = front ++ rest ∧
    ∀ rest', Replaces rest' rest → R (front ++ rest') rest'

/-- The front that such a step takes is a word without blanks. -/
def Word (R : List Char → List Char → Prop) : Prop :=
  ∀ cs rest, R cs rest → ∃ front, front ≠ [] ∧ (∀ c ∈ front, Text.isBlank c = false) ∧
    cs = front ++ rest ∧ ∀ rest', Replaces rest' rest → R (front ++ rest') rest'

theorem Local.comp (hR : Local R) (hS : Local S) : Local (Relation.Comp R S) := by
  rintro cs rest ⟨middle, first, second⟩
  obtain ⟨front, rfl, again⟩ := hR cs middle first
  obtain ⟨back, rfl, again'⟩ := hS middle rest second
  refine ⟨front ++ back, (List.append_assoc front back rest).symm, fun rest' replaces => ?_⟩
  rw [List.append_assoc]
  exact ⟨back ++ rest', again _ (replaces.append back), again' rest' replaces⟩

/-- Blanks before a word are taken with it. -/
theorem Word.afterBlanks (hR : Word R) : Local fun cs rest => R (Text.trimLeft cs) rest := by
  intro cs rest step
  obtain ⟨front, ne, solid, taken, again⟩ := hR _ rest step
  have blank : ∀ c ∈ cs.takeWhile Text.isBlank, Text.isBlank c = true :=
    fun c hc => List.mem_takeWhile_imp hc
  refine ⟨cs.takeWhile Text.isBlank ++ front, ?_, fun rest' replaces => ?_⟩
  · rw [List.append_assoc, ← taken]
    exact List.takeWhile_append_dropWhile.symm
  · have word : Text.trimLeft (cs.takeWhile Text.isBlank ++ front ++ rest') = front ++ rest' := by
      rw [List.append_assoc, Text.trimLeft, List.dropWhile_append_of_pos blank]
      exact Text.trimLeft_append rest' ne solid
    change R (Text.trimLeft (cs.takeWhile Text.isBlank ++ front ++ rest')) rest'
    rw [word]
    exact again rest' replaces

theorem Local.and (hR : Local R) (P : Prop) : Local fun cs rest => R cs rest ∧ P := by
  intro cs rest ⟨step, holds⟩
  obtain ⟨front, taken, again⟩ := hR cs rest step
  exact ⟨front, taken, fun rest' replaces => ⟨again rest' replaces, holds⟩⟩

end Local

section Numbers

variable {most low high n : Nat} {digits rest rest' : List Char} {year : Int}

theorem Run.replace (run : Run most digits rest) (replaces : Replaces rest' rest) :
    Run most digits rest' :=
  ⟨run.ne_nil, run.isDigit, run.length_le, run.stops.imp_right replaces.stops⟩

theorem word_scanNumber (pos : 0 < most) :
    Word fun cs rest => scanNumber most cs = .ok (n, rest) := by
  intro cs rest h
  obtain ⟨digits, taken, run, value⟩ := (scanNumber_eq_ok_iff pos).mp h
  refine ⟨digits, run.ne_nil, run.isBlank, taken, fun rest' replaces => ?_⟩
  exact (scanNumber_eq_ok_iff pos).mpr ⟨digits, rfl, run.replace replaces, value⟩

/-- The digits behind a sign are as many as there are, before other text too. -/
theorem word_scanNumber_length : Word fun cs rest => scanNumber cs.length cs = .ok (n, rest) := by
  intro cs rest h
  obtain ⟨digits, taken, run, stops, value⟩ := scanNumber_length_eq_ok_iff.mp h
  refine ⟨digits, run.ne_nil, run.isBlank, taken, fun rest' replaces => ?_⟩
  have stops' : Stops rest' := replaces.stops stops
  exact scanNumber_length_eq_ok_iff.mpr
    ⟨digits, rfl, ⟨run.ne_nil, run.isDigit, by simp, .inr stops'⟩, stops', value⟩

theorem local_scanField : Local fun cs rest => scanField low high cs = .ok (n, rest) := by
  simp only [scanField_eq_ok_iff]
  exact (word_scanNumber (by decide)).afterBlanks.and _

theorem word_yearForm : Word (YearForm year) := by
  intro cs rest form
  cases form with
  | negative number =>
      obtain ⟨front, -, solid, rfl, again⟩ := word_scanNumber_length _ _ number
      exact ⟨'-' :: front, List.cons_ne_nil _ _, List.forall_mem_cons.mpr ⟨rfl, solid⟩, rfl,
        fun rest' replaces => .negative (again rest' replaces)⟩
  | positive number =>
      obtain ⟨front, -, solid, rfl, again⟩ := word_scanNumber_length _ _ number
      exact ⟨'+' :: front, List.cons_ne_nil _ _, List.forall_mem_cons.mpr ⟨rfl, solid⟩, rfl,
        fun rest' replaces => .positive (again rest' replaces)⟩
  | plain number =>
      obtain ⟨front, ne, solid, taken, again⟩ := word_scanNumber (by decide) _ _ number
      exact ⟨front, ne, solid, taken, fun rest' replaces => .plain (again rest' replaces)⟩

theorem local_scanYear : Local fun cs rest => scanYear cs = .ok (year, rest) := by
  simp only [scanYear_eq_ok_iff]
  exact word_yearForm.afterBlanks.and _

end Numbers

theorem local_scanMark {mark : Char} : Local fun cs rest => scanMark mark cs = .ok rest := by
  intro cs rest h
  cases scanMark_eq_ok_iff.mp h
  exact ⟨[mark], rfl, fun rest' _ => scanMark_eq_ok_iff.mpr rfl⟩

/-- The day of a text does not depend on what stands behind it. -/
theorem local_scanDay {day : Int × Nat × Nat} :
    Local fun cs rest => scanDay cs = .ok (day, rest) := by
  simp only [scanDay_eq_ok_iff]
  exact local_scanYear.comp (local_scanMark.comp (local_scanField.comp
    (local_scanMark.comp local_scanField)))

end Calendar
end EntityClient
