import EntityClient.Proofs.Filter.Bracketing
import EntityClient.Proofs.Filter.Readability
import EntityClient.Proofs.Outcome

/-!
Clauses without a condition. Rendering visits the clauses from left to right, into the groups and
out of them again, and stops at the first one that has no condition; what stands around that clause
makes no difference. A query without such a clause has a text, and the text is empty only where the
query holds no clause at all.
-/

namespace EntityClient.Filter

namespace Clause

def Incomplete (c : Clause) : Prop := ¬ c.Complete

instance : DecidablePred Incomplete := fun c => inferInstanceAs (Decidable (¬ c.Complete))

theorem text_of_incomplete {c : Clause} (hc : c.Incomplete) :
    c.text = .error (.missing c.property) := by
  have none : c.condition = none := Option.not_isSome_iff_eq_none.mp hc
  rw [text, none]

theorem shown_ne_nil {c : Clause} (hc : c.Complete) : c.shown ≠ [] := by
  obtain ⟨a, ha⟩ := Option.isSome_iff_exists.mp hc
  rw [shown_of_condition ha]
  split
  · simp
  · simp [Condition.text_eq]

end Clause

namespace Query

variable {q : Query} {c : Clause}

theorem every_iff_not_incomplete :
    q.Every Clause.Complete ↔ ∀ c ∈ q.clauses.map Prod.snd, ¬ c.Incomplete := by
  simp only [Every, Clause.Incomplete, not_not]

/-- The groups before the clause show their items, and those around it do not get to theirs. -/
theorem items_of_first (first : First Clause.Incomplete (q.clauses.map Prod.snd) c) :
    q.items = .error (.missing c.property) := by
  induction q with
  | nil => exact absurd first not_first_nil
  | clause j d rest ih =>
      rw [clauses, List.map_cons] at first
      cases first_cons.mp first with
      | inl here =>
          obtain ⟨hd, rfl⟩ := here
          rw [items, Clause.text_of_incomplete hd]
          rfl
      | inr later =>
          obtain ⟨hd, later⟩ := later
          rw [items, Clause.text_of_complete (not_not.mp hd), ih later]
          rfl
  | group j inner rest ihinner ih =>
      rw [clauses, List.map_append] at first
      cases first_append.mp first with
      | inl within =>
          rw [items, ihinner within]
          rfl
      | inr later =>
          obtain ⟨hinner, later⟩ := later
          rw [items, items_of_complete (every_iff_not_incomplete.mpr hinner), ih later]
          rfl

theorem render_of_first (first : First Clause.Incomplete (q.clauses.map Prod.snd) c) :
    q.render = .error (.missing c.property) := by
  rw [render, text, items_of_first first]
  rfl

theorem reduce_of_no_clauses (none : q.clauses = []) : q.reduce = .nil := by
  induction q with
  | nil => rfl
  | clause j c rest _ => cases none
  | group j inner rest ihinner ih =>
      obtain ⟨hinner, hrest⟩ := List.append_eq_nil_iff.mp none
      rw [reduce, ihinner hinner, ih hrest]
      rfl

/-- Every item shows something, also the first one, which has no connective. -/
theorem eq_nil_of_phrase_text {first : Bool} (complete : q.Every Clause.Complete)
    (empty : (q.phrase first).text = []) : q = .nil := by
  cases q with
  | nil => rfl
  | clause j c rest =>
      have hc : c.shown ≠ [] := Clause.shown_ne_nil ((every_clause j c rest).mp complete).1
      simp [phrase, Phrase.text, hc] at empty
  | group j inner rest => simp [phrase, Phrase.text] at empty

theorem normal_text_eq_nil_iff (complete : q.Every Clause.Complete) :
    q.normal.text = [] ↔ q.clauses = [] := by
  constructor
  · intro empty
    have reduced : q.reduce = .nil :=
      eq_nil_of_phrase_text ((every_reduce q).mpr complete) empty
    have same := clauses_reduce q
    rw [reduced] at same
    exact List.map_eq_nil_iff.mp same.symm
  · intro none
    rw [normal, reduce_of_no_clauses none]
    rfl

end Query

/-- What rendering gives for clauses in this order: it fails with the first one that is incomplete,
and gives a text if there is none, an empty text just if there are no clauses. -/
structure Renders (clauses : List Clause) (outcome : Except Fault String) : Prop where
  fails : ∀ x, outcome = .error x ↔
    ∃ c, First Clause.Incomplete clauses c ∧ x = .missing c.property
  succeeds : (∃ f, outcome = .ok f) ↔ ∀ c ∈ clauses, c.Complete
  empty : outcome = .ok "" ↔ clauses = []

theorem Query.renders (q : Query) : Renders (q.clauses.map Prod.snd) q.render := by
  have decided := outcome_by_first (r := q.render) (f := fun c => .missing c.property)
    (fun complete => ⟨_, render_of_complete (every_iff_not_incomplete.mpr complete)⟩)
    fun c first => render_of_first first
  have succeeds : (∃ f, q.render = .ok f) ↔ q.Every Clause.Complete :=
    decided.2.trans every_iff_not_incomplete.symm
  refine ⟨decided.1, succeeds, ?_⟩
  rw [List.map_eq_nil_iff]
  constructor
  · intro empty
    have complete := succeeds.mp ⟨"", empty⟩
    rw [render_of_complete complete] at empty
    rw [← normal_text_eq_nil_iff complete]
    exact String.ofList_injective (Except.ok.inj empty)
  · intro none
    have complete : q.Every Clause.Complete := by simp [Every, none]
    rw [render_of_complete complete, (normal_text_eq_nil_iff complete).mpr none]

namespace Draft

/-- The clause that a step adds. -/
def Step.clause? (s : Step) : Option Clause := s.token.clause?.map Prod.snd

theorem clauses_takeAll (steps : List Step) :
    (takeAll {} steps).query.clauses.map Prod.snd = steps.filterMap Step.clause? := by
  have start : ({} : Draft).word = [] := rfl
  rw [Query.clauses_eq, word_takeAll, start, List.nil_append, Token.filterMap_balance,
    List.filterMap_map, List.map_filterMap]
  rfl

end Draft

/-- Building a query, or a draft after any steps, fails just if there is a clause without a
condition, and with the first such clause: of a query the first from left to right at any depth, of
a draft the first that a step has added. Only prepared clauses can be of that kind. Otherwise there
is a text, which is empty just if there are no clauses. -/
theorem renders_leftmost :
    (∀ q : Query, Renders (q.clauses.map Prod.snd) q.render) ∧
      ∀ steps : List Draft.Step,
        Renders (steps.filterMap Draft.Step.clause?) (Draft.takeAll {} steps).render ∧
          ∀ s ∈ steps, ∀ c, s.clause? = some c → c.Incomplete → ∃ j, s = .push j c := by
  refine ⟨Query.renders, fun steps => ⟨?_, fun s _ c added incomplete => ?_⟩⟩
  · rw [← Draft.clauses_takeAll]
    exact Query.renders _
  · cases s with
    | push j d =>
        cases added
        exact ⟨j, rfl⟩
    | condition j property negations a =>
        cases added
        exact absurd rfl incomplete
    | openGroup | closeGroup => cases added

/-- Behind an empty group and a complete clause, the first of two incomplete ones is in a group. -/
theorem renders_leftmost_nested :
    let first : Clause := { property := "b", negated := true }
    let steps : List Draft.Step := [.openGroup .or, .closeGroup, .condition .and "a" 1 .isEmpty,
      .openGroup .and, .push .or first, .closeGroup, .push .and { property := "c" }]
    (Draft.takeAll {} steps).render = .error (.missing "b") ∧
      ∃ j, Draft.Step.push .or first = .push j first := by
  intro first steps
  have leftmost : First Clause.Incomplete (steps.filterMap Draft.Step.clause?) first :=
    ⟨[{ property := "a", negated := true, condition := some .isEmpty }], [{ property := "c" }], rfl,
      by decide, nofun⟩
  refine ⟨?_, ?_⟩
  · exact ((renders_leftmost.2 steps).1.fails _).mpr ⟨first, leftmost, rfl⟩
  · exact (renders_leftmost.2 steps).2 _ (by simp [steps]) first rfl leftmost.holds

end EntityClient.Filter
