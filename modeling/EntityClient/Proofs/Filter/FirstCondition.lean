import EntityClient.Proofs.Filter.Bracketing

/-!
A clause keeps the first condition it is given, and that it was negated once. Negations and
conditions may be called in any order and any number: a later condition is refused and changes
nothing, and the text shows the first one, in `NOT (...)` if there was a negation. A clause started
on a draft takes its condition at once, and is the clause that the same calls make.
-/

namespace EntityClient.Filter

def Condition.render (property : String) (a : Condition) : String := String.ofList (a.text property)

namespace Clause

/-- A call on a clause. -/
inductive Call where
  | negate
  | set (condition : Condition)
deriving DecidableEq, Repr

def Call.condition? : Call → Option Condition
  | .negate => none
  | .set a => some a

/-- The first condition that the calls set. -/
def firstCondition (calls : List Call) : Option Condition := calls.findSome? Call.condition?

/-- The clause after a call. A call that is refused leaves it. -/
def take (c : Clause) : Call → Clause
  | .negate => c.negate
  | .set a =>
      match c.set a with
      | .ok d => d
      | .error _ => c

def takeAll (c : Clause) (calls : List Call) : Clause := calls.foldl take c

theorem take_eq (c : Clause) (call : Call) :
    c.take call =
      ⟨c.property, c.negated || decide (call = .negate), c.condition.or call.condition?⟩ := by
  obtain ⟨property, negated, condition⟩ := c
  cases call with
  | negate => simp [take, negate, Call.condition?]
  | set a => cases condition <;> simp [take, set, Call.condition?]

/-- A condition that comes later finds one there already. -/
theorem takeAll_eq (c : Clause) (calls : List Call) :
    c.takeAll calls =
      ⟨c.property, c.negated || decide (.negate ∈ calls),
        c.condition.or (firstCondition calls)⟩ := by
  induction calls generalizing c with
  | nil => simp [takeAll, firstCondition]
  | cons call rest ih =>
      change (c.take call).takeAll rest = _
      rw [ih, take_eq]
      cases call with
      | negate => simp [firstCondition, Call.condition?, List.findSome?_cons]
      | set a => simp [firstCondition, Call.condition?, List.findSome?_cons]

theorem render_of_none {c : Clause} (none : c.condition = none) :
    c.render = .error (.missing c.property) := by
  rw [render, text, none]
  rfl

theorem render_of_some {c : Clause} {a : Condition} (some : c.condition = some a) :
    c.render = .ok (if c.negated then "NOT (" ++ a.render c.property ++ ")"
      else a.render c.property) := by
  rw [render, text, some]
  apply congrArg Except.ok
  rw [textWith, Condition.render]
  split
  · rw [String.ofList_append, String.ofList_append]
    rfl
  · rfl

/-- How a clause of a property stands when this is the first condition it was given, and when it
was negated or not. -/
structure Keeps (property : String) (first : Option Condition) (negated : Bool) (c : Clause) :
    Prop where
  accepts : ∀ a d, c.set a = .ok d ↔ first = none ∧ d = { c with condition := some a }
  refuses : ∀ a x, c.set a = .error x ↔ first ≠ none ∧ x = .alreadySet property
  unchanged : ∀ a, first ≠ none → c.take (.set a) = c
  missing : ∀ x, c.render = .error x ↔ first = none ∧ x = .missing property
  shows : ∀ t, c.render = .ok t ↔ ∃ a, first = some a ∧
    t = if negated then "NOT (" ++ a.render property ++ ")" else a.render property

theorem keeps (c : Clause) : Keeps c.property c.condition c.negated c := by
  cases h : c.condition with
  | none =>
      have fresh (a : Condition) : c.set a = .ok { c with condition := some a } := by simp [set, h]
      have silent := render_of_none h
      exact {
        accepts := by simp [fresh, eq_comm]
        refuses := by simp [fresh]
        unchanged := fun a absent => absurd rfl absent
        missing := by simp [silent, eq_comm]
        shows := by simp [silent] }
  | some b =>
      have refused (a : Condition) : c.set a = .error (.alreadySet c.property) := by simp [set, h]
      have shown := render_of_some h
      exact {
        accepts := by simp [refused]
        refuses := by simp [refused, eq_comm]
        unchanged := fun a _ => by rw [take, refused]
        missing := by simp [shown]
        shows := fun t => by
          rw [shown, Except.ok.injEq, eq_comm]
          simp only [Option.some.injEq, exists_eq_left'] }

theorem keeps_takeAll (property : String) (calls : List Call) :
    Keeps property (firstCondition calls) (decide (.negate ∈ calls))
      (takeAll { property } calls) := by
  have kept := keeps (takeAll { property } calls)
  simpa only [takeAll_eq, Bool.false_or, Option.none_or] using kept

end Clause

namespace Query

theorem render_clause (j : Connective) (c : Clause) :
    (Query.clause j c .nil).render = c.render := by
  rw [render, text, items, Clause.render]
  cases c.text with
  | error x => rfl
  | ok t =>
      change Except.ok (String.ofList (t ++ [])) = Except.ok (String.ofList t)
      rw [List.append_nil]

end Query

namespace Clause

/-- A condition on a draft adds the clause that calls with this first condition make, if these
negate it as well. -/
theorem take_condition (property : String) {calls : List Call} {a : Condition} {negations : Nat}
    (first : firstCondition calls = some a) (negated : 0 < negations ↔ .negate ∈ calls)
    (d : Draft) (j : Connective) :
    d.take (.condition j property negations a) = d.push j (takeAll { property } calls) := by
  have clause : takeAll { property } calls = ⟨property, 0 < negations, some a⟩ := by
    simp only [takeAll_eq, first, negated, Bool.false_or, Option.none_or]
  rw [Draft.take_eq, clause]
  rfl

/-- After any calls, a clause of the property stands as the first condition and the presence of a
negation say, and so all such calls give one text. The condition that a draft takes for the
property, negated as often as one likes, gives this text too. -/
theorem first_condition_shown (property : String) (calls : List Call) :
    let c := takeAll { property } calls
    Keeps property (firstCondition calls) (decide (.negate ∈ calls)) c ∧
    (∀ other, firstCondition other = firstCondition calls →
      (.negate ∈ other ↔ .negate ∈ calls) → (takeAll { property } other).render = c.render) ∧
    ∀ a negations, firstCondition calls = some a → (0 < negations ↔ .negate ∈ calls) → ∀ j,
      (∀ d : Draft, d.take (.condition j property negations a) = d.push j c) ∧
      (Draft.take {} (.condition j property negations a)).render = c.render := by
  intro c
  refine ⟨keeps_takeAll property calls, ?_, ?_⟩
  · intro other first negated
    apply congrArg render
    simp only [c, takeAll_eq, first, negated]
  · intro a negations first negated j
    have added := take_condition property first negated
    refine ⟨fun d => added d j, ?_⟩
    rw [added {} j]
    exact Query.render_clause j c

/-- The second condition is refused and the negation after it counts. -/
theorem first_condition_shown_refused :
    let calls : List Call := [.set (.startsWith "Ma"), .set .isEmpty, .negate]
    let c := takeAll { property := "Name" } calls
    c.set .isEmpty = .error (.alreadySet "Name") ∧ c.take (.set .isEmpty) = c ∧
      c.render = .ok "NOT (Name FILTER \"Ma\")" ∧
      (takeAll { property := "Name" } [.negate, .set (.startsWith "Ma")]).render = c.render ∧
      (Draft.take {} (.condition .or "Name" 2 (.startsWith "Ma"))).render = c.render := by
  intro calls c
  obtain ⟨kept, same, drafted⟩ := first_condition_shown "Name" calls
  have first : firstCondition calls = some (.startsWith "Ma") := rfl
  have text : (Condition.startsWith "Ma").render "Name" = "Name FILTER \"Ma\"" := by decide
  refine ⟨(kept.refuses _ _).mpr ⟨nofun, rfl⟩, kept.unchanged _ nofun,
    (kept.shows _).mpr ⟨_, first, ?_⟩, same _ rfl (by decide),
    (drafted _ 2 first (by decide) .or).2⟩
  rw [text]
  decide

end Clause
end EntityClient.Filter
