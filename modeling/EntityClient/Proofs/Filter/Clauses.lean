import EntityClient.Filter.Query

/-!
The clauses of a query at every depth, from left to right, and conditions on all of them.
-/

namespace EntityClient.Filter

def Condition.names : Condition → List String
  | .compare _ (.property n) => [n]
  | .compare _ (.value _) | .isEmpty | .oneOf _ | .startsWith _ | .contains _ => []

namespace Clause

def Complete (c : Clause) : Prop := c.condition.isSome = true

instance : DecidablePred Complete :=
  fun c => inferInstanceAs (Decidable (c.condition.isSome = true))

def names (c : Clause) : List String :=
  c.property :: (c.condition.map Condition.names).getD []

/-- No name of the clause holds a back-tick. -/
def TickFree (c : Clause) : Prop := ∀ n ∈ c.names, tick ∉ n.toList

instance : DecidablePred TickFree :=
  fun c => inferInstanceAs (Decidable (∀ n ∈ c.names, tick ∉ n.toList))

end Clause

namespace Query

def clauses : Query → List (Connective × Clause)
  | .nil => []
  | .clause j c rest => (j, c) :: rest.clauses
  | .group _ inner rest => inner.clauses ++ rest.clauses

def Every (P : Clause → Prop) (q : Query) : Prop := ∀ c ∈ q.clauses.map Prod.snd, P c

instance (P : Clause → Prop) [DecidablePred P] (q : Query) : Decidable (q.Every P) :=
  inferInstanceAs (Decidable (∀ c ∈ q.clauses.map Prod.snd, P c))

variable {P : Clause → Prop}

@[simp]
theorem clauses_append (q r : Query) : (q ++ r).clauses = q.clauses ++ r.clauses := by
  induction q with
  | nil => rfl
  | clause j c rest ih => simp [clauses, ih]
  | group j inner rest _ ih => simp [clauses, ih]

@[simp]
theorem every_clause (j : Connective) (c : Clause) (rest : Query) :
    (Query.clause j c rest).Every P ↔ P c ∧ rest.Every P := by
  simp [Every, clauses]

@[simp]
theorem every_group (j : Connective) (inner rest : Query) :
    (Query.group j inner rest).Every P ↔ inner.Every P ∧ rest.Every P := by
  simp only [Every, clauses, List.map_append, List.forall_mem_append]

end Query
end EntityClient.Filter
