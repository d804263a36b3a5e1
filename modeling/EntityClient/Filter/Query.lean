import EntityClient.Filter.Clause

/-!
Queries: ordered groups of clauses and nested groups, each with the connective that ties it to
what stands before. Rendered, a nested group that shows nothing disappears, one that shows a single
item is that item, and any other stands in parentheses; the first item shown drops its connective.
-/

namespace EntityClient.Filter

inductive Connective where
  | and
  | or
deriving DecidableEq, Repr

def Connective.keyword : Connective → List Char
  | .and => ['A', 'N', 'D']
  | .or => ['O', 'R']

/-- A group, written as its first child and the group of the others. -/
inductive Query where
  | nil
  | clause (j : Connective) (c : Clause) (rest : Query)
  | group (j : Connective) (inner rest : Query)
deriving DecidableEq, Repr, Inhabited

namespace Query

def append : Query → Query → Query
  | .nil, r => r
  | .clause j c rest, r => .clause j c (rest.append r)
  | .group j inner rest, r => .group j inner (rest.append r)

instance : Append Query := ⟨append⟩

def pushClause (q : Query) (j : Connective) (c : Clause) : Query := q ++ .clause j c .nil

def pushGroup (q : Query) (j : Connective) (inner : Query) : Query := q ++ .group j inner .nil

/-- The group of one clause. -/
def ofClause (c : Clause) : Query := .clause .and c .nil

/-- The direct children. -/
def children : Query → List (Connective × (Clause ⊕ Query))
  | .nil => []
  | .clause j c rest => (j, .inl c) :: rest.children
  | .group j inner rest => (j, .inr inner) :: rest.children

def size (q : Query) : Nat := q.children.length

def isEmpty (q : Query) : Bool := q.children.isEmpty

/-- Shown items in a row, without the first connective. -/
def joined : List (Connective × List Char) → List Char
  | [] => []
  | (_, t) :: rest => t ++ rest.flatMap fun (j, t) => ' ' :: j.keyword ++ ' ' :: t

/-- A nested group's items as items of the group around it. -/
def nested (j : Connective) : List (Connective × List Char) → List (Connective × List Char)
  | [] => []
  | [(_, t)] => [(j, t)]
  | items => [(j, '(' :: joined items ++ [')'])]

/-- The items a group shows, or the first clause without a condition. -/
def items : Query → Except Fault (List (Connective × List Char))
  | .nil => .ok []
  | .clause j c rest => do
      let t ← c.text
      return (j, t) :: (← rest.items)
  | .group j inner rest => do
      let shown ← inner.items
      return nested j shown ++ (← rest.items)

def text (q : Query) : Except Fault (List Char) := q.items.map joined

def render (q : Query) : Except Fault String := q.text.map String.ofList

@[simp]
theorem nil_append (q : Query) : .nil ++ q = q := rfl

@[simp]
theorem clause_append (j : Connective) (c : Clause) (q r : Query) :
    .clause j c q ++ r = .clause j c (q ++ r) := rfl

@[simp]
theorem group_append (j : Connective) (g q r : Query) : .group j g q ++ r = .group j g (q ++ r) := rfl

@[simp]
theorem append_nil (q : Query) : q ++ .nil = q := by
  induction q with
  | nil => rfl
  | clause j c rest ih => simp [ih]
  | group j inner rest _ ih => simp [ih]

theorem append_assoc (q r s : Query) : q ++ r ++ s = q ++ (r ++ s) := by
  induction q with
  | nil => rfl
  | clause j c rest ih => simp [ih]
  | group j inner rest _ ih => simp [ih]

@[simp]
theorem children_append (q r : Query) : (q ++ r).children = q.children ++ r.children := by
  induction q with
  | nil => rfl
  | clause j c rest ih => simp [children, ih]
  | group j inner rest _ ih => simp [children, ih]

end Query
end EntityClient.Filter
