import EntityClient.Proofs.Filter.Clauses

/-!
Normal forms. What a filter shows of a query is its phrase: the query without the groups that show
nothing and without the brackets around single items, where the first item of each group has no
connective. A query without missing conditions renders to the text of its phrase.
-/

namespace EntityClient.Filter

/-- A row of items, each with the connective shown before it. -/
inductive Phrase where
  | nil
  | clause (lead : Option Connective) (c : Clause) (rest : Phrase)
  | group (lead : Option Connective) (inner rest : Phrase)
deriving DecidableEq, Repr

/-- The clauses of a phrase at every depth, from left to right. -/
def Phrase.clauses : Phrase → List Clause
  | .nil => []
  | .clause _ c rest => c :: rest.clauses
  | .group _ inner rest => inner.clauses ++ rest.clauses

namespace Query

/-- A nested group under `j`: dropped when empty, and replaced by its item when it has one. -/
def nest (j : Connective) : Query → Query
  | .nil => .nil
  | .clause _ c .nil => .clause j c .nil
  | .group _ g .nil => .group j g .nil
  | g => .group j g .nil

/-- The query with every nested group at every depth dropped or replaced where it can be. -/
def reduce : Query → Query
  | .nil => .nil
  | .clause j c rest => .clause j c rest.reduce
  | .group j inner rest => nest j inner.reduce ++ rest.reduce

/-- The items of a group, with the connective of the first one erased if `first`. -/
def phrase (first : Bool) : Query → Phrase
  | .nil => .nil
  | .clause j c rest => .clause (if first then none else some j) c (rest.phrase false)
  | .group j inner rest =>
      .group (if first then none else some j) (inner.phrase true) (rest.phrase false)

def normal (q : Query) : Phrase := q.reduce.phrase true

theorem clauses_nest (j : Connective) (g : Query) :
    (nest j g).clauses.map Prod.snd = g.clauses.map Prod.snd := by
  cases g with
  | nil => rfl
  | clause j' c rest => cases rest <;> simp [nest, clauses]
  | group j' h rest => cases rest <;> simp [nest, clauses]

/-- No clause is lost or moved. -/
theorem clauses_reduce (q : Query) : q.reduce.clauses.map Prod.snd = q.clauses.map Prod.snd := by
  induction q with
  | nil => rfl
  | clause j c rest ih => simp [reduce, clauses, ih]
  | group j inner rest ihinner ih => simp [reduce, clauses, clauses_nest, ihinner, ih]

theorem every_reduce {P : Clause → Prop} (q : Query) : q.reduce.Every P ↔ q.Every P := by
  rw [Every, clauses_reduce, Every]

theorem clauses_phrase (first : Bool) (q : Query) :
    (q.phrase first).clauses = q.clauses.map Prod.snd := by
  induction q generalizing first with
  | nil => rfl
  | clause j c rest ih => simp [phrase, Phrase.clauses, clauses, ih]
  | group j inner rest ihinner ih => simp [phrase, Phrase.clauses, clauses, ihinner, ih]

theorem clauses_normal (q : Query) : q.normal.clauses = q.clauses.map Prod.snd := by
  rw [normal, clauses_phrase, clauses_reduce]

/-- Every nested group has an item. -/
def Filled : Query → Prop
  | .nil => True
  | .clause _ _ rest => rest.Filled
  | .group _ inner rest => inner ≠ .nil ∧ inner.Filled ∧ rest.Filled

theorem filled_append {q r : Query} (hq : q.Filled) (hr : r.Filled) : (q ++ r).Filled := by
  induction q with
  | nil => exact hr
  | clause j c rest ih => exact ih hq
  | group j inner rest _ ih => exact ⟨hq.1, hq.2.1, ih hq.2.2⟩

theorem filled_nest (j : Connective) {g : Query} (hg : g.Filled) : (nest j g).Filled := by
  cases g with
  | nil => trivial
  | clause i c rest =>
      cases rest with
      | nil => trivial
      | clause | group => exact ⟨by simp, hg, trivial⟩
  | group i h rest =>
      cases rest with
      | nil => exact hg
      | clause | group => exact ⟨by simp, hg, trivial⟩

theorem filled_reduce (q : Query) : q.reduce.Filled := by
  induction q with
  | nil => trivial
  | clause j c rest ih => exact ih
  | group j inner rest ihinner ih => exact filled_append (filled_nest j ihinner) ih

end Query

/-- The text of a clause, empty when its condition is missing. -/
def Clause.shown (c : Clause) : List Char := (c.condition.map c.textWith).getD []

theorem Clause.text_of_complete {c : Clause} (hc : c.Complete) : c.text = .ok c.shown := by
  obtain ⟨condition, hcondition⟩ := Option.isSome_iff_exists.mp hc
  simp [text, shown, hcondition]

def leadText : Option Connective → List Char
  | none => []
  | some j => ' ' :: j.keyword ++ [' ']

def Phrase.text : Phrase → List Char
  | .nil => []
  | .clause lead c rest => leadText lead ++ c.shown ++ rest.text
  | .group lead inner rest => leadText lead ++ '(' :: inner.text ++ ')' :: rest.text

namespace Query

/-- The items of a reduced query, none of which is left out. -/
def shown : Query → List (Connective × List Char)
  | .nil => []
  | .clause j c rest => (j, c.shown) :: rest.shown
  | .group j inner rest => (j, '(' :: joined inner.shown ++ [')']) :: rest.shown

@[simp]
theorem shown_append (q r : Query) : (q ++ r).shown = q.shown ++ r.shown := by
  induction q with
  | nil => rfl
  | clause j c rest ih => simp [shown, ih]
  | group j inner rest _ ih => simp [shown, ih]

theorem shown_nest (j : Connective) (g : Query) : (nest j g).shown = nested j g.shown := by
  cases g with
  | nil => rfl
  | clause i c rest => cases rest <;> rfl
  | group i k rest => cases rest <;> rfl

theorem items_of_complete {q : Query} (hq : q.Every Clause.Complete) :
    q.items = .ok q.reduce.shown := by
  induction q with
  | nil => rfl
  | clause j c rest ih =>
      rw [every_clause] at hq
      rw [items, Clause.text_of_complete hq.1, ih hq.2]
      rfl
  | group j inner rest ihinner ih =>
      rw [every_group] at hq
      rw [items, ihinner hq.1, ih hq.2, reduce, shown_append, shown_nest]
      rfl

theorem text_phrase (q : Query) :
    joined q.shown = (q.phrase true).text ∧
      (q.shown.flatMap fun (j, t) => ' ' :: j.keyword ++ ' ' :: t) = (q.phrase false).text := by
  induction q with
  | nil => exact ⟨rfl, rfl⟩
  | clause j c rest ih => simp [shown, joined, phrase, Phrase.text, leadText, ← ih.2]
  | group j inner rest ihinner ih =>
      simp [shown, joined, phrase, Phrase.text, leadText, ← ih.2, ← ihinner.1]

theorem text_of_complete {q : Query} (hq : q.Every Clause.Complete) :
    q.text = .ok q.normal.text := by
  rw [text, items_of_complete hq, normal, ← (text_phrase q.reduce).1]
  rfl

end Query
end EntityClient.Filter
