import EntityClient.Filter.Query

/-!
Drafts of queries: a root group and the groups opened below it and not yet closed. Every step
acts on the innermost open group. Closing with nothing open does nothing, and groups still open
at the end are closed there.
-/

namespace EntityClient.Filter

structure Draft where
  root : Query := .nil
  /-- Open groups with the connectives they will be added under, innermost first. -/
  opened : List (Connective × Query) := []
deriving DecidableEq, Repr

namespace Draft

/-- Changes the innermost open group. -/
def modify (d : Draft) (f : Query → Query) : Draft :=
  match d.opened with
  | [] => { d with root := f d.root }
  | (j, g) :: rest => { d with opened := (j, f g) :: rest }

def push (d : Draft) (j : Connective) (c : Clause) : Draft := d.modify (·.pushClause j c)

def openGroup (d : Draft) (j : Connective) : Draft := { d with opened := (j, .nil) :: d.opened }

def closeGroup (d : Draft) : Draft :=
  match d.opened with
  | [] => d
  | (j, g) :: rest => modify { d with opened := rest } (·.pushGroup j g)

def depth (d : Draft) : Nat := d.opened.length

/-- Puts a group into the first of the groups around it, that into the next, the last into the
root. -/
def close (root : Query) (j : Connective) (g : Query) : List (Connective × Query) → Query
  | [] => root.pushGroup j g
  | (j', outer) :: rest => close root j' (outer.pushGroup j g) rest

/-- The query, with all groups closed. -/
def query (d : Draft) : Query :=
  match d.opened with
  | [] => d.root
  | (j, g) :: rest => close d.root j g rest

def render (d : Draft) : Except Fault String := d.query.render

end Draft

/-- A clause started on a draft, whose condition is still to come. -/
structure PendingClause where
  draft : Draft
  connective : Connective
  property : String
  negated : Bool := false

namespace Draft

/-- Starts a clause under `j`. -/
def start (d : Draft) (j : Connective) (property : String) : PendingClause :=
  ⟨d, j, property, false⟩

end Draft

namespace PendingClause

def negate (p : PendingClause) : PendingClause := { p with negated := true }

/-- Adds the finished clause to the draft. -/
def finish (p : PendingClause) (condition : Condition) : Draft :=
  p.draft.push p.connective ⟨p.property, p.negated, some condition⟩

end PendingClause
end EntityClient.Filter
