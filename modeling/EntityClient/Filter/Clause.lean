import EntityClient.Filter.Quoting
import EntityClient.Number.Shortest

/-!
A clause: one condition on one property, possibly negated. The condition is set once; negation
may come before or after it and any number of times.
-/

namespace EntityClient.Filter

/-- Why a clause was refused. -/
inductive Fault where
  | alreadySet (property : String)
  | missing (property : String)
deriving DecidableEq, Repr

namespace Fault

def property : Fault → String
  | .alreadySet p | .missing p => p

def message : Fault → String
  | .alreadySet p => "query condition for property \"" ++ p ++ "\" has already been set"
  | .missing p => "missing query condition for property \"" ++ p ++ "\""

end Fault

inductive Relation where
  | less
  | lessOrEqual
  | greater
  | greaterOrEqual
  | equal
  | notEqual
deriving DecidableEq, Repr

def Relation.symbol : Relation → List Char
  | .less => ['<']
  | .lessOrEqual => ['<', '=']
  | .greater => ['>']
  | .greaterOrEqual => ['>', '=']
  | .equal => ['=']
  | .notEqual => ['!', '=']

/-- The right side of a comparison: a literal, or another property of the same entity. -/
inductive Term where
  | value (text : String)
  | property (name : String)
deriving DecidableEq, Repr

namespace Term

def ofInt (n : Int) : Term := .value (toString n)

def ofBool (b : Bool) : Term := .value (if b then "true" else "false")

def ofChar (c : Char) : Term := .value (String.singleton c)

def ofDouble (x : Double) : Term := .value x.plainText

def text : Term → List Char
  | .value v => valueText v.toList
  | .property n => nameText n.toList

end Term

inductive Condition where
  | compare (relation : Relation) (term : Term)
  | isEmpty
  | oneOf (values : List String)
  | startsWith (part : String)
  | contains (part : String)
deriving DecidableEq, Repr

/-- Values in quotes, separated by a comma and a space. -/
def valueList (values : List String) : List Char :=
  [',', ' '].intercalate (values.map fun v => valueText v.toList)

def Condition.text (property : String) : Condition → List Char
  | .compare relation term => nameText property.toList ++ ' ' :: relation.symbol ++ ' ' :: term.text
  | .isEmpty => nameText property.toList ++ " IS EMPTY".toList
  | .oneOf values => nameText property.toList ++ " IN (".toList ++ valueList values ++ [')']
  | .startsWith part => nameText property.toList ++ " FILTER ".toList ++ valueText part.toList
  | .contains part => nameText property.toList ++ " CONTAINS ".toList ++ valueText part.toList

structure Clause where
  property : String
  negated : Bool := false
  condition : Option Condition := none
deriving DecidableEq, Repr

namespace Clause

def negate (c : Clause) : Clause := { c with negated := true }

/-- Sets the condition of a clause that has none. -/
def set (c : Clause) (condition : Condition) : Except Fault Clause :=
  match c.condition with
  | some _ => .error (.alreadySet c.property)
  | none => .ok { c with condition := some condition }

/-- The clause's text when its condition is `condition`. -/
def textWith (c : Clause) (condition : Condition) : List Char :=
  if c.negated then "NOT (".toList ++ condition.text c.property ++ [')']
  else condition.text c.property

def text (c : Clause) : Except Fault (List Char) :=
  match c.condition with
  | some condition => .ok (c.textWith condition)
  | none => .error (.missing c.property)

def render (c : Clause) : Except Fault String := c.text.map String.ofList

end Clause
end EntityClient.Filter
