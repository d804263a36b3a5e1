import EntityClient.Json.Token

/-!
Reading JSON text. A stack holds the arrays and objects that are still open; each token moves the
reading on or ends it. At most 127 arrays and objects may be open at once.
-/

namespace EntityClient.Json

/-- An open array with its items, or an open object with its members and the key whose value is
read. Both last first. -/
inductive Open where
  | array (items : List Json)
  | member (members : List (String × Json)) (name : String)

/-- What may come next, inside the open arrays and objects, innermost first. -/
inductive Reading where
  | value (outer : List Open)
  | firstItem (outer : List Open)
  | firstKey (outer : List Open)
  | key (members : List (String × Json)) (outer : List Open)
  | colon (members : List (String × Json)) (name : String) (outer : List Open)
  | after (v : Json) (outer : List Open)

namespace Reading

def maxDepth : Nat := 127

/-- A token where a value must start. -/
def startValue (outer : List Open) : Token → Option Reading
  | .scalar v => some (.after v outer)
  | .openArray => if outer.length < maxDepth then some (.firstItem outer) else none
  | .openObject => if outer.length < maxDepth then some (.firstKey outer) else none
  | _ => none

/-- A token where a key must stand. -/
def startKey (members : List (String × Json)) (outer : List Open) : Token → Option Reading
  | .scalar (.str name) => some (.colon members name outer)
  | _ => none

/-- A token after a complete value. -/
def continueAfter (v : Json) : List Open → Token → Option Reading
  | .array items :: outer, .comma => some (.value (.array (v :: items) :: outer))
  | .array items :: outer, .closeArray => some (.after (.arr (v :: items).reverse) outer)
  | .member members name :: outer, .comma => some (.key ((name, v) :: members) outer)
  | .member members name :: outer, .closeObject =>
      some (.after (object ((name, v) :: members).reverse) outer)
  | _, _ => none

def step : Reading → Token → Option Reading
  | .value outer, t => startValue outer t
  | .firstItem outer, .closeArray => some (.after (.arr []) outer)
  | .firstItem outer, t => startValue (.array [] :: outer) t
  | .firstKey outer, .closeObject => some (.after (.obj []) outer)
  | .firstKey outer, t => startKey [] outer t
  | .key members outer, t => startKey members outer t
  | .colon members name outer, .colon => some (.value (.member members name :: outer))
  | .colon _ _ _, _ => none
  | .after v outer, t => continueAfter v outer t

def run (reading : Reading) : List Token → Option Json
  | [] =>
      match reading with
      | .after v [] => some v
      | _ => none
  | t :: rest => (step reading t).bind fun next => run next rest

end Reading

/-- The value that a text writes; none if the text is not JSON. -/
def parse? (s : String) : Option Json :=
  (tokens? s.toList).bind (Reading.run (.value []))

end EntityClient.Json
