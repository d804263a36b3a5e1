import EntityClient.Failure

/-!
Sort orders of listings: properties with a direction each, joined by a comma and a space.
-/

namespace EntityClient

inductive Direction where
  | ascending
  | descending
deriving DecidableEq, Repr

namespace Direction

def keyword : Direction → String
  | .ascending => "ASC"
  | .descending => "DESC"

/-- Only the exact keywords name a direction. -/
def parse (property direction : String) : Except Failure Direction :=
  if direction = "ASC" then .ok .ascending
  else if direction = "DESC" then .ok .descending
  else .error (.sortDirection property direction)

end Direction

namespace SortOrder

def itemText (property : String) (d : Direction) : List Char :=
  Filter.nameText property.toList ++ ' ' :: d.keyword.toList

/-- Renders an order, or refuses the first direction that is none. -/
def render (order : List (String × String)) : Except Failure String := do
  let items ← order.mapM fun (property, direction) => do
    return itemText property (← Direction.parse property direction)
  return String.ofList ([',', ' '].intercalate items)

end SortOrder
end EntityClient
