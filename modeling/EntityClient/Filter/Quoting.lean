/-!
How names and values stand in a filter. A name of ASCII letters, digits, commas and asterisks
stands bare, any other between back-ticks. A value stands in double quotes, with a backslash
before each quote and backslash, so it cannot close the quotes early.
-/

namespace EntityClient.Filter

def isBareChar (c : Char) : Bool := c.isAlphanum || c == ',' || c == '*'

def isBare (name : List Char) : Bool := !name.isEmpty && name.all isBareChar

/-- The back-tick. -/
def tick : Char := '\x60'

def nameText (name : List Char) : List Char :=
  if isBare name then name else tick :: name ++ [tick]

/-- A value's characters between the quotes. -/
def escapeValue : List Char → List Char
  | [] => []
  | c :: rest => if c = '"' ∨ c = '\\' then '\\' :: c :: escapeValue rest else c :: escapeValue rest

def valueText (value : List Char) : List Char := '"' :: escapeValue value ++ ['"']

def quoteName (name : String) : String := String.ofList (nameText name.toList)

def quoteValue (value : String) : String := String.ofList (valueText value.toList)

end EntityClient.Filter
