import EntityClient.Json.Basic
import EntityClient.Number.Shortest

/-!
The compact text of a JSON value: no blanks, members in the order of the value, and strings that
escape quotes, backslashes and the characters below the space only.
-/

namespace EntityClient.Json

/-- One character of a string as it stands between the quotes. -/
def escapedChar (c : Char) : List Char :=
  if c = '"' ∨ c = '\\' then ['\\', c]
  else if c = '\x08' then ['\\', 'b']
  else if c = '\x0c' then ['\\', 'f']
  else if c = '\n' then ['\\', 'n']
  else if c = '\r' then ['\\', 'r']
  else if c = '\t' then ['\\', 't']
  else if c.toNat < 16 then ['\\', 'u', '0', '0', '0'] ++ Nat.toDigits 16 c.toNat
  else if c.toNat < 32 then ['\\', 'u', '0', '0'] ++ Nat.toDigits 16 c.toNat
  else [c]

def stringText (s : String) : List Char := '"' :: s.toList.flatMap escapedChar ++ ['"']

def wholeText (n : Whole) : List Char :=
  if n.val < 0 then '-' :: Nat.toDigits 10 n.val.natAbs else Nat.toDigits 10 n.val.natAbs

mutual

def text : Json → List Char
  | .null => ['n', 'u', 'l', 'l']
  | .bool true => ['t', 'r', 'u', 'e']
  | .bool false => ['f', 'a', 'l', 's', 'e']
  | .int n => wholeText n
  | .float x => x.jsonText
  | .str s => stringText s
  | .arr items => '[' :: [','].intercalate (itemTexts items) ++ [']']
  | .obj members => '\x7b' :: [','].intercalate (memberTexts members) ++ ['\x7d']

def itemTexts : List Json → List (List Char)
  | [] => []
  | v :: rest => text v :: itemTexts rest

def memberTexts : List (String × Json) → List (List Char)
  | [] => []
  | (k, v) :: rest => (stringText k ++ ':' :: text v) :: memberTexts rest

end

/-- The compact text. -/
def compact (v : Json) : String := String.ofList v.text

end EntityClient.Json
