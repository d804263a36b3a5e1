import EntityClient.Json.Numeral

/-!
The tokens of JSON text. A scanner goes over the characters once; its state says what the
characters since the last token have begun. A token of letters or digits ends where a character
that cannot continue it follows.
-/

namespace EntityClient.Json

inductive Token where
  | openArray
  | closeArray
  | openObject
  | closeObject
  | comma
  | colon
  | scalar (v : Json)

/-- What has begun. Characters are kept last first. -/
inductive Scan where
  | blank
  | word (letters : List Char)
  | number (chars : List Char)
  | string (chars : List Char)
  /-- After a backslash. -/
  | escape (chars : List Char)
  /-- After a backslash and `u`: the high surrogate before, and the digits' count and value. -/
  | unit (chars : List Char) (high : Option Nat) (count : Nat) (value : Nat)
  /-- After a high surrogate: a backslash must follow. -/
  | low (chars : List Char) (high : Nat)
  /-- After a high surrogate and a backslash: a `u` must follow. -/
  | lowUnit (chars : List Char) (high : Nat)

namespace Scan

def isBlank (c : Char) : Bool := c == ' ' || c == '\t' || c == '\n' || c == '\r'

def isNumeral (c : Char) : Bool :=
  c.isDigit || c == '-' || c == '+' || c == '.' || c == 'e' || c == 'E'

def hexDigit? (c : Char) : Option Nat :=
  if c.isDigit then some (c.toNat - 48)
  else if 'a' ≤ c ∧ c ≤ 'f' then some (c.toNat - 87)
  else if 'A' ≤ c ∧ c ≤ 'F' then some (c.toNat - 55)
  else none

/-- The character that a one-letter escape stands for. -/
def escaped? (c : Char) : Option Char :=
  if c = '"' ∨ c = '\\' ∨ c = '/' then some c
  else if c = 'b' then some '\x08'
  else if c = 'f' then some '\x0c'
  else if c = 'n' then some '\n'
  else if c = 'r' then some '\r'
  else if c = 't' then some '\t'
  else none

/-- A complete unit of four digits. Surrogates must come as a pair. -/
def closeUnit (chars : List Char) (high : Option Nat) (value : Nat) : Option Scan :=
  match high with
  | none =>
      if 0xDC00 ≤ value ∧ value < 0xE000 then none
      else if 0xD800 ≤ value ∧ value < 0xDC00 then some (.low chars value)
      else some (.string (Char.ofNat value :: chars))
  | some high =>
      if 0xDC00 ≤ value ∧ value < 0xE000 then
        let point := 0x10000 + (high - 0xD800) * 0x400 + (value - 0xDC00)
        some (.string (Char.ofNat point :: chars))
      else none

/-- The scalar that a run of letters names. -/
def wordToken? (letters : List Char) : Option Token :=
  if letters = ['l', 'l', 'u', 'n'] then some (.scalar .null)
  else if letters = ['e', 'u', 'r', 't'] then some (.scalar (.bool true))
  else if letters = ['e', 's', 'l', 'a', 'f'] then some (.scalar (.bool false))
  else none

def numberToken? (chars : List Char) : Option Token := do
  return .scalar (← (← Numeral.ofText? chars.reverse).toJson?)

/-- A character between tokens. Tokens found so far are kept last first. -/
def start (found : List Token) (c : Char) : Option (List Token × Scan) :=
  if isBlank c then some (found, .blank)
  else if c = '[' then some (.openArray :: found, .blank)
  else if c = ']' then some (.closeArray :: found, .blank)
  else if c = '\x7b' then some (.openObject :: found, .blank)
  else if c = '\x7d' then some (.closeObject :: found, .blank)
  else if c = ',' then some (.comma :: found, .blank)
  else if c = ':' then some (.colon :: found, .blank)
  else if c = '"' then some (found, .string [])
  else if c = '-' || c.isDigit then some (found, .number [c])
  else if c.isLower then some (found, .word [c])
  else none

def step (found : List Token) (scan : Scan) (c : Char) : Option (List Token × Scan) :=
  match scan with
  | .blank => start found c
  | .word letters =>
      if c.isLower then some (found, .word (c :: letters))
      else do start ((← wordToken? letters) :: found) c
  | .number chars =>
      if isNumeral c then some (found, .number (c :: chars))
      else do start ((← numberToken? chars) :: found) c
  | .string chars =>
      if c = '"' then some (.scalar (.str (String.ofList chars.reverse)) :: found, .blank)
      else if c = '\\' then some (found, .escape chars)
      else if c.toNat < 32 then none
      else some (found, .string (c :: chars))
  | .escape chars =>
      if c = 'u' then some (found, .unit chars none 0 0)
      else (escaped? c).map fun e => (found, .string (e :: chars))
  | .unit chars high count value => do
      let value := 16 * value + (← hexDigit? c)
      if count = 3 then return (found, ← closeUnit chars high value)
      else return (found, .unit chars high (count + 1) value)
  | .low chars high => if c = '\\' then some (found, .lowUnit chars high) else none
  | .lowUnit chars high => if c = 'u' then some (found, .unit chars (some high) 0 0) else none

/-- The tokens at the end of the text, in order. -/
def finish (found : List Token) : Scan → Option (List Token)
  | .blank => some found.reverse
  | .word letters => do return ((← wordToken? letters) :: found).reverse
  | .number chars => do return ((← numberToken? chars) :: found).reverse
  | _ => none

def run (found : List Token) (scan : Scan) : List Char → Option (List Token)
  | [] => finish found scan
  | c :: rest => do
      let (found, scan) ← step found scan c
      run found scan rest

end Scan

/-- The tokens of a text; none if some character fits nowhere. -/
def tokens? (cs : List Char) : Option (List Token) := Scan.run [] .blank cs

end EntityClient.Json
