/-!
Unsigned decimal numerals. A word-sized numeral may carry one plus sign, has at least one ASCII
digit, and stays below `2 ^ 64`.
-/

namespace EntityClient.Text

/-- Reads a nonempty run of digits. -/
def nat? (cs : List Char) : Option Nat :=
  if !cs.isEmpty && cs.all Char.isDigit then some (Nat.ofDigitChars 10 cs 0) else none

/-- A word as a numeral: digits, optionally after a plus sign, without overflow. -/
def word? (cs : List Char) : Option UInt64 :=
  let digits := match cs with
    | '+' :: rest => rest
    | cs => cs
  (nat? digits).bind fun n => if n < 18446744073709551616 then some (UInt64.ofNat n) else none

end EntityClient.Text
