/-!
Percent-encoding: ASCII letters, digits and `-._~` stand for themselves, every other byte of the
UTF-8 form as two upper-case hexadecimal digits after a percent sign.
-/

namespace EntityClient.Text

/-- Bytes that stand for themselves. -/
def isUnreserved (b : UInt8) : Bool :=
  let c := Char.ofNat b.toNat
  c.isAlphanum || c == '-' || c == '.' || c == '_' || c == '~'

def upperHexDigit (n : Nat) : Char := if n < 10 then Char.ofNat (48 + n) else Char.ofNat (55 + n)

def percentByte (b : UInt8) : List Char :=
  if isUnreserved b then [Char.ofNat b.toNat]
  else ['%', upperHexDigit (b.toNat / 16), upperHexDigit (b.toNat % 16)]

def percentEncode (s : String) : List Char :=
  (s.toList.flatMap String.utf8EncodeChar).flatMap percentByte

end EntityClient.Text
