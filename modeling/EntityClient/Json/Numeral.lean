import EntityClient.Json.Basic
import EntityClient.Text.Decimal

/-!
Number texts. A numeral without fraction and exponent that fits 64 bits is an integer. Any other
is a float: its digits fill a significand as long as that fits 64 bits, the rest only counts
towards the power of ten, and the rounded significand is then scaled by one rounded power of ten
at a time. So a float can miss the nearest double by a last place, but never silently overflows.
-/

namespace EntityClient

/-- The parts of a number text. -/
structure Numeral where
  negative : Bool
  whole : List Char
  fraction : Option (List Char)
  /-- The digits of the exponent, and whether it is negative. -/
  exponent : Option (Bool × List Char)
deriving DecidableEq, Repr

namespace Numeral

def splitSign : List Char → Bool × List Char
  | '-' :: rest => (true, rest)
  | cs => (false, cs)

def splitDigits (cs : List Char) : List Char × List Char :=
  (cs.takeWhile Char.isDigit, cs.dropWhile Char.isDigit)

def splitFraction : List Char → Option (List Char) × List Char
  | '.' :: rest => (some (splitDigits rest).1, (splitDigits rest).2)
  | cs => (none, cs)

def splitExponent : List Char → Option (Bool × List Char) × List Char
  | 'e' :: rest | 'E' :: rest =>
      let (negative, rest) := match rest with
        | '-' :: rest => (true, rest)
        | '+' :: rest => (false, rest)
        | rest => (false, rest)
      (some (negative, (splitDigits rest).1), (splitDigits rest).2)
  | cs => (none, cs)

/-- Digits where they must stand, and no zero before another digit. -/
def wellFormed (n : Numeral) : Bool :=
  (match n.whole with
    | [] => false
    | ['0'] => true
    | d :: _ => d != '0') &&
  (n.fraction.all fun ds => !ds.isEmpty) &&
  (n.exponent.all fun e => !e.2.isEmpty)

/-- Splits a number text, unless something is missing or left over. -/
def ofText? (cs : List Char) : Option Numeral :=
  let (negative, cs) := splitSign cs
  let (whole, cs) := splitDigits cs
  let (fraction, cs) := splitFraction cs
  let (exponent, cs) := splitExponent cs
  let n : Numeral := ⟨negative, whole, fraction, exponent⟩
  if cs.isEmpty && n.wellFormed then some n else none

/-- What no longer fits 64 bits, `2 ^ 64`. -/
def wordLimit : Nat := 18446744073709551616

/-- What no longer fits the exponent, `2 ^ 31`. -/
def exponentLimit : Nat := 2147483648

/-- Appends digits to the significand until the first that does not fit. Returns it, the number
of digits appended and the number left out. -/
def absorb (significand : Nat) : List Char → Nat × Nat × Nat
  | [] => (significand, 0, 0)
  | c :: rest =>
      let next := Nat.ofDigitChars 10 [c] significand
      if next < wordLimit then
        let (total, taken, left) := absorb next rest
        (total, taken + 1, left)
      else (significand, 0, rest.length + 1)

/-- The power of ten as a double, for the exponents a double reaches. -/
def powerOfTen? (k : Nat) : Option FiniteDouble := FiniteDouble.nearest? false (power 10 k) 1

/-- `steps` divisions by `10 ^ 308`; zero stays zero. -/
def scaleDown (x : FiniteDouble) : Nat → Option FiniteDouble
  | 0 => some x
  | steps + 1 =>
      if x.isZero then some x
      else do scaleDown (← x.div? (← powerOfTen? 308)) steps

/-- The magnitude `significand * 10 ^ exponent`; none if it is too large for a double. -/
def scaled? (significand : Nat) (exponent : Int) : Option FiniteDouble := do
  let x ← FiniteDouble.nearest? false significand 1
  if exponent ≥ 0 then
    if x.isZero then some x
    else if exponent ≤ 308 then x.mul? (← powerOfTen? exponent.toNat)
    else none
  else
    let depth := exponent.natAbs
    let steps := (depth - 1) / 308
    let x ← scaleDown x steps
    if x.isZero then some x else x.div? (← powerOfTen? (depth - 308 * steps))

/-- The integer that a numeral writes, unless it asks for a float. Zero with a sign does. -/
def integer? (n : Numeral) : Option Whole :=
  let magnitude := Nat.ofDigitChars 10 n.whole 0
  let value : Int := if n.negative then -magnitude else magnitude
  if h : -9223372036854775808 ≤ value ∧ value < 18446744073709551616 then
    if n.fraction = none ∧ n.exponent = none ∧ ¬(n.negative ∧ magnitude = 0) then
      some ⟨value, h.1, h.2⟩
    else none
  else none

/-- The magnitude as a float; none if it is out of range. -/
def magnitude? (n : Numeral) : Option FiniteDouble :=
  let (significand, _, dropped) := absorb 0 n.whole
  let (significand, taken, _) := absorb significand (n.fraction.getD [])
  let base : Int := (dropped : Int) - taken
  match n.exponent with
  | none => scaled? significand base
  | some (negative, digits) =>
      let e := Nat.ofDigitChars 10 digits 0
      if e < exponentLimit then scaled? significand (if negative then base - e else base + e)
      else if negative ∨ significand = 0 then some (.zero false)
      else none

/-- A numeral as a JSON number. -/
def toJson? (n : Numeral) : Option Json :=
  match n.integer? with
  | some i => some (.int i)
  | none => n.magnitude?.map fun x => .float (if n.negative then x.neg else x)

/-- The double nearest to a numeral. -/
def toDouble (n : Numeral) : Double :=
  let fraction := n.fraction.getD []
  let digits := Nat.ofDigitChars 10 (n.whole ++ fraction) 0
  let shift : Int := match n.exponent with
    | none => 0
    | some (negative, ds) =>
        let e := Nat.ofDigitChars 10 ds 0
        if negative then -e else e
  .ofDecimal n.negative digits (shift - fraction.length)

end Numeral
end EntityClient
