/-!
Doubles (IEEE 754 binary64) as data. A finite double is a sign, a mantissa and a power of two in
canonical form, so equal values with equal signs are equal terms. Every operation rounds an exact
quotient of naturals to the nearest double, ties to the even mantissa.
-/

namespace EntityClient

/-- A power with an integer exponent, one for a negative exponent. -/
def power (base : Nat) (exponent : Int) : Nat := Nat.pow base exponent.toNat

/-- The least mantissa of full precision, `2 ^ 52`. -/
def fullMantissa : Nat := 4503599627370496

/-- `mantissa * 2 ^ exponent`, full precision or the least exponent. -/
def CanonicalDouble (mantissa : Nat) (exponent : Int) : Prop :=
  mantissa < 2 * fullMantissa ∧ -1074 ≤ exponent ∧ exponent ≤ 971 ∧
    (fullMantissa ≤ mantissa ∨ exponent = -1074)

instance (mantissa : Nat) (exponent : Int) : Decidable (CanonicalDouble mantissa exponent) :=
  inferInstanceAs (Decidable (_ ∧ _))

structure FiniteDouble where
  negative : Bool
  mantissa : Nat
  exponent : Int
  canonical : CanonicalDouble mantissa exponent
deriving DecidableEq, Repr

namespace FiniteDouble

def zero (negative : Bool) : FiniteDouble := ⟨negative, 0, -1074, by decide⟩

instance : Inhabited FiniteDouble := ⟨zero false⟩

def isZero (x : FiniteDouble) : Bool := x.mantissa == 0

def neg (x : FiniteDouble) : FiniteDouble := { x with negative := !x.negative }

/-- The magnitude is `numerator / denominator`. -/
def numerator (x : FiniteDouble) : Nat := x.mantissa * power 2 x.exponent

def denominator (x : FiniteDouble) : Nat := power 2 (-x.exponent)

/-- The quotient rounded to a natural, a half to the even neighbour. -/
def roundQuotient (num den : Nat) : Nat :=
  let q := num / den
  let r := 2 * (num % den)
  if r > den ∨ (r = den ∧ q % 2 = 1) then q + 1 else q

/-- The double nearest to `num / den`; none if that lies beyond the largest. -/
def nearest? (negative : Bool) (num den : Nat) : Option FiniteDouble :=
  if num = 0 then some (zero negative)
  else
    let up (e : Int) := num * power 2 (-e)
    let down (e : Int) := den * power 2 e
    let guess : Int := (num.log2 : Int) - den.log2 - 52
    let e := max (-1074) (if up guess / down guess < fullMantissa then guess - 1 else guess)
    let m := roundQuotient (up e) (down e)
    let (m, e) := if m = 2 * fullMantissa then (fullMantissa, e + 1) else (m, e)
    if h : CanonicalDouble m e then some ⟨negative, m, e, h⟩ else none

def mul? (x y : FiniteDouble) : Option FiniteDouble :=
  nearest? (x.negative != y.negative) (x.numerator * y.numerator) (x.denominator * y.denominator)

/-- The rounded quotient; none if it is too large or `y` is zero. -/
def div? (x y : FiniteDouble) : Option FiniteDouble :=
  if y.isZero then none
  else
    nearest? (x.negative != y.negative) (x.numerator * y.denominator) (x.denominator * y.numerator)

end FiniteDouble

inductive Double where
  | nan
  | infinite (negative : Bool)
  | finite (x : FiniteDouble)
deriving DecidableEq, Repr

namespace Double

/-- The nearest double, infinite beyond the largest finite one. -/
def ofRatio (negative : Bool) (num den : Nat) : Double :=
  match FiniteDouble.nearest? negative num den with
  | some x => .finite x
  | none => .infinite negative

def ofInt (n : Int) : Double := ofRatio (n < 0) n.natAbs 1

/-- The double nearest to `digits * 10 ^ exponent`. -/
def ofDecimal (negative : Bool) (digits : Nat) (exponent : Int) : Double :=
  if digits = 0 then .finite (.zero negative)
  else if exponent > 310 then .infinite negative
  else if exponent + (Nat.toDigits 10 digits).length < -330 then .finite (.zero negative)
  else ofRatio negative (digits * power 10 exponent) (power 10 (-exponent))

end Double
end EntityClient
