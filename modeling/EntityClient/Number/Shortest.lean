import EntityClient.Number.Double
import EntityClient.Text.Blank

/-!
The shortest decimal of a finite double, and its two written forms. Among the decimals that round
to the double, those with the fewest digits are sought on one decimal grid after another: the
double's two neighbours on the grid are tested against the interval of numbers that round to it.
-/

namespace EntityClient

/-- Which of two equally near decimals is taken. -/
inductive Tie where
  | even
  | away
deriving DecidableEq

/-- `digits * 10 ^ exponent`. -/
structure Decimal where
  digits : Nat
  exponent : Int
deriving DecidableEq, Repr

namespace FiniteDouble

/-- The decimal on the grid of `10 ^ k` that reads back as `x`, if there is one: of two the
nearer, of two as near the one `tie` asks for. -/
def onGrid? (tie : Tie) (x : FiniteDouble) (k : Int) : Option Decimal :=
  let quarter (n : Nat) := n * power 2 (x.exponent - 2) * power 10 (-k)
  let unit := power 2 (2 - x.exponent) * power 10 k
  let value := quarter (4 * x.mantissa)
  let below := if x.mantissa = fullMantissa ∧ x.exponent > -1074 then 1 else 2
  let low := quarter (4 * x.mantissa - below)
  let high := quarter (4 * x.mantissa + 2)
  let closed : Bool := x.mantissa % 2 == 0
  let readsBack (d : Nat) : Bool :=
    if closed then low ≤ d * unit && d * unit ≤ high else low < d * unit && d * unit < high
  let d := value / unit
  match readsBack d, readsBack (d + 1) with
  | true, true =>
      let down := value - d * unit
      let up := (d + 1) * unit - value
      let lower : Bool := down < up || (down == up && tie == .even && d % 2 == 0)
      some ⟨if lower then d else d + 1, k⟩
  | true, false => some ⟨d, k⟩
  | false, true => some ⟨d + 1, k⟩
  | false, false => none

/-- The exponent of the first digit: `10 ^ p ≤ num / den < 10 ^ (p + 1)`, for `num` not zero. -/
def leadingExponent (num den : Nat) : Int :=
  if den ≤ num then (Nat.toDigits 10 (num / den)).length - 1
  else -(Nat.toDigits 10 ((den + num - 1) / num - 1)).length

/-- The exact value, which has many digits. -/
def exactDecimal (x : FiniteDouble) : Decimal :=
  ⟨x.mantissa * power 2 x.exponent * power 5 (-x.exponent), min x.exponent 0⟩

/-- The magnitude with the fewest digits that read back. Seventeen always do. -/
def shortest (tie : Tie) (x : FiniteDouble) : Decimal :=
  if x.isZero then ⟨0, 0⟩
  else
    let p := leadingExponent x.numerator x.denominator
    ((List.range 17).findSome? fun (n : Nat) => x.onGrid? tie (p - n)).getD x.exactDecimal

end FiniteDouble

namespace Decimal

/-- The digits without zeros at the end, and the exponent of the last one kept. -/
def parts (d : Decimal) : List Char × Int :=
  if d.digits = 0 then (['0'], 0)
  else
    let all := Nat.toDigits 10 d.digits
    let kept := Text.dropTail (· == '0') all
    (kept, d.exponent + (all.length - kept.length : Nat))

/-- Without exponent; whole numbers end in `whole`. -/
def positional (whole : List Char) (digits : List Char) (exponent : Int) : List Char :=
  if exponent ≥ 0 then digits ++ List.replicate exponent.toNat '0' ++ whole
  else
    let places := (-exponent).toNat
    if places < digits.length then
      digits.take (digits.length - places) ++ '.' :: digits.drop (digits.length - places)
    else '0' :: '.' :: List.replicate (places - digits.length) '0' ++ digits

/-- With exponent, one digit before the point. -/
def scientific (digits : List Char) (exponent : Int) : List Char :=
  let e := exponent + digits.length - 1
  let mantissa := match digits with
    | d :: rest@(_ :: _) => d :: '.' :: rest
    | short => short
  mantissa ++ 'e' :: (if e < 0 then '-' else '+') :: Nat.toDigits 10 e.natAbs

end Decimal

namespace FiniteDouble

def signed (x : FiniteDouble) (magnitude : List Char) : List Char :=
  if x.negative then '-' :: magnitude else magnitude

/-- As JSON writes it: at least one decimal, and an exponent once the first digit stands below
`10 ^ -5` or from `10 ^ 16` on. -/
def jsonText (x : FiniteDouble) : List Char :=
  let (digits, exponent) := (x.shortest .even).parts
  let lead := exponent + digits.length - 1
  x.signed <|
    if -5 ≤ lead ∧ lead < 16 then Decimal.positional ['.', '0'] digits exponent
    else Decimal.scientific digits exponent

/-- Without exponent, whole numbers without a point. -/
def plainText (x : FiniteDouble) : List Char :=
  let (digits, exponent) := (x.shortest .away).parts
  x.signed (Decimal.positional [] digits exponent)

end FiniteDouble

/-- The plain text of any double. -/
def Double.plainText : Double → String
  | .nan => "NaN"
  | .infinite negative => if negative then "-inf" else "inf"
  | .finite x => String.ofList x.plainText

end EntityClient
