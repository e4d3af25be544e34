import Catalogue.Number.Decimal
import Catalogue.Number.Extended

/-! Decimal text of floating point numbers by way of numbers with a significand of 64 bits.  A few
multiplications and divisions give the value of a text, and the text of a value; as each of them is
rounded, neither is always the nearest. -/

namespace Catalogue.Number

open Text

namespace Extended

/-- The power of ten with the exponent `e`, times `product`, where `square` is ten to a power of
two, by squaring. -/
def powerFrom (square product : Extended) (e : Nat) : Extended :=
  let product := if e % 2 = 1 then product.mul square else product
  if _h : e / 2 = 0 then product else powerFrom (square.mul square) product (e / 2)
termination_by e
decreasing_by omega

/-- A power of ten. -/
def powerOfTen (e : Nat) : Extended := powerFrom (ofNat 10) (ofNat 1) e

end Extended

/-- Digits gathered to a whole number, and the power of ten by which it is to be scaled. -/
structure Gathered where
  number : Nat
  scale : Int

namespace Gathered

/-- The number from which on no digit is gathered any more. -/
def fullFrom : Nat := 922337203685477579

/-- Gathers a digit before the point; a digit that is not gathered still counts for the scale. -/
def addWhole (g : Gathered) (digit : Nat) : Gathered :=
  if g.number < fullFrom then ⟨g.number * 10 + digit, g.scale⟩ else ⟨g.number, g.scale + 1⟩

/-- Gathers a digit after the point; a digit that is not gathered is lost. -/
def addFraction (g : Gathered) (digit : Nat) : Gathered :=
  if g.number < fullFrom then ⟨g.number * 10 + digit, g.scale - 1⟩ else g

/-- The digits before and after a point. -/
def ofDigits (whole fraction : List Char) : Gathered :=
  (fraction.filterMap digitValue?).foldl addFraction
    ((whole.filterMap digitValue?).foldl addWhole ⟨0, 0⟩)

/-- The largest exponent that is still read on. -/
def exponentBound : Nat := 10000

/-- The exponent that digits write; what follows after it has reached its bound makes it the
bound. -/
def exponentOf (digits : List Char) : Nat :=
  (digits.filterMap digitValue?).foldl
    (fun e d => if e < exponentBound then e * 10 + d else exponentBound) 0

/-- The number from which on it is not multiplied by ten any more. -/
def wideFrom : Nat := 922337203685477580

/-- Multiplies a number by ten while it is small, at most `e` times; the rest of `e`. -/
def raise (n : Nat) : (e : Nat) → Nat × Nat
  | 0 => (n, 0)
  | e + 1 => if wideFrom ≤ n then (n, e + 1) else raise (n * 10) e

/-- Divides a number by ten while no digit is lost, at most `e` times; the rest of `e`. -/
def lower (n : Nat) : (e : Nat) → Nat × Nat
  | 0 => (n, 0)
  | e + 1 => if n % 10 = 0 then lower (n / 10) e else (n, e + 1)

/-- The largest power of ten that a number of 64 bits holds. -/
def largestPower : Binary64 := .ofDecimal false 1 308

/-- The value of `n * 10 ^ e`. -/
def valueUp (negative : Bool) (n e : Nat) : Binary64 :=
  let x := Extended.ofNat n
  if e < 308 then (x.mul (.powerOfTen e)).toBinary negative
  else if e < 342 then
    let y := (x.mul (.powerOfTen (e - 308))).toBinary negative
    .ofRatio negative (y.ratio.1 * largestPower.ratio.1) y.ratio.2
  else .infinity negative

/-- The value of `n / 10 ^ e`. -/
def valueDown (negative : Bool) (n e : Nat) : Binary64 :=
  let x := Extended.ofNat n
  if e < 308 then (x.div (.powerOfTen e)).toBinary negative
  else if e < 342 then
    let y := (x.div (.powerOfTen (e - 308))).toBinary negative
    .ofRatio negative y.ratio.1 (y.ratio.2 * largestPower.ratio.1)
  else .ofMagnitude negative 0

/-- The value of gathered digits with a sign and an exponent. -/
def value (g : Gathered) (negative : Bool) (exponent : Int) : Binary64 :=
  if g.number = 0 then .ofMagnitude negative 0
  else
    let scale := g.scale + exponent
    let (n, e) := if 0 < scale then raise g.number scale.toNat else lower g.number (-scale).toNat
    if e = 0 then .ofRatio negative n 1
    else if 0 < scale then valueUp negative n e
    else valueDown negative n e

end Gathered

namespace Extended

/-- Multiplies a scale by `step` while `x` reaches the next one, at most `fuel` times, and counts
`size` digits each time. -/
def raiseScale (x step : Extended) (size : Nat) :
    (fuel : Nat) → Extended × Int → Extended × Int
  | 0, state => state
  | fuel + 1, (scale, exponent) =>
    if (step.mul scale).atMost x then
      raiseScale x step size fuel (scale.mul step, exponent + size)
    else (scale, exponent)

/-- Multiplies a number by `step` while it is below `bound`, at most `fuel` times, and counts `size`
digits down each time. -/
def raiseTo (bound step : Extended) (size : Nat) :
    (fuel : Nat) → Extended × Int → Extended × Int
  | 0, state => state
  | fuel + 1, (x, exponent) =>
    if x.below bound then raiseTo bound step size fuel (x.mul step, exponent - size)
    else (x, exponent)

/-- The number of 64 bits nearest to a power of ten. -/
def tenTo (e : Int) : Extended := ofBinary (.ofDecimal false 1 e)

/-- A positive number from one up to below ten, and the exponent of ten that scales it. -/
def normalised (x : Extended) : Extended × Int :=
  let (scale, exponent) := raiseScale x (tenTo 100) 100 8 (ofNat 1, 0)
  let (scale, exponent) := raiseScale x (tenTo 10) 10 16 (scale, exponent)
  let (scale, exponent) := raiseScale x (tenTo 1) 1 16 (scale, exponent)
  let (x, exponent) := raiseTo (tenTo (-8)) (tenTo 8) 8 64 (x.div scale, exponent)
  raiseTo (ofNat 1) (ofNat 10) 1 16 (x, exponent)

/-- Half a unit of the fifteenth digit, as a number of 64 bits that is the product of two others. -/
def halfUnit : Extended :=
  let (num, den) := (Binary64.ofDecimal false 5 (-5)).ratio
  let (num', den') := (Binary64.ofDecimal false 1 (-10)).ratio
  ofBinary (.ofRatio false (num * num') (den * den'))

/-- The first `count` digits of a number below ten. -/
def takeDigits (x : Extended) : (count : Nat) → List Char
  | 0 => []
  | count + 1 =>
    Char.ofNat (48 + x.floor) :: takeDigits ((x.sub (ofNat x.floor)).mul (ofNat 10)) count

end Extended

/-- The size of a finite number in fifteen digits. -/
def Binary64.fifteenDigits (x : Binary64) : Digits :=
  let (y, exponent) :=
    if x.isZero then (Extended.ofNat 0, 0) else (Extended.ofBinary x).normalised
  let y := y.add .halfUnit
  let (y, exponent) :=
    if (Extended.ofNat 10).atMost y then (y.mul (.tenTo (-1)), exponent + 1) else (y, exponent)
  ⟨y.takeDigits 15, exponent + 1⟩

end Catalogue.Number
