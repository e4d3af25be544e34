import Catalogue.Number.Binary64
import Catalogue.Number.Numeral

/-! Decimal text of floating point numbers.  The shortest text has the fewest digits that read back
as the number, and of those the digits nearest to it; it is positional from `1e-4` up to below
`1e16`.  A text of a fixed number of places or of significant digits is the exact value rounded, a
half to the even neighbour. -/

namespace Catalogue.Number

/-- Decimal digits and the place of the first one: the number `0.d₁d₂… * 10 ^ point`. -/
structure Digits where
  digits : List Char
  point : Int

/-- The number of decimal digits of `n`. -/
def digitCount (n : Nat) : Nat := (decimalFrom n []).length

/-- The least `j` from `start` on for which `num * 10 ^ j` reaches `den`, among `fuel`
candidates. -/
def leastShift (num den start : Nat) : Nat → Nat
  | 0 => start
  | fuel + 1 => if den ≤ num * Nat.pow 10 start then start else leastShift num den (start + 1) fuel

/-- The place of the first digit of a positive ratio: it lies from `10 ^ (point - 1)` up to below
`10 ^ point`. -/
def decimalPoint (num den : Nat) : Int :=
  if den ≤ num then digitCount (num / den)
  else 1 - (leastShift num den ((den.log2 - num.log2 - 1) * 3 / 10) 350 : Int)

/-- The ratio `num / den` in units of `10 ^ unit`, as a ratio. -/
def inUnits (num den : Nat) (unit : Int) : Nat × Nat :=
  match unit with
  | .ofNat u => (num, den * Nat.pow 10 u)
  | .negSucc u => (num * Nat.pow 10 (u + 1), den)

namespace Binary64

/-- The ratios between which every real number rounds to `x`, and `x` itself, over one
denominator. -/
def interval (x : Binary64) : Nat × Nat × Nat × Nat :=
  let (num, den) := x.ratio
  let (num, den) := (4 * num, 4 * den)
  let gap := num / x.significand / 2
  let below := if x.fractionField = 0 ∧ 1 < x.exponentField then gap / 2 else gap
  (num - below, num, num + gap, den)

/-- The grid of `count` digits has a point that rounds to `x`: the nearest one. -/
def onGrid? (x : Binary64) (point : Int) (count : Nat) : Option Nat :=
  let (low, num, high, den) := x.interval
  let unit := point - count
  let (n, d) := inUnits num den unit
  let floor := n / d
  let inside (candidate : Nat) : Bool :=
    let (l, d₁) := inUnits low den unit
    let (h, d₂) := inUnits high den unit
    if x.significand % 2 = 0 then l ≤ candidate * d₁ && candidate * d₂ ≤ h
    else l < candidate * d₁ && candidate * d₂ < h
  let lowerFits := inside floor
  let upperFits := inside (floor + 1)
  if lowerFits && upperFits then
    some (if 2 * (n % d) < d ∨ (2 * (n % d) = d ∧ floor % 2 = 0) then floor else floor + 1)
  else if lowerFits then some floor
  else if upperFits then some (floor + 1)
  else none

/-- The first grid of `count` or more digits, up to 17, that has a point that rounds to `x`. -/
def firstGrid (x : Binary64) (point : Int) (count : Nat) : Nat → Nat × Nat
  | 0 => ((x.onGrid? point count).getD 0, count)
  | fuel + 1 =>
    match x.onGrid? point count with
    | some n => (n, count)
    | none => firstGrid x point (count + 1) fuel

/-- The fewest digits that read back as a positive finite number. -/
def shortest (x : Binary64) : Digits :=
  let (num, den) := x.ratio
  let point := decimalPoint num den
  let (n, count) := x.firstGrid point 1 16
  let digits := decimalFrom n []
  let kept := (digits.reverse.dropWhile (· == '0')).reverse
  ⟨kept, point + ((digits.length : Int) - count)⟩

end Binary64

/-- The exponent of a text with one digit before the point, with a sign and two digits or more. -/
def exponentText (e : Int) : String :=
  "e" ++ (if e < 0 then "-" else "+") ++ padded 2 e.natAbs

/-- Digits with one of them before the point, and an exponent. -/
def Digits.scientific (d : Digits) : String :=
  match d.digits with
  | [] => "0"
  | [c] => String.ofList [c] ++ exponentText (d.point - 1)
  | c :: cs => String.ofList (c :: '.' :: cs) ++ exponentText (d.point - 1)

/-- Digits around a point, with one digit at least on either side of it. -/
def Digits.positional (d : Digits) : String :=
  match d.point with
  | .ofNat 0 => String.ofList ('0' :: '.' :: d.digits)
  | .ofNat p =>
    let filled := d.digits ++ List.replicate (p - d.digits.length) '0'
    let fraction := filled.drop p
    String.ofList (filled.take p ++ '.' :: (if fraction.isEmpty then ['0'] else fraction))
  | .negSucc p => String.ofList ('0' :: '.' :: (List.replicate (p + 1) '0' ++ d.digits))

/-- The least and the largest place of the first digit for which a text is positional. -/
def positionalRange : Int × Int := (-3, 16)

namespace Binary64

/-- The shortest text of a finite number. -/
def finiteText (x : Binary64) : String :=
  let sign := if x.isNegative then "-" else ""
  if x.isZero then sign ++ "0.0"
  else
    let d := x.shortest
    if positionalRange.1 ≤ d.point ∧ d.point ≤ positionalRange.2 then sign ++ d.positional
    else sign ++ d.scientific

/-- The text of a number, with `inf` and `nan` for those that are not finite. -/
def text (x : Binary64) : String :=
  if x.isFinite then x.finiteText
  else if x.isNaN then "nan"
  else if x.isNegative then "-inf" else "inf"

/-- The size of a finite number with `places` digits after the point. -/
def fixedSize (x : Binary64) (places : Nat) : String :=
  let (num, den) := x.ratio
  let n := roundHalfEven (num * Nat.pow 10 places) den
  if places = 0 then natText n
  else natText (n / Nat.pow 10 places) ++ "." ++ padded places (n % Nat.pow 10 places)

/-- The first `count` significant digits, at least one, of the size of a finite number. -/
def significantDigits (x : Binary64) (count : Nat) : Digits :=
  if x.isZero then ⟨List.replicate count '0', 1⟩
  else
    let (num, den) := x.ratio
    let point := decimalPoint num den
    let (n, d) := inUnits num den (point - count)
    let digits := decimalFrom (roundHalfEven n d) []
    ⟨digits.take count, point + ((digits.length : Int) - count)⟩

/-- The size of a finite number with one digit before the point, `places` after it, and an
exponent. -/
def scientificSize (x : Binary64) (places : Nat) : String :=
  (x.significantDigits (places + 1)).scientific

/-- The size of a finite number in `count` significant digits less the zeros at their end,
positional where the exponent is from `-4` up to below `count`. -/
def generalSize (x : Binary64) (count : Nat) : String :=
  let count := max count 1
  let d := x.significantDigits count
  let kept := (d.digits.reverse.dropWhile (· == '0')).reverse
  let kept := if kept.isEmpty then ['0'] else kept
  if -3 ≤ d.point ∧ d.point ≤ count then
    let text := (Digits.mk kept d.point).positional
    if text.endsWith ".0" then String.ofList (text.toList.take (text.length - 2)) else text
  else (Digits.mk kept d.point).scientific

end Binary64

end Catalogue.Number
