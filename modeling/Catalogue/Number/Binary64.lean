/-! Binary floating point numbers of 64 bits, as exact values: every finite number is a sign, a
whole number below `2^53` and a power of two from `2^-1074` on.  A ratio of whole numbers is rounded
to the nearest number, and of two that are equally near to the even one. -/

namespace Catalogue.Number

/-- A floating point number, by its 64 bits: the sign, eleven bits of exponent, 52 of fraction. -/
structure Binary64 where
  bits : UInt64
  deriving DecidableEq

/-- The quotient of `num` by `den` rounded to the nearest whole number, a half to the even one. -/
def roundHalfEven (num den : Nat) : Nat :=
  let quotient := num / den
  let twice := 2 * (num % den)
  if twice < den then quotient
  else if den < twice then quotient + 1
  else quotient + quotient % 2

namespace Binary64

def isNegative (x : Binary64) : Bool := Nat.pow 2 63 ≤ x.bits.toNat

def exponentField (x : Binary64) : Nat := x.bits.toNat / Nat.pow 2 52 % Nat.pow 2 11

def fractionField (x : Binary64) : Nat := x.bits.toNat % Nat.pow 2 52

def isNaN (x : Binary64) : Bool := x.exponentField == 2047 && x.fractionField != 0

def isInfinite (x : Binary64) : Bool := x.exponentField == 2047 && x.fractionField == 0

def isFinite (x : Binary64) : Bool := x.exponentField != 2047

/-- The whole number that the power of two scales. -/
def significand (x : Binary64) : Nat :=
  if x.exponentField = 0 then x.fractionField else x.fractionField + Nat.pow 2 52

/-- How far the power of two lies above the least one, `2^-1074`. -/
def scale (x : Binary64) : Nat := x.exponentField - 1

def isZero (x : Binary64) : Bool := x.significand == 0

/-- The size of a finite number as a ratio. -/
def ratio (x : Binary64) : Nat × Nat :=
  if 1074 ≤ x.scale then (x.significand * Nat.pow 2 (x.scale - 1074), 1)
  else (x.significand, Nat.pow 2 (1074 - x.scale))

/-- The number with the given sign and the bits of `magnitude`; infinity where they overflow. -/
def ofMagnitude (negative : Bool) (magnitude : Nat) : Binary64 :=
  ⟨.ofNat ((if negative then Nat.pow 2 63 else 0) + min magnitude (2047 * Nat.pow 2 52))⟩

def zero : Binary64 := ⟨0⟩

def infinity (negative : Bool) : Binary64 := ofMagnitude negative (2047 * Nat.pow 2 52)

def nan : Binary64 := ⟨.ofNat (2047 * Nat.pow 2 52 + Nat.pow 2 51)⟩

/-- The scale at which `num / den` has 53 bits, or the least scale. -/
def scaleFor (num den : Nat) : Nat :=
  let guess := num.log2 + 1021 - den.log2
  if den * Nat.pow 2 (guess + 53) ≤ num * Nat.pow 2 1074 then guess + 1 else guess

/-- The number nearest to `num / den`. -/
def ofRatio (negative : Bool) (num den : Nat) : Binary64 :=
  let s := scaleFor num den
  if num = 0 then ofMagnitude negative 0
  else
    ofMagnitude negative
      (s * Nat.pow 2 52 + roundHalfEven (num * Nat.pow 2 1074) (den * Nat.pow 2 s))

/-- The number nearest to `digits * 10 ^ exponent`. -/
def ofDecimal (negative : Bool) (digits : Nat) (exponent : Int) : Binary64 :=
  let size : Int := digits.log2 / 4 + exponent
  if digits = 0 then ofMagnitude negative 0
  else if 310 < size then infinity negative
  else if (digits.log2 : Int) / 3 + exponent < -330 then ofMagnitude negative 0
  else match exponent with
    | .ofNat e => ofRatio negative (digits * Nat.pow 10 e) 1
    | .negSucc e => ofRatio negative digits (Nat.pow 10 (e + 1))

/-- The number nearest to a whole number. -/
def ofInt (n : Int) : Binary64 := ofRatio (n < 0) n.natAbs 1

/-- A finite number without its fraction. -/
def truncate (x : Binary64) : Int :=
  let size := x.ratio.1 / x.ratio.2
  if x.isNegative then -(size : Int) else size

/-- A finite number is whole. -/
def isWhole (x : Binary64) : Bool := x.isFinite && x.ratio.1 % x.ratio.2 == 0

end Binary64

end Catalogue.Number
