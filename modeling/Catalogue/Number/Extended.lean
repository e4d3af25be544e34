import Catalogue.Number.Binary64

/-! Numbers with a significand of 64 bits and an exponent without bounds, for intermediate results.
Every operation is exact but for one rounding to the nearest number, and of two that are equally
near to the even one. -/

namespace Catalogue.Number

/-- The number `significand * 2 ^ exponent`; no operation gives a significand of more than 64
bits. -/
structure Extended where
  significand : Nat
  exponent : Int
  deriving DecidableEq

namespace Extended

/-- A number as a ratio. -/
def ratio (x : Extended) : Nat × Nat :=
  match x.exponent with
  | .ofNat e => (x.significand * Nat.pow 2 e, 1)
  | .negSucc e => (x.significand, Nat.pow 2 (e + 1))

/-- A ratio in units of `2 ^ unit`, as a ratio. -/
def inPowers (num den : Nat) (unit : Int) : Nat × Nat :=
  match unit with
  | .ofNat u => (num, den * Nat.pow 2 u)
  | .negSucc u => (num * Nat.pow 2 (u + 1), den)

/-- The power of two in units of which `num / den` has 64 bits before its point. -/
def unitFor (num den : Nat) : Int :=
  let guess : Int := (num.log2 : Int) - den.log2 - 64
  let (n, d) := inPowers num den guess
  if d * Nat.pow 2 64 ≤ n then guess + 1 else guess

/-- The number nearest to `num / den`. -/
def ofRatio (num den : Nat) : Extended :=
  if num = 0 then ⟨0, 0⟩
  else
    let unit := unitFor num den
    let (n, d) := inPowers num den unit
    let rounded := roundHalfEven n d
    if rounded = Nat.pow 2 64 then ⟨Nat.pow 2 63, unit + 1⟩ else ⟨rounded, unit⟩

/-- The number nearest to a natural number. -/
def ofNat (n : Nat) : Extended := ofRatio n 1

/-- The size of a finite number of 64 bits. -/
def ofBinary (x : Binary64) : Extended := ofRatio x.ratio.1 x.ratio.2

/-- The number of 64 bits nearest to a number with a sign. -/
def toBinary (negative : Bool) (x : Extended) : Binary64 :=
  .ofRatio negative x.ratio.1 x.ratio.2

def add (x y : Extended) : Extended :=
  ofRatio (x.ratio.1 * y.ratio.2 + y.ratio.1 * x.ratio.2) (x.ratio.2 * y.ratio.2)

/-- The difference of a number and one that is not larger. -/
def sub (x y : Extended) : Extended :=
  ofRatio (x.ratio.1 * y.ratio.2 - y.ratio.1 * x.ratio.2) (x.ratio.2 * y.ratio.2)

def mul (x y : Extended) : Extended :=
  ofRatio (x.ratio.1 * y.ratio.1) (x.ratio.2 * y.ratio.2)

/-- The quotient of a number by one that is not zero. -/
def div (x y : Extended) : Extended :=
  ofRatio (x.ratio.1 * y.ratio.2) (x.ratio.2 * y.ratio.1)

/-- A number is at most another one. -/
def atMost (x y : Extended) : Bool := decide (x.ratio.1 * y.ratio.2 ≤ y.ratio.1 * x.ratio.2)

/-- A number is less than another one. -/
def below (x y : Extended) : Bool := !y.atMost x

/-- A number without its fraction. -/
def floor (x : Extended) : Nat := x.ratio.1 / x.ratio.2

end Extended

end Catalogue.Number
