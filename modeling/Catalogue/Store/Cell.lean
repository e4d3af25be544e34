import Catalogue.Json.Basic
import Catalogue.Number.ExtendedText
import Catalogue.Number.Word

/-! Cells of a stored row.  A text column turns numbers into text; a numeric column turns text that
reads as a number into that number, and a whole number into an integer. -/

namespace Catalogue

open Number Text

/-- The largest integer that a column can hold. -/
def maxInteger : Int := wordBound - 1

/-- What is said of an integer that no column can hold. -/
def tooLargeForColumn : String := "Python int too large to convert to SQLite INTEGER"

/-- A value in a column that is never empty. -/
inductive Cell where
  | int (n : Int)
  | real (x : Binary64)
  | text (s : String)
  deriving DecidableEq

/-- Why a value has no cell: it is an integer or a text that no column can hold, or of a type that
none can. -/
inductive BindFault where
  | integerTooLarge
  | looseText
  | unsupported (type : String)
  deriving DecidableEq

def BindFault.message : BindFault → String
  | .integerTooLarge => tooLargeForColumn
  | .looseText => "half of a surrogate pair is no text for a column"
  | .unsupported type => "Error binding parameter 1: type '" ++ type ++ "' is not supported"

namespace Cell

/-- The cell that a value makes; null makes none. -/
def ofJson : Json → Except BindFault (Option Cell)
  | .null => .ok none
  | .bool b => .ok (some (.int (if b then 1 else 0)))
  | .int n => if FitsWord n then .ok (some (.int n)) else .error .integerTooLarge
  | .real x => .ok (if x.isNaN then none else some (.real x))
  | .text s => .ok (some (.text s))
  | .string _ => .error .looseText
  | value => .error (.unsupported value.kindName)

/-- A cell as a JSON value. -/
def toJson : Cell → Json
  | .int n => .int n
  | .real x => .real x
  | .text s => .text s

/-- The text of a number in a text column: at most 15 digits, always with a point. -/
def realText (x : Binary64) : String :=
  if x.isInfinite then (if x.isNegative then "-Inf" else "Inf")
  else
    let sign := if x.isNegative && !x.isZero then "-" else ""
    let d := x.fifteenDigits
    let kept := (d.digits.reverse.dropWhile (· == '0')).reverse
    if -3 ≤ d.point ∧ d.point ≤ 15 then sign ++ (Digits.mk kept d.point).positional
    else
      sign ++ (Digits.mk kept 1).positional ++ exponentText (d.point - 1)

/-- The text that a text column keeps. -/
def asText : Cell → String
  | .int n => intText n
  | .real x => realText x
  | .text s => s

/-- A number that a numeric column keeps: whole numbers inside the range of integers as integers. -/
def ofReal (x : Binary64) : Cell :=
  if x.isWhole && decide (-wordBound < x.truncate) && decide (x.truncate < maxInteger) then
    .int x.truncate
  else .real x

/-- White space around a number in a text. -/
def isNumberSpace (c : Char) : Bool := c == ' ' || (9 ≤ c.toNat && c.toNat ≤ 13)

/-- The exponent that stands at the end of a number: zero where there is none, and nothing where its
mark has no digits. -/
def exponent? : List Char → Option Int
  | [] => some 0
  | c :: cs =>
    let (negative, digits) := takeSign cs
    if (c == 'e' || c == 'E') && !digits.isEmpty && digits.all isAsciiDigit then
      let size : Int := Gathered.exponentOf digits
      some (if negative then -size else size)
    else none

/-- The number that a whole text writes. -/
def readNumber? (s : String) : Option Cell :=
  let (negative, body) := takeSign (trimBy isNumberSpace s.toList)
  let (whole, rest) := body.span isAsciiDigit
  let (pointed, fraction, rest) := match rest with
    | '.' :: rest => (true, rest.span isAsciiDigit)
    | rest => (false, [], rest)
  let size : Int := digitsValue whole
  let value := if negative then -size else size
  if whole.isEmpty && fraction.isEmpty then none
  else if rest.isEmpty && !pointed && decide (FitsWord value) then some (.int value)
  else (exponent? rest).map fun e =>
    ofReal ((Gathered.ofDigits whole fraction).value negative e)

/-- The cell that a numeric column keeps. -/
def asNumber : Cell → Cell
  | .int n => .int n
  | .real x => ofReal x
  | .text s => (readNumber? s).getD (.text s)

/-- Two cells are equal: an integer and a real number are where they are the same number. -/
def same : Cell → Cell → Bool
  | .int n, .real x | .real x, .int n => x.isWhole && x.truncate == n
  | a, b => a == b

/-- A cell equals an integer. -/
def isInt (n : Int) : Cell → Bool
  | .int m => m == n
  | _ => false

/-- A cell comes before a text: numbers come before every text. -/
def atMostText (s : String) : Cell → Bool
  | .text t => t ≤ s
  | _ => true

/-- A cell comes after a text, or is that text. -/
def atLeastText (s : String) : Cell → Bool
  | .text t => s ≤ t
  | _ => false

end Cell

end Catalogue
