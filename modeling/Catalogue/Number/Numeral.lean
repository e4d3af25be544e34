import Catalogue.Text.Blank
import Catalogue.Text.Digit
import Catalogue.Text.Quoted

/-! Numerals: integers as text.  A numeral may have blanks around it, a sign, and single underscores
between its digits, which may be of any decimal script.  More digits than `digitLimit` are refused.
-/

namespace Catalogue.Number

open Text

/-- The decimal digits of `n`, behind the characters `done`. -/
def decimalFrom (n : Nat) (done : List Char) : List Char :=
  if n < 10 then Char.ofNat (48 + n) :: done
  else decimalFrom (n / 10) (Char.ofNat (48 + n % 10) :: done)

/-- A natural number in base ten. -/
def natText (n : Nat) : String := String.ofList (decimalFrom n [])

/-- An integer in base ten. -/
def intText (n : Int) : String := if n < 0 then "-" ++ natText n.natAbs else natText n.natAbs

/-- A natural number in base ten with zeros before it, up to `width` digits. -/
def padded (width n : Nat) : String :=
  let digits := decimalFrom n []
  String.ofList (List.replicate (width - digits.length) '0' ++ digits)

/-- The most digits that a numeral may have. -/
def digitLimit : Nat := 4300

/-- Why a value is no integer. -/
inductive IntegerFault where
  | malformed (text : String)
  | tooLong (digits : Nat)
  | notANumber
  | infinite
  | wrongKind (kind : String)
  deriving DecidableEq

def IntegerFault.message : IntegerFault → String
  | .malformed text => "invalid literal for int() with base 10: " ++ quoted text
  | .tooLong digits =>
    "Exceeds the limit (" ++ natText digitLimit
      ++ " digits) for integer string conversion: value has " ++ natText digits
      ++ " digits; use sys.set_int_max_str_digits() to increase the limit"
  | .notANumber => "cannot convert float NaN to integer"
  | .infinite => "cannot convert float infinity to integer"
  | .wrongKind kind =>
    "int() argument must be a string, a bytes-like object or a real number, not '" ++ kind ++ "'"

/-- The number that digits write in base ten. -/
def ofDigits (digits : List Nat) : Nat := digits.foldl (fun n d => n * 10 + d) 0

/-- The value of digits of any script, other characters skipped. -/
def digitsValue (cs : List Char) : Nat := ofDigits (cs.filterMap digitValue?)

/-- A blank that may stand around a numeral: the information separators may not. -/
def isNumeralBlank (c : Char) : Bool := isBlank c && !(28 ≤ c.toNat && c.toNat ≤ 31)

/-- No underscore stands at the ends or beside another one. -/
def underscoresSeparate (cs : List Char) : Bool :=
  match cs with
  | [] => true
  | '_' :: _ => false
  | cs => cs.getLast? != some '_' && (cs.zip cs.tail).all fun p => p != ('_', '_')

/-- The sign at the front of a numeral, true for a minus, and what follows it. -/
def takeSign : List Char → Bool × List Char
  | '-' :: cs => (true, cs)
  | '+' :: cs => (false, cs)
  | cs => (false, cs)

/-- Reads a numeral. -/
def readInteger (s : String) : Except IntegerFault Int :=
  let (negative, cs) := takeSign (s.toList.dropWhile isNumeralBlank)
  let (body, rest) := cs.span fun c => c == '_' || (digitValue? c).isSome
  let digits := body.filterMap digitValue?
  if digits.isEmpty || !underscoresSeparate body then .error (.malformed s)
  else if digitLimit < digits.length then .error (.tooLong digits.length)
  else if !rest.all isNumeralBlank then .error (.malformed s)
  else .ok (if negative then -(ofDigits digits : Int) else ofDigits digits)

end Catalogue.Number
