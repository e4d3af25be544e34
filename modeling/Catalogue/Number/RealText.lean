import Catalogue.Number.Numeral

/-! Floating point numbers as a person writes them: with blanks around them, digits of any script,
single underscores between digits, and words for infinity and for what is no number. -/

namespace Catalogue.Number

open Text

/-- A digit of any script as the ASCII digit of its value. -/
def asciiDigit (c : Char) : Char :=
  match digitValue? c with
  | some n => Char.ofNat (48 + n)
  | none => c

/-- Every underscore stands between two digits. -/
def underscoresJoinDigits (previous : Char) : List Char → Bool
  | [] => previous != '_'
  | c :: cs =>
    (c != '_' || isAsciiDigit previous) && (previous != '_' || isAsciiDigit c)
      && underscoresJoinDigits c cs

/-- The words that stand for numbers which are not finite. -/
def realWords : List String := ["inf", "infinity", "nan"]

/-- An exponent: none, or a mark with an optional sign and digits. -/
def isExponent : List Char → Bool
  | [] => true
  | c :: cs =>
    let digits := (takeSign cs).2
    (c == 'e' || c == 'E') && !digits.isEmpty && digits.all isAsciiDigit

/-- Digits with an optional point among them or at their ends, and an optional exponent. -/
def isDecimal (cs : List Char) : Bool :=
  let whole := cs.takeWhile isAsciiDigit
  match cs.dropWhile isAsciiDigit with
  | '.' :: rest =>
    let fraction := rest.takeWhile isAsciiDigit
    !(whole.isEmpty && fraction.isEmpty) && isExponent (rest.dropWhile isAsciiDigit)
  | rest => !whole.isEmpty && isExponent rest

/-- A text writes a floating point number. -/
def isRealText (s : String) : Bool :=
  let cs := (trimBy isNumeralBlank s.toList).map asciiDigit
  let body := (takeSign (cs.filter (· != '_'))).2
  underscoresJoinDigits ' ' cs
    && (isDecimal body || realWords.contains (String.ofList (body.map Char.toLower)))

end Catalogue.Number
