import Catalogue.Http.Complaint
import Catalogue.Number.Numeral
import Catalogue.Number.Word

/-! Texts, integers and truth values in the data of a request.  An integer may be written as text,
with blanks around it, a sign, leading zeros, single underscores and a point with zeros after it; a
truth value may be written as a word. -/

namespace Catalogue.Http

open Number Text

/-- A text. -/
def readText : Json → Except Complaint LooseText
  | .string w => .ok w
  | _ => .error .notText

/-- The sign of a plain integer, true for a minus, and its digits, which have no zeros at their
front. -/
def plainInteger? (cs : List Char) : Option (Bool × List Char) :=
  let (negative, digits) := match cs with
    | '-' :: rest => (true, rest)
    | _ => (false, cs)
  match digits with
  | [] => none
  | ['0'] => some (negative, digits)
  | first :: _ =>
    if first ≠ '0' ∧ digits.all isAsciiDigit then some (negative, digits) else none

/-- A numeral without the zeros, and the underscores among them, at its front; none where a
character that is no digit and no minus stands there or follows the zeros. -/
def withoutZeros? (cs : List Char) : Option (List Char) :=
  match cs with
  | '0' :: rest =>
    match rest.dropWhile fun c => c == '0' || c == '_' with
    | [] => some (cs.drop (cs.length - 1))
    | '.' :: fraction => some (cs.drop (cs.length - fraction.length - 2))
    | c :: after => if isAsciiDigit c || c == '-' then some (c :: after) else none
  | c :: _ => if isAsciiDigit c || c == '-' then some cs else none
  | [] => none

/-- A numeral without a point that zeros follow, and nothing else. -/
def withoutPoint (cs : List Char) : List Char :=
  match cs.dropWhile (· != '.') with
  | _ :: fraction =>
    if !fraction.isEmpty && fraction.all (· == '0') then cs.takeWhile (· != '.') else cs
  | [] => cs

/-- A numeral without its underscores, where they are single and inside it. -/
def withoutUnderscores (cs : List Char) : List Char :=
  if underscoresSeparate cs then cs.filter (· != '_') else cs

/-- A numeral without the zeros behind a minus at its front, of which one stays where nothing
follows them. -/
def withoutInnerZeros (cs : List Char) : List Char :=
  match cs with
  | '-' :: '0' :: rest =>
    let digits := rest.dropWhile (· == '0')
    if digits.isEmpty then ['-', '0'] else '-' :: digits
  | _ => cs

/-- The plain form of an integer written in another way. -/
def plainForm? (cs : List Char) : Option (List Char) := do
  let trimmed := trimBy isNumeralBlank cs
  let unsigned ← match trimmed with
    | '+' :: '-' :: _ => none
    | '+' :: rest => some rest
    | _ => some trimmed
  return withoutInnerZeros (withoutUnderscores (withoutPoint (← withoutZeros? unsigned)))

/-- An integer written as text. -/
def integerOfText (s : String) : Except Complaint Int :=
  let read := (plainInteger? s.toList).orElse fun _ => (plainForm? s.toList).bind plainInteger?
  match read with
  | none => .error .integerText
  | some (negative, digits) =>
    if digitLimit < digits.length then .error .integerTooLong
    else
      let size : Int := digitsValue digits
      .ok (if negative then -size else size)

/-- An integer. -/
def readInteger : Json → Except Complaint Int
  | .int n => .ok n
  | .bool b => .ok (if b then 1 else 0)
  | .text s => integerOfText s
  | .string _ => .error .notUnicode
  | .real x =>
    if !x.isFinite then .error .notFinite
    else if !x.isWhole then .error .fraction
    else if -wordBound < x.truncate ∧ x.truncate < wordBound then .ok x.truncate
    else .error .integerTooLong
  | _ => .error .notInteger

/-- An integer that is not negative. -/
def readNatural (value : Json) : Except Complaint Int := do
  let n ← readInteger value
  if n < 0 then throw .negative
  return n

/-- The words for true. -/
def trueWords : List String := ["1", "t", "y", "on", "yes", "true"]

/-- The words for false. -/
def falseWords : List String := ["0", "f", "n", "no", "off", "false"]

/-- A truth value written as a word, in letters of either case. -/
def booleanOfText (s : String) : Except Complaint Bool :=
  let word := String.ofList (s.toList.map Char.toLower)
  if trueWords.contains word then .ok true
  else if falseWords.contains word then .ok false
  else .error .booleanText

/-- A truth value for the number one or zero. -/
def booleanOfNumber (n : Int) : Except Complaint Bool :=
  if n = 1 then .ok true else if n = 0 then .ok false else .error .booleanText

/-- A truth value. -/
def readBoolean : Json → Except Complaint Bool
  | .bool b => .ok b
  | .text s => booleanOfText s
  | .string _ => .error .notUnicode
  | .int n => if FitsWord n then booleanOfNumber n else .error .notBoolean
  | .real x =>
    if x.isWhole ∧ -wordBound < x.truncate ∧ x.truncate < wordBound then booleanOfNumber x.truncate
    else .error .notBoolean
  | _ => .error .notBoolean

end Catalogue.Http
