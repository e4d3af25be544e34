import Catalogue.Date
import Catalogue.Http.Scalar

/-! Days in the data of a request: a date, a date with a time of midnight, or the seconds from the
start of 1970 to a midnight.  A number too large for seconds counts milliseconds. -/

namespace Catalogue.Http

open Number Text

/-- The number that some digits write, where there are digits alone. -/
def digits? (cs : List Char) : Option Nat :=
  if !cs.isEmpty && cs.all isAsciiDigit then some (digitsValue cs) else none

/-- A day by its numbers; the calendar of requests has a year zero, which no date has. -/
def dayOfNumbers (year month day : Nat) : Except Complaint Date :=
  match Date.ofNumbers? year month day with
  | some date => .ok date
  | none =>
    if year = 0 ∧ (Date.ofNumbers? 400 month day).isSome then .error .dateRange
    else .error .dateText

/-- The date in the first ten characters. -/
def readDay (cs : List Char) : Except Complaint Date :=
  match cs with
  | [y₁, y₂, y₃, y₄, '-', m₁, m₂, '-', d₁, d₂] =>
    match digits? [y₁, y₂, y₃, y₄], digits? [m₁, m₂], digits? [d₁, d₂] with
    | some year, some month, some day => dayOfNumbers year month day
    | _, _, _ => .error .dateText
  | _ => .error .dateText

/-- A time of day: it is midnight, or another time. -/
inductive TimeOfDay where
  | midnight
  | other
  deriving DecidableEq

/-- Two digits below a bound. -/
def below? (bound : Nat) (a b : Char) : Option Nat :=
  match digits? [a, b] with
  | some n => if n < bound then some n else none
  | none => none

/-- A zone of time: nothing, `Z`, or a sign with hours and minutes. -/
def isZone (cs : List Char) : Bool :=
  let isSign (c : Char) : Bool := c == '+' || c == '-' || c == '−'
  match cs with
  | [] => true
  | [c] => c == 'Z' || c == 'z'
  | [s, a, b, ':', c, d] | [s, a, b, c, d] =>
    isSign s && (below? 24 a b).isSome && (below? 60 c d).isSome
  | _ => false

/-- The fraction of a second at the front, true where its first six digits are zeros, and what
follows it; nothing where a mark has no digits. -/
def takeFraction? (cs : List Char) : Option (Bool × List Char) :=
  match cs with
  | c :: rest =>
    if c = '.' ∨ c = ',' then
      let digits := rest.takeWhile isAsciiDigit
      if digits.isEmpty then none
      else some ((digits.take 6).all (· == '0'), rest.dropWhile isAsciiDigit)
    else some (true, cs)
  | [] => some (true, cs)

/-- The seconds at the front, true where they are zero, and what follows them. -/
def takeSeconds? (cs : List Char) : Option (Bool × List Char) :=
  match cs with
  | ':' :: a :: b :: rest => do
    let seconds ← below? 60 a b
    let (isZero, rest) ← takeFraction? rest
    return (isZero && seconds == 0, rest)
  | ':' :: _ => none
  | _ => some (true, cs)

/-- Reads a time of day with its zone. -/
def readTime? (cs : List Char) : Option TimeOfDay :=
  match cs with
  | a :: b :: ':' :: c :: d :: rest => do
    let hours ← below? 24 a b
    let minutes ← below? 60 c d
    let (isZero, zone) ← takeSeconds? rest
    if isZone zone then
      return if hours == 0 && minutes == 0 && isZero then .midnight else .other
    else none
  | _ => none

/-- The largest number that counts seconds. -/
def largestSeconds : Int := 20000000000

/-- The first and the last second that a number may mean: from the year zero, which no date has, to
9999. -/
def secondsRange : Int × Int := (-62167219200, 253402300799)

/-- The day of which the given second is the start; `exact` tells that it is no part of a second
later. -/
def dayOfSeconds (seconds : Int) (exact : Bool) : Except Complaint Date :=
  if seconds < secondsRange.1 ∨ secondsRange.2 < seconds then .error .dateText
  else if seconds % 86400 ≠ 0 ∨ !exact then .error .timeOfDay
  else match Date.ofDays? (seconds / 86400) with
    | some date => .ok date
    | none => .error .dateRange

/-- The day that a whole number of seconds or milliseconds means, with millionths of a second to be
added to it. -/
def dayOfNumber (n : Int) (millionths : Nat) : Except Complaint Date :=
  if n.natAbs ≤ largestSeconds.toNat then
    dayOfSeconds (n + millionths / 1000000) (millionths % 1000000 == 0)
  else
    let total := (n % 1000).toNat * 1000 + millionths
    dayOfSeconds (n / 1000 + total / 1000000) (total % 1000000 == 0)

/-- The whole number below a number, and the millionths from there to the number.  The difference
and its millionfold are rounded to 64 bits in turn. -/
def wholeAndMillionths (x : Binary64) : Int × Nat :=
  let (num, den) := x.ratio
  let whole : Int := num / den
  let excess := num % den
  let (floor, difference) :=
    if !x.isNegative then (whole, excess)
    else if excess = 0 then (-whole, 0)
    else (-whole - 1, den - excess)
  let (num, den) := (Binary64.ofRatio false difference den).ratio
  let (num, den) := (Binary64.ofRatio false (num * 1000000) den).ratio
  (floor, (2 * num + den) / (2 * den))

/-- The day that a number means. -/
def dayOfReal (x : Binary64) : Except Complaint Date :=
  if !x.isFinite then .error .dateText
  else
    let (whole, millionths) := wholeAndMillionths x
    dayOfNumber whole millionths

/-- The seconds of a number: a thousandth of it where it is too large for seconds. -/
def inSeconds (x : Binary64) : Binary64 :=
  let (num, den) := x.ratio
  if largestSeconds.toNat * den < num then .ofRatio x.isNegative num (den * 1000) else x

/-- The day that a number written with a point means. -/
def dayOfPointed (x : Binary64) : Except Complaint Date :=
  if !x.isFinite then .error .dateText
  else
    let (whole, millionths) := wholeAndMillionths (inSeconds x)
    dayOfSeconds (whole + millionths / 1000000) (millionths % 1000000 == 0)

/-- A number written as text: an optional sign, digits, and an optional point with or without digits
after it. -/
def numberText? (cs : List Char) : Option (Except Complaint Date) :=
  let (negative, body) := takeSign cs
  let whole := body.takeWhile isAsciiDigit
  let size : Int := digitsValue whole
  match whole, body.dropWhile isAsciiDigit with
  | [], _ => none
  | _, [] => some (dayOfNumber (if negative then -size else size) 0)
  | _, '.' :: fraction =>
    if fraction.all isAsciiDigit then
      some (dayOfPointed
        (.ofDecimal negative (digitsValue (whole ++ fraction)) (-(fraction.length : Int))))
    else none
  | _, _ => none

/-- A day written as text. -/
def dayOfText (s : String) : Except Complaint Date :=
  let cs := s.toList
  match numberText? cs with
  | some result => result
  | none =>
    match cs.drop 10 with
    | [] => readDay cs
    | mark :: time =>
      if mark = 'T' ∨ mark = 't' ∨ mark = ' ' ∨ mark = '_' then
        match readDay (cs.take 10), readTime? time with
        | .error .dateText, _ | _, none => .error .dateText
        | _, some .other => .error .timeOfDay
        | result, some .midnight => result
      else .error .dateText

/-- A day. -/
def readDate : Json → Except Complaint Date
  | .text s => dayOfText s
  | .string _ => .error .notUnicode
  | .int n =>
    if (Binary64.ofInt n).isFinite then dayOfNumber n 0 else .error .notDate
  | .real x => dayOfReal x
  | _ => .error .notDate

end Catalogue.Http
