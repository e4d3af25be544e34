import Catalogue.Json.Inspect

/-! Calendar dates.  A date is written with four digits of the year and two of the month and of the
day; it is read with fewer digits too, in any decimal script, and with blanks around it. -/

namespace Catalogue

open Number Text

/-- A year has a 29th of February. -/
def isLeapYear (year : Nat) : Bool := year % 4 == 0 && (year % 100 != 0 || year % 400 == 0)

/-- The number of days of a month from 1 to 12. -/
def monthDays (year month : Nat) : Nat :=
  if month = 2 then (if isLeapYear year then 29 else 28)
  else if month = 4 ∨ month = 6 ∨ month = 9 ∨ month = 11 then 30
  else 31

/-- The calendar has this day; years run from 1 to 9999. -/
def IsDay (year month day : Nat) : Prop :=
  (1 ≤ year ∧ year ≤ 9999) ∧ (1 ≤ month ∧ month ≤ 12) ∧ 1 ≤ day ∧ day ≤ monthDays year month

instance (year month day : Nat) : Decidable (IsDay year month day) := by
  unfold IsDay; infer_instance

/-- A day of the calendar. -/
structure Date where
  year : Nat
  month : Nat
  day : Nat
  isDay : IsDay year month day
  deriving DecidableEq

namespace Date

/-- The day with these numbers, where the calendar has it. -/
def ofNumbers? (year month day : Nat) : Option Date :=
  if h : IsDay year month day then some ⟨year, month, day, h⟩ else none

/-- The written form of a date. -/
def text (d : Date) : String :=
  padded 4 d.year ++ "-" ++ padded 2 d.month ++ "-" ++ padded 2 d.day

/-- The number that one to `most` decimal digits write. -/
def field? (most : Nat) (s : String) : Option Nat :=
  let cs := s.toList
  if 1 ≤ cs.length ∧ cs.length ≤ most then (cs.mapM digitValue?).map ofDigits else none

/-- Reads a date. -/
def parse? (s : String) : Option Date :=
  match pieces '-' (trim s) with
  | [year, month, day] => do ofNumbers? (← field? 4 year) (← field? 2 month) (← field? 2 day)
  | _ => none

/-- Reads a date from the text of a stored value. -/
def ofStored? (value : Json) : Option Date := value.display.sound?.bind parse?

/-- What is said of a stored value that is no date. -/
def storedFault (value : Json) : String := "invalid stored date: " ++ value.inspect

/-- The day that is `n` days after the first of January 1970.  Years are counted from March on, in
eras of 400 years. -/
def ofDays? (n : Int) : Option Date :=
  let shifted := n + 719468
  let era := shifted / 146097
  let dayOfEra := (shifted - era * 146097).toNat
  let yearOfEra := (dayOfEra - dayOfEra / 1460 + dayOfEra / 36524 - dayOfEra / 146096) / 365
  let dayOfYear := dayOfEra - (365 * yearOfEra + yearOfEra / 4 - yearOfEra / 100)
  let shiftedMonth := (5 * dayOfYear + 2) / 153
  let day := dayOfYear - (153 * shiftedMonth + 2) / 5 + 1
  let month := if shiftedMonth < 10 then shiftedMonth + 3 else shiftedMonth - 9
  let year := (yearOfEra : Int) + era * 400 + (if month ≤ 2 then 1 else 0)
  if year < 1 then none else ofNumbers? year.toNat month day

/-- The first day of the calendar. -/
def first : Date := ⟨1, 1, 1, by decide⟩

end Date

end Catalogue
