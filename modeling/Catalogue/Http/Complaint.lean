import Catalogue.Http.Problem

/-! What can be wrong with a value in the data of a request.  Every field is looked at, and the
problems of all fields are reported together, in the order of the fields. -/

namespace Catalogue.Http

/-- What is wrong with a value. -/
inductive Complaint where
  | missing
  | notJson
  | notObject
  | notText
  | notUnicode
  | notList
  | notInteger
  | integerText
  | integerTooLong
  | fraction
  | notFinite
  | negative
  | notBoolean
  | booleanText
  | notDate
  | dateText
  | dateRange
  | timeOfDay
  | notKind
  deriving DecidableEq

namespace Complaint

/-- The name under which a complaint is reported. -/
def name : Complaint → String
  | .missing => "missing"
  | .notJson => "json_invalid"
  | .notObject => "model_attributes_type"
  | .notText => "string_type"
  | .notUnicode => "string_unicode"
  | .notList => "list_type"
  | .notInteger => "int_type"
  | .integerText => "int_parsing"
  | .integerTooLong => "int_parsing_size"
  | .fraction => "int_from_float"
  | .notFinite => "finite_number"
  | .negative => "greater_than_equal"
  | .notBoolean => "bool_type"
  | .booleanText => "bool_parsing"
  | .notDate => "date_type"
  | .dateText => "date_from_datetime_parsing"
  | .dateRange => "date_parsing"
  | .timeOfDay => "date_from_datetime_inexact"
  | .notKind => "literal_error"

/-- A complaint in words. -/
def message : Complaint → String
  | .missing => "Field required"
  | .notJson => "JSON decode error"
  | .notObject => "Input should be a valid dictionary or object to extract fields from"
  | .notText => "Input should be a valid string"
  | .notUnicode =>
    "Input should be a valid string, unable to parse raw data as a unicode string"
  | .notList => "Input should be a valid list"
  | .notInteger => "Input should be a valid integer"
  | .integerText => "Input should be a valid integer, unable to parse string as an integer"
  | .integerTooLong => "Unable to parse input string as an integer, exceeded maximum size"
  | .fraction => "Input should be a valid integer, got a number with a fractional part"
  | .notFinite => "Input should be a finite number"
  | .negative => "Input should be greater than or equal to 0"
  | .notBoolean => "Input should be a valid boolean"
  | .booleanText => "Input should be a valid boolean, unable to interpret input"
  | .notDate => "Input should be a valid date"
  | .dateText => "Input should be a valid date or datetime"
  | .dateRange => "Input should be a valid date in the format YYYY-MM-DD"
  | .timeOfDay => "Datetimes provided to dates should have zero time - e.g. be exact dates"
  | .notKind => "Input should be 'article', 'paper', 'book', 'video' or 'audio'"

end Complaint

/-- A value, or what is wrong with the data that should give it. -/
abbrev Checked (α : Type) := Except (List Problem) α

namespace Checked

/-- Joins the problems of a function with those of its argument. -/
def ap {α β : Type} (f : Checked (α → β)) (a : Checked α) : Checked β :=
  match f, a with
  | .ok f, .ok a => .ok (f a)
  | .ok _, .error more => .error more
  | .error problems, .ok _ => .error problems
  | .error problems, .error more => .error (problems ++ more)

/-- A single complaint about the value at a location. -/
def complain {α : Type} (location : List Place) (c : Complaint) : Checked α :=
  .error [⟨location, c.message, c.name⟩]

/-- A value of a check at a location. -/
def at_ {α : Type} (location : List Place) (result : Except Complaint α) : Checked α :=
  match result with
  | .ok a => .ok a
  | .error c => complain location c

end Checked

end Catalogue.Http
