import Catalogue.Number.Decimal
import Catalogue.Text.Loose

/-! JSON values.  Whole numbers and floating point numbers are told apart, and the members of an
object keep their order.  Texts and keys are loose: an escape may write half of a surrogate pair. -/

namespace Catalogue

open Number Text

inductive Json where
  | null
  | bool (b : Bool)
  | int (n : Int)
  | real (x : Binary64)
  | string (w : LooseText)
  | list (items : List Json)
  | object (members : List (LooseText × Json))

/-- A sound text as a value. -/
@[match_pattern] abbrev Json.text (s : String) : Json := .string (.sound s)

/-- The members of an object, in order. -/
abbrev Members := List (LooseText × Json)

namespace Members

/-- The value under `key`. -/
def get? (members : Members) (key : LooseText) : Option Json := members.lookup key

/-- An object has a member `key`. -/
def has (members : Members) (key : LooseText) : Bool := members.any (·.1 == key)

/-- Sets the value under `key`: in its place where the object has it, else at the end. -/
def put (members : Members) (key : LooseText) (value : Json) : Members :=
  if members.has key then members.map fun m => if m.1 == key then (m.1, value) else m
  else members ++ [(key, value)]

/-- The members other than `key`. -/
def erase (members : Members) (key : LooseText) : Members := members.filter (·.1 != key)

/-- Sets the values of `others` in turn. -/
def putAll (members others : Members) : Members :=
  others.foldl (fun all m => all.put m.1 m.2) members

end Members

namespace Json

/-- The members of an object; none of any other value. -/
def members? : Json → Option Members
  | .object members => some members
  | _ => none

/-- The value under `key` of an object. -/
def get? (value : Json) (key : LooseText) : Option Json := value.members?.bind (·.get? key)

/-- A value other than null, false, zero and whatever is empty. -/
def isTruthy : Json → Bool
  | .null => false
  | .bool b => b
  | .int n => n != 0
  | .real x => x.isNaN || !x.isZero
  | .string w => w != .sound ""
  | .list items => !items.isEmpty
  | .object members => !members.isEmpty

/-- The name of the kind of a value, as messages give it. -/
def kindName : Json → String
  | .null => "NoneType"
  | .bool _ => "bool"
  | .int _ => "int"
  | .real _ => "float"
  | .string _ => "str"
  | .list _ => "list"
  | .object _ => "dict"

/-- The integer that a text writes; one with a half of a pair writes none. -/
def readNumeral (w : LooseText) : Except IntegerFault Int :=
  match w with
  | .sound s => readInteger s
  | .torn .. => .error (.malformed w.patched)

/-- The integer that a value stands for: a number less its fraction, a numeral, a truth value as
zero or one. -/
def toInteger : Json → Except IntegerFault Int
  | .bool b => .ok (if b then 1 else 0)
  | .int n => .ok n
  | .real x =>
    if x.isNaN then .error .notANumber
    else if x.isInfinite then .error .infinite
    else .ok x.truncate
  | .string w => readNumeral w
  | value => .error (.wrongKind value.kindName)

end Json

end Catalogue
