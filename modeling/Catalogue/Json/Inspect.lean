import Catalogue.Json.Basic

/-! The text of a value in messages: a text stands for itself, or between quotes where it is shown
as a value or inside one. -/

namespace Catalogue.Json

open Number Text

mutual

/-- A value as shown: texts between quotes. -/
def inspect : Json → String
  | .null => "None"
  | .bool b => if b then "True" else "False"
  | .int n => intText n
  | .real x => x.text
  | .string w => w.quoted
  | .list items => "[" ++ join ", " (inspectItems items) ++ "]"
  | .object members => "\x7b" ++ join ", " (inspectMembers members) ++ "\x7d"

def inspectItems : List Json → List String
  | [] => []
  | item :: items => inspect item :: inspectItems items

def inspectMembers : List (LooseText × Json) → List String
  | [] => []
  | (key, value) :: members => (key.quoted ++ ": " ++ inspect value) :: inspectMembers members

end

/-- A value as text: a text is itself, any other value as shown. -/
def display : Json → LooseText
  | .string w => w
  | value => value.inspect

end Catalogue.Json
