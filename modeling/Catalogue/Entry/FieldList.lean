import Catalogue.Text.Blank

/-! Lists of texts in a single column: every text between bars, `|Hamlet|King Lear|`, so that a
search for `|Hamlet|` finds whole texts only.  A text that holds a bar comes back in pieces. -/

namespace Catalogue.FieldList

open Text

/-- The character between the texts. -/
def bar : Char := '|'

/-- The column that holds a list. -/
def encode (texts : List String) : String :=
  if texts.isEmpty then "" else "|" ++ join "|" texts ++ "|"

/-- A text without its first and its last character. -/
def interior (column : String) : String := String.ofList column.toList.tail.dropLast

/-- The list that a column holds. -/
def decode (column : String) : List String :=
  if column = "" ∨ column = "||" then [] else pieces bar (interior column)

/-- The search pattern for the columns that hold `text`. -/
def pattern (text : String) : String := "%|" ++ text ++ "|%"

end Catalogue.FieldList
