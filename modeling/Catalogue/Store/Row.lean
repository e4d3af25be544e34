import Catalogue.Entry.Basic
import Catalogue.Entry.FieldList
import Catalogue.Store.Cell

/-! Stored rows: an entry spread over fourteen columns.  Texts and lists stand in text columns, the
dates, the mark, the kind and the measure in numeric columns. -/

namespace Catalogue

open Number Text

/-- A row of the table of entries. -/
structure Row where
  id : Int
  link : String
  title : String
  description : String
  authors : String
  category : String
  themes : String
  worksMentioned : String
  tags : String
  published : Cell
  saved : Cell
  exceptional : Cell
  kind : Cell
  amount : Cell

/-- Why a row is no entry. -/
inductive RowFault where
  | malformed
  | infinite
  deriving DecidableEq

namespace Row

/-- The row that a form makes. -/
def ofForm (id : Int) (form : Form) (saved : Cell) : Row where
  id := id
  link := form.link
  title := form.title
  description := form.description
  authors := FieldList.encode form.authors
  category := form.category
  themes := FieldList.encode form.themes
  worksMentioned := FieldList.encode form.worksMentioned
  tags := FieldList.encode form.tags
  published := .text form.published.text
  saved := saved
  exceptional := .int (if form.exceptional then 1 else 0)
  kind := .int form.type.kind.index
  amount := .int form.type.amount

/-- The date in a cell. -/
def readDate (cell : Cell) : Except RowFault Date :=
  match Date.ofStored? cell.toJson with
  | some date => .ok date
  | none => .error .malformed

/-- The kind and the measure in two cells. -/
def readType (kind amount : Cell) : Except RowFault EntryType :=
  match EntryType.ofStored kind.toJson amount.toJson with
  | .ok type => .ok type
  | .error (.numeral .infinite) => .error .infinite
  | .error _ => .error .malformed

/-- The entry in a row. -/
def entry (row : Row) : Except RowFault Entry := do
  let published ← readDate row.published
  let saved ← readDate row.saved
  let type ← readType row.kind row.amount
  return {
    id := row.id
    saved := saved
    form := {
      link := row.link
      title := row.title
      description := row.description
      authors := FieldList.decode row.authors
      category := row.category
      themes := FieldList.decode row.themes
      worksMentioned := FieldList.decode row.worksMentioned
      tags := FieldList.decode row.tags
      published := published
      exceptional := row.exceptional.toJson.isTruthy
      type := type } }

/-- The columns of a row, in order. -/
def toJson (row : Row) : Json :=
  .list [.int row.id, .text row.link, .text row.title, .text row.description, .text row.authors,
    .text row.category, .text row.themes, .text row.worksMentioned, .text row.tags,
    row.published.toJson, row.saved.toJson, row.exceptional.toJson, row.kind.toJson,
    row.amount.toJson]

end Row

end Catalogue
