import Catalogue.Date
import Catalogue.Entry.Kind

/-! Entries of the catalogue, and the forms from which they are saved. -/

namespace Catalogue

/-- What a caller says of an entry. -/
structure Form where
  link : String
  title : String
  description : String
  authors : List String
  category : String
  themes : List String
  worksMentioned : List String
  tags : List String
  published : Date
  exceptional : Bool
  type : EntryType

/-- A saved entry: its number, its form, and the day of the first save. -/
structure Entry where
  id : Int
  form : Form
  saved : Date

end Catalogue
