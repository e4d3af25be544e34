import Catalogue.Entry.Basic
import Catalogue.Entry.FieldList

/-! Filters: a conjunction of clauses on the columns of stored entries, with the place of the page
in the result and the seed of its order.  A clause is written as a condition in which the text of a
caller never stands: a question mark holds its place, and the text is a parameter. -/

namespace Catalogue.Filter

open Number Text

/-- The columns that a clause searches for a part of their text. -/
inductive TextColumn where
  | link
  | title
  | description
  deriving DecidableEq

/-- The columns that hold lists. -/
inductive ListColumn where
  | authors
  | themes
  | worksMentioned
  | tags
  deriving DecidableEq

/-- The columns that hold dates. -/
inductive DateColumn where
  | published
  | saved
  deriving DecidableEq

inductive Bound where
  | atLeast
  | atMost
  deriving DecidableEq

def TextColumn.name : TextColumn → String
  | .link => "link"
  | .title => "title"
  | .description => "description"

def ListColumn.name : ListColumn → String
  | .authors => "author"
  | .themes => "themes"
  | .worksMentioned => "works_mentioned"
  | .tags => "tags"

def DateColumn.name : DateColumn → String
  | .published => "date_published"
  | .saved => "date_saved"

def Bound.operator : Bound → String
  | .atLeast => ">="
  | .atMost => "<="

/-- One condition on an entry. -/
inductive Clause where
  | contains (column : TextColumn) (text : String)
  | holds (column : ListColumn) (text : String)
  | inCategory (category : String)
  | ofKind (kind : Kind)
  | dated (column : DateColumn) (bound : Bound) (date : Date)
  | exceptional (flag : Bool)
  deriving DecidableEq

namespace Clause

/-- The condition that a clause writes, with a question mark where its parameter goes. -/
def condition : Clause → String
  | .contains column _ => column.name ++ " LIKE ?"
  | .holds column _ => column.name ++ " LIKE ?"
  | .inCategory _ => "category = ?"
  | .ofKind kind => "entry_type = " ++ natText kind.index
  | .dated column bound _ => column.name ++ " " ++ bound.operator ++ " DATE(?)"
  | .exceptional true => "exceptional = TRUE"
  | .exceptional false => "exceptional = FALSE"

/-- The text that takes the place of the question mark. -/
def parameter? : Clause → Option String
  | .contains _ text => some ("%" ++ text ++ "%")
  | .holds _ text => some (FieldList.pattern text)
  | .inCategory category => some category
  | .dated _ _ date => some date.text
  | .ofKind _ | .exceptional _ => none

end Clause

end Catalogue.Filter

namespace Catalogue

/-- A filter with the place of a page in its result and the seed of its order. -/
structure Query where
  clauses : List Filter.Clause
  offset : Nat
  seed : Option Nat
  deriving DecidableEq

namespace Query

/-- The query for the whole collection from its start. -/
def all : Query := ⟨[], 0, none⟩

/-- The conditions of all clauses, joined. -/
def predicate (q : Query) : String := Text.join " AND " (q.clauses.map (·.condition))

/-- The parameters of all clauses. -/
def parameters (q : Query) : List String := q.clauses.filterMap (·.parameter?)

/-- A query has clauses. -/
def isFiltered (q : Query) : Bool := !q.clauses.isEmpty

end Query

end Catalogue
