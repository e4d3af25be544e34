import Catalogue.Filter.Clause
import Catalogue.Filter.Like
import Catalogue.Store.Database
import Catalogue.Store.Refusal

/-! Selecting rows by the clauses of a query.  Before any row is looked at, clauses that compare one
column with a value each are compared with each other: where two of them name different values no
row is selected, and of equal ones the last alone is tested.  The tests of a row are made from left
to right, up to the first one that fails; a pattern that is too long fails the scan once it is
looked at. -/

namespace Catalogue

open Catalogue.Filter Number Text

namespace Row

/-- The text of a column. -/
def textIn (row : Row) : TextColumn → String
  | .link => row.link
  | .title => row.title
  | .description => row.description

/-- The list that a column holds, as it is stored. -/
def listIn (row : Row) : ListColumn → String
  | .authors => row.authors
  | .themes => row.themes
  | .worksMentioned => row.worksMentioned
  | .tags => row.tags

/-- The cell of a date. -/
def dateIn (row : Row) : DateColumn → Cell
  | .published => row.published
  | .saved => row.saved

end Row

/-- Searches a text for a pattern that is not too long. -/
def search (pattern text : String) : Except Refusal Bool :=
  if Like.isSearchable pattern then .ok (Like.isMatch pattern text) else .error .patternTooLong

/-- A clause holds of a row. -/
def Filter.Clause.holdsOf (row : Row) (clause : Clause) : Except Refusal Bool :=
  match clause with
  | .contains column text => search ("%" ++ text ++ "%") (row.textIn column)
  | .holds column text => search (FieldList.pattern text) (row.listIn column)
  | .inCategory category => .ok (row.category == category)
  | .ofKind kind => .ok (row.kind.isInt kind.index)
  | .dated column .atLeast date => .ok ((row.dateIn column).atLeastText date.text)
  | .dated column .atMost date => .ok ((row.dateIn column).atMostText date.text)
  | .exceptional flag => .ok (row.exceptional.isInt (if flag then 1 else 0))

/-- All clauses hold of a row. -/
def Row.satisfies (row : Row) : List Clause → Except Refusal Bool
  | [] => .ok true
  | clause :: clauses => do
    if (← clause.holdsOf row) then row.satisfies clauses else return false

/-- The rows of which all clauses hold, behind the rows `done` in reverse order. -/
def selectFrom (clauses : List Clause) (done : List Row) : List Row → Except Refusal (List Row)
  | [] => .ok done.reverse
  | row :: rows => do
    selectFrom clauses (if (← row.satisfies clauses) then row :: done else done) rows

/-- Two clauses compare the same column with a value each. -/
def Filter.Clause.rivals : Clause → Clause → Bool
  | .inCategory _, .inCategory _ => true
  | .ofKind _, .ofKind _ => true
  | .exceptional _, .exceptional _ => true
  | _, _ => false

/-- No column is compared with two values. -/
def areConsistent : List Clause → Bool
  | [] => true
  | clause :: clauses =>
    clauses.all (fun other => !clause.rivals other || clause == other) && areConsistent clauses

/-- The clauses that are tested: of those that compare one column with a value, the last. -/
def testsOf : List Clause → List Clause
  | [] => []
  | clause :: clauses =>
    if clauses.any clause.rivals then testsOf clauses else clause :: testsOf clauses

/-- The rows of a table that satisfy a query, in order. -/
def EntryTable.select (t : EntryTable) (q : Query) : Except Refusal (List Row) :=
  if areConsistent q.clauses then selectFrom (testsOf q.clauses) [] t.rows else .ok []

/-! ### Depth

A condition is refused as a whole where its expression is nested too deeply. -/

/-- The depth of the expression of a clause: a comparison of two names or values, one of which may
be a call. -/
def Filter.Clause.depth : Clause → Nat
  | .dated .. => 3
  | _ => 2

/-- The depth of the expression of some clauses, which are joined from the left. -/
def depthOf : List Clause → Nat
  | [] => 0
  | clause :: clauses => clauses.foldl (fun depth other => max depth other.depth + 1) clause.depth

/-- The depth up to which an expression is accepted. -/
def depthLimit : Nat := 1000

end Catalogue
