/-! Why a database refuses a statement: when it is prepared, or when it runs.  Another connection
may hold the lock of the database, and its disk may fail. -/

namespace Catalogue

inductive Refusal where
  | noTable (name : String)
  | noColumn (name : String)
  | ownTable (name : String)
  | tooDeep
  | patternTooLong
  | emptyCell (column : String)
  | duplicateId
  | idNotInteger
  | noIdLeft
  | nested
  | locked
  | diskFailed
  deriving DecidableEq

namespace Refusal

def message : Refusal → String
  | .noTable name => "no such table: " ++ name
  | .noColumn name => "no such column: " ++ name
  | .ownTable name => "table " ++ name ++ " may not be dropped"
  | .tooDeep => "Expression tree is too large (maximum depth 1000)"
  | .patternTooLong => "LIKE or GLOB pattern too complex"
  | .emptyCell column => "NOT NULL constraint failed: entries." ++ column
  | .duplicateId => "UNIQUE constraint failed: entries.entry_id"
  | .idNotInteger => "datatype mismatch"
  | .noIdLeft => "database or disk is full"
  | .nested => "cannot start a transaction within a transaction"
  | .locked => "database is locked"
  | .diskFailed => "disk I/O error"

/-- The statement itself is right, and the rows do not allow what it does. -/
def isConstraint : Refusal → Bool
  | .emptyCell _ | .duplicateId | .idNotInteger => true
  | _ => false

end Refusal

end Catalogue
