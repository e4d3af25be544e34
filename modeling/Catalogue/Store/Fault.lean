import Catalogue.File.Tree
import Catalogue.Number.Numeral
import Catalogue.Store.Cell

/-! What can go wrong in a store. -/

namespace Catalogue

open Number Text

/-- A failure of the store itself. -/
inductive StorageFault where
  | closed
  | cannotOpen (path : Path)
  | cannotPrepare (path : Path)
  | insertFailed
  | updateFailed (id : Int)
  | deleteFailed (id : Int)
  | listFailed (table : String)
  | scanFailed
  | malformedEntry
  deriving DecidableEq

def StorageFault.message : StorageFault → String
  | .closed => "entry store is closed"
  | .cannotOpen path => "unable to open entry store at " ++ path.text
  | .cannotPrepare path => "unable to prepare entry store at " ++ path.text
  | .insertFailed => "failed to insert entry"
  | .updateFailed id => "failed to update entry " ++ intText id
  | .deleteFailed id => "failed to delete entry " ++ intText id
  | .listFailed table => "failed to list " ++ table
  | .scanFailed => "entry scan failed"
  | .malformedEntry => "stored entry is malformed"

/-- Why an operation on a store has no result. -/
inductive StoreFault where
  | storage (fault : StorageFault)
  | unbound (fault : BindFault)
  | infinite
  | unknownVocabulary (name : String)
  | path (fault : PathFault)
  deriving DecidableEq

def StoreFault.message : StoreFault → String
  | .storage fault => fault.message
  | .unbound fault => fault.message
  | .infinite => IntegerFault.infinite.message
  | .unknownVocabulary name => "unknown vocabulary " ++ quoted name
  | .path fault => fault.message

end Catalogue
