import Catalogue.File.Tree
import Catalogue.Store.DatabaseName

/-! Files that hold an SQLite database.  The directories above such a file are made when it is
opened; an empty file is taken for a database without tables.  Beside the file SQLite keeps others:
the rollback journal `-journal`, the write-ahead log `-wal` and its shared-memory index `-shm`.  A
database that stands in a tree is one in WAL mode, as opening leaves it.  While it is open its log
and index are not shown in the tree; ordinary files that stood there are lost. -/

namespace Catalogue

/-- Why a database is not opened, or not made ready once it is open. -/
inductive OpenFault where
  | unavailable
  | notDatabase
  | readOnly
  | sideUnavailable
  | sideUnreadable
  deriving DecidableEq

namespace OpenFault

def message : OpenFault → String
  | .unavailable | .sideUnavailable => "unable to open database file"
  | .notDatabase => "file is not a database"
  | .readOnly => "attempt to write a readonly database"
  | .sideUnreadable => "disk I/O error"

/-- The database is not even opened. -/
def isOpening : OpenFault → Bool
  | .unavailable => true
  | _ => false

end OpenFault

/-- Where an open database keeps its contents. -/
inductive Residence where
  | memory
  | file
  deriving DecidableEq

namespace DatabaseFile

/-- The file beside a database whose name has a further ending. -/
def beside (place : List String) (ending : String) : List String :=
  place.dropLast ++ [place.getLast?.getD "" ++ ending]

/-- The rollback journal. -/
def journal (place : List String) : List String := beside place "-journal"

/-- The write-ahead log. -/
def wal (place : List String) : List String := beside place "-wal"

/-- The shared-memory index of the write-ahead log. -/
def shm (place : List String) : List String := beside place "-shm"

/-- The most bytes that the path of a database may have. -/
def pathLimit : Nat := 504

/-- A directory stands at a place. -/
def isDirectoryAt (tree : FileTree) (place : List String) : Bool :=
  (tree.node? place).any (·.isDirectory)

/-- A file at a place holds something. -/
def holdsBytes (tree : FileTree) (place : List String) : Bool :=
  match tree.node? place with
  | some (.file (_ :: _)) | some .database => true
  | _ => false

/-- The tree without the file at a place, where one stands there that holds something. -/
def dropFull (tree : FileTree) (place : List String) : FileTree :=
  if holdsBytes tree place then tree.remove place else tree

/-- The tree without the file at a place, where one stands there. -/
def dropFile (tree : FileTree) (place : List String) : FileTree :=
  if isDirectoryAt tree place then tree else tree.remove place

/-- The tree without a hot journal: one that holds something and does not start with a zero. -/
def dropHot (tree : FileTree) (place : List String) : FileTree :=
  match tree.node? (journal place) with
  | some (.file (0 :: _)) => tree
  | _ => dropFull tree (journal place)

/-- What makes a file other than a database unfit, and the tree after the attempt.  A log that holds
something is tried, and then thrown away with its index. -/
def examine (tree : FileTree) (place : List String) : OpenFault × FileTree :=
  if isDirectoryAt tree (journal place) then (.sideUnreadable, tree)
  else
    let tree := dropHot tree place
    if isDirectoryAt tree (wal place) then (.sideUnavailable, tree)
    else if holdsBytes tree (wal place) && !isDirectoryAt tree (shm place) then
      (.notDatabase, dropFile (dropFile tree (wal place)) (shm place))
    else (.notDatabase, tree)

/-- The name of a file that has to be written beside a database is not too long. -/
def hasRoom (side : List String) : Bool :=
  decide ((side.getLast?.getD "").utf8ByteSize ≤ FileTree.nameLimit)

/-- Goes over to the write-ahead log of a database.  Where a directory stands at the place of its
index, an empty log is left, or an old one as it was. -/
def startLog (tree : FileTree) (place : List String) : Except OpenFault Unit × FileTree :=
  if isDirectoryAt tree (shm place) then
    (.error .readOnly,
      if (tree.node? (wal place)).isSome then tree else tree.put (wal place) (.file []))
  else (.ok (), dropFile (dropFile tree (wal place)) (shm place))

/-- Makes a database of a file that is missing or empty. -/
def create (tree : FileTree) (place : List String) : Except OpenFault Unit × FileTree :=
  let tree := if (tree.node? place).isSome then tree else tree.put place (.file [])
  let tree := dropFull tree (journal place)
  if isDirectoryAt tree (wal place) then (.error .sideUnreadable, tree)
  else
    let tree := dropFull tree (wal place)
    if isDirectoryAt tree (journal place) || !hasRoom (journal place) then
      (.error .sideUnavailable, tree)
    else startLog ((tree.put place .database).remove (journal place)) place

/-- Takes the database that a file holds. -/
def adopt (tree : FileTree) (place : List String) : Except OpenFault Unit × FileTree :=
  if isDirectoryAt tree (journal place) then (.error .sideUnreadable, tree)
  else
    let tree := dropHot tree place
    if isDirectoryAt tree (wal place) || !hasRoom (wal place) then (.error .sideUnavailable, tree)
    else startLog tree place

/-- Opens the database at a place. -/
def openAt (tree : FileTree) (place : List String) (mode : OpenMode) (immutable : Bool) :
    Except OpenFault Unit × FileTree :=
  match tree.writable? (.ofPlace place) with
  | .error _ => (.error .unavailable, tree)
  | .ok place =>
    if pathLimit < (Path.ofPlace place).text.utf8ByteSize then (.error .unavailable, tree)
    else match tree.node? place with
      | some (.file (_ :: _)) =>
        if mode = .readOnly ∨ immutable then (.error .notDatabase, tree)
        else
          let (fault, after) := examine tree place
          (.error fault, after)
      | some .database =>
        if mode = .readOnly ∨ immutable then (.error .readOnly, tree) else adopt tree place
      | node =>
        if node.isNone ∧ (mode = .readOnly ∨ mode = .readWrite) then (.error .unavailable, tree)
        else if mode = .readOnly then (.error .readOnly, tree)
        else if immutable then
          (.error .readOnly, if node.isNone then tree.put place (.file []) else tree)
        else create tree place

end DatabaseFile

/-- Opens the database that the text of a path names, and makes the directories above that path.  A
library that was built to read addresses takes a path that starts with `file:` for one. -/
def Disk.openDatabase (readsAddresses : Bool) (path : Path) :
    Disk (Except OpenFault Residence) := do
  Disk.makeDirectories path.parent
  if path.names.any fun name => name.toList.contains '\x00' then Disk.fail path .nullCharacter
  match DatabaseName.ofText? readsAddresses path.text with
  | none => return .error .unavailable
  | some (.memory readOnly) => return if readOnly then .error .readOnly else .ok .memory
  | some (.file name mode immutable) => do
    let tree ← get
    let (result, after) := DatabaseFile.openAt tree (name.place tree.here) mode immutable
    set after
    return result.map fun _ => .file

end Catalogue
