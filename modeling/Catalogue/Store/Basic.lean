import Catalogue.Store.DatabaseFile
import Catalogue.Store.Fault
import Catalogue.Store.Statement

/-! The store of entries: a database in a file, which is opened, changed and closed.  Every
operation but opening needs the store to be open. -/

namespace Catalogue

/-- The state of a store: what its file holds, or the connection to it. -/
inductive StoreState where
  | closed (contents : Database)
  | connected (connection : StoreConnection)

/-- A store: the path of its file, and its state. -/
structure Store where
  path : Path
  state : StoreState

/-- A table that a file holds under one of the names of the catalogue's, but without their columns;
the one under the name of the entries has a number of rows. -/
inductive ForeignTable where
  | entries (rows : Nat)
  | categories
  | terms (v : Vocabulary)
  deriving DecidableEq

/-- What opening a store depends on besides the tree of files. -/
structure Circumstances where
  /-- The library was built to take a path that starts with `file:` for an address. -/
  readsAddresses : Bool := true
  /-- The tables of the database that are none of the catalogue's. -/
  foreign : List ForeignTable := []
  /-- A table cannot be made: an index of the database has its name, or another connection keeps
  the database locked. -/
  isBarred : Bool := false

/-- Operations on a store. -/
abbrev Access (α : Type) := EStateM StoreFault Store α

namespace Database

/-- The database with a foreign table in the place of one of the catalogue's. -/
def supplant (db : Database) : ForeignTable → Database
  | .entries rows => { db with entries := none, strangers := some rows }
  | .categories => { db with categories := none }
  | .terms v => db.setTerms v none

end Database

namespace Store

/-- A store that has not been opened yet. -/
def new (path : Path) : Store := ⟨path, .closed .blank⟩

def isOpen (store : Store) : Bool :=
  match store.state with
  | .closed _ => false
  | .connected _ => true

/-- What a store shows while it is open, and what it holds while it is closed. -/
def database (store : Store) : Database :=
  match store.state with
  | .closed contents => contents
  | .connected c => c.contents

/-- The store with a new connection to a database.  No table is missing there, for one is made under
each name that is not taken. -/
def connect (store : Store) (db : Database) (foreign : List ForeignTable) : Store :=
  { store with state := .connected (.new (foreign.foldl .supplant db.prepared) .blank .quiet) }

/-- What a database that cannot be used makes of a store. -/
def openFault (store : Store) (fault : OpenFault) : StorageFault :=
  if fault.isOpening then .cannotOpen store.path else .cannotPrepare store.path

/-- Opens a store; one that is open stays as it is. -/
def open_ (store : Store) (tree : FileTree) (circumstances : Circumstances := {}) :
    Except StoreFault Store × FileTree :=
  match store.state with
  | .connected _ => (.ok store, tree)
  | .closed contents =>
    match Disk.openDatabase circumstances.readsAddresses store.path tree with
    | .ok (.ok .memory) after => (.ok (store.connect .blank []), after)
    | .ok (.ok .file) after =>
      if circumstances.isBarred then (.error (.storage (.cannotPrepare store.path)), after)
      else (.ok (store.connect contents circumstances.foreign), after)
    | .ok (.error e) after => (.error (.storage (store.openFault e)), after)
    | .error e after => (.error (.path e), after)

/-- Closes a store. -/
def close (store : Store) : Store :=
  match store.state with
  | .closed _ => store
  | .connected c => { store with state := .closed c.settled }

end Store

namespace Access

/-- Runs steps on the connection of an open store; where a statement of theirs is refused, the
operation fails with `fault`. -/
def onConnection {α : Type} (fault : StorageFault) (steps : Steps α) : Access α := fun store =>
  match store.state with
  | .closed _ => .error (.storage .closed) store
  | .connected c =>
    match steps c with
    | .ok a c => .ok a { store with state := .connected c }
    | .error (.refused _) c => .error (.storage fault) { store with state := .connected c }
    | .error (.unbound e) c => .error (.unbound e) { store with state := .connected c }

/-- Saves a form as a new entry, and gives its number. -/
def insertEntry (form : Form) (today : Date) : Access Int :=
  onConnection .insertFailed (Steps.saveNew form today)

/-- Saves a form over an entry; false where there is none with this number. -/
def updateEntry (id : Int) (form : Form) : Access Bool :=
  onConnection (.updateFailed id) (Steps.saveOver id form)

/-- Fails to save texts as a new entry, for they cannot be bound. -/
def refuseInsert {α : Type} : Access α :=
  onConnection .insertFailed (Steps.transaction (Steps.refuseTexts .insertEntry))

/-- Fails to save texts over an entry, for they cannot be bound. -/
def refuseUpdate {α : Type} (id : Int) : Access α :=
  onConnection (.updateFailed id) (Steps.transaction (Steps.refuseTexts .updateEntry))

/-- Deletes an entry; false where there is none with this number. -/
def deleteEntry (id : Int) : Access Bool :=
  onConnection (.deleteFailed id) (Steps.remove id)

/-- Lists the categories in the order of their first use. -/
def listCategories : Access (List String) :=
  onConnection (.listFailed Steps.categoriesName) Steps.listCategories

/-- Lists the terms of a vocabulary in the order of their first use. -/
def listVocabulary (v : Vocabulary) : Access (List Term) :=
  onConnection (.listFailed v.name) (Steps.listTerms v)

/-- Lists the terms of the vocabulary with a name. -/
def listNamed (name : String) : Access (List Term) :=
  match Vocabulary.ofName? name with
  | some v => listVocabulary v
  | none => throw (.unknownVocabulary name)

end Access

end Catalogue
