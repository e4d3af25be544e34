import Catalogue.Store.Row

/-! The contents of a database: the table of entries, the categories, and four vocabularies of terms
with the category under which each was saved.  Any of the tables may be missing. -/

namespace Catalogue

/-- The vocabularies of a catalogue. -/
inductive Vocabulary where
  | authors
  | themes
  | works
  | tags
  deriving DecidableEq

namespace Vocabulary

def name : Vocabulary → String
  | .authors => "authors"
  | .themes => "themes"
  | .works => "works"
  | .tags => "tags"

/-- The vocabularies in the order in which a form is recorded. -/
def all : List Vocabulary := [.authors, .themes, .works, .tags]

def ofName? (s : String) : Option Vocabulary := all.find? (·.name == s)

/-- The terms of a form. -/
def terms (form : Form) : Vocabulary → List String
  | .authors => form.authors
  | .themes => form.themes
  | .works => form.worksMentioned
  | .tags => form.tags

end Vocabulary

/-- A term, and the category under which it was saved. -/
abbrev Term := String × String

/-- The table of entries: the rows by ascending number, and the largest number given so far. -/
structure EntryTable where
  rows : List Row
  lastId : Int

/-- The tables of a catalogue, each in order of insertion.  A table that is missing is `none`, and
so is one that has not the columns of the catalogue's. -/
structure Database where
  entries : Option EntryTable
  categories : Option (List String)
  authors : Option (List Term)
  themes : Option (List Term)
  works : Option (List Term)
  tags : Option (List Term)
  /-- The number of the rows of a table of entries without the columns of the catalogue's. -/
  strangers : Option Nat := none

namespace EntryTable

def empty : EntryTable := ⟨[], 0⟩

/-- The number for a new row: above every row and every number given before. -/
def newId? (t : EntryTable) : Option Int :=
  let top := t.rows.foldl (fun top row => max top row.id) t.lastId
  if top < maxInteger then some (top + 1) else none

/-- A new row at the end. -/
def insert (t : EntryTable) (row : Row) : EntryTable := ⟨t.rows ++ [row], row.id⟩

/-- The row with a number. -/
def find? (t : EntryTable) (id : Int) : Option Row := t.rows.find? (·.id == id)

/-- The table has a row with this number. -/
def has (t : EntryTable) (id : Int) : Bool := t.rows.any (·.id == id)

/-- Changes the row with a number. -/
def modify (t : EntryTable) (id : Int) (change : Row → Row) : EntryTable :=
  { t with rows := t.rows.map fun row => if row.id == id then change row else row }

/-- The table without the row with a number. -/
def erase (t : EntryTable) (id : Int) : EntryTable :=
  { t with rows := t.rows.filter (·.id != id) }

end EntryTable

/-- Adds an item to a list that does not hold it. -/
def addNew {α : Type} [BEq α] (items : List α) (item : α) : List α :=
  if items.contains item then items else items ++ [item]

namespace Database

/-- A database without tables. -/
def blank : Database := ⟨none, none, none, none, none, none, none⟩

/-- The number of rows in the table of entries, whatever its columns are. -/
def count? (db : Database) : Option Nat := (db.entries.map (·.rows.length)).or db.strangers

/-- The terms of a vocabulary. -/
def terms (db : Database) : Vocabulary → Option (List Term)
  | .authors => db.authors
  | .themes => db.themes
  | .works => db.works
  | .tags => db.tags

/-- Replaces the terms of a vocabulary. -/
def setTerms (db : Database) (v : Vocabulary) (terms : Option (List Term)) : Database :=
  match v with
  | .authors => { db with authors := terms }
  | .themes => { db with themes := terms }
  | .works => { db with works := terms }
  | .tags => { db with tags := terms }

/-- The database with an empty table for each one that is missing. -/
def prepared (db : Database) : Database where
  entries := some (db.entries.getD .empty)
  categories := some (db.categories.getD [])
  authors := some (db.authors.getD [])
  themes := some (db.themes.getD [])
  works := some (db.works.getD [])
  tags := some (db.tags.getD [])
  strangers := db.strangers

end Database

end Catalogue
