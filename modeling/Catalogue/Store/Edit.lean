import Catalogue.Store.Basic

/-! Direct edits of the tables, past forms: one column of one row is set, or a whole table is
dropped. -/

namespace Catalogue

open Number Text

/-- The columns of the table of entries. -/
inductive Column where
  | id
  | link
  | title
  | description
  | authors
  | category
  | themes
  | worksMentioned
  | tags
  | published
  | saved
  | exceptional
  | kind
  | amount
  deriving DecidableEq

namespace Column

def name : Column → String
  | .id => "entry_id"
  | .link => "link"
  | .title => "title"
  | .description => "description"
  | .authors => "author"
  | .category => "category"
  | .themes => "themes"
  | .worksMentioned => "works_mentioned"
  | .tags => "tags"
  | .published => "date_published"
  | .saved => "date_saved"
  | .exceptional => "exceptional"
  | .kind => "entry_type"
  | .amount => "entry_type_metadata"

def all : List Column :=
  [.id, .link, .title, .description, .authors, .category, .themes, .worksMentioned, .tags,
    .published, .saved, .exceptional, .kind, .amount]

/-- Other names of the column of the numbers. -/
def idNames : List String := ["rowid", "oid", "_rowid_"]

/-- The column with a name in letters of either case. -/
def ofName? (s : String) : Option Column :=
  if idNames.contains s.toLower then some .id else all.find? (·.name == s.toLower)

end Column

/-- A row with a new cell in a column. -/
def Row.set (row : Row) (column : Column) (cell : Cell) : Row :=
  match column with
  | .id => row
  | .link => { row with link := cell.asText }
  | .title => { row with title := cell.asText }
  | .description => { row with description := cell.asText }
  | .authors => { row with authors := cell.asText }
  | .category => { row with category := cell.asText }
  | .themes => { row with themes := cell.asText }
  | .worksMentioned => { row with worksMentioned := cell.asText }
  | .tags => { row with tags := cell.asText }
  | .published => { row with published := cell.asNumber }
  | .saved => { row with saved := cell.asNumber }
  | .exceptional => { row with exceptional := cell.asNumber }
  | .kind => { row with kind := cell.asNumber }
  | .amount => { row with amount := cell.asNumber }

namespace EntryTable

/-- Gives a row another number, and brings the rows into the order of their numbers. -/
def renumber (t : EntryTable) (id newId : Int) : Except Refusal EntryTable :=
  if id ≠ newId ∧ t.has newId then .error .duplicateId
  else
    let rows := (t.modify id fun row => { row with id := newId }).rows
    .ok { t with rows := rows.mergeSort fun a b => decide (a.id ≤ b.id) }

/-- Sets a column of the row with a number. -/
def setColumn (t : EntryTable) (id : Int) (column : Column) (cell : Option Cell) :
    Except Refusal EntryTable :=
  match column, cell.map Cell.asNumber with
  | .id, some (.int newId) => t.renumber id newId
  | .id, _ => .error .idNotInteger
  | column, _ =>
    match cell with
    | none => .error (.emptyCell column.name)
    | some cell => .ok (t.modify id fun row => row.set column cell)

end EntryTable

namespace Steps

/-- Sets a column of the row with a number, and counts the rows that it changes. -/
def setColumn (id : Int) (columnName : String) (value : Json) : Steps Nat := do
  prepare (.set columnName) fun db =>
    (needing entriesName (·.entries) db).orElse fun _ =>
      if (Column.ofName? columnName).isSome then none else some (.noColumn columnName)
  let cell ← bindFitting (Cell.ofJson value)
  bind id
  let t ← runOnEntries
  if !t.has id then return 0
  match t.setColumn id ((Column.ofName? columnName).getD .id) cell with
  | .error refusal => refuse refusal
  | .ok t => do
    setDatabase { (← get).contents with entries := some t }
    return 1

/-- The table with a name, without its contents. -/
def tableNamed (name : String) (db : Database) : Option Unit :=
  match Vocabulary.ofName? name with
  | some v => (db.terms v).map fun _ => ()
  | none =>
    if name = entriesName then db.entries.map fun _ => ()
    else if name = categoriesName then db.categories.map fun _ => ()
    else none

/-- The tables that the database keeps for itself, by the names that lead to them. -/
def ownTables : List (String × String) :=
  [("sqlite_sequence", "sqlite_sequence"), ("sqlite_master", "sqlite_master"),
    ("sqlite_schema", "sqlite_master"), ("sqlite_temp_master", "sqlite_temp_master"),
    ("sqlite_temp_schema", "sqlite_temp_master")]

/-- Drops the table with a name in letters of either case. -/
def drop (name : String) : Steps Unit := do
  let table := name.toLower
  prepare (.drop name) fun db =>
    match ownTables.lookup table with
    | some own => some (.ownTable own)
    | none => needing name (tableNamed table) db
  run name (tableNamed table)
  let db := (← get).contents
  setDatabase (match Vocabulary.ofName? table with
    | some v => db.setTerms v none
    | none =>
      if table = entriesName then { db with entries := none } else { db with categories := none })

/-- The rows of the table of entries. -/
def dump : Steps (List Row) := do
  prepareOnEntries .dump
  return (← runOnEntries).rows

end Steps

namespace Access

/-- Runs an edit on an open store, and tells why it is not made. -/
def editing {α : Type} (steps : Steps α) (store : Store) :
    Except StoreFault (Except StatementFault α) × Store :=
  match store.state with
  | .closed _ => (.error (.storage .closed), store)
  | .connected c =>
    match steps c with
    | .ok a c => (.ok (.ok a), { store with state := .connected c })
    | .error e c => (.ok (.error e), { store with state := .connected c })

end Access

end Catalogue
