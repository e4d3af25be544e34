import Catalogue.Store.Prepared

/-! The statements that save, list and delete, and the transactions that are made of them. -/

namespace Catalogue.Steps

/-- The name of the table of entries. -/
def entriesName : String := "entries"

/-- The name of the table of categories. -/
def categoriesName : String := "categories"

/-- The table of entries. -/
def runOnEntries : Steps EntryTable := run entriesName (·.entries)

/-- Prepares a statement on the entries. -/
def prepareOnEntries (statement : Statement) : Steps Unit :=
  prepare statement (needing entriesName (·.entries))

/-- Inserts the entry of a form. -/
def insertEntry (form : Form) (today : Date) : Steps Int := do
  prepareOnEntries .insertEntry
  accept
  bind form.type.amount
  let entries ← runOnEntries
  match entries.newId? with
  | none => refuse .noIdLeft
  | some id => do
    let row := Row.ofForm id form (.text today.text)
    setDatabase { (← get).contents with entries := some (entries.insert row) }
    return id

/-- Writes a form over the entry with a number, which keeps the day of its first save; false where
there is none. -/
def updateEntry (id : Int) (form : Form) : Steps Bool := do
  prepareOnEntries .updateEntry
  accept
  bind form.type.amount
  bind id
  let entries ← runOnEntries
  setDatabase { (← get).contents with
    entries := some (entries.modify id fun row => .ofForm id form row.saved) }
  return entries.has id

/-- Prepares a statement on the entries for texts which cannot be bound to it. -/
def refuseTexts {α : Type} (statement : Statement) : Steps α := do
  prepareOnEntries statement
  failToBind .looseText

/-- Deletes the entry with a number; false where there is none. -/
def deleteEntry (id : Int) : Steps Bool := do
  prepareOnEntries .deleteEntry
  bind id
  let entries ← runOnEntries
  setDatabase { (← get).contents with entries := some (entries.erase id) }
  return entries.has id

/-- Records a category. -/
def recordCategory (category : String) : Steps Unit := do
  prepare .insertCategory (needing categoriesName (·.categories))
  let categories ← run categoriesName (·.categories)
  setDatabase { (← get).contents with categories := some (addNew categories category) }

/-- Records a term. -/
def recordTerm (v : Vocabulary) (term : Term) : Steps Unit := do
  let terms ← run v.name (·.terms v)
  setDatabase ((← get).contents.setTerms v (some (addNew terms term)))

/-- Records the terms of a form in one vocabulary. -/
def recordTerms (form : Form) (v : Vocabulary) : Steps Unit := do
  prepare (.insertTerm v) (needing v.name (·.terms v))
  (v.terms form).forM fun value => recordTerm v (value, form.category)

/-- Records the category and all terms of a form. -/
def recordVocabulary (form : Form) : Steps Unit := do
  recordCategory form.category
  Vocabulary.all.forM (recordTerms form)

/-- Saves a form as a new entry. -/
def saveNew (form : Form) (today : Date) : Steps Int := transaction do
  let id ← insertEntry form today
  recordVocabulary form
  return id

/-- Saves a form over an entry. -/
def saveOver (id : Int) (form : Form) : Steps Bool := transaction do
  let found ← updateEntry id form
  if found then recordVocabulary form
  return found

/-- Removes an entry. -/
def remove (id : Int) : Steps Bool := transaction (deleteEntry id)

/-- The categories in the order of their first use. -/
def listCategories : Steps (List String) := do
  prepare .listCategories (needing categoriesName (·.categories))
  run categoriesName (·.categories)

/-- The terms of a vocabulary in the order of their first use. -/
def listTerms (v : Vocabulary) : Steps (List Term) := do
  prepare (.listTerms v) (needing v.name (·.terms v))
  run v.name (·.terms v)

end Catalogue.Steps
