import Catalogue.Store.Database
import Catalogue.Store.Refusal
import Catalogue.Store.Transaction

/-! Prepared statements.  A statement is prepared for a connection, which needs its table; then its
values are bound, which needs them to fit; then it runs, which needs its table again.  The outside,
such as another connection or the disk, may refuse each statement that runs, and each commit.  A
connection keeps the statements it used last prepared, and passes over their preparation.  A value
that cannot be bound is reported as such only where nothing was refused just before: else that
refusal is reported once more. -/

namespace Catalogue

open Number

/-- The statements that are made of a connection. -/
inductive Statement where
  | begin
  | insertEntry
  | updateEntry
  | deleteEntry
  | insertCategory
  | insertTerm (v : Vocabulary)
  | select (condition : String)
  | count (condition : String)
  | countAll
  | walk
  | listCategories
  | listTerms (v : Vocabulary)
  | dump
  | set (column : String)
  | drop (table : String)
  deriving DecidableEq

/-- What a connection remembers: the statements it keeps prepared, the one used last first, and the
refusal of its last step, if that was refused. -/
structure Memory where
  prepared : List Statement
  refused : Option Refusal

namespace Memory

/-- What a new connection remembers. -/
def blank : Memory := ⟨[], none⟩

/-- The number of statements that are kept prepared. -/
def capacity : Nat := 128

/-- The memory after a statement was used. -/
def use (m : Memory) (statement : Statement) : Memory :=
  { m with prepared := (statement :: m.prepared.erase statement).take capacity }

end Memory

/-- The database refuses a statement, or one of its values cannot be bound. -/
inductive StatementFault where
  | refused (refusal : Refusal)
  | unbound (fault : BindFault)
  deriving DecidableEq

def StatementFault.message : StatementFault → String
  | .refused refusal => refusal.message
  | .unbound fault => fault.message

/-- What the outside holds against the next statements that run, in their order, and against the
next commits: a failure or nothing. -/
structure Outside where
  statements : List (Option (Interruption Refusal))
  commits : List (Option (Interruption Refusal))

/-- Nothing is held against any statement. -/
def Outside.quiet : Outside := ⟨[], []⟩

/-- A connection to the database of a store. -/
abbrev StoreConnection := Connection Memory Outside Database

/-- Steps on a connection. -/
abbrev Steps (α : Type) := EStateM StatementFault StoreConnection α

/-- The connection after a step that was not refused. -/
def Connection.settle (c : StoreConnection) : StoreConnection :=
  { c with memory := { c.memory with refused := none } }

/-- The connection after the open transaction, if there is one, is rolled back. -/
def Connection.takeBack (c : StoreConnection) : StoreConnection :=
  if c.start.isSome then c.rollback.settle else c

namespace Steps

/-- A step that is not refused. -/
def accept : Steps Unit := modify Connection.settle

/-- A step that is refused. -/
def refuse {α : Type} (refusal : Refusal) : Steps α := do
  modify fun c => { c with memory := { c.memory with refused := some refusal } }
  throw (.refused refusal)

/-- Prepares a statement, unless it is kept prepared; `obstacle` is what then stands against it. -/
def prepare (statement : Statement) (obstacle : Database → Option Refusal) : Steps Unit := do
  let c ← get
  if !c.memory.prepared.contains statement then
    match obstacle c.contents with
    | some refusal => refuse refusal
    | none => accept
  modify fun c => { c with memory := c.memory.use statement }

/-- A table is needed that may be missing. -/
def needing {α : Type} (name : String) (table : Database → Option α) (db : Database) :
    Option Refusal :=
  if (table db).isSome then none else some (.noTable name)

/-- A value that cannot be bound. -/
def failToBind {α : Type} (fault : BindFault) : Steps α := do
  match (← get).memory.refused with
  | some refusal => throw (.refused refusal)
  | none => throw (.unbound fault)

/-- Binds a value that fits. -/
def bindFitting {α : Type} (value : Except BindFault α) : Steps α := do
  match value with
  | .error fault => failToBind fault
  | .ok a => do
    accept
    return a

/-- Binds an integer. -/
def bind (n : Int) : Steps Unit :=
  bindFitting (if FitsWord n then .ok () else .error .integerTooLarge)

/-- Binds texts, of any length: the limits of SQLite on the size of a value are left out. -/
def bindTexts (texts : List String) : Steps Unit := if texts.isEmpty then return else accept

/-- What the outside holds against the next statement that runs. -/
def nextStatement : Steps (Option (Interruption Refusal)) := do
  match (← get).outside.statements with
  | [] => return none
  | next :: rest => do
    modify fun c => { c with outside := { c.outside with statements := rest } }
    return next

/-- What the outside holds against the next commit. -/
def nextCommit : Steps (Option (Interruption Refusal)) := do
  match (← get).outside.commits with
  | [] => return none
  | next :: rest => do
    modify fun c => { c with outside := { c.outside with commits := rest } }
    return next

/-- A step that is taken or refused, which is remembered. -/
def remember {α : Type} (step : EStateM Refusal StoreConnection α) : Steps α := fun c =>
  match step c with
  | .ok a after => .ok a after.settle
  | .error refusal after => refuse refusal after

/-- The outside lets the next statement run, or fails it. -/
def meet : Steps Unit := do
  match (← nextStatement) with
  | none => return
  | some i => remember (Connection.interrupt i)

/-- Runs a statement on a table. -/
def run {α : Type} (name : String) (table : Database → Option α) : Steps α := do
  meet
  match table (← get).contents with
  | none => refuse (.noTable name)
  | some a => do
    accept
    return a

/-- Replaces the database. -/
def setDatabase (db : Database) : Steps Unit := modify fun c => { c with contents := db }

/-- Begins a transaction. -/
def begin_ : Steps Unit := do
  prepare .begin fun _ => none
  let refused ← nextStatement
  remember (Connection.begin_ .nested (refused.map (·.fault)))

/-- Commits the open transaction, if there is one. -/
def commit : Steps Unit := do
  if (← get).start.isSome then
    let refused ← nextCommit
    remember (Connection.commit refused)

/-- Runs steps in a transaction of their own. -/
def transaction {α : Type} (steps : Steps α) : Steps α :=
  Connection.transaction begin_ commit Connection.takeBack steps

end Steps

end Catalogue
