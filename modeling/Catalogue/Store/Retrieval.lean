import Catalogue.Store.Basic
import Catalogue.Store.Scan
import Catalogue.Store.Shuffle

/-! Pages of entries.  A query with clauses gives a part of the rows that satisfy it, in the order
of their numbers; a query without clauses walks the whole collection in the order of a seed, and a
page lists its part of that walk in the order of the numbers. -/

namespace Catalogue

open Catalogue.Filter Number

/-- A page of entries, with the place of the next one and the seed of the order. -/
structure Page where
  entries : List Entry
  offset : Int
  nextOffset : Int
  total : Nat
  seed : Int

/-- A page as an object, with each entry written by `write`. -/
def Page.toJson (write : Entry → Json) (p : Page) : Json :=
  .object [("entries", .list (p.entries.map write)), ("current_offset", .int p.offset),
    ("next_offset", .int p.nextOffset), ("total_size", .int p.total), ("seed", .int p.seed)]

/-- The number of entries on a page, unless another one is set. -/
def defaultPageSize : Nat := 10

/-- The bound above which generated seeds do not go. -/
def seedBound : Nat := Nat.pow 2 31

/-- A place in a list of `length` items; a negative one counts from the end. -/
def placeIn (length : Nat) (i : Int) : Nat :=
  if i < 0 then ((length : Int) + i).toNat else min i.toNat length

/-- The items from place `start` up to below place `stop`; negative places count from the end. -/
def slice {α : Type} (items : List α) (start stop : Int) : List α :=
  let first := placeIn items.length start
  (items.drop first).take (placeIn items.length stop - first)

/-- The entries in some rows; the first row that is no entry is the fault. -/
def entriesOf (rows : List Row) : Except RowFault (List Entry) := rows.mapM (·.entry)

/-- What a row that is no entry makes of an operation. -/
def RowFault.toStoreFault : RowFault → StoreFault
  | .malformed => .storage .malformedEntry
  | .infinite => .infinite

/-- The rows at some ordinals, in order, `i` being the ordinal of the first row. -/
def rowsAt (wanted : List Nat) (i : Nat) : List Row → List Row
  | [] => []
  | row :: rows =>
    if wanted.contains i then row :: rowsAt wanted (i + 1) rows else rowsAt wanted (i + 1) rows

/-- The rows of a page of the walk through a whole table. -/
def discoveredRows (t : EntryTable) (pageSize : Nat) (seed offset : Int) : List Row :=
  if offset < t.rows.length then
    rowsAt (slice (Shuffle.order seed.natAbs t.rows.length) offset (offset + pageSize)) 0 t.rows
  else []

/-- A row on a page, with the number of all rows that satisfy the query. -/
structure CountedRow where
  row : Row
  total : Nat

/-- The rows of a page, out of all rows that satisfy the query. -/
def countedRows (pageSize : Nat) (q : Query) (rows : List Row) : List CountedRow :=
  ((rows.drop q.offset).take pageSize).map (⟨·, rows.length⟩)

/-- The page at an offset of the walk through a whole table. -/
def discoveredPage (t : EntryTable) (pageSize : Nat) (seed offset : Int) :
    Except StoreFault Page := do
  let entries ← (entriesOf (discoveredRows t pageSize seed offset)).mapError RowFault.toStoreFault
  return ⟨entries, offset, offset + entries.length, t.rows.length, seed⟩

namespace Access

/-- The value of a computation. -/
def result {α : Type} (r : Except StoreFault α) : Access α :=
  match r with
  | .ok a => return a
  | .error e => throw e

/-- Scans the entries for a page of a query. -/
def scan (pageSize : Nat) (q : Query) : Access (List CountedRow) := onConnection .scanFailed do
  Steps.prepare (.select q.predicate) fun db =>
    if depthLimit < depthOf q.clauses then some .tooDeep
    else Steps.needing Steps.entriesName (·.entries) db
  Steps.bindTexts q.parameters
  Steps.bind pageSize
  Steps.bind q.offset
  match (← Steps.runOnEntries).select q with
  | .ok rows => return countedRows pageSize q rows
  | .error refusal => Steps.refuse refusal

/-- Counts the entries that satisfy a query. -/
def recount (q : Query) : Access Nat := onConnection .scanFailed do
  Steps.prepareOnEntries (.count q.predicate)
  Steps.bindTexts q.parameters
  match (← Steps.runOnEntries).select q with
  | .ok rows => return rows.length
  | .error refusal => Steps.refuse refusal

/-- The number of entries that satisfy a query, once it was scanned for a page.  A page behind the
last of them, or without room, has no row that tells the number; any other has none only where there
are none at all. -/
def totalOf (pageSize : Nat) (q : Query) : List CountedRow → Access Nat
  | first :: _ => return first.total
  | [] => if 0 < q.offset ∨ pageSize = 0 then recount q else return 0

/-- The page of the rows that satisfy a query. -/
def filteredPage (pageSize : Nat) (seed : Int) (q : Query) : Access Page := do
  let rows ← scan pageSize q
  let entries ← result ((entriesOf (rows.map (·.row))).mapError RowFault.toStoreFault)
  let total ← totalOf pageSize q rows
  return ⟨entries, q.offset, q.offset + entries.length, total, seed⟩

/-- Counts the entries, and reads the table of them unless the offset is behind the last one. -/
def tableFrom (offset : Int) : Access (Nat × Option EntryTable) := onConnection .scanFailed do
  Steps.prepare .countAll (Steps.needing Steps.entriesName (·.count?))
  let total ← Steps.run Steps.entriesName (·.count?)
  if offset < total then
    Steps.prepareOnEntries .walk
    let t ← Steps.runOnEntries
    return (total, some t)
  else return (total, none)

/-- A page of the walk through the whole collection. -/
def discover (pageSize : Nat) (seed offset : Int) : Access Page := do
  match (← tableFrom offset) with
  | (_, some t) => result (discoveredPage t pageSize seed offset)
  | (total, none) => return ⟨[], offset, offset, total, seed⟩

/-- The page of a query; `generated` is its seed where it gives none. -/
def retrieve (pageSize generated : Nat) (q : Query) : Access Page :=
  let seed : Int := q.seed.getD generated
  if q.isFiltered then filteredPage pageSize seed q else discover pageSize seed q.offset

/-- Finds the row with a number. -/
def findRow (pageSize : Nat) (id : Int) : Access (Option Row) := onConnection .scanFailed do
  Steps.prepareOnEntries (.select "entry_id = ?")
  Steps.bind id
  Steps.bind pageSize
  return (← Steps.runOnEntries).find? id

/-- The entry with a number. -/
def getEntry (pageSize : Nat) (id : Int) : Access (Option Entry) := do
  match (← findRow pageSize id) with
  | none => return none
  | some row => return some (← result (row.entry.mapError RowFault.toStoreFault))

end Access

end Catalogue
