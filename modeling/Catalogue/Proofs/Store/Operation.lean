import Catalogue.Proofs.Store.Saving
import Catalogue.Store.Retrieval

/-! The operations of an open store.  Where the tables that an operation needs are there and its
integers fit into columns, the database alone decides what it answers and which database it leaves:
nothing else that the connection remembers counts. -/

namespace Catalogue

open Catalogue.Filter Number

namespace Store

/-- No transaction is open on the store, and the outside holds nothing against its statements. -/
def IsIdle (store : Store) : Prop :=
  match store.state with
  | .closed _ => True
  | .connected c => c.start = none ∧ c.outside = .quiet

/-- The store is open on the database `db`, no transaction is open, and the outside is quiet. -/
def Shows (store : Store) (db : Database) : Prop :=
  ∃ memory, store.state = .connected ⟨db, none, memory, .quiet⟩

theorem shows_database {store : Store} (hopen : store.isOpen) (hidle : store.IsIdle) :
    store.Shows store.database := by
  obtain ⟨path, state⟩ := store
  cases state with
  | closed contents => cases hopen
  | connected c =>
    obtain ⟨contents, start, memory, outside⟩ := c
    obtain ⟨rfl, rfl⟩ : start = none ∧ outside = .quiet := hidle
    exact ⟨memory, rfl⟩

theorem Shows.isOpen {store : Store} {db : Database} (h : store.Shows db) :
    store.isOpen = true := by
  obtain ⟨memory, h⟩ := h
  rw [Store.isOpen, h]

theorem Shows.isIdle {store : Store} {db : Database} (h : store.Shows db) : store.IsIdle := by
  obtain ⟨memory, h⟩ := h
  rw [Store.IsIdle, h]
  exact ⟨rfl, rfl⟩

theorem Shows.database {store : Store} {db : Database} (h : store.Shows db) :
    store.database = db := by
  obtain ⟨memory, h⟩ := h
  rw [Store.database, h]

end Store

/-- An operation on a store that may be open or closed.  A form with loose texts, which no column
can hold, is not told apart from another one. -/
inductive Operation where
  | insert (form : Form) (today : Date)
  | insertLoose
  | update (id : Int) (form : Form)
  | updateLoose (id : Int)
  | delete (id : Int)
  | get (pageSize : Nat) (id : Int)
  | retrieve (pageSize generated : Nat) (q : Query)
  | categories
  | vocabulary (v : Vocabulary)

/-- What an operation gives. -/
inductive Answer where
  | number (id : Int)
  | found (there : Bool)
  | entry (e : Option Entry)
  | page (p : Page)
  | names (names : List String)
  | terms (terms : List Term)

/-- Runs an operation. -/
def Operation.run : Operation → Access Answer
  | .insert form today => .number <$> Access.insertEntry form today
  | .insertLoose => .number <$> Access.refuseInsert
  | .update id form => .found <$> Access.updateEntry id form
  | .updateLoose id => .found <$> Access.refuseUpdate id
  | .delete id => .found <$> Access.deleteEntry id
  | .get pageSize id => .entry <$> Access.getEntry pageSize id
  | .retrieve pageSize generated q => .page <$> Access.retrieve pageSize generated q
  | .categories => .names <$> Access.listCategories
  | .vocabulary v => .terms <$> Access.listVocabulary v

namespace EntryTable

/-- The entry with a number. -/
def entryWith (t : EntryTable) (id : Int) : Except StoreFault (Option Entry) :=
  match t.find? id with
  | none => .ok none
  | some row => (row.entry.mapError RowFault.toStoreFault).map some

/-- The page of the rows that satisfy a query. -/
def filteredPage (t : EntryTable) (pageSize : Nat) (seed : Int) (q : Query) :
    Except StoreFault Page :=
  match t.select q with
  | .error _ => .error (.storage .scanFailed)
  | .ok rows => do
    let entries ← (entriesOf ((rows.drop q.offset).take pageSize)).mapError RowFault.toStoreFault
    return ⟨entries, q.offset, q.offset + entries.length, rows.length, seed⟩

/-- The page of a query; `generated` is its seed where it gives none. -/
def page (t : EntryTable) (pageSize generated : Nat) (q : Query) : Except StoreFault Page :=
  let seed : Int := q.seed.getD generated
  if q.isFiltered then t.filteredPage pageSize seed q else discoveredPage t pageSize seed q.offset

end EntryTable

/-- The clauses of the query are not nested too deeply to be prepared, and its integers fit into
columns. -/
structure Query.FitsScan (q : Query) (pageSize : Nat) : Prop where
  depth : depthOf q.clauses ≤ depthLimit
  size : FitsWord pageSize
  offset : FitsWord q.offset

namespace Access

variable {α β : Type} {db after mid : Database}

/-- An answer or a fault together with the store that it leaves. -/
def resultOf (answer : Except StoreFault α) (store : Store) : EStateM.Result StoreFault Store α :=
  match answer with
  | .ok a => .ok a store
  | .error e => .error e store

/-- On a store that is open on the database `db`, with no transaction open and a quiet outside, the
operation gives `answer` and leaves the database `after`, whatever the connection remembers. -/
def Gives (operation : Access α) (db : Database) (answer : Except StoreFault α)
    (after : Database) : Prop :=
  ∀ path memory, ∃ memory', operation ⟨path, .connected ⟨db, none, memory, .quiet⟩⟩ =
    resultOf answer ⟨path, .connected ⟨after, none, memory', .quiet⟩⟩

theorem Gives.of_shows {operation : Access α} {answer : Except StoreFault α} {store : Store}
    (h : Gives operation db answer after) (hshows : store.Shows db) :
    ∃ later, operation store = resultOf answer later ∧ later.Shows after ∧
      later.path = store.path := by
  obtain ⟨path, state⟩ := store
  obtain ⟨memory, rfl⟩ := hshows
  obtain ⟨memory', h'⟩ := h path memory
  exact ⟨_, h', ⟨memory', rfl⟩, rfl⟩

theorem Gives.pure (a : α) : Gives (Pure.pure a) db (.ok a) db := fun _ memory => ⟨memory, rfl⟩

theorem Gives.result (answer : Except StoreFault α) :
    Gives (Access.result answer) db answer db := by
  intro path memory
  cases answer <;> exact ⟨memory, rfl⟩

theorem Gives.bind {x : Access α} {f : α → Access β} {a : α} {answer : Except StoreFault β}
    (hx : Gives x db (.ok a) mid) (hf : Gives (f a) mid answer after) :
    Gives (x >>= f) db answer after := by
  intro path memory
  obtain ⟨memory', h⟩ := hx path memory
  obtain ⟨memory'', h'⟩ := hf path memory'
  exact ⟨memory'', (bind_of_ok h f).trans h'⟩

theorem Gives.bind_error {x : Access α} (f : α → Access β) {e : StoreFault}
    (hx : Gives x db (.error e) after) : Gives (x >>= f) db (.error e) after := by
  intro path memory
  obtain ⟨memory', h⟩ := hx path memory
  exact ⟨memory', bind_of_error h f⟩

theorem Gives.map {x : Access α} (f : α → β) {answer : Except StoreFault α}
    (hx : Gives x db answer after) : Gives (f <$> x) db (answer.map f) after := by
  intro path memory
  obtain ⟨memory', h⟩ := hx path memory
  cases answer with
  | ok a => exact ⟨memory', map_of_ok h f⟩
  | error e => exact ⟨memory', map_of_error h f⟩

/-- What steps do on a connection, an open store does. -/
theorem Gives.onConnection {steps : Steps α} {a : α} (fault : StorageFault)
    (h : Steps.Gives none steps db a after) :
    Gives (Access.onConnection fault steps) db (.ok a) after := by
  intro path memory
  obtain ⟨memory', h'⟩ := h memory
  refine ⟨memory', ?_⟩
  simp only [Access.onConnection]
  rw [h']
  rfl

/-- Steps that are refused make a fault of the store. -/
theorem Gives.onConnection_refused {steps : Steps α} (fault : StorageFault)
    (h : Steps.Fails Steps.IsRefusal none steps db after) :
    Gives (Access.onConnection fault steps) db (.error (.storage fault)) after := by
  intro path memory
  obtain ⟨_, memory', ⟨refusal, rfl⟩, h'⟩ := h memory
  refine ⟨memory', ?_⟩
  simp only [Access.onConnection]
  rw [h']
  rfl

/-- On a store that is open on the database `db`, with no transaction open and a quiet
outside, the operation fails, with one fault or another, and leaves the database as it is. -/
def Fails (operation : Access α) (db : Database) : Prop :=
  ∀ path memory, ∃ e memory', operation ⟨path, .connected ⟨db, none, memory, .quiet⟩⟩ =
    .error e ⟨path, .connected ⟨db, none, memory', .quiet⟩⟩

theorem Fails.onConnection {steps : Steps α} (fault : StorageFault)
    (h : Steps.Fails (fun _ => True) none steps db db) :
    Fails (Access.onConnection fault steps) db := by
  intro path memory
  obtain ⟨e, memory', -, h'⟩ := h memory
  simp only [Access.onConnection]
  rw [h']
  cases e <;> exact ⟨_, memory', rfl⟩

theorem Fails.bind {x : Access α} (f : α → Access β) (hx : Fails x db) : Fails (x >>= f) db := by
  intro path memory
  obtain ⟨e, memory', h⟩ := hx path memory
  exact ⟨e, memory', bind_of_error h f⟩

theorem Fails.map {x : Access α} (f : α → β) (hx : Fails x db) : Fails (f <$> x) db := by
  intro path memory
  obtain ⟨e, memory', h⟩ := hx path memory
  exact ⟨e, memory', map_of_error h f⟩

/-! ### Reading -/

theorem Gives.getEntry {t : EntryTable} {pageSize : Nat} {id : Int} (ht : db.entries = some t)
    (hsize : FitsWord pageSize) (hid : FitsWord id) :
    Gives (getEntry pageSize id) db (t.entryWith id) db := by
  have hrow : Gives (findRow pageSize id) db (.ok (t.find? id)) db := by
    refine Gives.onConnection _ (Steps.Gives.bind (Steps.Gives.prepare (Steps.needing_eq_none ht))
      (Steps.Gives.bind (Steps.Gives.bindInteger hid) (Steps.Gives.bind
        (Steps.Gives.bindInteger hsize) (Steps.Gives.bind (Steps.Gives.run ht) ?_))))
    exact Steps.Gives.pure _
  refine Gives.bind hrow ?_
  rw [EntryTable.entryWith]
  cases t.find? id with
  | none => exact Gives.pure _
  | some row =>
    dsimp only
    cases row.entry.mapError RowFault.toStoreFault with
    | ok e => exact Gives.bind (Gives.result (.ok e)) (Gives.pure _)
    | error e => exact Gives.bind_error _ (Gives.result (.error e))

theorem Fails.getEntry {t : EntryTable} {pageSize : Nat} {id : Int} (ht : db.entries = some t)
    (hfit : ¬(FitsWord pageSize ∧ FitsWord id)) : Fails (getEntry pageSize id) db := by
  refine Fails.bind _ (Fails.onConnection _
    (Steps.Gives.fails (Steps.Gives.prepare (Steps.needing_eq_none ht)) ?_))
  by_cases hid : FitsWord id
  · exact Steps.Gives.fails (Steps.Gives.bindInteger hid)
      (Steps.Fails.bind _ (Steps.Fails.bindInteger fun hsize => hfit ⟨hsize, hid⟩))
  · exact Steps.Fails.bind _ (Steps.Fails.bindInteger hid)

theorem Gives.scan {t : EntryTable} {pageSize : Nat} {q : Query} (ht : db.entries = some t)
    (hq : q.FitsScan pageSize) :
    Gives (scan pageSize q) db
      (((t.select q).map (countedRows pageSize q)).mapError fun _ => .storage .scanFailed) db := by
  have hobstacle : (if depthLimit < depthOf q.clauses then some .tooDeep
      else Steps.needing Steps.entriesName (·.entries) db) = none := by
    rw [if_neg (Nat.not_lt.mpr hq.depth), Steps.needing_eq_none ht]
  cases h : t.select q with
  | ok rows =>
    refine Gives.onConnection _ (Steps.Gives.bind (Steps.Gives.prepare hobstacle)
      (Steps.Gives.bind (Steps.Gives.bindTexts _) (Steps.Gives.bind
        (Steps.Gives.bindInteger hq.size) (Steps.Gives.bind (Steps.Gives.bindInteger hq.offset)
          (Steps.Gives.bind (Steps.Gives.run ht) ?_)))))
    rw [h]
    exact Steps.Gives.pure _
  | error refusal =>
    refine Gives.onConnection_refused _ (Steps.Gives.fails (Steps.Gives.prepare hobstacle)
      (Steps.Gives.fails (Steps.Gives.bindTexts _) (Steps.Gives.fails
        (Steps.Gives.bindInteger hq.size) (Steps.Gives.fails (Steps.Gives.bindInteger hq.offset)
          (Steps.Gives.fails (Steps.Gives.run ht) ?_)))))
    rw [h]
    exact Steps.Fails.refuse _

theorem Gives.recount {t : EntryTable} {q : Query} {rows : List Row} (ht : db.entries = some t)
    (h : t.select q = .ok rows) : Gives (recount q) db (.ok rows.length) db := by
  refine Gives.onConnection _ (Steps.Gives.bind (Steps.Gives.prepare (Steps.needing_eq_none ht))
    (Steps.Gives.bind (Steps.Gives.bindTexts _) (Steps.Gives.bind (Steps.Gives.run ht) ?_)))
  rw [h]
  exact Steps.Gives.pure _

/-- However the number of rows is found, it is the same: by a row of the page, by counting once
more, or because there is none. -/
theorem Gives.totalOf {t : EntryTable} {q : Query} {rows : List Row} (ht : db.entries = some t)
    (h : t.select q = .ok rows) (pageSize : Nat) :
    Gives (totalOf pageSize q (countedRows pageSize q rows)) db (.ok rows.length) db := by
  cases hcounted : countedRows pageSize q rows with
  | cons first rest =>
    have hfirst : first ∈ countedRows pageSize q rows := by simp [hcounted]
    obtain ⟨row, -, rfl⟩ := List.mem_map.mp hfirst
    exact Gives.pure _
  | nil =>
    rw [Access.totalOf]
    split
    · exact Gives.recount ht h
    · next hfirst =>
      have hnone : rows = [] := by
        obtain ⟨hoffset, hsize⟩ := not_or.mp hfirst
        have hempty := congrArg List.length hcounted
        simp only [countedRows, List.length_map, List.length_take, List.length_drop,
          List.length_nil] at hempty
        exact List.length_eq_zero_iff.mp (by omega)
      rw [hnone]
      exact Gives.pure _

theorem map_row_countedRows (pageSize : Nat) (q : Query) (rows : List Row) :
    (countedRows pageSize q rows).map (·.row) = (rows.drop q.offset).take pageSize := by
  rw [countedRows, List.map_map]
  exact List.map_id _

theorem Gives.filteredPage {t : EntryTable} {pageSize : Nat} (seed : Int) {q : Query}
    (ht : db.entries = some t) (hq : q.FitsScan pageSize) :
    Gives (filteredPage pageSize seed q) db (t.filteredPage pageSize seed q) db := by
  have hscan := Gives.scan ht hq
  rw [EntryTable.filteredPage]
  cases hselect : t.select q with
  | error refusal =>
    rw [hselect] at hscan
    exact Gives.bind_error _ hscan
  | ok rows =>
    rw [hselect] at hscan
    refine Gives.bind hscan ?_
    dsimp only
    rw [map_row_countedRows]
    cases (entriesOf ((rows.drop q.offset).take pageSize)).mapError RowFault.toStoreFault with
    | error e => exact Gives.bind_error _ (Gives.result (.error e))
    | ok entries =>
      exact Gives.bind (Gives.result (.ok entries))
        (Gives.bind (Gives.totalOf ht hselect pageSize) (Gives.pure _))

theorem Gives.tableFrom {t : EntryTable} (offset : Int) (ht : db.entries = some t) :
    Gives (tableFrom offset) db
      (.ok (t.rows.length, if offset < t.rows.length then some t else none)) db := by
  have hcount : db.count? = some t.rows.length := by rw [Database.count?, ht]; rfl
  refine Gives.onConnection _ (Steps.Gives.bind (Steps.Gives.prepare (Steps.needing_eq_none hcount))
    (Steps.Gives.bind (Steps.Gives.run hcount) ?_))
  split
  · exact Steps.Gives.bind (Steps.Gives.prepare (Steps.needing_eq_none ht))
      (Steps.Gives.bind (Steps.Gives.run ht) (Steps.Gives.pure _))
  · exact Steps.Gives.pure _

/-- The page of a walk behind the last row is empty. -/
theorem discoveredPage_behind {t : EntryTable} {offset : Int} (h : ¬offset < t.rows.length)
    (pageSize : Nat) (seed : Int) :
    discoveredPage t pageSize seed offset = .ok ⟨[], offset, offset, t.rows.length, seed⟩ := by
  have hpage : discoveredPage t pageSize seed offset =
      .ok ⟨[], offset, offset + ([] : List Entry).length, t.rows.length, seed⟩ := by
    rw [discoveredPage, discoveredRows, if_neg h]
    rfl
  rw [hpage, List.length_nil, Int.natCast_zero, Int.add_zero]

theorem Gives.discover {t : EntryTable} (pageSize : Nat) (seed offset : Int)
    (ht : db.entries = some t) :
    Gives (discover pageSize seed offset) db (discoveredPage t pageSize seed offset) db := by
  refine Gives.bind (Gives.tableFrom offset ht) ?_
  by_cases h : offset < t.rows.length
  · rw [if_pos h]
    exact Gives.result _
  · rw [if_neg h, discoveredPage_behind h]
    exact Gives.pure _

theorem Gives.retrieve {t : EntryTable} {pageSize : Nat} (generated : Nat) {q : Query}
    (ht : db.entries = some t) (hq : q.isFiltered → q.FitsScan pageSize) :
    Gives (retrieve pageSize generated q) db (t.page pageSize generated q) db := by
  unfold Access.retrieve EntryTable.page
  split
  · next h => exact Gives.filteredPage _ ht (hq h)
  · exact Gives.discover _ _ _ ht

theorem Gives.listCategories {names : List String} (h : db.categories = some names) :
    Gives listCategories db (.ok names) db :=
  Gives.onConnection _
    (Steps.Gives.bind (Steps.Gives.prepare (Steps.needing_eq_none h)) (Steps.Gives.run h))

theorem Gives.listVocabulary {v : Vocabulary} {terms : List Term} (h : db.terms v = some terms) :
    Gives (listVocabulary v) db (.ok terms) db :=
  Gives.onConnection _
    (Steps.Gives.bind (Steps.Gives.prepare (Steps.needing_eq_none h)) (Steps.Gives.run h))

end Access

namespace Operation

/-- What an operation answers on a store, and the database that it leaves there. -/
def outcome (operation : Operation) (store : Store) : Except StoreFault Answer × Database :=
  match operation.run store with
  | .ok answer after => (.ok answer, after.database)
  | .error e after => (.error e, after.database)

/-- The tables that the operation needs are there. -/
def FindsTables (db : Database) : Operation → Prop
  | .insert .. | .insertLoose | .update .. | .updateLoose _ => db.Intact
  | .delete _ | .get .. | .retrieve .. => db.entries.isSome
  | .categories => db.categories.isSome
  | .vocabulary v => (db.terms v).isSome

/-- The integers and the texts of the operation fit into columns, and its clauses are not nested too
deeply to be prepared. -/
def Fits : Operation → Prop
  | .insert form _ => FitsWord form.type.amount
  | .update id form => FitsWord id ∧ FitsWord form.type.amount
  | .delete id => FitsWord id
  | .get pageSize id => FitsWord pageSize ∧ FitsWord id
  | .retrieve pageSize _ q => q.isFiltered → q.FitsScan pageSize
  | .categories | .vocabulary _ => True
  | .insertLoose | .updateLoose _ => False

section Outcomes

open Access

variable {db : Database} {t : EntryTable} {form : Form} {id : Int}

theorem gives_insert (h : db.Intact) (ht : db.entries = some t) (hid : t.newId? = some id)
    (hfit : FitsWord form.type.amount) (today : Date) :
    Gives (insert form today).run db (.ok (.number id))
      ((db.withEntries (t.insert (.ofForm id form (.text today.text)))).record form) :=
  (Gives.onConnection _ (Steps.Gives.saveNew h ht hid hfit)).map _

/-- Once the largest number is given, nothing is inserted any more. -/
theorem gives_insert_full (ht : db.entries = some t) (hid : t.newId? = none)
    (hfit : FitsWord form.type.amount) (today : Date) :
    Gives (insert form today).run db (.error (.storage .insertFailed)) db :=
  (Gives.onConnection_refused _ (Steps.Fails.saveNew ht hid hfit)).map _

theorem fails_insert (ht : db.entries = some t) (hfit : ¬FitsWord form.type.amount)
    (today : Date) : Fails (insert form today).run db :=
  (Fails.onConnection _ (Steps.Fails.saveNew_amount ht hfit)).map _

theorem fails_insertLoose (ht : db.entries = some t) : Fails insertLoose.run db :=
  (Fails.onConnection _ (Steps.Fails.refuseTexts _ ht)).map _

theorem gives_update (h : db.Intact) (ht : db.entries = some t) (hid : FitsWord id)
    (hfit : FitsWord form.type.amount) :
    Gives (update id form).run db (.ok (.found (t.has id)))
      (if t.has id then
        (db.withEntries (t.modify id fun row => .ofForm id form row.saved)).record form
      else db.withEntries (t.modify id fun row => .ofForm id form row.saved)) :=
  (Gives.onConnection _ (Steps.Gives.saveOver h ht hid hfit)).map _

theorem fails_update (ht : db.entries = some t)
    (hfit : ¬(FitsWord id ∧ FitsWord form.type.amount)) : Fails (update id form).run db :=
  (Fails.onConnection _ (Steps.Fails.saveOver ht hfit)).map _

theorem fails_updateLoose (ht : db.entries = some t) (id : Int) : Fails (updateLoose id).run db :=
  (Fails.onConnection _ (Steps.Fails.refuseTexts _ ht)).map _

theorem gives_delete (ht : db.entries = some t) (hid : FitsWord id) :
    Gives (delete id).run db (.ok (.found (t.has id))) (db.withEntries (t.erase id)) :=
  (Gives.onConnection _ (Steps.Gives.remove ht hid)).map _

theorem fails_delete (ht : db.entries = some t) (hid : ¬FitsWord id) :
    Fails (delete id).run db :=
  (Fails.onConnection _ (Steps.Fails.remove ht hid)).map _

theorem gives_get {pageSize : Nat} (ht : db.entries = some t) (hsize : FitsWord pageSize)
    (hid : FitsWord id) : Gives (get pageSize id).run db ((t.entryWith id).map .entry) db :=
  (Gives.getEntry ht hsize hid).map _

theorem fails_get {pageSize : Nat} (ht : db.entries = some t)
    (hfit : ¬(FitsWord pageSize ∧ FitsWord id)) : Fails (get pageSize id).run db :=
  (Fails.getEntry ht hfit).map _

/-- The database alone decides what an operation answers and which database it leaves, where the
operation fits and finds its tables. -/
theorem exists_gives {operation : Operation} (h : operation.FindsTables db)
    (hfits : operation.Fits) : ∃ answer after, Gives operation.run db answer after := by
  cases operation with
  | insert form today =>
    obtain ⟨t, ht⟩ := Option.isSome_iff_exists.mp h.entries
    cases hid : t.newId? with
    | none => exact ⟨_, _, gives_insert_full ht hid hfits today⟩
    | some id => exact ⟨_, _, gives_insert h ht hid hfits today⟩
  | update id form =>
    obtain ⟨t, ht⟩ := Option.isSome_iff_exists.mp h.entries
    exact ⟨_, _, gives_update h ht hfits.1 hfits.2⟩
  | delete id =>
    obtain ⟨t, ht⟩ := Option.isSome_iff_exists.mp h
    exact ⟨_, _, gives_delete ht hfits⟩
  | get pageSize id =>
    obtain ⟨t, ht⟩ := Option.isSome_iff_exists.mp h
    exact ⟨_, _, gives_get ht hfits.1 hfits.2⟩
  | retrieve pageSize generated q =>
    obtain ⟨t, ht⟩ := Option.isSome_iff_exists.mp h
    exact ⟨_, _, (Gives.retrieve generated ht hfits).map _⟩
  | categories =>
    obtain ⟨names, hnames⟩ := Option.isSome_iff_exists.mp h
    exact ⟨_, _, (Gives.listCategories hnames).map _⟩
  | vocabulary v =>
    obtain ⟨terms, hterms⟩ := Option.isSome_iff_exists.mp h
    exact ⟨_, _, (Gives.listVocabulary hterms).map _⟩
  | insertLoose => exact hfits.elim
  | updateLoose id => exact hfits.elim

end Outcomes

end Operation

end Catalogue
