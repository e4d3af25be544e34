import Catalogue.Proofs.Store.Moves
import Catalogue.Proofs.Store.Paging

/-! Values that cannot be bound.  The fault of such a value is told as it is where nothing was
refused just before.  A transaction begins with a step that is not refused, so in one it always is;
a lookup, which makes no transaction, may tell an earlier refusal instead. -/

namespace Catalogue

open Catalogue.Filter Number

namespace Steps

variable {α β : Type} {start : Option Database} {db : Database} {a : α} {b : β} {fault : BindFault}

/-- Where nothing was refused before them, the steps give `a`, leave the database as it is, and
nothing is refused after them. -/
def Passes (start : Option Database) (steps : Steps α) (db : Database) (a : α) : Prop :=
  ∀ prepared, ∃ prepared', steps ⟨db, start, ⟨prepared, none⟩, .quiet⟩ =
    .ok a ⟨db, start, ⟨prepared', none⟩, .quiet⟩

theorem Passes.accept : Passes start accept db () := fun prepared => ⟨prepared, rfl⟩

theorem Passes.pure (a : α) : Passes start (Pure.pure a) db a := fun prepared => ⟨prepared, rfl⟩

theorem Passes.bind {x : Steps α} {f : α → Steps β} (hx : Passes start x db a)
    (hf : Passes start (f a) db b) : Passes start (x >>= f) db b := by
  intro prepared
  obtain ⟨prepared', h⟩ := hx prepared
  obtain ⟨prepared'', h'⟩ := hf prepared'
  exact ⟨prepared'', (bind_of_ok h f).trans h'⟩

/-- A statement that is kept prepared leaves an earlier refusal in memory. -/
theorem prepare_eq {statement : Statement} {obstacle : Database → Option Refusal}
    (h : obstacle db = none) (memory : Memory) (outside : Outside) :
    prepare statement obstacle ⟨db, start, memory, outside⟩ = .ok () ⟨db, start,
      ⟨(memory.use statement).prepared,
        if memory.prepared.contains statement then memory.refused else none⟩, outside⟩ := by
  rw [prepare, get_bind]
  dsimp only
  rw [h]
  cases memory.prepared.contains statement <;> rfl

theorem Passes.prepare {statement : Statement} {obstacle : Database → Option Refusal}
    (h : obstacle db = none) : Passes start (prepare statement obstacle) db () := by
  intro prepared
  rw [prepare_eq h, ite_self]
  exact ⟨_, rfl⟩

theorem Passes.bindInteger {n : Int} (h : FitsWord n) : Passes start (Steps.bind n) db () := by
  rw [Steps.bind, if_pos h]
  exact .bind .accept (.pure ())

/-- Where nothing was refused before them, the steps fail for a value that cannot be bound, and
leave the database as it is. -/
def Unbinds (fault : BindFault) (start : Option Database) (steps : Steps α) (db : Database) :
    Prop :=
  ∀ prepared, ∃ memory,
    steps ⟨db, start, ⟨prepared, none⟩, .quiet⟩ =
      .error (.unbound fault) ⟨db, start, memory, .quiet⟩

theorem Unbinds.failToBind : Unbinds fault start (failToBind fault : Steps α) db :=
  fun _ => ⟨_, rfl⟩

theorem Unbinds.bindInteger {n : Int} (h : ¬FitsWord n) :
    Unbinds .integerTooLarge start (Steps.bind n) db := by
  rw [Steps.bind, if_neg h]
  exact .failToBind

theorem Unbinds.bind {x : Steps α} (f : α → Steps β) (hx : Unbinds fault start x db) :
    Unbinds fault start (x >>= f) db := by
  intro prepared
  obtain ⟨memory, h⟩ := hx prepared
  exact ⟨memory, bind_of_error h f⟩

theorem Passes.unbinds {x : Steps α} {f : α → Steps β} (hx : Passes start x db a)
    (hf : Unbinds fault start (f a) db) : Unbinds fault start (x >>= f) db := by
  intro prepared
  obtain ⟨prepared', h⟩ := hx prepared
  obtain ⟨memory, h'⟩ := hf prepared'
  exact ⟨memory, (bind_of_ok h f).trans h'⟩

/-- A transaction begins with nothing refused, whatever was refused before. -/
theorem begin_unrefused (db : Database) (memory : Memory) : ∃ prepared,
    begin_ ⟨db, none, memory, .quiet⟩ = .ok () ⟨db, some db, ⟨prepared, none⟩, .quiet⟩ :=
  ⟨_, bind_of_ok (prepare_eq rfl memory _) _⟩

/-- In a transaction the fault is told, whatever was refused before. -/
theorem Unbinds.transaction {steps : Steps α} (h : Unbinds fault (some db) steps db) :
    Fails (· = .unbound fault) none (transaction steps) db db := by
  intro memory
  obtain ⟨memory', hbegin⟩ := begin_unrefused db memory
  obtain ⟨memory'', hsteps⟩ := h memory'
  refine ⟨_, { memory'' with refused := none }, rfl, ?_⟩
  rw [Steps.transaction, Connection.transaction, bind_of_ok hbegin, hsteps]
  rfl

/-- A statement is prepared, or the database refuses it. -/
theorem prepare_cases (start : Option Database) (db : Database) (statement : Statement)
    (obstacle : Database → Option Refusal) (memory : Memory) (outside : Outside) : ∃ memory',
    prepare statement obstacle ⟨db, start, memory, outside⟩ =
        .ok () ⟨db, start, memory', outside⟩ ∨
      ∃ refusal, prepare statement obstacle ⟨db, start, memory, outside⟩ =
        .error (.refused refusal) ⟨db, start, memory', outside⟩ := by
  rw [prepare, get_bind]
  dsimp only
  cases memory.prepared.contains statement with
  | true => exact ⟨_, .inl rfl⟩
  | false =>
    cases obstacle db with
    | none => exact ⟨_, .inl rfl⟩
    | some refusal => exact ⟨_, .inr ⟨refusal, rfl⟩⟩

/-! ### Transactions that bind what no column can hold -/

variable {t : EntryTable} {form : Form} {id : Int}

theorem fails_saveNew_unbound {today : Date} (ht : db.entries = some t)
    (hfit : ¬FitsWord form.type.amount) :
    Fails (· = .unbound .integerTooLarge) none (saveNew form today) db db :=
  Unbinds.transaction (Unbinds.bind _ (Passes.unbinds (Passes.prepare (needing_eq_none ht))
    (Passes.unbinds Passes.accept (Unbinds.bind _ (Unbinds.bindInteger hfit)))))

theorem fails_saveOver_unbound (ht : db.entries = some t)
    (hfit : ¬(FitsWord id ∧ FitsWord form.type.amount)) :
    Fails (· = .unbound .integerTooLarge) none (saveOver id form) db db := by
  have hupdate : Unbinds .integerTooLarge (some db) (updateEntry id form) db := by
    refine Passes.unbinds (Passes.prepare (needing_eq_none ht))
      (Passes.unbinds Passes.accept ?_)
    by_cases hamount : FitsWord form.type.amount
    · exact Passes.unbinds (Passes.bindInteger hamount)
        (Unbinds.bind _ (Unbinds.bindInteger fun hid => hfit ⟨hid, hamount⟩))
    · exact Unbinds.bind _ (Unbinds.bindInteger hamount)
  exact Unbinds.transaction (Unbinds.bind _ hupdate)

theorem fails_remove_unbound (ht : db.entries = some t) (hid : ¬FitsWord id) :
    Fails (· = .unbound .integerTooLarge) none (remove id) db db :=
  Unbinds.transaction (Passes.unbinds (Passes.prepare (needing_eq_none ht))
    (Unbinds.bind _ (Unbinds.bindInteger hid)))

theorem fails_refuseTexts_unbound (statement : Statement) (ht : db.entries = some t) :
    Fails (· = .unbound .looseText) none (Steps.transaction (refuseTexts statement : Steps α))
      db db :=
  Unbinds.transaction (Passes.unbinds (Passes.prepare (needing_eq_none ht)) Unbinds.failToBind)

end Steps

/-- The connection would tell its last refusal again instead of a value that cannot be bound to this
statement, which it keeps prepared. -/
def Memory.repeats (m : Memory) (statement : Statement) : Bool :=
  m.refused.isSome && m.prepared.contains statement

namespace Access

variable {α : Type} {db : Database} {t : EntryTable} {form : Form} {id : Int} {fault : BindFault}

/-- Steps that fail to bind a value make a fault that is none of the store. -/
theorem Gives.onConnection_unbound {steps : Steps α} (failure : StorageFault)
    (h : Steps.Fails (· = .unbound fault) none steps db db) :
    Gives (Access.onConnection failure steps) db (.error (.unbound fault)) db := by
  intro path memory
  obtain ⟨_, memory', rfl, h'⟩ := h memory
  refine ⟨memory', ?_⟩
  simp only [Access.onConnection]
  rw [h']
  rfl

theorem Gives.insertEntry_unbound (ht : db.entries = some t) (hfit : ¬FitsWord form.type.amount)
    (today : Date) : Gives (insertEntry form today) db (.error (.unbound .integerTooLarge)) db :=
  .onConnection_unbound _ (Steps.fails_saveNew_unbound ht hfit)

theorem Gives.updateEntry_unbound (ht : db.entries = some t)
    (hfit : ¬(FitsWord id ∧ FitsWord form.type.amount)) :
    Gives (updateEntry id form) db (.error (.unbound .integerTooLarge)) db :=
  .onConnection_unbound _ (Steps.fails_saveOver_unbound ht hfit)

theorem Gives.deleteEntry_unbound (ht : db.entries = some t) (hid : ¬FitsWord id) :
    Gives (deleteEntry id) db (.error (.unbound .integerTooLarge)) db :=
  .onConnection_unbound _ (Steps.fails_remove_unbound ht hid)

theorem Gives.refuseInsert_unbound (ht : db.entries = some t) :
    Gives (refuseInsert : Access α) db (.error (.unbound .looseText)) db :=
  .onConnection_unbound _ (Steps.fails_refuseTexts_unbound _ ht)

theorem Gives.refuseUpdate_unbound (ht : db.entries = some t) (id : Int) :
    Gives (refuseUpdate id : Access α) db (.error (.unbound .looseText)) db :=
  .onConnection_unbound _ (Steps.fails_refuseTexts_unbound _ ht)

/-- The fault of a lookup with a number that fits into no column. -/
def lookupFault (memory : Memory) : StoreFault :=
  if memory.repeats (.select "entry_id = ?") then .storage .scanFailed
  else .unbound .integerTooLarge

/-- A lookup with a number that fits into no column fails; an earlier refusal is what is told where
the statement of the lookup is kept prepared. -/
theorem getEntry_unfit (ht : db.entries = some t) (hid : ¬FitsWord id) (pageSize : Nat)
    (path : Path) (memory : Memory) :
    ∃ memory', getEntry pageSize id ⟨path, .connected ⟨db, none, memory, .quiet⟩⟩ =
      .error (lookupFault memory) ⟨path, .connected ⟨db, none, memory', .quiet⟩⟩ := by
  have hfind : ∃ memory', findRow pageSize id ⟨path, .connected ⟨db, none, memory, .quiet⟩⟩ =
      .error (lookupFault memory) ⟨path, .connected ⟨db, none, memory', .quiet⟩⟩ := by
    obtain ⟨prepared, refused⟩ := memory
    have hneeded : Steps.needing Steps.entriesName (·.entries) db = none :=
      Steps.needing_eq_none ht
    simp only [findRow, onConnection, Steps.prepareOnEntries]
    rw [bind_of_ok (Steps.prepare_eq hneeded _ _), Steps.bind, if_neg hid, lookupFault,
      Memory.repeats]
    by_cases hkept : prepared.contains (.select "entry_id = ?") = true
    · simp only [hkept, if_true, Bool.and_true]
      cases refused <;> exact ⟨_, rfl⟩
    · simp only [hkept, Bool.and_false]
      exact ⟨_, rfl⟩
  obtain ⟨memory', hfind⟩ := hfind
  exact ⟨memory', bind_of_error hfind _⟩

/-! ### Scans -/

/-- A scan binds only what fits: however many clauses it has, it is refused by the store or gives
the rows that the table selects. -/
theorem scan_cases {q : Query} {pageSize : Nat} (ht : db.entries = some t)
    (hsize : FitsWord pageSize) (hoffset : FitsWord q.offset) (path : Path) (memory : Memory) :
    ∃ result memory', scan pageSize q ⟨path, .connected ⟨db, none, memory, .quiet⟩⟩ =
        resultOf result ⟨path, .connected ⟨db, none, memory', .quiet⟩⟩ ∧
      (result = .error (.storage .scanFailed) ∨
        ∃ rows, result = .ok (countedRows pageSize q rows) ∧ t.select q = .ok rows) := by
  obtain ⟨memory', hprepare | ⟨refusal, hprepare⟩⟩ := Steps.prepare_cases none db
    (.select q.predicate) (fun db => if depthLimit < depthOf q.clauses then some .tooDeep
      else Steps.needing Steps.entriesName (·.entries) db) memory .quiet
  · simp only [scan, onConnection]
    rw [bind_of_ok hprepare]
    have htexts : Steps.Gives none (Steps.bindTexts q.parameters) db () db := .bindTexts _
    have hfirst : Steps.Gives none (Steps.bind pageSize) db () db := .bindInteger hsize
    have hsecond : Steps.Gives none (Steps.bind q.offset) db () db := .bindInteger hoffset
    have hrun : Steps.Gives none Steps.runOnEntries db t db := .run ht
    obtain ⟨m₁, h₁⟩ := htexts memory'
    obtain ⟨m₂, h₂⟩ := hfirst m₁
    obtain ⟨m₃, h₃⟩ := hsecond m₂
    obtain ⟨m₄, h₄⟩ := hrun m₃
    rw [bind_of_ok h₁, bind_of_ok h₂, bind_of_ok h₃, bind_of_ok h₄]
    cases hselect : t.select q with
    | ok rows => exact ⟨.ok (countedRows pageSize q rows), _, rfl, .inr ⟨rows, rfl, rfl⟩⟩
    | error refusal => exact ⟨.error (.storage .scanFailed), _, rfl, .inl rfl⟩
  · refine ⟨.error (.storage .scanFailed), memory', ?_, .inl rfl⟩
    simp only [scan, onConnection]
    rw [bind_of_error hprepare]
    rfl

/-- Of a table of saved forms a scan gives the page of its rows, unless the store refuses it. -/
theorem retrieve_cases {q : Query} {pageSize : Nat} {saved : List Saved} (ht : db.entries = some t)
    (hholds : t.Holds saved) (hsize : FitsWord pageSize) (hoffset : FitsWord q.offset)
    (generated : Nat) (path : Path) (memory : Memory) :
    ∃ result memory', retrieve pageSize generated q ⟨path, .connected ⟨db, none, memory, .quiet⟩⟩ =
        resultOf result ⟨path, .connected ⟨db, none, memory', .quiet⟩⟩ ∧
      (result = .error (.storage .scanFailed) ∨
        ∃ page, result = .ok page ∧ t.page pageSize generated q = .ok page) := by
  unfold retrieve EntryTable.page
  split
  · obtain ⟨_, memory', hscan, rfl | ⟨rows, rfl, hrows⟩⟩ := scan_cases ht hsize hoffset path memory
    · exact ⟨.error (.storage .scanFailed), memory', bind_of_error hscan _, .inl rfl⟩
    · obtain ⟨entries, hentries⟩ : ∃ entries,
          entriesOf ((rows.drop q.offset).take pageSize) = .ok entries := by
        rw [EntryTable.eq_matching_of_select hrows, hholds.matching, ← List.map_drop,
          ← List.map_take, entriesOf_map]
        exact ⟨_, rfl⟩
      obtain ⟨memory'', htotal⟩ := Gives.totalOf ht hrows pageSize path memory'
      refine ⟨.ok ⟨entries, q.offset, q.offset + entries.length, rows.length,
        (q.seed.getD generated : Nat)⟩, memory'', (bind_of_ok hscan _).trans ?_, .inr ⟨_, rfl, ?_⟩⟩
      · rw [map_row_countedRows, hentries]
        exact bind_of_ok htotal _
      · rw [EntryTable.filteredPage, hrows]
        dsimp only
        rw [hentries]
        rfl
  · obtain ⟨entries, hpage, -⟩ := hholds.discoveredPage pageSize (q.seed.getD generated) q.offset
    obtain ⟨memory', hresult⟩ :=
      Gives.discover pageSize (q.seed.getD generated) q.offset ht path memory
    exact ⟨_, memory', hresult, .inr ⟨_, hpage, hpage⟩⟩

/-! ### Closed stores -/

variable {store : Store}

theorem onConnection_closed (h : store.isOpen = false) (failure : StorageFault) (steps : Steps α) :
    Access.onConnection failure steps store = .error (.storage .closed) store := by
  obtain ⟨path, contents | c⟩ := store
  · rfl
  · cases h

theorem getEntry_closed (h : store.isOpen = false) (pageSize : Nat) (id : Int) :
    getEntry pageSize id store = .error (.storage .closed) store :=
  bind_of_error (onConnection_closed h _ _) _

theorem retrieve_closed (h : store.isOpen = false) (pageSize generated : Nat) (q : Query) :
    retrieve pageSize generated q store = .error (.storage .closed) store := by
  unfold retrieve
  split
  · exact bind_of_error (onConnection_closed h _ _) _
  · exact bind_of_error (onConnection_closed h _ _) _

end Access

/-- The store would tell its last refusal again instead of a value that cannot be bound to this
statement. -/
def Store.Repeats (store : Store) (statement : Statement) : Prop :=
  ∃ c, store.state = .connected c ∧ c.memory.repeats statement

/-- The store is closed, or it shows the tables of saved forms. -/
def Store.IsFilled (store : Store) : Prop :=
  store.isOpen = false ∨ ∃ db t saved,
    store.Shows db ∧ db.Intact ∧ db.entries = some t ∧ t.Holds saved

/-- Whatever is done to a store, it goes on to be filled with saved forms alone. -/
theorem Session.isFilled_play (path : Path) (tree : FileTree) (moves : List Move) :
    ((new path tree).play moves).store.IsFilled := by
  obtain ⟨l, h⟩ := (Ledger.new_matches (fun _ => True) path tree).play moves
  cases hopen : ((new path tree).play moves).store.isOpen with
  | false => exact .inl hopen
  | true =>
    obtain ⟨t, saved, ht, hholds, -⟩ := h.holds
    have hshows := h.shows (h.isOpen.symm.trans hopen)
    exact .inr ⟨_, t, saved, hshows, h.intact hopen, ht, hholds⟩

end Catalogue
