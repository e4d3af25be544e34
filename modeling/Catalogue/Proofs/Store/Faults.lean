import Catalogue.Proofs.Store.Binding

/-! Operations that fail with a fault other than one of the store.  They are those that bind an
integer or a text that no column can hold, and the lookup of a row with an infinite kind or measure;
each is known exactly, whatever tables are there and whatever the connection remembers. -/

namespace Catalogue

open Number

namespace Connection

/-- A statement on the entries comes to bind its values: it is kept prepared, or the table is
there. -/
def Reaches (c : StoreConnection) (statement : Statement) : Prop :=
  c.memory.prepared.contains statement ∨ c.contents.entries.isSome

instance (c : StoreConnection) (statement : Statement) : Decidable (c.Reaches statement) :=
  inferInstanceAs (Decidable (_ ∨ _))

/-- The connection with a statement prepared: an earlier refusal stays in memory only where the
statement was kept prepared. -/
def readied (c : StoreConnection) (statement : Statement) : StoreConnection :=
  { c with memory := ⟨(c.memory.use statement).prepared,
    if c.memory.prepared.contains statement then c.memory.refused else none⟩ }

/-- The outside lets the next statement run. -/
def IsLet (c : StoreConnection) : Prop := c.outside.statements.head?.join = none

/-- The table of entries that the next statement finds, if the outside lets it run. -/
def readable (c : StoreConnection) : Option EntryTable :=
  match c.outside.statements.head?.join with
  | some _ => none
  | none => c.contents.entries

/-- A transaction begins: none is open, and its begin is not refused. -/
def Begins (c : StoreConnection) : Prop := c.start = none ∧ c.IsLet

/-- The connection in a transaction that has just begun. -/
def begun (c : StoreConnection) : StoreConnection :=
  ⟨c.contents, some c.contents, ⟨(c.memory.use .begin).prepared, none⟩, (Steps.past c).outside⟩

end Connection

namespace Steps

variable {α β : Type} {c c' : StoreConnection} {x : Steps α} {f : α → Steps β} {a : α}
  {e : StatementFault}

/-! ### What steps give -/

/-- What steps give on a connection, or why they fail. -/
def outcome (steps : Steps α) (c : StoreConnection) : Except StatementFault α :=
  match steps c with
  | .ok a _ => .ok a
  | .error e _ => .error e

theorem outcome_of_ok (h : x c = .ok a c') : x.outcome c = .ok a := by rw [outcome, h]

theorem outcome_of_error (h : x c = .error e c') : x.outcome c = .error e := by rw [outcome, h]

theorem outcome_bind_of_ok (h : x c = .ok a c') : (x >>= f).outcome c = (f a).outcome c' := by
  rw [outcome, bind_of_ok h f]
  rfl

theorem outcome_bind_of_error (h : x c = .error e c') : (x >>= f).outcome c = .error e :=
  outcome_of_error (bind_of_error h f)

theorem outcome_accept {f : Unit → Steps β} :
    (accept >>= f).outcome c = (f ()).outcome c.settle := outcome_bind_of_ok rfl

theorem outcome_failToBind {fault : BindFault} : (failToBind fault : Steps α).outcome c =
    .error (match c.memory.refused with
      | some refusal => .refused refusal
      | none => .unbound fault) := by
  obtain ⟨contents, start, ⟨prepared, refused⟩, outside⟩ := c
  cases refused <;> rfl

theorem outcome_bindInteger {n : Int} {f : Unit → Steps β} :
    (Steps.bind n >>= f).outcome c = if FitsWord n then (f ()).outcome c.settle
      else (failToBind .integerTooLarge : Steps β).outcome c := by
  by_cases hn : FitsWord n
  · rw [if_pos hn, Steps.bind, if_pos hn]
    exact outcome_bind_of_ok rfl
  · rw [if_neg hn, Steps.bind, if_neg hn]
    obtain ⟨contents, start, ⟨prepared, refused⟩, outside⟩ := c
    cases refused <;> rfl

theorem outcome_run {name : String} {table : Database → Option α} :
    (run name table >>= f).outcome c = match c.outside.statements.head?.join with
      | some i => .error (.refused i.fault)
      | none =>
        match table c.contents with
        | none => .error (.refused (.noTable name))
        | some a => (f a).outcome (past c).settle := by
  cases hnext : c.outside.statements.head?.join with
  | some i =>
    obtain ⟨memory, hmeet⟩ := meet_of_some hnext
    exact outcome_bind_of_error (bind_of_error hmeet _)
  | none =>
    dsimp only
    cases ha : table c.contents with
    | none =>
      have hrun : run name table c = refuse (.noTable name) (past c) := by
        rw [run, bind_of_ok (meet_of_none hnext), get_bind]
        dsimp only [past]
        rw [ha]
      exact outcome_bind_of_error hrun
    | some a =>
      have hrun : run name table c = .ok a (past c).settle := by
        rw [run, bind_of_ok (meet_of_none hnext), get_bind]
        dsimp only [past]
        rw [ha]
        rfl
      exact outcome_bind_of_ok hrun

theorem prepareOnEntries_eq {statement : Statement} (h : c.Reaches statement) :
    prepareOnEntries statement c = .ok () (c.readied statement) := by
  by_cases hkept : c.memory.prepared.contains statement = true
  · rw [prepareOnEntries, prepare, get_bind, Connection.readied, if_pos hkept]
    dsimp only
    rw [hkept]
    rfl
  · obtain ⟨t, ht⟩ := Option.isSome_iff_exists.mp (h.resolve_left hkept)
    exact prepare_eq (needing_eq_none ht) c.memory c.outside

theorem prepareOnEntries_refused {statement : Statement} (h : ¬c.Reaches statement) :
    ∃ c', prepareOnEntries statement c = .error (.refused (.noTable entriesName)) c' := by
  obtain ⟨hkept, hmissing⟩ := not_or.mp h
  have hneeded : needing entriesName (·.entries) c.contents = some (.noTable entriesName) := by
    rw [needing, if_neg hmissing]
  rw [prepareOnEntries, prepare, get_bind]
  dsimp only
  rw [hneeded, Bool.eq_false_iff.mpr hkept]
  exact ⟨_, rfl⟩

theorem outcome_prepare {statement : Statement} {f : Unit → Steps β} :
    (prepareOnEntries statement >>= f).outcome c =
      if c.Reaches statement then (f ()).outcome (c.readied statement)
      else .error (.refused (.noTable entriesName)) := by
  by_cases h : c.Reaches statement
  · rw [if_pos h]
    exact outcome_bind_of_ok (prepareOnEntries_eq h)
  · rw [if_neg h]
    obtain ⟨c', hrefused⟩ := prepareOnEntries_refused h
    exact outcome_bind_of_error hrefused

/-! ### Steps that bind no values -/

/-- The steps end because a value cannot be bound. -/
def Stumbles (steps : Steps α) (c : StoreConnection) : Prop :=
  ∃ fault, steps.outcome c = .error (.unbound fault)

/-- The steps never end at a value. -/
def IsSure (steps : Steps α) : Prop := ∀ c, ¬steps.Stumbles c

theorem not_stumbles_of_ok (h : x c = .ok a c') : ¬x.Stumbles c := by
  rintro ⟨_, herror⟩
  rw [outcome_of_ok h] at herror
  cases herror

theorem not_stumbles_of_refused {refusal : Refusal} (h : x.outcome c = .error (.refused refusal)) :
    ¬x.Stumbles c := by
  rintro ⟨_, herror⟩
  rw [h] at herror
  cases herror

theorem IsSure.pure (a : α) : IsSure (Pure.pure a) := fun _ => not_stumbles_of_ok rfl

theorem IsSure.get : IsSure MonadState.get := fun _ => not_stumbles_of_ok rfl

theorem IsSure.setDatabase (db : Database) : IsSure (setDatabase db) :=
  fun _ => not_stumbles_of_ok rfl

theorem IsSure.refuse (refusal : Refusal) : IsSure (refuse refusal : Steps α) :=
  fun _ => not_stumbles_of_refused rfl

theorem IsSure.prepare (statement : Statement) (obstacle : Database → Option Refusal) :
    IsSure (prepare statement obstacle) := by
  rintro ⟨db, start, memory, outside⟩
  obtain ⟨memory', hok | ⟨refusal, herror⟩⟩ :=
    prepare_cases start db statement obstacle memory outside
  · exact not_stumbles_of_ok hok
  · exact not_stumbles_of_refused (outcome_of_error herror)

/-- Steps after which no value is bound end at one exactly where their first part does. -/
theorem stumbles_bind_iff (hf : ∀ a, IsSure (f a)) : (x >>= f).Stumbles c ↔ x.Stumbles c := by
  cases hx : x c with
  | ok a c' =>
    refine iff_of_false (fun ⟨fault, h⟩ => ?_) (not_stumbles_of_ok hx)
    rw [outcome_bind_of_ok hx] at h
    exact hf a c' ⟨fault, h⟩
  | error e c' =>
    simp only [Stumbles, outcome_bind_of_error hx, outcome_of_error hx, Except.error.injEq]

theorem IsSure.bind (hx : IsSure x) (hf : ∀ a, IsSure (f a)) : IsSure (x >>= f) := fun c =>
  mt (stumbles_bind_iff hf).mp (hx c)

theorem IsSure.meet : IsSure meet := by
  intro c
  cases hnext : c.outside.statements.head?.join with
  | none => exact not_stumbles_of_ok (meet_of_none hnext)
  | some i =>
    obtain ⟨memory, hmeet⟩ := meet_of_some hnext
    exact not_stumbles_of_refused (outcome_of_error hmeet)

theorem IsSure.run (name : String) (table : Database → Option α) : IsSure (run name table) := by
  refine .bind .meet fun _ => .bind .get fun c => ?_
  split
  · exact .refuse _
  · exact .bind (fun _ => not_stumbles_of_ok rfl) fun _ => .pure _

theorem IsSure.forM {items : List β} {f : β → Steps PUnit} (h : ∀ item, IsSure (f item)) :
    IsSure (items.forM f) := by
  induction items with
  | nil => exact .pure _
  | cons item items ih => exact .bind (h item) fun _ => ih

theorem IsSure.recordVocabulary (form : Form) : IsSure (recordVocabulary form) :=
  .bind (.bind (.prepare _ _) fun _ => .bind (.run _ _) fun _ => .bind .get fun _ => .setDatabase _)
    fun _ => .forM fun _ => .bind (.prepare _ _) fun _ => .forM fun _ => .bind (.run _ _) fun _ =>
      .bind .get fun _ => .setDatabase _

/-! ### Steps that bind values -/

theorem stumbles_failToBind_iff {fault : BindFault} :
    (failToBind fault : Steps α).Stumbles c ↔ c.memory.refused = none := by
  rw [Stumbles, outcome_failToBind]
  cases c.memory.refused <;> simp

theorem stumbles_prepare_iff {statement : Statement} {f : Unit → Steps β} :
    (prepareOnEntries statement >>= f).Stumbles c ↔
      c.Reaches statement ∧ (f ()).Stumbles (c.readied statement) := by
  rw [Stumbles, outcome_prepare]
  by_cases h : c.Reaches statement <;> simp [h, Stumbles]

theorem stumbles_accept_iff {f : Unit → Steps β} :
    (accept >>= f).Stumbles c ↔ (f ()).Stumbles c.settle := by
  rw [Stumbles, outcome_accept, Stumbles]

theorem stumbles_bindInteger_iff {n : Int} {f : Unit → Steps β} :
    (Steps.bind n >>= f).Stumbles c ↔ (¬FitsWord n ∧ c.memory.refused = none) ∨
      (FitsWord n ∧ (f ()).Stumbles c.settle) := by
  have hfail : (failToBind .integerTooLarge : Steps β).Stumbles c ↔ c.memory.refused = none :=
    stumbles_failToBind_iff
  rw [Stumbles, outcome_bindInteger]
  by_cases h : FitsWord n
  · simp [h, Stumbles]
  · simp [h, ← hfail, Stumbles]

theorem begin_of_begins (h : c.Begins) : begin_ c = .ok () c.begun := by
  obtain ⟨contents, start, memory, outside⟩ := c
  obtain ⟨rfl, hlet⟩ : start = none ∧ outside.statements.head?.join = none := h
  rw [begin_, bind_of_ok (prepare_eq rfl memory outside), bind_of_ok (nextStatement_eq _)]
  dsimp only
  rw [hlet]
  rfl

theorem begin_refused (h : ¬c.Begins) : ∃ refusal c', begin_ c = .error (.refused refusal) c' := by
  obtain ⟨memory, hbegin⟩ := begin_eq c
  rw [hbegin]
  cases hnext : c.outside.statements.head?.join with
  | some i => exact ⟨_, _, rfl⟩
  | none =>
    obtain ⟨contents, start, before, outside⟩ := c
    cases start with
    | some db => exact ⟨_, _, rfl⟩
    | none => exact (h ⟨rfl, hnext⟩).elim

/-- A commit, refused or not, ends at no value. -/
theorem IsSure.commit : IsSure commit := by
  intro c
  obtain ⟨memory, outside, -, hcommit | ⟨i, -, hcommit⟩⟩ := commit_cases c
  · exact not_stumbles_of_ok hcommit
  · exact not_stumbles_of_refused (outcome_of_error hcommit)

theorem stumbles_transaction_iff :
    (transaction x).Stumbles c ↔ c.Begins ∧ x.Stumbles c.begun := by
  by_cases h : c.Begins
  · rw [and_iff_right h]
    have hrun : (do begin_; x) c = x c.begun := bind_of_ok (begin_of_begins h) _
    cases hx : x c.begun with
    | error e failed =>
      have hfailed : transaction x c = .error e failed.takeBack := by
        rw [transaction, Connection.transaction, hrun, hx]
        rfl
      rw [Stumbles, outcome_of_error hfailed, Stumbles, outcome_of_error hx]
    | ok a done =>
      have hdone : transaction x c = (do commit; return a) done := by
        rw [transaction, Connection.transaction, hrun, hx]
        rfl
      refine iff_of_false (fun hstumbles => ?_) (not_stumbles_of_ok hx)
      obtain ⟨fault, hfault⟩ := hstumbles
      rw [outcome, hdone] at hfault
      exact IsSure.bind .commit (fun _ => .pure a) done ⟨fault, hfault⟩
  · obtain ⟨refusal, c', hbegin⟩ := begin_refused h
    have hfailed : transaction x c = .error (.refused refusal) c'.takeBack := by
      rw [transaction, Connection.transaction, bind_of_error hbegin]
      rfl
    exact iff_of_false (not_stumbles_of_refused (outcome_of_error hfailed)) fun hx => h hx.1

/-- An integer after which no value is bound, and which does not fit, is the fault unless an earlier
refusal is told instead. -/
theorem stumbles_lastInteger_iff {n : Int} {f : Unit → Steps β} (hf : IsSure (f ())) :
    (Steps.bind n >>= f).Stumbles c ↔ ¬FitsWord n ∧ c.memory.refused = none := by
  rw [stumbles_bindInteger_iff, or_iff_left fun h => hf c.settle h.2]

/-! ### The statements that write -/

variable {form : Form} {today : Date} {id : Int}

theorem stumbles_insertEntry_iff : (insertEntry form today).Stumbles c ↔
    c.Reaches .insertEntry ∧ ¬FitsWord form.type.amount := by
  rw [insertEntry, stumbles_prepare_iff, stumbles_accept_iff, stumbles_lastInteger_iff]
  · exact and_congr_right' (and_iff_left rfl)
  · refine .bind (.run _ _) fun entries => ?_
    split
    · exact .refuse _
    · exact .bind .get fun _ => .bind (.setDatabase _) fun _ => .pure _

theorem stumbles_updateEntry_iff : (updateEntry id form).Stumbles c ↔
    c.Reaches .updateEntry ∧ ¬(FitsWord id ∧ FitsWord form.type.amount) := by
  have hsettled (c : StoreConnection) : c.settle.memory.refused = none := rfl
  rw [updateEntry, stumbles_prepare_iff, stumbles_accept_iff, stumbles_bindInteger_iff,
    stumbles_lastInteger_iff]
  · simp only [hsettled, and_true]
    refine and_congr_right' ?_
    tauto
  · exact .bind (.run _ _) fun _ => .bind .get fun _ => .bind (.setDatabase _) fun _ => .pure _

theorem stumbles_deleteEntry_iff (hc : c.memory.refused = none) :
    (deleteEntry id).Stumbles c ↔ c.Reaches .deleteEntry ∧ ¬FitsWord id := by
  rw [deleteEntry, stumbles_prepare_iff, stumbles_lastInteger_iff]
  · rw [Connection.readied, hc, ite_self]
    exact and_congr_right' (and_iff_left rfl)
  · exact .bind (.run _ _) fun _ => .bind .get fun _ => .bind (.setDatabase _) fun _ => .pure _

theorem stumbles_refuseTexts_iff {statement : Statement} (hc : c.memory.refused = none) :
    (refuseTexts statement : Steps α).Stumbles c ↔ c.Reaches statement := by
  rw [refuseTexts, stumbles_prepare_iff, stumbles_failToBind_iff, Connection.readied, hc, ite_self]
  exact and_iff_left rfl

/-! ### The transactions -/

theorem stumbles_saveNew_iff : (saveNew form today).Stumbles c ↔
    c.Begins ∧ c.begun.Reaches .insertEntry ∧ ¬FitsWord form.type.amount := by
  rw [saveNew, stumbles_transaction_iff, stumbles_bind_iff, stumbles_insertEntry_iff]
  exact fun _ => .bind (.recordVocabulary _) fun _ => .pure _

theorem stumbles_saveOver_iff : (saveOver id form).Stumbles c ↔ c.Begins ∧
    c.begun.Reaches .updateEntry ∧ ¬(FitsWord id ∧ FitsWord form.type.amount) := by
  rw [saveOver, stumbles_transaction_iff, stumbles_bind_iff, stumbles_updateEntry_iff]
  intro found
  split
  · exact .bind (.recordVocabulary _) fun _ => .pure _
  · exact .pure _

theorem stumbles_remove_iff : (remove id).Stumbles c ↔
    c.Begins ∧ c.begun.Reaches .deleteEntry ∧ ¬FitsWord id := by
  rw [remove, stumbles_transaction_iff, stumbles_deleteEntry_iff rfl]

theorem stumbles_refusal_iff {statement : Statement} :
    (transaction (refuseTexts statement) : Steps α).Stumbles c ↔
      c.Begins ∧ c.begun.Reaches statement := by
  rw [stumbles_transaction_iff, stumbles_refuseTexts_iff rfl]

end Steps

namespace Access

variable {α β : Type} {store : Store} {c : StoreConnection}

/-- What an operation gives on a store, or why it fails. -/
def outcome (operation : Access α) (store : Store) : Except StoreFault α :=
  match operation store with
  | .ok a _ => .ok a
  | .error e _ => .error e

/-- The fault that a fault of a statement makes of an operation. -/
def faultOf (failure : StorageFault) : StatementFault → StoreFault
  | .refused _ => .storage failure
  | .unbound fault => .unbound fault

theorem outcome_onConnection (hopen : store.state = .connected c) (failure : StorageFault)
    (steps : Steps α) : (onConnection failure steps).outcome store =
      (steps.outcome c).mapError (faultOf failure) := by
  obtain ⟨path, state⟩ := store
  obtain rfl : state = .connected c := hopen
  simp only [outcome, onConnection, Steps.outcome]
  rcases steps c with ⟨a, c'⟩ | ⟨refusal | fault, c'⟩ <;> rfl

theorem outcome_map (f : α → β) (x : Access α) :
    (f <$> x).outcome store = (x.outcome store).map f := by
  simp only [outcome]
  cases hx : x store with
  | ok a after => rw [map_of_ok hx]; rfl
  | error e after => rw [map_of_error hx]; rfl

/-- The result is a fault that is none of the store. -/
def IsForeign (result : Except StoreFault α) : Prop :=
  ∃ e, result = .error e ∧ ∀ fault, e ≠ .storage fault

@[simp] theorem not_isForeign_ok (a : α) : ¬IsForeign (.ok a) := by simp [IsForeign]

@[simp] theorem not_isForeign_storage (fault : StorageFault) :
    ¬IsForeign (.error (.storage fault) : Except StoreFault α) := by simp [IsForeign]

@[simp] theorem isForeign_unbound (fault : BindFault) :
    IsForeign (.error (.unbound fault) : Except StoreFault α) := by simp [IsForeign]

@[simp] theorem isForeign_infinite : IsForeign (.error .infinite : Except StoreFault α) := by
  simp [IsForeign]

/-- The operation fails with a fault that is none of the store. -/
def Escapes (operation : Access α) (store : Store) : Prop := IsForeign (operation.outcome store)

theorem escapes_map_iff {f : α → β} {x : Access α} :
    (f <$> x).Escapes store ↔ x.Escapes store := by
  rw [Escapes, Escapes, outcome_map]
  cases x.outcome store <;> simp [IsForeign, Except.map]

theorem escapes_onConnection_iff (hopen : store.state = .connected c) {f : α → β}
    {failure : StorageFault} {steps : Steps α} :
    (f <$> onConnection failure steps).Escapes store ↔ steps.Stumbles c := by
  rw [escapes_map_iff, Escapes, outcome_onConnection hopen, Steps.Stumbles]
  rcases steps.outcome c with (refusal | fault) | a <;> simp [Except.mapError, faultOf]

/-- What a lookup makes of the row that it finds. -/
def entryIn : Option Row → Except StoreFault (Option Entry)
  | none => .ok none
  | some row => (row.entry.mapError RowFault.toStoreFault).map some

theorem outcome_getEntry (pageSize : Nat) (id : Int) :
    (getEntry pageSize id).outcome store = (findRow pageSize id).outcome store >>= entryIn := by
  simp only [outcome]
  cases hfind : findRow pageSize id store with
  | error e after => rw [getEntry, bind_of_error hfind]; rfl
  | ok found after =>
    rw [getEntry, bind_of_ok hfind]
    rcases found with _ | row
    · rfl
    · simp only [bind, Except.bind, entryIn]
      cases row.entry.mapError RowFault.toStoreFault <;> rfl

/-- A lookup binds the number before the size of a page.  A statement that is kept prepared comes to
bind them also where its table is gone, which it then misses. -/
theorem outcome_findRow (hopen : store.state = .connected c) (pageSize : Nat) (id : Int) :
    (findRow pageSize id).outcome store =
      if c.Reaches (.select "entry_id = ?") then
        if FitsWord id then
          if FitsWord pageSize then
            match c.readable with
            | none => .error (.storage .scanFailed)
            | some t => .ok (t.find? id)
          else .error (.unbound .integerTooLarge)
        else .error (lookupFault c.memory)
      else .error (.storage .scanFailed) := by
  rw [findRow, outcome_onConnection hopen, Steps.outcome_prepare, Steps.outcome_bindInteger,
    Steps.outcome_bindInteger, Steps.runOnEntries, Steps.outcome_run]
  split
  · split
    · split
      · simp only [Connection.settle, Connection.readied, Connection.readable]
        cases c.outside.statements.head?.join with
        | some i => rfl
        | none => cases c.contents.entries <;> rfl
      · rfl
    · rw [Steps.outcome_failToBind, Connection.readied, lookupFault, Memory.repeats]
      cases hkept : c.memory.prepared.contains (.select "entry_id = ?") <;>
        cases hrefused : c.memory.refused <;> rfl
  · rfl

theorem isForeign_entryIn_iff {found : Option Row} :
    IsForeign (entryIn found) ↔ ∃ row, found = some row ∧ row.entry = .error .infinite := by
  rcases found with _ | row
  · simp [entryIn]
  · rw [entryIn]
    rcases hrow : row.entry with (_ | _) | entry <;>
      simp [Except.mapError, Except.map, RowFault.toStoreFault, hrow]

theorem escapes_getEntry_iff (hopen : store.state = .connected c) {pageSize : Nat} {id : Int} :
    (getEntry pageSize id).Escapes store ↔ c.Reaches (.select "entry_id = ?") ∧
      if FitsWord id then
        FitsWord pageSize → ∃ t row, c.readable = some t ∧ t.find? id = some row ∧
          row.entry = .error .infinite
      else ¬c.memory.repeats (.select "entry_id = ?") := by
  rw [Escapes, outcome_getEntry, outcome_findRow hopen]
  by_cases hreach : c.Reaches (.select "entry_id = ?")
  · rw [if_pos hreach, and_iff_right hreach]
    by_cases hid : FitsWord id
    · rw [if_pos hid, if_pos hid]
      by_cases hsize : FitsWord pageSize
      · rw [if_pos hsize, forall_prop_of_true hsize]
        cases c.readable with
        | none => simp [bind, Except.bind]
        | some t => simp [bind, Except.bind, isForeign_entryIn_iff]
      · rw [if_neg hsize]
        simp [bind, Except.bind, hsize]
    · rw [if_neg hid, if_neg hid, lookupFault]
      cases c.memory.repeats (.select "entry_id = ?") <;> simp [bind, Except.bind]
  · rw [if_neg hreach]
    simp [bind, Except.bind, hreach]

end Access

namespace Operation

/-- On this connection the operation fails with a fault that is none of the store: it comes to bind
a value which fits into no column, and no earlier refusal is told instead, or it looks up a row with
an infinite kind or measure. -/
def Leaks (c : StoreConnection) : Operation → Prop
  | .insert form _ => c.Begins ∧ c.begun.Reaches .insertEntry ∧ ¬FitsWord form.type.amount
  | .insertLoose => c.Begins ∧ c.begun.Reaches .insertEntry
  | .update id form => c.Begins ∧ c.begun.Reaches .updateEntry ∧
      ¬(FitsWord id ∧ FitsWord form.type.amount)
  | .updateLoose _ => c.Begins ∧ c.begun.Reaches .updateEntry
  | .delete id => c.Begins ∧ c.begun.Reaches .deleteEntry ∧ ¬FitsWord id
  | .get pageSize id => c.Reaches (.select "entry_id = ?") ∧
      if FitsWord id then
        FitsWord pageSize → ∃ t row, c.readable = some t ∧ t.find? id = some row ∧
          row.entry = .error .infinite
      else ¬c.memory.repeats (.select "entry_id = ?")
  | _ => False

/-- The operation saves, deletes or looks up one entry. -/
def IsOnEntry (operation : Operation) : Prop :=
  operation.IsWrite ∨ ∃ pageSize id, operation = .get pageSize id

variable {operation : Operation} {store : Store} {c : StoreConnection}

theorem escapes_iff_leaks (hentry : operation.IsOnEntry) (hopen : store.state = .connected c) :
    operation.run.Escapes store ↔ operation.Leaks c := by
  cases operation with
  | insert => exact (Access.escapes_onConnection_iff hopen).trans Steps.stumbles_saveNew_iff
  | insertLoose => exact (Access.escapes_onConnection_iff hopen).trans Steps.stumbles_refusal_iff
  | update => exact (Access.escapes_onConnection_iff hopen).trans Steps.stumbles_saveOver_iff
  | updateLoose => exact (Access.escapes_onConnection_iff hopen).trans Steps.stumbles_refusal_iff
  | delete => exact (Access.escapes_onConnection_iff hopen).trans Steps.stumbles_remove_iff
  | get => exact Access.escapes_map_iff.trans (Access.escapes_getEntry_iff hopen)
  | retrieve | categories | vocabulary =>
    obtain hwrite | ⟨_, _, hget⟩ := hentry
    · exact hwrite.elim
    · cases hget

/-- On an open store, whatever tables are there and whatever was refused before, an operation that
saves, deletes or looks up one entry gives its answer or fails with a fault of the store, unless it
leaks; and then it does neither. -/
theorem surfaces_iff_not_leaks (hentry : operation.IsOnEntry) (hopen : store.state = .connected c) :
    ((∃ answer after, operation.run store = .ok answer after) ∨
      ∃ fault after, operation.run store = .error (.storage fault) after) ↔
        ¬operation.Leaks c := by
  rw [← escapes_iff_leaks hentry hopen, Access.Escapes, Access.outcome]
  rcases operation.run store with ⟨answer, after⟩ | ⟨e, after⟩
  · simp
  · cases e <;> simp [Access.IsForeign]

/-- A store that has just been opened for the first time. -/
def fresh : Store := (Store.new (.ofText "archive.db")).connect .blank []

theorem delete_beyond_word_leaks : ∃ c, fresh.state = .connected c ∧
    (delete 9223372036854775808).IsOnEntry ∧
    ¬((∃ answer after, (delete 9223372036854775808).run fresh = .ok answer after) ∨
      ∃ fault after, (delete 9223372036854775808).run fresh = .error (.storage fault) after) := by
  have hentry : (delete 9223372036854775808).IsOnEntry := .inl trivial
  have hleaks : (delete 9223372036854775808).Leaks (.new Database.blank.prepared .blank .quiet) :=
    ⟨⟨rfl, rfl⟩, .inr rfl, by decide⟩
  exact ⟨_, rfl, hentry, fun h => (surfaces_iff_not_leaks hentry rfl).mp h hleaks⟩

/-- Each of the four operations fails with a fault that is none of the store. -/
theorem faults_beyond_word :
    let wide := { Form.sample with type := ⟨.book, 9223372036854775808⟩ }
    ∀ operation ∈ [insert wide .first, update 1 wide, update 9223372036854775808 .sample,
        delete 9223372036854775808, get defaultPageSize 9223372036854775808],
      ∃ after, operation.run fresh = .error (.unbound .integerTooLarge) after := by
  simp only [List.forall_mem_cons, List.not_mem_nil, false_implies, implies_true, and_true]
  exact ⟨⟨_, rfl⟩, ⟨_, rfl⟩, ⟨_, rfl⟩, ⟨_, rfl⟩, ⟨_, rfl⟩⟩

end Operation

end Catalogue
