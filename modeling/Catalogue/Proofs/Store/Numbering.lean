import Catalogue.Proofs.Store.Ordering

/-! The numbers of entries.  The largest number ever given is kept with the table, and goes back
with a transaction that is rolled back; every number that an insertion gives is above it.  So
numbers only grow, and one whose entry was deleted is never the number of an entry again. -/

namespace Catalogue

open Number

namespace EntryTable

variable {t : EntryTable} {id : Int}

theorem has_iff : t.has id = true ↔ id ∈ t.rows.map Row.id := by
  simp [has]

theorem lasts_trivial : Lasts fun _ => True :=
  ⟨fun _ _ => trivial, fun _ _ => trivial, fun _ _ => trivial⟩

/-- The largest number given so far never falls. -/
theorem lasts_lastId (n : Int) : Lasts fun t => n ≤ t.lastId where
  insert h hid := h.trans (newId?_above hid).1.le
  modify h _ := h
  erase _ h := h

/-- A number that was given, and under which there is no row any more, is gone for good. -/
theorem lasts_gone (id : Int) : Lasts fun t => id ≤ t.lastId ∧ ¬t.has id where
  insert := by
    rintro t row ⟨hgiven, hgone⟩ hid
    have hnew := (newId?_above hid).1
    refine ⟨hgiven.trans hnew.le, fun hthere => ?_⟩
    rw [has_iff, insert, List.map_append, List.mem_append, List.map_singleton,
      List.mem_singleton] at hthere
    obtain hold | rfl := hthere
    · exact hgone (has_iff.mpr hold)
    · omega
  modify := by
    rintro t other change ⟨hgiven, hgone⟩ hid
    refine ⟨hgiven, fun hthere => hgone ?_⟩
    rw [has_iff, map_id_modify t hid] at hthere
    exact has_iff.mpr hthere
  erase := by
    rintro t other ⟨hgiven, hgone⟩
    refine ⟨hgiven, fun hthere => hgone ?_⟩
    rw [has_iff] at hthere ⊢
    exact (List.filter_sublist.map Row.id).subset hthere

end EntryTable

/-! ### Insertions that succeed -/

namespace Steps

variable {α : Type} {c c' : StoreConnection} {form : Form} {today : Date} {id : Int}

theorem KeepsEntries.of_ok {steps : Steps α} (hsteps : KeepsEntries steps) {a : α}
    (h : steps c = .ok a c') : c'.contents.entries = c.contents.entries := by
  have hkept := hsteps.allows c
  rw [h] at hkept
  exact hkept.1

theorem table_of_ok {name : String} {table : Database → Option α} {a : α}
    (h : (do
      match table (← get).contents with
      | none => refuse (.noTable name)
      | some a => do
        accept
        return a : Steps α) c = .ok a c') : table c.contents = some a := by
  rw [get_bind] at h
  cases ha : table c.contents with
  | none =>
    rw [ha] at h
    cases h
  | some a' =>
    rw [ha] at h
    cases h
    rfl

theorem runOnEntries_ok {t : EntryTable} (h : runOnEntries c = .ok t c') :
    c.contents.entries = some t := by
  obtain ⟨_, mid, hmeet, h⟩ := exists_of_bind_ok h
  rw [← KeepsEntries.of_ok .meet hmeet]
  exact table_of_ok h

theorem insertEntry_ok (h : insertEntry form today c = .ok id c') : ∃ t row,
    c.contents.entries = some t ∧ t.newId? = some id ∧ row.id = id ∧
      c'.contents.entries = some (t.insert row) := by
  obtain ⟨_, c₁, hprepare, h⟩ := exists_of_bind_ok h
  obtain ⟨_, c₂, haccept, h⟩ := exists_of_bind_ok h
  obtain ⟨_, c₃, hbind, h⟩ := exists_of_bind_ok h
  obtain ⟨t, c₄, hrun, h⟩ := exists_of_bind_ok h
  have h₁ := KeepsEntries.of_ok (.prepare _ _) hprepare
  have h₂ := KeepsEntries.of_ok .accept haccept
  have h₃ := KeepsEntries.of_ok (.bindInteger _) hbind
  have ht : c.contents.entries = some t := by rw [← h₁, ← h₂, ← h₃, runOnEntries_ok hrun]
  cases hid : t.newId? with
  | none =>
    rw [hid] at h
    cases h
  | some newId =>
    rw [hid] at h
    cases h
    exact ⟨t, _, ht, hid, rfl, rfl⟩

theorem saveNew_ok (h : saveNew form today c = .ok id c') : ∃ t row,
    c.contents.entries = some t ∧ t.newId? = some id ∧ row.id = id ∧
      c'.contents.entries = some (t.insert row) := by
  obtain ⟨begun, done, hbegin, hsteps, hcommit⟩ := transaction_ok h
  obtain ⟨-, hbegun, -⟩ := begin_ok hbegin
  obtain ⟨hdone, -⟩ := commit_ok hcommit
  obtain ⟨newId, c₁, hinsert, h⟩ := exists_of_bind_ok hsteps
  obtain ⟨_, c₂, hrecord, h⟩ := exists_of_bind_ok h
  cases h
  obtain ⟨t, row, ht, hid, hrow, hentries⟩ := insertEntry_ok hinsert
  rw [hbegun] at ht
  refine ⟨t, row, ht, hid, hrow, ?_⟩
  rw [hdone, KeepsEntries.of_ok (.recordVocabulary form) hrecord, hentries]

end Steps

theorem Access.insertEntry_ok {form : Form} {today : Date} {id : Int} {store after : Store}
    (h : insertEntry form today store = .ok id after) : ∃ t row,
      store.database.entries = some t ∧ t.newId? = some id ∧ row.id = id ∧
        after.database.entries = some (t.insert row) := by
  obtain ⟨path, contents | c⟩ := store
  · cases h
  · simp only [insertEntry, onConnection] at h
    split at h
    · next hsave =>
      cases h
      exact Steps.saveNew_ok hsave
    · cases h
    · cases h

/-! ### Numbers that were given -/

/-- The change leaves every number with its entry and the table of entries in place: of the direct
edits, one that sets another column, or one that drops another table. -/
def Change.KeepsNumbers : Change → Prop
  | .move _ => True
  | .set _ column _ => (Column.ofName? column).getD .id ≠ .id
  | .drop table => table.toLower ≠ Steps.entriesName

instance : (change : Change) → Decidable change.KeepsNumbers
  | .move _ => inferInstanceAs (Decidable True)
  | .set .. | .drop _ => inferInstanceAs (Decidable (_ ≠ _))

theorem Change.KeepsNumbers.keeps {change : Change} (h : change.KeepsNumbers)
    {P : EntryTable → Prop} (hP : EntryTable.Lasts P) : change.Keeps P := by
  cases change with
  | move m => trivial
  | set id column value =>
    intro t cell t' ht hset
    obtain ⟨cell, rfl⟩ := EntryTable.setColumn_eq_modify h hset
    exact hP.modify ht fun row hrow => (row.set_id _ _).trans hrow
  | drop table => exact fun hentries => absurd hentries h

namespace Session

variable {s : Session} {change : Change} {changes : List Change} {path : Path} {id n : Int}

/-- The number that a change gives to a new entry, if it is an insertion that succeeds. -/
def numberGiven? (s : Session) : Change → Option Int
  | .move (.call (.insert form today)) =>
    match (s.call (.insert form today)).1 with
    | .ok (some (.number id)) => some id
    | _ => none
  | _ => none

/-- The store holds an entry with this number. -/
def hasEntry (s : Session) (id : Int) : Bool := s.store.database.entryTable.has id

/-- The numbers that some changes give to new entries, in order. -/
def numbersGiven (s : Session) : List Change → List Int
  | [] => []
  | change :: changes =>
    (s.numberGiven? change).toList ++ numbersGiven (s.change change) changes

theorem exists_of_numberGiven? (h : s.numberGiven? change = some id) : ∃ t row,
    s.store.database.entries = some t ∧ t.newId? = some id ∧ row.id = id ∧
      (s.change change).store.database.entries = some (t.insert row) := by
  unfold numberGiven? at h
  split at h
  · next form today =>
    cases hinsert : Access.insertEntry form today s.store with
    | ok newId after =>
      have hcall : s.call (.insert form today) =
          (.ok (some (.number newId)), { s with store := after }) := by
        simp only [call, Operation.run]
        rw [map_of_ok hinsert]
      rw [hcall] at h
      obtain rfl := Option.some.inj h
      simp only [Session.change, move, hcall]
      exact Access.insertEntry_ok hinsert
    | error e after =>
      have hcall : s.call (.insert form today) = (.error e, { s with store := after }) := by
        simp only [call, Operation.run]
        rw [map_of_error hinsert]
      rw [hcall] at h
      cases h
  · cases h

theorem alter_append (s : Session) (before later : List Change) :
    s.alter (before ++ later) = (s.alter before).alter later := List.foldl_append

/-- A number that is given is above those given before, and the largest one from then on. -/
theorem numberGiven?_above (h : s.numberGiven? change = some id) :
    s.store.database.entryTable.lastId < id ∧
      (s.change change).store.database.entryTable.lastId = id := by
  obtain ⟨t, row, ht, hid, hrow, hafter⟩ := exists_of_numberGiven? h
  rw [Database.entryTable_of_entries ht, Database.entryTable_of_entries hafter]
  exact ⟨(EntryTable.newId?_above hid).1, hrow⟩

/-- A number is given to a new entry. -/
theorem numberGiven?_new (h : s.numberGiven? change = some id) :
    ¬s.hasEntry id ∧ (s.change change).hasEntry id := by
  obtain ⟨t, row, ht, hid, rfl, hafter⟩ := exists_of_numberGiven? h
  rw [hasEntry, hasEntry, Database.entryTable_of_entries ht,
    Database.entryTable_of_entries hafter, EntryTable.has_iff, EntryTable.has_iff]
  refine ⟨fun hold => ?_, by simp [EntryTable.insert]⟩
  obtain ⟨other, hother, hsame⟩ := List.mem_map.mp hold
  have hbelow := (EntryTable.newId?_above hid).2 other hother
  omega

/-! ### Runs -/

theorem Carries.change_of_keepsNumbers {P : EntryTable → Prop} (h : s.Carries P path)
    (hP : EntryTable.Lasts P) (hfile : path.isInMemory = false) (hchange : change.KeepsNumbers) :
    (s.change change).Carries P path := h.change hP (.inl hfile) (hchange.keeps hP)

theorem Carries.alter_of_keepsNumbers {P : EntryTable → Prop} (h : s.Carries P path)
    (hP : EntryTable.Lasts P) (hfile : path.isInMemory = false)
    (hchanges : ∀ change ∈ changes, change.KeepsNumbers) : (s.alter changes).Carries P path :=
  h.alter hP (.inl hfile) fun change hmem => (hchanges change hmem).keeps hP

theorem Carries.change_lastId (h : s.Carries (fun _ => True) path)
    (hfile : path.isInMemory = false) (hchange : change.KeepsNumbers)
    (hid : s.numberGiven? change = some id) :
    (s.change change).Carries (fun t => id ≤ t.lastId) path := by
  have hafter := h.change_of_keepsNumbers EntryTable.lasts_trivial hfile hchange
  exact ⟨hafter.named, hafter.idle, (numberGiven?_above hid).2.ge⟩

theorem Carries.lt_of_mem_numbersGiven (h : s.Carries (fun t => n ≤ t.lastId) path)
    (hfile : path.isInMemory = false) (hchanges : ∀ change ∈ changes, change.KeepsNumbers) :
    ∀ id ∈ s.numbersGiven changes, n < id := by
  induction changes generalizing s with
  | nil => simp [numbersGiven]
  | cons change changes ih =>
    obtain ⟨hchange, hchanges⟩ := List.forall_mem_cons.mp hchanges
    have hnext := h.change_of_keepsNumbers (EntryTable.lasts_lastId n) hfile hchange
    rw [numbersGiven, List.forall_mem_append]
    refine ⟨fun id hid => ?_, ih hnext hchanges⟩
    have habove := (numberGiven?_above (Option.mem_toList.mp hid)).1
    exact h.table.trans_lt habove

theorem Carries.pairwise_numbersGiven (h : s.Carries (fun _ => True) path)
    (hfile : path.isInMemory = false) (hchanges : ∀ change ∈ changes, change.KeepsNumbers) :
    (s.numbersGiven changes).Pairwise (· < ·) := by
  induction changes generalizing s with
  | nil => exact .nil
  | cons change changes ih =>
    obtain ⟨hchange, hchanges⟩ := List.forall_mem_cons.mp hchanges
    have hrest := ih (h.change_of_keepsNumbers EntryTable.lasts_trivial hfile hchange) hchanges
    rw [numbersGiven]
    cases hid : s.numberGiven? change with
    | none => exact hrest
    | some id =>
      exact .cons ((h.change_lastId hfile hchange hid).lt_of_mem_numbersGiven hfile hchanges) hrest

theorem Carries.alter_lastId (h : s.Carries (fun _ => True) path)
    (hfile : path.isInMemory = false) (hchanges : ∀ change ∈ changes, change.KeepsNumbers) :
    ∀ id ∈ s.numbersGiven changes, (s.alter changes).Carries (fun t => id ≤ t.lastId) path := by
  induction changes generalizing s with
  | nil => simp [numbersGiven]
  | cons change changes ih =>
    obtain ⟨hchange, hchanges⟩ := List.forall_mem_cons.mp hchanges
    have hnext := h.change_of_keepsNumbers EntryTable.lasts_trivial hfile hchange
    rw [numbersGiven, List.forall_mem_append]
    refine ⟨fun id hid => ?_, ih hnext hchanges⟩
    have hgiven := h.change_lastId hfile hchange (Option.mem_toList.mp hid)
    exact hgiven.alter_of_keepsNumbers (EntryTable.lasts_lastId id) hfile hchanges

/-- In one database file, whatever it held before and whichever insertions fail, each number given
to an entry is above all those given before it.  The entry is a new one; once it is gone, there is
no entry with its number any more. -/
theorem numbers_not_reused (hidle : s.store.IsIdle) (hfile : s.store.path.isInMemory = false)
    (hchanges : ∀ change ∈ changes, change.KeepsNumbers) :
    (s.numbersGiven changes).Pairwise (· < ·) ∧
      (∀ before change later, changes = before ++ change :: later → ∀ id,
        (s.alter before).numberGiven? change = some id →
          ¬(s.alter before).hasEntry id ∧ (s.alter (before ++ [change])).hasEntry id) ∧
      ∀ before later, changes = before ++ later → ∀ id ∈ s.numbersGiven before,
        ¬(s.alter before).hasEntry id → ¬(s.alter changes).hasEntry id := by
  have h : s.Carries (fun _ => True) s.store.path := ⟨rfl, hidle, trivial⟩
  refine ⟨h.pairwise_numbersGiven hfile hchanges, ?_, ?_⟩
  · rintro before change later - id hid
    rw [alter_append]
    exact numberGiven?_new hid
  · rintro before later rfl id hid hgone
    obtain ⟨hbefore, hlater⟩ := List.forall_mem_append.mp hchanges
    have hgiven := h.alter_lastId hfile hbefore id hid
    have hnow : (s.alter before).Carries (fun t => id ≤ t.lastId ∧ ¬t.has id) s.store.path :=
      ⟨hgiven.named, hgiven.idle, hgiven.table, hgone⟩
    have hend := hnow.alter_of_keepsNumbers (EntryTable.lasts_gone id) hfile hlater
    rw [alter_append]
    exact hend.table.2

end Session

/-- Of two saved entries the second one is deleted.  The next insertion fails for the missing table
of tags, after it wrote its row; the one after that, in a store that was closed and opened, does
not. -/
def Change.rolledBack : List Change :=
  [.move .open_, .move (.call (.insert .sample .first)), .move (.call (.insert .sample .first)),
    .move (.call (.delete 2)), .drop "tags", .move (.call (.insert .sample .first)), .move .close,
    .move .open_, .move (.call (.insert .sample .first))]

theorem Session.numbers_not_reused_rolledBack :
    let s := new (.ofText "archive.db") ⟨[], []⟩
    s.store.IsIdle ∧ s.store.path.isInMemory = false ∧
      (∀ change ∈ Change.rolledBack, change.KeepsNumbers) ∧
      s.numbersGiven Change.rolledBack = [1, 2, 3] ∧ [1, 2, 3].Pairwise (fun a b : Int => a < b) ∧
      ¬(s.alter Change.rolledBack).hasEntry 2 := by
  have hgiven : (new (.ofText "archive.db") ⟨[], []⟩).numbersGiven Change.rolledBack =
      [1, 2, 3] := by decide +kernel
  have hchanges : ∀ change ∈ Change.rolledBack, change.KeepsNumbers := by decide +kernel
  obtain ⟨hgrowing, -, hgone⟩ :=
    numbers_not_reused (s := new (.ofText "archive.db") ⟨[], []⟩) trivial rfl hchanges
  rw [hgiven] at hgrowing
  refine ⟨trivial, rfl, hchanges, hgiven, hgrowing, ?_⟩
  exact hgone (Change.rolledBack.take 4) (Change.rolledBack.drop 4) rfl 2 (by decide +kernel)
    (by decide +kernel)

end Catalogue
