import Catalogue.Proofs.Store.Lasting

/-! The order of a table.  Whatever is done to a store, direct edits of its tables included, its
rows stand by ascending number, and no two have the same. -/

namespace Catalogue

open Number

theorem Row.set_id (row : Row) (column : Column) (cell : Cell) :
    (row.set column cell).id = row.id := by cases column <;> rfl

/-- The rows stand by ascending number. -/
def EntryTable.IsOrdered (t : EntryTable) : Prop := t.rows.Pairwise fun a b => a.id < b.id

/-- The table of entries is in order, if there is one. -/
def Database.IsOrdered (db : Database) : Prop := ∀ t, db.entries = some t → t.IsOrdered

namespace EntryTable

variable {t : EntryTable}

theorem empty_isOrdered : empty.IsOrdered := .nil

/-- A new number is above every number given before, whether or not its row is still there. -/
theorem newId?_above {id : Int} (h : t.newId? = some id) :
    t.lastId < id ∧ ∀ row ∈ t.rows, row.id < id := by
  have hfold (rows : List Row) (top : Int) :
      top ≤ rows.foldl (fun top row => max top row.id) top ∧
        ∀ row ∈ rows, row.id ≤ rows.foldl (fun top row => max top row.id) top := by
    induction rows generalizing top with
    | nil => simp
    | cons row rows ih =>
      rw [List.foldl_cons, List.forall_mem_cons]
      obtain ⟨htop, hrows⟩ := ih (max top row.id)
      exact ⟨by omega, by omega, hrows⟩
  obtain ⟨hlast, hrows⟩ := hfold t.rows t.lastId
  unfold newId? at h
  dsimp only at h
  split at h
  · have hid := Option.some.inj h
    refine ⟨by omega, fun row hrow => ?_⟩
    have hbelow := hrows row hrow
    omega
  · cases h

theorem IsOrdered.insert (h : t.IsOrdered) {row : Row} (hid : t.newId? = some row.id) :
    (t.insert row).IsOrdered := by
  refine List.pairwise_append.mpr
    ⟨h, List.pairwise_singleton _ _, fun other hother last hlast => ?_⟩
  rw [List.mem_singleton.mp hlast]
  exact (newId?_above hid).2 other hother

theorem IsOrdered.erase (h : t.IsOrdered) (id : Int) : (t.erase id).IsOrdered :=
  h.sublist List.filter_sublist

/-- A change of a row that keeps its number keeps all numbers. -/
theorem map_id_modify (t : EntryTable) {id : Int} {change : Row → Row}
    (hid : ∀ row, row.id = id → (change row).id = id) :
    (t.modify id change).rows.map Row.id = t.rows.map Row.id := by
  rw [modify, List.map_map]
  refine List.map_congr_left fun row _ => ?_
  by_cases hrow : row.id = id
  · simp [hrow, hid row hrow]
  · simp [hrow]

theorem isOrdered_iff : t.IsOrdered ↔ (t.rows.map Row.id).Pairwise (· < ·) :=
  List.pairwise_map.symm

theorem IsOrdered.modify (h : t.IsOrdered) {id : Int} {change : Row → Row}
    (hid : ∀ row, row.id = id → (change row).id = id) : (t.modify id change).IsOrdered := by
  rw [isOrdered_iff, map_id_modify t hid]
  exact isOrdered_iff.mp h

/-- A number that no other row has leaves the numbers different. -/
theorem IsOrdered.pairwise_ne_modify (h : t.IsOrdered) {id newId : Int}
    (hfree : ∀ row ∈ t.rows, row.id ≠ id → row.id ≠ newId) :
    (t.modify id fun row => { row with id := newId }).rows.Pairwise fun a b => a.id ≠ b.id := by
  refine List.pairwise_map.mpr (List.Pairwise.imp_of_mem (fun {a b} ha hb hlt => ?_) h)
  by_cases ha' : a.id = id
  · have hb' : b.id ≠ id := by omega
    simpa [ha', hb'] using (hfree b hb hb').symm
  · by_cases hb' : b.id = id
    · simpa [ha', hb'] using hfree a ha ha'
    · simpa [ha', hb'] using Int.ne_of_lt hlt

/-- Rows with different numbers are brought into order. -/
theorem pairwise_mergeSort_id {rows : List Row} (h : rows.Pairwise fun a b => a.id ≠ b.id) :
    (rows.mergeSort fun a b => decide (a.id ≤ b.id)).Pairwise fun a b => a.id < b.id := by
  have hsorted : (rows.mergeSort fun a b => decide (a.id ≤ b.id)).Pairwise
      fun a b => decide (a.id ≤ b.id) := by
    apply List.pairwise_mergeSort
    · intro a b c hab hbc
      simp only [decide_eq_true_eq] at hab hbc ⊢
      omega
    · intro a b
      simp only [Bool.or_eq_true, decide_eq_true_eq]
      omega
  have hdistinct := (List.mergeSort_perm rows fun a b => decide (a.id ≤ b.id)).symm.pairwise h
    fun {a b} hne => hne.symm
  refine (hsorted.and hdistinct).imp fun {a b} ⟨hle, hne⟩ => ?_
  rw [decide_eq_true_eq] at hle
  omega

theorem IsOrdered.renumber (h : t.IsOrdered) {id newId : Int} {t' : EntryTable}
    (hrenumber : t.renumber id newId = .ok t') : t'.IsOrdered := by
  unfold EntryTable.renumber at hrenumber
  split at hrenumber
  · cases hrenumber
  · next hfree =>
    obtain rfl := Except.ok.inj hrenumber
    refine pairwise_mergeSort_id (h.pairwise_ne_modify fun row hrow hother hnew => hfree ⟨?_, ?_⟩)
    · rintro rfl
      exact hother hnew
    · exact List.any_eq_true.mpr ⟨row, hrow, by simpa using hnew⟩

/-- Setting a column other than the number of a row changes that row alone. -/
theorem setColumn_eq_modify {id : Int} {column : Column} {cell : Option Cell} {t' : EntryTable}
    (hcolumn : column ≠ .id) (hset : t.setColumn id column cell = .ok t') :
    ∃ cell, t' = t.modify id fun row => row.set column cell := by
  unfold EntryTable.setColumn at hset
  split at hset
  · exact absurd rfl hcolumn
  · cases hset
  · split at hset
    · cases hset
    · exact ⟨_, (Except.ok.inj hset).symm⟩

theorem IsOrdered.setColumn (h : t.IsOrdered) {id : Int} {column : Column} {cell : Option Cell}
    {t' : EntryTable} (hset : t.setColumn id column cell = .ok t') : t'.IsOrdered := by
  by_cases hcolumn : column = .id
  · subst hcolumn
    unfold EntryTable.setColumn at hset
    split at hset
    · exact h.renumber hset
    · cases hset
    · next hother _ => exact absurd rfl hother
  · obtain ⟨cell, rfl⟩ := setColumn_eq_modify hcolumn hset
    exact h.modify fun row hrow => (row.set_id _ _).trans hrow

end EntryTable

/-! ### Sessions -/

theorem EntryTable.lasts_isOrdered : Lasts IsOrdered where
  insert h hid := h.insert hid
  modify h hid := h.modify hid
  erase id h := h.erase id

theorem Change.keeps_isOrdered (change : Change) : change.Keeps EntryTable.IsOrdered := by
  cases change with
  | move m => trivial
  | set id column value => exact fun t cell t' h hset => h.setColumn hset
  | drop table => exact fun _ => EntryTable.empty_isOrdered

/-- No transaction is open on the store, and its table is in order. -/
structure Store.IsOrdered (store : Store) : Prop where
  idle : store.IsIdle
  ordered : store.database.IsOrdered

namespace Session

theorem alter_isOrdered (path : Path) (tree : FileTree) (changes : List Change) :
    ((new path tree).alter changes).store.IsOrdered := by
  have hnew : (new path tree).Carries EntryTable.IsOrdered path :=
    ⟨rfl, trivial, EntryTable.empty_isOrdered⟩
  have hafter : ((new path tree).alter changes).Carries EntryTable.IsOrdered path :=
    hnew.alter EntryTable.lasts_isOrdered (.inr EntryTable.empty_isOrdered)
      fun change _ => change.keeps_isOrdered
  exact ⟨hafter.idle, fun t ht => Database.entryTable_of_entries ht ▸ hafter.table⟩

/-- Whatever was done to a store, the table that it shows is in order. -/
theorem isOrdered_of_shows (path : Path) (tree : FileTree) (changes : List Change) {db : Database}
    (hshows : ((new path tree).alter changes).store.Shows db) {t : EntryTable}
    (ht : db.entries = some t) : t.IsOrdered := by
  have hstore := (alter_isOrdered path tree changes).ordered
  rw [hshows.database] at hstore
  exact hstore t ht

end Session

end Catalogue
