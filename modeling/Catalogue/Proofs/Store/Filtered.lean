import Catalogue.Proofs.Store.Ordering
import Catalogue.Proofs.Store.Serving
import Catalogue.Proofs.Store.Walk

/-! Pages of a query with clauses.  Each is a part of one list of rows, the same for all places and
page sizes, and tells how many rows that list has, whether it shows any of them or not. -/

namespace Catalogue

open Catalogue.Filter Number

/-- The rows of the table of which all clauses hold, by ascending number. -/
structure Query.Selects (q : Query) (t : EntryTable) (rows : List Row) : Prop where
  sublist : rows.Sublist t.rows
  ascending : rows.Pairwise fun a b => a.id < b.id
  mem_iff : ∀ row ∈ t.rows, row ∈ rows ↔ ∀ clause ∈ q.clauses, clause.holdsOf row = .ok true

/-- Lists of rows by ascending number are the same where they have the same rows. -/
theorem Row.eq_of_ascending {rows rows' : List Row} (h : rows.Pairwise fun a b => a.id < b.id)
    (h' : rows'.Pairwise fun a b => a.id < b.id) (hmem : ∀ row, row ∈ rows ↔ row ∈ rows') :
    rows = rows' := by
  have hnodup {rows : List Row} (h : rows.Pairwise fun a b => a.id < b.id) : rows.Nodup :=
    h.imp fun hlt he => absurd (congrArg Row.id he) (Int.ne_of_lt hlt)
  have hperm := (List.perm_ext_iff_of_nodup (hnodup h) (hnodup h')).mpr hmem
  exact hperm.eq_of_pairwise (fun a b _ _ hab hba => by omega) h h'

/-- There is only one such list. -/
theorem Query.Selects.unique {q : Query} {t : EntryTable} {rows rows' : List Row}
    (h : q.Selects t rows) (h' : q.Selects t rows') : rows = rows' := by
  refine Row.eq_of_ascending h.ascending h'.ascending fun row => ?_
  constructor
  · intro hrow
    have ht := h.sublist.subset hrow
    exact (h'.mem_iff row ht).mpr ((h.mem_iff row ht).mp hrow)
  · intro hrow
    have ht := h'.sublist.subset hrow
    exact (h.mem_iff row ht).mpr ((h'.mem_iff row ht).mp hrow)

/-- The page shows the rows from a place on, read as entries, for which it has room; it tells how
many rows there are, its place and the next one. -/
structure Page.IsPart (page : Page) (rows : List Row) (offset pageSize : Nat) : Prop where
  entries : ((rows.drop offset).take pageSize).map Row.entry = page.entries.map .ok
  total : page.total = rows.length
  place : page.offset = offset
  next : page.nextOffset = offset + page.entries.length

theorem entriesOf_eq_ok {rows : List Row} {entries : List Entry}
    (h : entriesOf rows = .ok entries) : rows.map Row.entry = entries.map .ok := mapM_eq_ok_iff.mp h

theorem exists_entriesOf {rows : List Row} (h : ∀ row ∈ rows, ∃ e, row.entry = .ok e) :
    ∃ entries, entriesOf rows = .ok entries := exists_mapM_iff.mpr h

namespace EntryTable

variable {t : EntryTable} {q : Query}

theorem IsOrdered.selects_matching (h : t.IsOrdered) (q : Query) : q.Selects t (t.matching q) where
  sublist := List.filter_sublist
  ascending := h.sublist List.filter_sublist
  mem_iff _ hrow := mem_matching_iff hrow q

theorem exists_filteredPage (hentries : ∀ row ∈ t.rows, ∃ e, row.entry = .ok e)
    (hshort : ¬q.Overreaches t) (pageSize : Nat) (seed : Int) :
    ∃ page, t.filteredPage pageSize seed q = .ok page ∧
      page.IsPart (t.matching q) q.offset pageSize := by
  have hpart : (((t.matching q).drop q.offset).take pageSize).Sublist t.rows :=
    (List.take_sublist _ _).trans ((List.drop_sublist _ _).trans List.filter_sublist)
  obtain ⟨entries, hread⟩ := exists_entriesOf fun row hrow => hentries row (hpart.subset hrow)
  refine ⟨⟨entries, q.offset, q.offset + entries.length, (t.matching q).length, seed⟩, ?_, ?_⟩
  · rw [filteredPage, select_eq_ok hshort]
    dsimp only
    rw [hread]
    rfl
  · exact ⟨entriesOf_eq_ok hread, rfl, rfl, rfl⟩

theorem filteredPage_refused (h : q.Overreaches t) (pageSize : Nat) (seed : Int) :
    t.filteredPage pageSize seed q = .error (.storage .scanFailed) := by
  rw [filteredPage, select_eq_error h]

end EntryTable

theorem Access.Gives.retrieve_filtered {db : Database} {t : EntryTable} (ht : db.entries = some t)
    {q : Query} (hfiltered : q.isFiltered) (hdepth : depthOf q.clauses ≤ depthLimit)
    (hoffset : q.offset ≤ maxOffset) {pageSize : Nat} (hsize : FitsWord pageSize)
    (generated : Nat) :
    Gives (Access.retrieve pageSize generated q) db
      (t.filteredPage pageSize (q.seed.getD generated : Nat) q) db := by
  have hpage := Gives.retrieve generated ht
    fun _ => ⟨hdepth, hsize, fits_of_le_maxOffset hoffset⟩
  rwa [EntryTable.page, if_pos hfiltered] at hpage

/-- The pages of a query with clauses, on a store of which every row reads as an entry, whatever was
done to it before: the rows of which all clauses hold make one list, of which every page shows its
part and tells the length.  No page is given where the tests of some row come to a pattern that is
too long to be searched for. -/
theorem Session.filtered_pages (path : Path) (tree : FileTree) (changes : List Change)
    {db : Database} (hshows : ((new path tree).alter changes).store.Shows db) {t : EntryTable}
    (ht : db.entries = some t) (hentries : ∀ row ∈ t.rows, ∃ e, row.entry = .ok e) {q : Query}
    (hfiltered : q.isFiltered) (hdepth : depthOf q.clauses ≤ depthLimit) :
    (¬q.Overreaches t →
      ∃ rows, q.Selects t rows ∧
        ∀ offset pageSize generated : Nat, offset ≤ maxOffset → FitsWord pageSize →
        ∃ page after, Access.retrieve pageSize generated { q with offset := offset }
            ((new path tree).alter changes).store = .ok page after ∧
          after.Shows db ∧ page.IsPart rows offset pageSize) ∧
    (q.Overreaches t →
      ∀ offset pageSize generated : Nat, offset ≤ maxOffset → FitsWord pageSize →
        ∃ after, Access.retrieve pageSize generated { q with offset := offset }
            ((new path tree).alter changes).store = .error (.storage .scanFailed) after ∧
          after.Shows db) := by
  have hordered := isOrdered_of_shows path tree changes hshows ht
  have hgives (offset pageSize generated : Nat) (hoffset : offset ≤ maxOffset)
      (hsize : FitsWord pageSize) :=
    Access.Gives.retrieve_filtered (q := { q with offset := offset }) ht hfiltered hdepth hoffset
      hsize generated
  constructor
  · intro hshort
    refine ⟨t.matching q, hordered.selects_matching q,
      fun offset pageSize generated hoffset hsize => ?_⟩
    obtain ⟨page, hpage, hpart⟩ := EntryTable.exists_filteredPage
      (q := { q with offset := offset }) hentries hshort pageSize
      (q.seed.getD generated : Nat)
    have hresult := hgives offset pageSize generated hoffset hsize
    rw [hpage] at hresult
    obtain ⟨after, hretrieve, hafter, -⟩ := hresult.of_shows hshows
    exact ⟨page, after, hretrieve, hafter, hpart⟩
  · intro hlong offset pageSize generated hoffset hsize
    have hresult := hgives offset pageSize generated hoffset hsize
    rw [EntryTable.filteredPage_refused (q := { q with offset := offset }) hlong] at hresult
    obtain ⟨after, hretrieve, hafter, -⟩ := hresult.of_shows hshows
    exact ⟨after, hretrieve, hafter⟩

/-- Two forms are saved, for examples. -/
def Change.twoSaved : List Change :=
  [.move .open_, .move (.call (.insert .sample .first)),
    .move (.call (.insert { Form.sample with title := "Othello" } .first))]

theorem Session.shows_twoSaved : ∃ db t,
    ((new (.ofText "archive.db") ⟨[], []⟩).alter Change.twoSaved).store.Shows db ∧
    db.entries = some t ∧
    t.rows = [Saved.row ⟨1, .sample, .first⟩,
      Saved.row ⟨2, { Form.sample with title := "Othello" }, .first⟩] ∧
    ∀ row ∈ t.rows, ∃ e, row.entry = .ok e := by
  refine ⟨_, _, ⟨_, rfl⟩, rfl, rfl, ?_⟩
  exact List.forall_mem_cons.mpr ⟨⟨_, Saved.entry_row ⟨1, .sample, .first⟩⟩,
    List.forall_mem_singleton.mpr
      ⟨_, Saved.entry_row ⟨2, { Form.sample with title := "Othello" }, .first⟩⟩⟩

/-- Of two entries one has the title that is searched for; a page behind it shows nothing, and tells
of one all the same. -/
theorem Session.filtered_pages_sample : ∃ db t page after,
    ((new (.ofText "archive.db") ⟨[], []⟩).alter Change.twoSaved).store.Shows db ∧
    db.entries = some t ∧
    t.rows = [Saved.row ⟨1, .sample, .first⟩,
      Saved.row ⟨2, { Form.sample with title := "Othello" }, .first⟩] ∧
    Access.retrieve 10 0 ⟨[.contains .title "amlet"], 5, none⟩
      ((new (.ofText "archive.db") ⟨[], []⟩).alter Change.twoSaved).store = .ok page after ∧
    page.entries = [] ∧ page.total = 1 := by
  obtain ⟨db, t, hshows, ht, hrows, hentries⟩ := shows_twoSaved
  have hshort : ¬Query.Overreaches ⟨[.contains .title "amlet"], 0, none⟩ t := by
    rintro ⟨-, row, hrow, htoolong⟩
    rw [hrows, List.mem_cons, List.mem_singleton] at hrow
    obtain rfl | rfl := hrow
    · cases htoolong
    · cases htoolong
  obtain ⟨rows, hselects, hpages⟩ := (filtered_pages _ _ _ hshows ht hentries
    (q := ⟨[.contains .title "amlet"], 0, none⟩) rfl (by decide)).1 hshort
  obtain rfl := hselects.unique ((isOrdered_of_shows _ _ _ hshows ht).selects_matching _)
  have hcount : (t.matching ⟨[.contains .title "amlet"], 0, none⟩).length = 1 := by
    rw [EntryTable.matching, hrows]
    rfl
  obtain ⟨page, after, hpage, -, hpart⟩ := hpages 5 10 0 (by decide) (by decide)
  have hnone : page.entries = [] := by
    have hread := hpart.entries
    rw [List.drop_of_length_le (by omega)] at hread
    simpa using hread.symm
  exact ⟨db, t, page, after, hshows, ht, hrows, hpage, hnone, hpart.total.trans hcount⟩

/-- No page is given for a query of a thousand clauses, nor for a title that is too long to be
searched for, though every row reads as an entry. -/
theorem Session.filtered_page_refused :
    (∃ q db t after, compile (flags 999) = .ok q ∧ q.isFiltered ∧
      ((new (.ofText "archive.db") ⟨[], []⟩).alter [.move .open_]).store.Shows db ∧
      db.entries = some t ∧ t.rows = [] ∧
      Access.retrieve 10 0 q ((new (.ofText "archive.db") ⟨[], []⟩).alter [.move .open_]).store =
        .error (.storage .scanFailed) after) ∧
    ∃ q db t s after, compile ("title" ++ "=" ++ titleOf 50001) = .ok q ∧ q.isFiltered ∧
      ((new (.ofText "archive.db") ⟨[], []⟩).alter
        [.move .open_, .move (.call (.insert .sample .first))]).store.Shows db ∧
      db.entries = some t ∧ t.rows = [Saved.row s] ∧ (Saved.row s).entry = .ok s.entry ∧
      Access.retrieve 10 0 q ((new (.ofText "archive.db") ⟨[], []⟩).alter
        [.move .open_, .move (.call (.insert .sample .first))]).store =
        .error (.storage .scanFailed) after := by
  constructor
  · obtain ⟨db, hstore, ht⟩ : ∃ db : Database,
        ((new (.ofText "archive.db") ⟨[], []⟩).alter [.move .open_]).store =
          ⟨.ofText "archive.db", .connected ⟨db, none, .blank, .quiet⟩⟩ ∧
        db.entries = some .empty := ⟨_, rfl, rfl⟩
    obtain ⟨after, hscan⟩ := Access.scan_tooDeep (q := ⟨_, 0, none⟩) flags_tooDeep 10
      (.ofText "archive.db") db (rfl : Memory.blank.prepared.contains _ = false)
    rw [hstore]
    exact ⟨_, db, .empty, after, compile_flags 999, rfl, ⟨_, rfl⟩, ht, rfl,
      Access.retrieve_error rfl hscan⟩
  · obtain ⟨hcompile, -⟩ := compile_title (not_mem_titleOf (by decide) 50001)
      (not_mem_titleOf (by decide) 50001)
    obtain ⟨db, t, hshows, ht, hrows⟩ : ∃ db t, ((new (.ofText "archive.db") ⟨[], []⟩).alter
        [.move .open_, .move (.call (.insert .sample .first))]).store.Shows db ∧
        db.entries = some t ∧ t.rows = [Saved.row ⟨1, .sample, .first⟩] :=
      ⟨_, _, ⟨_, rfl⟩, rfl, rfl⟩
    have hlong : Query.Overreaches ⟨[.contains .title (titleOf 50001)], 0, none⟩ t :=
      overreaches_titleOf (by omega) (Saved.row ⟨1, .sample, .first⟩) (by simp [hrows])
    have hresult := Access.Gives.retrieve_filtered
      (q := ⟨[.contains .title (titleOf 50001)], 0, none⟩) ht rfl (by decide : 2 ≤ depthLimit)
      (Nat.zero_le _) (by decide : FitsWord (10 : Nat)) 0
    rw [EntryTable.filteredPage_refused hlong] at hresult
    obtain ⟨after, hretrieve, -⟩ := hresult.of_shows hshows
    exact ⟨_, db, t, ⟨1, .sample, .first⟩, after, hcompile, rfl, hshows, ht, hrows,
      Saved.entry_row _, hretrieve⟩

end Catalogue
