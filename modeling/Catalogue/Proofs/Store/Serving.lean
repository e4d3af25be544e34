import Catalogue.Proofs.Filter.Compile
import Catalogue.Proofs.Store.Moves
import Catalogue.Proofs.Store.Paging

/-! Queries on stores that forms alone have filled.  Every row there reads back as an entry, and a
query text that is accepted has a place that fits into a column; so each such text gets a page,
unless the scan runs into a limit. -/

namespace Catalogue

open Catalogue.Filter Number

/-- A query that was compiled scans a table, where no row makes it look at too long a pattern. -/
theorem scans_of_compile {text : String} {q : Query} (h : compile text = .ok q)
    (hdepth : depthOf q.clauses ≤ depthLimit) {pageSize : Nat} (hsize : FitsWord pageSize)
    {t : EntryTable} (hshort : ¬q.Overreaches t) : q.Scans t pageSize where
  depth := hdepth
  size := hsize
  offset := fits_of_le_maxOffset (compile_bounded h).1
  searchable := hshort

/-! ### Pages -/

/-- The page tells the place and the seed of the query, and how many entries satisfy it; it has all
of these from that place on for which it has room, and the next place is behind them. -/
structure Page.Answers (page : Page) (t : EntryTable) (pageSize generated : Nat) (q : Query) :
    Prop where
  offset : page.offset = q.offset
  next : page.nextOffset = q.offset + page.entries.length
  count : page.entries.length = min pageSize (page.total - q.offset)
  fits : page.entries.length ≤ pageSize
  within : page.entries.length ≤ page.total
  total : page.total = (t.matching q).length
  seed : page.seed = (q.seed.getD generated : Nat)

theorem EntryTable.Holds.page_answers {t : EntryTable} {saved : List Saved} (h : t.Holds saved)
    {q : Query} {pageSize : Nat} (hq : q.isFiltered → q.Scans t pageSize) (generated : Nat) :
    ∃ page, t.page pageSize generated q = .ok page ∧ page.Answers t pageSize generated q := by
  obtain ⟨order, hparts, hperm⟩ := h.exists_parts hq (q.seed.getD generated)
  obtain ⟨entries, hpage, hpart⟩ := hparts generated q.offset
  have hlength : entries.length = min pageSize (order.length - q.offset) := by
    rw [hpart.length_eq, List.length_take, List.length_drop]
  have htotal : order.length = (t.matching q).length := by
    rw [hperm.length_eq, List.length_map, h.matching, List.length_map]
  refine ⟨_, hpage, ?_⟩
  exact {
    offset := rfl
    next := rfl
    count := hlength
    fits := by
      change entries.length ≤ pageSize
      omega
    within := by
      change entries.length ≤ order.length
      omega
    total := htotal
    seed := rfl }

/-- Every column of the row can be read: both dates, the kind, and with them the whole entry. -/
structure Row.Decodes (row : Row) : Prop where
  published : ∃ day, readDate row.published = .ok day
  saved : ∃ day, readDate row.saved = .ok day
  kind : ∃ kind : Kind, row.kind = .int kind.index
  entry : ∃ e, row.entry = .ok e

theorem Saved.row_decodes (s : Saved) : s.row.Decodes where
  published := ⟨_, readDate_text s.form.published⟩
  saved := ⟨_, readDate_text s.day⟩
  kind := ⟨s.form.type.kind, rfl⟩
  entry := ⟨s.entry, s.entry_row⟩

namespace Session

/-- In a store that forms alone have filled every row reads back, so every query text that is
accepted gets its page, whatever it asks for, as long as the scan runs into no limit; nothing that
the store shows is changed by that. -/
theorem serves_compiled (path : Path) (tree : FileTree) (moves : List Move) {db : Database}
    (hshows : ((new path tree).play moves).store.Shows db) {t : EntryTable}
    (ht : db.entries = some t) :
    (∀ row ∈ t.rows, row.Decodes) ∧
    ∀ {text : String} {q : Query} {pageSize : Nat} (generated : Nat), compile text = .ok q →
      depthOf q.clauses ≤ depthLimit → ¬q.Overreaches t →
      (q.isFiltered → FitsWord pageSize) →
      ∃ page after,
        Access.retrieve pageSize generated q ((new path tree).play moves).store = .ok page after ∧
        after.Shows db ∧ page.Answers t pageSize generated q := by
  obtain ⟨saved, hholds⟩ := holds_of_play path tree moves hshows ht
  refine ⟨fun row hrow => ?_, fun generated hcompile hdepth hshort hsize => ?_⟩
  · rw [hholds.rows] at hrow
    obtain ⟨s, -, rfl⟩ := List.mem_map.mp hrow
    exact s.row_decodes
  · have hscans := fun hfiltered => scans_of_compile hcompile hdepth (hsize hfiltered) hshort
    obtain ⟨page, hpage, hanswers⟩ := hholds.page_answers hscans generated
    have hgives := Access.Gives.retrieve generated ht fun hfiltered =>
      (hscans hfiltered).toFitsScan
    rw [hpage] at hgives
    obtain ⟨after, hresult, hafter, -⟩ := hgives.of_shows hshows
    exact ⟨page, after, hresult, hafter, hanswers⟩

theorem serves_compiled_sample : ∃ db t q page after,
    ((new (.ofText "archive.db") ⟨[], []⟩).play
      [.open_, .call (.insert .sample .first)]).store.Shows db ∧
    db.entries = some t ∧ compile ("tags" ++ "=" ++ "madness") = .ok q ∧
    Access.retrieve 10 0 q ((new (.ofText "archive.db") ⟨[], []⟩).play
      [.open_, .call (.insert .sample .first)]).store = .ok page after ∧
    page.Answers t 10 0 q := by
  obtain ⟨hcompile, -⟩ := compile_single (by decide : '=' ∉ "tags".toList) (by decide)
    (by decide : '%' ∉ "madness".toList ∧ '&' ∉ "madness".toList)
    (rfl : readArgument ("tags", "madness") = .ok (.clauses [.holds .tags "madness"]))
  obtain ⟨db, t, hshows, ht⟩ : ∃ db t, ((new (.ofText "archive.db") ⟨[], []⟩).play
      [.open_, .call (.insert .sample .first)]).store.Shows db ∧ db.entries = some t :=
    ⟨_, _, ⟨_, rfl⟩, rfl⟩
  have hshort : ¬Query.Overreaches ⟨[.holds .tags "madness"], 0, none⟩ t := by
    have hsearchable : Like.isSearchable (FieldList.pattern "madness") = true := by decide
    rintro ⟨-, row, -, h⟩
    change row.satisfies [.holds .tags "madness"] = _ at h
    simp only [Row.satisfies, Clause.holdsOf, search, hsearchable] at h
    cases hfound : Like.isMatch (FieldList.pattern "madness") (row.listIn .tags) <;>
      rw [hfound] at h <;> cases h
  obtain ⟨page, after, hresult, -, hanswers⟩ := (serves_compiled _ _ _ hshows ht).2 0 hcompile
    (by decide) hshort fun _ => (by decide : FitsWord (10 : Nat))
  exact ⟨db, t, _, page, after, hshows, ht, hcompile, hresult, hanswers⟩

/-- A page size that fits into no column cannot be bound, and a query with a clause gets no page. -/
theorem refuses_wide_page : ∃ db t q after,
    ((new (.ofText "archive.db") ⟨[], []⟩).play [.open_]).store.Shows db ∧ db.entries = some t ∧
    compile ("exceptional" ++ "=" ++ "true") = .ok q ∧ depthOf q.clauses ≤ depthLimit ∧
    ¬q.Overreaches t ∧
    Access.retrieve (2 ^ 63) 0 q ((new (.ofText "archive.db") ⟨[], []⟩).play [.open_]).store =
      .error (.unbound .integerTooLarge) after := by
  obtain ⟨hcompile, -⟩ := compile_single (by decide : '=' ∉ "exceptional".toList) (by decide)
    (by decide : '%' ∉ "true".toList ∧ '&' ∉ "true".toList)
    (rfl : readArgument ("exceptional", "true") = .ok (.clauses [.exceptional true]))
  exact ⟨_, .empty, _, _, ⟨_, rfl⟩, rfl, hcompile, by decide,
    by simp [Query.Overreaches, EntryTable.empty], rfl⟩

end Session

end Catalogue
