import Catalogue.Proofs.Json.Scalars
import Catalogue.Proofs.Store.Atomic
import Catalogue.Proofs.Store.Membership

/-! Rows that are no entries.  A page fails where one of its own rows is malformed, and only there:
malformed rows elsewhere are counted, and nothing is left out of a page for them. -/

namespace Catalogue

open Catalogue.Filter Number

/-! ### Malformed rows -/

/-- The text of a cell, out of which a date is read. -/
def Cell.shown : Cell → String
  | .int n => intText n
  | .real x => x.text
  | .text s => s

/-- The cell is no infinite number. -/
def Cell.IsFinite (cell : Cell) : Prop := ∀ x, cell = .real x → x.isInfinite = false

/-- A column does not read: a date, of which the text is no date; the kind, which stands for no
number from 0 to 4; or the measure, which is not empty and stands for no number. -/
inductive Row.IsMalformed (row : Row) : Prop
  | published (h : Date.parse? row.published.shown = none)
  | saved (h : Date.parse? row.saved.shown = none)
  | kind (h : ∀ n, row.kind.toJson.toInteger = .ok n → n < 0 ∨ 4 < n)
  | amount (filled : row.amount.toJson.isTruthy) (h : ∀ n, row.amount.toJson.toInteger ≠ .ok n)

/-- Neither the kind nor the measure of the row is an infinite number. -/
structure Row.IsFinite (row : Row) : Prop where
  kind : row.kind.IsFinite
  amount : row.amount.IsFinite

theorem Kind.exists_ofIndex?_iff {n : Int} :
    (∃ kind, Kind.ofIndex? n = some kind) ↔ 0 ≤ n ∧ n ≤ 4 := by
  rw [← Option.isSome_iff_exists, Kind.ofIndex?, List.find?_isSome]
  constructor
  · rintro ⟨kind, -, hindex⟩
    have hn : (kind.index : Int) = n := by simpa using hindex
    cases kind <;> simp only [Kind.index] at hn <;> omega
  · intro hn
    obtain rfl | rfl | rfl | rfl | rfl : n = 0 ∨ n = 1 ∨ n = 2 ∨ n = 3 ∨ n = 4 := by omega
    all_goals decide

theorem Cell.toInteger_ne_infinite {cell : Cell} (h : cell.IsFinite) :
    cell.toJson.toInteger ≠ .error .infinite := by
  intro hinfinite
  obtain ⟨x, hx, hxi⟩ := Json.toInteger_eq_infinite_iff.mp hinfinite
  cases cell with
  | real y =>
    cases hx
    rw [h x rfl] at hxi
    cases hxi
  | _ => cases hx

namespace Row

variable {row : Row} {cell kind amount : Cell}

theorem ofStored?_toJson (cell : Cell) : Date.ofStored? cell.toJson = Date.parse? cell.shown := by
  cases cell <;> simp only [Date.ofStored?, Cell.toJson, Json.display, Json.inspect, Cell.shown,
    Text.LooseText.sound?, Option.bind_some]

theorem exists_readDate_iff :
    (∃ day, readDate cell = .ok day) ↔ Date.parse? cell.shown ≠ none := by
  rw [readDate, ofStored?_toJson]
  cases Date.parse? cell.shown <;> simp

theorem readDate_error {fault : RowFault} (h : readDate cell = .error fault) :
    fault = .malformed := by
  unfold readDate at h
  split at h <;> cases h
  rfl

theorem exists_readType_iff : (∃ type, readType kind amount = .ok type) ↔
    (∃ n, kind.toJson.toInteger = .ok n ∧ 0 ≤ n ∧ n ≤ 4) ∧
      (amount.toJson.isTruthy → ∃ n, amount.toJson.toInteger = .ok n) := by
  have hstored : (∃ type, readType kind amount = .ok type) ↔
      ∃ type, EntryType.ofStored kind.toJson amount.toJson = .ok type := by
    rw [readType]
    split <;> simp_all
  rw [hstored, EntryType.ofStored]
  cases hkind : kind.toJson.toInteger with
  | error fault => simp [Except.mapError, bind, Except.bind]
  | ok n =>
    have hindex := Kind.exists_ofIndex?_iff (n := n)
    simp only [Except.mapError, bind, Except.bind]
    cases hkind : Kind.ofIndex? n with
    | none =>
      simp only [hkind] at hindex
      simp [← hindex, throw, throwThe, MonadExceptOf.throw]
    | some kind =>
      simp only [hkind] at hindex
      cases hfilled : amount.toJson.isTruthy with
      | false => simp [← hindex, pure, Except.pure]
      | true =>
        cases hamount : amount.toJson.toInteger with
        | error fault => simp [← hindex]
        | ok m => simp [← hindex, pure, Except.pure]

theorem readType_infinite (h : readType kind amount = .error .infinite) :
    kind.toJson.toInteger = .error .infinite ∨ amount.toJson.toInteger = .error .infinite := by
  have hmap {v : Except IntegerFault Int}
      (hv : v.mapError TypeFault.numeral = .error (.numeral .infinite)) : v = .error .infinite := by
    cases v <;> cases hv
    rfl
  have hstored : EntryType.ofStored kind.toJson amount.toJson = .error (.numeral .infinite) := by
    rw [readType] at h
    split at h <;> simp_all
  rw [EntryType.ofStored] at hstored
  obtain hkind | ⟨n, -, hstored⟩ := bind_eq_error.mp hstored
  · exact .inl (hmap hkind)
  · split at hstored
    · cases hstored
    · obtain hamount | ⟨m, -, hstored⟩ := bind_eq_error.mp hstored
      · have hinteger := hmap hamount
        split at hinteger
        · exact .inr hinteger
        · cases hinteger
      · cases hstored

/-- Reading a row fails where a column does not read, and only there. -/
theorem exists_entry_iff : (∃ e, row.entry = .ok e) ↔ ¬row.IsMalformed := by
  -- The entry is there where each of the three reads gives something.
  have hcolumns : (∃ e, row.entry = .ok e) ↔ (∃ day, readDate row.published = .ok day) ∧
      (∃ day, readDate row.saved = .ok day) ∧ ∃ type, readType row.kind row.amount = .ok type := by
    constructor
    · rintro ⟨e, he⟩
      rw [Row.entry] at he
      obtain ⟨day, hday, he⟩ := bind_eq_ok.mp he
      obtain ⟨day', hday', he⟩ := bind_eq_ok.mp he
      obtain ⟨type, htype, -⟩ := bind_eq_ok.mp he
      exact ⟨⟨day, hday⟩, ⟨day', hday'⟩, ⟨type, htype⟩⟩
    · rintro ⟨⟨day, hday⟩, ⟨day', hday'⟩, ⟨type, htype⟩⟩
      rw [Row.entry, hday, hday', htype]
      exact ⟨_, rfl⟩
  rw [hcolumns, exists_readDate_iff, exists_readDate_iff, exists_readType_iff]
  constructor
  · rintro ⟨hpublished, hsaved, ⟨n, hn, hrange⟩, hamount⟩ hmalformed
    cases hmalformed with
    | published h => exact hpublished h
    | saved h => exact hsaved h
    | kind h =>
      have := h n hn
      omega
    | amount filled h =>
      obtain ⟨m, hm⟩ := hamount filled
      exact h m hm
  · intro h
    refine ⟨fun hday => h (.published hday), fun hday => h (.saved hday), ?_, fun filled => ?_⟩
    · by_contra hnone
      refine h (.kind fun n hn => ?_)
      by_contra hrange
      exact hnone ⟨n, hn, by omega⟩
    · by_contra hnone
      exact h (.amount filled fun m hm => hnone ⟨m, hm⟩)

theorem entry_ne_infinite (h : row.IsFinite) : row.entry ≠ .error .infinite := by
  intro hentry
  rw [Row.entry] at hentry
  obtain hday | ⟨_, -, hentry⟩ := bind_eq_error.mp hentry
  · cases readDate_error hday
  obtain hday | ⟨_, -, hentry⟩ := bind_eq_error.mp hentry
  · cases readDate_error hday
  obtain htype | ⟨_, -, hentry⟩ := bind_eq_error.mp hentry
  · obtain hkind | hamount := readType_infinite htype
    · exact Cell.toInteger_ne_infinite h.kind hkind
    · exact Cell.toInteger_ne_infinite h.amount hamount
  · cases hentry

end Row

/-- Rows of which one is malformed give no entries at all. -/
theorem entriesOf_of_isMalformed {rows : List Row} (hfinite : ∀ row ∈ rows, row.IsFinite)
    (h : ∃ row ∈ rows, row.IsMalformed) : entriesOf rows = .error .malformed := by
  obtain ⟨row, hrow, hmalformed⟩ := h
  cases hread : entriesOf rows with
  | ok entries =>
    have hentry := exists_mapM_iff.mp ⟨entries, hread⟩ row hrow
    exact absurd hmalformed (Row.exists_entry_iff.mp hentry)
  | error fault =>
    -- The first row that fails need not be the one that is known to be malformed.
    obtain ⟨before, other, after, rfl, -, hother⟩ := mapM_eq_error_iff.mp hread
    cases fault with
    | malformed => rfl
    | infinite => exact absurd hother (Row.entry_ne_infinite (hfinite other (by simp)))

/-! ### Rows of a page -/

/-- The rows that a query picks for a page, and how many rows it counts.  A query with clauses picks
a slice of the rows of which all clauses hold.  One without picks the rows of which the ordinals
stand at the places of the page in the order of the seed, and counts all rows. -/
inductive Query.Picks (q : Query) (t : EntryTable) (pageSize : Nat) (seed : Int) :
    List Row → Nat → Prop
  | slice {rows : List Row} (filtered : q.isFiltered = true) (selects : q.Selects t rows) :
    Picks q t pageSize seed ((rows.drop q.offset).take pageSize) rows.length
  | drawn {picked : List Row} (unfiltered : q.isFiltered = false)
    (ascending : picked.Pairwise fun a b => a.id < b.id)
    (mem_iff : ∀ row, row ∈ picked ↔ ∃ place ordinal : Nat, q.offset ≤ place ∧
      place < q.offset + pageSize ∧
      (Shuffle.order seed.natAbs t.rows.length)[place]? = some ordinal ∧
      t.rows[ordinal]? = some row) :
    Picks q t pageSize seed picked t.rows.length

/-- The rows and their number are determined. -/
theorem Query.Picks.unique {q : Query} {t : EntryTable} {pageSize : Nat} {seed : Int}
    {picked picked' : List Row} {total total' : Nat} (h : q.Picks t pageSize seed picked total)
    (h' : q.Picks t pageSize seed picked' total') : picked = picked' ∧ total = total' := by
  cases h with
  | slice filtered selects =>
    cases h' with
    | slice _ selects' =>
      obtain rfl := selects.unique selects'
      exact ⟨rfl, rfl⟩
    | drawn unfiltered => simp [unfiltered] at filtered
  | drawn unfiltered ascending mem_iff =>
    cases h' with
    | slice filtered => simp [unfiltered] at filtered
    | drawn _ ascending' mem_iff' =>
      have hmem (row : Row) : row ∈ picked ↔ row ∈ picked' :=
        (mem_iff row).trans (mem_iff' row).symm
      exact ⟨Row.eq_of_ascending ascending ascending' hmem, rfl⟩

/-- The page shows the rows `picked`, all of them and read as entries, and tells that `total` rows
were counted; its place and its seed are those of the query. -/
structure Page.Lists (page : Page) (q : Query) (seed : Int) (picked : List Row) (total : Nat) :
    Prop where
  entries : picked.map Row.entry = page.entries.map .ok
  total : page.total = total
  place : page.offset = q.offset
  next : page.nextOffset = q.offset + page.entries.length
  seed : page.seed = seed

namespace EntryTable

variable {t : EntryTable} {q : Query}

/-- The rows of the page of a query. -/
def picked (t : EntryTable) (pageSize : Nat) (seed : Int) (q : Query) : List Row :=
  if q.isFiltered then ((t.matching q).drop q.offset).take pageSize
  else t.drawn pageSize seed q.offset

theorem picked_sublist (t : EntryTable) (pageSize : Nat) (seed : Int) (q : Query) :
    (t.picked pageSize seed q).Sublist t.rows := by
  rw [picked]
  split
  · exact (List.take_sublist _ _).trans ((List.drop_sublist _ _).trans List.filter_sublist)
  · exact rowsAt_sublist _ _ _

theorem IsOrdered.picks_picked (h : t.IsOrdered) (pageSize : Nat) (seed : Int) (q : Query) :
    q.Picks t pageSize seed (t.picked pageSize seed q) (t.matching q).length := by
  rw [picked]
  split
  · next hfiltered => exact .slice hfiltered (h.selects_matching q)
  · next hfiltered =>
    rw [matching_of_not_isFiltered t hfiltered]
    refine .drawn (by simpa using hfiltered) (h.sublist (rowsAt_sublist _ _ _)) fun row => ?_
    exact mem_drawn_iff_place

/-- The page of a query is read from its rows. -/
theorem page_eq (hdecided : ¬q.Overreaches t) (pageSize generated : Nat) :
    t.page pageSize generated q =
      ((entriesOf (t.picked pageSize (q.seed.getD generated : Nat) q)).mapError
        RowFault.toStoreFault).map fun entries =>
          ⟨entries, q.offset, q.offset + entries.length, (t.matching q).length,
            (q.seed.getD generated : Nat)⟩ := by
  rw [page, picked]
  split
  · rw [filteredPage, select_eq_ok hdecided]
    dsimp only
    cases (entriesOf (((t.matching q).drop q.offset).take pageSize)).mapError
      RowFault.toStoreFault <;> rfl
  · next hfiltered =>
    rw [discoveredPage, discoveredRows_eq, matching_of_not_isFiltered t hfiltered, ← drawn]
    cases (entriesOf (t.drawn pageSize (q.seed.getD generated : Nat) q.offset)).mapError
      RowFault.toStoreFault <;> rfl

theorem page_overreaching (h : q.Overreaches t) (pageSize generated : Nat) :
    t.page pageSize generated q = .error (.storage .scanFailed) := by
  have hfiltered : q.isFiltered = true := by
    obtain ⟨-, row, -, herror⟩ := h
    cases hclauses : q.clauses with
    | nil =>
      rw [hclauses] at herror
      cases herror
    | cons clause clauses => simp [Query.isFiltered, hclauses]
  rw [page, if_pos hfiltered, filteredPage_refused h]

theorem page_malformed (hfinite : ∀ row ∈ t.rows, row.IsFinite) (hdecided : ¬q.Overreaches t)
    {pageSize generated : Nat}
    (h : ∃ row ∈ t.picked pageSize (q.seed.getD generated : Nat) q, row.IsMalformed) :
    t.page pageSize generated q = .error (.storage .malformedEntry) := by
  have hsublist := t.picked_sublist pageSize (q.seed.getD generated : Nat) q
  rw [page_eq hdecided,
    entriesOf_of_isMalformed (fun row hrow => hfinite row (hsublist.subset hrow)) h]
  rfl

theorem exists_page (hdecided : ¬q.Overreaches t) {pageSize generated : Nat}
    (h : ¬∃ row ∈ t.picked pageSize (q.seed.getD generated : Nat) q, row.IsMalformed) :
    ∃ page, t.page pageSize generated q = .ok page ∧
      page.Lists q (q.seed.getD generated : Nat)
        (t.picked pageSize (q.seed.getD generated : Nat) q) (t.matching q).length := by
  obtain ⟨entries, hread⟩ := exists_entriesOf fun row hrow =>
    Row.exists_entry_iff.mpr fun hmalformed => h ⟨row, hrow, hmalformed⟩
  refine ⟨⟨entries, q.offset, q.offset + entries.length, (t.matching q).length,
    (q.seed.getD generated : Nat)⟩, ?_, entriesOf_eq_ok hread, rfl, rfl, rfl, rfl⟩
  rw [page_eq hdecided, hread]
  rfl

end EntryTable

/-- A page fails as a failure of the store where one of the rows that the query picks for it is
malformed, or where the tests of some row come to a pattern that is too long; else it shows all of
these rows, and malformed rows elsewhere are counted with the others.  The store shows what it
showed, and goes on as if the page had not been asked for. -/
theorem Session.page_fails_iff (path : Path) (tree : FileTree) (changes : List Change)
    {db : Database} (hshows : ((new path tree).alter changes).store.Shows db) {t : EntryTable}
    (ht : db.entries = some t) (hfinite : ∀ row ∈ t.rows, row.IsFinite) {text : String} {q : Query}
    (hcompile : compile text = .ok q) {pageSize : Nat}
    (hfits : q.isFiltered → depthOf q.clauses ≤ depthLimit ∧ FitsWord pageSize) (generated : Nat) :
    ∃ picked total answer after,
      q.Picks t pageSize (q.seed.getD generated : Nat) picked total ∧
      Access.retrieve pageSize generated q ((new path tree).alter changes).store =
        Access.resultOf answer after ∧
      after.Shows db ∧
      (∀ next : Operation, next.FindsTables db → next.Fits →
        next.outcome after = next.outcome ((new path tree).alter changes).store) ∧
      ((∃ fault, answer = .error (.storage fault)) ↔
        q.Overreaches t ∨ ∃ row ∈ picked, row.IsMalformed) ∧
      ((∃ fault, answer = .error (.storage fault)) ∨
        ∃ page, answer = .ok page ∧ page.Lists q (q.seed.getD generated : Nat) picked total) := by
  have hordered := isOrdered_of_shows path tree changes hshows ht
  have hscan (hfiltered : q.isFiltered) : q.FitsScan pageSize :=
    ⟨(hfits hfiltered).1, (hfits hfiltered).2, fits_of_le_maxOffset (compile_bounded hcompile).1⟩
  have hgives := Access.Gives.retrieve generated ht hscan
  obtain ⟨after, hresult, hafter, -⟩ := hgives.of_shows hshows
  refine ⟨_, _, _, after, hordered.picks_picked pageSize (q.seed.getD generated : Nat) q, hresult,
    hafter, fun next hnext hnext' => Operation.outcome_eq_of_shows hnext hnext' hafter hshows, ?_⟩
  -- A scan that is refused has no rows, so that comes before the rows of the page are looked at.
  by_cases hlong : q.Overreaches t
  · have hpage := EntryTable.page_overreaching hlong pageSize generated
    exact ⟨iff_of_true ⟨_, hpage⟩ (.inl hlong), .inl ⟨_, hpage⟩⟩
  · by_cases hmalformed :
      ∃ row ∈ t.picked pageSize (q.seed.getD generated : Nat) q, row.IsMalformed
    · have hpage := EntryTable.page_malformed hfinite hlong hmalformed
      exact ⟨iff_of_true ⟨_, hpage⟩ (.inr hmalformed), .inl ⟨_, hpage⟩⟩
    · obtain ⟨page, hpage, hlists⟩ := EntryTable.exists_page hlong hmalformed
      refine ⟨iff_of_false ?_ (by simp [hlong, hmalformed]), .inr ⟨page, hpage, hlists⟩⟩
      rintro ⟨fault, hfault⟩
      rw [hpage] at hfault
      cases hfault

/-! ### A damaged row -/

/-- A direct edit sets a column of a row. -/
theorem Session.shows_set {s : Session} {db : Database} (hshows : s.store.Shows db)
    {t after : EntryTable} (ht : db.entries = some t) {id : Int} (hid : FitsWord id)
    (hhas : t.has id = true) {name : String} {column : Column}
    (hcolumn : Column.ofName? name = some column) {value : Json} {cell : Option Cell}
    (hvalue : Cell.ofJson value = .ok cell) (hset : t.setColumn id column cell = .ok after) :
    (s.change (.set id name value)).store.Shows { db with entries := some after } := by
  have hprepared : (Steps.needing Steps.entriesName (·.entries) db).orElse (fun _ =>
      if (Column.ofName? name).isSome then none else some (.noColumn name)) = none := by
    rw [Steps.needing_eq_none ht, hcolumn]
    rfl
  have hgives : Steps.Gives none (Steps.setColumn id name value) db 1
      { db with entries := some after } := by
    refine Steps.Gives.bind (Steps.Gives.prepare hprepared) (Steps.Gives.bind (a := cell) ?_
      (Steps.Gives.bind (Steps.Gives.bindInteger hid) (Steps.Gives.bind (Steps.Gives.run ht) ?_)))
    · rw [hvalue]
      exact Steps.Gives.bind Steps.Gives.accept (Steps.Gives.pure cell)
    · rw [hhas, hcolumn, Option.getD_some, hset]
      refine Steps.Gives.get fun c hc => ?_
      rw [hc]
      exact Steps.Gives.bind Steps.Gives.setDatabase (Steps.Gives.pure 1)
  obtain ⟨⟨path, state⟩, tree⟩ := s
  obtain ⟨memory, rfl⟩ := hshows
  obtain ⟨memory', hrun⟩ := hgives memory
  refine ⟨memory', ?_⟩
  simp only [change, Access.editing, hrun]

/-- Two forms are saved, and then the date of the second one is overwritten, for examples. -/
def Change.oneDamaged : List Change :=
  Change.twoSaved ++ [.set 2 "date_published" (.text "not-a-date")]

theorem Session.shows_oneDamaged : ∃ db t,
    ((new (.ofText "archive.db") ⟨[], []⟩).alter Change.oneDamaged).store.Shows db ∧
    db.entries = some t ∧
    t.rows = [Saved.row ⟨1, .sample, .first⟩,
      { Saved.row ⟨2, { Form.sample with title := "Othello" }, .first⟩ with
        published := .text "not-a-date" }] := by
  obtain ⟨db, t, hshows, ht, hrows, -⟩ := shows_twoSaved
  have hhas : t.has 2 = true := by
    rw [EntryTable.has, hrows]
    rfl
  have hdamaged := shows_set hshows ht (by decide) hhas
    (by decide +kernel : Column.ofName? "date_published" = some .published)
    (rfl : Cell.ofJson (.text "not-a-date") = .ok (some (.text "not-a-date"))) rfl
  refine ⟨_, _, hdamaged, rfl, ?_⟩
  rw [EntryTable.modify, hrows]
  rfl

/-- Where the second of two rows has lost its date, the page of the first one alone is given, and
the page of both fails. -/
theorem Session.page_fails_iff_damaged : ∃ db t page after fault after',
    ((new (.ofText "archive.db") ⟨[], []⟩).alter Change.oneDamaged).store.Shows db ∧
    db.entries = some t ∧ (∃ row ∈ t.rows, row.IsMalformed) ∧
    Access.retrieve 10 0 ⟨[.contains .title "amlet"], 0, none⟩
      ((new (.ofText "archive.db") ⟨[], []⟩).alter Change.oneDamaged).store = .ok page after ∧
    page.entries = [Saved.entry ⟨1, .sample, .first⟩] ∧
    Access.retrieve 10 0 ⟨[.contains .title "e"], 0, none⟩
      ((new (.ofText "archive.db") ⟨[], []⟩).alter Change.oneDamaged).store =
        .error (.storage fault) after' := by
  obtain ⟨db, t, hshows, ht, hrows⟩ := shows_oneDamaged
  have hordered := isOrdered_of_shows _ _ _ hshows ht
  have hfinite : ∀ row ∈ t.rows, row.IsFinite := by
    rw [hrows, List.forall_mem_cons, List.forall_mem_singleton]
    exact ⟨⟨nofun, nofun⟩, ⟨nofun, nofun⟩⟩
  have hmalformed : Row.IsMalformed
      { Saved.row ⟨2, { Form.sample with title := "Othello" }, .first⟩ with
        published := .text "not-a-date" } := .published rfl
  have hfits (title : String) : (Query.mk [.contains .title title] 0 none).isFiltered →
      2 ≤ depthLimit ∧ FitsWord (10 : Nat) := fun _ => by decide
  refine ⟨db, t, ?_⟩
  obtain ⟨picked, total, answer, after, hpicks, hresult, -, -, hfails, hcases⟩ :=
    page_fails_iff _ _ _ hshows ht hfinite
      (compile_title (by decide : '%' ∉ "amlet".toList) (by decide)).1 (hfits _) 0
  obtain ⟨picked', total', answer', after', hpicks', hresult', -, -, hfails', -⟩ :=
    page_fails_iff _ _ _ hshows ht hfinite
      (compile_title (by decide : '%' ∉ "e".toList) (by decide)).1 (hfits _) 0
  have hfirst : picked = [Saved.row ⟨1, .sample, .first⟩] := by
    rw [(hpicks.unique (hordered.picks_picked _ _ _)).1, EntryTable.picked, EntryTable.matching,
      hrows]
    rfl
  have hboth : picked' = t.rows := by
    rw [(hpicks'.unique (hordered.picks_picked _ _ _)).1, EntryTable.picked, EntryTable.matching,
      hrows]
    rfl
  have hdecided : ¬(Query.mk [.contains .title "amlet"] 0 none).Overreaches t := by
    rintro ⟨-, row, hrow, herror⟩
    rw [hrows, List.mem_cons, List.mem_singleton] at hrow
    obtain rfl | rfl := hrow
    · cases herror
    · cases herror
  have hgiven : ¬∃ fault, answer = .error (.storage fault) := by
    rw [hfails, hfirst]
    rintro (hlong | ⟨row, hrow, hrow'⟩)
    · exact hdecided hlong
    · obtain rfl := List.mem_singleton.mp hrow
      exact Row.exists_entry_iff.mp ⟨_, Saved.entry_row _⟩ hrow'
  obtain ⟨page, rfl, hlists⟩ := hcases.resolve_left hgiven
  obtain ⟨fault, rfl⟩ := hfails'.mpr (.inr ⟨_, by simp [hboth, hrows], hmalformed⟩)
  refine ⟨page, after, fault, after', hshows, ht, ⟨_, by simp [hrows], hmalformed⟩, hresult, ?_,
    hresult'⟩
  have hentries := hlists.entries
  rw [hfirst, List.map_singleton, Saved.entry_row, ← List.map_singleton] at hentries
  exact (List.map_injective_iff.mpr (fun _ _ => Except.ok.inj) hentries).symm

/-- A query of a thousand clauses and a title that is too long to be searched for make a page fail
as well, and where no column can hold the page size its failure is none of the store; no row is
malformed there. -/
theorem Session.page_fails_without_malformed :
    (∃ q db t after, compile (flags 999) = .ok q ∧
      ((new (.ofText "archive.db") ⟨[], []⟩).alter [.move .open_]).store.Shows db ∧
      db.entries = some t ∧ (∀ row ∈ t.rows, ¬row.IsMalformed) ∧
      Access.retrieve 10 0 q ((new (.ofText "archive.db") ⟨[], []⟩).alter [.move .open_]).store =
        .error (.storage .scanFailed) after) ∧
    (∃ q db t after, compile ("title" ++ "=" ++ titleOf 50001) = .ok q ∧
      ((new (.ofText "archive.db") ⟨[], []⟩).alter Change.twoSaved).store.Shows db ∧
      db.entries = some t ∧ (∀ row ∈ t.rows, ¬row.IsMalformed) ∧
      Access.retrieve 10 0 q ((new (.ofText "archive.db") ⟨[], []⟩).alter Change.twoSaved).store =
        .error (.storage .scanFailed) after) ∧
    ∃ q db t after, compile (flags 0) = .ok q ∧
      ((new (.ofText "archive.db") ⟨[], []⟩).alter [.move .open_]).store.Shows db ∧
      db.entries = some t ∧ (∀ row ∈ t.rows, ¬row.IsMalformed) ∧
      Access.retrieve (2 ^ 63) 0 q
        ((new (.ofText "archive.db") ⟨[], []⟩).alter [.move .open_]).store =
        .error (.unbound .integerTooLarge) after := by
  obtain ⟨db, hstore, ht⟩ : ∃ db : Database,
      ((new (.ofText "archive.db") ⟨[], []⟩).alter [.move .open_]).store =
        ⟨.ofText "archive.db", .connected ⟨db, none, .blank, .quiet⟩⟩ ∧ db.entries = some .empty :=
    ⟨_, rfl, rfl⟩
  have hempty : ∀ row ∈ EntryTable.empty.rows, ¬row.IsMalformed := by simp [EntryTable.empty]
  refine ⟨?_, ?_, ?_⟩
  · obtain ⟨after, hscan⟩ := Access.scan_tooDeep (q := ⟨_, 0, none⟩) flags_tooDeep 10
      (.ofText "archive.db") db (rfl : Memory.blank.prepared.contains _ = false)
    rw [hstore]
    exact ⟨_, db, _, after, compile_flags 999, ⟨_, rfl⟩, ht, hempty,
      Access.retrieve_error rfl hscan⟩
  · obtain ⟨db, t, hshows, ht, hrows, hentries⟩ := shows_twoSaved
    have hcompile := (compile_title (not_mem_titleOf (by decide) 50001)
      (not_mem_titleOf (by decide) 50001)).1
    have hlong : (Query.mk [.contains .title (titleOf 50001)] 0 none).Overreaches t :=
      overreaches_titleOf (by omega) (Saved.row ⟨1, .sample, .first⟩) (by simp [hrows])
    have hscan : (Query.mk [.contains .title (titleOf 50001)] 0 none).FitsScan 10 :=
      ⟨(by decide : 2 ≤ depthLimit), (by decide : FitsWord (10 : Nat)), by decide⟩
    have hgives := Access.Gives.retrieve 0 ht fun _ => hscan
    rw [EntryTable.page_overreaching hlong] at hgives
    obtain ⟨after, hresult, -⟩ := hgives.of_shows hshows
    exact ⟨_, db, t, after, hcompile, hshows, ht,
      fun row hrow => Row.exists_entry_iff.mp (hentries row hrow), hresult⟩
  · exact ⟨_, _, .empty, _, compile_flags 0, ⟨_, rfl⟩, rfl, hempty, rfl⟩

end Catalogue
