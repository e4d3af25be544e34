import Catalogue.Proofs.Store.Filtered
import Mathlib.Data.List.Lattice

/-! Pages of the walk through a whole table, whatever its rows.  The order of a seed decides which
rows a page has, by their ordinals; the order of the page is that of the numbers.  Parts of the walk
that do not overlap have no row in common. -/

namespace Catalogue

open Catalogue.Filter Number

/-! ### Rows at some ordinals -/

section Rows

variable {wanted : List Nat} {rows : List Row}

theorem rowsAt_sublist (wanted : List Nat) (i : Nat) (rows : List Row) :
    (rowsAt wanted i rows).Sublist rows := by
  induction rows generalizing i with
  | nil => exact .slnil
  | cons row rows ih =>
    rw [rowsAt]
    split
    · exact (ih (i + 1)).cons_cons row
    · exact (ih (i + 1)).cons row

theorem mem_rowsAt_iff {i : Nat} {row : Row} :
    row ∈ rowsAt wanted i rows ↔ ∃ k, i + k ∈ wanted ∧ rows[k]? = some row := by
  induction rows generalizing i with
  | nil => simp [rowsAt]
  | cons first rows ih =>
    have htail : row ∈ rowsAt wanted (i + 1) rows ↔
        ∃ k, i + (k + 1) ∈ wanted ∧ (first :: rows)[k + 1]? = some row := by
      simp only [ih, List.getElem?_cons_succ, Nat.add_assoc, Nat.add_comm 1]
    have hhead : (∃ k, i + k ∈ wanted ∧ (first :: rows)[k]? = some row) ↔
        (i ∈ wanted ∧ first = row) ∨
          ∃ k, i + (k + 1) ∈ wanted ∧ (first :: rows)[k + 1]? = some row := by
      constructor
      · rintro ⟨k, hk, hrow⟩
        cases k with
        | zero => exact .inl ⟨hk, by simpa using hrow⟩
        | succ k => exact .inr ⟨k, hk, hrow⟩
      · rintro (⟨hi, rfl⟩ | ⟨k, hk, hrow⟩)
        · exact ⟨0, hi, rfl⟩
        · exact ⟨k + 1, hk, hrow⟩
    rw [hhead, ← htail, rowsAt]
    split
    · next hi => simp [List.contains_iff_mem.mp hi, eq_comm]
    · next hi => simp [List.contains_iff_mem.not.mp hi]

theorem length_rowsAt (hnodup : wanted.Nodup) (h : ∀ k ∈ wanted, k < rows.length) :
    (rowsAt wanted 0 rows).length = wanted.length := by
  rw [rowsAt_eq wanted 0 rows (.ofForm 1 .sample (.text "")), List.length_map,
    ← List.range_eq_range', (filter_range_perm hnodup h).length_eq]

end Rows

theorem Row.id_of_entry {row : Row} {e : Entry} (h : row.entry = .ok e) : e.id = row.id := by
  rw [Row.entry] at h
  obtain ⟨_, _, h⟩ := bind_eq_ok.mp h
  obtain ⟨_, _, h⟩ := bind_eq_ok.mp h
  obtain ⟨_, _, h⟩ := bind_eq_ok.mp h
  cases h
  rfl

theorem map_id_of_entries {rows : List Row} {entries : List Entry}
    (h : rows.map Row.entry = entries.map .ok) : entries.map Entry.id = rows.map Row.id := by
  induction rows generalizing entries with
  | nil => simpa using h
  | cons row rows ih =>
    cases entries with
    | nil => cases h
    | cons e entries =>
      obtain ⟨hrow, hrest⟩ := List.cons.inj h
      rw [List.map_cons, List.map_cons, Row.id_of_entry hrow, ih hrest]

/-! ### Pages -/

/-- The page shows some rows of the table, by ascending number: those of which the ordinal stands in
the order of the seed at one of `pageSize` places from `offset` on.  It tells how many rows the
table has, its place, the next one and the seed. -/
structure Page.IsDrawn (page : Page) (t : EntryTable) (pageSize : Nat) (seed : Int) (offset : Nat)
    (rows : List Row) : Prop where
  entries : rows.map Row.entry = page.entries.map .ok
  ascending : rows.Pairwise fun a b => a.id < b.id
  mem_iff : ∀ row, row ∈ rows ↔ ∃ place ordinal : Nat, offset ≤ place ∧ place < offset + pageSize ∧
    (Shuffle.order seed.natAbs t.rows.length)[place]? = some ordinal ∧ t.rows[ordinal]? = some row
  length : page.entries.length =
    if offset < t.rows.length then min pageSize (t.rows.length - offset) else 0
  total : page.total = t.rows.length
  place : page.offset = offset
  next : page.nextOffset = offset + page.entries.length
  seed : page.seed = seed

namespace EntryTable

variable {t : EntryTable}

/-- The rows on a page of the walk. -/
def drawn (t : EntryTable) (pageSize : Nat) (seed : Int) (offset : Nat) : List Row :=
  rowsAt (Shuffle.part seed.natAbs t.rows.length offset pageSize) 0 t.rows

theorem mem_drawn_iff {pageSize : Nat} {seed : Int} {offset : Nat} {row : Row} :
    row ∈ t.drawn pageSize seed offset ↔
      ∃ k ∈ Shuffle.part seed.natAbs t.rows.length offset pageSize, t.rows[k]? = some row := by
  simp only [drawn, mem_rowsAt_iff, Nat.zero_add]

theorem mem_drawn_iff_place {pageSize : Nat} {seed : Int} {offset : Nat} {row : Row} :
    row ∈ t.drawn pageSize seed offset ↔ ∃ place ordinal : Nat, offset ≤ place ∧
      place < offset + pageSize ∧
      (Shuffle.order seed.natAbs t.rows.length)[place]? = some ordinal ∧
      t.rows[ordinal]? = some row := by
  simp only [mem_drawn_iff, Shuffle.mem_part_iff]
  constructor
  · rintro ⟨k, ⟨place, hoffset, hplace, hat⟩, hrow⟩
    exact ⟨place, k, hoffset, hplace, hat, hrow⟩
  · rintro ⟨place, k, hoffset, hplace, hat, hrow⟩
    exact ⟨k, ⟨place, hoffset, hplace, hat⟩, hrow⟩

theorem length_drawn (t : EntryTable) (pageSize : Nat) (seed : Int) (offset : Nat) :
    (t.drawn pageSize seed offset).length = min pageSize (t.rows.length - offset) := by
  rw [drawn, length_rowsAt (Shuffle.nodup_part _ _ _ _) fun k hk => Shuffle.lt_of_mem_part hk,
    Shuffle.length_part]

/-- The numbers of rows on pages that do not overlap are different. -/
theorem IsOrdered.disjoint_drawn (h : t.IsOrdered) (pageSize : Nat) (seed : Int)
    {offset later : Nat} (hlater : offset + pageSize ≤ later) :
    ((t.drawn pageSize seed offset).map Row.id).Disjoint
      ((t.drawn pageSize seed later).map Row.id) := by
  intro id hid hid'
  obtain ⟨row, hrow, rfl⟩ := List.mem_map.mp hid
  obtain ⟨row', hrow', hsame⟩ := List.mem_map.mp hid'
  obtain ⟨k, hk, hat⟩ := mem_drawn_iff.mp hrow
  obtain ⟨k', hk', hat'⟩ := mem_drawn_iff.mp hrow'
  obtain ⟨hlt, rfl⟩ := List.getElem?_eq_some_iff.mp hat
  obtain ⟨hlt', rfl⟩ := List.getElem?_eq_some_iff.mp hat'
  have hordinals : k = k' := by
    rcases Nat.lt_trichotomy k k' with hk | hk | hk
    · exact absurd hsame (Int.ne_of_gt (List.pairwise_iff_getElem.mp h k k' hlt hlt' hk))
    · exact hk
    · exact absurd hsame (Int.ne_of_lt (List.pairwise_iff_getElem.mp h k' k hlt' hlt hk))
  subst hordinals
  exact Shuffle.disjoint_part hlater hk hk'

/-- Where every row reads as an entry, a page of the walk is given at every offset. -/
theorem IsOrdered.exists_discoveredPage (h : t.IsOrdered)
    (hentries : ∀ row ∈ t.rows, ∃ e, row.entry = .ok e) (pageSize : Nat) (seed : Int)
    (offset : Nat) :
    ∃ page, discoveredPage t pageSize seed offset = .ok page ∧
      page.IsDrawn t pageSize seed offset (t.drawn pageSize seed offset) := by
  have hpart : (t.drawn pageSize seed offset).Sublist t.rows := rowsAt_sublist _ _ _
  obtain ⟨entries, hread⟩ := exists_entriesOf fun row hrow => hentries row (hpart.subset hrow)
  have hshown := entriesOf_eq_ok hread
  have hlength := congrArg List.length hshown
  rw [List.length_map, List.length_map, length_drawn] at hlength
  refine ⟨⟨entries, offset, offset + entries.length, t.rows.length, seed⟩, ?_, ?_⟩
  · rw [discoveredPage, discoveredRows_eq]
    change (entriesOf (t.drawn pageSize seed offset)).mapError _ >>= _ = _
    rw [hread]
    rfl
  · refine ⟨hshown, h.sublist hpart, fun row => mem_drawn_iff_place, ?_, rfl, rfl, rfl, rfl⟩
    dsimp only
    split <;> omega

end EntryTable

/-- The pages of the walk through a table of which every row reads as an entry, whatever was done to
the store before: at every offset the page has the rows whose ordinals stand there in the order of
the seed, which is one of all ordinals, and it shows them by ascending number.  Pages that do not
overlap have no number in common.  A query without clauses is answered with a page of the walk. -/
theorem Session.discovered_pages (path : Path) (tree : FileTree) (changes : List Change)
    {db : Database} (hshows : ((new path tree).alter changes).store.Shows db) {t : EntryTable}
    (ht : db.entries = some t) (hentries : ∀ row ∈ t.rows, ∃ e, row.entry = .ok e) :
    t.IsOrdered ∧
    (∀ (pageSize generated : Nat) (q : Query), q.isFiltered = false →
      Access.retrieve pageSize generated q =
        Access.discover pageSize (q.seed.getD generated : Nat) q.offset) ∧
    ∀ (pageSize : Nat) (seed : Int),
      (Shuffle.order seed.natAbs t.rows.length).Perm (List.range t.rows.length) ∧
      ∃ page : Nat → Page, ∀ offset : Nat,
        (∃ after, Access.discover pageSize seed offset ((new path tree).alter changes).store =
          .ok (page offset) after ∧ after.Shows db) ∧
        (∃ rows, (page offset).IsDrawn t pageSize seed offset rows) ∧
        ∀ later, offset + pageSize ≤ later →
          ((page offset).entries.map Entry.id).Disjoint ((page later).entries.map Entry.id) := by
  have hordered := isOrdered_of_shows path tree changes hshows ht
  refine ⟨hordered, fun pageSize generated q hq => ?_, fun pageSize seed => ?_⟩
  · rw [Access.retrieve, if_neg (by simp [hq])]
  · refine ⟨Shuffle.order_perm _ _, ?_⟩
    choose page hpage hdrawn using hordered.exists_discoveredPage hentries pageSize seed
    refine ⟨page, fun offset => ⟨?_, ⟨_, hdrawn offset⟩, fun later hlater => ?_⟩⟩
    · have hgives := Access.Gives.discover pageSize seed offset ht
      rw [hpage offset] at hgives
      obtain ⟨after, hresult, hafter, -⟩ := hgives.of_shows hshows
      exact ⟨after, hresult, hafter⟩
    · rw [map_id_of_entries (hdrawn offset).entries, map_id_of_entries (hdrawn later).entries]
      exact hordered.disjoint_drawn pageSize seed hlater

/-- Of two entries every page of one shows another; a page behind them shows nothing. -/
theorem Session.discovered_pages_sample : ∃ db t first second past after after' after'',
    ((new (.ofText "archive.db") ⟨[], []⟩).alter Change.twoSaved).store.Shows db ∧
    db.entries = some t ∧ (∀ row ∈ t.rows, ∃ e, row.entry = .ok e) ∧
    Access.discover 1 (-7) (0 : Nat)
      ((new (.ofText "archive.db") ⟨[], []⟩).alter Change.twoSaved).store = .ok first after ∧
    Access.discover 1 (-7) (1 : Nat)
      ((new (.ofText "archive.db") ⟨[], []⟩).alter Change.twoSaved).store = .ok second after' ∧
    Access.discover 1 (-7) (2 : Nat)
      ((new (.ofText "archive.db") ⟨[], []⟩).alter Change.twoSaved).store = .ok past after'' ∧
    first.entries.length = 1 ∧ second.entries.length = 1 ∧ past.entries.length = 0 ∧
    (first.entries.map Entry.id).Disjoint (second.entries.map Entry.id) := by
  obtain ⟨db, t, hshows, ht, hrows, hentries⟩ := shows_twoSaved
  have hlength : t.rows.length = 2 := congrArg List.length hrows
  obtain ⟨page, hpages⟩ := ((discovered_pages _ _ _ hshows ht hentries).2.2 1 (-7)).2
  obtain ⟨⟨after, hfirst, -⟩, ⟨_, hdrawn⟩, hdisjoint⟩ := hpages 0
  obtain ⟨⟨after', hsecond, -⟩, ⟨_, hdrawn'⟩, -⟩ := hpages 1
  obtain ⟨⟨after'', hpast, -⟩, ⟨_, hdrawn''⟩, -⟩ := hpages 2
  refine ⟨db, t, page 0, page 1, page 2, after, after', after'', hshows, ht, hentries, hfirst,
    hsecond, hpast, ?_, ?_, ?_, hdisjoint 1 (Nat.le_refl 1)⟩
  · rw [hdrawn.length, hlength]
    rfl
  · rw [hdrawn'.length, hlength]
    rfl
  · rw [hdrawn''.length, hlength]
    rfl

end Catalogue
