import Catalogue.Filter.Compile
import Catalogue.Proofs.Store.Discovery
import Catalogue.Proofs.Store.Selection
import Mathlib.Data.Int.Interval

/-! Pages of a query, with clauses or without.  Either way there is an order of the entries in
question, for each seed, of which every page takes the part that its offset and its size say. -/

namespace Catalogue

open Catalogue.Filter Number

theorem fits_of_le_maxOffset {n : Nat} (h : n ≤ maxOffset) : FitsWord n := by
  have hmax : maxOffset = 2 ^ 63 - 1 := rfl
  have hbound : (wordBound : Int) = 2 ^ 63 := rfl
  rw [FitsWord, hbound]
  omega

/-- A scan of the table for the query is not refused: it can be prepared, and it comes to no pattern
that is too long. -/
structure Query.Scans (q : Query) (t : EntryTable) (pageSize : Nat) : Prop
    extends q.FitsScan pageSize where
  searchable : ¬q.Overreaches t

namespace EntryTable

/-- The pages of a query with a seed are parts of `order`. -/
def Parts (t : EntryTable) (pageSize : Nat) (q : Query) (seed : Nat) (order : List Entry) : Prop :=
  ∀ generated offset : Nat, ∃ entries,
    t.page pageSize generated { q with offset := offset, seed := some seed } =
        .ok ⟨entries, offset, offset + entries.length, order.length, seed⟩ ∧
      entries.Perm ((order.drop offset).take pageSize)

variable {t : EntryTable} {saved : List Saved} {q : Query} {pageSize : Nat}

theorem Holds.matching (h : t.Holds saved) (q : Query) :
    t.matching q = (saved.filter fun s => s.row.matches_ q).map Saved.row := by
  rw [EntryTable.matching, h.rows, List.filter_map]
  rfl

theorem Holds.filteredPage (h : t.Holds saved)
    (hq : ¬q.Overreaches t) (pageSize : Nat) (seed : Int) :
    ∃ entries, t.filteredPage pageSize seed q = .ok ⟨entries, q.offset, q.offset + entries.length,
        (saved.filter fun s => s.row.matches_ q).length, seed⟩ ∧
      entries = (((saved.filter fun s => s.row.matches_ q).map Saved.entry).drop q.offset).take
        pageSize := by
  refine ⟨_, ?_, rfl⟩
  rw [EntryTable.filteredPage, select_eq_ok hq, h.matching]
  dsimp only
  rw [← List.map_drop, ← List.map_take, entriesOf_map, ← List.map_drop, ← List.map_take,
    List.length_map]
  rfl

/-- The pages of every query whose scan is not refused are parts of an order of the entries in
question. -/
theorem Holds.exists_parts (h : t.Holds saved) (hq : q.isFiltered → q.Scans t pageSize)
    (seed : Nat) :
    ∃ order, t.Parts pageSize q seed order ∧
      order.Perm ((saved.filter fun s => s.row.matches_ q).map Saved.entry) := by
  by_cases hfiltered : q.isFiltered
  · refine ⟨_, fun generated offset => ?_, .refl _⟩
    obtain ⟨entries, hpage, hentries⟩ :=
      h.filteredPage (q := { q with offset := offset, seed := some seed }) (hq hfiltered).searchable
        pageSize seed
    refine ⟨entries, ?_, .of_eq hentries⟩
    rw [List.length_map]
    exact (if_pos hfiltered).trans hpage
  · have hall : (saved.filter fun s => s.row.matches_ q).map Saved.row = saved.map Saved.row := by
      rw [← h.matching, matching_of_not_isFiltered t hfiltered, h.rows]
    have hentries : (saved.filter fun s => s.row.matches_ q).map Saved.entry =
        saved.map Saved.entry := by
      have := congrArg entriesOf hall
      rw [entriesOf_map, entriesOf_map] at this
      exact Except.ok.inj this
    rw [hentries]
    refine ⟨Saved.discovered saved seed, fun generated offset => ?_, Saved.discovered_perm _ _⟩
    obtain ⟨entries, hpage, hperm⟩ := h.discoveredPage pageSize seed offset
    have hlength : (Saved.discovered saved seed).length = saved.length := by
      rw [(Saved.discovered_perm saved seed).length_eq, List.length_map]
    refine ⟨entries, ?_, hperm⟩
    rw [hlength]
    exact (if_neg hfiltered).trans hpage

/-- A table has room for the numbers of its entries alone, so its length fits into a column. -/
theorem Holds.length_le (h : t.Holds saved) : (saved.length : Int) ≤ maxInteger := by
  have hsubset : (saved.map Saved.id).toFinset ⊆ Finset.Icc 1 t.lastId := by
    intro id hid
    obtain ⟨s, hs, rfl⟩ := List.mem_map.mp (List.mem_toFinset.mp hid)
    have := h.bounds s hs
    rw [Finset.mem_Icc]
    omega
  have hcard := Finset.card_le_card hsubset
  have hnodup : (saved.map Saved.id).Nodup := h.ascending.imp fun hlt => Int.ne_of_lt hlt
  rw [List.toFinset_card_of_nodup hnodup, List.length_map, Int.card_Icc] at hcard
  have := h.lastId
  omega

theorem Holds.offset_fits (h : t.Holds saved) {offset : Nat} (hoffset : offset ≤ saved.length) :
    FitsWord offset ∧ offset ≤ maxOffset := by
  have hbelow : offset ≤ maxOffset := by
    have hlength := h.length_le
    have hmax : maxOffset = 2 ^ 63 - 1 := rfl
    have hinteger : maxInteger = 2 ^ 63 - 1 := rfl
    omega
  exact ⟨fits_of_le_maxOffset hbelow, hbelow⟩

end EntryTable

end Catalogue
