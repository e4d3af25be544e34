import Catalogue.Proofs.Store.Saved
import Mathlib.Data.List.GetD
import Mathlib.Data.List.Nodup

/-! Pages of the walk through a whole table.  The order of a seed is a permutation of the ordinals;
a page takes a part of that order, and has each row of the part once, though in another order. -/

namespace Catalogue

namespace Shuffle

theorem swapIfInBounds_perm (ordinals : Array Nat) (i j : Nat) :
    (ordinals.swapIfInBounds i j).Perm ordinals := by
  unfold Array.swapIfInBounds
  split
  · split
    · exact Array.swap_perm _ _
    · exact .refl _
  · exact .refl _

theorem exchange_perm (i : Nat) (g : Generator) (ordinals : Array Nat) :
    (exchange i g ordinals).Perm ordinals := by
  induction i generalizing g ordinals with
  | zero => exact .refl _
  | succ i ih => exact (ih _ _).trans (swapIfInBounds_perm _ _ _)

theorem order_perm (seed count : Nat) : (order seed count).Perm (List.range count) := by
  have h := exchange_perm (count - 1) (.ofSeed seed) (Array.range count)
  rw [Array.perm_iff_toList_perm, Array.toList_range] at h
  exact h

theorem length_order (seed count : Nat) : (order seed count).length = count := by
  rw [(order_perm seed count).length_eq, List.length_range]

theorem nodup_order (seed count : Nat) : (order seed count).Nodup :=
  (order_perm seed count).nodup_iff.mpr List.nodup_range

/-- The numbers that stand in the order of a seed at `size` places from `offset` on. -/
def part (seed count offset size : Nat) : List Nat := ((order seed count).drop offset).take size

section Part

variable (seed count offset size : Nat)

theorem nodup_part : (part seed count offset size).Nodup :=
  (nodup_order seed count).sublist ((List.take_sublist _ _).trans (List.drop_sublist _ _))

theorem length_part : (part seed count offset size).length = min size (count - offset) := by
  rw [part, List.length_take, List.length_drop, length_order]

variable {seed count offset size}

theorem lt_of_mem_part {k : Nat} (h : k ∈ part seed count offset size) : k < count := by
  have hmem := List.mem_of_mem_drop (List.mem_of_mem_take h)
  rw [(order_perm seed count).mem_iff] at hmem
  exact List.mem_range.mp hmem

theorem mem_part_iff {k : Nat} : k ∈ part seed count offset size ↔
    ∃ place, offset ≤ place ∧ place < offset + size ∧ (order seed count)[place]? = some k := by
  rw [part, List.mem_iff_getElem?]
  constructor
  · rintro ⟨i, hi⟩
    rw [List.getElem?_take] at hi
    split at hi
    · rw [List.getElem?_drop] at hi
      exact ⟨offset + i, by omega, by omega, hi⟩
    · cases hi
  · rintro ⟨place, hoffset, hsize, hk⟩
    refine ⟨place - offset, ?_⟩
    rwa [List.getElem?_take_of_lt (by omega), List.getElem?_drop, Nat.add_sub_cancel' hoffset]

/-- No number stands in two parts that do not overlap. -/
theorem disjoint_part {later : Nat} (h : offset + size ≤ later) :
    (part seed count offset size).Disjoint (part seed count later size) := by
  intro k hk hk'
  obtain ⟨place, -, hplace, hat⟩ := mem_part_iff.mp hk
  obtain ⟨place', hplace', -, hat'⟩ := mem_part_iff.mp hk'
  have hlength : place < (order seed count).length := by
    rw [List.getElem?_eq_some_iff] at hat
    exact hat.1
  have hsame : place = place' :=
    (List.getElem?_inj hlength (nodup_order seed count)).mp (hat.trans hat'.symm)
  omega

end Part

end Shuffle

theorem slice_eq {α : Type} (items : List α) (start size : Nat) :
    slice items start (start + size) = (items.drop start).take size := by
  have hplace (i : Nat) : placeIn items.length i = min i items.length := by
    rw [placeIn, if_neg (by omega), Int.toNat_natCast]
  have hstop : placeIn items.length (start + size) = min (start + size) items.length :=
    hplace (start + size)
  rw [slice, hplace, hstop]
  by_cases h : start ≤ items.length
  · rw [Nat.min_eq_left h, List.take_eq_take_iff, List.length_drop]
    omega
  · rw [List.drop_eq_nil_of_le (by omega), List.drop_eq_nil_of_le (by omega), List.take_nil,
      List.take_nil]

theorem rowsAt_eq (wanted : List Nat) (i : Nat) (rows : List Row) (other : Row) :
    rowsAt wanted i rows = ((List.range' i rows.length).filter (wanted.contains ·)).map
      fun k => rows.getD (k - i) other := by
  induction rows generalizing i with
  | nil => rfl
  | cons row rows ih =>
    have htail : ((List.range' (i + 1) rows.length).filter (wanted.contains ·)).map
        (fun k => rows.getD (k - (i + 1)) other) =
        ((List.range' (i + 1) rows.length).filter (wanted.contains ·)).map
          fun k => (row :: rows).getD (k - i) other := by
      refine List.map_congr_left fun k hk => ?_
      have hk : i + 1 ≤ k := (List.mem_range'_1.mp (List.mem_of_mem_filter hk)).1
      have hback : k - i = k - (i + 1) + 1 := by omega
      rw [hback, List.getD_cons_succ]
    rw [rowsAt, ih, htail, List.length_cons, List.range'_succ, List.filter_cons]
    split <;> simp

/-- The numbers below a bound that are wanted are the wanted ones, in order. -/
theorem filter_range_perm {wanted : List Nat} {count : Nat} (hnodup : wanted.Nodup)
    (h : ∀ k ∈ wanted, k < count) :
    ((List.range count).filter (wanted.contains ·)).Perm wanted := by
  -- Both lists have the same members, none of them twice.
  rw [List.perm_ext_iff_of_nodup (List.nodup_range.filter _) hnodup]
  intro k
  rw [List.mem_filter, List.mem_range, List.contains_iff_mem]
  exact ⟨And.right, fun hk => ⟨h k hk, hk⟩⟩

/-- A page of the walk has the rows at its part of the order. -/
theorem discoveredRows_eq (t : EntryTable) (pageSize : Nat) (seed : Int) (offset : Nat) :
    discoveredRows t pageSize seed offset =
      rowsAt (Shuffle.part seed.natAbs t.rows.length offset pageSize) 0 t.rows := by
  rw [discoveredRows, slice_eq]
  split
  · rfl
  · next hpast =>
    have hlength := Shuffle.length_part seed.natAbs t.rows.length offset pageSize
    have hnone : Shuffle.part seed.natAbs t.rows.length offset pageSize = [] :=
      List.length_eq_zero_iff.mp (by omega)
    have hempty (rows : List Row) (i : Nat) : rowsAt [] i rows = [] := by
      induction rows generalizing i with
      | nil => rfl
      | cons row rows ih => exact ih (i + 1)
    rw [hnone, hempty]

theorem entriesOf_map (saved : List Saved) :
    entriesOf (saved.map Saved.row) = .ok (saved.map Saved.entry) := by
  induction saved with
  | nil => rfl
  | cons s saved ih =>
    rw [List.map_cons, entriesOf, List.mapM_cons, s.entry_row]
    change (entriesOf (saved.map Saved.row) >>= fun entries => pure (s.entry :: entries)) = _
    rw [ih]
    rfl

namespace Saved

/-- The saved form at an ordinal. -/
def at_ (saved : List Saved) (k : Nat) : Saved := saved.getD k ⟨1, .sample, .first⟩

/-- The entries in the order of a seed. -/
def discovered (saved : List Saved) (seed : Nat) : List Entry :=
  (Shuffle.order seed saved.length).map fun k => (at_ saved k).entry

theorem map_at_range (saved : List Saved) :
    (List.range saved.length).map (at_ saved) = saved := by
  refine List.ext_getElem (by simp) fun k _ hk => ?_
  rw [List.getElem_map, List.getElem_range, at_, List.getD_eq_getElem _ _ hk]

theorem discovered_perm (saved : List Saved) (seed : Nat) :
    (discovered saved seed).Perm (saved.map entry) := by
  have hrange : (List.range saved.length).map (fun k => (at_ saved k).entry) =
      saved.map entry := by
    conv_rhs => rw [← map_at_range saved, List.map_map]
    rfl
  rw [← hrange]
  exact (Shuffle.order_perm seed saved.length).map _

/-- The rows at some ordinals, as they come in the table and as they are wanted. -/
theorem rowsAt_row {saved : List Saved} {wanted : List Nat} (hnodup : wanted.Nodup)
    (h : ∀ k ∈ wanted, k < saved.length) :
    ∃ chosen : List Saved, rowsAt wanted 0 (saved.map row) = chosen.map row ∧
      chosen.Perm (wanted.map (at_ saved)) := by
  refine ⟨((List.range saved.length).filter (wanted.contains ·)).map (at_ saved), ?_, ?_⟩
  · rw [rowsAt_eq wanted 0 _ (row ⟨1, .sample, .first⟩), List.length_map, List.range_eq_range',
      List.map_map]
    refine List.map_congr_left fun k _ => ?_
    rw [Nat.sub_zero, List.getD_map]
    rfl
  · exact (filter_range_perm hnodup h).map _

end Saved

/-- A page of the walk has the entries of its part of the order. -/
theorem EntryTable.Holds.discoveredPage {t : EntryTable} {saved : List Saved} (h : t.Holds saved)
    (pageSize seed offset : Nat) :
    ∃ entries, discoveredPage t pageSize seed offset =
        .ok ⟨entries, offset, offset + entries.length, saved.length, seed⟩ ∧
      entries.Perm (((Saved.discovered saved seed).drop offset).take pageSize) := by
  have hlength : t.rows.length = saved.length := by rw [h.rows, List.length_map]
  obtain ⟨chosen, hrows, hperm⟩ := Saved.rowsAt_row
    (Shuffle.nodup_part seed saved.length offset pageSize) fun k hk => Shuffle.lt_of_mem_part hk
  refine ⟨chosen.map Saved.entry, ?_, ?_⟩
  · rw [Catalogue.discoveredPage, discoveredRows_eq, hlength, Int.natAbs_natCast, h.rows, hrows,
      entriesOf_map]
    rfl
  · rw [Saved.discovered, ← List.map_drop, ← List.map_take]
    refine (hperm.map _).trans (.of_eq ?_)
    rw [List.map_map]
    rfl

end Catalogue
