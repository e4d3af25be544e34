import Catalogue.Text.Loose
import Mathlib.Data.List.Lex

/-! The order of texts by their code points.  It is the lexicographic order, and texts with the same
code points are the same, so that sorting texts depends on no order in which they are given. -/

namespace Catalogue.Text.LooseText

/-! ### Code points -/

/-- A code point that is no half of a surrogate pair. -/
def isScalar (n : Nat) : Bool := n < 0xD800 || 0xE000 ≤ n

theorem isScalar_toNat (c : Char) : isScalar c.toNat = true := by
  have hvalid : c.toNat < 0xD800 ∨ 0xDFFF < c.toNat ∧ c.toNat < 0x110000 := c.valid
  simp only [isScalar, Bool.or_eq_true, decide_eq_true_eq]
  omega

theorem isScalar_code (half : Half) : isScalar half.code = false := by
  have hhalf := half.isHalf
  simp only [isScalar, Bool.or_eq_false_iff, decide_eq_false_iff_not]
  omega

theorem isScalar_of_mem {s : String} {n : Nat} (h : n ∈ s.toList.map Char.toNat) :
    isScalar n = true := by
  obtain ⟨c, -, rfl⟩ := List.mem_map.mp h
  exact isScalar_toNat c

theorem toNat_map_injective {s t : String}
    (h : s.toList.map Char.toNat = t.toList.map Char.toNat) : s = t := by
  have hlists := (List.map_inj_right fun _ _ => Char.toNat_inj.mp).mp h
  exact String.toList_inj.mp hlists

/-- The first half divides the code points of a torn text. -/
theorem span_codes_torn (before : String) (half : Half) (after : LooseText) :
    (torn before half after).codes.takeWhile isScalar = before.toList.map Char.toNat ∧
      (torn before half after).codes.dropWhile isScalar = half.code :: after.codes := by
  have hbefore : ∀ n ∈ before.toList.map Char.toNat, isScalar n = true := fun _ => isScalar_of_mem
  rw [codes, List.takeWhile_append_of_pos hbefore, List.dropWhile_append_of_pos hbefore]
  simp [isScalar_code]

theorem codes_sound_ne_torn (s before : String) (half : Half) (after : LooseText) :
    (sound s).codes ≠ (torn before half after).codes := by
  intro h
  have hmem : half.code ∈ s.toList.map Char.toNat := by
    change s.toList.map Char.toNat = _ at h
    rw [h, codes]
    exact List.mem_append_right _ (List.mem_cons_self ..)
  have hscalar := isScalar_of_mem hmem
  rw [isScalar_code] at hscalar
  cases hscalar

theorem codes_injective {a b : LooseText} (h : a.codes = b.codes) : a = b := by
  induction a generalizing b with
  | sound s =>
    cases b with
    | sound t => rw [toNat_map_injective h]
    | torn before half after => exact absurd h (codes_sound_ne_torn _ _ _ _)
  | torn before half after ih =>
    cases b with
    | sound t => exact absurd h.symm (codes_sound_ne_torn _ _ _ _)
    | torn before' half' after' =>
      obtain ⟨hfront, hrest⟩ := span_codes_torn before half after
      obtain ⟨hfront', hrest'⟩ := span_codes_torn before' half' after'
      rw [h] at hfront hrest
      have hbefore := toNat_map_injective (hfront.symm.trans hfront')
      obtain ⟨hcode, hafter⟩ := List.cons.inj (hrest.symm.trans hrest')
      obtain rfl : half = half' := by
        cases half
        cases half'
        cases hcode
        rfl
      rw [hbefore, ih hafter]

/-! ### Order -/

theorem codesLe_iff {a b : List Nat} : codesLe a b = true ↔ a ≤ b := by
  rw [← not_lt]
  induction a generalizing b with
  | nil => simp [codesLe]
  | cons m ms ih =>
    cases b with
    | nil => simp [codesLe]
    | cons n ns =>
      rw [codesLe, List.cons_lt_cons_iff]
      split
      · next he => simp [he, ih]
      · next hne =>
        rw [decide_eq_true_eq]
        omega

theorem le_iff {a b : LooseText} : a.le b = true ↔ a.codes ≤ b.codes := codesLe_iff

theorem le_total (a b : LooseText) : (a.le b || b.le a) = true := by
  rw [Bool.or_eq_true, le_iff, le_iff]
  exact LinearOrder.le_total _ _

theorem le_trans {a b c : LooseText} (hab : a.le b = true) (hbc : b.le c = true) :
    a.le c = true := le_iff.mpr ((le_iff.mp hab).trans (le_iff.mp hbc))

theorem le_antisymm {a b : LooseText} (hab : a.le b = true) (hba : b.le a = true) : a = b :=
  codes_injective ((le_iff.mp hab).antisymm (le_iff.mp hba))

theorem pairwise_mergeSort_le (texts : List LooseText) :
    (texts.mergeSort le).Pairwise fun a b => a.le b = true :=
  @List.pairwise_mergeSort _ le (fun _ _ _ => le_trans) le_total texts

/-- Sorted texts do not depend on the order in which they are given. -/
theorem mergeSort_le_congr {a b : List LooseText} (h : a.Perm b) :
    a.mergeSort le = b.mergeSort le :=
  List.Perm.eq_of_pairwise (fun _ _ _ _ => le_antisymm) (pairwise_mergeSort_le a)
    (pairwise_mergeSort_le b)
    ((List.mergeSort_perm a le).trans (h.trans (List.mergeSort_perm b le).symm))

end Catalogue.Text.LooseText
