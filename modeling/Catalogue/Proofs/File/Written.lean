import Catalogue.File.Path
import Catalogue.Proofs.Text.Pieces
import Mathlib.Data.List.Basic
import Mathlib.Data.List.Induction
import Mathlib.Data.List.Infix

/-! Paths in their written form: a path that was read is read again from its text, so that two
such paths with one text are the same path; and what is left of a path without `..`. -/

namespace Catalogue.Path

open Text

/-- A name as a path has it: what stands between two slashes, neither empty nor `.`. -/
def IsName (name : String) : Prop := name ≠ "" ∧ name ≠ "." ∧ '/' ∉ name.toList

instance (name : String) : Decidable (IsName name) :=
  inferInstanceAs (Decidable (_ ∧ _ ∧ _))

/-- A path of the names that reading gives. -/
def WellFormed (p : Path) : Prop := ∀ name ∈ p.names, IsName name

instance (p : Path) : Decidable p.WellFormed :=
  inferInstanceAs (Decidable (∀ name ∈ p.names, IsName name))

theorem WellFormed.child {p : Path} (h : p.WellFormed) {name : String} (hname : IsName name) :
    (p.child name).WellFormed := by
  simp only [WellFormed, Path.child, List.forall_mem_append, List.forall_mem_singleton]
  exact ⟨h, hname⟩

/-! ### Reading back -/

theorem namesOf_join {names : List String} (h : ∀ name ∈ names, IsName name) :
    namesOf (join "/" names) = names := by
  cases hnames : names with
  | nil => decide
  | cons first others =>
    rw [← hnames]
    have hne : names ≠ [] := by simp [hnames]
    have hpieces : names.flatMap (pieces '/') = names := by
      have hsingle : names.flatMap (pieces '/') = names.flatMap fun name => [name] :=
        List.flatMap_congr fun name hname => pieces_of_not_mem (h name hname).2.2
      rw [hsingle, List.flatMap_singleton']
    have hslash : "/" = String.singleton '/' := rfl
    rw [namesOf, hslash, pieces_join '/' hne, hpieces, List.filter_eq_self]
    intro name hname
    exact decide_eq_true ⟨(h name hname).1, (h name hname).2.1⟩

/-- A slash in front adds no name. -/
theorem namesOf_slash (s : String) : namesOf ("/" ++ s) = namesOf s := by
  have hpieces : pieces '/' ("/" ++ s) = "" :: pieces '/' s := pieces_append '/' "" s
  rw [namesOf, hpieces, List.filter_cons_of_neg (by decide), namesOf]

theorem namesOf_root (root : Root) (s : String) : namesOf (root.text ++ s) = namesOf s := by
  have htwo : "//" ++ s = "/" ++ ("/" ++ s) := by
    rw [← String.append_assoc]
    rfl
  cases root with
  | relative => rw [Root.text, String.empty_append]
  | slash => exact namesOf_slash s
  | doubleSlash => rw [Root.text, htwo, namesOf_slash, namesOf_slash]

theorem takeWhile_join {names : List String} (h : ∀ name ∈ names, IsName name) :
    (join "/" names).toList.takeWhile (· == '/') = [] := by
  cases names with
  | nil => rfl
  | cons first others =>
    obtain ⟨hne, -, hslash⟩ := h first List.mem_cons_self
    obtain ⟨c, cs, hcs⟩ := List.exists_cons_of_ne_nil fun he => hne (String.toList_inj.mp he)
    have hc : (c == '/') = false := beq_eq_false_iff_ne.mpr fun he => hslash (by simp [hcs, he])
    cases others <;> simp [join, String.toList_intercalate, hcs, hc]

theorem rootOf_text (root : Root) {s : String} (h : s.toList.takeWhile (· == '/') = []) :
    rootOf (root.text ++ s) = root := by
  cases root <;> simp [rootOf, Root.text, String.toList_append, h]

/-- A path is read back from its text. -/
theorem ofText_text {p : Path} (h : p.WellFormed) : ofText p.text = p := by
  obtain ⟨root, names⟩ := p
  unfold text
  split
  · next hpoint =>
    obtain ⟨rfl, rfl⟩ := hpoint
    decide
  · rw [ofText, rootOf_text root (takeWhile_join h), namesOf_root, namesOf_join h]

theorem text_inj {p q : Path} (hp : p.WellFormed) (hq : q.WellFormed) :
    p.text = q.text ↔ p = q := by
  refine ⟨fun h => ?_, congrArg text⟩
  rw [← ofText_text hp, h, ofText_text hq]

/-! ### Places -/

theorem flatten_concat (names : List String) (name : String) :
    flatten (names ++ [name]) =
      if name = ".." then (flatten names).dropLast else flatten names ++ [name] := by
  rw [flatten, List.foldl_append]
  rfl

theorem mem_of_mem_flatten {names : List String} {name : String} (h : name ∈ flatten names) :
    name ∈ names ∧ name ≠ ".." := by
  induction names using List.reverseRecOn with
  | nil => cases h
  | append_singleton names last ih =>
    rw [flatten_concat] at h
    split at h
    · obtain ⟨hmem, hne⟩ := ih (List.mem_of_mem_dropLast h)
      exact ⟨List.mem_append_left _ hmem, hne⟩
    · next hlast =>
      rcases List.mem_append.mp h with h | h
      · obtain ⟨hmem, hne⟩ := ih h
        exact ⟨List.mem_append_left _ hmem, hne⟩
      · rw [List.mem_singleton.mp h]
        exact ⟨List.mem_append_right _ (List.mem_singleton_self last), hlast⟩

theorem flatten_eq_self {names : List String} (h : ".." ∉ names) : flatten names = names := by
  induction names using List.reverseRecOn with
  | nil => rfl
  | append_singleton names last ih =>
    obtain ⟨hnames, hlast⟩ := not_or.mp (mt List.mem_append.mpr h)
    have hne : last ≠ ".." := fun he => hlast (he ▸ List.mem_singleton_self last)
    rw [flatten_concat, ih hnames, if_neg hne]

/-- A path from the root, without `..`. -/
def IsPlain (p : Path) : Prop := p.root ≠ .relative ∧ ".." ∉ p.names

theorem IsPlain.place_eq {p : Path} (h : p.IsPlain) (here : List String) :
    p.place here = p.names := by
  rw [place, if_neg h.1, flatten_eq_self h.2]

theorem isPlain_normalise (here : List String) (p : Path) : (p.normalise here).IsPlain := by
  refine ⟨?_, fun h => (mem_of_mem_flatten h).2 rfl⟩
  unfold normalise
  split
  · exact Root.noConfusion
  · exact Root.noConfusion

theorem wellFormed_normalise {here : List String} (hhere : ∀ name ∈ here, IsName name) {p : Path}
    (h : p.WellFormed) : (p.normalise here).WellFormed := by
  intro name hname
  have hmem := (mem_of_mem_flatten hname).1
  split at hmem
  · exact (List.mem_append.mp hmem).elim (hhere name) (h name)
  · exact h name hmem

/-- A path is what is left of another one where it is plain itself, leads to the same place, and
both or neither have two slashes in front. -/
theorem eq_normalise_iff {here : List String} {p q : Path} :
    p = q.normalise here ↔ p.IsPlain ∧ p.place here = q.place here ∧
      (p.root = .doubleSlash ↔ q.root = .doubleSlash) := by
  constructor
  · intro h
    have hplain : p.IsPlain := h ▸ isPlain_normalise here q
    refine ⟨hplain, ?_, ?_⟩
    · rw [hplain.place_eq, h, normalise]
    · rw [h, normalise]
      by_cases hq : q.root = .doubleSlash <;> simp [hq]
  · rintro ⟨hplain, hplace, hroot⟩
    obtain ⟨root, names⟩ := p
    rw [hplain.place_eq] at hplace
    rw [normalise, mk.injEq]
    refine ⟨?_, hplace⟩
    obtain ⟨habsolute, -⟩ := hplain
    by_cases hq : q.root = .doubleSlash
    · rw [if_pos hq]
      exact hroot.mpr hq
    · rw [if_neg hq]
      cases root with
      | relative => exact absurd rfl habsolute
      | slash => rfl
      | doubleSlash => exact absurd (hroot.mp rfl) hq

end Catalogue.Path
