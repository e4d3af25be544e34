import Catalogue.Text.Loose
import Mathlib.Data.List.Basic

/-! The code points of loose texts: characters and halves of surrogate pairs, in order.  What shows
a text shows each of its code points in turn, and the list of its halves has each half at its
place. -/

namespace Catalogue.Text

/-- A code point: a character, or half of a pair. -/
abbrev Point := Char ⊕ Half

/-- The character that shows a code point. -/
def Point.shown : Point → Char
  | .inl c => c
  | .inr _ => '\uFFFD'

def Point.code : Point → Nat
  | .inl c => c.toNat
  | .inr half => half.code

/-- Code points as they are shown. -/
def shownAll (points : List Point) : List Char := points.map Point.shown

/-- Characters as code points. -/
def plain (cs : List Char) : List Point := cs.map .inl

section Lists

variable (p : Point) (ps qs : List Point) (c : Char) (cs : List Char)

@[simp] theorem shownAll_nil : shownAll [] = [] := rfl

@[simp] theorem shownAll_cons : shownAll (p :: ps) = p.shown :: shownAll ps := rfl

@[simp] theorem shownAll_append : shownAll (ps ++ qs) = shownAll ps ++ shownAll qs :=
  List.map_append

@[simp] theorem length_shownAll : (shownAll ps).length = ps.length := List.length_map _

@[simp] theorem plain_nil : plain [] = [] := rfl

@[simp] theorem plain_cons : plain (c :: cs) = .inl c :: plain cs := rfl

@[simp] theorem length_plain : (plain cs).length = cs.length := List.length_map _

@[simp] theorem shown_inl : Point.shown (.inl c) = c := rfl

@[simp] theorem shownAll_plain : shownAll (plain cs) = cs := by
  rw [shownAll, plain, List.map_map]
  exact List.map_id cs

end Lists

namespace LooseText

/-- The code points of a text. -/
def points : LooseText → List Point
  | .sound s => plain s.toList
  | .torn before half after => plain before.toList ++ .inr half :: after.points

theorem points_prepend (s : String) (w : LooseText) :
    (w.prepend s).points = plain s.toList ++ w.points := by
  cases w <;> simp [prepend, points, plain, String.toList_append]

theorem points_append (a b : LooseText) : (a ++ b).points = a.points ++ b.points := by
  change (a.append b).points = _
  induction a with
  | sound s => exact points_prepend s b
  | torn before half after ih =>
    rw [append, points, points, ih, List.append_assoc, List.cons_append]

theorem points_concat (texts : List LooseText) :
    (concat texts).points = texts.flatMap points := by
  induction texts with
  | nil => rfl
  | cons text texts ih =>
    rw [List.flatMap_cons, ← ih]
    exact points_append text (concat texts)

theorem toList_patched (w : LooseText) : w.patched.toList = shownAll w.points := by
  induction w with
  | sound s => simp [patched, points]
  | torn before half after ih =>
    rw [patched, points, String.toList_append, String.toList_append, ih]
    simp [Point.shown]

theorem codes_eq (w : LooseText) : w.codes = w.points.map Point.code := by
  induction w with
  | sound s => simp [codes, points, plain, Point.code]
  | torn before half after ih => simp [codes, points, plain, Point.code, ih]

/-- The text of some code points, behind the characters `done` in reverse order. -/
def ofPoints (done : List Char) : List Point → LooseText
  | [] => .sound (String.ofList done.reverse)
  | .inl c :: ps => ofPoints (c :: done) ps
  | .inr half :: ps => .torn (String.ofList done.reverse) half (ofPoints [] ps)

theorem ofPoints_plain (done cs : List Char) (ps : List Point) :
    ofPoints done (plain cs ++ ps) = ofPoints (cs.reverse ++ done) ps := by
  induction cs generalizing done with
  | nil => rfl
  | cons c cs ih =>
    rw [plain_cons, List.cons_append, ofPoints, ih, List.reverse_cons, List.append_assoc]
    rfl

theorem ofPoints_points (w : LooseText) : ofPoints [] w.points = w := by
  induction w with
  | sound s =>
    have h := ofPoints_plain [] s.toList []
    rw [List.append_nil] at h
    rw [points, h, ofPoints, List.append_nil, List.reverse_reverse, String.ofList_toList]
  | torn before half after ih =>
    rw [points, ofPoints_plain, ofPoints, ih, List.append_nil, List.reverse_reverse,
      String.ofList_toList]

/-! ### The places of halves -/

theorem lookup_halvesFrom_of_lt (w : LooseText) {start position : Nat} (h : position < start) :
    (w.halvesFrom start).lookup position = none := by
  induction w generalizing start with
  | sound s => rfl
  | torn before half after ih =>
    have hne : (position == start + before.length) = false := beq_eq_false_iff_ne.mpr (by omega)
    rw [halvesFrom, List.lookup_cons, hne]
    exact ih (by omega)

/-- Where the text has a half, its list of halves has it too. -/
theorem lookup_halvesFrom (w : LooseText) (start : Nat) {before rest : List Point} {p : Point}
    (h : w.points = before ++ p :: rest) :
    (w.halvesFrom start).lookup (start + before.length) = p.getRight? := by
  induction w generalizing start before with
  | sound s =>
    have hp : p ∈ plain s.toList := by
      rw [← points, h]
      simp
    obtain ⟨c, -, rfl⟩ := List.mem_map.mp hp
    rfl
  | torn first half after ih =>
    rw [points] at h
    rw [halvesFrom, List.lookup_cons]
    have hfirst : (plain first.toList).length = first.length := by
      rw [length_plain, String.length_toList]
    rcases List.append_eq_append_iff.mp h with ⟨more, rfl, hrest⟩ | ⟨more, hplain, hrest⟩
    · cases more with
      | nil =>
        cases hrest
        simp [String.length_toList]
      | cons q more =>
        obtain ⟨rfl, hmore⟩ := List.cons.inj hrest
        have hplace : start + (plain first.toList ++ .inr half :: more).length =
            start + first.length + 1 + more.length := by
          rw [List.length_append, List.length_cons, hfirst]
          omega
        have hne : (start + first.length + 1 + more.length == start + first.length) = false :=
          beq_eq_false_iff_ne.mpr (by omega)
        rw [hplace, hne]
        exact ih (start + first.length + 1) hmore
    · rw [hplain, List.length_append] at hfirst
      cases more with
      | nil =>
        cases hrest
        have hlength : before.length = first.length := hfirst
        simp [hlength]
      | cons q more =>
        obtain ⟨rfl, -⟩ := List.cons.inj hrest
        have hp : p ∈ plain first.toList := by
          rw [hplain]
          simp
        obtain ⟨c, -, rfl⟩ := List.mem_map.mp hp
        rw [List.length_cons] at hfirst
        have hne : (start + before.length == start + first.length) = false :=
          beq_eq_false_iff_ne.mpr (by omega)
        rw [hne]
        exact lookup_halvesFrom_of_lt after (by omega)

end LooseText

/-- Some code points stand at a position, the last ones of a text of `total` code points, and
`halves` has the halves among them at their places in that text. -/
structure Stands (halves : List (Nat × Half)) (total position : Nat) (points : List Point) :
    Prop where
  place : position + points.length = total
  marks : ∀ at_ p rest, p :: rest <:+ points → at_ + (rest.length + 1) = total →
    halves.lookup at_ = p.getRight?

section Stands

variable {halves : List (Nat × Half)} {total position next : Nat} {before points : List Point}
  {p : Point}

theorem Stands.head (h : Stands halves total position (p :: points)) :
    halves.lookup position = p.getRight? := h.marks position p points (List.suffix_refl _) h.place

/-- What follows stands at the position that leaves room for it. -/
theorem Stands.at_place (h : Stands halves total position (before ++ points))
    (hplace : next + points.length = total) : Stands halves total next points :=
  ⟨hplace, fun at_ p rest hsuffix =>
    h.marks at_ p rest (hsuffix.trans (List.suffix_append before points))⟩

theorem Stands.of_append (h : Stands halves total position (before ++ points)) :
    Stands halves total (position + before.length) points := by
  refine h.at_place ?_
  rw [← h.place, List.length_append, Nat.add_assoc]

theorem Stands.tail (h : Stands halves total position (p :: points)) :
    Stands halves total (position + 1) points := by
  have happend : Stands halves total position ([p] ++ points) := h
  exact happend.of_append

theorem stands_points (w : LooseText) :
    Stands (w.halvesFrom 0) w.points.length 0 w.points := by
  refine ⟨Nat.zero_add _, ?_⟩
  rintro at_ p rest ⟨before, hbefore⟩ hplace
  have hlength : at_ = before.length := by
    have := congrArg List.length hbefore
    rw [List.length_append, List.length_cons] at this
    omega
  rw [← LooseText.lookup_halvesFrom w 0 hbefore.symm, hlength, Nat.zero_add]

end Stands

end Catalogue.Text
