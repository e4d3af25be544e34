import Catalogue.Number.Word
import Catalogue.Proofs.Json.Members
import Catalogue.Proofs.Json.Scalars

/-! The values that are read back from JSON text: those with no key twice in one object, with whole
numbers of no more digits than a numeral may have, and with numbers that are read back.  What is
printed of a value is taken apart into the code points of its parts. -/

namespace Catalogue.Json

open Number Text

/-! ### Values and the values in them -/

/-- The values that stand in a value directly. -/
def parts : Json → List Json
  | .list items => items
  | .object members => members.map (·.2)
  | _ => []

/-- A property holds of a value and of all values in it. -/
inductive Everywhere (p : Json → Prop) : Json → Prop where
  | intro {v : Json} (here : p v) (inside : ∀ w ∈ v.parts, Everywhere p w) : Everywhere p v

theorem Everywhere.here {p : Json → Prop} {v : Json} (h : Everywhere p v) : p v := by
  cases h with
  | intro here _ => exact here

theorem Everywhere.inside {p : Json → Prop} {v : Json} (h : Everywhere p v) :
    ∀ w ∈ v.parts, Everywhere p w := by
  cases h with
  | intro _ inside => exact inside

theorem Everywhere.and {p q : Json → Prop} {v : Json} (hp : Everywhere p v)
    (hq : Everywhere q v) : Everywhere (fun w => p w ∧ q w) v := by
  induction hp with
  | intro here _ ih => exact .intro ⟨here, hq.here⟩ fun w hw => ih w hw (hq.inside w hw)

theorem Everywhere.imp {p q : Json → Prop} {v : Json} (h : ∀ w, p w → q w)
    (hp : Everywhere p v) : Everywhere q v := by
  induction hp with
  | intro here _ ih => exact .intro (h _ here) ih

theorem everywhere_of_flat {p : Json → Prop} {v : Json} (hparts : v.parts = []) (h : p v) :
    Everywhere p v := .intro h (by simp [hparts])

/-- A value has a form that a reader gives: no key stands twice in an object, and whole numbers have
no more digits than a numeral may have. -/
def IsFormed : Json → Prop
  | .int n => n.natAbs < 10 ^ digitLimit
  | .object members => (Members.keys members).Nodup
  | _ => True

/-- A floating point number is read back from its text. -/
def HasText : Json → Prop
  | .real x => ReadsBack x
  | _ => True

/-- Texts and keys are sound. -/
def HasSoundTexts : Json → Prop
  | .string w => ∃ s, w = .sound s
  | .object members => ∀ m ∈ members, ∃ s, m.1 = .sound s
  | _ => True

/-- A value that is read back from its text. -/
structure IsRegular (v : Json) : Prop where
  formed : Everywhere IsFormed v
  texts : Everywhere HasText v
  sound : Everywhere HasSoundTexts v

/-- A value that is read back from the code points of its text. -/
structure IsLegible (v : Json) : Prop where
  formed : Everywhere IsFormed v
  texts : Everywhere HasText v

theorem IsRegular.legible {v : Json} (h : IsRegular v) : IsLegible v := ⟨h.formed, h.texts⟩

theorem IsLegible.item {items : List Json} (h : IsLegible (.list items)) :
    ∀ item ∈ items, IsLegible item := fun item hitem =>
  ⟨h.formed.inside item hitem, h.texts.inside item hitem⟩

theorem IsLegible.member {members : Members} (h : IsLegible (.object members)) :
    ∀ m ∈ members, IsLegible m.2 := fun m hm => by
  have hpart : m.2 ∈ (Json.object members).parts := List.mem_map_of_mem hm
  exact ⟨h.formed.inside _ hpart, h.texts.inside _ hpart⟩

theorem isLegible_of_flat {v : Json} (hparts : v.parts = []) (hformed : IsFormed v)
    (htext : HasText v) : IsLegible v :=
  ⟨everywhere_of_flat hparts hformed, everywhere_of_flat hparts htext⟩

theorem isLegible_object {members : Members} (hkeys : members.keys.Nodup)
    (h : ∀ m ∈ members, IsLegible m.2) : IsLegible (.object members) := by
  have hpart : ∀ w ∈ (Json.object members).parts, IsLegible w := by
    intro w hw
    obtain ⟨m, hm, rfl⟩ := List.mem_map.mp hw
    exact h m hm
  exact ⟨.intro hkeys fun w hw => (hpart w hw).formed,
    .intro trivial fun w hw => (hpart w hw).texts⟩

theorem isRegular_of_flat {v : Json} (hparts : v.parts = []) (hformed : IsFormed v)
    (htext : HasText v) (hsound : HasSoundTexts v) : IsRegular v :=
  ⟨everywhere_of_flat hparts hformed, everywhere_of_flat hparts htext,
    everywhere_of_flat hparts hsound⟩

theorem isRegular_null : IsRegular .null := isRegular_of_flat rfl trivial trivial trivial

theorem isRegular_bool (b : Bool) : IsRegular (.bool b) :=
  isRegular_of_flat rfl trivial trivial trivial

theorem isRegular_int {n : Int} (h : n.natAbs < 10 ^ digitLimit) : IsRegular (.int n) :=
  isRegular_of_flat rfl h trivial trivial

theorem isRegular_text (s : String) : IsRegular (.text s) :=
  isRegular_of_flat rfl trivial trivial ⟨s, rfl⟩

theorem isRegular_list {items : List Json} (h : ∀ item ∈ items, IsRegular item) :
    IsRegular (.list items) :=
  ⟨.intro trivial fun item hitem => (h item hitem).formed,
    .intro trivial fun item hitem => (h item hitem).texts,
    .intro trivial fun item hitem => (h item hitem).sound⟩

theorem isRegular_object {members : Members} (hkeys : members.keys.Nodup)
    (h : ∀ m ∈ members, (∃ s, m.1 = .sound s) ∧ IsRegular m.2) : IsRegular (.object members) := by
  have hpart : ∀ w ∈ (Json.object members).parts, IsRegular w := by
    intro w hw
    obtain ⟨m, hm, rfl⟩ := List.mem_map.mp hw
    exact (h m hm).2
  exact ⟨.intro hkeys fun w hw => (hpart w hw).formed,
    .intro trivial fun w hw => (hpart w hw).texts,
    .intro (fun m hm => (h m hm).1) fun w hw => (hpart w hw).sound⟩

/-- A number of 64 bits has no more digits than a numeral may have. -/
theorem natAbs_lt_of_fitsWord {n : Int} (h : FitsWord n) : n.natAbs < 10 ^ digitLimit := by
  have hpow : 10 ^ 19 ≤ 10 ^ digitLimit := Nat.pow_le_pow_right (by omega) (by decide)
  have hword : n.natAbs < 10 ^ 19 := by
    simp only [FitsWord, wordBound] at h
    omega
  omega

mutual

/-- How deep lists and objects are nested in a value. -/
def nesting : Json → Nat
  | .list items => nestingOfItems items + 1
  | .object members => nestingOfMembers members + 1
  | _ => 0

def nestingOfItems : List Json → Nat
  | [] => 0
  | item :: items => max (nesting item) (nestingOfItems items)

def nestingOfMembers : List (LooseText × Json) → Nat
  | [] => 0
  | (_, value) :: members => max (nesting value) (nestingOfMembers members)

end

/-! ### What is printed -/

/-- The characters of pieces of text, one after the other. -/
def charsOf (pieces : List LooseText) : List Char := pieces.flatMap fun piece =>
  piece.patched.toList

/-- The characters of a printed value. -/
def chars (layout : Nat → Layout) (depth : Nat) (v : Json) : List Char :=
  charsOf (piecesAt layout depth v)

/-- The code points of pieces of text, one after the other. -/
def pointsOf (pieces : List LooseText) : List Point := pieces.flatMap LooseText.points

/-- The code points of a printed value. -/
def printed (layout : Nat → Layout) (depth : Nat) (v : Json) : List Point :=
  pointsOf (piecesAt layout depth v)

/-- The text between the parts is white space but for one comma. -/
structure Layout.IsBlank (l : Layout) : Prop where
  opening : ∀ c ∈ l.opening.toList, isSpace c = true
  between : ∃ blanks, l.between.toList = ',' :: blanks ∧ ∀ c ∈ blanks, isSpace c = true
  closing : ∀ c ∈ l.closing.toList, isSpace c = true

theorem Layout.isBlank_compact : Layout.compact.IsBlank where
  opening := by simp [Layout.compact]
  between := ⟨[' '], rfl, by simp [isSpace]⟩
  closing := by simp [Layout.compact]

theorem Layout.isBlank_indented (depth : Nat) : (Layout.indented depth).IsBlank := by
  have hline : ∀ d, ∀ c ∈ '\n' :: List.replicate (2 * d) ' ', isSpace c = true := by
    intro d c hc
    rcases List.mem_cons.mp hc with rfl | hc
    · rfl
    · rw [List.eq_of_mem_replicate hc]
      rfl
  refine ⟨?_, ⟨_, ?_, hline (depth + 1)⟩, ?_⟩
  · simpa only [Layout.indented, String.toList_ofList] using hline (depth + 1)
  · simp only [Layout.indented, String.toList_append, String.toList_ofList]
    rfl
  · simpa only [Layout.indented, String.toList_ofList] using hline depth

theorem charsOf_cons (piece : LooseText) (pieces : List LooseText) :
    charsOf (piece :: pieces) = piece.patched.toList ++ charsOf pieces := List.flatMap_cons

theorem pointsOf_cons (piece : LooseText) (pieces : List LooseText) :
    pointsOf (piece :: pieces) = piece.points ++ pointsOf pieces := List.flatMap_cons

theorem pointsOf_one (s : String) : pointsOf [.sound s] = plain s.toList := List.append_nil _

theorem pointsOf_append (a b : List LooseText) : pointsOf (a ++ b) = pointsOf a ++ pointsOf b :=
  List.flatMap_append

theorem charsOf_eq (pieces : List LooseText) : charsOf pieces = shownAll (pointsOf pieces) := by
  induction pieces with
  | nil => rfl
  | cons piece pieces ih =>
    rw [charsOf_cons, pointsOf_cons, shownAll_append, ih, LooseText.toList_patched]

/-- A line has the code points that are printed without line breaks. -/
theorem points_line (v : Json) : v.line.points = printed (fun _ => .compact) 0 v := by
  rw [line, LooseText.points_concat]
  rfl

theorem points_mapSound_escaped (w : LooseText) :
    (w.mapSound escaped).points = w.points.flatMap escapedPoint := by
  have hplain (cs : List Char) :
      plain (cs.flatMap escapedChar) = (plain cs).flatMap escapedPoint := by
    induction cs with
    | nil => rfl
    | cons c cs ih =>
      rw [List.flatMap_cons, plain_cons, List.flatMap_cons, ← ih]
      exact List.map_append
  induction w with
  | sound s =>
    rw [LooseText.mapSound, LooseText.points, LooseText.points, escaped, String.toList_ofList,
      hplain]
  | torn before half after ih =>
    rw [LooseText.mapSound, LooseText.points, LooseText.points, escaped, String.toList_ofList,
      hplain, ih, List.flatMap_append, List.flatMap_cons]
    rfl

theorem points_textLiteral (w : LooseText) :
    (textLiteral w).points = .inl '"' :: (w.points.flatMap escapedPoint ++ [.inl '"']) := by
  rw [textLiteral, LooseText.points_append, LooseText.points_prepend, points_mapSound_escaped]
  rfl

theorem pointsOf_behindLead (lead : String) (item : Json) (pieces : List LooseText) :
    pointsOf (behindLead lead item pieces) = plain lead.toList ++ pointsOf pieces := by
  unfold behindLead
  split
  · rw [pointsOf_cons, pointsOf_cons, LooseText.points_prepend, List.append_assoc]
  · rw [pointsOf_cons]
    rfl

/-- The code points of printed items, of which the first has nothing before it. -/
def itemPoints (layout : Nat → Layout) (depth : Nat) (between : String) (items : List Json) :
    List Point :=
  pointsOf (itemPieces layout depth between "" items)

/-- The code points of printed members, of which the first has nothing before it. -/
def memberPoints (layout : Nat → Layout) (depth : Nat) (between : String) (members : Members) :
    List Point :=
  pointsOf (memberPieces layout depth between "" members)

theorem pointsOf_itemPieces (layout : Nat → Layout) (depth : Nat) (between lead : String)
    {items : List Json} (h : items ≠ []) :
    pointsOf (itemPieces layout depth between lead items) =
      plain lead.toList ++ itemPoints layout depth between items := by
  cases items with
  | nil => exact absurd rfl h
  | cons item items =>
    simp only [itemPoints, itemPieces, pointsOf_append, pointsOf_behindLead, String.toList_empty,
      plain_nil, List.nil_append, List.append_assoc]

theorem pointsOf_memberPieces (layout : Nat → Layout) (depth : Nat) (between lead : String)
    {members : Members} (h : members ≠ []) :
    pointsOf (memberPieces layout depth between lead members) =
      plain lead.toList ++ memberPoints layout depth between members := by
  cases members with
  | nil => exact absurd rfl h
  | cons m members =>
    simp only [memberPoints, memberPieces, List.cons_append, pointsOf_cons, LooseText.points,
      String.toList_empty, plain_nil, List.nil_append]

theorem itemPoints_cons (layout : Nat → Layout) (depth : Nat) (between : String) (item : Json)
    (items : List Json) :
    itemPoints layout depth between (item :: items) = printed layout depth item ++
      pointsOf (itemPieces layout depth between between items) := by
  simp only [itemPoints, itemPieces, pointsOf_append, pointsOf_behindLead, printed,
    String.toList_empty, plain_nil, List.nil_append]

theorem memberPoints_cons (layout : Nat → Layout) (depth : Nat) (between : String)
    (key : LooseText) (value : Json) (members : Members) :
    memberPoints layout depth between ((key, value) :: members) =
      .inl '"' :: (key.points.flatMap escapedPoint ++ .inl '"' :: .inl ':' :: .inl ' ' ::
        (printed layout depth value ++
          pointsOf (memberPieces layout depth between between members))) := by
  simp only [memberPoints, memberPieces, List.cons_append, pointsOf_cons, pointsOf_append, printed,
    points_textLiteral, LooseText.points, String.toList_empty, plain_nil, List.nil_append,
    List.append_assoc]
  rfl

theorem printed_list (layout : Nat → Layout) (depth : Nat) {items : List Json} (h : items ≠ []) :
    printed layout depth (.list items) = .inl '[' :: (plain (layout depth).opening.toList ++
      (itemPoints layout (depth + 1) (layout depth).between items ++
        (plain (layout depth).closing.toList ++ [.inl ']']))) := by
  cases items with
  | nil => exact absurd rfl h
  | cons item items =>
    rw [printed, piecesAt, pointsOf_append, pointsOf_itemPieces _ _ _ _ h, pointsOf_cons]
    simp [LooseText.points, pointsOf, plain]

theorem printed_object (layout : Nat → Layout) (depth : Nat) {members : Members}
    (h : members ≠ []) :
    printed layout depth (.object members) = .inl '\x7b' :: (plain (layout depth).opening.toList ++
      (memberPoints layout (depth + 1) (layout depth).between members ++
        (plain (layout depth).closing.toList ++ [.inl '\x7d']))) := by
  cases members with
  | nil => exact absurd rfl h
  | cons m members =>
    rw [printed, piecesAt, pointsOf_append, pointsOf_memberPieces _ _ _ _ h, pointsOf_cons]
    simp [LooseText.points, pointsOf, plain]

end Catalogue.Json
