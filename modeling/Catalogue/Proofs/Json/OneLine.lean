import Catalogue.Proofs.Json.RoundTrip

/-! JSON text on one line: no line ends in what is printed of a value, whatever its texts, where
none ends between its parts. -/

namespace Catalogue.Json

open Number Text


/-- No line ends among some code points. -/
def IsOneLine (ps : List Point) : Prop := .inl '\n' ∉ ps ∧ .inl '\r' ∉ ps

theorem isOneLine_nil : IsOneLine [] := by simp [IsOneLine]

theorem isOneLine_append {ps qs : List Point} :
    IsOneLine (ps ++ qs) ↔ IsOneLine ps ∧ IsOneLine qs := by
  simp only [IsOneLine, List.mem_append, not_or]
  exact and_and_and_comm

theorem isOneLine_cons {c : Char} {ps : List Point} :
    IsOneLine (.inl c :: ps) ↔ (c ≠ '\n' ∧ c ≠ '\r') ∧ IsOneLine ps := by
  simp only [IsOneLine, List.mem_cons, not_or, Sum.inl.injEq, ne_eq, eq_comm (b := c)]
  exact and_and_and_comm

theorem isOneLine_plain {cs : List Char} :
    IsOneLine (plain cs) ↔ ∀ c ∈ cs, c ≠ '\n' ∧ c ≠ '\r' := by
  induction cs with
  | nil => simp [IsOneLine]
  | cons c cs ih => rw [plain_cons, isOneLine_cons, ih, List.forall_mem_cons]

theorem isOneLine_of_all {cs : List Char} (h : cs.all (fun c => c != '\n' && c != '\r') = true) :
    IsOneLine (plain cs) := isOneLine_plain.mpr (by simpa using h)

theorem isOneLine_flatMap {ps : List Point} {f : Point → List Point}
    (h : ∀ p ∈ ps, IsOneLine (f p)) : IsOneLine (ps.flatMap f) := by
  induction ps with
  | nil => exact isOneLine_nil
  | cons p ps ih =>
    obtain ⟨hp, hps⟩ := List.forall_mem_cons.mp h
    rw [List.flatMap_cons, isOneLine_append]
    exact ⟨hp, ih hps⟩

/-- Inside a text the ends of lines are escaped. -/
theorem isOneLine_escapedPoint (p : Point) : IsOneLine (escapedPoint p) := by
  cases p with
  | inr half => simp [escapedPoint, IsOneLine]
  | inl c =>
    rw [escapedPoint, isOneLine_plain]
    rcases escapedChar_cases c with ⟨mark, he, hmark, -⟩ | ⟨-, he⟩ | ⟨he, -, -, hc⟩
    · have hne : mark ≠ '\n' ∧ mark ≠ '\r' := by
        constructor
        · rintro rfl
          cases hmark
        · rintro rfl
          cases hmark
      simpa [he] using hne
    · have hdigit : ∀ n < 16, hexDigit n ≠ '\n' ∧ hexDigit n ≠ '\r' := by decide
      rw [he]
      simp only [List.forall_mem_cons]
      refine ⟨by decide, by decide, fun d hd => ?_⟩
      obtain ⟨i, -, rfl⟩ := List.mem_map.mp hd
      exact hdigit _ (Nat.mod_lt _ (by omega))
    · rw [he, List.forall_mem_singleton]
      constructor
      · rintro rfl
        exact hc (by decide)
      · rintro rfl
        exact hc (by decide)

theorem isOneLine_text (w : LooseText) (ps : List Point) :
    IsOneLine (.inl '"' :: (w.points.flatMap escapedPoint ++ .inl '"' :: ps)) ↔ IsOneLine ps := by
  have htext := isOneLine_flatMap fun p (_ : p ∈ w.points) => isOneLine_escapedPoint p
  simp only [isOneLine_cons, isOneLine_append, htext, true_and]
  simp

/-- No line ends in the text between the parts. -/
structure Layout.IsInline (l : Layout) : Prop where
  opening : IsOneLine (plain l.opening.toList)
  between : IsOneLine (plain l.between.toList)
  closing : IsOneLine (plain l.closing.toList)

theorem Layout.isInline_compact : Layout.compact.IsInline := by
  constructor <;> exact isOneLine_of_all rfl

section OneLine

variable {layout : Nat → Layout}

theorem isOneLine_word {v : Json} (hword : v.isWord = true) (hv : v.IsLegible) (place : Nat) :
    IsOneLine (printed layout place v) := by
  obtain ⟨cs, after, hcs, hafter⟩ := readWord_printed layout place hword hv 0
  obtain ⟨width, -, taken, htaken, -, hspace⟩ := follows_of_readWord hafter
  rw [List.append_nil] at htaken
  rw [hcs, isOneLine_plain, htaken]
  intro c hc
  have hblank := hspace c hc
  constructor
  · rintro rfl
    cases hblank
  · rintro rfl
    cases hblank

theorem isOneLine_append_text {a b : String} :
    IsOneLine (plain (a ++ b).toList) ↔
      IsOneLine (plain a.toList) ∧ IsOneLine (plain b.toList) := by
  simp only [isOneLine_plain, String.toList_append, List.forall_mem_append]

mutual

/-- What is printed of a value is one line, where no line ends between its parts. -/
theorem isOneLine_printed (hlayout : ∀ d, (layout d).IsInline) (v : Json) (hv : v.IsLegible)
    (place : Nat) : IsOneLine (printed layout place v) := by
  match v with
  | .null => exact isOneLine_word rfl hv place
  | .bool b => exact isOneLine_word rfl hv place
  | .int n => exact isOneLine_word rfl hv place
  | .real x => exact isOneLine_word rfl hv place
  | .string w =>
    rw [printed_text, isOneLine_text]
    exact isOneLine_nil
  | .list [] =>
    rw [printed_empty_list]
    exact isOneLine_of_all rfl
  | .list (item :: items) =>
    have hlead : IsOneLine (plain ("[" ++ (layout place).opening).toList) :=
      isOneLine_append_text.mpr ⟨isOneLine_of_all rfl, (hlayout place).opening⟩
    have hlast : IsOneLine (plain ((layout place).closing ++ "]").toList) :=
      isOneLine_append_text.mpr ⟨(hlayout place).closing, isOneLine_of_all rfl⟩
    rw [printed, piecesAt, pointsOf_append, isOneLine_append, pointsOf_one]
    exact ⟨isOneLine_itemPieces hlayout (item :: items) hv.item (place + 1)
      (hlayout place).between hlead, hlast⟩
  | .object [] =>
    rw [printed_empty_object]
    exact isOneLine_of_all rfl
  | .object (m :: members) =>
    have hlead : IsOneLine (plain ("\x7b" ++ (layout place).opening).toList) :=
      isOneLine_append_text.mpr ⟨isOneLine_of_all rfl, (hlayout place).opening⟩
    have hlast : IsOneLine (plain ((layout place).closing ++ "\x7d").toList) :=
      isOneLine_append_text.mpr ⟨(hlayout place).closing, isOneLine_of_all rfl⟩
    rw [printed, piecesAt, pointsOf_append, isOneLine_append, pointsOf_one]
    exact ⟨isOneLine_memberPieces hlayout (m :: members) hv.member (place + 1)
      (hlayout place).between hlead, hlast⟩

theorem isOneLine_itemPieces (hlayout : ∀ d, (layout d).IsInline) (items : List Json)
    (hitems : ∀ item ∈ items, item.IsLegible) (place : Nat) {between lead : String}
    (hbetween : IsOneLine (plain between.toList)) (hlead : IsOneLine (plain lead.toList)) :
    IsOneLine (pointsOf (itemPieces layout place between lead items)) := by
  match items with
  | [] =>
    rw [itemPieces]
    exact isOneLine_nil
  | item :: items =>
    obtain ⟨hitem, hrest⟩ := List.forall_mem_cons.mp hitems
    rw [itemPieces, pointsOf_append, pointsOf_behindLead, isOneLine_append, isOneLine_append]
    exact ⟨⟨hlead, isOneLine_printed hlayout item hitem place⟩,
      isOneLine_itemPieces hlayout items hrest place hbetween hbetween⟩

theorem isOneLine_memberPieces (hlayout : ∀ d, (layout d).IsInline) (members : Members)
    (hmembers : ∀ m ∈ members, m.2.IsLegible) (place : Nat) {between lead : String}
    (hbetween : IsOneLine (plain between.toList)) (hlead : IsOneLine (plain lead.toList)) :
    IsOneLine (pointsOf (memberPieces layout place between lead members)) := by
  match members with
  | [] =>
    rw [memberPieces]
    exact isOneLine_nil
  | (key, value) :: members =>
    obtain ⟨hvalue, hrest⟩ := List.forall_mem_cons.mp hmembers
    have hcolon : IsOneLine (plain (": ").toList) := isOneLine_of_all rfl
    simp only [memberPieces, List.cons_append, pointsOf_cons, pointsOf_append,
      points_textLiteral, LooseText.points, List.append_assoc, List.nil_append,
      isOneLine_append, isOneLine_text]
    exact ⟨hlead, hcolon,
      isOneLine_printed hlayout value hvalue place,
      isOneLine_memberPieces hlayout members hrest place hbetween hbetween⟩

end

end OneLine

/-- The line of a value holds no line feed and no carriage return. -/
theorem line_isOneLine {v : Json} (hv : v.IsLegible) : 10 ∉ v.line.codes ∧ 13 ∉ v.line.codes := by
  obtain ⟨hfeed, hreturn⟩ := isOneLine_printed (fun _ => Layout.isInline_compact) v hv 0
  have hcode (p : Point) {c : Char} (hlow : c.toNat < 128) (hp : p.code = c.toNat) :
      p = .inl c := by
    cases p with
    | inl d => exact congrArg Sum.inl (Char.toNat_inj.mp hp)
    | inr half =>
      have := half.isHalf
      rw [Point.code] at hp
      omega
  rw [LooseText.codes_eq, points_line]
  constructor
  · intro h
    obtain ⟨p, hp, hten⟩ := List.mem_map.mp h
    exact hfeed (hcode p (c := '\n') (by decide) hten ▸ hp)
  · intro h
    obtain ⟨p, hp, hthirteen⟩ := List.mem_map.mp h
    exact hreturn (hcode p (c := '\r') (by decide) hthirteen ▸ hp)

end Catalogue.Json
