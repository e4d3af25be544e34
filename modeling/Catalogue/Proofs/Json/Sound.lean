import Catalogue.Proofs.Json.RoundTrip

/-! Sound texts in JSON: the pieces that are written of a value all have a UTF-8 form where its
texts are sound, and nowhere else; and what is printed of such a value is a sound text, which is
read back as that value. -/

namespace Catalogue.Json

open Text

/-! ### Sound pieces -/

/-- Pieces that have a UTF-8 form each. -/
def AreSound (pieces : List LooseText) : Prop := ∀ piece ∈ pieces, ∃ s, piece = .sound s

instance (pieces : List LooseText) : Decidable (AreSound pieces) :=
  decidable_of_iff (∀ piece ∈ pieces, piece.sound?.isSome = true) <| by
    refine forall₂_congr fun piece _ => ?_
    cases piece <;> simp [LooseText.sound?]

theorem areSound_append {a b : List LooseText} : AreSound (a ++ b) ↔ AreSound a ∧ AreSound b := by
  simp only [AreSound, List.mem_append, or_imp, forall_and]

theorem areSound_cons {piece : LooseText} {pieces : List LooseText} :
    AreSound (piece :: pieces) ↔ (∃ s, piece = .sound s) ∧ AreSound pieces := List.forall_mem_cons

theorem areSound_one (s : String) : AreSound [.sound s] := by simp [AreSound]

theorem sound_of_textLiteral {w : LooseText} {s : String} (h : textLiteral w = .sound s) :
    ∃ t, w = .sound t := by
  cases w with
  | sound t => exact ⟨t, rfl⟩
  | torn before half after => cases h

theorem sound_of_prepend {s t : String} {w : LooseText} (h : w.prepend s = .sound t) :
    ∃ u, w = .sound u := by
  cases w with
  | sound u => exact ⟨u, rfl⟩
  | torn before half after => cases h

theorem areSound_of_behindLead {lead : String} {item : Json} {pieces : List LooseText}
    (h : AreSound (behindLead lead item pieces)) : AreSound pieces := by
  unfold behindLead at h
  split at h
  · intro piece hpiece
    rcases List.mem_cons.mp hpiece with rfl | hrest
    · obtain ⟨t, ht⟩ := h _ (List.mem_cons_self ..)
      exact sound_of_prepend ht
    · exact h piece (List.mem_cons_of_mem _ hrest)
  · exact fun piece hpiece => h piece (List.mem_cons_of_mem _ hpiece)

theorem areSound_behindLead {pieces : List LooseText} (lead : String) (item : Json)
    (h : AreSound pieces) : AreSound (behindLead lead item pieces) := by
  unfold behindLead
  split
  · obtain ⟨⟨s, rfl⟩, hrest⟩ := areSound_cons.mp h
    exact areSound_cons.mpr ⟨⟨_, rfl⟩, hrest⟩
  · exact areSound_cons.mpr ⟨⟨lead, rfl⟩, h⟩

section Sound

variable {layout : Nat → Layout}

mutual

/-- Where all pieces that are written of a value have a UTF-8 form its texts are sound. -/
theorem sound_of_pieces (v : Json) {place : Nat} (h : AreSound (piecesAt layout place v)) :
    Everywhere HasSoundTexts v := by
  match v with
  | .null => exact everywhere_of_flat rfl trivial
  | .bool b => exact everywhere_of_flat rfl trivial
  | .int n => exact everywhere_of_flat rfl trivial
  | .real x => exact everywhere_of_flat rfl trivial
  | .string w =>
    rw [piecesAt] at h
    obtain ⟨s, hs⟩ := h _ (List.mem_cons_self ..)
    exact everywhere_of_flat rfl (sound_of_textLiteral hs)
  | .list [] => exact everywhere_of_flat rfl trivial
  | .list (item :: items) =>
    rw [piecesAt, areSound_append] at h
    exact .intro trivial (sound_of_itemPieces (item :: items) h.1)
  | .object [] => exact everywhere_of_flat rfl (by simp [HasSoundTexts])
  | .object (m :: members) =>
    rw [piecesAt, areSound_append] at h
    obtain ⟨hkeys, hvalues⟩ := sound_of_memberPieces (m :: members) h.1
    refine .intro hkeys fun w hw => ?_
    obtain ⟨m', hm', rfl⟩ := List.mem_map.mp hw
    exact hvalues m' hm'

theorem sound_of_itemPieces (items : List Json) {place : Nat} {between lead : String}
    (h : AreSound (itemPieces layout place between lead items)) :
    ∀ item ∈ items, Everywhere HasSoundTexts item := by
  match items with
  | [] => simp
  | item :: items =>
    rw [itemPieces, areSound_append] at h
    have hitem := sound_of_pieces item (areSound_of_behindLead h.1)
    have hitems := sound_of_itemPieces items h.2
    simpa using ⟨hitem, hitems⟩

theorem sound_of_memberPieces (members : Members) {place : Nat} {between lead : String}
    (h : AreSound (memberPieces layout place between lead members)) :
    (∀ m ∈ members, ∃ s, m.1 = .sound s) ∧
      ∀ m ∈ members, Everywhere HasSoundTexts m.2 := by
  match members with
  | [] => simp
  | (key, value) :: members =>
    rw [memberPieces] at h
    obtain ⟨s, hs⟩ := h (textLiteral key) (by simp)
    have hkey := sound_of_textLiteral hs
    have htail : AreSound (piecesAt layout place value ++
        memberPieces layout place between between members) :=
      fun piece hpiece => h piece (by simp only [List.cons_append, List.mem_cons, hpiece, or_true])
    rw [areSound_append] at htail
    have hvalue := sound_of_pieces value htail.1
    obtain ⟨hkeys, hvalues⟩ := sound_of_memberPieces members htail.2
    constructor
    · intro m hm
      rcases List.mem_cons.mp hm with rfl | hm
      · exact hkey
      · exact hkeys m hm
    · intro m hm
      rcases List.mem_cons.mp hm with rfl | hm
      · exact hvalue
      · exact hvalues m hm

end

mutual

/-- All pieces that are written of a value with sound texts have a UTF-8 form. -/
theorem areSound_piecesAt (v : Json) (place : Nat) (h : Everywhere HasSoundTexts v) :
    AreSound (piecesAt layout place v) := by
  match v with
  | .null => exact areSound_one _
  | .bool true => exact areSound_one _
  | .bool false => exact areSound_one _
  | .int n => exact areSound_one _
  | .real x => exact areSound_one _
  | .string w =>
    obtain ⟨s, rfl⟩ := h.here
    exact areSound_one _
  | .list [] => exact areSound_one _
  | .list (item :: items) =>
    rw [piecesAt, areSound_append]
    exact ⟨areSound_itemPieces (item :: items) _ _ _ h.inside, areSound_one _⟩
  | .object [] => exact areSound_one _
  | .object (m :: members) =>
    rw [piecesAt, areSound_append]
    refine ⟨areSound_memberPieces (m :: members) _ _ _ h.here fun m' hm' => ?_, areSound_one _⟩
    exact h.inside _ (List.mem_map_of_mem hm')

theorem areSound_itemPieces (items : List Json) (place : Nat) (between lead : String)
    (h : ∀ item ∈ items, Everywhere HasSoundTexts item) :
    AreSound (itemPieces layout place between lead items) := by
  match items with
  | [] => simp [itemPieces, AreSound]
  | item :: items =>
    obtain ⟨hitem, hitems⟩ := List.forall_mem_cons.mp h
    rw [itemPieces, areSound_append]
    exact ⟨areSound_behindLead lead item (areSound_piecesAt item place hitem),
      areSound_itemPieces items _ _ _ hitems⟩

theorem areSound_memberPieces (members : Members) (place : Nat) (between lead : String)
    (hkeys : ∀ m ∈ members, ∃ s, m.1 = .sound s)
    (h : ∀ m ∈ members, Everywhere HasSoundTexts m.2) :
    AreSound (memberPieces layout place between lead members) := by
  match members with
  | [] => simp [memberPieces, AreSound]
  | (key, value) :: members =>
    obtain ⟨⟨s, rfl⟩, hothers⟩ := List.forall_mem_cons.mp hkeys
    obtain ⟨hvalue, hvalues⟩ := List.forall_mem_cons.mp h
    simp only [memberPieces, List.cons_append, areSound_cons, areSound_append]
    exact ⟨⟨lead, rfl⟩, ⟨_, rfl⟩, ⟨_, rfl⟩, areSound_piecesAt value place hvalue,
      areSound_memberPieces members _ _ _ hothers hvalues⟩

end

end Sound

theorem pointsOf_of_sound {pieces : List LooseText} (h : AreSound pieces) :
    pointsOf pieces = plain (charsOf pieces) := by
  induction pieces with
  | nil => rfl
  | cons piece pieces ih =>
    obtain ⟨s, rfl⟩ := h piece (List.mem_cons_self ..)
    rw [pointsOf_cons, charsOf_cons, ih fun other hother => h other (List.mem_cons_of_mem _ hother)]
    exact List.map_append.symm

/-! ### Printed texts -/

theorem points_chars (layout : Nat → Layout) {v : Json} (hv : v.IsRegular) :
    (LooseText.sound (String.ofList (chars layout 0 v))).points = printed layout 0 v := by
  rw [LooseText.points, String.toList_ofList, printed,
    pointsOf_of_sound (areSound_piecesAt v 0 hv.sound), chars]

/-- A printed value is read back by a reader of the whole text. -/
theorem parseWithin_chars {layout : Nat → Layout} (hlayout : ∀ d, (layout d).IsBlank) {v : Json}
    (hv : v.IsRegular) (depth : Nat) :
    (nesting v ≤ depth → parseWithin depth (.sound (String.ofList (chars layout 0 v))) = .ok v) ∧
      (¬nesting v ≤ depth → ∃ kind, parseWithin depth (.sound (String.ofList (chars layout 0 v))) =
        .error (.tooDeep kind)) :=
  parseWithin_printed hlayout hv.legible (points_chars layout hv) depth

theorem toList_join_patched (pieces : List LooseText) :
    (String.join (pieces.map (·.patched))).toList = charsOf pieces := by
  induction pieces with
  | nil => rfl
  | cons piece pieces ih =>
    rw [List.map_cons, String.join_cons, String.toList_append, ih, charsOf_cons]

theorem print_eq (v : Json) : print v = String.ofList (chars (fun _ => .compact) 0 v) := by
  rw [print, chars, ← toList_join_patched, String.ofList_toList]

/-- What is printed on one line is read back, where it is not nested too deep. -/
theorem parseWithin_print {v : Json} (hv : v.IsRegular) {depth : Nat} (h : nesting v ≤ depth) :
    parseWithin depth (.sound (print v)) = .ok v := by
  rw [print_eq]
  exact (parseWithin_chars (fun _ => Layout.isBlank_compact) hv depth).1 h

/-- A printed object with members starts with a brace and a quote. -/
theorem print_object {m : LooseText × Json} (members : Members) {s : String}
    (h : m.1 = .sound s) : ∃ cs, print (.object (m :: members)) =
      String.ofList ('\x7b' :: '"' :: cs) := by
  obtain ⟨key, value⟩ := m
  have hprinted := printed_object (fun _ => .compact) 0 (List.cons_ne_nil (key, value) members)
  rw [print_eq, chars, charsOf_eq, ← printed, hprinted, memberPoints_cons]
  exact ⟨_, rfl⟩

end Catalogue.Json
