import Catalogue.Entry.FieldList
import Catalogue.Proofs.Text.Pieces
import Mathlib.Data.Set.Function

/-! What comes back from a column that holds a list: every text in the pieces between its bars, and
nothing at all for the list of one empty text, whose column is that of an empty list of pieces; and
which texts are columns, so that what was read from them is written as it was. -/

namespace Catalogue.FieldList

open Text

/-- The list that comes back for a stored one. -/
def readBack (texts : List String) : List String :=
  if texts = [] ∨ texts = [""] then [] else texts.flatMap (pieces bar)

theorem bar_eq : "|" = String.singleton bar := rfl

theorem encode_of_ne_nil {texts : List String} (h : texts ≠ []) :
    encode texts = "|" ++ join "|" texts ++ "|" := by
  simp [encode, List.isEmpty_iff, h]

theorem toList_enclosed (s : String) : ("|" ++ s ++ "|").toList = '|' :: (s.toList ++ ['|']) := by
  simp [String.toList_append]

theorem pattern_eq (text : String) : pattern text = "%" ++ ("|" ++ text ++ "|") ++ "%" := by
  apply String.toList_inj.mp
  simp [pattern, String.toList_append]

theorem interior_enclosed (s : String) : interior ("|" ++ s ++ "|") = s := by
  rw [interior, toList_enclosed, List.tail_cons, List.dropLast_concat, String.ofList_toList]

theorem enclosed_eq_marker_iff (s : String) : "|" ++ s ++ "|" = "||" ↔ s = "" := by
  constructor
  · intro h
    rw [← interior_enclosed s, h]
    decide
  · rintro rfl
    decide

theorem join_eq_empty_iff {texts : List String} (h : texts ≠ []) :
    join "|" texts = "" ↔ texts = [""] := by
  match texts, h with
  | [s], _ => simp [join, String.intercalate_singleton]
  | s :: t :: texts, _ => simp [join, String.intercalate_cons_cons]

theorem decode_encode (texts : List String) : decode (encode texts) = readBack texts := by
  by_cases h : texts = []
  · subst h
    decide
  · have hne : "|" ++ join "|" texts ++ "|" ≠ "" := by simp
    simp only [encode_of_ne_nil h, decode, hne, enclosed_eq_marker_iff, join_eq_empty_iff h,
      false_or, interior_enclosed, readBack, h]
    split
    · rfl
    · rw [bar_eq, pieces_join bar h]

/-- A character of a column is a bar or one of a stored text. -/
theorem mem_encode {texts : List String} {c : Char} (h : c ∈ (encode texts).toList) :
    c = bar ∨ ∃ s ∈ texts, c ∈ s.toList := by
  have hjoin : ∀ texts : List String, c ∈ (join "|" texts).toList →
      c = bar ∨ ∃ s ∈ texts, c ∈ s.toList := by
    intro texts
    induction texts with
    | nil => simp [join]
    | cons s texts ih =>
      cases texts with
      | nil =>
        intro h
        exact .inr ⟨s, by simp, by simpa [join, String.intercalate_singleton] using h⟩
      | cons t texts =>
        intro h
        rw [join, String.intercalate_cons_cons, String.toList_append, String.toList_append,
          List.mem_append, List.mem_append] at h
        rcases h with (h | h) | h
        · exact .inr ⟨s, by simp, h⟩
        · exact .inl (by simpa [bar] using h)
        · rcases ih h with rfl | ⟨u, hu, hc⟩
          · exact .inl rfl
          · exact .inr ⟨u, List.mem_cons_of_mem _ hu, hc⟩
  by_cases hempty : texts = []
  · subst hempty
    simp [encode] at h
  · rw [encode_of_ne_nil hempty, String.toList_append, String.toList_append, List.mem_append,
      List.mem_append] at h
    rcases h with (h | h) | h
    · exact .inl (by simpa [bar] using h)
    · exact hjoin texts h
    · exact .inl (by simpa [bar] using h)

/-- No text that comes back holds a bar. -/
theorem not_mem_of_mem_readBack {texts : List String} {s : String} (h : s ∈ readBack texts) :
    bar ∉ s.toList := by
  rw [readBack] at h
  split at h
  · simp at h
  · obtain ⟨t, -, ht⟩ := List.mem_flatMap.mp h
    exact not_mem_of_mem_pieces ht

/-- Only the pieces of one empty text are one empty piece. -/
theorem eq_of_flatMap_pieces {texts : List String} (h : texts.flatMap (pieces bar) = [""]) :
    texts = [""] := by
  match texts with
  | [] => cases h
  | [s] =>
    rw [List.flatMap_singleton] at h
    have hcount := length_pieces bar s
    rw [h, List.length_singleton] at hcount
    have hbar : bar ∉ s.toList := List.count_eq_zero.mp (by omega)
    rw [pieces_of_not_mem hbar] at h
    exact h
  | s :: t :: texts =>
    have hlength := congrArg List.length h
    simp only [List.flatMap_cons, List.length_append, length_pieces,
      List.length_singleton] at hlength
    omega

theorem flatMap_pieces_of_not_mem {texts : List String} (h : ∀ s ∈ texts, bar ∉ s.toList) :
    texts.flatMap (pieces bar) = texts := by
  induction texts with
  | nil => rfl
  | cons s texts ih =>
    rw [List.forall_mem_cons] at h
    rw [List.flatMap_cons, pieces_of_not_mem h.1, ih h.2]
    rfl

/-- A list comes back as it is where no text holds a bar and it is not the list of one empty
text. -/
theorem readBack_eq_self_iff (texts : List String) :
    readBack texts = texts ↔ (∀ s ∈ texts, bar ∉ s.toList) ∧ texts ≠ [""] := by
  constructor
  · intro h
    refine ⟨fun s hs => not_mem_of_mem_readBack (h.symm ▸ hs), ?_⟩
    rintro rfl
    cases h
  · rintro ⟨hbar, hne⟩
    by_cases hempty : texts = []
    · subst hempty
      rfl
    · rw [readBack, if_neg (by simp [hempty, hne]), flatMap_pieces_of_not_mem hbar]

/-- The list of one empty text never comes back. -/
theorem readBack_ne (texts : List String) : readBack texts ≠ [""] := by
  rw [readBack]
  split
  · simp
  · next hnot => exact fun h => hnot (.inr (eq_of_flatMap_pieces h))

/-- A list that came back comes back as it is. -/
theorem readBack_readBack (texts : List String) : readBack (readBack texts) = readBack texts :=
  (readBack_eq_self_iff _).mpr ⟨fun _ hs => not_mem_of_mem_readBack hs, readBack_ne texts⟩

theorem encode_eq_marker_iff (texts : List String) : encode texts = "||" ↔ texts = [""] := by
  by_cases h : texts = []
  · subst h
    decide
  · rw [encode_of_ne_nil h, enclosed_eq_marker_iff, join_eq_empty_iff h]

/-- Lists of which no text holds a bar have different columns, also where the column is that of one
empty text, which does not come back. -/
theorem injOn_encode : Set.InjOn encode {texts | ∀ s ∈ texts, bar ∉ s.toList} := by
  intro texts htexts others hothers heq
  by_cases h : texts = [""]
  · rw [h]
    have hother := heq.symm.trans ((encode_eq_marker_iff texts).mpr h)
    exact ((encode_eq_marker_iff others).mp hother).symm
  · have hother : others ≠ [""] := fun ho =>
      h ((encode_eq_marker_iff texts).mp (heq.trans ((encode_eq_marker_iff others).mpr ho)))
    have hback := congrArg decode heq
    rwa [decode_encode, decode_encode, (readBack_eq_self_iff texts).mpr ⟨htexts, h⟩,
      (readBack_eq_self_iff others).mpr ⟨hothers, hother⟩] at hback

/-- What a column gives back for the list that was stored in it: each text in the pieces between its
bars, but nothing for the list of one empty text.  So the lists that come back as they are, and the
lists that their columns tell apart, are known. -/
theorem column_round_trip :
    (∀ texts, decode (encode texts) = if texts = [] ∨ texts = [""] then []
      else texts.flatMap fun s => (s.toList.splitOn '|').map String.ofList) ∧
    (∀ texts, decode (encode texts) = texts ↔ (∀ s ∈ texts, '|' ∉ s.toList) ∧ texts ≠ [""]) ∧
    Set.InjOn encode {texts | ∀ s ∈ texts, '|' ∉ s.toList} := by
  refine ⟨fun texts => ?_, fun texts => ?_, injOn_encode⟩
  · rw [decode_encode, readBack]
    exact congrArg _ (congrArg texts.flatMap (funext (pieces_eq_splitOn bar)))
  · rw [decode_encode]
    exact readBack_eq_self_iff texts

/-- Up to a map of characters that takes the bar, and it alone, to itself, a word without a bar
stands between two bars of a column exactly where it is one of the texts that come back. -/
theorem enclosed_infix_encode_iff {f : Char → Char} (hf : ∀ c, f c = bar ↔ c = bar) {word : String}
    (hword : bar ∉ word.toList) {texts : List String} (htexts : texts ≠ [""]) :
    ('|' :: (word.toList ++ ['|'])).map f <:+: (encode texts).toList.map f ↔
      ∃ s ∈ readBack texts, s.toList.map f = word.toList.map f := by
  by_cases h : texts = []
  · subst h
    have hempty : readBack [] = [] := rfl
    simp [encode, hempty]
  · have hbar : f '|' = '|' := (hf '|').mpr rfl
    have hmapped : bar ∉ word.toList.map f := by
      simp only [List.mem_map, not_exists, not_and, hf]
      exact fun c hc he => hword (he ▸ hc)
    have hcolumn : (encode texts).toList.map f =
        bar :: ((join "|" texts).toList.map f ++ [bar]) := by
      simp [encode_of_ne_nil h, String.toList_append, hbar, bar]
    have hback : readBack texts =
        ((join "|" texts).toList.splitOn bar).map String.ofList := by
      rw [← pieces_eq_splitOn, bar_eq, pieces_join bar h, readBack, if_neg (by simp [h, htexts])]
    rw [hcolumn, List.map_cons, List.map_append, List.map_singleton, hbar]
    change bar :: (word.toList.map f ++ [bar]) <:+: _ ↔ _
    rw [enclosed_infix_iff hmapped, splitOn_map hf, hback, List.mem_map]
    constructor
    · rintro ⟨cs, hcs, heq⟩
      exact ⟨String.ofList cs, List.mem_map_of_mem hcs, by rw [String.toList_ofList, heq]⟩
    · rintro ⟨s, hs, heq⟩
      obtain ⟨cs, hcs, rfl⟩ := List.mem_map.mp hs
      exact ⟨cs, hcs, by rw [← heq, String.toList_ofList]⟩

/-! ### Columns that are written again -/

/-- A text is empty, or it has a bar at its start and another one at its end. -/
def IsColumn (s : String) : Prop :=
  s = "" ∨ 2 ≤ s.length ∧ s.toList.head? = some '|' ∧ s.toList.getLast? = some '|'

instance (s : String) : Decidable (IsColumn s) :=
  inferInstanceAs (Decidable (s = "" ∨ 2 ≤ s.length ∧ _ = some '|' ∧ _ = some '|'))

section Column

variable {s : String}

theorem isColumn_enclosed (s : String) : IsColumn ("|" ++ s ++ "|") := by
  refine .inr ⟨?_, ?_, ?_⟩
  · rw [← String.length_toList, toList_enclosed]
    simp
  · rw [toList_enclosed, List.head?_cons]
  · rw [toList_enclosed, ← List.cons_append, List.getLast?_concat]

/-- A text with a bar at each end is its interior between bars. -/
theorem enclosed_interior (hlength : 2 ≤ s.length) (hfirst : s.toList.head? = some '|')
    (hlast : s.toList.getLast? = some '|') : "|" ++ interior s ++ "|" = s := by
  apply String.toList_inj.mp
  rw [toList_enclosed, interior, String.toList_ofList]
  rw [← String.length_toList] at hlength
  obtain ⟨rest, hrest⟩ := List.head?_eq_some_iff.mp hfirst
  rw [hrest] at hlength hlast ⊢
  obtain ⟨front, hfront⟩ := List.getLast?_eq_some_iff.mp hlast
  cases front with
  | nil =>
    rw [hfront] at hlength
    simp at hlength
  | cons c front =>
    rw [List.cons_append, List.cons.injEq] at hfront
    rw [hfront.2, List.tail_cons, List.dropLast_concat]

/-- The pieces of a text make the column of the text between bars. -/
theorem encode_pieces (s : String) : encode (pieces bar s) = "|" ++ s ++ "|" := by
  have hne : pieces bar s ≠ [] := by
    rw [← List.length_pos_iff, length_pieces]
    omega
  rw [encode_of_ne_nil hne, bar_eq, join_pieces]

/-- The columns of lists are known by their ends. -/
theorem exists_encode_iff : (∃ texts, encode texts = s) ↔ IsColumn s := by
  constructor
  · rintro ⟨texts, rfl⟩
    by_cases h : texts = []
    · subst h
      exact .inl rfl
    · rw [encode_of_ne_nil h]
      exact isColumn_enclosed _
  · rintro (rfl | ⟨hlength, hfirst, hlast⟩)
    · exact ⟨[], rfl⟩
    · refine ⟨pieces bar (interior s), ?_⟩
      rw [encode_pieces, enclosed_interior hlength hfirst hlast]

/-- A column is written again as it was, apart from that of one empty text. -/
theorem encode_decode_iff : encode (decode s) = s ↔ IsColumn s ∧ s ≠ "||" := by
  constructor
  · intro h
    refine ⟨exists_encode_iff.mp ⟨_, h⟩, ?_⟩
    rintro rfl
    revert h
    decide
  · rintro ⟨rfl | ⟨hlength, hfirst, hlast⟩, hmarker⟩
    · rfl
    · have hne : s ≠ "" := by
        rintro rfl
        cases hfirst
      rw [decode, if_neg (by simp [hne, hmarker]), encode_pieces,
        enclosed_interior hlength hfirst hlast]

theorem not_mem_of_mem_decode {t : String} (h : t ∈ decode s) : bar ∉ t.toList := by
  rw [decode] at h
  split at h
  · cases h
  · exact not_mem_of_mem_pieces h

end Column

/-- A stored list that is read and written again.  The columns of lists are the empty text and the
texts with a bar of its own at each end; writing what is read from a text gives the text back
exactly where it is a column other than that of one empty text, and what is read from a column is
read again after it was written.  No text that is read holds a bar. -/
theorem rewritten_columns (s : String) :
    ((∃ texts, encode texts = s) ↔ IsColumn s) ∧
    (encode (decode s) = s ↔ IsColumn s ∧ s ≠ "||") ∧
    (IsColumn s → decode (encode (decode s)) = decode s) ∧
    ∀ t ∈ decode s, '|' ∉ t.toList := by
  refine ⟨exists_encode_iff, encode_decode_iff, fun hcolumn => ?_, fun _ => not_mem_of_mem_decode⟩
  obtain ⟨texts, rfl⟩ := exists_encode_iff.mpr hcolumn
  rw [decode_encode, decode_encode, readBack_readBack]

/-- A run of bars is the column of empty texts. -/
theorem rewritten_columns_bars : IsColumn "||||a|" ∧ decode "||||a|" = ["", "", "", "a"] ∧
    encode (decode "||||a|") = "||||a|" ∧
    decode (encode (decode "||||a|")) = decode "||||a|" ∧
    ∀ t ∈ decode "||||a|", '|' ∉ t.toList := by
  have hcolumn : IsColumn "||||a|" := by decide
  obtain ⟨-, hwritten, hread, hbars⟩ := rewritten_columns "||||a|"
  exact ⟨hcolumn, by decide, hwritten.mpr ⟨hcolumn, by decide⟩, hread hcolumn, hbars⟩

end Catalogue.FieldList
