import Catalogue.Text.Blank

/-! The pieces of a text between separators: they are those of `List.splitOn`, joining them gives
the text back, and cutting a joined text gives the pieces of its parts. -/

namespace Catalogue.Text

/-- The pieces of `cs` are gathered in order behind those that are done. -/
theorem piecesFrom_eq (separator : Char) (piece : List Char) (done : List (List Char))
    (cs : List Char) :
    piecesFrom separator piece done cs =
      done.reverse ++ (cs.splitOn separator).modifyHead (piece.reverse ++ ·) := by
  induction cs generalizing piece done with
  | nil => simp [piecesFrom]
  | cons c cs ih =>
    rw [piecesFrom, List.splitOn_cons_eq_if_modifyHead]
    by_cases h : c = separator
    · simp only [h, if_true, ih, beq_self_eq_true]
      cases hs : cs.splitOn separator <;> simp
    · simp only [h, if_false, ih, beq_iff_eq]
      cases hs : cs.splitOn separator <;> simp

theorem pieces_eq_splitOn (separator : Char) (s : String) :
    pieces separator s = (s.toList.splitOn separator).map String.ofList := by
  rw [pieces, piecesFrom_eq]
  cases hs : s.toList.splitOn separator <;> simp

/-- A text in which the separator does not stand is a single piece. -/
theorem pieces_of_not_mem {separator : Char} {s : String} (h : separator ∉ s.toList) :
    pieces separator s = [s] := by
  rw [pieces_eq_splitOn, List.splitOn_eq_singleton h, List.map_singleton, String.ofList_toList]

/-- A separator between two texts parts their pieces. -/
theorem pieces_append (separator : Char) (s t : String) :
    pieces separator (s ++ String.singleton separator ++ t) =
      pieces separator s ++ pieces separator t := by
  simp only [pieces_eq_splitOn, String.toList_append, String.toList_singleton, List.append_assoc,
    List.singleton_append, List.splitOn_append_cons_self, List.map_append]

/-- The pieces of joined texts are the pieces of each of them. -/
theorem pieces_join (separator : Char) {texts : List String} (h : texts ≠ []) :
    pieces separator (join (String.singleton separator) texts) =
      texts.flatMap (pieces separator) := by
  induction texts with
  | nil => exact absurd rfl h
  | cons s texts ih =>
    cases texts with
    | nil => simp [join, String.intercalate_singleton]
    | cons t texts =>
      rw [join, String.intercalate_cons_cons, pieces_append, List.flatMap_cons,
        ← ih (List.cons_ne_nil _ _), join]

/-- There is one piece more than separators. -/
theorem length_pieces (separator : Char) (s : String) :
    (pieces separator s).length = s.toList.count separator + 1 := by
  rw [pieces_eq_splitOn, List.length_map]
  induction s.toList with
  | nil => simp
  | cons c cs ih =>
    rw [List.splitOn_cons_eq_if_modifyHead, List.count_cons]
    by_cases h : c = separator
    · simp [h, ih]
    · simp [h, ih]

/-- The separator stands in none of the pieces. -/
theorem not_mem_of_mem_pieces {separator : Char} {s piece : String}
    (h : piece ∈ pieces separator s) : separator ∉ piece.toList := by
  rw [pieces_eq_splitOn, List.mem_map] at h
  obtain ⟨cs, hcs, rfl⟩ := h
  rw [String.toList_ofList]
  generalize s.toList = text at hcs
  induction text generalizing cs with
  | nil => simp_all
  | cons c rest ih =>
    rw [List.splitOn_cons_eq_if_modifyHead] at hcs
    obtain ⟨first, others, hs⟩ := List.exists_cons_of_ne_nil (List.splitOn_ne_nil separator rest)
    by_cases hc : c = separator
    · simp only [hc, beq_self_eq_true, if_true, List.mem_cons] at hcs
      rcases hcs with rfl | hcs
      · simp
      · exact ih cs hcs
    · simp only [hc, beq_iff_eq, if_false, hs, List.modifyHead_cons, List.mem_cons] at hcs
      rcases hcs with rfl | hcs
      · have := ih first (by simp [hs])
        simp [this, Ne.symm hc]
      · exact ih cs (by simp [hs, hcs])

/-- Joining the pieces gives the text back. -/
theorem join_pieces (separator : Char) (s : String) :
    join (String.singleton separator) (pieces separator s) = s := by
  apply String.toList_inj.mp
  rw [join, String.toList_intercalate, pieces_eq_splitOn, List.map_map]
  simp [Function.comp_def, List.intercalate_splitOn]

section Enclosed

variable {separator : Char} {word cs : List Char}

theorem enclosed_infix_intercalate (before after : List (List Char)) :
    separator :: (word ++ [separator]) <:+:
      separator :: ([separator].intercalate (before ++ word :: after) ++ [separator]) := by
  induction before with
  | nil =>
    cases after with
    | nil => simp
    | cons next after =>
      exact ⟨[], [separator].intercalate (next :: after) ++ [separator], by simp⟩
  | cons first before ih =>
    rw [List.cons_append, List.intercalate_cons_of_ne_nil (by simp)]
    exact ih.trans ⟨separator :: first, [], by simp⟩

/-- Between two separators a word stands in an enclosed text exactly where it is a piece of the
text. -/
theorem enclosed_infix_iff (h : separator ∉ word) :
    separator :: (word ++ [separator]) <:+: separator :: (cs ++ [separator]) ↔
      word ∈ cs.splitOn separator := by
  constructor
  · rintro ⟨before, after, heq⟩
    have hsplit := congrArg (List.splitOn separator) heq
    rw [List.append_assoc, List.cons_append, List.append_assoc, List.singleton_append,
      List.splitOn_append_cons_self, List.splitOn_append_cons_self_of_not_mem h,
      ← List.nil_append (separator :: (cs ++ [separator])), List.splitOn_append_cons_self,
      List.splitOn_append_cons_self, List.splitOn_nil, List.singleton_append] at hsplit
    obtain ⟨b, bs, hb⟩ := List.exists_cons_of_ne_nil (List.splitOn_ne_nil separator before)
    rw [hb, ← List.dropLast_concat_getLast (List.splitOn_ne_nil separator after), List.cons_append,
      List.cons.injEq, ← List.cons_append, ← List.append_assoc] at hsplit
    have hinit := (List.append_inj' hsplit.2 rfl).1
    rw [← hinit]
    simp
  · intro hmem
    obtain ⟨before, after, hs⟩ := List.append_of_mem hmem
    have hjoin : [separator].intercalate (cs.splitOn separator) = cs :=
      List.intercalate_splitOn separator
    rw [← hjoin, hs]
    exact enclosed_infix_intercalate before after

end Enclosed

theorem mem_of_mem_pieces {separator : Char} {s piece : String} (h : piece ∈ pieces separator s)
    {c : Char} (hc : c ∈ piece.toList) : c ∈ s.toList := by
  have hseparator := not_mem_of_mem_pieces h
  rw [pieces_eq_splitOn, List.mem_map] at h
  obtain ⟨cs, hcs, rfl⟩ := h
  rw [String.toList_ofList] at hc hseparator
  have hpart := (enclosed_infix_iff hseparator).mpr hcs
  have hmem := hpart.subset (List.mem_cons_of_mem _ (List.mem_append_left _ hc))
  simp only [List.mem_cons, List.mem_append, List.not_mem_nil, or_false] at hmem
  have hne : c ≠ separator := fun he => hseparator (he ▸ hc)
  simpa [hne] using hmem

/-- A map of characters that takes the separator, and it alone, to itself keeps the pieces apart. -/
theorem splitOn_map {separator : Char} {f : Char → Char}
    (hf : ∀ c, f c = separator ↔ c = separator) (cs : List Char) :
    (cs.map f).splitOn separator = (cs.splitOn separator).map (List.map f) := by
  induction cs with
  | nil => simp
  | cons c cs ih =>
    rw [List.map_cons, List.splitOn_cons_eq_if_modifyHead, List.splitOn_cons_eq_if_modifyHead, ih]
    obtain ⟨first, others, hs⟩ := List.exists_cons_of_ne_nil (List.splitOn_ne_nil separator cs)
    by_cases h : c = separator <;> simp [h, hf, hs]

end Catalogue.Text
