import Catalogue.Proofs.Json.Printed

/-! JSON text there and back: what is printed of a value, on one line or on a line for each part, is
read as that value, unless its lists and objects are nested deeper than the reader goes.  The value
has no key twice in one object, and numbers that are read back; its texts may be loose. -/

namespace Catalogue.Json

open Number Text

/-! ### The steps of the reader

Each lemma says what the reader does once the character in front of it is known. -/

section Steps

variable {halves : List (Nat × Half)} {fuel depth position after : Nat} {cs rest : List Char}

theorem skip_blanks (position : Nat) {blanks : List Char} (h : ∀ c ∈ blanks, isSpace c = true)
    {c : Char} (hc : isSpace c = false) (cs : List Char) :
    skip position (blanks ++ c :: cs) = (position + blanks.length, c :: cs) := by
  induction blanks generalizing position with
  | nil => simp [skip, hc]
  | cons blank blanks ih =>
    simp only [List.mem_cons, forall_eq_or_imp] at h
    rw [List.cons_append, skip, if_pos h.1, ih (position + 1) h.2, List.length_cons]
    congr 1
    omega

theorem readValue_word {v : Json} (hword : readWord position cs = .ok ⟨v, after, []⟩)
    (hrest : Ends rest) :
    readValue halves (fuel + 1) depth position (cs ++ rest) = .ok ⟨v, after, rest⟩ := by
  obtain ⟨c, more, rfl, hc⟩ := not_structural_of_readWord hword
  simp only [structural, List.mem_cons, List.not_mem_nil, or_false, not_or] at hc
  have hread := readWord_append hword hrest
  rw [List.cons_append] at hread ⊢
  rw [readValue.eq_def]
  simp only
  split <;> simp_all

theorem readValue_text {w : LooseText}
    (h : readText halves position (position + 1) [] [] cs = .ok ⟨w, after, rest⟩) :
    readValue halves (fuel + 1) depth position ('"' :: cs) = .ok ⟨.string w, after, rest⟩ := by
  rw [readValue, h]
  simp [Except.map]

theorem readValue_empty_list :
    readValue halves (fuel + 1) (depth + 1) position ('[' :: ']' :: rest) =
      .ok ⟨.list [], position + 2, rest⟩ := by
  rw [readValue.eq_def]
  simp [skip, isSpace]

theorem readValue_empty_object :
    readValue halves (fuel + 1) (depth + 1) position ('\x7b' :: '\x7d' :: rest) =
      .ok ⟨.object [], position + 2, rest⟩ := by
  rw [readValue.eq_def]
  simp [skip, isSpace]

theorem readValue_deep_list :
    readValue halves (fuel + 1) 0 position ('[' :: rest) = .error (.tooDeep "array") := by
  rw [readValue.eq_def]
  rfl

theorem readValue_deep_object :
    readValue halves (fuel + 1) 0 position ('\x7b' :: rest) = .error (.tooDeep "object") := by
  rw [readValue.eq_def]
  rfl

theorem readValue_list (fuel depth position : Nat) {blanks : List Char}
    (h : ∀ c ∈ blanks, isSpace c = true) {c : Char} (hc : isSpace c = false) (hbracket : c ≠ ']')
    (cs : List Char) :
    readValue halves (fuel + 1) (depth + 1) position ('[' :: (blanks ++ c :: cs)) =
      readItems halves fuel depth [] (position + 1 + blanks.length) (c :: cs) := by
  rw [readValue.eq_def]
  simp only [skip_blanks (position + 1) h hc cs]
  split
  · next heq => cases heq
  · next heq _ =>
    cases heq
    exact absurd rfl hbracket
  · next heq _ =>
    cases heq
    rfl

theorem readValue_object (fuel depth position : Nat) {blanks : List Char}
    (h : ∀ c ∈ blanks, isSpace c = true) {c : Char} (hc : isSpace c = false)
    (hbrace : c ≠ '\x7d') (cs : List Char) :
    readValue halves (fuel + 1) (depth + 1) position ('\x7b' :: (blanks ++ c :: cs)) =
      readMembers halves fuel depth [] (position + 1 + blanks.length) (c :: cs) := by
  rw [readValue.eq_def]
  simp only [skip_blanks (position + 1) h hc cs]
  split
  · next heq => cases heq
  · next heq _ =>
    cases heq
    exact absurd rfl hbrace
  · next heq _ =>
    cases heq
    rfl

theorem readItems_error {done : List Json} {e : ReadError}
    (h : readValue halves fuel depth position cs = .error e) :
    readItems halves (fuel + 1) depth done position cs = .error e := by
  rw [readItems, h]

theorem readItems_last (done : List Json) {item : Json} {blanks : List Char}
    (h : readValue halves fuel depth position cs = .ok ⟨item, after, blanks ++ ']' :: rest⟩)
    (hblanks : ∀ c ∈ blanks, isSpace c = true) :
    readItems halves (fuel + 1) depth done position cs =
      .ok ⟨.list (done.reverse ++ [item]), after + blanks.length + 1, rest⟩ := by
  have hclose := skip_blanks after hblanks (show isSpace ']' = false from rfl) rest
  rw [readItems, h]
  simp [hclose]

theorem readItems_next (done : List Json) {item : Json} {blanks : List Char} {c : Char}
    (h : readValue halves fuel depth position cs =
      .ok ⟨item, after, ',' :: (blanks ++ c :: rest)⟩)
    (hblanks : ∀ c ∈ blanks, isSpace c = true) (hc : isSpace c = false) :
    readItems halves (fuel + 1) depth done position cs =
      readItems halves fuel depth (item :: done) (after + 1 + blanks.length) (c :: rest) := by
  have hnext := skip_blanks (after + 1) hblanks hc rest
  rw [readItems, h]
  simp [skip, isSpace, hnext]

/-- Behind a key and its colon a member goes on with its value. -/
theorem readMembers_key (done : Members) {key : LooseText} {ks : List Char} {c : Char}
    (hkey : readText halves position (position + 1) [] [] ks =
      .ok ⟨key, after, ':' :: ' ' :: c :: cs⟩) (hc : isSpace c = false) :
    readMembers halves (fuel + 1) depth done position ('"' :: ks) =
      match readValue halves fuel depth (after + 2) (c :: cs) with
      | .error e => .error e
      | .ok value =>
        match skip value.position value.rest with
        | (position, rest) =>
          match rest with
          | '\x7d' :: rest => .ok ⟨.object (done.put key value.value), position + 1, rest⟩
          | ',' :: rest =>
            match skip (position + 1) rest with
            | (position, rest) =>
              readMembers halves fuel depth (done.put key value.value) position rest
          | _ => .error (.malformed position) := by
  have hread := readMembers.eq_def halves (fuel + 1) depth done position ('"' :: ks)
  have hcolon : skip after (':' :: ' ' :: c :: cs) = (after, ':' :: ' ' :: c :: cs) := by
    simp [skip, isSpace]
  have hblank : skip (after + 1) (' ' :: c :: cs) = (after + 2, c :: cs) := by
    rw [skip, if_pos (by rfl), skip, if_neg (by simp [hc])]
  simp only [hkey, hcolon, hblank] at hread
  exact hread

theorem readMembers_error {done : Members} {key : LooseText} {ks : List Char} {c : Char}
    {e : ReadError}
    (hkey : readText halves position (position + 1) [] [] ks =
      .ok ⟨key, after, ':' :: ' ' :: c :: cs⟩) (hc : isSpace c = false)
    (h : readValue halves fuel depth (after + 2) (c :: cs) = .error e) :
    readMembers halves (fuel + 1) depth done position ('"' :: ks) = .error e := by
  rw [readMembers_key done hkey hc, h]

theorem readMembers_last (done : Members) {key : LooseText} {ks : List Char} {c : Char}
    {close : Nat} {value : Json} {blanks : List Char}
    (hkey : readText halves position (position + 1) [] [] ks =
      .ok ⟨key, after, ':' :: ' ' :: c :: cs⟩) (hc : isSpace c = false)
    (h : readValue halves fuel depth (after + 2) (c :: cs) =
      .ok ⟨value, close, blanks ++ '\x7d' :: rest⟩)
    (hblanks : ∀ c ∈ blanks, isSpace c = true) :
    readMembers halves (fuel + 1) depth done position ('"' :: ks) =
      .ok ⟨.object (done.put key value), close + blanks.length + 1, rest⟩ := by
  have hclose := skip_blanks close hblanks (show isSpace '\x7d' = false from rfl) rest
  rw [readMembers_key done hkey hc, h]
  simp [hclose]

theorem readMembers_next (done : Members) {key : LooseText} {ks : List Char} {c : Char}
    {close : Nat} {value : Json} {blanks : List Char} {d : Char}
    (hkey : readText halves position (position + 1) [] [] ks =
      .ok ⟨key, after, ':' :: ' ' :: c :: cs⟩) (hc : isSpace c = false)
    (h : readValue halves fuel depth (after + 2) (c :: cs) =
      .ok ⟨value, close, ',' :: (blanks ++ d :: rest)⟩)
    (hblanks : ∀ c ∈ blanks, isSpace c = true) (hd : isSpace d = false) :
    readMembers halves (fuel + 1) depth done position ('"' :: ks) =
      readMembers halves fuel depth (done.put key value) (close + 1 + blanks.length)
        (d :: rest) := by
  have hnext := skip_blanks (close + 1) hblanks hd rest
  rw [readMembers_key done hkey hc, h]
  simp [skip, isSpace, hnext]

end Steps

/-! ### Reading back -/

/-- A value that is neither a text nor a list nor an object. -/
def isWord : Json → Bool
  | .null | .bool _ | .int _ | .real _ => true
  | _ => false

/-- A printed word has characters alone, and is read back. -/
theorem readWord_printed (layout : Nat → Layout) (place : Nat) {v : Json}
    (hword : v.isWord = true) (hv : v.IsLegible) (position : Nat) :
    ∃ cs after, printed layout place v = plain cs ∧ readWord position cs = .ok ⟨v, after, []⟩ := by
  cases v with
  | null => exact ⟨_, _, pointsOf_one "null", rfl⟩
  | bool b => cases b <;> exact ⟨_, _, pointsOf_one _, rfl⟩
  | int n =>
    obtain ⟨after, hafter⟩ := readNumber_intText position hv.formed.here
    exact ⟨_, after, pointsOf_one (intText n), readWord_of_readNumber hafter⟩
  | real x =>
    obtain ⟨after, hafter⟩ := hv.texts.here position
    exact ⟨_, after, pointsOf_one (realLiteral x), hafter⟩
  | string w => cases hword
  | list items => cases hword
  | object members => cases hword

theorem printed_text (layout : Nat → Layout) (place : Nat) (w : LooseText) :
    printed layout place (.string w) =
      .inl '"' :: (w.points.flatMap escapedPoint ++ [.inl '"']) := by
  rw [printed, piecesAt, pointsOf_cons, points_textLiteral]
  exact List.append_nil _

theorem printed_empty_list (layout : Nat → Layout) (place : Nat) :
    printed layout place (.list []) = plain ['[', ']'] := by
  rw [printed, piecesAt]
  rfl

theorem printed_empty_object (layout : Nat → Layout) (place : Nat) :
    printed layout place (.object []) = plain ['\x7b', '\x7d'] := by
  rw [printed, piecesAt]
  rfl

/-- A printed value starts with no white space, no bracket that closes a list and no mark of the
order of bytes. -/
theorem printed_starts {v : Json} (hv : v.IsLegible) (layout : Nat → Layout) (place : Nat) :
    ∃ c ps, printed layout place v = .inl c :: ps ∧ isSpace c = false ∧ c ≠ ']' ∧
      c ≠ '\uFEFF' := by
  by_cases hword : v.isWord = true
  · obtain ⟨cs, after, hcs, hafter⟩ := readWord_printed layout place hword hv 0
    obtain ⟨c, cs, rfl, hc⟩ := not_structural_of_readWord hafter
    refine ⟨c, plain cs, hcs, isSpace_of_not_structural hc, ?_, ?_⟩
    · rintro rfl
      exact hc (by decide)
    · rintro rfl
      exact hc (by decide)
  · cases v with
    | string w => exact ⟨_, _, printed_text layout place w, rfl, by decide, by decide⟩
    | list items =>
      cases items with
      | nil => exact ⟨_, _, printed_empty_list layout place, rfl, by decide, by decide⟩
      | cons item items =>
        exact ⟨_, _, printed_list layout place (List.cons_ne_nil _ _), rfl, by decide, by decide⟩
    | object members =>
      cases members with
      | nil => exact ⟨_, _, printed_empty_object layout place, rfl, by decide, by decide⟩
      | cons m members =>
        exact ⟨_, _, printed_object layout place (List.cons_ne_nil _ _), rfl, by decide,
          by decide⟩
    | _ => exact absurd rfl hword

/-- The reader gives `v` in front of `rest`, the end of a text of `total` characters, or finds it
nested too deep where it does not fit. -/
def Reads (total : Nat) (result : Reader Json) (fits : Prop) (v : Json) (rest : List Char) : Prop :=
  (fits ∧ ∃ after, after + rest.length = total ∧ result = .ok ⟨v, after, rest⟩) ∨
    (¬fits ∧ ∃ kind, result = .error (.tooDeep kind))

section Reads

variable {total : Nat} {result : Reader Json} {fits fits' : Prop} {v : Json} {rest : List Char}

theorem Reads.congr (h : Reads total result fits v rest) (hfits : fits ↔ fits') :
    Reads total result fits' v rest := by
  rwa [Reads, ← hfits]

theorem Reads.ok (h : Reads total result fits v rest) (hfits : fits) :
    ∃ after, result = .ok ⟨v, after, rest⟩ := by
  rcases h with ⟨-, after, -, hok⟩ | ⟨hdeep, -⟩
  · exact ⟨after, hok⟩
  · exact absurd hfits hdeep

theorem Reads.error (h : Reads total result fits v rest) (hdeep : ¬fits) :
    ∃ kind, result = .error (.tooDeep kind) := by
  rcases h with ⟨hfits, -⟩ | ⟨-, herror⟩
  · exact absurd hfits hdeep
  · exact herror

end Reads

section ReadsSteps

variable {halves : List (Nat × Half)} {total fuel depth position after : Nat}
  {blanks cs ds ks rest : List Char} {c d : Char}

theorem Reads.items_last {item : Json} (done : List Json)
    (h : Reads total (readValue halves fuel depth position cs) (nesting item ≤ depth) item
      (blanks ++ ']' :: rest)) (hblanks : ∀ c ∈ blanks, isSpace c = true) :
    Reads total (readItems halves (fuel + 1) depth done position cs)
      (nestingOfItems [item] ≤ depth) (.list (done.reverse ++ [item])) rest := by
  have hfits : nestingOfItems [item] ≤ depth ↔ nesting item ≤ depth := by simp [nestingOfItems]
  rcases h with ⟨hfit, close, hplace, hok⟩ | ⟨hdeep, kind, herror⟩
  · refine .inl ⟨hfits.mpr hfit, _, ?_, readItems_last done hok hblanks⟩
    rw [← hplace, List.length_append, List.length_cons]
    omega
  · exact .inr ⟨mt hfits.mp hdeep, kind, readItems_error herror⟩

/-- Where an item is too deep the reader stops there, and the rest of the list does not matter. -/
theorem Reads.items_next {item v : Json} {items done : List Json}
    (h : Reads total (readValue halves fuel depth position cs) (nesting item ≤ depth) item
      (',' :: (blanks ++ c :: ds))) (hblanks : ∀ c ∈ blanks, isSpace c = true)
    (hc : isSpace c = false)
    (hrest : ∀ next, next + (c :: ds).length = total →
      Reads total (readItems halves fuel depth (item :: done) next (c :: ds))
        (nestingOfItems items ≤ depth) v rest) :
    Reads total (readItems halves (fuel + 1) depth done position cs)
      (nestingOfItems (item :: items) ≤ depth) v rest := by
  have hfits : nestingOfItems (item :: items) ≤ depth ↔
      nesting item ≤ depth ∧ nestingOfItems items ≤ depth := by rw [nestingOfItems, Nat.max_le]
  rcases h with ⟨hfit, close, hplace, hok⟩ | ⟨hdeep, kind, herror⟩
  · rw [readItems_next done hok hblanks hc]
    refine (hrest _ ?_).congr (by simp only [hfits, hfit, true_and])
    simp only [List.length_cons, List.length_append] at hplace ⊢
    omega
  · exact .inr ⟨fun h => hdeep (hfits.mp h).1, kind, readItems_error herror⟩

theorem Reads.members_last {key : LooseText} {value : Json} (done : Members)
    (hkey : readText halves position (position + 1) [] [] ks =
      .ok ⟨key, after, ':' :: ' ' :: c :: cs⟩) (hc : isSpace c = false)
    (h : Reads total (readValue halves fuel depth (after + 2) (c :: cs)) (nesting value ≤ depth)
      value (blanks ++ '\x7d' :: rest)) (hblanks : ∀ c ∈ blanks, isSpace c = true) :
    Reads total (readMembers halves (fuel + 1) depth done position ('"' :: ks))
      (nestingOfMembers [(key, value)] ≤ depth) (.object (done.put key value)) rest := by
  have hfits : nestingOfMembers [(key, value)] ≤ depth ↔ nesting value ≤ depth := by
    simp [nestingOfMembers]
  rcases h with ⟨hfit, close, hplace, hok⟩ | ⟨hdeep, kind, herror⟩
  · refine .inl ⟨hfits.mpr hfit, _, ?_, readMembers_last done hkey hc hok hblanks⟩
    rw [← hplace, List.length_append, List.length_cons]
    omega
  · exact .inr ⟨mt hfits.mp hdeep, kind, readMembers_error hkey hc herror⟩

theorem Reads.members_next {key : LooseText} {value v : Json} {members done : Members}
    (hkey : readText halves position (position + 1) [] [] ks =
      .ok ⟨key, after, ':' :: ' ' :: c :: cs⟩) (hc : isSpace c = false)
    (h : Reads total (readValue halves fuel depth (after + 2) (c :: cs)) (nesting value ≤ depth)
      value (',' :: (blanks ++ d :: ds))) (hblanks : ∀ c ∈ blanks, isSpace c = true)
    (hd : isSpace d = false)
    (hrest : ∀ next, next + (d :: ds).length = total →
      Reads total (readMembers halves fuel depth (done.put key value) next (d :: ds))
        (nestingOfMembers members ≤ depth) v rest) :
    Reads total (readMembers halves (fuel + 1) depth done position ('"' :: ks))
      (nestingOfMembers ((key, value) :: members) ≤ depth) v rest := by
  have hfits : nestingOfMembers ((key, value) :: members) ≤ depth ↔
      nesting value ≤ depth ∧ nestingOfMembers members ≤ depth := by
    rw [nestingOfMembers, Nat.max_le]
  rcases h with ⟨hfit, close, hplace, hok⟩ | ⟨hdeep, kind, herror⟩
  · rw [readMembers_next done hkey hc hok hblanks hd]
    refine (hrest _ ?_).congr (by simp only [hfits, hfit, true_and])
    simp only [List.length_cons, List.length_append] at hplace ⊢
    omega
  · exact .inr ⟨fun h => hdeep (hfits.mp h).1, kind, readMembers_error hkey hc herror⟩

end ReadsSteps

theorem ends_comma (rest : List Point) : Ends (shownAll (.inl ',' :: rest)) :=
  ends_cons (.inr (.inl rfl))

theorem ends_closing {closing : List Char} (h : ∀ c ∈ closing, isSpace c = true) {c : Char}
    (hc : c = ']' ∨ c = '\x7d') (rest : List Point) :
    Ends (shownAll (plain closing ++ .inl c :: rest)) := by
  rw [shownAll_append, shownAll_plain]
  cases closing with
  | nil => exact ends_cons (.inr (.inr hc))
  | cons blank closing => exact ends_cons (.inl (h blank (by simp)))

section ReadingBack

theorem length_printed_pos (layout : Nat → Layout) {v : Json} (hv : v.IsLegible) (place : Nat) :
    0 < (printed layout place v).length := by
  obtain ⟨c, ps, hps, -⟩ := printed_starts hv layout place
  rw [hps]
  exact Nat.succ_pos _

theorem itemPoints_starts (layout : Nat → Layout) {items : List Json} (hne : items ≠ [])
    (hitems : ∀ item ∈ items, item.IsLegible) (place : Nat) (between : String) :
    ∃ c ps, itemPoints layout place between items = .inl c :: ps ∧ isSpace c = false ∧
      c ≠ ']' := by
  cases items with
  | nil => exact absurd rfl hne
  | cons item items =>
    obtain ⟨c, ps, hps, hc, hbracket, -⟩ := printed_starts (hitems item (by simp)) layout place
    exact ⟨c, _, by rw [itemPoints_cons, hps, List.cons_append], hc, hbracket⟩

theorem memberPoints_starts (layout : Nat → Layout) {members : Members} (hne : members ≠ [])
    (place : Nat) (between : String) :
    ∃ ps, memberPoints layout place between members = .inl '"' :: ps := by
  match members with
  | [] => exact absurd rfl hne
  | (key, value) :: members => exact ⟨_, memberPoints_cons ..⟩

variable {layout : Nat → Layout} {halves : List (Nat × Half)} {total : Nat}

theorem reads_word {v : Json} (hword : v.isWord = true) (hv : v.IsLegible)
    {place fuel depth position : Nat} {rest : List Point} (hrest : Ends (shownAll rest))
    (hstands : Stands halves total position (printed layout place v ++ rest)) :
    Reads total
      (readValue halves (fuel + 1) depth position (shownAll (printed layout place v ++ rest)))
      (nesting v ≤ depth) v (shownAll rest) := by
  obtain ⟨cs, after, hcs, hafter⟩ := readWord_printed layout place hword hv position
  have hflat : nesting v = 0 := by cases v <;> first | rfl | cases hword
  obtain ⟨width, hwidth, taken, htaken, hlength, -⟩ := follows_of_readWord hafter
  have hplace := hstands.place
  rw [List.append_nil] at htaken
  rw [hcs, List.length_append, length_plain, htaken, hlength] at hplace
  rw [hcs, shownAll_append, shownAll_plain]
  refine .inl ⟨by omega, after, ?_, readValue_word hafter hrest⟩
  rw [length_shownAll, ← hplace, ← Nat.add_assoc]
  exact congrArg (· + rest.length) hwidth

mutual

/-- A printed value is read back as itself. -/
theorem readValue_printed (hlayout : ∀ d, (layout d).IsBlank) (v : Json) (hv : v.IsLegible)
    (place fuel depth position : Nat) (rest : List Point) (hrest : Ends (shownAll rest))
    (hstands : Stands halves total position (printed layout place v ++ rest))
    (hfuel : 2 * (printed layout place v).length ≤ fuel) :
    Reads total
      (readValue halves fuel depth position (shownAll (printed layout place v ++ rest)))
      (nesting v ≤ depth) v (shownAll rest) := by
  -- Two steps for each character are enough: a bracket, a quote or a comma stands before each part.
  have hpos := length_printed_pos layout hv place
  obtain ⟨fuel, rfl⟩ := Nat.exists_eq_add_of_le' (show 1 ≤ fuel by omega)
  match v with
  | .null => exact reads_word rfl hv hrest hstands
  | .bool b => exact reads_word rfl hv hrest hstands
  | .int n => exact reads_word rfl hv hrest hstands
  | .real x => exact reads_word rfl hv hrest hstands
  | .string w =>
    rw [printed_text, List.cons_append, List.append_assoc, List.singleton_append] at hstands ⊢
    obtain ⟨after, hafter, hread⟩ := readText_points position [] [] hstands.tail
    rw [LooseText.ofPoints_points] at hread
    have hplace : after + (shownAll rest).length = total := by
      rw [length_shownAll, hafter.place]
    exact .inl ⟨Nat.zero_le _, after, hplace, readValue_text hread⟩
  | .list [] =>
    rw [printed_empty_list] at hstands ⊢
    cases depth with
    | zero => exact .inr ⟨by simp [nesting], _, readValue_deep_list⟩
    | succ depth =>
      have hplace : position + 2 + (shownAll rest).length = total := by
        rw [length_shownAll]
        exact hstands.of_append.place
      exact .inl ⟨by simp [nesting, nestingOfItems], _, hplace, readValue_empty_list⟩
  | .list (item :: items) =>
    obtain ⟨blanks, hbetween, hblanks⟩ := (hlayout place).between
    obtain ⟨c, ps, hps, hc, hbracket⟩ := itemPoints_starts layout
      (List.cons_ne_nil item items) hv.item (place + 1) (layout place).between
    rw [printed_list _ _ (List.cons_ne_nil _ _)] at hfuel hstands ⊢
    simp only [List.cons_append, List.append_assoc, List.nil_append] at hstands ⊢
    simp only [List.length_cons, List.length_append, length_plain] at hfuel
    cases depth with
    | zero => exact .inr ⟨by simp [nesting], _, readValue_deep_list⟩
    | succ depth =>
      have hitems := readItems_printed hlayout (item :: items) (List.cons_ne_nil _ _) hv.item
        (place + 1) fuel depth _ [] rest hbetween hblanks (hlayout place).closing
        hstands.tail.of_append (by omega)
      simp only [shownAll_cons, shownAll_append, shownAll_plain, shown_inl, hps,
        List.cons_append, length_plain] at hitems ⊢
      rw [readValue_list _ _ _ (hlayout place).opening hc hbracket]
      exact hitems.congr (by simp [nesting])
  | .object [] =>
    rw [printed_empty_object] at hstands ⊢
    cases depth with
    | zero => exact .inr ⟨by simp [nesting], _, readValue_deep_object⟩
    | succ depth =>
      have hplace : position + 2 + (shownAll rest).length = total := by
        rw [length_shownAll]
        exact hstands.of_append.place
      exact .inl ⟨by simp [nesting, nestingOfMembers], _, hplace, readValue_empty_object⟩
  | .object (m :: members) =>
    obtain ⟨blanks, hbetween, hblanks⟩ := (hlayout place).between
    obtain ⟨ps, hps⟩ := memberPoints_starts layout (List.cons_ne_nil m members) (place + 1)
      (layout place).between
    rw [printed_object _ _ (List.cons_ne_nil _ _)] at hfuel hstands ⊢
    simp only [List.cons_append, List.append_assoc, List.nil_append] at hstands ⊢
    simp only [List.length_cons, List.length_append, length_plain] at hfuel
    cases depth with
    | zero => exact .inr ⟨by simp [nesting], _, readValue_deep_object⟩
    | succ depth =>
      have hmembers := readMembers_printed hlayout (m :: members) (List.cons_ne_nil _ _) hv.member
        (place + 1) fuel depth _ [] rest hv.formed.here hbetween hblanks (hlayout place).closing
        hstands.tail.of_append (by omega)
      simp only [shownAll_cons, shownAll_append, shownAll_plain, shown_inl, hps,
        List.cons_append, length_plain] at hmembers ⊢
      rw [readValue_object _ _ _ (hlayout place).opening (c := '"') rfl (by decide)]
      exact hmembers.congr (by simp [nesting])

theorem readItems_printed (hlayout : ∀ d, (layout d).IsBlank) (items : List Json)
    (hne : items ≠ []) (hitems : ∀ item ∈ items, item.IsLegible)
    (place fuel depth position : Nat) (done : List Json) (rest : List Point) {between : String}
    {blanks closing : List Char} (hbetween : between.toList = ',' :: blanks)
    (hblanks : ∀ c ∈ blanks, isSpace c = true) (hclosing : ∀ c ∈ closing, isSpace c = true)
    (hstands : Stands halves total position
      (itemPoints layout place between items ++ (plain closing ++ .inl ']' :: rest)))
    (hfuel : 2 * (itemPoints layout place between items).length + 1 ≤ fuel) :
    Reads total (readItems halves fuel depth done position
        (shownAll (itemPoints layout place between items ++ (plain closing ++ .inl ']' :: rest))))
      (nestingOfItems items ≤ depth) (.list (done.reverse ++ items)) (shownAll rest) := by
  obtain ⟨fuel, rfl⟩ := Nat.exists_eq_add_of_le' (show 1 ≤ fuel by omega)
  match items with
  | [] => exact absurd rfl hne
  | item :: items =>
    have hitem := hitems item (by simp)
    have hpos := length_printed_pos layout hitem place
    rw [itemPoints_cons] at hfuel hstands ⊢
    rw [List.length_append] at hfuel
    rw [List.append_assoc] at hstands ⊢
    match items with
    | [] =>
      have htail : pointsOf (itemPieces layout place between between []) = [] := by
        rw [itemPieces]
        rfl
      rw [htail, List.nil_append] at hstands ⊢
      have hread := readValue_printed hlayout item hitem place fuel depth position _
        (ends_closing hclosing (.inl rfl) rest) hstands (by omega)
      rw [shownAll_append (plain closing), shownAll_plain] at hread
      exact hread.items_last done hclosing
    | other :: items =>
      have hothers : ∀ item ∈ other :: items, item.IsLegible := fun i hi => hitems i (by simp [hi])
      obtain ⟨c, ps, hps, hc, -⟩ := itemPoints_starts layout
        (List.cons_ne_nil other items) hothers place between
      obtain ⟨ds, hds⟩ : ∃ ds, shownAll (itemPoints layout place between (other :: items) ++
          (plain closing ++ .inl ']' :: rest)) = c :: ds := ⟨_, by rw [hps]; rfl⟩
      rw [pointsOf_itemPieces _ _ _ _ (List.cons_ne_nil _ _), hbetween] at hfuel hstands ⊢
      rw [List.length_append, length_plain, List.length_cons] at hfuel
      rw [plain_cons, List.cons_append, List.cons_append, List.append_assoc] at hstands ⊢
      have hread := readValue_printed hlayout item hitem place fuel depth position _
        (ends_comma _) hstands (by omega)
      rw [shownAll_cons, shown_inl, shownAll_append (plain blanks), shownAll_plain, hds] at hread
      refine hread.items_next hblanks hc fun next hnext => ?_
      rw [← hds, length_shownAll] at hnext
      have hrest := readItems_printed hlayout (other :: items) (List.cons_ne_nil _ _) hothers
        place fuel depth next (item :: done) rest hbetween hblanks hclosing
        (hstands.of_append.tail.at_place hnext) (by omega)
      rwa [hds, List.reverse_cons, List.append_assoc] at hrest

theorem readMembers_printed (hlayout : ∀ d, (layout d).IsBlank) (members : Members)
    (hne : members ≠ []) (hmembers : ∀ m ∈ members, m.2.IsLegible)
    (place fuel depth position : Nat) (done : Members) (rest : List Point) {between : String}
    {blanks closing : List Char} (hdistinct : (Members.keys (done ++ members)).Nodup)
    (hbetween : between.toList = ',' :: blanks)
    (hblanks : ∀ c ∈ blanks, isSpace c = true) (hclosing : ∀ c ∈ closing, isSpace c = true)
    (hstands : Stands halves total position
      (memberPoints layout place between members ++ (plain closing ++ .inl '\x7d' :: rest)))
    (hfuel : 2 * (memberPoints layout place between members).length + 1 ≤ fuel) :
    Reads total (readMembers halves fuel depth done position
        (shownAll (memberPoints layout place between members ++
          (plain closing ++ .inl '\x7d' :: rest))))
      (nestingOfMembers members ≤ depth) (.object (done ++ members)) (shownAll rest) := by
  obtain ⟨fuel, rfl⟩ := Nat.exists_eq_add_of_le' (show 1 ≤ fuel by omega)
  match members with
  | [] => exact absurd rfl hne
  | (key, value) :: members =>
    have hvalue : value.IsLegible := hmembers _ (List.mem_cons_self ..)
    -- A key that was there before would keep its place; here no key is there twice.
    have hput : done.put key value = done ++ [(key, value)] := by
      refine Members.put_of_not_has (Bool.eq_false_iff.mpr fun hhas => ?_) value
      rw [Members.has_iff] at hhas
      rw [Members.keys, List.map_append, List.nodup_append] at hdistinct
      exact hdistinct.2.2 _ hhas _ (by simp) rfl
    obtain ⟨c, ps, hps, hc, -⟩ := printed_starts hvalue layout place
    have hpos := length_printed_pos layout hvalue place
    rw [memberPoints_cons] at hfuel hstands ⊢
    simp only [List.length_cons, List.length_append] at hfuel
    simp only [List.cons_append, List.append_assoc] at hstands ⊢
    obtain ⟨after, hafter, hkey⟩ := readText_points position [] [] hstands.tail
    have hvalues := hafter.tail.tail
    rw [LooseText.ofPoints_points] at hkey
    match members with
    | [] =>
      have htail : pointsOf (memberPieces layout place between between []) = [] := by
        rw [memberPieces]
        rfl
      obtain ⟨cs, hcs⟩ : ∃ cs, shownAll (printed layout place value ++
          (plain closing ++ .inl '\x7d' :: rest)) = c :: cs := ⟨_, by rw [hps]; rfl⟩
      rw [htail, List.nil_append] at hvalues hkey ⊢
      have hread := readValue_printed hlayout value hvalue place fuel depth _ _
        (ends_closing hclosing (.inr rfl) rest) hvalues (by omega)
      rw [hcs, shownAll_append (plain closing), shownAll_plain] at hread
      rw [shownAll_cons, shownAll_cons, hcs] at hkey
      rw [shownAll_cons, ← hput]
      exact Reads.members_last done hkey hc hread hclosing
    | other :: members =>
      have hothers : ∀ m ∈ other :: members, m.2.IsLegible :=
        fun m hm => hmembers m (List.mem_cons_of_mem _ hm)
      obtain ⟨qs, hqs⟩ := memberPoints_starts layout (List.cons_ne_nil other members) place between
      obtain ⟨ds, hds⟩ : ∃ ds, shownAll (memberPoints layout place between (other :: members) ++
          (plain closing ++ .inl '\x7d' :: rest)) = '"' :: ds := ⟨_, by rw [hqs]; rfl⟩
      rw [pointsOf_memberPieces _ _ _ _ (List.cons_ne_nil _ _), hbetween] at hfuel hvalues hkey ⊢
      rw [List.length_append, length_plain, List.length_cons] at hfuel
      rw [plain_cons, List.cons_append, List.cons_append, List.append_assoc] at hvalues hkey ⊢
      have hread := readValue_printed hlayout value hvalue place fuel depth _ _
        (ends_comma _) hvalues (by omega)
      obtain ⟨cs, hcs⟩ : ∃ cs, shownAll (printed layout place value ++
          .inl ',' :: (plain blanks ++ (memberPoints layout place between (other :: members) ++
            (plain closing ++ .inl '\x7d' :: rest)))) = c :: cs := ⟨_, by rw [hps]; rfl⟩
      rw [hcs, shownAll_cons, shown_inl, shownAll_append (plain blanks), shownAll_plain, hds]
        at hread
      rw [shownAll_cons, shownAll_cons, hcs] at hkey
      rw [shownAll_cons]
      refine Reads.members_next hkey hc hread hblanks rfl fun next hnext => ?_
      rw [← hds, length_shownAll] at hnext
      have hrest := readMembers_printed hlayout (other :: members) (List.cons_ne_nil _ _) hothers
        place fuel depth next (done ++ [(key, value)]) rest (by simpa using hdistinct) hbetween
        hblanks hclosing (hvalues.of_append.tail.at_place hnext) (by omega)
      rwa [hds, List.append_assoc, ← hput] at hrest

end

/-- A text of the code points that are printed of a value is read back as that value, unless it is
nested too deep. -/
theorem parseWithin_printed (hlayout : ∀ d, (layout d).IsBlank) {v : Json} (hv : v.IsLegible)
    {w : LooseText} (hw : w.points = printed layout 0 v) (depth : Nat) :
    (nesting v ≤ depth → parseWithin depth w = .ok v) ∧
      (¬nesting v ≤ depth → ∃ kind, parseWithin depth w = .error (.tooDeep kind)) := by
  obtain ⟨c, ps, hps, hc, -, hmark⟩ := printed_starts hv layout 0
  have hshown : w.patched.toList = shownAll (printed layout 0 v) := by
    rw [LooseText.toList_patched, hw]
  have hskip : skip 0 (shownAll (printed layout 0 v)) = (0, shownAll (printed layout 0 v)) := by
    rw [hps, shownAll_cons, shown_inl, skip, if_neg (by simp [hc])]
  have hhead : (shownAll (printed layout 0 v)).head? ≠ some '\uFEFF' := by
    rw [hps]
    simpa using hmark
  have hstands := stands_points w
  rw [hw, ← List.append_nil (printed layout 0 v)] at hstands
  have hread := readValue_printed hlayout v hv 0 (2 * (shownAll (printed layout 0 v)).length + 2)
    depth 0 [] ends_nil hstands (by rw [length_shownAll]; omega)
  rw [List.append_nil] at hread
  constructor
  · intro hfits
    obtain ⟨after, hafter⟩ := hread.ok hfits
    simp only [parseWithin, hshown, if_neg hhead, hskip, hafter]
    rfl
  · intro hdeep
    obtain ⟨kind, hkind⟩ := hread.error hdeep
    refine ⟨kind, ?_⟩
    simp only [parseWithin, hshown, if_neg hhead, hskip, hkind]

end ReadingBack

/-- A line is read back as the value that it was printed of, whatever its texts. -/
theorem parseWithin_line {v : Json} (hv : v.IsLegible) {depth : Nat} (h : nesting v ≤ depth) :
    parseWithin depth v.line = .ok v :=
  (parseWithin_printed (fun _ => Layout.isBlank_compact) hv (points_line v) depth).1 h

end Catalogue.Json
