import Catalogue.Filter.Like
import Mathlib.Data.List.Infix
import Mathlib.Data.List.TakeWhile

/-! What pattern search finds: a text matches where some reading of its pattern covers the whole of
it.  A search that is given up has no later start that would match, so giving up loses nothing. -/

namespace Catalogue.Filter.Like

/-- A text is covered by a pattern: `%` by any run of characters, `_` by one character, and every
other character by one that compares equal. -/
inductive Matches : List Char → List Char → Prop where
  | nil : Matches [] []
  | run {pattern rest : List Char} (skipped : List Char) :
      Matches pattern rest → Matches ('%' :: pattern) (skipped ++ rest)
  | one {pattern cs : List Char} (p c : Char) : p ≠ '%' → p = '_' ∨ fold p = fold c →
      Matches pattern cs → Matches (p :: pattern) (c :: cs)

theorem matches_nil_iff {text : List Char} : Matches [] text ↔ text = [] := by
  constructor
  · intro h
    cases h
    rfl
  · rintro rfl
    exact .nil

theorem matches_run_iff {pattern text : List Char} :
    Matches ('%' :: pattern) text ↔ ∃ rest, rest <:+ text ∧ Matches pattern rest := by
  constructor
  · intro h
    cases h with
    | run skipped h => exact ⟨_, List.suffix_append _ _, h⟩
    | one _ _ hp => exact absurd rfl hp
  · rintro ⟨rest, ⟨skipped, rfl⟩, h⟩
    exact .run skipped h

theorem matches_one_iff {p c : Char} {pattern cs : List Char} (hp : p ≠ '%') :
    Matches (p :: pattern) (c :: cs) ↔ (p = '_' ∨ fold p = fold c) ∧ Matches pattern cs := by
  constructor
  · intro h
    generalize hpattern : p :: pattern = whole at h
    generalize htext : c :: cs = text at h
    cases h with
    | nil => cases hpattern
    | run skipped h => exact absurd (List.cons.inj hpattern).1 hp
    | one q d _ hqd h =>
      obtain ⟨rfl, rfl⟩ := List.cons.inj hpattern
      obtain ⟨rfl, rfl⟩ := List.cons.inj htext
      exact ⟨hqd, h⟩
  · rintro ⟨hc, h⟩
    exact .one p c hp hc h

theorem not_matches_one_nil {p : Char} {pattern : List Char} (hp : p ≠ '%') :
    ¬Matches (p :: pattern) [] := by
  intro h
  generalize hpattern : p :: pattern = whole at h
  generalize htext : ([] : List Char) = text at h
  cases h with
  | nil => cases hpattern
  | run skipped h => exact hp (List.cons.inj hpattern).1
  | one => cases htext

/-- Comparing with a pattern finds exactly the texts that match it, and gives up only where no end
of the text matches. -/
def Decides (compare : List Char → Outcome) (pattern : List Char) : Prop :=
  ∀ text, (compare text = .found ↔ Matches pattern text) ∧
    (compare text = .exhausted → ∀ rest, rest <:+ text → ¬Matches pattern rest)

theorem seek_decides {compare : List Char → Outcome} {pattern : List Char}
    (h : Decides compare pattern) (text : List Char) :
    (seek compare text = .found ∧ ∃ rest, rest <:+ text ∧ Matches pattern rest) ∨
      (seek compare text = .exhausted ∧ ∀ rest, rest <:+ text → ¬Matches pattern rest) := by
  induction text with
  | nil =>
    unfold seek
    cases hc : compare [] with
    | found => exact .inl ⟨rfl, [], List.suffix_rfl, (h []).1.mp hc⟩
    | failed =>
      refine .inr ⟨rfl, fun rest hrest hm => ?_⟩
      rw [List.suffix_nil.mp hrest, ← (h []).1, hc] at hm
      cases hm
    | exhausted => exact .inr ⟨rfl, (h []).2 hc⟩
  | cons c cs ih =>
    unfold seek
    cases hc : compare (c :: cs) with
    | found => exact .inl ⟨rfl, c :: cs, List.suffix_rfl, (h _).1.mp hc⟩
    | exhausted => exact .inr ⟨rfl, (h _).2 hc⟩
    | failed =>
      rcases ih with ⟨hseek, rest, hrest, hm⟩ | ⟨hseek, hnone⟩
      · exact .inl ⟨hseek, rest, hrest.trans (List.suffix_cons c cs), hm⟩
      · refine .inr ⟨hseek, fun rest hrest hm => ?_⟩
        rcases List.suffix_cons_iff.mp hrest with rfl | hrest
        · rw [← (h _).1, hc] at hm
          cases hm
        · exact hnone rest hrest hm

theorem Decides.run {pattern : List Char} (h : Decides (compare pattern) pattern) :
    Decides (compare ('%' :: pattern)) ('%' :: pattern) := by
  intro text
  have hcompare : compare ('%' :: pattern) text = seek (compare pattern) text := by
    cases text <;> rw [compare, if_pos rfl]
  rw [hcompare, matches_run_iff]
  rcases seek_decides h text with ⟨hseek, hm⟩ | ⟨hseek, hnone⟩
  · rw [hseek]
    exact ⟨iff_of_true rfl hm, fun he => by cases he⟩
  · rw [hseek]
    refine ⟨iff_of_false (by simp) fun ⟨rest, hrest, hm⟩ => hnone rest hrest hm, ?_⟩
    -- An end of an end of the text is an end of the text.
    intro _ rest hrest hm
    obtain ⟨last, hlast, hm⟩ := matches_run_iff.mp hm
    exact hnone last (hlast.trans hrest) hm

theorem Decides.one {p : Char} {pattern : List Char} (hp : p ≠ '%')
    (h : Decides (compare pattern) pattern) : Decides (compare (p :: pattern)) (p :: pattern) := by
  intro text
  cases text with
  | nil =>
    rw [compare, if_neg hp]
    refine ⟨iff_of_false (by simp) (not_matches_one_nil hp), fun _ rest hrest => ?_⟩
    rw [List.suffix_nil.mp hrest]
    exact not_matches_one_nil hp
  | cons c cs =>
    have hcompare : compare (p :: pattern) (c :: cs) =
        if p = '_' ∨ fold p = fold c then compare pattern cs else .failed := by
      rw [compare, if_neg hp]
    rw [hcompare, matches_one_iff hp]
    split
    · next hc =>
      refine ⟨by simp [hc, (h cs).1], fun he rest hrest hm => ?_⟩
      cases rest with
      | nil => exact not_matches_one_nil hp hm
      | cons d ds =>
        have hds : ds <:+ cs := by
          rcases List.suffix_cons_iff.mp hrest with he | hrest
          · rw [(List.cons.inj he).2]
          · exact (List.suffix_cons d ds).trans hrest
        exact (h cs).2 he ds hds ((matches_one_iff hp).mp hm).2
    · next hc => simp [hc]

theorem compare_decides (pattern : List Char) : Decides (compare pattern) pattern := by
  induction pattern with
  | nil =>
    intro text
    rw [matches_nil_iff]
    cases text <;> simp [compare]
  | cons p pattern ih =>
    by_cases hp : p = '%'
    · subst hp
      exact ih.run
    · exact ih.one hp

/-- A text matches a pattern where the search finds it. -/
theorem compare_found_iff (pattern text : List Char) :
    compare pattern text = .found ↔ Matches pattern text := (compare_decides pattern text).1

/-! ### Searching for a part of a text -/

/-- No character of the text stands for anything but itself. -/
def IsPlain (s : String) : Prop := ∀ c ∈ s.toList, c ≠ '%' ∧ c ≠ '_' ∧ c ≠ '\x00'

instance (s : String) : Decidable (IsPlain s) :=
  List.decidableBAll (fun c => c ≠ '%' ∧ c ≠ '_' ∧ c ≠ '\x00') s.toList

/-- The text holds no U+0000. -/
def IsWhole (s : String) : Prop := '\x00' ∉ s.toList

instance (s : String) : Decidable (IsWhole s) :=
  inferInstanceAs (Decidable ('\x00' ∉ s.toList))

/-- The text `s` holds the text `part`, up to what the comparison takes for equal. -/
def Contains (part s : String) : Prop := part.toList.map fold <:+: s.toList.map fold

theorem matches_append_iff {word pattern text : List Char}
    (hword : ∀ c ∈ word, c ≠ '%' ∧ c ≠ '_') :
    Matches (word ++ pattern) text ↔
      ∃ first rest, text = first ++ rest ∧ first.map fold = word.map fold ∧
        Matches pattern rest := by
  induction word generalizing text with
  | nil => simp
  | cons p word ih =>
    obtain ⟨hp, hone⟩ := hword p (by simp)
    cases text with
    | nil =>
      refine iff_of_false (not_matches_one_nil hp) ?_
      rintro ⟨first, rest, htext, hfirst, -⟩
      have : first = [] := (List.append_eq_nil_iff.mp htext.symm).1
      simp [this] at hfirst
    | cons c cs =>
      rw [List.cons_append, matches_one_iff hp, ih fun d hd => hword d (by simp [hd])]
      constructor
      · rintro ⟨hc, first, rest, rfl, hfirst, hm⟩
        refine ⟨c :: first, rest, rfl, ?_, hm⟩
        rw [List.map_cons, List.map_cons, hfirst, hc.resolve_left hone]
      · rintro ⟨first, rest, htext, hfirst, hm⟩
        cases first with
        | nil => cases hfirst
        | cons d first =>
          obtain ⟨rfl, rfl⟩ := List.cons.inj htext
          obtain ⟨hd, hfirst⟩ := List.cons.inj hfirst
          exact ⟨.inr hd.symm, first, rest, rfl, hfirst, hm⟩

theorem matches_run (text : List Char) : Matches ['%'] text :=
  matches_run_iff.mpr ⟨[], List.nil_suffix, .nil⟩

/-- A word between two marks for a run matches the texts that hold it. -/
theorem matches_enclosed_iff {word text : List Char} (hword : ∀ c ∈ word, c ≠ '%' ∧ c ≠ '_') :
    Matches ('%' :: (word ++ ['%'])) text ↔ word.map fold <:+: text.map fold := by
  rw [matches_run_iff]
  constructor
  · rintro ⟨_, ⟨before, rfl⟩, h⟩
    obtain ⟨first, rest, rfl, hfirst, -⟩ := (matches_append_iff hword).mp h
    rw [← hfirst]
    exact ⟨before.map fold, rest.map fold, by simp⟩
  · rintro ⟨before, after, h⟩
    rw [List.append_assoc] at h
    obtain ⟨before', rest', rfl, -, hrest⟩ := List.append_eq_map_iff.mp h
    obtain ⟨first, after', rfl, hfirst, -⟩ := List.map_eq_append_iff.mp hrest
    exact ⟨first ++ after', List.suffix_append _ _,
      (matches_append_iff hword).mpr ⟨first, after', rfl, hfirst, matches_run after'⟩⟩

theorem visible_eq {s : String} (h : IsWhole s) : visible s = s.toList := by
  rw [visible, List.takeWhile_eq_self_iff]
  intro c hc
  have hne : c ≠ '\x00' := fun he => h (he ▸ hc)
  simpa using hne

theorem isMatch_iff (pattern s : String) :
    isMatch pattern s = true ↔ Matches (visible pattern) (visible s) := by
  rw [isMatch, beq_iff_eq, compare_found_iff]

/-- The search for a plain part of a text finds it wherever it stands before the end. -/
theorem isMatch_enclosed_visible_iff {part : String} (hpart : IsPlain part) (s : String) :
    isMatch ("%" ++ part ++ "%") s = true ↔ part.toList.map fold <:+: (visible s).map fold := by
  have hpattern : ("%" ++ part ++ "%").toList = '%' :: (part.toList ++ ['%']) := by
    simp [String.toList_append]
  have hwhole : IsWhole ("%" ++ part ++ "%") := by
    rw [IsWhole, hpattern]
    simp only [List.mem_cons, List.mem_append, List.not_mem_nil, or_false, not_or]
    exact ⟨by decide, fun hc => (hpart _ hc).2.2 rfl, by decide⟩
  rw [isMatch_iff, visible_eq hwhole, hpattern,
    matches_enclosed_iff fun c hc => ⟨(hpart c hc).1, (hpart c hc).2.1⟩]

theorem isMatch_enclosed_iff {part s : String} (hpart : IsPlain part) (hs : IsWhole s) :
    isMatch ("%" ++ part ++ "%") s = true ↔ Contains part s := by
  rw [isMatch_enclosed_visible_iff hpart, visible_eq hs]
  exact Iff.rfl

/-- The comparison takes nothing else for a bar. -/
theorem fold_eq_bar_iff (c : Char) : fold c = '|' ↔ c = '|' := by
  have hcapital : ∀ n < 91, 65 ≤ n → Char.ofNat (n + 32) ≠ '|' := by decide
  unfold fold
  split
  · next h =>
    refine iff_of_false (hcapital c.toNat (Nat.lt_succ_of_le h.2) h.1) fun he => ?_
    subst he
    exact absurd h (by decide)
  · split
    · next h =>
      refine iff_of_false (by decide) fun he => ?_
      subst he
      exact absurd h (by decide)
    · exact Iff.rfl

end Catalogue.Filter.Like
