import Catalogue.Proofs.Filter.Reading

/-! Searches for a whole text among those of a list.  The text that is looked for becomes part of a
pattern, in which some characters stand for others too: a search finds equal texts alone exactly
where none of these characters is looked for. -/

namespace Catalogue

open Catalogue.Filter Text

/-- Two texts are equal up to the case of ASCII letters. -/
def SameUpToCase (s t : String) : Prop := s.toList.map Char.toLower = t.toList.map Char.toLower

instance (s t : String) : Decidable (SameUpToCase s t) :=
  inferInstanceAs (Decidable (s.toList.map Char.toLower = t.toList.map Char.toLower))

namespace Filter.Like

/-- The characters of a pattern that stand for others too: the two marks, the one that ends the
pattern, and those that are compared as one. -/
def inexact : List Char := ['%', '_', '\x00', '\uFFFD', '\uFFFE', '\uFFFF']

/-- Every character of the text stands for itself alone, in either case. -/
def IsExact (s : String) : Prop := ∀ c ∈ s.toList, c ∉ inexact

instance (s : String) : Decidable (IsExact s) :=
  List.decidableBAll (fun c => c ∉ inexact) s.toList

theorem IsExact.isPlain {s : String} (h : IsExact s) : IsPlain s := by
  intro c hc
  have hexact := h c hc
  simp only [inexact, List.mem_cons, not_or] at hexact
  exact ⟨hexact.1, hexact.2.1, hexact.2.2.1⟩

theorem IsPlain.isWhole {s : String} (h : IsPlain s) : IsWhole s := fun hmem => (h _ hmem).2.2 rfl

/-! ### Characters that are compared as one -/

theorem toLower_of_not_capital {c : Char} (h : ¬('A'.toNat ≤ c.toNat ∧ c.toNat ≤ 'Z'.toNat)) :
    c.toLower = c :=
  dif_neg (show ¬(c.val ≥ 'A'.val ∧ c.val ≤ 'Z'.val) from h)

theorem fold_eq_toLower {c : Char} (h : c ≠ '\uFFFE' ∧ c ≠ '\uFFFF') : fold c = c.toLower := by
  by_cases hcapital : 'A'.toNat ≤ c.toNat ∧ c.toNat ≤ 'Z'.toNat
  · have hall : ∀ n < 91, 65 ≤ n → fold (Char.ofNat n) = (Char.ofNat n).toLower := by decide
    rw [← Char.ofNat_toNat c]
    exact hall c.toNat (Nat.lt_succ_of_le hcapital.2) hcapital.1
  · rw [fold, if_neg hcapital, if_neg (by simp [h.1, h.2]), toLower_of_not_capital hcapital]

/-- Only ASCII letters are small letters of other characters. -/
theorem eq_of_toLower_eq {c d : Char} (hd : 123 ≤ d.toNat) (h : c.toLower = d) : c = d := by
  by_cases hcapital : 'A'.toNat ≤ c.toNat ∧ c.toNat ≤ 'Z'.toNat
  · have hall : ∀ n < 91, 65 ≤ n → (Char.ofNat n).toLower.toNat < 123 := by decide
    have hbelow := hall c.toNat (Nat.lt_succ_of_le hcapital.2) hcapital.1
    rw [Char.ofNat_toNat, h] at hbelow
    omega
  · rwa [toLower_of_not_capital hcapital] at h

theorem toLower_eq_replacement {c : Char} (h : c.toLower = '\uFFFD') : c = '\uFFFD' :=
  eq_of_toLower_eq (by decide) h

/-- An exact character compares equal to the two cases of itself alone. -/
theorem fold_eq_iff_toLower_eq {c d : Char} (hc : c ∉ inexact) :
    fold d = fold c ↔ d.toLower = c.toLower := by
  simp only [inexact, List.mem_cons, List.not_mem_nil, or_false, not_or] at hc
  obtain ⟨-, -, -, hreplacement, hfirst, hsecond⟩ := hc
  rw [fold_eq_toLower ⟨hfirst, hsecond⟩]
  by_cases hd : d = '\uFFFE' ∨ d = '\uFFFF'
  · have hfold : fold d = '\uFFFD' := by rcases hd with rfl | rfl <;> decide
    have hlower : d.toLower = d := by rcases hd with rfl | rfl <;> decide
    refine iff_of_false (fun h => ?_) fun h => ?_
    · exact hreplacement (toLower_eq_replacement (h.symm.trans hfold))
    · rw [hlower] at h
      -- Neither of the two is the small letter of another character.
      rcases hd with rfl | rfl
      · exact hfirst (eq_of_toLower_eq (by decide) h.symm)
      · exact hsecond (eq_of_toLower_eq (by decide) h.symm)
  · rw [fold_eq_toLower (not_or.mp hd)]

/-- Texts are compared with exact characters up to their case. -/
theorem map_fold_eq_iff {cs ds : List Char} (h : ∀ d ∈ ds, d ∉ inexact) :
    cs.map fold = ds.map fold ↔ cs.map Char.toLower = ds.map Char.toLower := by
  induction ds generalizing cs with
  | nil => simp
  | cons d ds ih =>
    obtain ⟨hd, hds⟩ := List.forall_mem_cons.mp h
    cases cs with
    | nil => simp
    | cons c cs =>
      rw [List.map_cons, List.map_cons, List.map_cons, List.map_cons, List.cons.injEq,
        List.cons.injEq, fold_eq_iff_toLower_eq hd, ih hds]

theorem IsExact.sameText_iff {s t : String} (h : IsExact t) : SameText s t ↔ SameUpToCase s t :=
  map_fold_eq_iff h

/-- Every other character stands for one that differs from it, besides standing for itself. -/
theorem exists_other {c : Char} (h : c ∈ inexact) (hend : c ≠ '\x00') :
    ∃ d, d ≠ '|' ∧ d ≠ '\x00' ∧ d.toLower ≠ c.toLower ∧ Matches [c] [d] := by
  simp only [inexact, List.mem_cons, List.not_mem_nil, or_false] at h
  rcases h with rfl | rfl | rfl | rfl | rfl | rfl
  · exact ⟨'-', by decide, by decide, by decide, .run ['-'] .nil⟩
  · exact ⟨'-', by decide, by decide, by decide, .one _ _ (by decide) (.inl rfl) .nil⟩
  · exact absurd rfl hend
  · exact ⟨'\uFFFE', by decide, by decide, by decide, .one _ _ (by decide) (.inr (by decide)) .nil⟩
  · exact ⟨'\uFFFD', by decide, by decide, by decide, .one _ _ (by decide) (.inr (by decide)) .nil⟩
  · exact ⟨'\uFFFD', by decide, by decide, by decide, .one _ _ (by decide) (.inr (by decide)) .nil⟩

/-! ### Patterns that are put together -/

theorem matches_append {p q s t : List Char} (hp : Matches p s) (hq : Matches q t) :
    Matches (p ++ q) (s ++ t) := by
  induction hp with
  | nil => exact hq
  | run skipped _ ih =>
    rw [List.cons_append, List.append_assoc]
    exact .run skipped ih
  | one p c hp hc _ ih => exact .one p c hp hc ih

/-- A text taken as a pattern matches itself. -/
theorem matches_self (s : List Char) : Matches s s := by
  induction s with
  | nil => exact .nil
  | cons c cs ih =>
    by_cases hc : c = '%'
    · subst hc
      exact .run ['%'] ih
    · exact .one c c hc (.inr rfl) ih

end Filter.Like

namespace FieldList

theorem toList_pattern (text : String) :
    (pattern text).toList = '%' :: '|' :: (text.toList ++ ['|', '%']) := by
  simp [pattern, String.toList_append]

theorem toList_encode_single (s : String) : (encode [s]).toList = '|' :: (s.toList ++ ['|']) := by
  rw [encode_of_ne_nil (List.cons_ne_nil _ _), join, String.intercalate_singleton, toList_enclosed]

theorem pattern_isWhole {text : String} (h : Like.IsWhole text) : Like.IsWhole (pattern text) := by
  rw [Like.IsWhole, toList_pattern]
  simpa [Like.IsWhole] using h

theorem readBack_eq {texts : List String} (hbars : ∀ s ∈ texts, bar ∉ s.toList)
    (h : texts ≠ [""]) : readBack texts = texts := by
  unfold readBack
  split
  · next hempty => exact (hempty.resolve_right h).symm
  · have hpieces : texts.flatMap (pieces bar) = texts.flatMap fun s => [s] :=
      List.flatMap_congr fun s hs => pieces_of_not_mem (hbars s hs)
    rw [hpieces, List.flatMap_singleton']

/-- What stands between two bars of a column is one of the texts, where none of them holds one. -/
theorem exists_of_enclosed_infix {f : Char → Char} (hf : ∀ c, f c = bar ↔ c = bar) {word : String}
    (hword : bar ∉ word.toList) {texts : List String} (hbars : ∀ s ∈ texts, bar ∉ s.toList)
    (h : ('|' :: (word.toList ++ ['|'])).map f <:+: (encode texts).toList.map f) :
    ∃ s ∈ texts, s.toList.map f = word.toList.map f := by
  by_cases hlist : texts = [""]
  · -- The column of one empty text is two bars, which have room for the empty word alone.
    subst hlist
    have hlength := h.length_le
    have hempty : word.toList = [] := by
      rw [toList_encode_single] at hlength
      simpa using hlength
    exact ⟨"", by simp, by simp [hempty]⟩
  · have hback := (enclosed_infix_encode_iff hf hword hlist).mp h
    rwa [readBack_eq hbars hlist] at hback

end FieldList

/-! ### What a search for a whole text finds -/

/-- Wherever a search for the value finds a list, one of the texts is equal to the value. -/
def FindsWhole (value : String) : Prop :=
  ∀ texts, (∀ s ∈ texts, FieldList.bar ∉ s.toList) →
    Like.isMatch (FieldList.pattern value) (FieldList.encode texts) = true →
    ∃ s ∈ texts, SameUpToCase s value

/-- Where every character stands for itself, equal texts alone are found. -/
theorem Filter.Like.IsExact.findsWhole {value : String} (h : Like.IsExact value)
    (hvalue : FieldList.bar ∉ value.toList) : FindsWhole value := by
  intro texts hbars hmatch
  rw [FieldList.pattern_eq, Like.isMatch_enclosed_visible_iff (isPlain_enclosed h.isPlain),
    FieldList.toList_enclosed] at hmatch
  have hseen : Like.visible (FieldList.encode texts) <:+: (FieldList.encode texts).toList :=
    (List.takeWhile_prefix _).isInfix
  obtain ⟨s, hs, hsame⟩ := FieldList.exists_of_enclosed_infix Like.fold_eq_bar_iff hvalue hbars
    (hmatch.trans (hseen.map Like.fold))
  exact ⟨s, hs, h.sameText_iff.mp hsame⟩

/-- Behind U+0000 nothing of the value is looked for. -/
theorem not_findsWhole_of_end {value : String} (hvalue : FieldList.bar ∉ value.toList)
    (hend : '\x00' ∈ value.toList) : ¬FindsWhole value := by
  intro hfinds
  obtain ⟨before, after, hsplit, hbefore⟩ := List.eq_append_cons_of_mem hend
  have hvisible (rest : List Char) : ('|' :: (before ++ '\x00' :: rest)).takeWhile (· ≠ '\x00') =
      '|' :: before := by
    rw [← List.cons_append, List.takeWhile_append_of_pos]
    · simp
    · intro c hc
      rcases List.mem_cons.mp hc with rfl | hc
      · decide
      · have hne : c ≠ '\x00' := fun he => hbefore (he ▸ hc)
        simpa using hne
  have hpattern : Like.visible (FieldList.pattern value) = '%' :: '|' :: before := by
    rw [Like.visible, FieldList.toList_pattern, hsplit, List.append_assoc, List.cons_append,
      List.takeWhile_cons_of_pos (by decide), hvisible]
  have hcolumn : Like.visible (FieldList.encode [value ++ "-"]) = '|' :: before := by
    rw [Like.visible, FieldList.toList_encode_single, String.toList_append, hsplit,
      List.append_assoc, List.append_assoc, List.cons_append, hvisible]
  have hmatch : Like.isMatch (FieldList.pattern value)
      (FieldList.encode [value ++ "-"]) = true := by
    rw [Like.isMatch_iff, hpattern, hcolumn]
    exact .run [] (Like.matches_self _)
  obtain ⟨s, hs, hsame⟩ := hfinds [value ++ "-"]
    (by simpa [String.toList_append, FieldList.bar] using hvalue) hmatch
  have hlength := congrArg List.length (List.mem_singleton.mp hs ▸ hsame)
  simp [String.toList_append] at hlength

/-- In the place of a character that stands for others too, a text may have another one. -/
theorem not_findsWhole_of_mem {value : String} (hvalue : FieldList.bar ∉ value.toList)
    (hwhole : Like.IsWhole value) {c : Char} (hc : c ∈ Like.inexact) (hmem : c ∈ value.toList) :
    ¬FindsWhole value := by
  intro hfinds
  obtain ⟨before, after, hsplit⟩ := List.append_of_mem hmem
  obtain ⟨d, hbar, hend, hdiffers, hmatches⟩ :=
    Like.exists_other hc fun he => hwhole (he ▸ hmem)
  let other := String.ofList (before ++ d :: after)
  have hother : other.toList = before ++ d :: after := String.toList_ofList
  have hbars : FieldList.bar ∉ other.toList := by
    rw [hsplit] at hvalue
    rw [hother]
    simp only [List.mem_append, List.mem_cons, not_or] at hvalue ⊢
    exact ⟨hvalue.1, hbar.symm, hvalue.2.2⟩
  have hwholeOther : ∀ s ∈ [other], Like.IsWhole s := by
    rw [Like.IsWhole, hsplit] at hwhole
    rw [List.forall_mem_singleton, Like.IsWhole, hother]
    simp only [List.mem_append, List.mem_cons, not_or] at hwhole ⊢
    exact ⟨hwhole.1, hend.symm, hwhole.2.2⟩
  have hmatch : Like.isMatch (FieldList.pattern value) (FieldList.encode [other]) = true := by
    rw [Like.isMatch_iff, Like.visible_eq (FieldList.pattern_isWhole hwhole),
      Like.visible_eq (encode_isWhole hwholeOther), FieldList.toList_pattern,
      FieldList.toList_encode_single, hsplit, hother]
    refine .run [] (.one '|' '|' (by decide) (.inr rfl) ?_)
    have hword : Like.Matches (before ++ c :: after) (before ++ d :: after) :=
      Like.matches_append (Like.matches_self before)
        (Like.matches_append hmatches (Like.matches_self after))
    exact Like.matches_append hword (.one '|' '|' (by decide) (.inr rfl) (Like.matches_run []))
  obtain ⟨s, hs, hsame⟩ := hfinds [other] (by simpa using hbars) hmatch
  rw [List.mem_singleton.mp hs, SameUpToCase, hother, hsplit, List.map_append, List.map_append,
    List.append_cancel_left_eq, List.map_cons, List.map_cons] at hsame
  exact hdiffers (List.cons.inj hsame).1

theorem FindsWhole.isExact {value : String} (h : FindsWhole value)
    (hvalue : FieldList.bar ∉ value.toList) : Like.IsExact value := by
  have hwhole : Like.IsWhole value := fun hend => not_findsWhole_of_end hvalue hend h
  exact fun c hmem hc => not_findsWhole_of_mem hvalue hwhole hc hmem h

/-! ### What a selection finds -/

/-- The list of a column, as it stands in a form. -/
def Form.listIn (form : Form) : ListColumn → List String
  | .authors => form.authors
  | .themes => form.themes
  | .worksMentioned => form.worksMentioned
  | .tags => form.tags

/-- The column in which an argument looks for whole texts. -/
def Filter.Key.listColumn? : Key → Option ListColumn
  | .author => some .authors
  | .holds column => some column
  | _ => none

theorem Saved.row_listIn (s : Saved) (column : ListColumn) :
    s.row.listIn column = FieldList.encode (s.form.listIn column) := by
  cases column <;> rfl

/-- A value without a bar is looked for as a whole. -/
theorem Filter.Key.argument_listColumn {key : Key} {column : ListColumn}
    (h : key.listColumn? = some column) (name : String) {value : String}
    (hvalue : FieldList.bar ∉ value.toList) :
    key.argument name value = .ok (.clauses [.holds column value]) := by
  cases key with
  | author =>
    cases h
    rfl
  | holds =>
    cases h
    rw [Key.argument, pieces_of_not_mem hvalue]
    rfl
  | _ => cases h

theorem holds_mem_clauses {text : String} {q : Query} (h : compile text = .ok q) {name : String}
    {key : Key} {column : ListColumn} {value : String} (hvalue : FieldList.bar ∉ value.toList)
    (hkey : Key.ofName? name = some key) (hcolumn : key.listColumn? = some column)
    (hpair : (name, value) ∈ pairs text) : .holds column value ∈ q.clauses := by
  have hadded : ∀ pair ∈ pairs text, ∀ argument, readArgument pair = .ok argument →
      ∀ clause ∈ argument.added, clause ∈ q.clauses := by
    refine (forall_clauses_iff h fun pair _ argument hargument => ?_).mp fun _ hclause => hclause
    simp [hargument]
  have hargument : readArgument (name, value) = .ok (.clauses [.holds column value]) := by
    exact readArgument_eq_ok_iff.mpr ⟨key, hkey, Key.argument_listColumn hcolumn name hvalue⟩
  exact hadded _ hpair _ hargument _ (List.mem_singleton.mpr rfl)

/-- A search for a whole text finds equal texts alone exactly where every character of the text
stands for itself, and then no query selects an entry for a text that is not the one asked for. -/
theorem findsWhole_iff_isExact {value : String} (hvalue : FieldList.bar ∉ value.toList) :
    (FindsWhole value ↔ Like.IsExact value) ∧
    (Like.IsExact value → ∀ {text q t rows name key column}, compile text = .ok q →
      (name, value) ∈ pairs text → Key.ofName? name = some key →
      key.listColumn? = some column → EntryTable.select t q = .ok rows → ∀ s : Saved,
      (∀ e ∈ s.form.listIn column, FieldList.bar ∉ e.toList) → s.row ∈ rows →
      ∃ e ∈ s.form.listIn column, SameUpToCase e value) := by
  refine ⟨⟨fun h => h.isExact hvalue, fun h => h.findsWhole hvalue⟩, ?_⟩
  intro hexact text q t rows name key column hcompile hpair hkey hcolumn hselect s hbars hrow
  have hmatches : s.row.matches_ q = true := by
    rw [EntryTable.eq_matching_of_select hselect] at hrow
    exact (List.mem_filter.mp hrow).2
  have hclause : Clause.holdsOf s.row (.holds column value) = .ok true :=
    Row.holdsOf_of_satisfies (Row.satisfies_of_matches hmatches) _
      (holds_mem_clauses hcompile hvalue hkey hcolumn hpair)
  rw [Clause.holdsOf, search] at hclause
  split at hclause
  · rw [s.row_listIn] at hclause
    exact hexact.findsWhole hvalue _ hbars (Except.ok.inj hclause)
  · cases hclause

theorem findsWhole_iff_isExact_word : ∃ t q rows, ∃ s : Saved,
    compile ("tags" ++ "=" ++ "Rust") = .ok q ∧ EntryTable.select t q = .ok rows ∧
      s.row ∈ rows ∧ FindsWhole "Rust" ∧ ∃ e ∈ s.form.listIn .tags, SameUpToCase e "Rust" := by
  obtain ⟨hcompile, hpairs⟩ := compile_single (by decide : '=' ∉ "tags".toList) (by decide)
    (by decide : '%' ∉ "Rust".toList ∧ '&' ∉ "Rust".toList)
    (rfl : readArgument ("tags", "Rust") = .ok (.clauses [.holds .tags "Rust"]))
  let s : Saved := ⟨1, { Form.sample with tags := ["Go", "rust"] }, .first⟩
  have hshort : Like.isSearchable (FieldList.pattern "Rust") = true := by decide
  have hfound : Like.isMatch (FieldList.pattern "Rust") (s.row.listIn .tags) = true := by decide
  have hselect : EntryTable.select ⟨[s.row], 1⟩ ⟨[.holds .tags "Rust"], 0, none⟩ =
      .ok [s.row] := by
    rw [EntryTable.select_single]
    simp only [selectFrom, Row.satisfies, Clause.holdsOf, search, hshort, hfound]
    rfl
  obtain ⟨hfinds, hselected⟩ := findsWhole_iff_isExact (by decide : FieldList.bar ∉ "Rust".toList)
  have hexact : Like.IsExact "Rust" := by decide
  exact ⟨_, _, _, s, hcompile, hselect, by simp, hfinds.mpr hexact,
    hselected hexact hcompile (hpairs ▸ List.mem_singleton.mpr rfl) rfl rfl hselect s (by decide)
      (by simp)⟩

/-- The search for a tag that ends with the mark for one character selects an entry without it. -/
theorem select_another_text :
    FieldList.bar ∉ "Rust_".toList ∧ FieldList.bar ∉ "Rusty".toList ∧
    ¬SameUpToCase "Rusty" "Rust_" ∧
    Like.isMatch (FieldList.pattern "Rust_") (FieldList.encode ["Rusty"]) = true ∧
    ∃ db t q row e, ((Session.new (.ofText "archive.db") ⟨[], []⟩).run
        [.open_, .insert { Form.sample with tags := ["Rusty"] } .first]).store.Shows db ∧
      db.entries = some t ∧ compile ("tags" ++ "=" ++ "Rust_") = .ok q ∧
      t.select q = .ok [row] ∧ row.entry = .ok e ∧ e.form.tags = ["Rusty"] := by
  obtain ⟨hcompile, -⟩ := compile_single (by decide : '=' ∉ "tags".toList) (by decide)
    (by decide : '%' ∉ "Rust_".toList ∧ '&' ∉ "Rust_".toList)
    (rfl : readArgument ("tags", "Rust_") = .ok (.clauses [.holds .tags "Rust_"]))
  obtain ⟨db, hshows, hentries⟩ : ∃ db, ((Session.new (.ofText "archive.db") ⟨[], []⟩).run
      [.open_, .insert { Form.sample with tags := ["Rusty"] } .first]).store.Shows db ∧
      db.entries = some ⟨[Saved.row ⟨1, { Form.sample with tags := ["Rusty"] }, .first⟩], 1⟩ :=
    ⟨_, ⟨_, rfl⟩, rfl⟩
  exact ⟨by decide, by decide, by decide, by decide, db, _, _, _, _, hshows, hentries, hcompile,
    rfl, Saved.entry_row _, by decide⟩

end Catalogue
