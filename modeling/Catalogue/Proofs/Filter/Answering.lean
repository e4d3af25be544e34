import Catalogue.Proofs.Filter.Containment
import Catalogue.Proofs.Store.Binding
import Catalogue.Proofs.Store.Filtered

/-! What the pages of a query show.  Whatever was saved before, the rows of its pages are those
whose entries satisfy all of its arguments; a page is refused only where a limit of the scan is
passed. -/

namespace Catalogue

open Catalogue.Filter Number Text

/-- The value is a part of the text, up to the case of ASCII letters. -/
def ContainsUpToCase (value text : String) : Prop :=
  value.toList.map Char.toLower <:+: text.toList.map Char.toLower

/-- Every part of `value` between bars is one of the texts, up to the case of ASCII letters. -/
def HoldsPartsUpToCase (value : String) (texts : List String) : Prop :=
  ∀ part ∈ pieces '|' value, ∃ s ∈ texts, SameUpToCase s part

/-- What the argument `key=value` says of an entry, where nothing but the case of ASCII letters does
not count. -/
def ReadsUpToCase (key value : String) (e : Entry) : Prop :=
  match key with
  | "link" => ContainsUpToCase value e.form.link
  | "title" => ContainsUpToCase value e.form.title
  | "description" => ContainsUpToCase value e.form.description
  | "author" | "authors" => HoldsPartsUpToCase value e.form.authors
  | "themes" => HoldsPartsUpToCase value e.form.themes
  | "works_mentioned" => HoldsPartsUpToCase value e.form.worksMentioned
  | "tags" => HoldsPartsUpToCase value e.form.tags
  | _ => Reads key value e

/-! ### Values without characters that stand for others -/

section Exact

variable {value : String}

theorem Filter.Like.IsExact.contains_iff (h : Like.IsExact value) (text : String) :
    Like.Contains value text ↔ ContainsUpToCase value text := by
  -- Either way some part of the text is compared with the whole value.
  have hpart (f : Char → Char) : value.toList.map f <:+: text.toList.map f ↔
      ∃ part, part <:+: text.toList ∧ part.map f = value.toList.map f := by
    constructor
    · intro hinfix
      obtain ⟨before, after, hsplit⟩ := hinfix
      obtain ⟨front, back, htext, hfront, -⟩ := List.map_eq_append_iff.mp hsplit.symm
      obtain ⟨skipped, part, rfl, -, hpart⟩ := List.map_eq_append_iff.mp hfront
      exact ⟨part, ⟨skipped, back, htext.symm⟩, hpart⟩
    · rintro ⟨part, hpart, hmap⟩
      rw [← hmap]
      exact hpart.map f
  rw [Like.Contains, ContainsUpToCase, hpart, hpart]
  simp only [Like.map_fold_eq_iff h]

theorem Filter.Like.IsExact.holdsParts_iff (h : Like.IsExact value) (texts : List String) :
    HoldsParts value texts ↔ HoldsPartsUpToCase value texts := by
  refine forall₂_congr fun part hpart => exists_congr fun s => and_congr_right fun _ => ?_
  have hexact : Like.IsExact part := fun c hc => h c (mem_of_mem_pieces hpart hc)
  exact hexact.sameText_iff

/-- Where every character of the value stands for itself, case alone does not count. -/
theorem Filter.Like.IsExact.reads_iff (h : Like.IsExact value) (key : String) (e : Entry) :
    Reads key value e ↔ ReadsUpToCase key value e := by
  unfold ReadsUpToCase
  split
  · exact h.contains_iff _
  · exact h.contains_iff _
  · exact h.contains_iff _
  · exact h.holdsParts_iff _
  · exact h.holdsParts_iff _
  · exact h.holdsParts_iff _
  · exact h.holdsParts_iff _
  · exact h.holdsParts_iff _
  · exact Iff.rfl

end Exact

/-! ### Pages -/

section Pages

variable {t : EntryTable} {saved : List Saved} {text : String} {q : Query}

open Classical in
/-- The rows whose entries satisfy all arguments of a query text. -/
noncomputable def EntryTable.reading (t : EntryTable) (text : String) : List Row :=
  t.rows.filter fun row => ∃ e, row.entry = .ok e ∧ ∀ pair ∈ pairs text, Reads pair.1 pair.2 e

theorem EntryTable.mem_reading_iff {row : Row} (hrow : row ∈ t.rows) {e : Entry}
    (he : row.entry = .ok e) :
    row ∈ t.reading text ↔ ∀ pair ∈ pairs text, Reads pair.1 pair.2 e := by
  simp [reading, hrow, he]

/-- All clauses of a query hold of the rows whose entries satisfy its arguments. -/
theorem EntryTable.Holds.matching_eq_reading (hholds : t.Holds saved)
    (hwhole : ∀ s ∈ saved, s.form.IsWhole) (hcompile : compile text = .ok q)
    (hplain : ∀ pair ∈ pairs text, IsPlainPair pair) (hshort : ¬q.Overreaches t) :
    t.matching q = t.reading text := by
  classical
  have hmeans := compile_means hcompile hplain
  refine List.filter_congr fun row hrow => ?_
  rw [hholds.rows] at hrow
  obtain ⟨s, hs, rfl⟩ := List.mem_map.mp hrow
  have hmatches := Saved.matches_iff_reads (hwhole s hs) hmeans.plain fun hconsistent htoolong =>
    hshort ⟨hconsistent, s.row, hholds.rows ▸ hrow, htoolong⟩
  rw [Bool.eq_iff_iff, hmatches, hmeans.reads]
  refine Iff.trans ?_ decide_eq_true_iff.symm
  constructor
  · intro hreads
    exact ⟨s.entry, s.entry_row, hreads⟩
  · rintro ⟨e, he, hreads⟩
    rw [s.entry_row] at he
    cases he
    exact hreads

/-- Unless a pattern is too long, a page is the part of the rows whose entries satisfy the
arguments. -/
theorem EntryTable.Holds.exists_page_reading (hholds : t.Holds saved)
    (hwhole : ∀ s ∈ saved, s.form.IsWhole) (hcompile : compile text = .ok q)
    (hplain : ∀ pair ∈ pairs text, IsPlainPair pair) (hshort : ¬q.Overreaches t) (pageSize : Nat)
    (seed : Int) :
    ∃ page, t.filteredPage pageSize seed q = .ok page ∧
      page.IsPart (t.reading text) q.offset pageSize := by
  have hentries : ∀ row ∈ t.rows, ∃ e, row.entry = .ok e := by
    rw [hholds.rows, List.forall_mem_map]
    exact fun s _ => ⟨_, s.entry_row⟩
  rw [← hholds.matching_eq_reading hwhole hcompile hplain hshort]
  exact exists_filteredPage hentries hshort pageSize seed

end Pages

/-- Whatever was saved, updated and deleted before, the rows of the pages of a query are those whose
entries satisfy all of its arguments, and case alone does not count where every character of a value
stands for itself.  A page is given, unless the clauses are nested too deeply or the tests of some
row come to a pattern that is too long; then the scan is refused. -/
theorem pages_read (path : Path) (tree : FileTree) (steps : List Step)
    (hforms : ∀ step ∈ steps, step.Saves Form.IsWhole) {db : Database}
    (hshows : ((Session.new path tree).run steps).store.Shows db) {t : EntryTable}
    (ht : db.entries = some t) {text : String} {q : Query} (hcompile : compile text = .ok q)
    (hfiltered : q.isFiltered) (hplain : ∀ pair ∈ pairs text, IsPlainPair pair) :
    ∃ rows, rows.Sublist t.rows ∧
      (∀ row ∈ t.rows, ∃ e, row.entry = .ok e ∧
        (row ∈ rows ↔ ∀ pair ∈ pairs text, Reads pair.1 pair.2 e) ∧
        ∀ pair ∈ pairs text, Like.IsExact pair.2 →
          (Reads pair.1 pair.2 e ↔ ReadsUpToCase pair.1 pair.2 e)) ∧
      ∀ pageSize generated : Nat, FitsWord pageSize → ∃ answer after,
        Access.retrieve pageSize generated q ((Session.new path tree).run steps).store =
          Access.resultOf answer after ∧
        after.Shows db ∧
        ((∃ page, answer = .ok page ∧ page.IsPart rows q.offset pageSize) ∨
          answer = .error (.storage .scanFailed)) ∧
        (depthOf q.clauses ≤ depthLimit → (answer = .error (.storage .scanFailed) ↔
          q.Overreaches t)) := by
  obtain ⟨saved, hholds, hwhole⟩ := Session.holds_of_shows path tree hforms hshows ht
  refine ⟨t.reading text, List.filter_sublist, fun row hrow => ?_,
    fun pageSize generated hsize => ?_⟩
  · rw [hholds.rows] at hrow
    obtain ⟨s, -, rfl⟩ := List.mem_map.mp hrow
    exact ⟨s.entry, s.entry_row, EntryTable.mem_reading_iff (hholds.rows ▸ hrow) s.entry_row,
      fun pair _ hexact => hexact.reads_iff _ _⟩
  · have hoffset := fits_of_le_maxOffset (compile_bounded hcompile).1
    generalize ((Session.new path tree).run steps).store = store at hshows ⊢
    have hpages := hholds.exists_page_reading hwhole hcompile hplain
    by_cases hdepth : depthOf q.clauses ≤ depthLimit
    · have hgives := Access.Gives.retrieve_filtered ht hfiltered hdepth
        (compile_bounded hcompile).1 hsize generated
      obtain ⟨after, hresult, hafter, -⟩ := hgives.of_shows hshows
      refine ⟨_, after, hresult, hafter, ?_⟩
      by_cases hlong : q.Overreaches t
      · have hrefused :=
          EntryTable.filteredPage_refused hlong pageSize (q.seed.getD generated : Nat)
        exact ⟨.inr hrefused, fun _ => iff_of_true hrefused hlong⟩
      · obtain ⟨page, hpage, hpart⟩ := hpages hlong pageSize (q.seed.getD generated : Nat)
        rw [hpage]
        exact ⟨.inl ⟨page, rfl, hpart⟩, fun _ => iff_of_false nofun hlong⟩
    · obtain ⟨storePath, state⟩ := store
      obtain ⟨memory, rfl⟩ := hshows
      obtain ⟨answer, memory', hresult, hcases⟩ :=
        Access.retrieve_cases ht hholds hsize hoffset generated storePath memory
      refine ⟨answer, _, hresult, ⟨memory', rfl⟩, ?_, fun h => absurd h hdepth⟩
      rcases hcases with hrefused | ⟨page, hanswer, hpage⟩
      · exact .inr hrefused
      · rw [EntryTable.page, if_pos hfiltered] at hpage
        have hshort : ¬q.Overreaches t := by
          intro hlong
          rw [EntryTable.filteredPage_refused hlong] at hpage
          cases hpage
        obtain ⟨page', hpage', hpart⟩ := hpages hshort pageSize (q.seed.getD generated : Nat)
        obtain rfl : page' = page := Except.ok.inj (hpage'.symm.trans hpage)
        exact .inl ⟨page', hanswer, hpart⟩

/-- A page of the tag `Madness` shows the entry with the tag `madness`. -/
theorem pages_read_tag : ∃ db t q rows row page after,
    ((Session.new (.ofText "archive.db") ⟨[], []⟩).run
      [.open_, .insert .sample .first]).store.Shows db ∧ db.entries = some t ∧ t.rows = [row] ∧
    compile ("tags" ++ "=" ++ "Madness") = .ok q ∧ row ∈ rows ∧
    Access.retrieve 10 0 q ((Session.new (.ofText "archive.db") ⟨[], []⟩).run
      [.open_, .insert .sample .first]).store = .ok page after ∧
    page.IsPart rows 0 10 := by
  have hforms : ∀ step ∈ [.open_, .insert .sample .first], Step.Saves Form.IsWhole step := by
    have hsample : Form.sample.IsWhole := by
      refine ⟨by decide, by decide, by decide, fun v => ?_, fun v => ?_⟩
      · cases v <;> decide
      · cases v <;> decide
    simp [Step.Saves, hsample]
  obtain ⟨hcompile, hpairs⟩ := compile_single (by decide : '=' ∉ "tags".toList) (by decide)
    (by decide : '%' ∉ "Madness".toList ∧ '&' ∉ "Madness".toList)
    (rfl : readArgument ("tags", "Madness") = .ok (.clauses [.holds .tags "Madness"]))
  have hplain : ∀ pair ∈ pairs ("tags" ++ "=" ++ "Madness"), IsPlainPair pair := by
    rw [hpairs]
    simp only [List.forall_mem_singleton]
    exact ⟨by decide, by decide⟩
  have hfound : (Saved.row ⟨1, .sample, .first⟩).satisfies [.holds .tags "Madness"] =
    .ok true := rfl
  let s : Saved := ⟨1, .sample, .first⟩
  obtain ⟨db, t, hshows, ht, hrows⟩ : ∃ db t, ((Session.new (.ofText "archive.db")
      ⟨[], []⟩).run [.open_, .insert .sample .first]).store.Shows db ∧ db.entries = some t ∧
      t.rows = [s.row] := ⟨_, _, ⟨_, rfl⟩, rfl, rfl⟩
  obtain ⟨rows, -, hreads, hpages⟩ := pages_read _ _ _ hforms hshows ht hcompile rfl hplain
  obtain ⟨answer, after, hresult, -, hcases, hrefused⟩ := hpages 10 0 (by decide)
  have hshort : ¬Query.Overreaches ⟨[.holds .tags "Madness"], 0, none⟩ t := by
    rintro ⟨-, row, hrow, htoolong⟩
    rw [hrows, List.mem_singleton] at hrow
    subst hrow
    exact absurd (hfound.symm.trans htoolong) nofun
  obtain ⟨page, rfl, hpart⟩ := hcases.resolve_right ((hrefused (by decide)).not.mpr hshort)
  obtain ⟨e, he, hiff, hcase⟩ := hreads s.row (by simp [hrows])
  obtain rfl : s.entry = e := Except.ok.inj (s.entry_row.symm.trans he)
  have hrow : s.row ∈ rows := by
    rw [hiff]
    intro pair hpair
    refine (hcase pair hpair ?_).mpr ?_
    · rw [hpairs, List.mem_singleton] at hpair
      subst hpair
      decide
    · rw [hpairs, List.mem_singleton] at hpair
      subst hpair
      change ∀ part ∈ pieces '|' "Madness", ∃ tag ∈ s.entry.form.tags, SameUpToCase tag part
      decide
  exact ⟨db, t, _, rows, s.row, page, after, hshows, ht, hrows, hcompile, hrow, hresult, hpart⟩

/-- An entry satisfies all of a thousand arguments, and no page shows it; nor does one show any
entry where a title is too long to be searched for. -/
theorem refused_pages_show_nothing : ∃ db t row e,
    ((Session.new (.ofText "archive.db") ⟨[], []⟩).run
      [.open_, .insert { Form.sample with exceptional := true } .first]).store.Shows db ∧
    db.entries = some t ∧ t.rows = [row] ∧ row.entry = .ok e ∧
    (∃ q after, compile (flags 999) = .ok q ∧ q.isFiltered ∧
      (∀ pair ∈ pairs (flags 999), IsPlainPair pair) ∧
      (∀ pair ∈ pairs (flags 999), ReadsUpToCase pair.1 pair.2 e) ∧
      Access.retrieve 10 0 q ((Session.new (.ofText "archive.db") ⟨[], []⟩).run
        [.open_, .insert { Form.sample with exceptional := true } .first]).store =
          .error (.storage .scanFailed) after) ∧
    ∃ q after, compile ("title" ++ "=" ++ titleOf 50001) = .ok q ∧ q.isFiltered ∧
      (∀ pair ∈ pairs ("title" ++ "=" ++ titleOf 50001), IsPlainPair pair) ∧
      Access.retrieve 10 0 q ((Session.new (.ofText "archive.db") ⟨[], []⟩).run
        [.open_, .insert { Form.sample with exceptional := true } .first]).store =
          .error (.storage .scanFailed) after := by
  let s : Saved := ⟨1, { Form.sample with exceptional := true }, .first⟩
  obtain ⟨db, memory, hstore, ht, hkept⟩ : ∃ (db : Database) (memory : Memory),
      ((Session.new (.ofText "archive.db") ⟨[], []⟩).run [.open_, .insert s.form .first]).store =
        ⟨.ofText "archive.db", .connected ⟨db, none, memory, .quiet⟩⟩ ∧
      db.entries = some ⟨[s.row], 1⟩ ∧
      ∀ condition, memory.prepared.contains (.select condition) = false :=
    ⟨_, _, rfl, rfl, fun _ => rfl⟩
  have hshows : ((Session.new (.ofText "archive.db") ⟨[], []⟩).run
      [.open_, .insert s.form .first]).store.Shows db := ⟨memory, by rw [hstore]⟩
  refine ⟨db, _, s.row, s.entry, hshows, ht, rfl, s.entry_row, ?_, ?_⟩
  · have hpair {P : String × String → Prop} (h : P ("exceptional", "true")) :
        ∀ pair ∈ pairs (flags 999), P pair := by
      intro pair hpair
      rw [pairs_flags] at hpair
      rwa [List.eq_of_mem_replicate hpair]
    obtain ⟨after, hscan⟩ := Access.scan_tooDeep (q := ⟨_, 0, none⟩) flags_tooDeep 10
      (.ofText "archive.db") db (hkept _)
    rw [hstore]
    exact ⟨_, after, compile_flags 999, rfl, hpair ⟨by decide, by decide⟩,
      hpair (iff_of_true rfl rfl : s.form.exceptional = true ↔ "true" = "true"),
      Access.retrieve_error rfl hscan⟩
  · obtain ⟨hcompile, hpairs⟩ := compile_title (not_mem_titleOf (by decide) 50001)
      (not_mem_titleOf (by decide) 50001)
    have hresult := Access.Gives.retrieve_filtered
      (q := ⟨[.contains .title (titleOf 50001)], 0, none⟩) ht rfl (by decide : 2 ≤ depthLimit)
      (Nat.zero_le _) (by decide : FitsWord (10 : Nat)) 0
    have hlong : Query.Overreaches ⟨[.contains .title (titleOf 50001)], 0, none⟩ ⟨[s.row], 1⟩ :=
      overreaches_titleOf (by omega) s.row (by simp)
    rw [EntryTable.filteredPage_refused hlong] at hresult
    obtain ⟨after, hretrieve, -⟩ := hresult.of_shows hshows
    refine ⟨_, after, hcompile, rfl, ?_, hretrieve⟩
    rw [hpairs, List.forall_mem_singleton]
    refine ⟨fun c hc => ?_, by decide⟩
    have ha : c = 'a' := by
      by_contra hne
      exact not_mem_titleOf hne 50001 hc
    subst ha
    decide

end Catalogue
