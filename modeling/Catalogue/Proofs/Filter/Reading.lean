import Catalogue.Proofs.Filter.Compile
import Catalogue.Proofs.Filter.Like
import Catalogue.Proofs.Store.Refinement
import Catalogue.Proofs.Store.Selection

/-! What a query says of entries.  An argument speaks of the lists and the dates of an entry, while
its clauses are evaluated on the columns of a stored row; the rows of which all clauses hold are
exactly those whose entries satisfy every argument. -/

namespace Catalogue

open Catalogue.Filter Text

/-- Two texts are equal, up to what a pattern search takes for equal. -/
def SameText (s t : String) : Prop := s.toList.map Like.fold = t.toList.map Like.fold

/-- Every part of `value` between bars is one of the texts. -/
def HoldsParts (value : String) (texts : List String) : Prop :=
  ∀ part ∈ pieces '|' value, ∃ s ∈ texts, SameText s part

/-- What the argument `key=value` says of an entry. -/
def Reads (key value : String) (e : Entry) : Prop :=
  match key with
  | "link" => Like.Contains value e.form.link
  | "title" => Like.Contains value e.form.title
  | "description" => Like.Contains value e.form.description
  | "category" => e.form.category = value
  | "author" | "authors" => HoldsParts value e.form.authors
  | "themes" => HoldsParts value e.form.themes
  | "works_mentioned" => HoldsParts value e.form.worksMentioned
  | "tags" => HoldsParts value e.form.tags
  | "type" => e.form.type.kind.token = value
  | "published_between_from" => ∃ day, Date.parse? value = some day ∧ day ≤ e.form.published
  | "published_between_until" => ∃ day, Date.parse? value = some day ∧ e.form.published ≤ day
  | "saved_between_from" => ∃ day, Date.parse? value = some day ∧ day ≤ e.saved
  | "saved_between_until" => ∃ day, Date.parse? value = some day ∧ e.saved ≤ day
  | "exceptional" => e.form.exceptional = true ↔ value = "true"
  | _ => True

/-- A value with no marks of a pattern; one that is looked for among authors has no bar either. -/
def IsPlainPair (pair : String × String) : Prop :=
  Like.IsPlain pair.2 ∧ (pair.1 = "author" ∨ pair.1 = "authors" → '|' ∉ pair.2.toList)

/-- No text that is searched holds U+0000, and no list is that of one empty text. -/
structure Form.IsWhole (form : Form) : Prop where
  link : Like.IsWhole form.link
  title : Like.IsWhole form.title
  description : Like.IsWhole form.description
  texts : ∀ v : Vocabulary, ∀ s ∈ v.terms form, Like.IsWhole s
  lists : ∀ v : Vocabulary, v.terms form ≠ [""]

/-! ### What a clause says of an entry -/

namespace Entry

def textIn (e : Entry) : TextColumn → String
  | .link => e.form.link
  | .title => e.form.title
  | .description => e.form.description

def listIn (e : Entry) : ListColumn → List String
  | .authors => e.form.authors
  | .themes => e.form.themes
  | .worksMentioned => e.form.worksMentioned
  | .tags => e.form.tags

def dateIn (e : Entry) : DateColumn → Date
  | .published => e.form.published
  | .saved => e.saved

end Entry

namespace Filter.Clause

/-- What a clause says of an entry. -/
def Reads (clause : Clause) (e : Entry) : Prop :=
  match clause with
  | .contains column text => Like.Contains text (e.textIn column)
  | .holds column text => ∃ s ∈ e.listIn column, SameText s text
  | .inCategory category => e.form.category = category
  | .ofKind kind => e.form.type.kind = kind
  | .dated column .atLeast day => day ≤ e.dateIn column
  | .dated column .atMost day => e.dateIn column ≤ day
  | .exceptional flag => e.form.exceptional = flag

/-- The text of the clause has no marks of a pattern, and no bar where a list is searched. -/
def IsPlain : Clause → Prop
  | .contains _ text => Like.IsPlain text
  | .holds _ text => Like.IsPlain text ∧ '|' ∉ text.toList
  | _ => True

end Filter.Clause

/-- The result is a judgement of `P`, or a pattern is too long for one. -/
def Judges (P : Prop) (result : Except Refusal Bool) : Prop :=
  (∃ b, result = .ok b ∧ (b = true ↔ P)) ∨ result = .error .patternTooLong

theorem Judges.iff {P : Prop} {b : Bool} (h : Judges P (.ok b)) : b = true ↔ P := by
  rcases h with ⟨b', hb, h⟩ | h
  · cases hb
    exact h
  · cases h

theorem search_judges {pattern s : String} {P : Prop} (h : Like.isMatch pattern s = true ↔ P) :
    Judges P (search pattern s) := by
  unfold search
  cases Like.isSearchable pattern with
  | true => exact .inl ⟨_, rfl, h⟩
  | false => exact .inr rfl

theorem encode_isWhole {texts : List String} (h : ∀ s ∈ texts, Like.IsWhole s) :
    Like.IsWhole (FieldList.encode texts) := by
  intro hmem
  rcases FieldList.mem_encode hmem with hbar | ⟨s, hs, hc⟩
  · exact absurd hbar (by decide)
  · exact h s hs hc

theorem isPlain_enclosed {text : String} (h : Like.IsPlain text) :
    Like.IsPlain ("|" ++ text ++ "|") := by
  intro c hc
  rw [FieldList.toList_enclosed, List.mem_cons, List.mem_append, List.mem_singleton] at hc
  rcases hc with rfl | hc | rfl
  · decide
  · exact h c hc
  · decide

/-- The search for a text between bars finds it in the columns of the lists that hold it. -/
theorem isMatch_encode_iff {texts : List String} (hwhole : ∀ s ∈ texts, Like.IsWhole s)
    (hlist : texts ≠ [""]) {text : String} (hplain : Like.IsPlain text)
    (hbar : '|' ∉ text.toList) :
    Like.isMatch (FieldList.pattern text) (FieldList.encode texts) = true ↔
      ∃ s ∈ FieldList.readBack texts, SameText s text := by
  rw [FieldList.pattern_eq, Like.isMatch_enclosed_iff (isPlain_enclosed hplain)
    (encode_isWhole hwhole), Like.Contains, FieldList.toList_enclosed]
  exact FieldList.enclosed_infix_encode_iff Like.fold_eq_bar_iff hbar hlist

namespace Saved

variable {s : Saved}

/-- The comparison of a stored date with the text of a bound tells whether the day is in bounds. -/
theorem holdsOf_dated (column : DateColumn) (bound : Bound) (day : Date) :
    ∃ b, (Clause.dated column bound day).holdsOf s.row = .ok b ∧
      (b = true ↔ (Clause.dated column bound day).Reads s.entry) := by
  cases column <;> cases bound <;>
    exact ⟨_, rfl, decide_eq_true_iff.trans (Date.text_le_text_iff _ _)⟩

theorem judges_clause (hform : s.form.IsWhole) {clause : Clause} (hclause : clause.IsPlain) :
    Judges (clause.Reads s.entry) (clause.holdsOf s.row) := by
  cases clause with
  | contains column text =>
    cases column with
    | link => exact search_judges (Like.isMatch_enclosed_iff hclause hform.link)
    | title => exact search_judges (Like.isMatch_enclosed_iff hclause hform.title)
    | description => exact search_judges (Like.isMatch_enclosed_iff hclause hform.description)
  | holds column text =>
    obtain ⟨hplain, hbar⟩ := hclause
    have hlist (v : Vocabulary) := isMatch_encode_iff (hform.texts v) (hform.lists v) hplain hbar
    cases column with
    | authors => exact search_judges (hlist .authors)
    | themes => exact search_judges (hlist .themes)
    | worksMentioned => exact search_judges (hlist .works)
    | tags => exact search_judges (hlist .tags)
  | inCategory category => exact .inl ⟨_, rfl, beq_iff_eq⟩
  | ofKind kind =>
    refine .inl ⟨_, rfl, ?_⟩
    change ((s.form.type.kind.index : Int) == kind.index) = true ↔ s.form.type.kind = kind
    rw [beq_iff_eq, Int.natCast_inj]
    refine ⟨fun h => ?_, fun h => by rw [h]⟩
    revert h
    cases s.form.type.kind <;> cases kind <;> decide
  | dated column bound day => exact .inl (holdsOf_dated column bound day)
  | exceptional flag =>
    refine .inl ⟨_, rfl, ?_⟩
    change ((if s.form.exceptional then 1 else 0 : Int) == if flag then 1 else 0) = true ↔
      s.form.exceptional = flag
    cases s.form.exceptional <;> cases flag <;> decide

/-- All clauses hold of a row where the entry satisfies all of them. -/
theorem judges_clauses (hform : s.form.IsWhole) {clauses : List Clause}
    (hclauses : ∀ clause ∈ clauses, clause.IsPlain) :
    Judges (∀ clause ∈ clauses, clause.Reads s.entry) (s.row.satisfies clauses) := by
  induction clauses with
  | nil => exact .inl ⟨true, rfl, by simp⟩
  | cons clause clauses ih =>
    have hrest := ih fun other hother => hclauses other (List.mem_cons_of_mem _ hother)
    rw [Row.satisfies]
    rcases judges_clause hform (hclauses clause (by simp)) with ⟨b, hb, hreads⟩ | herror
    · rw [hb]
      cases b with
      | false =>
        refine .inl ⟨false, rfl, ?_⟩
        have : ¬clause.Reads s.entry := fun h => Bool.false_ne_true (hreads.mpr h)
        simp [this]
      | true =>
        have hclause : clause.Reads s.entry := hreads.mp rfl
        change Judges _ (s.row.satisfies clauses)
        rwa [List.forall_mem_cons, and_iff_right hclause]
    · rw [herror]
      exact .inr rfl

/-- Two clauses that compare one column with a value are the same where the entry satisfies both. -/
theorem eq_of_reads (hform : s.form.IsWhole) {clause other : Clause} (hclause : clause.IsPlain)
    (hother : other.IsPlain) (hrivals : clause.rivals other = true) (h : clause.Reads s.entry)
    (h' : other.Reads s.entry) : clause = other := by
  have hholds {c : Clause} (hplain : c.IsPlain) (hreads : c.Reads s.entry)
      (hdecided : ∃ b, c.holdsOf s.row = .ok b) : c.holdsOf s.row = .ok true := by
    obtain ⟨b, hb⟩ := hdecided
    have hjudges := judges_clause hform hplain
    rw [hb] at hjudges
    rw [hb, hjudges.iff.mpr hreads]
  obtain ⟨hdecided, hdecided'⟩ := Clause.exists_holdsOf_of_rivals hrivals s.row
  exact Clause.eq_of_rivals hrivals (hholds hclause h hdecided) (hholds hother h' hdecided')

/-- All clauses of a query hold of a row where the entry satisfies all of them, if its tests come to
no pattern that is too long. -/
theorem matches_iff_reads (hform : s.form.IsWhole) {q : Query}
    (hclauses : ∀ clause ∈ q.clauses, clause.IsPlain)
    (hsearchable : areConsistent q.clauses = true →
      s.row.satisfies (testsOf q.clauses) ≠ .error .patternTooLong) :
    s.row.matches_ q = true ↔ ∀ clause ∈ q.clauses, clause.Reads s.entry := by
  cases hconsistent : areConsistent q.clauses with
  | true =>
    have hjudges := judges_clauses hform fun clause hclause =>
      hclauses clause (mem_of_mem_testsOf hclause)
    obtain ⟨b, hb⟩ := Row.exists_satisfies (hsearchable hconsistent)
    rw [← Row.satisfies_testsOf_iff hconsistent, hb, Except.ok.injEq]
    rw [hb] at hjudges
    rw [hjudges.iff]
    constructor
    · intro hreads clause hclause
      exact hreads clause (mem_testsOf hconsistent clause hclause)
    · intro hreads clause hclause
      exact hreads clause (mem_of_mem_testsOf hclause)
  | false =>
    refine iff_of_false (fun hmatches => ?_) fun hreads => ?_
    · rw [areConsistent_of_holdsOf (Row.matches_iff.mp hmatches)] at hconsistent
      cases hconsistent
    · have hsame := areConsistent_of_eq fun clause hclause other hother hrivals =>
        eq_of_reads hform (hclauses clause hclause) (hclauses other hother) hrivals
          (hreads clause hclause) (hreads other hother)
      rw [hsame] at hconsistent
      cases hconsistent

end Saved

/-! ### What an argument says of an entry -/

/-- What an argument with a known key says of an entry. -/
def Filter.Key.Reads (key : Key) (value : String) (e : Entry) : Prop :=
  match key with
  | .contains column => Like.Contains value (e.textIn column)
  | .author => HoldsParts value (e.listIn .authors)
  | .holds column => HoldsParts value (e.listIn column)
  | .category => e.form.category = value
  | .kind => e.form.type.kind.token = value
  | .dated column .atLeast => ∃ day, Date.parse? value = some day ∧ day ≤ e.dateIn column
  | .dated column .atMost => ∃ day, Date.parse? value = some day ∧ e.dateIn column ≤ day
  | .exceptional => e.form.exceptional = true ↔ value = "true"
  | .offset | .seed => True

theorem reads_iff {name : String} {key : Key} (h : Key.ofName? name = some key) (value : String)
    (e : Entry) : Reads name value e ↔ key.Reads value e := by
  have hmem := mem_names_of_ofName? h
  simp only [Key.names, List.mem_cons, List.not_mem_nil, or_false, Prod.mk.injEq] at hmem
  rcases hmem with ⟨rfl, rfl⟩ | ⟨rfl, rfl⟩ | ⟨rfl, rfl⟩ | ⟨rfl, rfl⟩ | ⟨rfl, rfl⟩ | ⟨rfl, rfl⟩ |
    ⟨rfl, rfl⟩ | ⟨rfl, rfl⟩ | ⟨rfl, rfl⟩ | ⟨rfl, rfl⟩ | ⟨rfl, rfl⟩ | ⟨rfl, rfl⟩ | ⟨rfl, rfl⟩ |
    ⟨rfl, rfl⟩ | ⟨rfl, rfl⟩ | ⟨rfl, rfl⟩ | ⟨rfl, rfl⟩
  all_goals
    simp only [Reads]
    rfl

theorem author_names {name : String} {key : Key} (h : Key.ofName? name = some key)
    (hkey : key = .author) : name = "author" ∨ name = "authors" := by
  subst hkey
  simpa [Key.names] using mem_names_of_ofName? h

/-- The clauses hold no mark of a pattern, and together they say `P` of an entry. -/
structure Means (clauses : List Clause) (P : Entry → Prop) : Prop where
  plain : ∀ clause ∈ clauses, clause.IsPlain
  reads : ∀ e, (∀ clause ∈ clauses, clause.Reads e) ↔ P e

theorem Means.nothing : Means [] fun _ => True where
  plain := by simp
  reads := by simp

theorem Means.single {clause : Clause} {P : Entry → Prop} (hplain : clause.IsPlain)
    (hreads : ∀ e, clause.Reads e ↔ P e) : Means [clause] P where
  plain := by simpa using hplain
  reads := by simpa using hreads

theorem Means.parts {value : String} (hplain : Like.IsPlain value) (column : ListColumn) :
    Means ((pieces FieldList.bar value).map (.holds column))
      fun e => HoldsParts value (e.listIn column) where
  plain := by
    rw [List.forall_mem_map]
    intro part hpart
    exact ⟨fun c hc => hplain c (mem_of_mem_pieces hpart hc), not_mem_of_mem_pieces hpart⟩
  reads e := by
    rw [List.forall_mem_map]
    exact Iff.rfl

theorem token_inj {kind named : Kind} (h : kind.token = named.token) : kind = named := by
  revert h
  cases kind <;> cases named <;> decide

theorem argument_dated {column : DateColumn} {bound : Bound} {name value : String}
    {argument : Argument} (h : (Key.dated column bound).argument name value = .ok argument) :
    ∃ day, argument = .clauses [.dated column bound day] ∧
      ∀ e, (Clause.dated column bound day).Reads e ↔ (Key.dated column bound).Reads value e := by
  rw [Key.argument] at h
  split at h
  · next day hday =>
    cases h
    refine ⟨day, rfl, fun e => ?_⟩
    cases bound <;> simp [Clause.Reads, Key.Reads, hday]
  · cases h

theorem argument_means {key : Key} {name value : String} {argument : Argument}
    (h : key.argument name value = .ok argument) (hplain : Like.IsPlain value)
    (hauthor : key = .author → '|' ∉ value.toList) : Means argument.added (key.Reads value) := by
  cases key with
  | contains column =>
    cases h
    exact .single hplain fun _ => Iff.rfl
  | author =>
    cases h
    -- A value without a bar is its only part, so one clause says what is said of all parts.
    have hpieces : pieces FieldList.bar value = [value] := pieces_of_not_mem (hauthor rfl)
    have hparts := Means.parts hplain .authors
    rwa [hpieces] at hparts
  | holds column =>
    cases h
    exact .parts hplain column
  | category =>
    cases h
    exact .single trivial fun _ => Iff.rfl
  | kind =>
    rw [Key.argument] at h
    split at h
    · next named hnamed =>
      cases h
      have htoken : named.token = value := by simpa using List.find?_some hnamed
      refine .single trivial fun e => ?_
      change e.form.type.kind = named ↔ e.form.type.kind.token = value
      rw [← htoken]
      exact ⟨fun he => by rw [he], token_inj⟩
    · cases h
  | dated column bound =>
    obtain ⟨day, rfl, hreads⟩ := argument_dated h
    exact .single trivial hreads
  | exceptional =>
    cases h
    refine .single trivial fun e => ?_
    change e.form.exceptional = (value == "true") ↔ (e.form.exceptional = true ↔ value = "true")
    rw [Bool.eq_iff_iff, beq_iff_eq]
  | offset | seed =>
    obtain ⟨n, -, rfl⟩ := map_eq_ok.mp h
    exact .nothing

theorem readArgument_means {pair : String × String} {argument : Argument}
    (h : readArgument pair = .ok argument) (hplain : IsPlainPair pair) :
    Means argument.added (Reads pair.1 pair.2) := by
  obtain ⟨key, hkey, h⟩ := readArgument_eq_ok_iff.mp h
  have hmeans := argument_means h hplain.1 fun he => hplain.2 (author_names hkey he)
  exact ⟨hmeans.plain, fun e => (hmeans.reads e).trans (reads_iff hkey pair.2 e).symm⟩

/-- The clauses of a query say what its arguments do. -/
theorem compile_means {text : String} {q : Query} (h : compile text = .ok q)
    (hplain : ∀ pair ∈ pairs text, IsPlainPair pair) :
    Means q.clauses fun e => ∀ pair ∈ pairs text, Reads pair.1 pair.2 e where
  plain := by
    refine (forall_clauses_iff (Q := fun _ => True) h ?_).mpr fun _ _ => trivial
    intro pair hpair argument hargument
    exact iff_of_true (readArgument_means hargument (hplain pair hpair)).plain trivial
  reads e := forall_clauses_iff h fun pair hpair argument hargument =>
    (readArgument_means hargument (hplain pair hpair)).reads e

end Catalogue
