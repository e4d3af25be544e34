import Catalogue.Proofs.Store.Steps

/-! What saving and deleting do to a database in which no table is missing: the table of entries
changes, and the category and the terms of a saved form are recorded. -/

namespace Catalogue

open Number

/-- No table is missing. -/
structure Database.Intact (db : Database) : Prop where
  entries : db.entries.isSome
  categories : db.categories.isSome
  terms : ∀ v, (db.terms v).isSome

/-- A form, for examples. -/
def Form.sample : Form where
  link := "https://example.org/hamlet"
  title := "Hamlet"
  description := ""
  authors := ["Shakespeare"]
  category := "drama"
  themes := []
  worksMentioned := []
  tags := ["revenge|madness"]
  published := .first
  exceptional := false
  type := ⟨.book, 342⟩

namespace Database

theorem prepared_intact (db : Database) : db.prepared.Intact :=
  ⟨rfl, rfl, fun v => by cases v <;> rfl⟩

/-- The database with a new table of entries. -/
def withEntries (db : Database) (t : EntryTable) : Database := { db with entries := some t }

/-- The database with new categories. -/
def withCategories (db : Database) (categories : List String) : Database :=
  { db with categories := some categories }

/-- The database with the terms of a form recorded in one vocabulary. -/
def recordTerms (form : Form) (db : Database) (v : Vocabulary) : Database :=
  db.setTerms v (some ((v.terms form).foldl (fun terms value => addNew terms (value, form.category))
    ((db.terms v).getD [])))

/-- The database with the category and the terms of a form recorded. -/
def record (form : Form) (db : Database) : Database :=
  Vocabulary.all.foldl (recordTerms form)
    (db.withCategories (addNew (db.categories.getD []) form.category))

@[simp] theorem terms_setTerms (db : Database) (v : Vocabulary) (terms : Option (List Term)) :
    (db.setTerms v terms).terms v = terms := by cases v <;> rfl

theorem terms_setTerms_of_ne {v w : Vocabulary} (h : w ≠ v) (db : Database)
    (terms : Option (List Term)) : (db.setTerms v terms).terms w = db.terms w := by
  cases v <;> cases w <;> first | rfl | exact absurd rfl h

@[simp] theorem setTerms_setTerms (db : Database) (v : Vocabulary)
    (terms terms' : Option (List Term)) :
    (db.setTerms v terms).setTerms v terms' = db.setTerms v terms' := by cases v <;> rfl

@[simp] theorem setTerms_terms (db : Database) (v : Vocabulary) :
    db.setTerms v (db.terms v) = db := by cases v <;> rfl

@[simp] theorem entries_setTerms (db : Database) (v : Vocabulary) (terms : Option (List Term)) :
    (db.setTerms v terms).entries = db.entries := by cases v <;> rfl

@[simp] theorem categories_setTerms (db : Database) (v : Vocabulary)
    (terms : Option (List Term)) : (db.setTerms v terms).categories = db.categories := by
  cases v <;> rfl

@[simp] theorem terms_withEntries (db : Database) (t : EntryTable) (v : Vocabulary) :
    (db.withEntries t).terms v = db.terms v := by cases v <;> rfl

@[simp] theorem terms_withCategories (db : Database) (categories : List String) (v : Vocabulary) :
    (db.withCategories categories).terms v = db.terms v := by cases v <;> rfl

@[simp] theorem entries_withCategories (db : Database) (categories : List String) :
    (db.withCategories categories).entries = db.entries := rfl

theorem Intact.withEntries {db : Database} (h : db.Intact) (t : EntryTable) :
    (db.withEntries t).Intact := ⟨rfl, h.categories, fun v => by simpa using h.terms v⟩

theorem Intact.recordTerms {db : Database} (h : db.Intact) (form : Form) (v : Vocabulary) :
    (db.recordTerms form v).Intact where
  entries := by simpa [Database.recordTerms] using h.entries
  categories := by simpa [Database.recordTerms] using h.categories
  terms w := by
    by_cases hw : w = v
    · subst hw
      simp [Database.recordTerms]
    · simpa [Database.recordTerms, terms_setTerms_of_ne hw] using h.terms w

theorem Intact.foldl_recordTerms {form : Form} (vocabularies : List Vocabulary) {db : Database}
    (h : db.Intact) : (vocabularies.foldl (Database.recordTerms form) db).Intact := by
  induction vocabularies generalizing db with
  | nil => exact h
  | cons v vocabularies ih => exact ih (h.recordTerms form v)

theorem Intact.withCategories {db : Database} (h : db.Intact) (categories : List String) :
    (db.withCategories categories).Intact :=
  ⟨h.entries, rfl, fun v => by simpa using h.terms v⟩

theorem Intact.record {db : Database} (h : db.Intact) (form : Form) : (db.record form).Intact :=
  Intact.foldl_recordTerms _ (h.withCategories _)

@[simp] theorem entries_record (form : Form) (db : Database) :
    (db.record form).entries = db.entries := by
  simp [record, Vocabulary.all, recordTerms]

end Database

namespace Steps

variable {start : Option Database} {db : Database} {t : EntryTable}

/-! ### Single statements -/

theorem Gives.recordTerm {v : Vocabulary} {terms : List Term} (h : db.terms v = some terms)
    (term : Term) :
    Gives start (recordTerm v term) db () (db.setTerms v (some (addNew terms term))) := by
  refine Gives.bind (Gives.run h) (Gives.get fun c hc => ?_)
  rw [hc]
  exact Gives.setDatabase

theorem Gives.forM_recordTerm {v : Vocabulary} (category : String) (values : List String)
    {terms : List Term} (h : db.terms v = some terms) :
    Gives start (values.forM fun value => Steps.recordTerm v (value, category)) db ()
      (db.setTerms v (some
        (values.foldl (fun terms value => addNew terms (value, category)) terms))) := by
  induction values generalizing db terms with
  | nil =>
    rw [List.foldl_nil, ← h, Database.setTerms_terms]
    exact Gives.pure ()
  | cons value values ih =>
    have hnext := ih (Database.terms_setTerms db v (some (addNew terms (value, category))))
    rw [Database.setTerms_setTerms] at hnext
    exact Gives.bind (Gives.recordTerm h _) hnext

theorem Gives.recordTerms (form : Form) (v : Vocabulary) (h : (db.terms v).isSome) :
    Gives start (recordTerms form v) db () (db.recordTerms form v) := by
  obtain ⟨terms, hterms⟩ := Option.isSome_iff_exists.mp h
  rw [Database.recordTerms, hterms, Option.getD_some]
  exact Gives.bind (Gives.prepare (needing_eq_none hterms)) (Gives.forM_recordTerm _ _ hterms)

theorem Gives.forM_recordTerms {form : Form} (vocabularies : List Vocabulary) (h : db.Intact) :
    Gives start (vocabularies.forM (Steps.recordTerms form)) db ()
      (vocabularies.foldl (Database.recordTerms form) db) := by
  induction vocabularies generalizing db with
  | nil => exact Gives.pure ()
  | cons v vocabularies ih =>
    exact Gives.bind (Gives.recordTerms form v (h.terms v)) (ih (h.recordTerms form v))

theorem Gives.recordVocabulary (form : Form) (h : db.Intact) :
    Gives start (recordVocabulary form) db () (db.record form) := by
  obtain ⟨categories, hcategories⟩ := Option.isSome_iff_exists.mp h.categories
  rw [Database.record, hcategories, Option.getD_some]
  have hcategory : Gives start (recordCategory form.category) db ()
      (db.withCategories (addNew categories form.category)) := by
    refine Gives.bind (Gives.prepare (needing_eq_none hcategories))
      (Gives.bind (Gives.run hcategories) (Gives.get fun c hc => ?_))
    rw [hc]
    exact Gives.setDatabase
  exact Gives.bind hcategory (Gives.forM_recordTerms Vocabulary.all (h.withCategories _))

theorem Gives.insertEntry {form : Form} {today : Date} {id : Int} (ht : db.entries = some t)
    (hid : t.newId? = some id) (hfit : FitsWord form.type.amount) :
    Gives start (insertEntry form today) db id
      (db.withEntries (t.insert (.ofForm id form (.text today.text)))) := by
  refine Gives.bind (Gives.prepare (needing_eq_none ht)) (Gives.bind Gives.accept
    (Gives.bind (Gives.bindInteger hfit) (Gives.bind (Gives.run ht) ?_)))
  rw [hid]
  refine Gives.get fun c hc => ?_
  rw [hc]
  exact Gives.bind Gives.setDatabase (Gives.pure id)

theorem Fails.insertEntry {form : Form} {today : Date} (ht : db.entries = some t)
    (hid : t.newId? = none) (hfit : FitsWord form.type.amount) :
    Fails IsRefusal start (insertEntry form today) db db := by
  refine Gives.fails (Gives.prepare (needing_eq_none ht)) (Gives.fails Gives.accept
    (Gives.fails (Gives.bindInteger hfit) (Gives.fails (Gives.run ht) ?_)))
  rw [hid]
  exact Fails.refuse _

theorem Gives.updateEntry {form : Form} {id : Int} (ht : db.entries = some t) (hid : FitsWord id)
    (hfit : FitsWord form.type.amount) :
    Gives start (updateEntry id form) db (t.has id)
      (db.withEntries (t.modify id fun row => .ofForm id form row.saved)) := by
  refine Gives.bind (Gives.prepare (needing_eq_none ht)) (Gives.bind Gives.accept
    (Gives.bind (Gives.bindInteger hfit) (Gives.bind (Gives.bindInteger hid)
      (Gives.bind (Gives.run ht) (Gives.get fun c hc => ?_)))))
  rw [hc]
  exact Gives.bind Gives.setDatabase (Gives.pure _)

theorem Gives.deleteEntry {id : Int} (ht : db.entries = some t) (hid : FitsWord id) :
    Gives start (deleteEntry id) db (t.has id) (db.withEntries (t.erase id)) := by
  refine Gives.bind (Gives.prepare (needing_eq_none ht)) (Gives.bind (Gives.bindInteger hid)
    (Gives.bind (Gives.run ht) (Gives.get fun c hc => ?_)))
  rw [hc]
  exact Gives.bind Gives.setDatabase (Gives.pure _)

/-! ### Whole transactions -/

theorem Gives.saveNew {form : Form} {today : Date} {id : Int} (h : db.Intact)
    (ht : db.entries = some t) (hid : t.newId? = some id) (hfit : FitsWord form.type.amount) :
    Gives none (saveNew form today) db id
      ((db.withEntries (t.insert (.ofForm id form (.text today.text)))).record form) :=
  Gives.transaction (Gives.bind (Gives.insertEntry ht hid hfit)
    (Gives.bind (Gives.recordVocabulary form (h.withEntries _)) (Gives.pure id)))

theorem Fails.saveNew {form : Form} {today : Date} (ht : db.entries = some t)
    (hid : t.newId? = none) (hfit : FitsWord form.type.amount) :
    Fails IsRefusal none (Steps.saveNew form today) db db :=
  Fails.transaction (Fails.bind _ (Fails.insertEntry ht hid hfit))

/-- A measure that fits into no column is not saved. -/
theorem Fails.saveNew_amount {form : Form} {today : Date} (ht : db.entries = some t)
    (hfit : ¬FitsWord form.type.amount) :
    Fails (fun _ => True) none (Steps.saveNew form today) db db :=
  Fails.transaction (Fails.bind _ (Gives.fails (Gives.prepare (needing_eq_none ht))
    (Gives.fails Gives.accept (Fails.bind _ (Fails.bindInteger hfit)))))

/-- Texts that no column can hold are not saved. -/
theorem Fails.refuseTexts {α : Type} (statement : Statement) (ht : db.entries = some t) :
    Fails (fun _ => True) none (Steps.transaction (Steps.refuseTexts statement : Steps α)) db db :=
  Fails.transaction (Gives.fails (Gives.prepare (needing_eq_none ht)) (Fails.failToBind _))

theorem Gives.saveOver {form : Form} {id : Int} (h : db.Intact) (ht : db.entries = some t)
    (hid : FitsWord id) (hfit : FitsWord form.type.amount) :
    Gives none (saveOver id form) db (t.has id)
      (if t.has id then
        (db.withEntries (t.modify id fun row => .ofForm id form row.saved)).record form
      else db.withEntries (t.modify id fun row => .ofForm id form row.saved)) := by
  refine Gives.transaction (Gives.bind (Gives.updateEntry ht hid hfit) ?_)
  split
  · exact Gives.bind (Gives.recordVocabulary form (h.withEntries _)) (Gives.pure _)
  · exact Gives.pure _

theorem Fails.saveOver {form : Form} {id : Int} (ht : db.entries = some t)
    (hfit : ¬(FitsWord id ∧ FitsWord form.type.amount)) :
    Fails (fun _ => True) none (Steps.saveOver id form) db db := by
  have hupdate : Fails (fun _ => True) (some db) (updateEntry id form) db db := by
    refine Gives.fails (Gives.prepare (needing_eq_none ht)) (Gives.fails Gives.accept ?_)
    by_cases hamount : FitsWord form.type.amount
    · exact Gives.fails (Gives.bindInteger hamount)
        (Fails.bind _ (Fails.bindInteger fun hid => hfit ⟨hid, hamount⟩))
    · exact Fails.bind _ (Fails.bindInteger hamount)
  exact Fails.transaction (Fails.bind _ hupdate)

theorem Gives.remove {id : Int} (ht : db.entries = some t) (hid : FitsWord id) :
    Gives none (remove id) db (t.has id) (db.withEntries (t.erase id)) :=
  Gives.transaction (Gives.deleteEntry ht hid)

theorem Fails.remove {id : Int} (ht : db.entries = some t) (hid : ¬FitsWord id) :
    Fails (fun _ => True) none (Steps.remove id) db db :=
  Fails.transaction (Gives.fails (Gives.prepare (needing_eq_none ht))
    (Fails.bind _ (Fails.bindInteger hid)))

/-! ### None of the statements ends the transaction around it -/

/-- Recording leaves the table of entries alone. -/
theorem Keeps.recordVocabulary {frame : Frame} (hframe : ∀ (c : StoreConnection) (db : Database),
      db.entries = c.contents.entries → frame.taken c { c with contents := db })
    (form : Form) : Keeps frame (recordVocabulary form) := by
  have hterm (v : Vocabulary) (term : Term) : Keeps frame (recordTerm v term) :=
    .bind (.run _ _) fun terms => .change (·.setTerms v (some (addNew terms term))) fun c =>
      hframe c _ (c.contents.entries_setTerms v _)
  have hcategory : Keeps frame (recordCategory form.category) :=
    .bind (.prepare _ _) fun _ => .bind (.run _ _) fun categories =>
      .change (fun db => { db with categories := some (addNew categories form.category) })
        fun c => hframe c _ rfl
  exact .bind hcategory fun _ => .forM fun v =>
    .bind (.prepare _ _) fun _ => .forM fun value => hterm v _

/-- Recording neither begins nor commits a transaction. -/
theorem KeepsStart.recordVocabulary (form : Form) : KeepsStart (recordVocabulary form) := by
  refine Keeps.recordVocabulary (fun _ _ _ => ?_) form
  exact ⟨rfl, .refl _⟩

theorem Keeps.insertEntry (form : Form) (today : Date) :
    KeepsStart (insertEntry form today) := by
  refine .bind (.prepare _ _) fun _ => .bind .accept fun _ => .bind (.bindInteger _) fun _ =>
    .bind (.run _ _) fun t => ?_
  split
  · exact .refuse _
  · exact .bind .get fun _ => .bind (.setDatabase _) fun _ => .pure _

theorem Keeps.updateEntry (id : Int) (form : Form) : KeepsStart (updateEntry id form) :=
  .bind (.prepare _ _) fun _ => .bind .accept fun _ => .bind (.bindInteger _) fun _ =>
    .bind (.bindInteger _) fun _ => .bind (.run _ _) fun _ => .bind .get fun _ =>
      .bind (.setDatabase _) fun _ => .pure _

theorem Keeps.refuseTexts {α : Type} (statement : Statement) :
    KeepsStart (refuseTexts statement : Steps α) := .bind (.prepare _ _) fun _ => .failToBind _

theorem Keeps.deleteEntry (id : Int) : KeepsStart (deleteEntry id) :=
  .bind (.prepare _ _) fun _ => .bind (.bindInteger _) fun _ => .bind (.run _ _) fun _ =>
    .bind .get fun _ => .bind (.setDatabase _) fun _ => .pure _

end Steps

end Catalogue
