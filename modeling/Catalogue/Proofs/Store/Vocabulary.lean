import Catalogue.Proofs.Store.Moves

/-! What the vocabularies of a store list.  Every save that succeeds records the category and the
terms of its form, and nothing else does: whatever was done to a store, its lists are those of the
forms that were saved, without repetitions, in the order of the first save. -/

namespace Catalogue

open Number

/-! ### Lists without repetitions -/

/-- The categories of some forms, each at its first place. -/
def categoriesOf (forms : List Form) : List String := (forms.map (·.category)).eraseDups

/-- The terms of some forms with the categories of these, each pair at its first place. -/
def Vocabulary.termsOf (v : Vocabulary) (forms : List Form) : List Term :=
  (forms.flatMap fun form => (v.terms form).map fun value => (value, form.category)).eraseDups

section AddNew

variable {α : Type} [BEq α] [LawfulBEq α]

theorem addNew_eraseDups (items : List α) (item : α) :
    addNew items.eraseDups item = (items ++ [item]).eraseDups := by
  rw [addNew, List.eraseDups_append, List.removeAll]
  by_cases h : item ∈ items
  · simp [h]
  · simp [h, List.eraseDups_cons]

theorem foldl_addNew_eraseDups (items more : List α) :
    more.foldl addNew items.eraseDups = (items ++ more).eraseDups := by
  induction more generalizing items with
  | nil => rw [List.foldl_nil, List.append_nil]
  | cons item more ih =>
    rw [List.foldl_cons, addNew_eraseDups, ih, List.append_assoc, List.singleton_append]

end AddNew

/-- The tables list the categories and the terms of the forms. -/
structure Database.Lists (db : Database) (forms : List Form) : Prop where
  categories : db.categories = some (categoriesOf forms)
  terms : ∀ v : Vocabulary, db.terms v = some (v.termsOf forms)

namespace Database

theorem blank_lists : Database.blank.prepared.Lists [] := ⟨rfl, fun v => by cases v <;> rfl⟩

theorem categories_record (form : Form) (db : Database) :
    (db.record form).categories = some (addNew (db.categories.getD []) form.category) := by
  simp [record, Vocabulary.all, recordTerms, withCategories]

theorem terms_record (form : Form) (db : Database) (v : Vocabulary) :
    (db.record form).terms v = some ((v.terms form).foldl
      (fun terms value => addNew terms (value, form.category)) ((db.terms v).getD [])) := by
  cases v <;> simp [record, Vocabulary.all, recordTerms, terms_setTerms_of_ne]

variable {db : Database} {forms : List Form}

theorem Lists.withEntries (h : db.Lists forms) (t : EntryTable) : (db.withEntries t).Lists forms :=
  ⟨h.categories, fun v => by rw [terms_withEntries, h.terms]⟩

/-- A form that is recorded is one more of those that are listed. -/
theorem Lists.record (h : db.Lists forms) (form : Form) :
    (db.record form).Lists (forms ++ [form]) where
  categories := by
    rw [categories_record, h.categories, Option.getD_some, categoriesOf, addNew_eraseDups,
      categoriesOf, List.map_append, List.map_singleton]
  terms v := by
    have hpairs (terms : List Term) : (v.terms form).foldl
          (fun terms value => addNew terms (value, form.category)) terms =
        ((v.terms form).map fun value => (value, form.category)).foldl addNew terms := by
      rw [List.foldl_map]
    rw [terms_record, h.terms, Option.getD_some, hpairs, Vocabulary.termsOf,
      foldl_addNew_eraseDups, Vocabulary.termsOf, List.flatMap_append, List.flatMap_singleton]

end Database

/-! ### The forms that were saved -/

namespace Move

/-- The form that a move has saved. -/
def saved? : Move → Reply → Option Form
  | .call (.insert form _), .ok _ => some form
  | .call (.update _ form), .ok (some (.found true)) => some form
  | _, _ => none

/-- The saved forms after a move; closing a database in memory loses all of them. -/
def after (inMemory : Bool) (forms : List Form) (move : Move) (r : Reply) : List Form :=
  match move with
  | .close => if inMemory then [] else forms
  | move => forms ++ (move.saved? r).toList

theorem after_file (forms : List Form) (move : Move) (r : Reply) :
    move.after false forms r = forms ++ (move.saved? r).toList := by
  cases move with
  | close => exact (List.append_nil forms).symm
  | _ => rfl

theorem saved?_error (move : Move) (e : StoreFault) : move.saved? (.error e) = none := by
  cases move with
  | call operation => cases operation <;> rfl
  | _ => rfl

end Move

/-- The forms that were saved, by the replies to all moves. -/
def savedIn (inMemory : Bool) (replies : List (Move × Reply)) : List Form :=
  replies.foldl (fun forms entry => entry.1.after inMemory forms entry.2) []

theorem savedIn_file (replies : List (Move × Reply)) :
    savedIn false replies = replies.filterMap fun entry => entry.1.saved? entry.2 := by
  have hfold (forms : List Form) :
      replies.foldl (fun forms entry => entry.1.after false forms entry.2) forms =
        forms ++ replies.filterMap fun entry => entry.1.saved? entry.2 := by
    induction replies generalizing forms with
    | nil => rw [List.foldl_nil, List.filterMap_nil, List.append_nil]
    | cons entry replies ih =>
      rw [List.foldl_cons, Move.after_file, ih, List.append_assoc, List.filterMap_cons]
      cases entry.1.saved? entry.2 <;> rfl
  exact hfold []

/-! ### One call -/

namespace Session

variable {s : Session} {db : Database} {forms : List Form} {operation : Operation}

/-- A call changes the entries of the database alone, and records the form that it has saved. -/
def Records (s : Session) (db : Database) (operation : Operation) : Prop :=
  ∃ t, (s.call operation).2.store.Shows
    (((Move.call operation).saved? (s.call operation).1).elim (db.withEntries t)
      fun form => (db.withEntries t).record form)

theorem Records.of_same (hintact : db.Intact)
    (hnone : (Move.call operation).saved? (s.call operation).1 = none)
    (hstore : (s.call operation).2.store.Shows db) : s.Records db operation := by
  obtain ⟨t, ht⟩ := Option.isSome_iff_exists.mp hintact.entries
  have hsame : db.withEntries t = db := by rw [Database.withEntries, ← ht]
  refine ⟨t, ?_⟩
  rw [hnone, Option.elim_none, hsame]
  exact hstore

theorem call_ne_ok (hshows : s.store.Shows db) (h : Access.Fails operation.run db)
    (answer : Option Answer) : (s.call operation).1 ≠ .ok answer := by
  obtain ⟨e, store, hcall, -⟩ := call_of_fails hshows h
  rw [hcall]
  nofun

theorem records_insert (hshows : s.store.Shows db) (hintact : db.Intact) (form : Form)
    (today : Date) {answer : Option Answer}
    (h : (s.call (.insert form today)).1 = .ok answer) : s.Records db (.insert form today) := by
  obtain ⟨t, ht⟩ := Option.isSome_iff_exists.mp hintact.entries
  by_cases hfit : FitsWord form.type.amount
  · cases hid : t.newId? with
    | some id =>
      obtain ⟨store, hcall, hstore, -⟩ :=
        call_of_gives hshows (Operation.gives_insert hintact ht hid hfit today)
      unfold Records
      rw [hcall]
      exact ⟨_, hstore⟩
    | none =>
      obtain ⟨store, hcall, -⟩ :=
        call_of_gives hshows (Operation.gives_insert_full ht hid hfit today)
      rw [hcall] at h
      cases h
  · exact absurd h (call_ne_ok hshows (Operation.fails_insert ht hfit today) answer)

theorem records_update (hshows : s.store.Shows db) (hintact : db.Intact) (id : Int) (form : Form)
    {answer : Option Answer} (h : (s.call (.update id form)).1 = .ok answer) :
    s.Records db (.update id form) := by
  obtain ⟨t, ht⟩ := Option.isSome_iff_exists.mp hintact.entries
  by_cases hfit : FitsWord id ∧ FitsWord form.type.amount
  · obtain ⟨store, hcall, hstore, -⟩ :=
      call_of_gives hshows (Operation.gives_update hintact ht hfit.1 hfit.2)
    unfold Records
    rw [hcall]
    refine ⟨t.modify id fun row => .ofForm id form row.saved, ?_⟩
    cases hlive : t.has id <;> rw [hlive] at hstore <;> exact hstore
  · exact absurd h (call_ne_ok hshows (Operation.fails_update ht hfit) answer)

theorem records_delete (hshows : s.store.Shows db) (hintact : db.Intact) (id : Int)
    {answer : Option Answer} (h : (s.call (.delete id)).1 = .ok answer) :
    s.Records db (.delete id) := by
  obtain ⟨t, ht⟩ := Option.isSome_iff_exists.mp hintact.entries
  by_cases hfit : FitsWord id
  · obtain ⟨store, hcall, hstore, -⟩ :=
      call_of_gives hshows (Operation.gives_delete ht hfit)
    unfold Records
    rw [hcall]
    exact ⟨_, hstore⟩
  · exact absurd h (call_ne_ok hshows (Operation.fails_delete ht hfit) answer)

/-- Whatever comes of a call, it records the form that it has saved and nothing else. -/
theorem records (hshows : s.store.Shows db) (hintact : db.Intact) (operation : Operation) :
    s.Records db operation := by
  cases hreply : (s.call operation).1 with
  | error e =>
    have hnone : (Move.call operation).saved? (s.call operation).1 = none := by
      rw [hreply, Move.saved?_error]
    exact .of_same hintact hnone (call_of_error hshows hreply).1
  | ok answer =>
    have hread (h : ¬operation.IsWrite) (hnone : (Move.call operation).saved? (.ok answer) = none) :
        s.Records db operation :=
      .of_same hintact (hreply ▸ hnone) (call_of_readsOnly hshows h).1
    have hloose (h : Access.Fails operation.run db) : s.Records db operation :=
      absurd hreply (call_ne_ok hshows h answer)
    obtain ⟨t, ht⟩ := Option.isSome_iff_exists.mp hintact.entries
    cases operation with
    | insert form today => exact records_insert hshows hintact form today hreply
    | update id form => exact records_update hshows hintact id form hreply
    | delete id => exact records_delete hshows hintact id hreply
    | insertLoose => exact hloose (Operation.fails_insertLoose ht)
    | updateLoose id => exact hloose (Operation.fails_updateLoose ht id)
    | _ => exact hread id rfl

/-! ### What a store lists -/

theorem call_categories (hshows : s.store.Shows db) (hlists : db.Lists forms) :
    (s.call .categories).1 = .ok (some (.names (categoriesOf forms))) := by
  have hgives : Access.Gives Operation.categories.run db (.ok (.names (categoriesOf forms))) db :=
    (Access.Gives.listCategories hlists.categories).map _
  obtain ⟨store, hcall, -⟩ := call_of_gives hshows hgives
  rw [hcall]
  rfl

theorem call_vocabulary (hshows : s.store.Shows db) (hlists : db.Lists forms) (v : Vocabulary) :
    (s.call (.vocabulary v)).1 = .ok (some (.terms (v.termsOf forms))) := by
  have hgives : Access.Gives (Operation.vocabulary v).run db (.ok (.terms (v.termsOf forms))) db :=
    (Access.Gives.listVocabulary (hlists.terms v)).map _
  obtain ⟨store, hcall, -⟩ := call_of_gives hshows hgives
  rw [hcall]
  rfl

end Session

/-! ### Whole sessions -/

namespace Ledger

variable {P : Form → Prop} {path : Path} {l : Ledger} {s : Session} {forms : List Form}

theorem Matches.lists_call (h : l.Matches P path s) (hlists : s.store.kept.Lists forms)
    (operation : Operation) : (s.call operation).2.store.kept.Lists
      (forms ++ ((Move.call operation).saved? (s.call operation).1).toList) := by
  cases hopen : l.isOpen with
  | false =>
    rw [Session.call_closed (h.isOpen.trans hopen), Move.saved?_error, Option.toList_none,
      List.append_nil]
    exact hlists
  | true =>
    obtain ⟨t, hstore⟩ :=
      Session.records (h.shows hopen) (h.intact (h.isOpen.trans hopen)) operation
    rw [hstore.kept]
    cases (Move.call operation).saved? (s.call operation).1 with
    | none =>
      rw [Option.toList_none, List.append_nil]
      exact hlists.withEntries t
    | some form => exact (hlists.withEntries t).record form

/-- A move leaves a store that lists the forms which were saved up to it. -/
theorem Matches.lists_move (h : l.Matches P path s) (hlists : s.store.kept.Lists forms)
    (move : Move) : (s.move move).2.store.kept.Lists
      (move.after path.isInMemory forms (s.move move).1) := by
  cases move with
  | open_ =>
    have hforms : Move.open_.after path.isInMemory forms (s.move .open_).1 = forms :=
      List.append_nil forms
    rw [hforms]
    obtain hsame | ⟨hshows, -⟩ := s.store_open
    · exact hsame ▸ hlists
    · exact hshows.kept.symm ▸ hlists
  | close =>
    change s.store.close.kept.Lists (if path.isInMemory then [] else forms)
    rw [Store.kept_close h.idle h.intact, h.named]
    split
    · exact Database.blank_lists
    · exact hlists
  | call operation => exact h.lists_call hlists operation

theorem Matches.lists_play (h : l.Matches (fun _ => True) path s)
    (hlists : s.store.kept.Lists forms) (moves : List Move) :
    (s.play moves).store.kept.Lists ((s.replies moves).foldl
      (fun forms entry => entry.1.after path.isInMemory forms entry.2) forms) := by
  induction moves generalizing l s forms with
  | nil => exact hlists
  | cons move moves ih =>
    obtain ⟨l', h'⟩ := h.move move
    exact ih h' (h.lists_move hlists move)

end Ledger

namespace Session

end Session

end Catalogue
