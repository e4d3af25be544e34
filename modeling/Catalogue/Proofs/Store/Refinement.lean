import Catalogue.Proofs.Store.Atomic
import Catalogue.Proofs.Store.Session

/-! Every session is one that its ledger explains.  The invariant is that the database which an open
store shows, or which a closed one would show, holds the forms of the ledger, and that a store that
was opened once can be opened again. -/

namespace Catalogue

open Number

namespace Store

/-- The database that a store shows, or would show if it were opened now. -/
def kept (store : Store) : Database :=
  match store.state with
  | .connected c => c.contents
  | .closed contents => (if store.path.isInMemory then .blank else contents).prepared

theorem Shows.kept {store : Store} {db : Database} (h : store.Shows db) : store.kept = db := by
  obtain ⟨memory, h⟩ := h
  rw [Store.kept, h]

theorem connect_shows (store : Store) (db : Database) : (store.connect db []).Shows db.prepared :=
  ⟨.blank, rfl⟩

end Store

theorem Database.Intact.prepared_eq {db : Database} (h : db.Intact) : db.prepared = db := by
  obtain ⟨entries, categories, authors, themes, works, tags⟩ := db
  obtain ⟨_, rfl⟩ := Option.isSome_iff_exists.mp h.entries
  obtain ⟨_, rfl⟩ := Option.isSome_iff_exists.mp h.categories
  obtain ⟨_, rfl⟩ := Option.isSome_iff_exists.mp (h.terms .authors)
  obtain ⟨_, rfl⟩ := Option.isSome_iff_exists.mp (h.terms .themes)
  obtain ⟨_, rfl⟩ := Option.isSome_iff_exists.mp (h.terms .works)
  obtain ⟨_, rfl⟩ := Option.isSome_iff_exists.mp (h.terms .tags)
  rfl

theorem Disk.residence_eq {path : Path} {tree after : FileTree} {residence : Residence}
    (h : openDatabase true path tree = .ok (.ok residence) after) :
    residence = if path.isInMemory then .memory else .file := by
  obtain ⟨rfl, readOnly, hname⟩ | ⟨rfl, name, mode, immutable, hname⟩ := name_of_openDatabase h <;>
    simp [Path.isInMemory, hname]

namespace Session

variable {s : Session} {operation : Operation} {db after : Database}

theorem call_of_gives {answer : Except StoreFault Answer} (hshows : s.store.Shows db)
    (h : Access.Gives operation.run db answer after) :
    ∃ store, s.call operation = (answer.map some, { s with store := store }) ∧
      store.Shows after ∧ store.path = s.store.path := by
  obtain ⟨store, hresult, hafter, hpath⟩ := h.of_shows hshows
  refine ⟨store, ?_, hafter, hpath⟩
  unfold call
  rw [hresult]
  cases answer <;> rfl

theorem call_of_fails (hshows : s.store.Shows db) (h : Access.Fails operation.run db) :
    ∃ e store, s.call operation = (.error e, { s with store := store }) ∧
      store.Shows db ∧ store.path = s.store.path := by
  obtain ⟨⟨path, state⟩, tree⟩ := s
  obtain ⟨memory, rfl⟩ := hshows
  obtain ⟨e, memory', h'⟩ := h path memory
  refine ⟨e, ⟨path, .connected ⟨db, none, memory', .quiet⟩⟩, ?_, ⟨memory', rfl⟩, rfl⟩
  unfold call
  dsimp only
  rw [h']

theorem call_closed (h : s.store.isOpen = false) (operation : Operation) :
    s.call operation = (.error (.storage .closed), s) := by
  rw [call, operation.run_closed h]

theorem call_eq_after (s : Session) (operation : Operation) :
    (s.call operation).2 = { s with store := operation.run.after s.store } := by
  rw [call, Access.after]
  cases operation.run s.store <;> rfl

/-- A closed store whose database can be opened shows what it kept. -/
theorem open_connects {contents : Database} (hstate : s.store.state = .closed contents)
    {residence : Residence} {after : FileTree}
    (hdisk : Disk.openDatabase true s.store.path s.tree = .ok (.ok residence) after) :
    ∃ store, s.step .open_ = (.ok none, ⟨store, after⟩) ∧ store.Shows s.store.kept ∧
      store.path = s.store.path := by
  have hkept : s.store.kept =
      (if s.store.path.isInMemory then .blank else contents).prepared := by
    rw [Store.kept, hstate]
  refine ⟨s.store.connect (if s.store.path.isInMemory then .blank else contents) [], ?_, ?_, rfl⟩
  · have hresidence := Disk.residence_eq hdisk
    cases hmemory : s.store.path.isInMemory <;> rw [hmemory] at hresidence <;> subst hresidence <;>
      simp [step, opening, Store.open_, hstate, hdisk]
  · rw [hkept]
    exact Store.connect_shows s.store _

/-- An opening that fails leaves the store as it is. -/
theorem open_fails {contents : Database} (hstate : s.store.state = .closed contents)
    (hnone : ∀ residence later,
      Disk.openDatabase true s.store.path s.tree ≠ .ok (.ok residence) later) :
    ∃ e after, s.step .open_ = (.error e, { s with tree := after }) := by
  cases hdisk : Disk.openDatabase true s.store.path s.tree with
  | error e after =>
    exact ⟨.path e, after, by simp [step, opening, Store.open_, hstate, hdisk]⟩
  | ok result after =>
    cases result with
    | error e =>
      exact ⟨.storage (s.store.openFault e), after,
        by simp [step, opening, Store.open_, hstate, hdisk]⟩
    | ok residence => exact absurd hdisk (hnone residence after)

/-- Opening an open store does nothing. -/
theorem open_again (h : s.store.isOpen = true) : s.step .open_ = (.ok none, s) := by
  obtain ⟨⟨path, contents | c⟩, tree⟩ := s
  · cases h
  · rfl

/-- Opening leaves the store as it is, or makes it show what it kept. -/
theorem store_open (s : Session) : (s.step .open_).2.store = s.store ∨
    (s.step .open_).2.store.Shows s.store.kept ∧ (s.step .open_).2.store.path = s.store.path := by
  cases hstate : s.store.state with
  | connected c =>
    rw [open_again (by rw [Store.isOpen, hstate])]
    exact .inl rfl
  | closed contents =>
    by_cases hdisk : ∃ residence after,
        Disk.openDatabase true s.store.path s.tree = .ok (.ok residence) after
    · obtain ⟨residence, after, hdisk⟩ := hdisk
      obtain ⟨store, hstep, hshows, hpath⟩ := open_connects hstate hdisk
      rw [hstep]
      exact .inr ⟨hshows, hpath⟩
    · push Not at hdisk
      obtain ⟨e, after, hstep⟩ := open_fails hstate hdisk
      rw [hstep]
      exact .inl rfl

end Session

/-- Closing keeps the database, unless it is one in memory. -/
theorem Store.kept_close {store : Store} (hidle : store.IsIdle)
    (hintact : store.isOpen = true → store.kept.Intact) :
    store.close.kept = if store.path.isInMemory then Database.blank.prepared else store.kept := by
  obtain ⟨path, contents | ⟨contents, start, memory, outside⟩⟩ := store
  · change Database.prepared (if path.isInMemory then .blank else contents) =
      if path.isInMemory then _ else
        Database.prepared (if path.isInMemory then .blank else contents)
    cases path.isInMemory <;> rfl
  · obtain rfl : start = none := hidle.1
    have hprepared : contents.prepared = contents := (hintact rfl).prepared_eq
    change Database.prepared (if path.isInMemory then .blank else contents) =
      if path.isInMemory then _ else contents
    split
    · rfl
    · exact hprepared

theorem Store.isOpen_close (store : Store) : store.close.isOpen = false := by
  obtain ⟨path, contents | c⟩ := store <;> rfl

theorem Store.isIdle_close (store : Store) : store.close.IsIdle := by
  obtain ⟨path, contents | c⟩ := store <;> trivial

theorem Store.path_close (store : Store) : store.close.path = store.path := by
  obtain ⟨path, contents | c⟩ := store <;> rfl

/-- The ledger `l` knows what the session `s` holds: forms of all of which `P` holds. -/
structure Ledger.Matches (P : Form → Prop) (path : Path) (l : Ledger) (s : Session) : Prop where
  named : s.store.path = path
  isOpen : s.store.isOpen = l.isOpen
  wasOpen : l.isOpen = true → l.wasOpen = true
  idle : s.store.IsIdle
  intact : s.store.isOpen = true → s.store.kept.Intact
  holds : ∃ t saved, s.store.kept.entries = some t ∧ t.Holds saved ∧ t.lastId = l.given ∧
    (∀ id, l.saved id = Saved.withId saved id) ∧ ∀ s ∈ saved, P s.form
  opensAgain : l.wasOpen = true →
    ∃ residence later, Disk.openDatabase true path s.tree = .ok (.ok residence) later

namespace Ledger

variable {P : Form → Prop} {path : Path} {l : Ledger} {s : Session}

theorem new_matches (P : Form → Prop) (path : Path) (tree : FileTree) :
    Matches P path new (.new path tree) where
  named := rfl
  isOpen := rfl
  wasOpen := by simp [new]
  idle := trivial
  intact h := by cases h
  holds := by
    refine ⟨.empty, [], ?_, EntryTable.empty_holds, rfl, fun _ => rfl, by simp⟩
    change Database.entries (Database.prepared (if path.isInMemory then .blank else .blank)) = _
    rw [ite_self]
    rfl
  opensAgain h := by cases h

theorem Matches.shows (h : l.Matches P path s) (hopen : l.isOpen = true) :
    s.store.Shows s.store.kept := by
  have hshows := Store.shows_database (h.isOpen.trans hopen) h.idle
  rwa [hshows.kept]

/-- A store that shows other entries matches the ledger of these. -/
theorem Matches.change (h : l.Matches P path s) (hopen : l.isOpen = true) (l' : Ledger)
    {store : Store} {db : Database} (hshows : store.Shows db) (hpath : store.path = path)
    (hintact : db.Intact) {t : EntryTable} (ht : db.entries = some t) {saved : List Saved}
    (hholds : t.Holds saved) (hl : l' = { l with given := l'.given, saved := l'.saved })
    (hgiven : t.lastId = l'.given) (hsaved : ∀ id, l'.saved id = Saved.withId saved id)
    (hforms : ∀ s ∈ saved, P s.form) : l'.Matches P path { s with store := store } := by
  have hopen' : l'.isOpen = true := by rw [hl, hopen]
  have hwas : l'.wasOpen = l.wasOpen := by rw [hl]
  exact {
    named := hpath
    isOpen := hshows.isOpen.trans hopen'.symm
    wasOpen := fun _ => hwas.trans (h.wasOpen hopen)
    idle := hshows.isIdle
    intact := fun _ => by rwa [hshows.kept]
    holds := ⟨t, saved, by rwa [hshows.kept], hholds, hgiven, hsaved, hforms⟩
    opensAgain := fun _ => h.opensAgain (h.wasOpen hopen) }

theorem Matches.stay (h : l.Matches P path s) (hopen : l.isOpen = true) {store : Store}
    (hshows : store.Shows s.store.kept) (hpath : store.path = s.store.path) :
    l.Matches P path { s with store := store } := by
  obtain ⟨t, saved, ht, hholds, hgiven, hsaved, hforms⟩ := h.holds
  exact h.change hopen l hshows (hpath.trans h.named) (h.intact (h.isOpen.trans hopen)) ht hholds
    rfl hgiven hsaved hforms

/-- The ledger allows the reply to a step that fits, and it matches the session after any step. -/
structure Follows (P : Form → Prop) (path : Path) (l : Ledger) (s : Session) (step : Step) :
    Prop where
  allows : step.Fits → l.Allows step (s.step step).1
  after : (l.after path.isInMemory step (s.step step).1).Matches P path (s.step step).2

theorem Follows.of_step {step : Step} {r : Reply} {s' : Session} (h : s.step step = (r, s'))
    (hallows : step.Fits → l.Allows step r)
    (hafter : (l.after path.isInMemory step r).Matches P path s') : Follows P path l s step := by
  constructor <;> rw [h]
  · exact hallows
  · exact hafter

theorem opened_eq (hopen : l.isOpen = true) (hwas : l.wasOpen = true) :
    { l with isOpen := true, wasOpen := true } = l := by
  obtain ⟨isOpen, wasOpen, given, saved⟩ := l
  obtain rfl : isOpen = true := hopen
  obtain rfl : wasOpen = true := hwas
  rfl

theorem Matches.open_ (h : l.Matches P path s) : Follows P path l s .open_ := by
  cases hopen : s.store.isOpen with
  | true =>
    have hl : l.after path.isInMemory .open_ (.ok none) = l :=
      opened_eq (h.isOpen.symm.trans hopen) (h.wasOpen (h.isOpen.symm.trans hopen))
    exact .of_step (Session.open_again hopen) (fun _ => .inl rfl) (by rwa [hl])
  | false =>
    obtain ⟨contents, hstate⟩ : ∃ contents, s.store.state = .closed contents := by
      cases hstate : s.store.state with
      | closed contents => exact ⟨contents, rfl⟩
      | connected c =>
        rw [Store.isOpen, hstate] at hopen
        cases hopen
    by_cases hdisk : ∃ residence after,
        Disk.openDatabase true s.store.path s.tree = .ok (.ok residence) after
    · obtain ⟨residence, after, hdisk⟩ := hdisk
      obtain ⟨store, hstep, hshows, hpath⟩ := Session.open_connects hstate hdisk
      obtain ⟨t, saved, ht, hholds, hgiven, hsaved, hforms⟩ := h.holds
      refine .of_step hstep (fun _ => .inl rfl) ?_
      exact {
        named := hpath.trans h.named
        isOpen := hshows.isOpen
        wasOpen := fun _ => rfl
        idle := hshows.isIdle
        intact := fun _ => by
          rw [hshows.kept, Store.kept, hstate]
          exact Database.prepared_intact _
        holds := ⟨t, saved, by rw [hshows.kept, ht], hholds, hgiven, hsaved, hforms⟩
        opensAgain := fun _ => ⟨residence, Disk.openDatabase_again (h.named ▸ hdisk)⟩ }
    · push Not at hdisk
      obtain ⟨e, after, hstep⟩ := Session.open_fails hstate hdisk
      -- A database that was opened is opened again, so this is the first opening.
      have hnever : l.wasOpen = false := by
        cases hwas : l.wasOpen with
        | false => rfl
        | true =>
          obtain ⟨residence, later, hagain⟩ := h.opensAgain hwas
          rw [← h.named] at hagain
          exact absurd hagain (hdisk residence later)
      refine .of_step hstep (fun _ => .inr ⟨hnever, e, rfl⟩) ?_
      change l.Matches P path _
      exact { h with opensAgain := fun hwas => by rw [hnever] at hwas; cases hwas }

theorem Matches.close (h : l.Matches P path s) : Follows P path l s .close := by
  have hkept := Store.kept_close h.idle h.intact
  rw [h.named] at hkept
  refine .of_step rfl (fun _ => rfl) ?_
  obtain ⟨t, saved, ht, hholds, hgiven, hsaved, hforms⟩ := h.holds
  have hopen : s.store.close.isOpen = true → s.store.close.kept.Intact := fun hopen => by
    rw [Store.isOpen_close] at hopen
    cases hopen
  cases hmemory : path.isInMemory with
  | true =>
    rw [hmemory, if_pos rfl] at hkept
    exact {
      named := (Store.path_close _).trans h.named
      isOpen := Store.isOpen_close _
      wasOpen := fun hl => by cases hl
      idle := Store.isIdle_close _
      intact := hopen
      holds := ⟨.empty, [], congrArg Database.entries hkept, EntryTable.empty_holds, rfl,
        fun _ => rfl, by simp⟩
      opensAgain := h.opensAgain }
  | false =>
    rw [hmemory, if_neg Bool.false_ne_true] at hkept
    exact {
      named := (Store.path_close _).trans h.named
      isOpen := Store.isOpen_close _
      wasOpen := fun hl => by cases hl
      idle := Store.isIdle_close _
      intact := hopen
      holds := ⟨t, saved, (congrArg Database.entries hkept).trans ht, hholds, hgiven, hsaved,
        hforms⟩
      opensAgain := h.opensAgain }

theorem Matches.closed (h : l.Matches P path s) (hopen : l.isOpen = false) {step : Step}
    {operation : Operation} (hstep : s.step step = s.call operation)
    (hallows : l.Allows step (.error (.storage .closed)))
    (hafter : l.after path.isInMemory step (.error (.storage .closed)) = l) :
    Follows P path l s step := by
  rw [Session.call_closed (h.isOpen.trans hopen)] at hstep
  exact .of_step hstep (fun _ => hallows) (by rwa [hafter])

/-- An operation that no column has room for fails, and the store stays as it is. -/
theorem Matches.unfit (h : l.Matches P path s) (hopen : l.isOpen = true) {step : Step}
    {operation : Operation} (hstep : s.step step = s.call operation) (hfit : ¬step.Fits)
    (hfails : Access.Fails operation.run s.store.kept)
    (hafter : ∀ e, l.after path.isInMemory step (.error e) = l) : Follows P path l s step := by
  obtain ⟨e, store, hcall, hstore, hpath⟩ := Session.call_of_fails (h.shows hopen) hfails
  refine .of_step (hstep.trans hcall) (fun hfits => absurd hfits hfit) ?_
  rw [hafter]
  exact h.stay hopen hstore hpath

theorem Matches.insert (h : l.Matches P path s) {form : Form} (hform : P form) (today : Date) :
    Follows P path l s (.insert form today) := by
  cases hopen : l.isOpen with
  | false => exact h.closed hopen rfl (by simp [Allows, hopen]) rfl
  | true =>
    obtain ⟨t, saved, ht, hholds, hgiven, hsaved, hforms⟩ := h.holds
    have hshows := h.shows hopen
    have hintact := h.intact (h.isOpen.trans hopen)
    by_cases hfit : FitsWord form.type.amount
    · have hid := hholds.newId?
      by_cases hroom : t.lastId < maxInteger
      · rw [if_pos hroom] at hid
        obtain ⟨store, hcall, hstore, hpath⟩ :=
          Session.call_of_gives hshows (Operation.gives_insert hintact ht hid hfit today)
        refine .of_step hcall (fun _ => ?_) ?_
        · simp [Allows, hopen, reply, ← hgiven, hroom, Except.map]
        · have hbelow : ∀ other ∈ saved, other.id < t.lastId + 1 := fun other hother => by
            have := (hholds.bounds other hother).2
            omega
          refine h.change hopen { l.put (t.lastId + 1) (some ⟨t.lastId + 1, form, today⟩) with
              given := t.lastId + 1 } hstore (hpath.trans h.named)
            ((hintact.withEntries _).record form) (Database.entries_record _ _)
            (hholds.insert hroom form today) rfl rfl (fun other => ?_) fun other hother => ?_
          · change (l.put _ _).saved other = _
            rw [Saved.withId_append hbelow, put_saved, hsaved]
          · rcases List.mem_append.mp hother with hother | hother
            · exact hforms other hother
            · obtain rfl := List.mem_singleton.mp hother
              exact hform
      · rw [if_neg hroom] at hid
        obtain ⟨store, hcall, hstore, hpath⟩ :=
          Session.call_of_gives hshows (Operation.gives_insert_full ht hid hfit today)
        refine .of_step hcall (fun _ => ?_) (h.stay hopen hstore hpath)
        simp [Allows, hopen, reply, ← hgiven, hroom, Except.map]
    · exact h.unfit hopen rfl hfit (Operation.fails_insert ht hfit today) fun _ => rfl

theorem Matches.update (h : l.Matches P path s) (id : Int) {form : Form} (hform : P form) :
    Follows P path l s (.update id form) := by
  cases hopen : l.isOpen with
  | false => exact h.closed hopen rfl (by simp [Allows, hopen]) rfl
  | true =>
    obtain ⟨t, saved, ht, hholds, hgiven, hsaved, hforms⟩ := h.holds
    have hshows := h.shows hopen
    have hintact := h.intact (h.isOpen.trans hopen)
    by_cases hfit : FitsWord id ∧ FitsWord form.type.amount
    · obtain ⟨store, hcall, hstore, hpath⟩ :=
        Session.call_of_gives hshows (Operation.gives_update hintact ht hfit.1 hfit.2)
      have hhas := hholds.has id
      rw [← hsaved] at hhas
      have hforms' : ∀ other ∈ saved.map (Saved.change id form), P other.form := by
        intro other hother
        obtain ⟨kept, hkept, rfl⟩ := List.mem_map.mp hother
        unfold Saved.change
        split
        · exact hform
        · exact hforms kept hkept
      refine .of_step hcall (fun _ => ?_) ?_
      · simp [Allows, hopen, reply, hhas, Except.map]
      · cases hlive : t.has id with
        | true =>
          rw [hlive, if_pos rfl] at hstore
          refine h.change hopen (l.put id ((l.saved id).map fun s => { s with form := form }))
            hstore (hpath.trans h.named) ((hintact.withEntries _).record form)
            (Database.entries_record _ _) (hholds.modify id form) rfl hgiven (fun other => ?_)
            hforms'
          rw [Saved.withId_change, put_saved, hsaved, hsaved]
        | false =>
          rw [hlive, if_neg Bool.false_ne_true] at hstore
          refine h.change hopen l hstore (hpath.trans h.named) (hintact.withEntries _) rfl
            (hholds.modify id form) rfl hgiven (fun other => ?_) hforms'
          rw [Saved.withId_change]
          have hnone : Saved.withId saved id = none := by
            rw [← hsaved]
            simpa [hlive] using hhas.symm
          split
          · next he => rw [he, hsaved, hnone, Option.map_none]
          · exact hsaved other
    · exact h.unfit hopen rfl hfit (Operation.fails_update ht hfit) fun _ => rfl

theorem Matches.delete (h : l.Matches P path s) (id : Int) : Follows P path l s (.delete id) := by
  cases hopen : l.isOpen with
  | false => exact h.closed hopen rfl (by simp [Allows, hopen]) rfl
  | true =>
    obtain ⟨t, saved, ht, hholds, hgiven, hsaved, hforms⟩ := h.holds
    have hshows := h.shows hopen
    have hintact := h.intact (h.isOpen.trans hopen)
    by_cases hfit : FitsWord id
    · obtain ⟨store, hcall, hstore, hpath⟩ :=
        Session.call_of_gives hshows (Operation.gives_delete ht hfit)
      have hhas := hholds.has id
      rw [← hsaved] at hhas
      have hforms' : ∀ other ∈ saved.filter (·.id != id), P other.form := fun other hother =>
        hforms other (List.mem_of_mem_filter hother)
      refine .of_step hcall (fun _ => ?_) ?_
      · simp [Allows, hopen, reply, hhas, Except.map]
      · cases hlive : t.has id with
        | true =>
          refine h.change hopen (l.put id none) hstore (hpath.trans h.named)
            (hintact.withEntries _) rfl (hholds.erase id) rfl hgiven (fun other => ?_) hforms'
          rw [Saved.withId_filter, put_saved, hsaved]
        | false =>
          refine h.change hopen l hstore (hpath.trans h.named)
            (hintact.withEntries _) rfl (hholds.erase id) rfl hgiven (fun other => ?_) hforms'
          rw [Saved.withId_filter]
          split
          · next he =>
            rw [he]
            simpa [hlive] using hhas.symm
          · exact hsaved other
    · exact h.unfit hopen rfl hfit (Operation.fails_delete ht hfit) fun _ => rfl

theorem Matches.get (h : l.Matches P path s) (pageSize : Nat) (id : Int) :
    Follows P path l s (.get pageSize id) := by
  cases hopen : l.isOpen with
  | false => exact h.closed hopen rfl (by simp [Allows, hopen]) rfl
  | true =>
    obtain ⟨t, saved, ht, hholds, hgiven, hsaved, hforms⟩ := h.holds
    have hshows := h.shows hopen
    by_cases hfit : FitsWord pageSize ∧ FitsWord id
    · obtain ⟨store, hcall, hstore, hpath⟩ :=
        Session.call_of_gives hshows (Operation.gives_get ht hfit.1 hfit.2)
      rw [hholds.entryWith] at hcall
      refine .of_step hcall (fun _ => ?_) (h.stay hopen hstore hpath)
      simp [Allows, hopen, reply, hsaved, Except.map]
    · exact h.unfit hopen rfl hfit (Operation.fails_get ht hfit) fun _ => rfl

/-- A ledger that matches a session follows every step that saves forms of which `P` holds. -/
theorem Matches.step (h : l.Matches P path s) {step : Step} (hsaves : step.Saves P) :
    Follows P path l s step := by
  cases step with
  | open_ => exact h.open_
  | close => exact h.close
  | insert form today => exact h.insert hsaves today
  | update id form => exact h.update id hsaves
  | delete id => exact h.delete id
  | get pageSize id => exact h.get pageSize id

/-! ### Whole sessions -/

/-- The ledger after a trace. -/
def afterTrace (inMemory : Bool) (l : Ledger) (trace : List (Step × Reply)) : Ledger :=
  trace.foldl (fun l entry => l.after inMemory entry.1 entry.2) l

theorem Matches.run (h : l.Matches P path s) {steps : List Step}
    (hsaves : ∀ step ∈ steps, step.Saves P) :
    (l.afterTrace path.isInMemory (s.trace steps)).Matches P path (s.run steps) := by
  induction steps generalizing l s with
  | nil => exact h
  | cons step steps ih =>
    exact ih (h.step (hsaves step (by simp))).after
      fun other hother => hsaves other (by simp [hother])

theorem Matches.explains (h : l.Matches P path s) {steps : List Step}
    (hsaves : ∀ step ∈ steps, step.Saves P) (hfits : ∀ step ∈ steps, step.Fits) :
    l.Explains path.isInMemory (s.trace steps) := by
  induction steps generalizing l s with
  | nil => trivial
  | cons step steps ih =>
    have hstep := h.step (hsaves step (by simp))
    exact ⟨hstep.allows (hfits step (by simp)), ih hstep.after
      (fun other hother => hsaves other (by simp [hother]))
      fun other hother => hfits other (by simp [hother])⟩

/-- Where the database is not in memory, a session that is closed and opened again goes on as if it
had not been. -/
theorem Matches.reopen (h : l.Matches P path s) (hopen : l.isOpen = true)
    (hfile : path.isInMemory = false) :
    s.trace [.close, .open_] = [(.close, .ok none), (.open_, .ok none)] ∧
      l.Matches P path (s.run [.close, .open_]) := by
  have hclose := h.close
  have hopening := hclose.after.open_
  have hreply : (s.step .close).1 = .ok none := rfl
  rw [hreply] at hopening
  have hwas : (l.after path.isInMemory .close (.ok none)).wasOpen = true :=
    wasOpen_after (h.wasOpen hopen) _ _
  have hreply' : ((s.step .close).2.step .open_).1 = .ok none :=
    (hopening.allows trivial).resolve_right fun ⟨hnever, _⟩ => by simp [hwas] at hnever
  have hl : (l.after path.isInMemory .close (.ok none)).after path.isInMemory .open_ (.ok none) =
      l := by
    rw [hfile]
    exact opened_eq hopen (h.wasOpen hopen)
  refine ⟨?_, ?_⟩
  · simp only [Session.trace, hreply']
    rfl
  · have hafter := hopening.after
    rw [hreply', hl] at hafter
    exact hafter

end Ledger

namespace Session

/-- The table of entries of a store holds the forms that were saved. -/
theorem holds_of_shows {P : Form → Prop} (path : Path) (tree : FileTree) {steps : List Step}
    (hsaves : ∀ step ∈ steps, step.Saves P) {db : Database}
    (hshows : ((new path tree).run steps).store.Shows db) {t : EntryTable}
    (ht : db.entries = some t) : ∃ saved, t.Holds saved ∧ ∀ s ∈ saved, P s.form := by
  obtain ⟨kept, saved, hkept, hholds, -, -, hforms⟩ :=
    ((Ledger.new_matches P path tree).run hsaves).holds
  rw [hshows.kept, ht] at hkept
  cases hkept
  exact ⟨saved, hholds, hforms⟩

theorem map_fst_trace (s : Session) (steps : List Step) : (s.trace steps).map Prod.fst = steps := by
  induction steps generalizing s with
  | nil => rfl
  | cons step steps ih => rw [trace, List.map_cons, ih]

theorem run_append (s : Session) (before after : List Step) :
    s.run (before ++ after) = (s.run before).run after := List.foldl_append

/-- A store, whatever is done to it, replies what the ledger of its replies prescribes: under every
number the form that was saved last is kept, with the day of its insertion, until it is deleted.
Where the database is in a file, closing an open store and opening it again succeed, and change no
later reply. -/
theorem trace_follows_ledger (path : Path) (tree : FileTree) (steps : List Step)
    (hfits : ∀ step ∈ steps, step.Fits) :
    Ledger.new.Explains path.isInMemory ((Session.new path tree).trace steps) ∧
      (path.isInMemory = false → ∀ before later, steps = before ++ later →
        ((Session.new path tree).run before).store.isOpen = true →
          ((Session.new path tree).run before).trace [.close, .open_] =
              [(.close, .ok none), (.open_, .ok none)] ∧
            ((Session.new path tree).run (before ++ [.close, .open_])).trace later =
              ((Session.new path tree).run before).trace later) := by
  have hnew := Ledger.new_matches (fun _ => True) path tree
  have hsaves (steps : List Step) : ∀ step ∈ steps, step.Saves fun _ => True := fun step _ => by
    cases step <;> trivial
  refine ⟨hnew.explains (hsaves steps) hfits, fun hfile before later hsteps hopen => ?_⟩
  have hbefore := hnew.run (hsaves before)
  have hopen' := hbefore.isOpen.symm.trans hopen
  obtain ⟨hreplies, hreopened⟩ := hbefore.reopen hopen' hfile
  have hlater : ∀ step ∈ later, step.Fits := fun step hstep => hfits step (by simp [hsteps, hstep])
  refine ⟨hreplies, ?_⟩
  rw [run_append]
  refine Ledger.Explains.eq (hbefore.wasOpen hopen') (hreopened.explains (hsaves later) hlater)
    (hbefore.explains (hsaves later) hlater) ?_
  rw [map_fst_trace, map_fst_trace]

theorem trace_follows_ledger_sample :
    (∀ step ∈ [.open_, .insert .sample .first, .get 10 1], Step.Fits step) ∧
      (Path.ofText "archive.db").isInMemory = false ∧
      ((Session.new (.ofText "archive.db") ⟨[], []⟩).run
        [.open_, .insert .sample .first]).store.isOpen = true ∧
      ((Session.new (.ofText "archive.db") ⟨[], []⟩).run
        ([.open_, .insert .sample .first] ++ [.close, .open_])).trace [.get 10 1] =
          ((Session.new (.ofText "archive.db") ⟨[], []⟩).run
            [.open_, .insert .sample .first]).trace [.get 10 1] := by
  have hfits : ∀ step ∈ [.open_, .insert .sample .first, .get 10 1], Step.Fits step := by decide
  have hopen : ((Session.new (.ofText "archive.db") ⟨[], []⟩).run
      [.open_, .insert .sample .first]).store.isOpen = true := by rfl
  exact ⟨hfits, by rfl, hopen, ((trace_follows_ledger _ _ _ hfits).2 (by rfl) _ _ (by rfl) hopen).2⟩

/-- A database in memory is empty when it is opened again; and a page of more entries than a column
can count is refused, in a file too. -/
theorem reopening_forgets_in_memory :
    (Path.ofText ":memory:").isInMemory = true ∧
    ((new (.ofText ":memory:") ⟨[], []⟩).run [.open_, .insert .sample .first]).trace [.get 10 1] =
      [(.get 10 1, .ok (some (.entry (some ⟨1, Form.sample.readBack, .first⟩))))] ∧
    ((new (.ofText ":memory:") ⟨[], []⟩).run
      ([.open_, .insert .sample .first] ++ [.close, .open_])).trace [.get 10 1] =
      [(.get 10 1, .ok (some (.entry none)))] ∧
    ((new (.ofText "archive.db") ⟨[], []⟩).run [.open_, .insert .sample .first]).trace
      [.get (2 ^ 63) 1] = [(.get (2 ^ 63) 1, .error (.unbound .integerTooLarge))] := by
  exact ⟨by rfl, by with_unfolding_all rfl, by rfl, by rfl⟩

end Session

end Catalogue
