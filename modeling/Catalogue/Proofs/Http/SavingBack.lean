import Catalogue.Proofs.Http.Visits

/-! Saving back what was shown.  The answer to a request for an entry, taken as the body of a
request to replace that entry, is accepted, and no entry is shown differently afterwards: lists that
came back from their columns come back as they are, and the day of the first save is kept.  This
holds for a server on every framework that checks drafts as they are declared. -/

namespace Catalogue

open Number Text

/-- A form that came back comes back as it is. -/
theorem Form.readBack_readBack (form : Form) : form.readBack.readBack = form.readBack := by
  simp only [Form.readBack, FieldList.readBack_readBack]

/-- The store is open and has an entry with this number. -/
def Store.HasEntry (store : Store) (id : Int) : Prop :=
  ∃ db t, store.Shows db ∧ db.entries = some t ∧ t.has id = true

namespace Http

/-- The request is led to an endpoint for the entry with a number, and its address can be read. -/
structure Request.Names (f : Framework) (r : Request) (endpoint : String → Endpoint) (n : Int) :
    Prop where
  found : ∃ id, f.find r = .ok (endpoint id) ∧ f.readId id = .valid n
  readable : (f.query? r).isSome

/-! ### Answers about single entries -/

section Answers

variable {f : Framework} {s : Setting} {r : Request} {n : Int}

theorem serve_get (hf : f.Dispatches) (s : Setting) (hn : r.Names f .showEntry n) :
    ∃ mark, KeepsAnswer mark ∧ ∀ store,
      serve f s r store = ((showEntry n store).1.map mark, (showEntry n store).2) := by
  obtain ⟨⟨id, hfind, hid⟩, hread⟩ := hn
  obtain ⟨mark, hmark, hserve⟩ := serve_eq hf s hfind hread
  refine ⟨mark, hmark, fun store => ?_⟩
  rw [hserve, answerAt, hid]
  rfl

theorem serve_put (hf : f.Dispatches) (hdata : f.Validates) (s : Setting)
    (hn : r.Names f .replaceEntry n) {draft : Draft} (hdraft : f.readDraft r = .valid draft) :
    ∃ mark, KeepsAnswer mark ∧ ∀ store, serve f s r store =
      ((replaceEntry n draft store).1.map mark, (replaceEntry n draft store).2) := by
  obtain ⟨⟨id, hfind, hid⟩, hread⟩ := hn
  obtain ⟨mark, hmark, hserve⟩ := serve_eq hf s hfind hread
  refine ⟨mark, hmark, fun store => ?_⟩
  rw [hserve, answerAt, hdata.both.mpr ⟨hid, hdraft⟩]
  rfl

end Answers

/-! ### What is shown -/

/-- The reply to a request for an entry, by the saved forms. -/
def shown (saved : List Saved) (n : Int) : Reply :=
  if FitsWord n then
    match Saved.withId saved n with
    | none => .response notFound
    | some s => if isShown s.entry then .response (.json 200 (entryJson s.entry)) else .unhandled
  else .unhandled

section Shown

variable {store : Store} {db : Database} {t : EntryTable} {saved : List Saved}

/-- Where no refusal is remembered, the saved forms alone decide what is shown. -/
theorem showEntry_eq (hshows : store.Shows db) (ht : db.entries = some t) (hholds : t.Holds saved)
    (hcalm : store.IsCalm) (n : Int) : (showEntry n store).1 = shown saved n := by
  unfold showEntry reply shown
  by_cases hn : FitsWord n
  · have hsize : FitsWord defaultPageSize := by decide
    obtain ⟨after, hget, -⟩ := (Access.Gives.getEntry ht hsize hn).of_shows hshows
    rw [hholds.entryWith] at hget
    rw [hget, if_pos hn]
    cases Saved.withId saved n <;> rfl
  · -- The number cannot be bound, whatever is prepared; a remembered refusal would come first.
    obtain ⟨path, state⟩ := store
    obtain ⟨⟨prepared, refused⟩, rfl⟩ := hshows
    obtain rfl : refused = none := hcalm
    obtain ⟨memory', hget⟩ := Access.getEntry_unfit ht hn defaultPageSize path ⟨prepared, none⟩
    rw [hget, if_neg hn]
    rfl

theorem showEntry_shows (hshows : store.Shows db) (ht : db.entries = some t) {n : Int}
    (hn : FitsWord n) : (showEntry n store).2.Shows db := by
  have hsize : FitsWord defaultPageSize := by decide
  unfold showEntry
  obtain ⟨after, hget, hafter, -⟩ := (Access.Gives.getEntry ht hsize hn).of_shows hshows
  rw [reply_store, Access.after, hget]
  cases t.entryWith n <;> exact hafter

/-- A form that is saved as a new entry is an entry of the store. -/
theorem hasEntry_createEntry (s : Setting) (form : Form) (hshows : store.Shows db)
    (hintact : db.Intact) (ht : db.entries = some t) {n : Int} (hn : t.newId? = some n)
    (hfit : FitsWord form.type.amount) : (createEntry s (.ofForm form) store).2.HasEntry n := by
  have hgives : Access.Gives (Access.insertEntry form s.today) db (.ok n) _ :=
    .onConnection _ (Steps.Gives.saveNew hintact ht hn hfit)
  obtain ⟨after, hinsert, hafter, -⟩ := hgives.of_shows hshows
  have hentries := Database.entries_record form
    (db.withEntries (t.insert (.ofForm n form (.text s.today.text))))
  refine ⟨_, t.insert (.ofForm n form (.text s.today.text)), ?_, hentries, ?_⟩
  · simp only [createEntry, Draft.form?_ofForm, reply_store, Access.after]
    rw [hinsert]
    exact hafter
  · simp [EntryTable.insert, EntryTable.has, Row.ofForm]

/-- Saving a form over an entry answers that the entry was found. -/
theorem replaceEntry_eq (form : Form) (hshows : store.Shows db) (hintact : db.Intact)
    (ht : db.entries = some t) (hholds : t.Holds saved) {n : Int} (hn : FitsWord n)
    (hlive : t.has n = true) (hfit : FitsWord form.type.amount) :
    (replaceEntry n (.ofForm form) store).1 = .response (.empty 204) ∧
      ∃ db' t', (replaceEntry n (.ofForm form) store).2.Shows db' ∧ db'.entries = some t' ∧
        t'.Holds (saved.map (Saved.change n form)) := by
  have hgives := Access.Gives.onConnection (.updateFailed n)
    (Steps.Gives.saveOver hintact ht hn hfit)
  obtain ⟨after, hupdate, hafter, -⟩ := hgives.of_shows hshows
  rw [hlive, if_pos rfl] at hafter
  have hentries := Database.entries_record form
    (db.withEntries (t.modify n fun row => .ofForm n form row.saved))
  refine ⟨?_, _, t.modify n fun row => .ofForm n form row.saved, ?_, hentries,
    hholds.modify n form⟩
  · simp only [replaceEntry, Draft.form?_ofForm, reply, Access.updateEntry]
    rw [hupdate, hlive]
    rfl
  · simp only [replaceEntry, Draft.form?_ofForm, reply_store, Access.updateEntry, Access.after]
    rw [hupdate]
    exact hafter

theorem isCalm_replaceEntry (n : Int) (form : Form) {store : Store} (hidle : store.IsIdle) :
    (replaceEntry n (.ofForm form) store).2.IsCalm := by
  have hcalm := Operation.IsWrite.isCalm (w := .update n form) trivial hidle
  rw [Operation.run, Access.after_map] at hcalm
  simp only [replaceEntry, Draft.form?_ofForm, reply_store]
  exact hcalm

/-- Where a form that came back is written over the form that it came from, the same is shown. -/
theorem shown_change {s : Saved} {n : Int} (h : Saved.withId saved n = some s) :
    shown (saved.map (Saved.change n s.form.readBack)) = shown saved := by
  funext other
  unfold shown
  rw [Saved.withId_change]
  by_cases hother : other = n
  · have hentry : Saved.entry { s with form := s.form.readBack } = s.entry := by
      simp only [Saved.entry, Form.readBack_readBack]
    rw [if_pos hother, hother, h]
    simp only [Option.map_some, hentry]
  · rw [if_neg hother]

theorem handle_response (f : Framework) (s : Setting) (r : Request) (store : Store) :
    (handle f s r store).1 = match (serve f s r store).1 with
      | .response response => response
      | .unhandled => f.crash := rfl

/-- Requests for an entry are answered alike from stores that show the same. -/
theorem handle_get_eq {f : Framework} (hf : f.Dispatches) {after : Store}
    (hshown : ∀ n, (showEntry n after).1 = (showEntry n store).1) (s : Setting) {r : Request}
    {id : String} (hfind : f.find r = .ok (.showEntry id)) :
    (handle f s r after).1 = (handle f s r store).1 := by
  have hanswer : (answerAt f s r (.showEntry id) after).1 =
      (answerAt f s r (.showEntry id) store).1 := by
    simp only [answerAt]
    unfold received
    cases f.readId id with
    | valid n => exact hshown n
    | _ => rfl
  have hserve : (serve f s r after).1 = (serve f s r store).1 := by
    cases hread : f.query? r with
    | none => rw [serve_unreadable s hread, serve_unreadable s hread]
    | some query =>
      obtain ⟨mark, -, heq⟩ := serve_eq hf s hfind (by rw [hread]; rfl)
      rw [heq, heq, hanswer]
  rw [handle_response, handle_response, hserve]

end Shown

/-! ### Entries that are found -/

/-- An entry of a store that was reached by requests, with all that is known of it. -/
structure Found (store : Store) (n : Int) where
  db : Database
  table : EntryTable
  saved : List Saved
  found : Saved
  shows : store.Shows db
  intact : db.Intact
  calm : store.IsCalm
  entries : db.entries = some table
  holds : table.Holds saved
  withId : Saved.withId saved n = some found
  isShown : found.form.IsShown
  fits : FitsWord n
  id : found.id = n

theorem exists_found {path : Path} {s : Session} (h : s.IsServed path) {n : Int}
    (hlive : s.store.HasEntry n) : Nonempty (Found s.store n) := by
  obtain ⟨db, t, hshows, ht, hhas⟩ := hlive
  obtain ⟨⟨l, hl⟩, hcalm⟩ := h
  obtain ⟨t', saved, ht', hholds, -, -, hforms⟩ := hl.holds
  obtain rfl := hshows.kept
  obtain rfl : t' = t := Option.some.inj (ht'.symm.trans ht)
  rw [hholds.has] at hhas
  obtain ⟨found, hfound⟩ := Option.isSome_iff_exists.mp hhas
  have hmem := List.mem_of_find?_eq_some hfound
  have hid : found.id = n := by simpa using List.find?_some hfound
  -- The number was given, so it lies between one and the last that was given.
  have hbounds := hholds.bounds found hmem
  have hlast := hholds.lastId.2
  have hfits : FitsWord n := by
    simp only [maxInteger, wordBound] at hlast
    simp only [FitsWord, wordBound]
    omega
  exact ⟨⟨_, t', saved, found, hshows, hl.intact hshows.isOpen, hcalm, ht, hholds, hfound,
    hforms found hmem, hfits, hid⟩⟩

/-- A response that shows a JSON value. -/
def Response.Shows (r : Response) (v : Json) : Prop := r.status = 200 ∧ r.content = .json v

namespace Found

variable {store : Store} {n : Int} (e : Found store n)

def body : Json := entryJson e.found.entry

theorem isShown_entry : Http.isShown e.found.entry = true := decide_eq_true e.isShown.1

variable {f : Framework}

/-- A request for the entry is answered with the entry. -/
theorem handle_get (hf : f.Dispatches) (s : Setting) {get : Request}
    (hn : get.Names f .showEntry n) :
    (handle f s get store).1.Shows e.body ∧ (handle f s get store).2.Shows e.db := by
  obtain ⟨mark, hmark, hserve⟩ := serve_get hf s hn
  have hshown : shown e.saved n = .response (.json 200 e.body) := by
    simp only [shown, e.fits, if_true, e.withId, e.isShown_entry, body]
  rw [handle, hserve, showEntry_eq e.shows e.entries e.holds e.calm, hshown]
  exact ⟨⟨hmark.status _, hmark.content _⟩, showEntry_shows e.shows e.entries e.fits⟩

/-- What was shown of the entry is received as a draft. -/
theorem readDraft_body (hdata : f.Validates) {put : Request} (hsends : put.Sends f e.body) :
    f.readDraft put = .valid (.ofForm e.found.form.readBack) := by
  have hid : FitsWord e.found.id := by rw [e.id]; exact e.fits
  exact readDraft_entryJson hdata hid e.isShown.1 e.isShown.2 hsends

/-- What was shown of the entry, put back into a store that shows the same, is saved, and no entry
is shown differently. -/
theorem handle_put (hf : f.Dispatches) (hdata : f.Validates) {store' : Store}
    (hshows : store'.Shows e.db) (s : Setting) {put : Request} (hn : put.Names f .replaceEntry n)
    (hsends : put.Sends f e.body) :
    (handle f s put store').1.status = 204 ∧
      ∀ other, (showEntry other (handle f s put store').2).1 = (showEntry other store).1 := by
  obtain ⟨mark, hmark, hserve⟩ := serve_put hf hdata s hn (e.readDraft_body hdata hsends)
  have hlive : e.table.has n = true := by rw [e.holds.has, e.withId]; rfl
  obtain ⟨hreply, db', t', hafter, hentries, hholds⟩ :=
    replaceEntry_eq e.found.form.readBack hshows e.intact e.entries e.holds e.fits hlive
      e.isShown.2
  rw [handle, hserve]
  refine ⟨?_, fun other => ?_⟩
  · rw [hreply]
    exact hmark.status _
  · rw [showEntry_eq hafter hentries hholds (isCalm_replaceEntry n _ hshows.isIdle),
      showEntry_eq e.shows e.entries e.holds e.calm, shown_change e.withId]

end Found

/-! ### Saving back -/

/-- Of every store that requests have reached, and every entry there: requests for the entry are
answered with a JSON object; and a request that puts this object back is answered with 204, after
which every request for an entry, this one or another, is answered as before. -/
theorem saving_back_changes_nothing {f : Framework} (hf : f.Dispatches) (hdata : f.Validates)
    (path : Path) (tree : FileTree) {visits : List Visit} (hvisits : ∀ v ∈ visits, v.IsEdit)
    {n : Int} (hlive : ((Session.new path tree).host f visits).store.HasEntry n) :
    ∃ body : Json, ∀ (s : Setting) (get : Request), get.Names f .showEntry n →
      let shown := handle f s get ((Session.new path tree).host f visits).store
      shown.1.Shows body ∧
      ∀ (s' : Setting) (put : Request), put.Names f .replaceEntry n → put.Sends f body →
        let accepted := handle f s' put shown.2
        accepted.1.status = 204 ∧
        ∀ (s'' : Setting) (r : Request) (id : String), f.find r = .ok (.showEntry id) →
          (handle f s'' r accepted.2).1 =
            (handle f s'' r ((Session.new path tree).host f visits).store).1 := by
  have hserved := Session.isServed_host hf hdata path tree hvisits
  obtain ⟨e⟩ := exists_found hserved hlive
  generalize ((Session.new path tree).host f visits).store = store at e ⊢
  refine ⟨e.body, fun s get hget => ?_⟩
  obtain ⟨hshown, hshows⟩ := e.handle_get hf s hget
  refine ⟨hshown, fun s' put hput hsends => ?_⟩
  obtain ⟨hstatus, hsame⟩ := e.handle_put hf hdata hshows s' hput hsends
  exact ⟨hstatus, fun s'' r id hfind => handle_get_eq hf hsame s'' hfind⟩

/-- A form that is posted to a store once it is open is an entry there. -/
theorem hasEntry_posted {f : Framework} (hf : f.Dispatches) {start : Session} {db : Database}
    {t : EntryTable} (hshows : (start.step .open_).2.store.Shows db) (hintact : db.Intact)
    (ht : db.entries = some t) {n : Int} (hn : t.newId? = some n) {form : Form}
    (hfit : FitsWord form.type.amount) (s : Setting) {post : Request}
    (hfind : f.find post = .ok .createEntry) (hdraft : f.readDraft post = .valid (.ofForm form)) :
    (start.host f [.open_, .ask s post]).store.HasEntry n := by
  have hmethod : post.method ≠ "OPTIONS" := hf.method hfind ▸ Endpoint.method_ne_options _
  have hstore : (start.host f [.open_, .ask s post]).store =
      (handle f s post (start.step .open_).2.store).2 := rfl
  rw [hstore, handle_store hf s hmethod, answer, hfind]
  simp only [answerAt, hdraft, received]
  exact hasEntry_createEntry s form hshows hintact ht hn hfit

/-- The tag of the sample has a bar, so it is shown as two. -/
theorem saving_back_changes_nothing_sample :
    let post : Request := ⟨"POST", "/api/texts", "", [("content-type", "application/json")],
      Framework.sample.render (entryJson ⟨1, .sample, .first⟩)⟩
    let visits : List Visit := [.open_, .ask .sample post]
    let store := ((Session.new (.ofText "archive.db") ⟨[], []⟩).host .sample visits).store
    let get : Request := ⟨"GET", "/api/texts/1", "", [], []⟩
    Framework.sample.Dispatches ∧ Framework.sample.Validates ∧ (∀ v ∈ visits, v.IsEdit) ∧
    store.HasEntry 1 ∧ ∃ body : Json,
      let put : Request := ⟨"PUT", "/api/texts/1", "", [("content-type", "application/json")],
        Framework.sample.render body⟩
      let shown := handle .sample .sample get store
      let accepted := handle .sample .sample put shown.2
      shown.1.Shows body ∧ accepted.1.status = 204 ∧
        (handle .sample .sample get accepted.2).1.Shows body := by
  intro post visits store get
  have hf := Framework.sample_dispatches
  have hdata := Framework.sample_validates
  have hedits : ∀ v ∈ visits, v.IsEdit := by
    intro v hv
    obtain rfl | rfl : v = .open_ ∨ v = .ask .sample post := by simpa [visits] using hv
    · trivial
    · show "POST" ∈ ["POST", "PUT", "DELETE"]
      decide
  have hlive : store.HasEntry 1 := by
    have hopen : (((Session.new (.ofText "archive.db") ⟨[], []⟩).step .open_).2.store).Shows
        Database.blank.prepared := ⟨.blank, rfl⟩
    have hfind : Framework.sample.find post = .ok .createEntry :=
      Framework.sample_find (by decide : Route.ofPath? "/api/texts" = some .entries) rfl
    have hdraft : Framework.sample.readDraft post = .valid (.ofForm .sample) :=
      readDraft_entryJson hdata (e := ⟨1, .sample, .first⟩) (by decide) (by decide) (by decide)
        ⟨rfl, rfl⟩
    exact hasEntry_posted hf hopen (Database.prepared_intact _) rfl rfl (by decide) .sample hfind
      hdraft
  have hroute : Route.ofPath? "/api/texts/1" = some (.entry "1") := by decide
  have hget : get.Names .sample .showEntry 1 := ⟨⟨"1", Framework.sample_find hroute rfl, rfl⟩, rfl⟩
  obtain ⟨body, hback⟩ := saving_back_changes_nothing hf hdata (.ofText "archive.db") ⟨[], []⟩
    hedits hlive
  refine ⟨hf, hdata, hedits, hlive, body, ?_⟩
  obtain ⟨hshown, haccepted⟩ := hback .sample get hget
  obtain ⟨hstatus, hsame⟩ := haccepted .sample ⟨"PUT", "/api/texts/1", "",
    [("content-type", "application/json")], Framework.sample.render body⟩
    ⟨⟨"1", Framework.sample_find hroute rfl, rfl⟩, rfl⟩ ⟨rfl, rfl⟩
  refine ⟨hshown, hstatus, ?_⟩
  rw [hsame .sample get "1" (Framework.sample_find hroute rfl)]
  exact hshown

end Http

end Catalogue
