import Catalogue.Proofs.Http.Standard
import Catalogue.Proofs.Store.Binding
import Catalogue.Proofs.Store.Serving

/-! What the server answers.  A request for one of its endpoints is answered with success, or with a
JSON object that says what is wrong, unless it asks for something that no answer is meant for; what
that can be is listed, for every framework. -/

namespace Catalogue.Http

open Catalogue.Filter Number Text

/-- The response says what is wrong in a JSON object. -/
def Response.IsError (r : Response) : Prop :=
  r.status ∈ [400, 404, 500] ∧ ∃ members message, r.content = .json (.object members) ∧
    Members.get? members "error" = some (.text message)

/-- The response is a success, or says what is wrong. -/
def Response.IsProper (success : Nat) (r : Response) : Prop := r.status = success ∨ r.IsError

/-- The texts and the measure of the draft fit into columns. -/
def Draft.IsStorable (d : Draft) : Prop := ∃ form, d.form? = some form ∧ FitsWord form.type.amount

/-- The framework refuses the data with a response of its own that does not say what is wrong. -/
def Received.IsMuddled {α : Type} (success : Nat) : Received α → Prop
  | .refused response => ¬response.IsProper success
  | _ => False

/-- The endpoint is asked for something that no answer is meant for. -/
def LeaksAt (f : Framework) (s : Setting) (r : Request) (store : Store) : Endpoint → Prop
  -- A place or a seed of too many digits, or a page with a negative measure.
  | .listEntries => ∃ filter, f.query? r = some filter ∧
      ((∃ fault, compile filter = .error (.numeral fault)) ∨
        ∃ q page after, compile filter = .ok q ∧
          Access.retrieve defaultPageSize s.generatedSeed q store = .ok page after ∧
          ∃ e ∈ page.entries, e.form.type.amount < 0)
  -- A draft with half of a pair or a measure beyond 64 bits.
  | .createEntry => (f.readDraft r).IsMuddled 200 ∨
      store.isOpen ∧ ∃ draft, f.readDraft r = .valid draft ∧ ¬draft.IsStorable
  | .showEntry id => (f.readId id).IsMuddled 200 ∨ ∃ n, f.readId id = .valid n ∧
      (store.isOpen ∧ ¬FitsWord n ∧ ¬store.Repeats (.select "entry_id = ?") ∨
        ∃ e after, Access.getEntry defaultPageSize n store = .ok (some e) after ∧
          e.form.type.amount < 0)
  | .replaceEntry id => (f.readIdAndDraft r id).IsMuddled 204 ∨
      store.isOpen ∧ ∃ n draft, f.readIdAndDraft r id = .valid (n, draft) ∧
        ¬(FitsWord n ∧ draft.IsStorable)
  | .deleteEntry id => (f.readId id).IsMuddled 204 ∨
      store.isOpen ∧ ∃ n, f.readId id = .valid n ∧ ¬FitsWord n
  | .listCategories | .listVocabulary _ => False

/-- The request asks for something that no answer is meant for, or its address cannot be read. -/
def Leaks (f : Framework) (s : Setting) (r : Request) (store : Store) (e : Endpoint) : Prop :=
  f.query? r = none ∨ LeaksAt f s r store e

/-! ### Responses -/

theorem Response.isError_error {status : Nat} (h : status ∈ [400, 404, 500]) (message : String) :
    (Response.error status message).IsError := ⟨h, _, message, rfl, rfl⟩

theorem Response.isError_invalid (problems : List Problem) : (invalid problems).IsError :=
  ⟨by simp [invalid, Response.json], _, "invalid parameters", rfl, rfl⟩

/-- The reply is a response of that kind. -/
def Reply.IsProper (success : Nat) (reply : Reply) : Prop :=
  ∃ r, reply = .response r ∧ r.IsProper success

theorem Reply.isProper_response {success : Nat} {r : Response} :
    (Reply.response r).IsProper success ↔ r.IsProper success := by
  constructor
  · rintro ⟨_, ⟨rfl⟩, h⟩
    exact h
  · exact fun h => ⟨r, rfl, h⟩

theorem Reply.not_isProper_unhandled (success : Nat) : ¬Reply.unhandled.IsProper success := by
  rintro ⟨_, ⟨⟩, _⟩

variable {f : Framework} {s : Setting} {r : Request} {store after : Store}

theorem KeepsAnswer.isProper_iff {mark : Response → Response} (h : KeepsAnswer mark)
    {success : Nat} (r : Response) : (mark r).IsProper success ↔ r.IsProper success := by
  rw [Response.IsProper, Response.IsError, h.status, h.content]
  rfl

theorem KeepsAnswer.map_isProper_iff {mark : Response → Response} (h : KeepsAnswer mark)
    {success : Nat} (reply : Reply) :
    (reply.map mark).IsProper success ↔ reply.IsProper success := by
  cases reply with
  | response r =>
    exact Reply.isProper_response.trans ((h.isProper_iff r).trans Reply.isProper_response.symm)
  | unhandled => exact Iff.rfl

theorem Reply.map_id (reply : Reply) : reply.map id = reply := by cases reply <;> rfl

/-- Apart from the questions of browsers, a request is answered by its endpoint, and the answer
marked, in a way that does not depend on the store. -/
theorem answerOrigin_eq (hf : f.Dispatches) (s : Setting) (h : r.method ≠ "OPTIONS") :
    ∃ mark, KeepsAnswer mark ∧ ∀ store,
      answerOrigin f s r store = ((answer f s r store).1.map mark, (answer f s r store).2) := by
  unfold answerOrigin
  split
  · exact ⟨id, ⟨fun _ => rfl, fun _ => rfl⟩, fun store => by rw [Reply.map_id]⟩
  · next rules _ =>
    have hnone : f.preflight? rules r = none := by
      cases hpreflight : f.preflight? rules r with
      | none => rfl
      | some response => exact absurd (hf.preflight hpreflight) h
    rw [hnone]
    exact ⟨f.mark rules r, hf.mark rules r, fun _ => rfl⟩

theorem Endpoint.method_ne_options (e : Endpoint) : e.method ≠ "OPTIONS" := by
  cases e <;> exact ne_of_beq_false rfl

/-- A request for an endpoint whose address can be read is answered by that endpoint. -/
theorem serve_eq (hf : f.Dispatches) (s : Setting) {e : Endpoint} (he : f.find r = .ok e)
    (hread : (f.query? r).isSome) : ∃ mark, KeepsAnswer mark ∧ ∀ store,
      serve f s r store = ((answerAt f s r e store).1.map mark, (answerAt f s r e store).2) := by
  obtain ⟨mark, hmark, horigin⟩ :=
    answerOrigin_eq hf s (r := r) (hf.method he ▸ e.method_ne_options)
  refine ⟨mark, hmark, fun store => ?_⟩
  have hanswer : answer f s r store = answerAt f s r e store := by rw [answer, he]
  rw [serve, horigin, hanswer, hread]
  rfl

theorem serve_unreadable (s : Setting) (hread : f.query? r = none) (store : Store) :
    (serve f s r store).1 = .unhandled := by
  rw [serve, hread]
  rfl

/-! ### Operations that an answer is made of -/

section Replies

variable {α : Type} {operation : Access α} {answer : α → Reply} {success : Nat}

/-- What an operation gives makes a proper reply. -/
def IsAnswered (success : Nat) (answer : α → Reply) : Except StoreFault α → Prop
  | .ok a => (answer a).IsProper success
  | .error (.storage _) => True
  | .error _ => False

theorem reply_isProper_iff {result : Except StoreFault α}
    (h : operation store = Access.resultOf result after) :
    (reply operation answer store).1.IsProper success ↔ IsAnswered success answer result := by
  unfold reply
  rw [h]
  cases result with
  | ok a => exact Iff.rfl
  | error e =>
    cases e with
    | storage fault =>
      exact iff_of_true ⟨_, rfl, .inr (Response.isError_error (by decide) _)⟩ trivial
    | _ => exact iff_of_false (Reply.not_isProper_unhandled success) id

theorem reply_isProper_of_gives {result : Except StoreFault α} {db later : Database}
    (h : Access.Gives operation db result later) (hshows : store.Shows db) :
    (reply operation answer store).1.IsProper success ↔ IsAnswered success answer result := by
  obtain ⟨after, hresult, -⟩ := h.of_shows hshows
  exact reply_isProper_iff hresult

theorem reply_isProper_of_closed (h : operation store = .error (.storage .closed) store) :
    (reply operation answer store).1.IsProper success := by
  have hresult : operation store = Access.resultOf (.error (.storage .closed)) store := h
  exact (reply_isProper_iff hresult).mpr trivial

/-- An endpoint leaks at data that the framework refuses without a reason, and at valid data that
its answer leaks at. -/
theorem received_isProper_iff {data : Received α} {answer : α → Store → Reply × Store}
    {leaks : α → Prop} (h : ∀ a, (answer a store).1.IsProper success ↔ ¬leaks a) :
    (received data answer store).1.IsProper success ↔
      ¬(data.IsMuddled success ∨ ∃ a, data = .valid a ∧ leaks a) := by
  cases data with
  | valid a => simp [received, Received.IsMuddled, h]
  | invalid problems =>
    refine iff_of_true ?_ (by simp [Received.IsMuddled])
    exact Reply.isProper_response.mpr (.inr (Response.isError_invalid problems))
  | refused response => simp [received, Received.IsMuddled, Reply.isProper_response]

end Replies

/-! ### Stores that forms alone have filled -/

theorem changed_isProper (found : Bool) : (changed found).IsProper 204 := by
  refine Reply.isProper_response.mpr ?_
  cases found with
  | true => exact .inl rfl
  | false => exact .inr (Response.isError_error (by decide) _)

theorem createEntry_isProper_iff (hstore : store.IsFilled) (draft : Draft) :
    (createEntry s draft store).1.IsProper 200 ↔ ¬(store.isOpen ∧ ¬draft.IsStorable) := by
  unfold createEntry
  rcases hstore with hclosed | ⟨db, t, saved, hshows, hintact, ht, -⟩
  · refine iff_of_true ?_ fun h => by simp [hclosed] at h
    cases draft.form? <;> exact reply_isProper_of_closed (Access.onConnection_closed hclosed _ _)
  · simp only [hshows.isOpen, true_and, not_not]
    cases hform : draft.form? with
    | none =>
      rw [reply_isProper_of_gives (Access.Gives.refuseInsert_unbound ht) hshows]
      exact iff_of_false id fun ⟨form, h, _⟩ => by simp [hform] at h
    | some form =>
      have hstorable : draft.IsStorable ↔ FitsWord form.type.amount := by
        simp [Draft.IsStorable, hform]
      rw [hstorable]
      by_cases hfit : FitsWord form.type.amount
      · refine iff_of_true ?_ hfit
        cases hid : t.newId? with
        | none =>
          exact (reply_isProper_of_gives (Access.Gives.onConnection_refused _
            (Steps.Fails.saveNew ht hid hfit)) hshows).mpr trivial
        | some id =>
          exact (reply_isProper_of_gives (Access.Gives.onConnection _
            (Steps.Gives.saveNew hintact ht hid hfit)) hshows).mpr ⟨_, rfl, .inl rfl⟩
      · rw [reply_isProper_of_gives (Access.Gives.insertEntry_unbound ht hfit _) hshows]
        exact iff_of_false id hfit

theorem replaceEntry_isProper_iff (hstore : store.IsFilled) (id : Int) (draft : Draft) :
    (replaceEntry id draft store).1.IsProper 204 ↔
      ¬(store.isOpen ∧ ¬(FitsWord id ∧ draft.IsStorable)) := by
  unfold replaceEntry
  rcases hstore with hclosed | ⟨db, t, saved, hshows, hintact, ht, -⟩
  · refine iff_of_true ?_ fun h => by simp [hclosed] at h
    cases draft.form? <;> exact reply_isProper_of_closed (Access.onConnection_closed hclosed _ _)
  · simp only [hshows.isOpen, true_and, not_not]
    cases hform : draft.form? with
    | none =>
      rw [reply_isProper_of_gives (Access.Gives.refuseUpdate_unbound ht id) hshows]
      exact iff_of_false (fun h => h) fun ⟨_, form, h, _⟩ => by simp [hform] at h
    | some form =>
      have hstorable : draft.IsStorable ↔ FitsWord form.type.amount := by
        simp [Draft.IsStorable, hform]
      rw [hstorable]
      by_cases hfit : FitsWord id ∧ FitsWord form.type.amount
      · refine iff_of_true ?_ hfit
        exact (reply_isProper_of_gives (Access.Gives.onConnection _
          (Steps.Gives.saveOver hintact ht hfit.1 hfit.2)) hshows).mpr (changed_isProper _)
      · rw [reply_isProper_of_gives (Access.Gives.updateEntry_unbound ht hfit) hshows]
        exact iff_of_false (fun h => h) hfit

theorem deleteEntry_isProper_iff (hstore : store.IsFilled) (id : Int) :
    (deleteEntry id store).1.IsProper 204 ↔ ¬(store.isOpen ∧ ¬FitsWord id) := by
  unfold deleteEntry
  rcases hstore with hclosed | ⟨db, t, saved, hshows, -, ht, -⟩
  · refine iff_of_true ?_ fun h => by simp [hclosed] at h
    exact reply_isProper_of_closed (Access.onConnection_closed hclosed _ _)
  · simp only [hshows.isOpen, true_and, not_not]
    by_cases hid : FitsWord id
    · refine iff_of_true ?_ hid
      exact (reply_isProper_of_gives (Access.Gives.onConnection _
        (Steps.Gives.remove ht hid)) hshows).mpr (changed_isProper _)
    · rw [reply_isProper_of_gives (Access.Gives.deleteEntry_unbound ht hid) hshows]
      exact iff_of_false (fun h => h) hid

theorem isShown_iff (e : Entry) : isShown e = true ↔ ¬e.form.type.amount < 0 := by
  simp [isShown]

theorem shown_isProper_iff (e : Entry) (shown : Response) (hshown : shown.status = 200) :
    (if isShown e then Reply.response shown else .unhandled).IsProper 200 ↔
      ¬e.form.type.amount < 0 := by
  by_cases hamount : e.form.type.amount < 0
  · rw [if_neg fun h => (isShown_iff e).mp h hamount]
    exact iff_of_false (Reply.not_isProper_unhandled 200) fun h => h hamount
  · rw [if_pos ((isShown_iff e).mpr hamount)]
    exact iff_of_true (Reply.isProper_response.mpr (.inl hshown)) hamount

theorem showEntry_isProper_iff (hstore : store.IsFilled) (id : Int) :
    (showEntry id store).1.IsProper 200 ↔
      ¬(store.isOpen ∧ ¬FitsWord id ∧ ¬store.Repeats (.select "entry_id = ?") ∨
        ∃ e after, Access.getEntry defaultPageSize id store = .ok (some e) after ∧
          e.form.type.amount < 0) := by
  unfold showEntry
  rcases hstore with hclosed | ⟨db, t, saved, hshows, -, ht, hholds⟩
  · have hget := Access.getEntry_closed hclosed defaultPageSize id
    refine iff_of_true (reply_isProper_of_closed hget) ?_
    simp [hclosed, hget]
  · have hopen := hshows.isOpen
    by_cases hid : FitsWord id
    · have hsize : FitsWord defaultPageSize := by decide
      obtain ⟨after, hget, -⟩ := (Access.Gives.getEntry ht hsize hid).of_shows hshows
      rw [hholds.entryWith] at hget
      rw [reply_isProper_iff hget]
      cases hsaved : Saved.withId saved id with
      | none =>
        rw [hsaved] at hget
        refine iff_of_true ?_ ?_
        · exact Reply.isProper_response.mpr (.inr (Response.isError_error (by decide) _))
        · simp [hid, hget, Access.resultOf]
      | some found =>
        rw [hsaved] at hget
        refine (shown_isProper_iff found.entry _ rfl).trans ?_
        simp [hid, hget, Access.resultOf]
    · obtain ⟨path, state⟩ := store
      obtain ⟨memory, rfl⟩ := hshows
      obtain ⟨memory', hget⟩ := Access.getEntry_unfit ht hid defaultPageSize path memory
      have hrepeats : Store.Repeats ⟨path, .connected ⟨db, none, memory, .quiet⟩⟩
          (.select "entry_id = ?") ↔ memory.repeats (.select "entry_id = ?") = true := by
        simp [Store.Repeats]
      have hfault :
          Access.getEntry defaultPageSize id ⟨path, .connected ⟨db, none, memory, .quiet⟩⟩ =
          Access.resultOf (.error (Access.lookupFault memory))
            ⟨path, .connected ⟨db, none, memory', .quiet⟩⟩ := hget
      rw [reply_isProper_iff hfault, hrepeats, Access.lookupFault]
      simp only [hget, hopen, hid]
      cases memory.repeats (.select "entry_id = ?") <;> simp [IsAnswered]

theorem page_isProper_iff (page : Page) (shown : Response) (hshown : shown.status = 200) :
    (if page.entries.all isShown then Reply.response shown else .unhandled).IsProper 200 ↔
      ¬∃ e ∈ page.entries, e.form.type.amount < 0 := by
  have hall : page.entries.all isShown = true ↔ ¬∃ e ∈ page.entries, e.form.type.amount < 0 := by
    simp [isShown_iff]
  by_cases hamount : ∃ e ∈ page.entries, e.form.type.amount < 0
  · rw [if_neg fun h => hall.mp h hamount]
    exact iff_of_false (Reply.not_isProper_unhandled 200) fun h => h hamount
  · rw [if_pos (hall.mpr hamount)]
    exact iff_of_true (Reply.isProper_response.mpr (.inl hshown)) hamount

theorem listEntries_isProper_iff (hstore : store.IsFilled) (filter : String) :
    (listEntries s filter store).1.IsProper 200 ↔
      ¬((∃ fault, compile filter = .error (.numeral fault)) ∨
        ∃ q page after, compile filter = .ok q ∧
          Access.retrieve defaultPageSize s.generatedSeed q store = .ok page after ∧
          ∃ e ∈ page.entries, e.form.type.amount < 0) := by
  unfold listEntries
  cases hcompile : compile filter with
  | error e =>
    cases e with
    | rejected cause =>
      refine iff_of_true ?_ (by simp)
      exact Reply.isProper_response.mpr (.inr (Response.isError_error (by decide) _))
    | numeral fault => exact iff_of_false (Reply.not_isProper_unhandled 200) (by simp)
  | ok q =>
    dsimp only
    rcases hstore with hclosed | ⟨db, t, saved, hshows, -, ht, hholds⟩
    · have hretrieve := Access.retrieve_closed hclosed defaultPageSize s.generatedSeed q
      exact iff_of_true (reply_isProper_of_closed hretrieve) (by simp [hretrieve])
    · have hsize : FitsWord defaultPageSize := by decide
      obtain ⟨path, state⟩ := store
      obtain ⟨memory, rfl⟩ := hshows
      obtain ⟨_, memory', hretrieve, rfl | ⟨page, rfl, -⟩⟩ :=
        Access.retrieve_cases ht hholds hsize
          (fits_of_le_maxOffset (compile_bounded hcompile).1) s.generatedSeed path memory
      · refine iff_of_true ((reply_isProper_iff hretrieve).mpr trivial) ?_
        simp [hretrieve, Access.resultOf]
      · rw [reply_isProper_iff hretrieve]
        refine (page_isProper_iff page _ rfl).trans ?_
        simp [hretrieve, Access.resultOf]

/-! ### The whole surface -/

/-- The lists of a store that shows all tables are always given. -/
theorem list_isProper {α : Type} {operation : Access α} {write : α → Json}
    (hclosed : store.isOpen = false → operation store = .error (.storage .closed) store)
    (hgives : ∀ db, store.Shows db → db.Intact → ∃ a, Access.Gives operation db (.ok a) db)
    (hstore : store.IsFilled) :
    (reply operation (fun a => .response (.json 200 (write a))) store).1.IsProper 200 := by
  rcases hstore with hopen | ⟨db, t, saved, hshows, hintact, -⟩
  · exact reply_isProper_of_closed (hclosed hopen)
  · obtain ⟨a, h⟩ := hgives db hshows hintact
    exact (reply_isProper_of_gives h hshows).mpr ⟨_, rfl, .inl rfl⟩

theorem answerAt_isProper_iff (hstore : store.IsFilled) (hread : (f.query? r).isSome)
    (e : Endpoint) :
    (answerAt f s r e store).1.IsProper e.success ↔ ¬LeaksAt f s r store e := by
  cases e with
  | listEntries =>
    obtain ⟨filter, hfilter⟩ := Option.isSome_iff_exists.mp hread
    simp only [answerAt, LeaksAt, hfilter, Option.some.injEq, exists_eq_left', Endpoint.success,
      listEntries_isProper_iff hstore]
  | createEntry =>
    refine (received_isProper_iff (createEntry_isProper_iff hstore)).trans ?_
    simp only [LeaksAt, and_left_comm, exists_and_left]
  | showEntry id => exact received_isProper_iff (showEntry_isProper_iff hstore)
  | replaceEntry id =>
    have hreplace (data : Int × Draft) := replaceEntry_isProper_iff hstore data.1 data.2
    refine (received_isProper_iff hreplace).trans ?_
    simp only [LeaksAt, Prod.exists, and_left_comm, exists_and_left]
  | deleteEntry id =>
    refine (received_isProper_iff (deleteEntry_isProper_iff hstore)).trans ?_
    simp only [LeaksAt, and_left_comm, exists_and_left]
  | listCategories =>
    exact iff_of_true (list_isProper (fun h => Access.onConnection_closed h _ _)
      (fun db _ hintact => (Option.isSome_iff_exists.mp hintact.categories).imp fun _ =>
        Access.Gives.listCategories) hstore) id
  | listVocabulary v =>
    exact iff_of_true (list_isProper (fun h => Access.onConnection_closed h _ _)
      (fun db _ hintact => (Option.isSome_iff_exists.mp (hintact.terms v)).imp fun _ =>
        Access.Gives.listVocabulary) hstore) id

/-- What a store that was reached by any operations makes the server answer: a request for one of
its endpoints gets its success or a JSON object that says what is wrong, unless it is one of those
that leak. -/
theorem serve_isProper_iff {f : Framework} (hf : f.Dispatches) (path : Path) (tree : FileTree)
    (moves : List Move) (s : Setting) (r : Request) {e : Endpoint} (he : f.find r = .ok e) :
    (serve f s r ((Session.new path tree).play moves).store).1.IsProper e.success ↔
      ¬Leaks f s r ((Session.new path tree).play moves).store e := by
  have hstore := Session.isFilled_play path tree moves
  generalize ((Session.new path tree).play moves).store = store at hstore ⊢
  rw [Leaks, not_or]
  cases hread : f.query? r with
  | none =>
    rw [serve_unreadable s hread]
    exact iff_of_false (Reply.not_isProper_unhandled _) fun h => h.1 rfl
  | some filter =>
    have hsome : (f.query? r).isSome := by rw [hread]; rfl
    obtain ⟨mark, hmark, hserve⟩ := serve_eq hf s he hsome
    rw [hserve, hmark.map_isProper_iff, answerAt_isProper_iff hstore hsome]
    simp

/-- A deletion leaks that names a number which fits into no column. -/
theorem serve_isProper_iff_wide :
    Framework.sample.Dispatches ∧
    Framework.sample.find ⟨"DELETE", "/api/texts/9223372036854775808", "", [], []⟩ =
      .ok (.deleteEntry "9223372036854775808") ∧
    ¬(serve .sample .sample ⟨"DELETE", "/api/texts/9223372036854775808", "", [], []⟩
      ((Session.new (.ofText "archive.db") ⟨[], []⟩).play [.open_]).store).1.IsProper 204 := by
  have hfind : Framework.sample.find ⟨"DELETE", "/api/texts/9223372036854775808", "", [], []⟩ =
      .ok (.deleteEntry "9223372036854775808") := by rfl
  have hread : Framework.sample.readId "9223372036854775808" = .valid 9223372036854775808 := by rfl
  have hdispatches : Framework.sample.Dispatches := Framework.standard_dispatches _ _
  refine ⟨hdispatches, hfind, fun h => ?_⟩
  have hiff := serve_isProper_iff hdispatches (.ofText "archive.db") ⟨[], []⟩ [.open_] .sample
    ⟨"DELETE", "/api/texts/9223372036854775808", "", [], []⟩ hfind
  exact hiff.mp h (.inr (.inr ⟨rfl, _, hread, by decide⟩))

/-- A lookup with a number that fits into no column gets a plain text, which says nothing of what is
wrong. -/
theorem serve_lookup_wide :
    Framework.sample.find ⟨"GET", "/api/texts/9223372036854775808", "", [], []⟩ =
      .ok (.showEntry "9223372036854775808") ∧
    (serve .sample .sample ⟨"GET", "/api/texts/9223372036854775808", "", [], []⟩
      ((Session.new (.ofText "archive.db") ⟨[], []⟩).play [.open_]).store).1 = .unhandled ∧
    (handle .sample .sample ⟨"GET", "/api/texts/9223372036854775808", "", [], []⟩
      ((Session.new (.ofText "archive.db") ⟨[], []⟩).play [.open_]).store).1 =
        ⟨500, [], .text "Internal Server Error"⟩ ∧
    ¬Response.IsProper 200 ⟨500, [], .text "Internal Server Error"⟩ := by
  refine ⟨by rfl, by rfl, by rfl, ?_⟩
  rintro (hstatus | ⟨-, _, _, hcontent, -⟩)
  · cases hstatus
  · cases hcontent

end Catalogue.Http
