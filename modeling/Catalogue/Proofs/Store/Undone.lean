import Catalogue.Proofs.Store.Lasting

/-! Writes that fail, on every store that a run leaves.  Tables may be missing, and the outside may
fail each statement, the begin of the transaction included: nothing is left of the write.  The same
holds where the commit is refused and rolled back.  A commit that is refused and leaves its
transaction open is the exception: what was written stays in sight, and the next write takes it
back. -/

namespace Catalogue

open Number

/-- The store, with what the outside holds against its statements from now on. -/
def Store.meet (store : Store) (outside : Outside) : Store :=
  match store.state with
  | .closed _ => store
  | .connected c => { store with state := .connected { c with outside := outside } }

/-- A change of the store, or one of the outside. -/
inductive Happening where
  | change (c : Change)
  | meet (outside : Outside)

/-- A commit that the outside refuses is rolled back. -/
def Happening.RollsBack : Happening → Prop
  | .change _ => True
  | .meet outside => ∀ i, some i ∈ outside.commits → i.rollsBack

namespace Session

variable {s : Session}

/-- The session after something happened. -/
def happen (s : Session) : Happening → Session
  | .change c => s.change c
  | .meet outside => { s with store := s.store.meet outside }

/-- The session after some happenings. -/
def live (s : Session) (happenings : List Happening) : Session := happenings.foldl happen s

theorem isSettled_open (h : s.store.IsSettled) : (s.step .open_).2.store.IsSettled := by
  obtain ⟨⟨named, contents | c⟩, tree⟩ := s
  · simp only [step, opening, Store.open_]
    cases Disk.openDatabase true named tree with
    | error e tree => trivial
    | ok result tree =>
      rcases result with e | _ | _
      · trivial
      · exact ⟨rfl, fun i hi => by cases hi⟩
      · exact ⟨rfl, fun i hi => by cases hi⟩
  · exact h

theorem isSettled_editing {α : Type} {steps : Steps α} (hstart : Steps.KeepsStart steps)
    {store : Store} (h : store.IsSettled) : (Access.editing steps store).2.IsSettled := by
  obtain ⟨path, contents | c⟩ := store
  · trivial
  · rw [Access.editing_connected]
    obtain ⟨hnone, hleaves⟩ := (hstart.settling.allows c).taken_after fun h => h
    exact ⟨hnone h, fun i hi => h.2 i (hleaves.2.subset hi)⟩

theorem isSettled_happen (h : s.store.IsSettled) {happening : Happening}
    (hrolls : happening.RollsBack) : (s.happen happening).store.IsSettled := by
  cases happening with
  | meet outside =>
    have hall : ∀ i, some i ∈ outside.commits → i.rollsBack := hrolls
    obtain ⟨⟨named, contents | c⟩, tree⟩ := s
    · trivial
    · exact ⟨h.1, hall⟩
  | change c =>
    cases c with
    | set id column value => exact isSettled_editing (.setColumn id column value) h
    | drop table => exact isSettled_editing (.drop table) h
    | move m =>
      cases m with
      | open_ => exact isSettled_open h
      | close =>
        obtain ⟨⟨named, contents | c⟩, tree⟩ := s <;> trivial
      | call operation =>
        change (s.call operation).2.store.IsSettled
        rw [call_eq_after]
        exact operation.isSettled_after h

/-- No run leaves a transaction open in which a refused commit is rolled back. -/
theorem isSettled_live (h : s.store.IsSettled) {happenings : List Happening}
    (hrolls : ∀ happening ∈ happenings, happening.RollsBack) :
    (s.live happenings).store.IsSettled := by
  induction happenings generalizing s with
  | nil => exact h
  | cons happening happenings ih =>
    obtain ⟨hfirst, hrest⟩ := List.forall_mem_cons.mp hrolls
    exact ih (isSettled_happen h hfirst) hrest

end Session

namespace Store

theorem IsSettled.shows_meet {store : Store} (h : store.IsSettled) (hopen : store.isOpen) :
    (store.meet .quiet).Shows store.database := by
  obtain ⟨path, contents | ⟨contents, start, memory, outside⟩⟩ := store
  · cases hopen
  · obtain rfl : start = none := h.1
    exact ⟨memory, rfl⟩

end Store

namespace Operation

end Operation

/-! ### Commits that are refused -/

namespace Steps

variable {α : Type} {steps : Steps α} {c : StoreConnection}

/-- A transaction whose steps end well, and whose commit is refused and not rolled back, fails.
What its steps did stays in sight, in the transaction that is left open. -/
theorem transaction_of_refused_commit {begun done : StoreConnection} {a : α} {db : Database}
    {i : Interruption Refusal} (hbegin : begin_ c = .ok () begun)
    (hsteps : steps begun = .ok a done) (hstart : done.start = some db)
    (hnext : done.outside.commits.head?.join = some i) (hstays : i.rollsBack = false) :
    ∃ c', transaction steps c = .error (.refused i.fault) c' ∧ c'.contents = done.contents ∧
      c'.start = some db := by
  have hrun : (do begin_; steps : Steps α) c = .ok a done := (bind_of_ok hbegin _).trans hsteps
  obtain ⟨contents, start, memory, ⟨statements, commits⟩⟩ := done
  obtain rfl : start = some db := hstart
  obtain ⟨fault, rollsBack⟩ := i
  obtain rfl : rollsBack = false := hstays
  obtain ⟨c', hcommit, hcontents, hopen⟩ : ∃ c',
      commit ⟨contents, some db, memory, ⟨statements, commits⟩⟩ = .error (.refused fault) c' ∧
        c'.contents = contents ∧ c'.start = some db := by
    cases commits with
    | nil => cases hnext
    | cons next rest =>
      obtain rfl : next = some ⟨fault, false⟩ := by simpa using hnext
      exact ⟨_, rfl, rfl, rfl⟩
  refine ⟨c', ?_, hcontents, hopen⟩
  rw [transaction, Connection.transaction, hrun]
  exact bind_of_error hcommit _

/-- A transaction inside an open one fails, and takes that one back. -/
theorem transaction_of_open {db : Database} (h : c.start = some db) :
    ∃ refusal c', transaction steps c = .error (.refused refusal) c' ∧ c'.contents = db ∧
      c'.start = none := by
  obtain ⟨memory, outside, -, ⟨hidle, -⟩ | ⟨refusal, hbegin⟩⟩ := begin_cases c
  · rw [h] at hidle
    cases hidle
  · obtain ⟨hcontents, hstart, -⟩ := takeBack_eq ⟨c.contents, c.start, memory, outside⟩
    refine ⟨refusal, _, ?_, hcontents.trans ?_, hstart⟩
    · rw [transaction, Connection.transaction, bind_of_error hbegin]
      rfl
    · rw [Connection.settled, h, Option.getD_some]

end Steps

namespace Operation

/-- A write that finds a transaction open, which a refused commit has left, fails and takes back
what was written in it. -/
theorem IsWrite.fails_of_open {w : Operation} (hw : w.IsWrite) (path : Path) {c : StoreConnection}
    {db : Database} (h : c.start = some db) : ∃ fault after,
      w.run ⟨path, .connected c⟩ = .error (.storage fault) after ∧ after.database = db := by
  obtain ⟨_, f, fault, steps, -, hrun⟩ := hw.eq_transaction
  obtain ⟨refusal, c', hfails, hcontents, -⟩ : ∃ refusal c',
      Steps.transaction steps c = .error (.refused refusal) c' ∧ c'.contents = db ∧
        c'.start = none := Steps.transaction_of_open h
  have hstore : Access.onConnection fault (Steps.transaction steps) ⟨path, .connected c⟩ =
      .error (.storage fault) ⟨path, .connected c'⟩ := by
    simp only [Access.onConnection]
    rw [hfails]
  rw [hrun]
  exact ⟨fault, _, map_of_error hstore f, hcontents⟩

-- The entry of an insertion whose commit is refused is in sight until the next write.
example :
    let store := ((⟨⟨.ofText "archive.db", .closed .blank⟩, ⟨[], []⟩⟩ : Session).live
      [.change (.move .open_), .meet ⟨[], [some ⟨.locked, false⟩]⟩]).store
    let once := (insert .sample .first).run.after store
    let twice := (insert .sample .first).run.after once
    [store, once, twice].map (·.database.entryTable.rows.length) = [0, 1, 0] := by decide +kernel

end Operation

end Catalogue
