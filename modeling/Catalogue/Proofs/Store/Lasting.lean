import Catalogue.Proofs.Store.Moves
import Catalogue.Store.Edit

/-! Properties of the table of entries that last.  One that is kept when a row is inserted, changed
or deleted holds after every run of a session in which it held before: what fails leaves the table
as it was or is taken back with its transaction, and opening brings back what was closed.  Of a
direct edit of the tables it is asked that it keeps the property by itself. -/

namespace Catalogue

open Number

/-- The table of entries, which is empty where it is missing. -/
def Database.entryTable (db : Database) : EntryTable := db.entries.getD .empty

namespace Database

variable {db : Database}

theorem entryTable_of_entries {t : EntryTable} (h : db.entries = some t) : db.entryTable = t := by
  rw [entryTable, h, Option.getD_some]

theorem entryTable_congr {other : Database} (h : db.entries = other.entries) :
    db.entryTable = other.entryTable := by rw [entryTable, h, entryTable]

end Database

/-- `P` is kept when a row is inserted under a new number, changed under its own, or deleted. -/
structure EntryTable.Lasts (P : EntryTable → Prop) : Prop where
  insert {t : EntryTable} {row : Row} : P t → t.newId? = some row.id → P (t.insert row)
  modify {t : EntryTable} {id : Int} {change : Row → Row} :
    P t → (∀ row, row.id = id → (change row).id = id) → P (t.modify id change)
  erase {t : EntryTable} (id : Int) : P t → P (t.erase id)

/-! ### Steps -/

/-- `P` holds of what the connection shows, and of what an open transaction would go back to. -/
def Connection.Everywhere (P : Database → Prop) (c : StoreConnection) : Prop :=
  P c.contents ∧ ∀ db ∈ c.start, P db

namespace Steps

variable {α β : Type} {P : Database → Prop} {Q : α → Prop} {R : β → Prop}

/-- The steps keep `P`, whether they fail or not. -/
def Frame.everywhere (P : Database → Prop) : Frame where
  taken c c' := c.Everywhere P → c'.Everywhere P
  failed c c' := c.Everywhere P → c'.Everywhere P
  remembers _ _ h := h
  failed_of_taken h := h
  trans h h' hc := h' (h hc)
  trans_failed h h' hc := h' (h hc)
  passes _ _ h := h
  interrupts c i _ _ h := by
    obtain ⟨fault, _ | _⟩ := i
    · exact h
    · -- A failure may roll back to the contents at the start of the transaction.
      obtain ⟨contents, start, memory, outside⟩ := c
      cases start with
      | none => exact ⟨h.1, fun _ hdb => by cases hdb⟩
      | some db => exact ⟨h.2 db rfl, fun _ hdb => by cases hdb⟩

/-- The steps keep `P`, whether they fail or not, and `Q` holds of what they give. -/
structure Maintains (P : Database → Prop) (steps : Steps α) (Q : α → Prop) : Prop where
  keeps (c : StoreConnection) : (Frame.everywhere P).Allows c (steps c)
  gives {c c' : StoreConnection} {a : α} : c.Everywhere P → steps c = .ok a c' → Q a

theorem Maintains.of_keeps {steps : Steps α} (h : Keeps (.everywhere P) steps) :
    Maintains P steps fun _ => True := ⟨h.allows, fun _ _ => trivial⟩

theorem Maintains.pure {a : α} (h : Q a) : Maintains P (Pure.pure a) Q :=
  ⟨(Keeps.pure a).allows, fun _ hb => by cases hb; exact h⟩

theorem Maintains.get : Maintains P MonadState.get fun c => P c.contents :=
  ⟨Keeps.get.allows, fun hc hb => by cases hb; exact hc.1⟩

theorem Maintains.setDatabase {db : Database} (h : P db) :
    Maintains P (setDatabase db) fun _ => True := ⟨fun _ hc => ⟨h, hc.2⟩, fun _ _ => trivial⟩

theorem Maintains.bind {x : Steps α} {f : α → Steps β} (hx : Maintains P x Q)
    (hf : ∀ a, Q a → Maintains P (f a) R) : Maintains P (x >>= f) R where
  keeps c := by
    have hfirst := hx.keeps c
    cases h : x c with
    | error e c' =>
      rw [h] at hfirst
      rw [bind_of_error h f]
      exact hfirst
    | ok a mid =>
      rw [h] at hfirst
      rw [bind_of_ok h f]
      cases hsecond : f a mid with
      | ok b c' =>
        intro hc
        have hkept := (hf a (hx.gives hc h)).keeps mid
        rw [hsecond] at hkept
        exact hkept (hfirst hc)
      | error e c' =>
        intro hc
        have hkept := (hf a (hx.gives hc h)).keeps mid
        rw [hsecond] at hkept
        exact hkept (hfirst hc)
  gives := by
    intro c c' b hc h
    obtain ⟨a, mid, hmid, h⟩ := exists_of_bind_ok h
    have hfirst := hx.keeps c
    rw [hmid] at hfirst
    exact (hf a (hx.gives hc hmid)).gives (hfirst hc) h

theorem Maintains.run (name : String) (table : Database → Option α) :
    Maintains P (run name table) fun a => ∃ db, P db ∧ table db = some a := by
  refine .bind (.of_keeps .meet) fun _ _ => .bind .get fun c hc => ?_
  split
  · exact ⟨(Keeps.refuse _).allows, fun _ h => by cases h⟩
  · next a ha => exact .bind (.of_keeps .accept) fun _ _ => .pure ⟨_, hc, ha⟩

theorem Maintains.forM {items : List β} {f : β → Steps PUnit}
    (h : ∀ item, Maintains P (f item) fun _ => True) :
    Maintains P (items.forM f) fun _ => True := by
  induction items with
  | nil => exact .pure trivial
  | cons item items ih => exact .bind (h item) fun _ _ => ih

theorem Keeps.begin_ : Keeps (.everywhere P) begin_ := by
  refine ⟨fun c => ?_⟩
  obtain ⟨memory, outside, -, ⟨-, hbegin⟩ | ⟨refusal, hbegin⟩⟩ := begin_cases c
  · rw [hbegin]
    exact fun hc => ⟨hc.1, fun _ hdb => Option.mem_some.mp hdb ▸ hc.1⟩
  · rw [hbegin]
    exact fun hc => hc

theorem Keeps.commit : Keeps (.everywhere P) commit := by
  refine ⟨fun c => ?_⟩
  obtain ⟨memory, outside, -, hcommit | ⟨⟨fault, rollsBack⟩, -, hcommit⟩⟩ := commit_cases c
  · rw [hcommit]
    exact fun hc => ⟨hc.1, fun _ hdb => by cases hdb⟩
  · rw [hcommit]
    intro hc
    cases rollsBack with
    | false => exact hc
    | true =>
      obtain ⟨contents, _ | db, before, beyond⟩ := c
      · exact ⟨hc.1, fun _ hdb => by cases hdb⟩
      · exact ⟨hc.2 db rfl, fun _ hdb => by cases hdb⟩

/-- A transaction keeps what its steps keep: its contents are those of the steps, or those at its
start. -/
theorem Keeps.transaction {steps : Steps α} (h : Maintains P steps fun _ => True) :
    Keeps (.everywhere P) (transaction steps) := by
  refine ⟨fun c => ?_⟩
  have hbegun : Maintains P (do Steps.begin_; steps) fun _ => True :=
    .bind (.of_keeps .begin_) fun _ _ => h
  have hsteps := hbegun.keeps c
  rw [Steps.transaction, Connection.transaction]
  cases hrun : (do Steps.begin_; steps) c with
  | ok a done =>
    rw [hrun] at hsteps
    have hcommit : Keeps (.everywhere P) (do Steps.commit; return a : Steps α) :=
      .bind .commit fun _ => .pure a
    have hlast := hcommit.allows done
    change (Frame.everywhere P).Allows c ((do Steps.commit; return a : Steps α) done)
    cases hend : (do Steps.commit; return a : Steps α) done with
    | ok b c' =>
      rw [hend] at hlast
      exact fun hc => hlast (hsteps hc)
    | error e c' =>
      rw [hend] at hlast
      exact fun hc => hlast (hsteps hc)
  | error e failed =>
    rw [hrun] at hsteps
    intro hc
    obtain ⟨hcontents, hstart, -⟩ := takeBack_eq failed
    obtain ⟨hnow, hbefore⟩ := hsteps hc
    refine ⟨?_, fun db hdb => ?_⟩
    · rw [hcontents, Connection.settled]
      cases hfailed : failed.start with
      | none => exact hnow
      | some db => exact hbefore db hfailed
    · rw [hstart] at hdb
      cases hdb

/-! ### Statements -/

section Table

variable {P : EntryTable → Prop}

/-- The steps keep what holds of the table. -/
abbrev KeepsTable (P : EntryTable → Prop) (steps : Steps α) : Prop :=
  Maintains (fun db => P db.entryTable) steps fun _ => True

/-- Where the steps succeed, they leave the table of entries alone. -/
abbrev KeepsEntries (steps : Steps α) : Prop := Keeps (.viewing fun db _ => db.entries) steps

theorem KeepsEntries.recordVocabulary (form : Form) : KeepsEntries (recordVocabulary form) := by
  refine Keeps.recordVocabulary (fun _ _ hentries => ?_) form
  exact ⟨hentries, .refl _⟩

theorem Maintains.recordVocabulary (form : Form) : KeepsTable P (recordVocabulary form) := by
  refine .of_keeps (Keeps.recordVocabulary (fun c db hentries hc => ⟨?_, hc.2⟩) form)
  change P db.entryTable
  rw [Database.entryTable_congr hentries]
  exact hc.1

theorem maintains_runOnEntries : Maintains (fun db => P db.entryTable) runOnEntries P := by
  have hrun := Maintains.run (P := fun db => P db.entryTable) entriesName (·.entries)
  refine ⟨hrun.keeps, fun hc ht => ?_⟩
  obtain ⟨db, hdb, htable⟩ := hrun.gives hc ht
  rw [Database.entryTable_of_entries htable] at hdb
  exact hdb

theorem Maintains.setEntries {t : EntryTable} (ht : P t) (a : α) :
    KeepsTable P (do
      Steps.setDatabase { (← MonadState.get).contents with entries := some t }
      Pure.pure a) :=
  .bind .get fun _ _ => .bind (.setDatabase ht) fun _ _ => .pure trivial

theorem Maintains.insertEntry (hP : EntryTable.Lasts P) (form : Form) (today : Date) :
    KeepsTable P (insertEntry form today) := by
  refine .bind (.of_keeps (.prepare _ _)) fun _ _ => .bind (.of_keeps .accept) fun _ _ =>
    .bind (.of_keeps (.bindInteger _)) fun _ _ => .bind maintains_runOnEntries fun t ht => ?_
  split
  · exact .of_keeps (.refuse _)
  · next id hid => exact .setEntries (hP.insert ht hid) id

theorem Maintains.updateEntry (hP : EntryTable.Lasts P) (id : Int) (form : Form) :
    KeepsTable P (updateEntry id form) := by
  refine .bind (.of_keeps (.prepare _ _)) fun _ _ => .bind (.of_keeps .accept) fun _ _ =>
    .bind (.of_keeps (.bindInteger _)) fun _ _ => .bind (.of_keeps (.bindInteger _))
      fun _ _ => .bind maintains_runOnEntries fun t ht => ?_
  have hmodify : P (t.modify id fun row => .ofForm id form row.saved) := hP.modify ht fun _ _ => rfl
  exact .setEntries hmodify _

theorem Maintains.deleteEntry (hP : EntryTable.Lasts P) (id : Int) :
    KeepsTable P (deleteEntry id) :=
  .bind (.of_keeps (.prepare _ _)) fun _ _ => .bind (.of_keeps (.bindInteger _)) fun _ _ =>
    .bind maintains_runOnEntries fun _ ht => .setEntries (hP.erase id ht) _

theorem Maintains.setColumn {id : Int} {column : String} {value : Json}
    (hset : ∀ t cell t', P t →
      t.setColumn id ((Column.ofName? column).getD .id) cell = .ok t' → P t') :
    KeepsTable P (setColumn id column value) := by
  refine .bind (.of_keeps (.prepare _ _)) fun _ _ => .bind (.of_keeps (.bindFitting _))
    fun cell _ => .bind (.of_keeps (.bindInteger _)) fun _ _ =>
      .bind maintains_runOnEntries fun t ht => ?_
  split
  · exact .pure trivial
  · split
    · exact .of_keeps (.refuse _)
    · next t' ht' => exact .setEntries (hset t cell t' ht ht') 1

theorem Maintains.drop {name : String} (hdrop : name.toLower = entriesName → P .empty) :
    KeepsTable P (drop name) := by
  refine .bind (.of_keeps (.prepare _ _)) fun _ _ => .bind (.run _ _) fun _ _ =>
    .bind .get fun c hc => .setDatabase ?_
  split
  · next v _ =>
    rw [Database.entryTable_congr (c.contents.entries_setTerms v none)]
    exact hc
  · split
    · next hname => exact hdrop hname
    · exact hc

end Table

theorem Keeps.setColumn (id : Int) (column : String) (value : Json) :
    KeepsStart (setColumn id column value) := by
  refine .bind (.prepare _ _) fun _ => .bind (.bindFitting _) fun _ => .bind (.bindInteger _)
    fun _ => .bind (.run _ _) fun t => ?_
  split
  · exact .pure _
  · split
    · exact .refuse _
    · exact .bind .get fun _ => .bind (.setDatabase _) fun _ => .pure _

theorem Keeps.drop (name : String) : KeepsStart (drop name) :=
  .bind (.prepare _ _) fun _ => .bind (.run _ _) fun _ => .bind .get fun _ => .setDatabase _

end Steps

/-! ### Sessions -/

/-- Every operation keeps what lasts of the table. -/
theorem Operation.everywhere {P : EntryTable → Prop} (hP : EntryTable.Lasts P)
    (operation : Operation) :
    Access.Keeps (.everywhere fun db => P db.entryTable) operation.run := by
  by_cases hwrite : operation.IsWrite
  · cases operation with
    | insert form today =>
      exact .map _ (.onConnection _ (.transaction (.bind (.insertEntry hP form today) fun _ _ =>
        .bind (.recordVocabulary form) fun _ _ => .pure trivial)))
    | update id form =>
      refine .map _ (.onConnection _
        (.transaction (.bind (.updateEntry hP id form) fun found _ => ?_)))
      split
      · exact .bind (.recordVocabulary form) fun _ _ => .pure trivial
      · exact .pure trivial
    | delete id => exact .map _ (.onConnection _ (.transaction (.deleteEntry hP id)))
    | insertLoose | updateLoose =>
      exact .map _ (.onConnection _ (.transaction
        (.bind (.of_keeps (.prepare _ _)) fun _ _ => .of_keeps (.failToBind _))))
    | _ => exact hwrite.elim
  · exact keeps hwrite _

namespace Access

variable {α : Type}

theorem editing_connected (steps : Steps α) (path : Path) (c : StoreConnection) :
    (editing steps ⟨path, .connected c⟩).2 =
      ⟨path, .connected (Steps.connectionAfter (steps c))⟩ := by
  simp only [editing]
  cases steps c <;> rfl

end Access

/-- A move, or a direct edit of a table. -/
inductive Change where
  | move (m : Move)
  | set (id : Int) (column : String) (value : Json)
  | drop (table : String)

/-- What a direct edit is asked to keep; moves keep what lasts. -/
def Change.Keeps (P : EntryTable → Prop) : Change → Prop
  | .move _ => True
  | .set id column _ => ∀ t cell t', P t →
      t.setColumn id ((Column.ofName? column).getD .id) cell = .ok t' → P t'
  | .drop table => table.toLower = Steps.entriesName → P .empty

/-- The store of the session is at `path`, no transaction is open on it, and `P` holds of its table
of entries. -/
structure Session.Carries (P : EntryTable → Prop) (path : Path) (s : Session) : Prop where
  named : s.store.path = path
  idle : s.store.IsIdle
  table : P s.store.database.entryTable

namespace Session

variable {P : EntryTable → Prop} {path : Path} {s : Session}

/-- The session after a change. -/
def change (s : Session) : Change → Session
  | .move m => (s.move m).2
  | .set id column value =>
    { s with store := (Access.editing (Steps.setColumn id column value) s.store).2 }
  | .drop table => { s with store := (Access.editing (Steps.drop table) s.store).2 }

/-- The session after some changes. -/
def alter (s : Session) (changes : List Change) : Session := changes.foldl change s

theorem Carries.open_ (h : s.Carries P path) (hpath : path.isInMemory = false ∨ P .empty) :
    (s.step .open_).2.Carries P path := by
  obtain ⟨⟨named, contents | c⟩, tree⟩ := s
  · obtain ⟨hnamed, -, htable⟩ := h
    obtain rfl : named = path := hnamed
    simp only [step, opening, Store.open_]
    cases hdisk : Disk.openDatabase true named tree with
    | error e tree => exact ⟨rfl, trivial, htable⟩
    | ok result tree =>
      cases result with
      | error e => exact ⟨rfl, trivial, htable⟩
      | ok residence =>
        cases residence with
        | file => exact ⟨rfl, ⟨rfl, rfl⟩, htable⟩
        | memory =>
          have hmemory : named.isInMemory = true := by
            simpa using Disk.residence_eq hdisk
          exact ⟨rfl, ⟨rfl, rfl⟩, hpath.resolve_left (by simp [hmemory])⟩
  · exact h

theorem Carries.close (h : s.Carries P path) : (s.step .close).2.Carries P path := by
  obtain ⟨⟨_, contents | c⟩, tree⟩ := s
  · exact h
  · have hidle : c.start = none := h.idle.1
    have hsettled : c.settled = c.contents := by rw [Connection.settled, hidle, Option.getD_none]
    refine ⟨h.named, trivial, ?_⟩
    change P c.settled.entryTable
    rw [hsettled]
    exact h.table

theorem Carries.call (h : s.Carries P path) (hP : EntryTable.Lasts P) (operation : Operation) :
    (s.call operation).2.Carries P path := by
  have hidle := operation.isIdle_after h.idle
  obtain ⟨⟨named, contents | c⟩, tree⟩ := s
  · rw [call_closed rfl]
    exact h
  · -- What the connection shows and what its transaction would go back to are both kept.
    obtain ⟨answer, c', hrun, hkept⟩ := operation.everywhere hP named c
    have hafter : operation.run.after ⟨named, .connected c⟩ = ⟨named, .connected c'⟩ := by
      rw [Access.after, hrun]
      cases answer <;> rfl
    rw [hafter] at hidle
    rw [call_eq_after]
    dsimp only
    rw [hafter]
    have hstart : c.start = none := h.idle.1
    have hbefore : c.Everywhere fun db => P db.entryTable :=
      ⟨h.table, fun db hdb => by rw [hstart] at hdb; cases hdb⟩
    have hlater : c'.Everywhere fun db => P db.entryTable := by
      cases answer <;> exact hkept hbefore
    exact ⟨h.named, hidle, hlater.1⟩

theorem Carries.editing {α : Type} {steps : Steps α} (h : s.Carries P path)
    (hstart : Steps.KeepsStart steps) (htable : Steps.KeepsTable P steps) :
    Carries P path { s with store := (Access.editing steps s.store).2 } := by
  obtain ⟨⟨_, contents | c⟩, tree⟩ := s
  · exact h
  · rw [Access.editing_connected]
    obtain ⟨hidle, houtside⟩ : c.start = none ∧ c.outside = .quiet := h.idle
    have hsettled : c.IsSettled := (show Store.IsIdle ⟨path, .connected c⟩ from h.idle).isSettled
    have hbefore : c.Everywhere fun db => P db.entryTable := ⟨h.table, by simp [hidle]⟩
    have hafter := (htable.keeps c).taken_after (fun h => h) hbefore
    have hkept := (hstart.settling.allows c).taken_after fun h => h
    have hquiet := hkept.2
    rw [houtside] at hquiet
    exact ⟨h.named, ⟨hkept.1 hsettled, hquiet.quiet⟩, hafter.1⟩

theorem Carries.change (h : s.Carries P path) (hP : EntryTable.Lasts P)
    (hpath : path.isInMemory = false ∨ P .empty) {change : Change} (hchange : change.Keeps P) :
    (s.change change).Carries P path := by
  cases change with
  | move m =>
    cases m with
    | open_ => exact h.open_ hpath
    | close => exact h.close
    | call operation => exact h.call hP operation
  | set id column value => exact h.editing (.setColumn id column value) (.setColumn hchange)
  | drop table => exact h.editing (.drop table) (.drop hchange)

theorem Carries.alter (h : s.Carries P path) (hP : EntryTable.Lasts P)
    (hpath : path.isInMemory = false ∨ P .empty) {changes : List Change}
    (hchanges : ∀ change ∈ changes, change.Keeps P) : (s.alter changes).Carries P path := by
  induction changes generalizing s with
  | nil => exact h
  | cons change changes ih =>
    obtain ⟨hchange, hchanges⟩ := List.forall_mem_cons.mp hchanges
    exact ih (h.change hP hpath hchange) hchanges

end Session

end Catalogue
