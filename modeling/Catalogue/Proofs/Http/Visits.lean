import Catalogue.Proofs.Http.Shown
import Catalogue.Proofs.Http.Surface
import Catalogue.Proofs.Store.Atomic

/-! Histories of a server: its store is opened and closed, and requests that post, put and delete
are answered, whether they are accepted or not.  Such a request leaves the store as it is or makes
one write of it, whatever the framework.  So the store goes on to hold forms that can be shown, and
remembers no refusal. -/

namespace Catalogue

open Number Text

/-- A column holds the measure of the form, which is not negative. -/
def Form.IsShown (form : Form) : Prop := 0 ≤ form.type.amount ∧ FitsWord form.type.amount

/-- The connection of the store, if it has one, remembers no refusal. -/
def Store.IsCalm (store : Store) : Prop :=
  match store.state with
  | .closed _ => True
  | .connected c => c.memory.refused = none

/-! ### Writes -/

/-- On a connection that is idle a transaction leaves nothing refused, for its end is not. -/
theorem Steps.refused_transaction {α : Type} {steps : Steps α} (hsteps : KeepsStart steps)
    {c : StoreConnection} (hstart : c.start = none) (hquiet : c.outside = .quiet) :
    (connectionAfter (transaction steps c)).memory.refused = none := by
  obtain ⟨db, start, memory, outside⟩ := c
  obtain rfl : start = none := hstart
  obtain rfl : outside = .quiet := hquiet
  obtain ⟨prepared, hbegin⟩ := begin_unrefused db memory
  have hkept := hsteps.allows ⟨db, some db, ⟨prepared, none⟩, .quiet⟩
  rw [transaction, Connection.transaction, bind_of_ok hbegin]
  cases hrun : steps ⟨db, some db, ⟨prepared, none⟩, .quiet⟩ with
  | ok a done =>
    obtain ⟨contents, start, memory, outside⟩ := done
    rw [hrun] at hkept
    obtain rfl : start = some db := hkept.1
    obtain rfl : outside = .quiet := hkept.2.quiet
    rfl
  | error e failed =>
    obtain ⟨contents, start, memory, outside⟩ := failed
    rw [hrun] at hkept
    obtain rfl : start = some db := hkept.2.resolve_right fun h => h.2.2 rfl
    rfl

theorem Access.isCalm_transaction {α : Type} {fault : StorageFault} {steps : Steps α}
    (hsteps : Steps.KeepsStart steps) {store : Store} (hidle : store.IsIdle) :
    ((onConnection fault (Steps.transaction steps)).after store).IsCalm := by
  obtain ⟨path, contents | c⟩ := store
  · trivial
  · have hcalm := Steps.refused_transaction hsteps hidle.1 hidle.2
    simp only [after, onConnection]
    cases hresult : Steps.transaction steps c with
    | ok a c' =>
      rw [hresult] at hcalm
      exact hcalm
    | error e c' =>
      rw [hresult] at hcalm
      cases e <;> exact hcalm

namespace Operation

variable {w : Operation} {store : Store}

theorem IsWrite.isCalm (h : w.IsWrite) (hidle : store.IsIdle) : (w.run.after store).IsCalm := by
  obtain ⟨_, f, fault, steps, hsteps, hrun⟩ := h.eq_transaction
  rw [hrun, Access.after_map]
  exact Access.isCalm_transaction hsteps hidle

/-- A form that the operation saves is one of which `P` holds. -/
def Saves (P : Form → Prop) : Operation → Prop
  | .insert form _ | .update _ form => P form
  | _ => True

end Operation

/-- After a write of a form whose measure is not negative, the store holds forms that can be
shown. -/
theorem Ledger.Matches.write {path : Path} {l : Ledger} {s : Session}
    (h : l.Matches Form.IsShown path s) {w : Operation} (hw : w.IsWrite)
    (hsaves : w.Saves fun form => 0 ≤ form.type.amount) :
    ∃ l' : Ledger, l'.Matches Form.IsShown path (s.call w).2 := by
  have hfails {operation : Operation}
      (hfails : ∀ {db : Database} {t}, db.entries = some t → Access.Fails operation.run db) :
      ∃ l' : Ledger, l'.Matches Form.IsShown path (s.call operation).2 := by
    obtain ⟨t, -, ht, -⟩ := h.holds
    refine ⟨l, h.call_unchanged fun hshows => ?_⟩
    obtain ⟨e, store, hcall, hstore, hpath⟩ := Session.call_of_fails hshows (hfails ht)
    rw [hcall]
    exact ⟨hstore, hpath⟩
  cases w with
  | insert form today =>
    by_cases hfit : FitsWord form.type.amount
    · exact ⟨_, (h.insert ⟨hsaves, hfit⟩ today).after⟩
    · exact hfails fun ht => Operation.fails_insert ht hfit today
  | update id form =>
    by_cases hfit : FitsWord form.type.amount
    · exact ⟨_, (h.update id ⟨hsaves, hfit⟩).after⟩
    · exact hfails fun ht => Operation.fails_update ht fun hfits => hfit hfits.2
  | delete id => exact ⟨_, (h.delete id).after⟩
  | insertLoose => exact hfails Operation.fails_insertLoose
  | updateLoose id => exact hfails fun ht => Operation.fails_updateLoose ht id
  | _ => exact hw.elim

/-! ### Opening and closing -/

theorem Session.isCalm_close (store : Store) : store.close.IsCalm := by
  obtain ⟨path, contents | c⟩ := store <;> trivial

/-- A store that is opened starts without a memory. -/
theorem Session.calm_of_open {s : Session} {contents : Database}
    (h : s.store.state = .closed contents) : (s.step .open_).2.store.IsCalm := by
  have hclosed : s.store.IsCalm := by rw [Store.IsCalm, h]; trivial
  simp only [step, opening, Store.open_, h]
  split
  · next hopen =>
    split at hopen <;> cases hopen <;> rfl
  · exact hclosed

/-! ### Requests -/

namespace Http

variable {f : Framework} {s : Setting} {r : Request} {store : Store}

/-- The request asks for a change. -/
def Request.IsEdit (r : Request) : Prop := r.method ∈ ["POST", "PUT", "DELETE"]

/-- The store is left as it is, or one write is made of it that saves no negative measure. -/
def Writes (store after : Store) : Prop :=
  after = store ∨ ∃ w : Operation, w.IsWrite ∧ (w.Saves fun form => 0 ≤ form.type.amount) ∧
    after = w.run.after store

theorem reply_store {α : Type} (operation : Access α) (answer : α → Reply) (store : Store) :
    (reply operation answer store).2 = operation.after store := by
  unfold reply Access.after
  cases operation store with
  | ok a after => rfl
  | error e after => cases e <;> rfl

/-- Where the answer to every value that can be received writes, so does the answer to the data. -/
theorem writes_received {α : Type} {data : Received α} {answer : α → Store → Reply × Store}
    (h : ∀ a, data = .valid a → Writes store (answer a store).2) :
    Writes store (received data answer store).2 := by
  cases data with
  | valid a => exact h a rfl
  | _ => exact .inl rfl

theorem writes_createEntry {draft : Draft} (h : 0 ≤ draft.measures.type.amount) :
    Writes store (createEntry s draft store).2 := by
  unfold createEntry
  rw [reply_store]
  cases hform : draft.form? with
  | none => exact .inr ⟨.insertLoose, trivial, trivial, (Access.after_map _ _ _).symm⟩
  | some form =>
    rw [← type_of_form? hform] at h
    exact .inr ⟨.insert form s.today, trivial, h, (Access.after_map _ _ _).symm⟩

theorem writes_replaceEntry (id : Int) {draft : Draft} (h : 0 ≤ draft.measures.type.amount) :
    Writes store (replaceEntry id draft store).2 := by
  unfold replaceEntry
  rw [reply_store]
  cases hform : draft.form? with
  | none => exact .inr ⟨.updateLoose id, trivial, trivial, (Access.after_map _ _ _).symm⟩
  | some form =>
    rw [← type_of_form? hform] at h
    exact .inr ⟨.update id form, trivial, h, (Access.after_map _ _ _).symm⟩

theorem writes_deleteEntry (id : Int) : Writes store (deleteEntry id store).2 := by
  rw [deleteEntry, reply_store]
  exact .inr ⟨.delete id, trivial, trivial, (Access.after_map _ _ _).symm⟩

/-- An endpoint for changes makes at most one write. -/
theorem writes_answerAt (hf : f.Validates) {e : Endpoint} (h : e.method ∈ ["POST", "PUT", "DELETE"])
    (store : Store) : Writes store (answerAt f s r e store).2 := by
  cases e with
  | createEntry =>
    exact writes_received fun draft hdraft => writes_createEntry (hf.natural hdraft).type
  | replaceEntry id =>
    refine writes_received fun p hp => writes_replaceEntry p.1 ?_
    exact (hf.natural (hf.both.mp hp).2).type
  | deleteEntry id => exact writes_received fun n _ => writes_deleteEntry n
  | _ => exact absurd h (by simp [Endpoint.method])

/-- What a store becomes does not depend on the rules for other origins, unless a browser asks. -/
theorem handle_store (hf : f.Dispatches) (s : Setting) (h : r.method ≠ "OPTIONS") (store : Store) :
    (handle f s r store).2 = (answer f s r store).2 := by
  obtain ⟨mark, -, horigin⟩ := answerOrigin_eq hf s h
  rw [handle, serve, horigin]

/-- A request that asks for a change makes at most one write. -/
theorem writes_handle (hf : f.Dispatches) (hdata : f.Validates) (s : Setting) (h : r.IsEdit)
    (store : Store) : Writes store (handle f s r store).2 := by
  have hmethod : r.method ≠ "OPTIONS" := by
    intro he
    rw [Request.IsEdit, he] at h
    exact absurd h (by decide)
  rw [handle_store hf s hmethod, answer]
  cases hfind : f.find r with
  | ok e =>
    rw [Request.IsEdit, hf.method hfind] at h
    exact writes_answerAt hdata h store
  | error response => exact .inl rfl

end Http

/-! ### Histories -/

/-- What happens to a server: its store is opened or closed, or a request is answered. -/
inductive Visit where
  | open_
  | close
  | ask (setting : Http.Setting) (r : Http.Request)

/-- A request is one for a change. -/
def Visit.IsEdit : Visit → Prop
  | .open_ | .close => True
  | .ask _ r => r.IsEdit

namespace Session

/-- The session of a server on a framework after a visit. -/
def visit (f : Http.Framework) (s : Session) : Visit → Session
  | .open_ => (s.step .open_).2
  | .close => (s.step .close).2
  | .ask setting r => { s with store := (Http.handle f setting r s.store).2 }

/-- The session after some visits. -/
def host (f : Http.Framework) (s : Session) (visits : List Visit) : Session :=
  visits.foldl (visit f) s

/-- The store holds forms that can be shown, and remembers no refusal. -/
structure IsServed (path : Path) (s : Session) : Prop where
  holds : ∃ l : Ledger, l.Matches Form.IsShown path s
  calm : s.store.IsCalm

variable {f : Http.Framework} {path : Path} {s : Session}

theorem IsServed.visit (hf : f.Dispatches) (hdata : f.Validates) (h : s.IsServed path) {v : Visit}
    (hv : v.IsEdit) : (s.visit f v).IsServed path := by
  obtain ⟨⟨l, hl⟩, hcalm⟩ := h
  cases v with
  | open_ =>
    refine ⟨⟨_, hl.open_.after⟩, ?_⟩
    cases hstate : s.store.state with
    | connected c =>
      rw [Session.visit, open_again (by rw [Store.isOpen, hstate])]
      exact hcalm
    | closed contents => exact calm_of_open hstate
  | close => exact ⟨⟨_, hl.close.after⟩, isCalm_close s.store⟩
  | ask setting r =>
    obtain hsame | ⟨w, hw, hsaves, hafter⟩ := Http.writes_handle hf hdata setting hv s.store
    · rw [Session.visit, hsame]
      exact ⟨⟨l, hl⟩, hcalm⟩
    · have hwrite := hl.write hw hsaves
      rw [call_eq_after] at hwrite
      rw [Session.visit, hafter]
      exact ⟨hwrite, hw.isCalm hl.idle⟩

theorem isServed_host (hf : f.Dispatches) (hdata : f.Validates) (path : Path) (tree : FileTree)
    {visits : List Visit} (h : ∀ v ∈ visits, v.IsEdit) :
    ((new path tree).host f visits).IsServed path := by
  have hrun (s : Session) (hs : s.IsServed path) : (s.host f visits).IsServed path := by
    induction visits generalizing s with
    | nil => exact hs
    | cons v visits ih =>
      have hothers : ∀ other ∈ visits, other.IsEdit :=
        fun other hother => h other (by simp [hother])
      exact ih hothers _ (hs.visit hf hdata (h v (by simp)))
  exact hrun _ ⟨⟨_, Ledger.new_matches _ path tree⟩, trivial⟩

end Session

end Catalogue
