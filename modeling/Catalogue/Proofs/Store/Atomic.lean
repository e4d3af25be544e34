import Catalogue.Proofs.Store.Framing

/-! Failed writes.  A write that fails, at whichever of its statements, leaves the database as it
was, the next number for an entry included, and no transaction open; what comes after it goes on as
if it had not been tried. -/

namespace Catalogue

open Number

theorem Access.onConnection_error {α : Type} {fault : StorageFault} {steps : Steps α}
    {store after : Store} {e : StoreFault} (h : onConnection fault steps store = .error e after) :
    store = after ∧ store.isOpen = false ∨ ∃ c c' e', store.state = .connected c ∧
      steps c = .error e' c' ∧ after = { store with state := .connected c' } := by
  unfold onConnection at h
  split at h
  · next hstate =>
    cases h
    exact Or.inl ⟨rfl, by rw [Store.isOpen, hstate]⟩
  · next c hstate =>
    refine Or.inr ⟨c, ?_⟩
    split at h
    · cases h
    · next _ c' hsteps =>
      cases h
      exact ⟨c', _, hstate, hsteps, rfl⟩
    · next _ c' hsteps =>
      cases h
      exact ⟨c', _, hstate, hsteps, rfl⟩

namespace Store

/-- No transaction is open on the store, and no commit that is refused will leave one open. -/
def IsSettled (store : Store) : Prop :=
  match store.state with
  | .closed _ => True
  | .connected c => c.IsSettled

theorem IsIdle.isSettled {store : Store} (h : store.IsIdle) : store.IsSettled := by
  obtain ⟨path, contents | c⟩ := store
  · trivial
  · obtain ⟨hstart, houtside⟩ : c.start = none ∧ c.outside = .quiet := h
    refine ⟨hstart, fun i hi => ?_⟩
    rw [houtside] at hi
    cases hi

/-- Settled stores that hold the same when closed show the same. -/
theorem IsSettled.database_eq {store after : Store} (h : store.IsSettled) (hafter : after.IsSettled)
    (hopen : after.isOpen = store.isOpen) (hclose : after.close = store.close) :
    after.database = store.database := by
  obtain ⟨path, contents | c⟩ := store <;> obtain ⟨path', contents' | c'⟩ := after
  · exact congrArg database hclose
  · cases hopen
  · cases hopen
  · have hsettled : c'.settled = c.settled := congrArg database hclose
    rw [Connection.settled, hafter.1, Connection.settled, h.1] at hsettled
    exact hsettled

end Store

/-- A transaction that fails leaves a store that would hold the same when closed. -/
theorem Access.transaction_error {α : Type} {fault : StorageFault} {steps : Steps α}
    (hsteps : Steps.KeepsStart steps) {store after : Store} {e : StoreFault}
    (h : onConnection fault (Steps.transaction steps) store = .error e after) :
    after.close = store.close ∧ after.isOpen = store.isOpen := by
  obtain ⟨rfl, hclosed⟩ | ⟨c, c', e', hstate, hfailed, rfl⟩ := onConnection_error h
  · exact ⟨rfl, rfl⟩
  · obtain ⟨hsettled, -⟩ := Steps.transaction_error hsteps hfailed
    exact ⟨by simp [Store.close, hstate, hsettled], by simp [Store.isOpen, hstate]⟩

namespace Operation

theorem isSettled_after (operation : Operation) {store : Store} (h : store.IsSettled) :
    (operation.run.after store).IsSettled := by
  obtain ⟨path, contents | c⟩ := store
  · rw [after_closed operation rfl]
    exact h
  · obtain ⟨c', hafter, hstart, hleaves⟩ := operation.exists_after path c
    rw [hafter]
    exact ⟨hstart h, fun i hi => h.2 i (hleaves.2.subset hi)⟩

theorem isIdle_after (operation : Operation) {store : Store} (h : store.IsIdle) :
    (operation.run.after store).IsIdle := by
  have hsettled := h.isSettled
  obtain ⟨path, contents | c⟩ := store
  · rw [after_closed operation rfl]
    exact h
  · obtain ⟨c', hafter, hstart, hleaves⟩ := operation.exists_after path c
    obtain ⟨-, houtside⟩ : c.start = none ∧ c.outside = .quiet := h
    rw [houtside] at hleaves
    rw [hafter]
    exact ⟨hstart hsettled, hleaves.quiet⟩

theorem map_error {α β : Type} {f : α → β} {x : Access α} {store after : Store} {e : StoreFault}
    (h : (f <$> x) store = .error e after) : x store = .error e after := by
  change EStateM.map f x store = _ at h
  rw [EStateM.map] at h
  split at h
  · cases h
  · next hx =>
    cases h
    exact hx

/-- A write that fails leaves a store that would hold the same when closed, whatever was refused. -/
theorem IsWrite.error {w : Operation} (hw : w.IsWrite) {store after : Store} {e : StoreFault}
    (h : w.run store = .error e after) :
    after.close = store.close ∧ after.isOpen = store.isOpen := by
  obtain ⟨_, f, fault, steps, hsteps, hrun⟩ := hw.eq_transaction
  rw [hrun] at h
  exact Access.transaction_error hsteps (map_error h)

/-- An operation that fits and finds its tables has one outcome on all stores that show the same
database. -/
theorem outcome_eq_of_shows {operation : Operation} {db : Database}
    (h : operation.FindsTables db) (hfits : operation.Fits) {store other : Store}
    (hs : store.Shows db) (ho : other.Shows db) :
    operation.outcome store = operation.outcome other := by
  obtain ⟨answer, after, hgives⟩ := exists_gives h hfits
  have houtcome (s : Store) (hshows : s.Shows db) : operation.outcome s = (answer, after) := by
    obtain ⟨later, hresult, hlater, -⟩ := hgives.of_shows hshows
    rw [outcome, hresult, ← hlater.database]
    cases answer <;> rfl
  rw [houtcome store hs, houtcome other ho]

end Operation

end Catalogue
