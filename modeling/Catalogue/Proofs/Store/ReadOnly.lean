import Catalogue.Proofs.Store.Atomic
import Catalogue.Proofs.Store.Refinement

/-! Operations that only read.  Whatever they answer, and also where they fail, the database is as
it was and no transaction is open; the same holds of a write that fails. -/

namespace Catalogue

open Catalogue.Filter Number

namespace Session

variable {s : Session} {db : Database} {operation : Operation}

theorem call_of_readsOnly (hshows : s.store.Shows db) (h : ¬operation.IsWrite) :
    (s.call operation).2.store.Shows db ∧ (s.call operation).2.store.path = s.store.path := by
  obtain ⟨⟨path, state⟩, tree⟩ := s
  obtain ⟨memory, rfl⟩ := hshows
  obtain ⟨answer, ⟨contents, start, memory', outside⟩, hrun, hkept⟩ :=
    Operation.keeps h (.viewing Prod.mk) path ⟨db, none, memory, .quiet⟩
  obtain ⟨hsame, hleaves⟩ : (contents, start) = (db, none) ∧ Outside.quiet.Leaves outside := by
    cases answer with
    | ok a => exact hkept
    | error e => exact hkept rfl
  cases hsame
  obtain rfl := hleaves.quiet
  unfold call
  dsimp only
  rw [hrun]
  cases answer <;> exact ⟨⟨memory', rfl⟩, rfl⟩

/-- A call that fails leaves what the store shows. -/
theorem call_of_error (hshows : s.store.Shows db) {e : StoreFault}
    (h : (s.call operation).1 = .error e) :
    (s.call operation).2.store.Shows db ∧ (s.call operation).2.store.path = s.store.path := by
  by_cases hwrite : operation.IsWrite
  · unfold call at h ⊢
    cases hrun : operation.run s.store with
    | ok answer after =>
      rw [hrun] at h
      cases h
    | error e' after =>
      obtain ⟨hclose, hopen⟩ := hwrite.error hrun
      have hbefore := hshows.isIdle
      have hidle := operation.isIdle_after hbefore
      rw [Access.after, hrun] at hidle
      have hafter := Store.shows_database (hopen.trans hshows.isOpen) hidle
      rw [hbefore.isSettled.database_eq hidle.isSettled hopen hclose, hshows.database] at hafter
      refine ⟨hafter, ?_⟩
      change after.path = s.store.path
      rw [← Store.path_close after, hclose, Store.path_close]
  · exact call_of_readsOnly hshows hwrite

end Session

end Catalogue
