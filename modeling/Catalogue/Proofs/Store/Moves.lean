import Catalogue.Proofs.Store.ReadOnly

/-! Whatever is done to a store.  Besides the steps that a ledger follows, entries are listed and
retrieved, and forms with loose texts are refused; none of this changes what the store holds, so its
table of entries goes on to be one of saved forms. -/

namespace Catalogue

open Number

/-- A store is opened or closed, or an operation is called on it. -/
inductive Move where
  | open_
  | close
  | call (operation : Operation)

namespace Session

/-- The reply to a move, and the session after it. -/
def move (s : Session) : Move → Reply × Session
  | .open_ => s.step .open_
  | .close => s.step .close
  | .call operation => s.call operation

/-- The session after some moves. -/
def play (s : Session) (moves : List Move) : Session :=
  moves.foldl (fun s move => (s.move move).2) s

/-- Some moves with the replies to them. -/
def replies (s : Session) : List Move → List (Move × Reply)
  | [] => []
  | move :: moves => (move, (s.move move).1) :: replies (s.move move).2 moves

theorem call_eq (s : Session) (operation : Operation) :
    (s.call operation).2 = { s with store := (s.call operation).2.store } := by
  unfold call
  split <;> rfl

end Session

namespace Ledger

variable {P : Form → Prop} {path : Path} {l : Ledger} {s : Session} {operation : Operation}

theorem Matches.call_unchanged (h : l.Matches P path s)
    (hsame : s.store.Shows s.store.kept → (s.call operation).2.store.Shows s.store.kept ∧
      (s.call operation).2.store.path = s.store.path) :
    l.Matches P path (s.call operation).2 := by
  cases hopen : l.isOpen with
  | false =>
    rw [Session.call_closed (h.isOpen.trans hopen)]
    exact h
  | true =>
    obtain ⟨hstore, hpath⟩ := hsame (h.shows hopen)
    rw [Session.call_eq]
    exact h.stay hopen hstore hpath

/-- After any move there is a ledger that matches the session. -/
theorem Matches.move (h : l.Matches (fun _ => True) path s) (move : Move) :
    ∃ l' : Ledger, l'.Matches (fun _ => True) path (s.move move).2 := by
  have hread {operation : Operation} (hread : ¬operation.IsWrite) :
      ∃ l' : Ledger, l'.Matches (fun _ => True) path (s.call operation).2 :=
    ⟨l, h.call_unchanged fun hshows => Session.call_of_readsOnly hshows hread⟩
  have hloose {operation : Operation}
      (hfails : ∀ {db : Database} {t}, db.entries = some t → Access.Fails operation.run db) :
      ∃ l' : Ledger, l'.Matches (fun _ => True) path (s.call operation).2 := by
    obtain ⟨t, -, ht, -⟩ := h.holds
    refine ⟨l, h.call_unchanged fun hshows => ?_⟩
    obtain ⟨e, store, hcall, hstore, hpath⟩ := Session.call_of_fails hshows (hfails ht)
    rw [hcall]
    exact ⟨hstore, hpath⟩
  cases move with
  | open_ => exact ⟨_, h.open_.after⟩
  | close => exact ⟨_, h.close.after⟩
  | call operation =>
    cases operation with
    | insert form today => exact ⟨_, (h.insert trivial today).after⟩
    | update id form => exact ⟨_, (h.update id trivial).after⟩
    | delete id => exact ⟨_, (h.delete id).after⟩
    | insertLoose => exact hloose Operation.fails_insertLoose
    | updateLoose id => exact hloose fun ht => Operation.fails_updateLoose ht id
    | _ => exact hread id

theorem Matches.play (h : l.Matches (fun _ => True) path s) (moves : List Move) :
    ∃ l' : Ledger, l'.Matches (fun _ => True) path (s.play moves) := by
  induction moves generalizing l s with
  | nil => exact ⟨l, h⟩
  | cons move moves ih =>
    obtain ⟨l', h'⟩ := h.move move
    exact ih h'

end Ledger

/-- Whatever was done to a store, its table of entries holds saved forms. -/
theorem Session.holds_of_play (path : Path) (tree : FileTree) (moves : List Move) {db : Database}
    (hshows : ((new path tree).play moves).store.Shows db) {t : EntryTable}
    (ht : db.entries = some t) : ∃ saved, t.Holds saved := by
  obtain ⟨l, h⟩ := (Ledger.new_matches (fun _ => True) path tree).play moves
  obtain ⟨kept, saved, hkept, hholds, -⟩ := h.holds
  rw [hshows.kept, ht] at hkept
  cases hkept
  exact ⟨saved, hholds⟩

end Catalogue
