import Catalogue.Proofs.Store.Reopening
import Catalogue.Proofs.Store.Saved
import Mathlib.Logic.Function.Basic

/-! Sessions with a store: it is opened and closed, and entries are inserted, updated, deleted and
looked up.  A ledger, which knows of the replies alone, keeps the form that was saved last under
each number and the day of its first save, and prescribes the reply to every step. -/

namespace Catalogue

open Number

/-- What is done to a store. -/
inductive Step where
  | open_
  | close
  | insert (form : Form) (today : Date)
  | update (id : Int) (form : Form)
  | delete (id : Int)
  | get (pageSize : Nat) (id : Int)

/-- What comes back from a step; opening and closing have no answer. -/
abbrev Reply := Except StoreFault (Option Answer)

/-- A store, and the tree of files in which it is opened. -/
structure Session where
  store : Store
  tree : FileTree

namespace Session

def new (path : Path) (tree : FileTree) : Session := ⟨.new path, tree⟩

def call (s : Session) (operation : Operation) : Reply × Session :=
  match operation.run s.store with
  | .ok answer store => (.ok (some answer), { s with store := store })
  | .error e store => (.error e, { s with store := store })

/-- The reply to opening the store, and the session after it. -/
def opening (s : Session) (circumstances : Circumstances) : Reply × Session :=
  match s.store.open_ s.tree circumstances with
  | (.ok store, tree) => (.ok none, ⟨store, tree⟩)
  | (.error e, tree) => (.error e, { s with tree := tree })

/-- The reply to a step, and the session after it. -/
def step (s : Session) : Step → Reply × Session
  | .open_ => s.opening {}
  | .close => (.ok none, { s with store := s.store.close })
  | .insert form today => s.call (.insert form today)
  | .update id form => s.call (.update id form)
  | .delete id => s.call (.delete id)
  | .get pageSize id => s.call (.get pageSize id)

/-- The session after some steps. -/
def run (s : Session) (steps : List Step) : Session :=
  steps.foldl (fun s step => (s.step step).2) s

/-- Some steps with the replies to them. -/
def trace (s : Session) : List Step → List (Step × Reply)
  | [] => []
  | step :: steps => (step, (s.step step).1) :: trace (s.step step).2 steps

end Session

namespace Step

/-- The integers of the step fit into columns. -/
def Fits : Step → Prop
  | .open_ | .close => True
  | .insert form _ => FitsWord form.type.amount
  | .update id form => FitsWord id ∧ FitsWord form.type.amount
  | .delete id => FitsWord id
  | .get pageSize id => FitsWord pageSize ∧ FitsWord id

instance : (step : Step) → Decidable step.Fits
  | .open_ | .close => inferInstanceAs (Decidable True)
  | .insert form _ => inferInstanceAs (Decidable (FitsWord form.type.amount))
  | .update id form => inferInstanceAs (Decidable (FitsWord id ∧ FitsWord form.type.amount))
  | .delete id => inferInstanceAs (Decidable (FitsWord id))
  | .get pageSize id => inferInstanceAs (Decidable (FitsWord pageSize ∧ FitsWord id))

/-- A form that the step saves is one of which `P` holds. -/
def Saves (P : Form → Prop) : Step → Prop
  | .insert form _ | .update _ form => P form
  | _ => True

end Step

/-- The path names a database that is kept in memory alone, and gone when it is closed. -/
def Path.isInMemory (path : Path) : Bool :=
  match DatabaseName.ofText? true path.text with
  | some (.memory _) => true
  | _ => false

/-- What the replies so far tell of a store: whether it is open and whether it was opened before,
the largest number given, and the saved forms by number. -/
structure Ledger where
  isOpen : Bool
  wasOpen : Bool
  given : Int
  saved : Int → Option Saved

namespace Ledger

def new : Ledger := ⟨false, false, 0, fun _ => none⟩

/-- The ledger with another form, or none, under a number. -/
def put (l : Ledger) (id : Int) (s : Option Saved) : Ledger :=
  { l with saved := Function.update l.saved id s }

theorem put_saved (l : Ledger) (id : Int) (s : Option Saved) (other : Int) :
    (l.put id s).saved other = if other = id then s else l.saved other :=
  Function.update_apply l.saved id s other

/-- The ledger after the reply to a step. -/
def after (inMemory : Bool) (l : Ledger) : Step → Reply → Ledger
  | .open_, .ok _ => { l with isOpen := true, wasOpen := true }
  | .close, _ =>
    if inMemory then { l with isOpen := false, given := 0, saved := fun _ => none }
    else { l with isOpen := false }
  | .insert form today, .ok (some (.number id)) =>
    { l.put id (some ⟨id, form, today⟩) with given := id }
  | .update id form, .ok (some (.found true)) =>
    l.put id ((l.saved id).map fun s => { s with form := form })
  | .delete id, .ok (some (.found true)) => l.put id none
  | _, _ => l

/-- The reply of an open store. -/
def reply (l : Ledger) : Step → Reply
  | .open_ | .close => .ok none
  | .insert .. =>
    if l.given < maxInteger then .ok (some (.number (l.given + 1)))
    else .error (.storage .insertFailed)
  | .update id _ | .delete id => .ok (some (.found (l.saved id).isSome))
  | .get _ id => .ok (some (.entry ((l.saved id).map Saved.entry)))

/-- The ledger allows a reply: the first opening may fail, and a closed store answers nothing. -/
def Allows (l : Ledger) (step : Step) (r : Reply) : Prop :=
  match step with
  | .open_ => r = .ok none ∨ l.wasOpen = false ∧ ∃ e, r = .error e
  | .close => r = .ok none
  | step => r = if l.isOpen then l.reply step else .error (.storage .closed)

/-- Every reply of a trace is one that the ledger allows. -/
def Explains (inMemory : Bool) (l : Ledger) : List (Step × Reply) → Prop
  | [] => True
  | (step, r) :: rest => l.Allows step r ∧ (l.after inMemory step r).Explains inMemory rest

theorem wasOpen_after {inMemory : Bool} {l : Ledger} (h : l.wasOpen = true) (step : Step)
    (r : Reply) : (l.after inMemory step r).wasOpen = true := by
  unfold after
  split <;> first | rfl | exact h | (split <;> exact h)

theorem Allows.eq {l : Ledger} (hopen : l.wasOpen = true) {step : Step} {r r' : Reply}
    (h : l.Allows step r) (h' : l.Allows step r') : r = r' := by
  have hopening (r : Reply) (h : r = .ok none ∨ l.wasOpen = false ∧ ∃ e, r = .error e) :
      r = .ok none := h.resolve_right fun ⟨hnever, _⟩ => by simp [hopen] at hnever
  cases step with
  | open_ => exact (hopening r h).trans (hopening r' h').symm
  | _ => exact Eq.trans h (Eq.symm h')

/-- Once the store was opened, the ledger allows one trace for the same steps. -/
theorem Explains.eq {inMemory : Bool} {l : Ledger} (hopen : l.wasOpen = true)
    {trace trace' : List (Step × Reply)} (h : l.Explains inMemory trace)
    (h' : l.Explains inMemory trace') (hsteps : trace.map Prod.fst = trace'.map Prod.fst) :
    trace = trace' := by
  induction trace generalizing l trace' with
  | nil => exact (List.map_eq_nil_iff.mp hsteps.symm).symm
  | cons head rest ih =>
    obtain ⟨step, r⟩ := head
    cases trace' with
    | nil => cases hsteps
    | cons head' rest' =>
      obtain ⟨step', r'⟩ := head'
      obtain ⟨rfl, hrest⟩ := List.cons.inj hsteps
      obtain rfl := Allows.eq hopen h.1 h'.1
      rw [ih (wasOpen_after hopen step r) h.2 h'.2 hrest]

end Ledger

end Catalogue
