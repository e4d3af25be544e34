import Catalogue.Proofs.Date
import Catalogue.Proofs.Entry.FieldList
import Catalogue.Proofs.Store.Operation
import Mathlib.Data.List.Basic

/-! Tables of entries as lists of saved forms.  A row that a form made reads back as an entry; a
table that holds a list of saved forms by ascending number goes on to hold one while entries are
inserted, changed and deleted, and no number is given twice. -/

namespace Catalogue

open Number Text

/-- A form that was saved, with its number and the day of its first save. -/
structure Saved where
  id : Int
  form : Form
  day : Date

/-- The form that comes back for a stored one. -/
def Form.readBack (form : Form) : Form where
  link := form.link
  title := form.title
  description := form.description
  authors := FieldList.readBack form.authors
  category := form.category
  themes := FieldList.readBack form.themes
  worksMentioned := FieldList.readBack form.worksMentioned
  tags := FieldList.readBack form.tags
  published := form.published
  exceptional := form.exceptional
  type := form.type

namespace Saved

def row (s : Saved) : Row := .ofForm s.id s.form (.text s.day.text)

def entry (s : Saved) : Entry := ⟨s.id, s.form.readBack, s.day⟩

@[simp] theorem row_id (s : Saved) : s.row.id = s.id := rfl

theorem readDate_text (d : Date) : Row.readDate (.text d.text) = .ok d := by
  have hstored (s : String) : Date.ofStored? (Cell.text s).toJson = Date.parse? s := by
    rw [Date.ofStored?, Cell.toJson, Json.display, LooseText.sound?, Option.bind_some]
  rw [Row.readDate, hstored, Date.parse?_text]

theorem readType_int (type : EntryType) :
    Row.readType (.int type.kind.index) (.int type.amount) = .ok type := by
  obtain ⟨kind, amount⟩ := type
  have hkind : Kind.ofIndex? kind.index = some kind := by cases kind <;> rfl
  have hstored : EntryType.ofStored (.int kind.index) (.int amount) = .ok ⟨kind, amount⟩ := by
    by_cases hamount : amount = 0
    · subst hamount
      simp [EntryType.ofStored, Json.toInteger, Json.isTruthy, hkind, Except.mapError, bind,
        Except.bind, pure, Except.pure]
    · simp [EntryType.ofStored, Json.toInteger, Json.isTruthy, hkind, hamount, Except.mapError,
        bind, Except.bind, pure, Except.pure]
  simp only [Row.readType, Cell.toJson]
  rw [hstored]

theorem isTruthy_flag (flag : Bool) :
    (Cell.int (if flag then 1 else 0)).toJson.isTruthy = flag := by cases flag <;> rfl

/-- A saved form reads back. -/
theorem entry_row (s : Saved) : s.row.entry = .ok s.entry := by
  simp only [row, Row.ofForm, Row.entry, readDate_text, readType_int, isTruthy_flag,
    FieldList.decode_encode]
  rfl

/-! ### The form with a number -/

/-- The form with the number `id` is written over. -/
def change (id : Int) (form : Form) (s : Saved) : Saved :=
  if s.id = id then { s with form := form } else s

theorem change_id (id : Int) (form : Form) (s : Saved) : (change id form s).id = s.id := by
  unfold change
  split <;> rfl

/-- The form with a number. -/
def withId (saved : List Saved) (id : Int) : Option Saved := saved.find? (·.id == id)

theorem withId_append {saved : List Saved} {s : Saved} (h : ∀ other ∈ saved, other.id < s.id)
    (id : Int) : withId (saved ++ [s]) id = if id = s.id then some s else withId saved id := by
  rw [withId, List.find?_append]
  by_cases hid : id = s.id
  · have hnone : saved.find? (·.id == id) = none := by
      rw [List.find?_eq_none]
      intro other hother
      have := h other hother
      simp only [beq_iff_eq]
      omega
    rw [hnone, Option.none_or, if_pos hid, hid]
    simp
  · simp [withId, hid, Ne.symm hid]

theorem withId_change (saved : List Saved) (id : Int) (form : Form) (other : Int) :
    withId (saved.map (change id form)) other =
      if other = id then (withId saved id).map fun s => { s with form := form }
      else withId saved other := by
  have hid : (fun s : Saved => s.id == other) ∘ change id form = fun s => s.id == other := by
    funext s
    exact congrArg (· == other) (change_id id form s)
  rw [withId, List.find?_map, hid]
  change (withId saved other).map _ = _
  have hfound (s : Saved) (hs : withId saved other = some s) : s.id = other := by
    simpa using List.find?_some hs
  cases hs : withId saved other with
  | none =>
    split
    · next h => rw [← h, hs]; rfl
    · rfl
  | some s =>
    have := hfound s hs
    split
    · next h =>
      subst h
      rw [hs, Option.map_some, Option.map_some, change, if_pos this]
    · next h => rw [Option.map_some, change, if_neg (by omega)]

theorem withId_filter (saved : List Saved) (id other : Int) :
    withId (saved.filter (·.id != id)) other =
      if other = id then none else withId saved other := by
  rw [withId, List.find?_filter]
  split
  · next h =>
    subst h
    rw [List.find?_eq_none]
    intro s _
    simp
  · next h =>
    refine congrArg (saved.find? ·) (funext fun s => ?_)
    by_cases hs : s.id = other <;> simp [hs, h]

end Saved

namespace EntryTable

/-- The rows of the table are those of some saved forms, by ascending number; no number is above the
largest one given, and that one fits into a column. -/
structure Holds (t : EntryTable) (saved : List Saved) : Prop where
  rows : t.rows = saved.map Saved.row
  ascending : (saved.map Saved.id).Pairwise (· < ·)
  bounds : ∀ s ∈ saved, 0 < s.id ∧ s.id ≤ t.lastId
  lastId : 0 ≤ t.lastId ∧ t.lastId ≤ maxInteger

theorem empty_holds : empty.Holds [] where
  rows := rfl
  ascending := List.Pairwise.nil
  bounds s hs := by simp at hs
  lastId := by decide

variable {t : EntryTable} {saved : List Saved}

theorem foldl_max_eq (rows : List Row) {top : Int} (h : ∀ row ∈ rows, row.id ≤ top) :
    rows.foldl (fun top row => max top row.id) top = top := by
  induction rows with
  | nil => rfl
  | cons row rows ih =>
    rw [List.foldl_cons, max_eq_left (h row (by simp))]
    exact ih fun other hother => h other (by simp [hother])

theorem Holds.newId? (h : t.Holds saved) :
    t.newId? = if t.lastId < maxInteger then some (t.lastId + 1) else none := by
  have hrows : ∀ row ∈ t.rows, row.id ≤ t.lastId := by
    intro row hrow
    rw [h.rows] at hrow
    obtain ⟨s, hs, rfl⟩ := List.mem_map.mp hrow
    exact (h.bounds s hs).2
  rw [EntryTable.newId?, foldl_max_eq t.rows hrows]

theorem Holds.insert (h : t.Holds saved) (hid : t.lastId < maxInteger) (form : Form) (day : Date) :
    (t.insert (.ofForm (t.lastId + 1) form (.text day.text))).Holds
      (saved ++ [⟨t.lastId + 1, form, day⟩]) where
  rows := by
    rw [List.map_append, ← h.rows]
    rfl
  ascending := by
    rw [List.map_append, List.pairwise_append]
    refine ⟨h.ascending, List.pairwise_singleton _ _, fun id hmem next hnext => ?_⟩
    obtain ⟨s, hs, rfl⟩ := List.mem_map.mp hmem
    obtain rfl := List.mem_singleton.mp hnext
    have := (h.bounds s hs).2
    change s.id < t.lastId + 1
    omega
  bounds s hs := by
    change 0 < s.id ∧ s.id ≤ t.lastId + 1
    rcases List.mem_append.mp hs with hs | hs
    · have := h.bounds s hs
      omega
    · obtain rfl := List.mem_singleton.mp hs
      have := h.lastId.1
      constructor <;> dsimp only <;> omega
  lastId := by
    change 0 ≤ t.lastId + 1 ∧ t.lastId + 1 ≤ maxInteger
    have := h.lastId.1
    omega

theorem Holds.modify (h : t.Holds saved) (id : Int) (form : Form) :
    (t.modify id fun row => .ofForm id form row.saved).Holds
      (saved.map (Saved.change id form)) where
  rows := by
    have hrow (s : Saved) : (if s.row.id == id then .ofForm id form s.row.saved else s.row) =
        (Saved.change id form s).row := by
      by_cases hs : s.id = id
      · simp [Saved.change, hs, Saved.row, Row.ofForm]
      · simp [Saved.change, hs]
    change t.rows.map _ = _
    rw [h.rows, List.map_map, List.map_map]
    exact List.map_congr_left fun s _ => hrow s
  ascending := by
    have hid : Saved.id ∘ Saved.change id form = Saved.id := funext (Saved.change_id id form)
    rw [List.map_map, hid]
    exact h.ascending
  bounds s hs := by
    obtain ⟨kept, hkept, rfl⟩ := List.mem_map.mp hs
    rw [Saved.change_id]
    exact h.bounds kept hkept
  lastId := h.lastId

theorem Holds.erase (h : t.Holds saved) (id : Int) :
    (t.erase id).Holds (saved.filter (·.id != id)) where
  rows := by
    change t.rows.filter _ = _
    rw [h.rows, List.filter_map]
    rfl
  ascending := h.ascending.sublist (List.filter_sublist.map _)
  bounds s hs := h.bounds s (List.mem_of_mem_filter hs)
  lastId := h.lastId

theorem Holds.find? (h : t.Holds saved) (id : Int) :
    t.find? id = (Saved.withId saved id).map Saved.row := by
  rw [EntryTable.find?, h.rows, List.find?_map]
  rfl

theorem Holds.has (h : t.Holds saved) (id : Int) : t.has id = (Saved.withId saved id).isSome := by
  rw [EntryTable.has, h.rows, List.any_map, Saved.withId, List.isSome_find?]
  rfl

theorem Holds.entryWith (h : t.Holds saved) (id : Int) :
    t.entryWith id = .ok ((Saved.withId saved id).map Saved.entry) := by
  rw [EntryTable.entryWith, h.find?]
  cases Saved.withId saved id with
  | none => rfl
  | some s =>
    simp only [Option.map_some]
    rw [Saved.entry_row]
    rfl

end EntryTable

end Catalogue
