import Catalogue.Proofs.Http.Framework

/-! What is shown of an entry has the data of a draft of the same form: the number and the day of
the first save are further members, and of the two measures the one that is null is not given. -/

namespace Catalogue.Http

open Number Text

/-! ### Drafts of forms -/

/-- A kind with its own measure, and not the other. -/
def Measures.ofType (type : EntryType) : Measures where
  kind := type.kind
  pages := if type.kind.measure = .pages then some type.amount else none
  seconds := if type.kind.measure = .seconds then some type.amount else none

theorem Measures.type_ofType (type : EntryType) : (ofType type).type = type := by
  obtain ⟨kind, amount⟩ := type
  cases kind <;> rfl

theorem Measures.areNatural_ofType {type : EntryType} (h : 0 ≤ type.amount) :
    (ofType type).AreNatural := by
  constructor <;>
  · intro n hn
    obtain ⟨-, ⟨rfl⟩⟩ := Option.ite_none_right_eq_some.mp hn
    exact h

/-- The draft that has the texts of a form. -/
def Draft.ofForm (form : Form) : Draft where
  link := form.link
  title := form.title
  description := form.description
  authors := form.authors.map .sound
  category := form.category
  themes := form.themes.map .sound
  worksMentioned := form.worksMentioned.map .sound
  tags := form.tags.map .sound
  published := form.published
  exceptional := form.exceptional
  measures := .ofType form.type

theorem mapM_sound? (texts : List String) :
    (texts.map LooseText.sound).mapM LooseText.sound? = some texts := by
  induction texts with
  | nil => rfl
  | cons s texts ih =>
    rw [List.map_cons, List.mapM_cons, ih]
    rfl

theorem Draft.form?_ofForm (form : Form) : (ofForm form).form? = some form := by
  simp only [Draft.form?, ofForm, mapM_sound?, Measures.type_ofType]
  rfl

theorem type_of_form? {draft : Draft} {form : Form} (h : draft.form? = some form) :
    form.type = draft.measures.type := by
  simp only [Draft.form?, Option.bind_eq_bind, Option.bind_eq_some_iff, Option.pure_def,
    Option.some.injEq] at h
  obtain ⟨_, -, _, -, _, -, _, -, _, -, _, -, _, -, _, -, rfl⟩ := h
  rfl

/-! ### Entries as they are shown -/

theorem Measures.isIn_toFullJson (type : EntryType) : (ofType type).IsIn type.toFullJson := by
  obtain ⟨kind, amount⟩ := type
  cases kind <;> exact ⟨rfl, rfl, rfl⟩

theorem textList_eq (texts : List String) :
    textList texts = .list ((texts.map LooseText.sound).map .string) := by
  rw [textList, List.map_map]
  rfl

theorem Draft.isIn_entryJson {e : Entry} (h : 0 ≤ e.form.type.amount) :
    (ofForm e.form).IsIn (entryJson e) where
  link := rfl
  title := rfl
  description := rfl
  authors := congrArg some (textList_eq e.form.authors)
  category := rfl
  themes := congrArg some (textList_eq e.form.themes)
  worksMentioned := congrArg some (textList_eq e.form.worksMentioned)
  tags := congrArg some (textList_eq e.form.tags)
  published := rfl
  exceptional := rfl
  measures := ⟨_, rfl, Measures.isIn_toFullJson e.form.type⟩
  natural := Measures.areNatural_ofType h

theorem isRegular_textList (texts : List String) : (textList texts).IsRegular := by
  refine Json.isRegular_list fun item hitem => ?_
  obtain ⟨s, -, rfl⟩ := List.mem_map.mp hitem
  exact Json.isRegular_text s

theorem isRegular_toFullJson {type : EntryType} (h : FitsWord type.amount) :
    type.toFullJson.IsRegular := by
  have hmeasure (m : Measure) :
      Json.IsRegular (if type.kind.measure = m then .int type.amount else .null) := by
    split
    · exact Json.isRegular_int (Json.natAbs_lt_of_fitsWord h)
    · exact Json.isRegular_null
  refine Json.isRegular_object (by simp [Members.keys, Measure.name]) ?_
  simp only [List.mem_cons, List.not_mem_nil, or_false, forall_eq_or_imp, forall_eq]
  exact ⟨⟨⟨_, rfl⟩, Json.isRegular_text _⟩, ⟨⟨_, rfl⟩, hmeasure .pages⟩, ⟨_, rfl⟩,
    hmeasure .seconds⟩

theorem isRegular_entryJson {e : Entry} (hid : FitsWord e.id)
    (hamount : FitsWord e.form.type.amount) : (entryJson e).IsRegular := by
  refine Json.isRegular_object (by simp [Members.keys]) ?_
  simp only [List.mem_cons, List.not_mem_nil, or_false, forall_eq_or_imp, forall_eq]
  refine ⟨⟨⟨_, rfl⟩, Json.isRegular_int (Json.natAbs_lt_of_fitsWord hid)⟩,
    ⟨⟨_, rfl⟩, Json.isRegular_text _⟩, ⟨⟨_, rfl⟩, Json.isRegular_text _⟩,
    ⟨⟨_, rfl⟩, Json.isRegular_text _⟩, ⟨⟨_, rfl⟩, isRegular_textList _⟩,
    ⟨⟨_, rfl⟩, Json.isRegular_text _⟩, ⟨⟨_, rfl⟩, isRegular_textList _⟩,
    ⟨⟨_, rfl⟩, isRegular_textList _⟩, ⟨⟨_, rfl⟩, isRegular_textList _⟩,
    ⟨⟨_, rfl⟩, Json.isRegular_text _⟩, ⟨⟨_, rfl⟩, Json.isRegular_text _⟩,
    ⟨⟨_, rfl⟩, Json.isRegular_bool _⟩, ⟨_, rfl⟩, isRegular_toFullJson hamount⟩

theorem nesting_textList (texts : List String) : Json.nesting (textList texts) = 1 := by
  have hitems : Json.nestingOfItems (texts.map .text) = 0 := by
    induction texts with
    | nil => rfl
    | cons s texts ih => simp [Json.nestingOfItems, Json.nesting, ih]
  rw [textList, Json.nesting, hitems]

theorem nesting_entryJson (e : Entry) : Json.nesting (entryJson e) = 2 := by
  have htype : Json.nesting e.form.type.toFullJson = 1 := by
    obtain ⟨⟨⟩, amount⟩ := e.form.type <;> rfl
  simp only [entryJson, Entry.withType, Json.nesting, Json.nestingOfMembers, nesting_textList,
    htype]
  rfl

/-- What is shown of an entry is received as a draft of its form. -/
theorem readDraft_entryJson {f : Framework} (hf : f.Validates) {r : Request} {e : Entry}
    (hid : FitsWord e.id) (hnatural : 0 ≤ e.form.type.amount)
    (hamount : FitsWord e.form.type.amount) (h : r.Sends f (entryJson e)) :
    f.readDraft r = .valid (.ofForm e.form) :=
  hf.reads h (isRegular_entryJson hid hamount) ((nesting_entryJson e).le.trans hf.depth)
    (Draft.isIn_entryJson hnatural)

end Catalogue.Http
