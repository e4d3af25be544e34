import Catalogue.Log.Record
import Catalogue.Proofs.Json.OneLine

/-! The line of JSON that a record makes.  It is one line, it is read back as an object, and this
object tells of the record what the record holds: its members are those that every line has, and the
further attributes that are values, that are shown, and whose names are not taken.  An attribute of
these names at which the writer breaks off is the only thing in the way of a line. -/

namespace Catalogue.Log

open Number Text Json

/-! ### Further attributes -/

/-- A name that a line shows: it has no underscore in front, and is not that of an attribute that
every record has. -/
def IsOpen (name : LooseText) : Prop :=
  name.points.head? ≠ some (.inl '_') ∧ ∀ taken ∈ reservedAttributes, name ≠ .sound taken

theorem isShown_iff (name : LooseText) : Record.isShown name = true ↔ IsOpen name := by
  have hhead : name.patched.toList.head? = some '_' ↔ name.points.head? = some (.inl '_') := by
    rw [LooseText.toList_patched]
    cases name.points with
    | nil => simp
    | cons p ps => cases p <;> simp [Point.shown]
  have hreserved : (!reservedAttributes.any fun r => LooseText.sound r == name) = true ↔
      ∀ taken ∈ reservedAttributes, name ≠ .sound taken := by
    rw [Bool.not_eq_true', List.any_eq_false]
    exact forall₂_congr fun taken _ => by rw [beq_iff_eq, eq_comm]
  rw [Record.isShown, Bool.and_eq_true, hreserved, bne_iff_ne, ne_eq, hhead]
  rfl

section Extras

variable {line members : Members} {extras : List (LooseText × Attribute)} {name : LooseText}
  {content : Attribute} {m : LooseText × Json}

/-- A further attribute is looked at where it is shown and has a name of its own. -/
theorem addExtras_open (h : IsOpen name ∧ name ∉ line.keys) :
    Record.addExtras line ((name, content) :: extras) = match content with
      | .json value => Record.addExtras (line ++ [(name, value)]) extras
      | .unwritable => Record.addExtras line extras
      | .failing fault _ => .error fault := by
  have hshown : Record.isShown name = true := (isShown_iff name).mpr h.1
  have hhas : line.has name = false := Members.has_eq_false_iff.mpr h.2
  conv_lhs => unfold Record.addExtras
  rw [hshown, hhas]
  rfl

theorem addExtras_other (h : ¬(IsOpen name ∧ name ∉ line.keys)) :
    Record.addExtras line ((name, content) :: extras) = Record.addExtras line extras := by
  have hleft : (!Record.isShown name || line.has name) = true := by
    rw [← isShown_iff, ← Members.has_eq_false_iff] at h
    revert h
    cases Record.isShown name <;> cases line.has name <;> simp
  conv_lhs => unfold Record.addExtras
  exact if_pos hleft

/-- The writer breaks off at none of the further attributes that are looked at. -/
def IsWritten (line : Members) (extras : List (LooseText × Attribute)) : Prop :=
  ∀ name fault kind, (name, .failing fault kind) ∈ extras → ¬(IsOpen name ∧ name ∉ line.keys)

theorem isWritten_cons : IsWritten line ((name, content) :: extras) ↔
    (∀ fault kind, content = .failing fault kind → ¬(IsOpen name ∧ name ∉ line.keys)) ∧
      IsWritten line extras := by
  constructor
  · intro h
    refine ⟨fun fault kind hcontent => h name fault kind ?_, fun other fault kind hmem => ?_⟩
    · rw [hcontent]
      exact List.mem_cons_self
    · exact h other fault kind (List.mem_cons_of_mem _ hmem)
  · rintro ⟨hfirst, hrest⟩ other fault kind hmem
    rcases List.mem_cons.mp hmem with heq | hmem
    · obtain ⟨rfl, rfl⟩ := Prod.mk.inj heq
      exact hfirst fault kind rfl
    · exact hrest other fault kind hmem

/-- A name that stands in the line once more is not that of any attribute that follows. -/
theorem isWritten_snoc {value : Json} (hname : name ∉ extras.map (·.1)) :
    IsWritten (line ++ [(name, value)]) extras ↔ IsWritten line extras := by
  refine forall₃_congr fun other fault kind => imp_congr_right fun hmem => ?_
  have hne : other ≠ name := by
    rintro rfl
    exact hname (List.mem_map.mpr ⟨_, hmem, rfl⟩)
  simp [Members.keys, hne]

/-- The further attributes are added unless the writer breaks off at one that is looked at. -/
theorem exists_addExtras_iff (h : (extras.map (·.1)).Nodup) :
    (∃ members, Record.addExtras line extras = .ok members) ↔ IsWritten line extras := by
  induction extras generalizing line with
  | nil => simp [Record.addExtras, IsWritten]
  | cons extra extras ih =>
    obtain ⟨name, content⟩ := extra
    rw [List.map_cons, List.nodup_cons] at h
    rw [isWritten_cons]
    by_cases htaken : IsOpen name ∧ name ∉ line.keys
    · rw [addExtras_open htaken]
      cases content with
      | json value => simp [ih h.2, isWritten_snoc h.1]
      | unwritable => simp [ih h.2]
      | failing fault kind => simp [htaken]
    · rw [addExtras_other htaken, ih h.2]
      exact (and_iff_right fun _ _ _ => htaken).symm

/-- What a line holds when the further attributes were added, no two of which have one name. -/
theorem mem_of_addExtras (hadd : Record.addExtras line extras = .ok members)
    (h : (extras.map (·.1)).Nodup) :
    m ∈ members ↔ m ∈ line ∨ ((m.1, .json m.2) ∈ extras ∧ IsOpen m.1 ∧ m.1 ∉ line.keys) := by
  induction extras generalizing line with
  | nil =>
    cases hadd
    simp
  | cons extra extras ih =>
    obtain ⟨name, content⟩ := extra
    rw [List.map_cons, List.nodup_cons] at h
    obtain ⟨hname, hrest⟩ := h
    have hother : (m.1, Attribute.json m.2) ∈ extras → m.1 ≠ name := by
      rintro hm rfl
      exact hname (List.mem_map.mpr ⟨_, hm, rfl⟩)
    by_cases htaken : IsOpen name ∧ name ∉ line.keys
    · rw [addExtras_open htaken] at hadd
      cases content with
      | json value =>
        have hcons : (m.1, Attribute.json m.2) ∈ (name, Attribute.json value) :: extras ↔
            m = (name, value) ∨ (m.1, Attribute.json m.2) ∈ extras := by
          rw [List.mem_cons, Prod.mk.injEq, Attribute.json.injEq, Prod.ext_iff]
        have hkeys (hm : (m.1, Attribute.json m.2) ∈ extras) :
            m.1 ∉ Members.keys (line ++ [(name, value)]) ↔ m.1 ∉ line.keys := by
          rw [Members.keys, List.map_append, List.map_singleton, List.mem_append, not_or,
            List.mem_singleton]
          exact and_iff_left (hother hm)
        rw [ih hadd hrest, hcons, List.mem_append, List.mem_singleton]
        constructor
        · rintro ((hline | rfl) | ⟨hm, hopen, htaken'⟩)
          · exact .inl hline
          · exact .inr ⟨.inl rfl, htaken⟩
          · exact .inr ⟨.inr hm, hopen, (hkeys hm).mp htaken'⟩
        · rintro (hline | ⟨rfl | hm, hopen, htaken'⟩)
          · exact .inl (.inl hline)
          · exact .inl (.inr rfl)
          · exact .inr ⟨hm, hopen, (hkeys hm).mpr htaken'⟩
      | unwritable =>
        rw [ih hadd hrest]
        simp
      | failing fault kind => cases hadd
    · rw [addExtras_other htaken] at hadd
      rw [ih hadd hrest]
      refine or_congr_right ⟨fun ⟨hm, hopen⟩ => ⟨List.mem_cons_of_mem _ hm, hopen⟩, ?_⟩
      rintro ⟨hm, hkept⟩
      rcases List.mem_cons.mp hm with heq | hm
      · exact absurd ((Prod.mk.inj heq).1 ▸ hkept) htaken
      · exact ⟨hm, hkept⟩

theorem nodup_of_addExtras (hadd : Record.addExtras line extras = .ok members)
    (h : line.keys.Nodup) : members.keys.Nodup := by
  induction extras generalizing line with
  | nil =>
    cases hadd
    exact h
  | cons extra extras ih =>
    obtain ⟨name, content⟩ := extra
    by_cases htaken : IsOpen name ∧ name ∉ line.keys
    · rw [addExtras_open htaken] at hadd
      cases content with
      | json value =>
        refine ih hadd ?_
        rw [Members.keys, List.map_append, List.map_singleton, List.nodup_append]
        exact ⟨h, by simp, fun a ha b hb => by
          rw [List.mem_singleton.mp hb]
          rintro rfl
          exact htaken.2 ha⟩
      | unwritable => exact ih hadd h
      | failing fault kind => cases hadd
    · rw [addExtras_other htaken] at hadd
      exact ih hadd h

end Extras

/-! ### Lines -/

/-- The names of the members that a line has of its own. -/
def lineKeys : List LooseText := ["ts", "level", "name", "message", "exc_info"]

/-- The members that a line has of its own. -/
def heading (r : Record) (time : Binary64) (message : LooseText) : Members :=
  ([("ts", .real time), ("level", r.level), ("name", r.name), ("message", .string message)] :
    Members) ++ (r.exception.map fun e => (LooseText.sound "exc_info", Json.text e.report)).toList

/-- What a line tells of a record can be read back, and no two further attributes of it have one
name. -/
structure Record.IsLegible (r : Record) : Prop where
  level : r.level.IsLegible
  name : r.name.IsLegible
  names : (r.extras.map (·.1)).Nodup
  values {name : LooseText} {value : Json} : (name, .json value) ∈ r.extras → value.IsLegible

section Line

variable {r : Record} {time : Binary64} {message : LooseText} {members : Members}

theorem mem_heading {key : LooseText} {value : Json} :
    (key, value) ∈ heading r time message ↔
      key = "ts" ∧ value = .real time ∨ key = "level" ∧ value = r.level ∨
        key = "name" ∧ value = r.name ∨ key = "message" ∧ value = .string message ∨
        key = "exc_info" ∧ ∃ e, r.exception = some e ∧ value = .text e.report := by
  rw [heading]
  cases r.exception <;> simp

theorem nodup_heading : (heading r time message).keys.Nodup := by
  rw [heading]
  cases r.exception <;> simp [Members.keys]

theorem mem_lineKeys {key : LooseText} (h : key ∈ (heading r time message).keys) :
    key ∈ lineKeys := by
  obtain ⟨⟨key, value⟩, hm, rfl⟩ := List.mem_map.mp h
  rcases mem_heading.mp hm with ⟨rfl, -⟩ | ⟨rfl, -⟩ | ⟨rfl, -⟩ | ⟨rfl, -⟩ | ⟨rfl, -⟩ <;>
    simp [lineKeys]

theorem line_eq (hmessage : r.message = .ok message)
    (hadd : Record.addExtras (heading r time message) r.extras = .ok members) :
    r.line time = .ok (Json.object members).line := by
  have hmembers : r.members time = .ok members := by
    rw [Record.members, hmessage]
    exact congrArg (Except.mapError RecordFault.dump) hadd
  rw [Record.line, hmembers]
  rfl

/-- The names of its own that a line lacks are not open. -/
theorem isWritten_heading
    (h : ∀ name fault kind, (name, .failing fault kind) ∈ r.extras → IsOpen name →
      name ∈ lineKeys) : IsWritten (heading r time message) r.extras := by
  rintro name fault kind hmem ⟨hopen, hkeys⟩
  have hname := h name fault kind hmem hopen
  have hclosed : name ≠ "exc_info" := by
    rintro rfl
    exact hopen.2 "exc_info" (by decide) rfl
  have hlast : name ∈ (["ts", "level", "name", "message"] : List LooseText) := by
    simpa [lineKeys, hclosed] using hname
  refine hkeys ?_
  rw [heading, Members.keys, List.map_append, List.mem_append]
  exact .inl hlast

theorem isLegible_members (htime : ReadsBack time) (hr : r.IsLegible)
    (hadd : Record.addExtras (heading r time message) r.extras = .ok members) :
    (Json.object members).IsLegible := by
  have htext (w : LooseText) : (Json.string w).IsLegible :=
    isLegible_of_flat rfl trivial trivial
  refine isLegible_object (nodup_of_addExtras hadd nodup_heading) fun m hm => ?_
  rcases (mem_of_addExtras hadd hr.names).mp hm with hm | ⟨hm, -⟩
  · rcases mem_heading.mp hm with ⟨-, h⟩ | ⟨-, h⟩ | ⟨-, h⟩ | ⟨-, h⟩ | ⟨-, e, -, h⟩ <;> rw [h]
    · exact isLegible_of_flat rfl trivial htime
    · exact hr.level
    · exact hr.name
    · exact htext message
    · exact htext _
  · exact hr.values hm

/-- A record whose message is made, and at whose further attributes the writer does not break off,
becomes one line.  The line ends nowhere in between, and it is read back as an object with no name
twice, by a reader that goes deep enough.  The object has the level, the name and the message of the
record, it has an exception where the record is marked with one, and what else it has are the
further attributes that are values and have open names. -/
theorem line_tells_record (htime : ReadsBack time) (hr : r.IsLegible)
    (hmessage : r.message = .ok message)
    (hwritten : ∀ name fault kind, (name, .failing fault kind) ∈ r.extras → IsOpen name →
      name ∈ lineKeys) :
    ∃ (line : LooseText) (members : Members), r.line time = .ok line ∧
      (10 ∉ line.codes ∧ 13 ∉ line.codes) ∧
      (∀ depth, nesting (.object members) ≤ depth →
        parseWithin depth line = .ok (.object members)) ∧
      members.keys.Nodup ∧
      members.get? "ts" = some (.real time) ∧ members.get? "level" = some r.level ∧
      members.get? "name" = some r.name ∧ members.get? "message" = some (.string message) ∧
      members.get? "exc_info" = r.exception.map (fun e => .text e.report) ∧
      ∀ key value, key ∉ lineKeys → (members.get? key = some value ↔
        (key, .json value) ∈ r.extras ∧ IsOpen key) := by
  obtain ⟨members, hadd⟩ := (exists_addExtras_iff hr.names).mpr
    (isWritten_heading hwritten : IsWritten (heading r time message) r.extras)
  have hlegible := isLegible_members htime hr hadd
  have hkeys : members.keys.Nodup := nodup_of_addExtras hadd nodup_heading
  have hget (key : LooseText) (value : Json) : members.get? key = some value ↔
      (key, value) ∈ heading r time message ∨ ((key, .json value) ∈ r.extras ∧ IsOpen key ∧
        key ∉ (heading r time message).keys) := by
    rw [Members.get?_eq_some_iff hkeys, mem_of_addExtras hadd hr.names]
  refine ⟨_, members, line_eq hmessage hadd, line_isOneLine hlegible,
    fun depth => parseWithin_line hlegible, hkeys, ?_, ?_, ?_, ?_, ?_, fun key value hkey => ?_⟩
  · exact (hget _ _).mpr (.inl (mem_heading.mpr (.inl ⟨rfl, rfl⟩)))
  · exact (hget _ _).mpr (.inl (mem_heading.mpr (.inr (.inl ⟨rfl, rfl⟩))))
  · exact (hget _ _).mpr (.inl (mem_heading.mpr (.inr (.inr (.inl ⟨rfl, rfl⟩)))))
  · exact (hget _ _).mpr (.inl (mem_heading.mpr (.inr (.inr (.inr (.inl ⟨rfl, rfl⟩))))))
  · -- A further attribute cannot bear this name, which is taken in every record.
    have hclosed : ¬IsOpen "exc_info" := fun hopen => hopen.2 "exc_info" (by decide) rfl
    ext value
    rw [hget, mem_heading]
    simp [hclosed, eq_comm]
  · rw [hget]
    constructor
    · rintro (hmember | ⟨hextra, hopen, -⟩)
      · exact absurd (mem_lineKeys (List.mem_map_of_mem hmember)) hkey
      · exact ⟨hextra, hopen⟩
    · rintro ⟨hextra, hopen⟩
      exact .inr ⟨hextra, hopen, fun hmember => hkey (mem_lineKeys hmember)⟩

end Line

/-- A text with a half of a pair and a line feed comes back, and a hidden attribute does not. -/
theorem line_tells_record_torn :
    let torn : LooseText := .torn "a\n" ⟨0xD800, by decide⟩ "\""
    let r : Record := ⟨.text "archive", .text "INFO", .text "50% done", .values [],
      some (.raised ⟨["Traceback (most recent call last):"], "ValueError", "no\nmore", []⟩),
      [(torn, .json (.string torn)), ("_hidden", .failing .circular "list"), ("file", .unwritable)]⟩
    ∃ (line : LooseText) (members : Members), r.line (.ofInt 5) = .ok line ∧ 10 ∉ line.codes ∧
      parseWithin (nesting (.object members)) line = .ok (.object members) ∧
      members.get? torn = some (.string torn) ∧
      members.get? "exc_info" =
        some (.text "Traceback (most recent call last):\nValueError: no\nmore") := by
  intro torn r
  have htext (w : LooseText) : (Json.string w).IsLegible := isLegible_of_flat rfl trivial trivial
  have hlegible : r.IsLegible := by
    refine ⟨htext _, htext _, by decide, fun {name value} hvalue => ?_⟩
    simp only [r, List.mem_cons, Prod.mk.injEq, Attribute.json.injEq, List.not_mem_nil, or_false]
      at hvalue
    rcases hvalue with ⟨-, rfl⟩ | ⟨-, h⟩ | ⟨-, h⟩
    · exact htext torn
    · cases h
    · cases h
  have hwritten : ∀ name fault kind, (name, Attribute.failing fault kind) ∈ r.extras →
      IsOpen name → name ∈ lineKeys := by
    intro name fault kind hmem hopen
    simp only [r, List.mem_cons, Prod.mk.injEq, List.not_mem_nil, or_false] at hmem
    rcases hmem with ⟨-, h⟩ | ⟨rfl, -⟩ | ⟨-, h⟩
    · cases h
    · exact absurd rfl hopen.1
    · cases h
  obtain ⟨line, members, hline, ⟨hfeed, -⟩, hparse, -, -, -, -, -, hexception, hothers⟩ :=
    line_tells_record readsBack_five hlegible (show r.message = .ok "50% done" from rfl) hwritten
  have htorn := (hothers torn (.string torn) (by decide)).mpr
    ⟨List.mem_cons_self, by decide, by decide⟩
  exact ⟨line, members, hline, hfeed, hparse _ (Nat.le_refl _), htorn, hexception⟩

/-- A record is marked with an exception where none was there, and its line tells of one; and a list
that holds itself is not left out of a line, but makes that there is none. -/
theorem line_beyond_record :
    (let r : Record := ⟨.text "archive", .text "ERROR", .text "no", .values [], some .empty, []⟩
      ∃ members, r.members (.ofInt 5) = .ok members ∧
        members.get? "exc_info" = some (.text "NoneType: None")) ∧
    let r : Record := ⟨.text "archive", .text "INFO", .text "hello", .values [], none,
      [("own", .failing .circular "list")]⟩
    r.message = .ok "hello" ∧ r.line (.ofInt 5) = .error (.dump .circular) :=
  ⟨⟨_, rfl, rfl⟩, rfl, rfl⟩

end Catalogue.Log
