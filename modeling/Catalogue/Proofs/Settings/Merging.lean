import Catalogue.Proofs.Settings.Defaults

/-! What merging settings with the defaults does to the value at each path of keys.  Every default
has its place, a given value stays where it is unless it has another shape than the default there,
and nothing else appears. -/

namespace Catalogue

open Text

/-- The value to which a path of keys leads. -/
def Json.valueAt? (value : Json) : List LooseText → Option Json
  | [] => some value
  | key :: path => (value.get? key).bind fun inner => inner.valueAt? path

namespace Settings

/-! ### Paths -/

theorem valueAt?_object_cons (members : Members) (key : LooseText) (path : List LooseText) :
    (Json.object members).valueAt? (key :: path) =
      (members.get? key).bind fun inner => inner.valueAt? path := rfl

/-- A path leads to an object itself, or on from one of its members. -/
theorem valueAt?_object {members : Members} {path : List LooseText} {value : Json}
    (h : (Json.object members).valueAt? path = some value) :
    path = [] ∧ value = .object members ∨
      ∃ m ∈ members, ∃ rest, path = m.1 :: rest ∧ m.2.valueAt? rest = some value := by
  cases path with
  | nil => exact .inl ⟨rfl, (Option.some.inj h).symm⟩
  | cons key rest =>
    rw [valueAt?_object_cons] at h
    obtain ⟨inner, hinner, hrest⟩ := Option.bind_eq_some_iff.mp h
    exact .inr ⟨(key, inner), Members.mem_of_get? hinner, rest, rfl, hrest⟩

/-- From a value that is no object, no path leads on. -/
theorem valueAt?_of_flat {value inner : Json} {path : List LooseText}
    (hflat : value.members? = none) (h : value.valueAt? path = some inner) :
    path = [] ∧ inner = value := by
  cases path with
  | nil => exact ⟨rfl, (Option.some.inj h).symm⟩
  | cons key rest =>
    rw [Json.valueAt?, Json.get?, hflat] at h
    cases h

/-- In an object without objects, a path leads to a member at most. -/
theorem valueAt?_flat_object {members : Members} {path : List LooseText} {value : Json}
    (hflat : ∀ m ∈ members, m.2.members? = none)
    (h : (Json.object members).valueAt? path = some value) :
    path = [] ∨ ∃ m ∈ members, path = [m.1] ∧ value = m.2 := by
  rcases valueAt?_object h with ⟨rfl, -⟩ | ⟨m, hm, rest, rfl, hrest⟩
  · exact .inl rfl
  · obtain ⟨rfl, rfl⟩ := valueAt?_of_flat (hflat m hm) hrest
    exact .inr ⟨m, hm, rfl, rfl⟩

/-! ### Shapes -/

/-- A value can stand in the place of a default: an object for a section, a list for a list, and any
value for another default. -/
def Suits (default value : Json) : Prop :=
  match default with
  | .object _ => ∃ members : Members, value = .object members
  | .list _ => ∃ items, value = .list items
  | _ => True

/-- The given values suit the defaults in their places, all along a path. -/
def SuitsAlong (default given : Json) : List LooseText → Prop
  | [] => Suits default given
  | key :: path => Suits default given ∧
    ∀ d v, default.get? key = some d → given.get? key = some v → SuitsAlong d v path

theorem suitsAlong_object {default given : Members} {key : LooseText} {path : List LooseText} :
    SuitsAlong (.object default) (.object given) (key :: path) ↔
      ∀ d v, default.get? key = some d → given.get? key = some v → SuitsAlong d v path :=
  and_iff_right ⟨given, rfl⟩

theorem SuitsAlong.suits {default given d v : Json} {path : List LooseText}
    (h : SuitsAlong default given path) (hdefault : default.valueAt? path = some d)
    (hgiven : given.valueAt? path = some v) : Suits d v := by
  induction path generalizing default given with
  | nil =>
    cases hdefault
    cases hgiven
    exact h
  | cons key path ih =>
    obtain ⟨d', hd', hrest⟩ := Option.bind_eq_some_iff.mp hdefault
    obtain ⟨v', hv', hrest'⟩ := Option.bind_eq_some_iff.mp hgiven
    exact ih (h.2 d' v' hd' hv') hrest hrest'

mutual

theorem mergeValue_none : ∀ default : Json, mergeValue none default = default
  | .object members => by
    have hfront : mergeMembers [] members = members := mergeMembers_nil members
    rw [mergeValue_object, fill]
    simp [hfront]
  | .null | .bool _ | .int _ | .real _ | .string _ | .list _ => rfl

theorem mergeMembers_nil : ∀ members : List (LooseText × Json), mergeMembers [] members = members
  | [] => rfl
  | (key, value) :: rest => by
    rw [mergeMembers, Members.get?_nil, mergeValue_none value, mergeMembers_nil rest]

end

/-- In the place of a default stands the default itself, unless a value that suits it is given. -/
theorem mergeValue_of_not_suits {default : Json} {given : Option Json}
    (h : ∀ v, given = some v → ¬Suits default v) : mergeValue given default = default := by
  cases given with
  | none => exact mergeValue_none default
  | some v =>
    have hv := h v rfl
    cases default with
    | object members =>
      have hmembers : v.members? = none := by
        cases v with
        | object inner => exact absurd ⟨inner, rfl⟩ hv
        | _ => rfl
      have hsame : mergeValue (some v) (.object members) = mergeValue none (.object members) := by
        rw [mergeValue_object, mergeValue_object, Option.bind_some, hmembers]
        rfl
      rw [hsame, mergeValue_none]
    | list items =>
      cases v with
      | list given => exact absurd ⟨given, rfl⟩ hv
      | _ => rfl
    | _ => exact absurd trivial hv

/-- A given value that suits a default other than a section stands in its place. -/
theorem mergeValue_of_suits {default v : Json} (h : Suits default v)
    (hflat : ∀ members, default ≠ .object members) : mergeValue (some v) default = v := by
  cases default with
  | object members => exact absurd rfl (hflat members)
  | list items =>
    obtain ⟨given, rfl⟩ := h
    rfl
  | _ => rfl

theorem suits_mergeValue (given : Option Json) (default : Json) :
    Suits default (mergeValue given default) := by
  cases default with
  | object members => exact ⟨_, mergeValue_object given members⟩
  | list items =>
    cases given with
    | none => exact ⟨_, rfl⟩
    | some v => cases v <;> exact ⟨_, rfl⟩
  | _ => trivial

/-! ### The value at a path -/

theorem get?_members (given : Option Json) (key : LooseText) :
    Members.get? ((given.bind Json.members?).getD []) key =
      given.bind fun value => value.get? key := by
  cases given with
  | none => rfl
  | some value =>
    unfold Json.get?
    rw [Option.bind_some, Option.bind_some]
    cases value.members? <;> rfl

/-- Where a path leads to a default, the value given there stands in its place. -/
theorem valueAt?_mergeValue {default d : Json} {path : List LooseText}
    (h : default.valueAt? path = some d) (given : Option Json) :
    (mergeValue given default).valueAt? path =
      some (mergeValue (given.bind fun value => value.valueAt? path) d) := by
  induction path generalizing default given with
  | nil =>
    cases h
    cases given <;> rfl
  | cons key path ih =>
    cases default with
    | object members =>
      obtain ⟨inner, hinner, hrest⟩ := Option.bind_eq_some_iff.mp h
      change Members.get? members key = some inner at hinner
      rw [mergeValue_object, valueAt?_object_cons, get?_fill, get?_members, hinner, Option.map_some,
        Option.some_or, Option.bind_some, ih hrest, Option.bind_assoc]
      rfl
    | _ => cases h

/-- Where a path leads to no default, it leads to what is given there, unless it passes a value that
does not suit its default. -/
theorem valueAt?_mergeValue_of_none {default given value : Json} {path : List LooseText}
    (h : default.valueAt? path = none) :
    (mergeValue (some given) default).valueAt? path = some value ↔
      given.valueAt? path = some value ∧ SuitsAlong default given path := by
  induction path generalizing default given with
  | nil => cases h
  | cons key path ih =>
    -- A value that does not suit its default is replaced by it, and nothing below is kept.
    by_cases hsuits : Suits default given
    · cases default with
      | object members =>
        obtain ⟨inner, rfl⟩ := hsuits
        rw [valueAt?_object_cons] at h
        rw [mergeValue_object, valueAt?_object_cons, valueAt?_object_cons, suitsAlong_object,
          get?_fill, get?_members, Option.bind_some]
        cases hdefault : Members.get? members key with
        | none => simp [Json.get?, Json.members?]
        | some d =>
          rw [hdefault, Option.bind_some] at h
          rw [Option.map_some, Option.some_or, Option.bind_some]
          cases hgiven : inner.get? key with
          | none => simp [Json.get?, Json.members?, hgiven, mergeValue_none, h]
          | some v => simpa [Json.get?, Json.members?, hgiven] using ih h
      | list items =>
        obtain ⟨given, rfl⟩ := hsuits
        exact ⟨nofun, fun hvalue => nomatch hvalue.1⟩
      | _ =>
        have hsuitsAlong : SuitsAlong _ given (key :: path) := ⟨hsuits, nofun⟩
        exact (and_iff_left hsuitsAlong).symm
    · have hsame : mergeValue (some given) default = default :=
        mergeValue_of_not_suits fun v hv => Option.some.inj hv ▸ hsuits
      rw [hsame, h]
      simp [SuitsAlong, hsuits]

/-! ### Completed settings -/

/-- A value is completed by a default: it has every default, the given values, and nothing else. -/
structure Completes (default given merged : Json) : Prop where
  /-- Every default has its place, with a value of its shape. -/
  complete {path d} : default.valueAt? path = some d →
    ∃ value, merged.valueAt? path = some value ∧ Suits d value
  /-- What is given stays as it is; of a section, the members do. -/
  kept {path value} : given.valueAt? path = some value → SuitsAlong default given path →
    (∀ members, default.valueAt? path ≠ some (.object members)) →
    merged.valueAt? path = some value
  /-- A default is there unchanged when nothing that suits it is given. -/
  replaced {path d} : default.valueAt? path = some d →
    (∀ value, given.valueAt? path = some value → ¬Suits d value) → merged.valueAt? path = some d
  /-- What is no default was given. -/
  only {path value} : merged.valueAt? path = some value → default.valueAt? path = none →
    given.valueAt? path = some value
  /-- In a section the defaults come first, in their order, and other members as they were given. -/
  ordered {path} {d g : Members} : default.valueAt? path = some (.object d) →
    given.valueAt? path = some (.object g) → ∃ m : Members,
      merged.valueAt? path = some (.object m) ∧
      m.keys = d.keys ++ g.keys.filter fun key => !d.has key

theorem completes_mergeValue (default value : Json) :
    Completes default value (mergeValue (some value) default) where
  complete h := ⟨_, valueAt?_mergeValue h _, suits_mergeValue _ _⟩
  kept {path v} hvalue hsuits hflat := by
    cases hdefault : default.valueAt? path with
    | none => exact (valueAt?_mergeValue_of_none hdefault).mpr ⟨hvalue, hsuits⟩
    | some d =>
      rw [valueAt?_mergeValue hdefault, Option.bind_some, hvalue]
      refine congrArg some (mergeValue_of_suits (hsuits.suits hdefault hvalue) fun members hd => ?_)
      exact hflat members (hd ▸ hdefault)
  replaced h hvalue := by
    rw [valueAt?_mergeValue h]
    exact congrArg some (mergeValue_of_not_suits hvalue)
  only hvalue h := ((valueAt?_mergeValue_of_none h).mp hvalue).1
  ordered {path d g} hdefault hvalue := by
    refine ⟨fill g d, ?_, keys_fill g d⟩
    rw [valueAt?_mergeValue hdefault, Option.bind_some, hvalue, mergeValue_object]
    rfl

/-- The paths to the sections and lists among the defaults. -/
def shapedPaths : List (List LooseText) :=
  [["database"], ["api"], ["logging"], ["api", "cors_origins"]]

theorem suits_of_not_mem_shapedPaths {given : Members} {path : List LooseText} {d value : Json}
    (hdefault : (Json.object defaults).valueAt? path = some d)
    (hvalue : (Json.object given).valueAt? path = some value) (hpath : path ∉ shapedPaths) :
    Suits d value := by
  rcases valueAt?_object hdefault with ⟨rfl, rfl⟩ | ⟨m, hm, path, rfl, hm'⟩
  · exact ⟨given, (Option.some.inj hvalue).symm⟩
  simp only [defaults, List.mem_cons, List.not_mem_nil, or_false] at hm
  rcases hm with rfl | rfl | rfl | rfl
  · obtain ⟨-, rfl⟩ := valueAt?_of_flat rfl hm'
    trivial
  all_goals
    rcases valueAt?_flat_object (by decide) hm' with rfl | ⟨m, hm, rfl, rfl⟩
    · exact absurd (by decide) hpath
    simp only [List.mem_cons, List.not_mem_nil, or_false] at hm
  · rcases hm with rfl | rfl <;> trivial
  · rcases hm with rfl | rfl | rfl
    · trivial
    · trivial
    · exact absurd (by decide) hpath
  · rcases hm with rfl | rfl <;> trivial

/-- Every section is there in merged settings, with all its defaults. -/
theorem exists_section (given : Members) {name : LooseText} {d : Members}
    (hdefault : defaults.get? name = some (.object d)) : ∃ m : Members,
      (merge given).get? name = some (.object m) ∧ ∀ key ∈ d.keys, key ∈ m.keys := by
  refine ⟨fill (((given.get? name).bind Json.members?).getD []) d, ?_, fun key hkey => ?_⟩
  · rw [merge_eq, get?_fill, hdefault, Option.map_some, Option.some_or, mergeValue_object]
  · rw [keys_fill]
    exact List.mem_append_left _ hkey

/-- Merging completes settings, whatever they hold, and only a section that is no object and a list
that is no list are not kept.  Merging merged settings changes nothing, and a section of the
database is there for the migration, which takes the path of older versions away. -/
theorem merge_completes (given : Members) :
    Completes (.object defaults) (.object given) (.object (merge given)) ∧
    (∀ path d value, (Json.object defaults).valueAt? path = some d →
      (Json.object given).valueAt? path = some value → ¬Suits d value → path ∈ shapedPaths) ∧
    (∀ name ∈ ["database", "api", "logging"], ∃ d m : Members,
      defaults.get? name = some (.object d) ∧ (merge given).get? name = some (.object m) ∧
      ∀ key ∈ d.keys, key ∈ m.keys) ∧
    (∃ origins, (Json.object (merge given)).valueAt? ["api", "cors_origins"] =
      some (.list origins)) ∧
    merge (merge given) = merge given ∧
    ∃ database, (merge given).get? "database" = some (.object database) ∧
      ((merge given).erase "database_path").get? "database" = some (.object database) := by
  have hcompletes : Completes (.object defaults) (.object given) (.object (merge given)) := by
    have h := completes_mergeValue (.object defaults) (.object given)
    rwa [mergeValue_object] at h
  refine ⟨hcompletes, fun path d value hdefault hvalue => ?_, fun name hname => ?_, ?_,
    merge_merge given, ?_⟩
  · exact not_imp_comm.mp (suits_of_not_mem_shapedPaths hdefault hvalue)
  · obtain ⟨d, hd⟩ : ∃ d : Members, defaults.get? name = some (.object d) := by
      simp only [List.mem_cons, List.not_mem_nil, or_false] at hname
      rcases hname with rfl | rfl | rfl <;> exact ⟨_, rfl⟩
    obtain ⟨m, hm, hkeys⟩ := exists_section given hd
    exact ⟨d, m, hd, hm, hkeys⟩
  · have horigins : ∃ origins,
        (Json.object defaults).valueAt? ["api", "cors_origins"] = some (.list origins) := ⟨_, rfl⟩
    obtain ⟨origins, horigins⟩ := horigins
    obtain ⟨value, hvalue, given, rfl⟩ := hcompletes.complete horigins
    exact ⟨given, hvalue⟩
  · obtain ⟨database, hdatabase, -⟩ := exists_database (merge_merge given)
    refine ⟨database, hdatabase, ?_⟩
    rwa [Members.get?_erase, if_neg (by decide)]

end Settings

end Catalogue
