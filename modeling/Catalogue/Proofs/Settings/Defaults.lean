import Catalogue.Proofs.Json.Formed
import Catalogue.Settings.Defaults

/-! Normal settings: every default has its place, no path of the database stands where older
versions had it, the version is the present one, and the working directory is there.  Settings are
brought into this form, and stay as they are once they have it. -/

namespace Catalogue.Settings

open Number Text Json

/-! ### Defaults -/

/-- A section with all its defaults, and other members after them. -/
def fill (given default : Members) : Members :=
  mergeMembers given default ++ given.filter fun m => !default.has m.1

theorem merge_eq (given : Members) : merge given = fill given defaults := rfl

theorem mergeValue_object (given : Option Json) (default : Members) :
    mergeValue given (.object default) =
      .object (fill ((given.bind Json.members?).getD []) default) := by
  rw [mergeValue]
  rfl

theorem mergeMembers_eq_map (given default : Members) :
    mergeMembers given default = default.map fun m => (m.1, mergeValue (given.get? m.1) m.2) := by
  induction default with
  | nil => rw [mergeMembers, List.map_nil]
  | cons m default ih => rw [mergeMembers, ih, List.map_cons]

theorem keys_fill (given default : Members) :
    (fill given default).keys =
      default.keys ++ given.keys.filter fun key => !default.has key := by
  have hrest : Members.keys (given.filter fun m => !default.has m.1) =
      given.keys.filter fun key => !default.has key := by
    rw [Members.keys, Members.keys, List.filter_map]
    rfl
  have hfront : Members.keys (mergeMembers given default) = default.keys := by
    rw [mergeMembers_eq_map, Members.keys, List.map_map]
    rfl
  rw [← hrest, ← hfront]
  exact List.map_append

theorem get?_mergeMembers (given default : Members) (key : LooseText) :
    Members.get? (mergeMembers given default) key =
      (default.get? key).map (mergeValue (given.get? key)) := by
  induction default with
  | nil =>
    rw [mergeMembers]
    rfl
  | cons m default ih =>
    rw [mergeMembers, Members.get?_cons, Members.get?_cons, ih]
    by_cases h : key = m.1
    · rw [if_pos h, if_pos h, h]
      rfl
    · rw [if_neg h, if_neg h]

/-- What stands under a key: its default with the given value in its place, or else the given
value. -/
theorem get?_fill (given default : Members) (key : LooseText) :
    (fill given default).get? key =
      ((default.get? key).map (mergeValue (given.get? key))).or (given.get? key) := by
  have hrest := Members.get?_filter given (fun key => !default.has key) key
  rw [fill, Members.get?_append, get?_mergeMembers, hrest]
  cases hdefault : default.get? key with
  | some v => rfl
  | none =>
    have hhas : default.has key = false :=
      Members.has_eq_false_iff.mpr (Members.get?_eq_none_iff.mp hdefault)
    simp [hhas]

theorem nodup_keys_fill {given default : Members} (hgiven : given.keys.Nodup)
    (hdefault : default.keys.Nodup) : (fill given default).keys.Nodup := by
  rw [keys_fill]
  refine List.nodup_append.mpr ⟨hdefault, hgiven.filter _, fun a ha b hb he => ?_⟩
  have hb := (List.mem_filter.mp hb).2
  rw [← he, Members.has_iff.mpr ha] at hb
  cases hb

section Filled

variable {given default : Members} {key : LooseText} {value : Json}

/-- A section that was filled stays as it is, where this holds of every value in it. -/
theorem fill_fill (hkeys : default.keys.Nodup)
    (hvalues : ∀ m ∈ default, ∀ given,
      mergeValue (some (mergeValue given m.2)) m.2 = mergeValue given m.2) (given : Members) :
    fill (fill given default) default = fill given default := by
  have hfront : mergeMembers (fill given default) default = mergeMembers given default := by
    rw [mergeMembers_eq_map, mergeMembers_eq_map]
    refine List.map_congr_left fun m hm => ?_
    have hget := get?_fill given default m.1
    rw [Members.get?_of_mem hkeys hm] at hget
    rw [hget]
    exact Prod.ext rfl (hvalues m hm _)
  have hrest : ((fill given default).filter fun m => !default.has m.1) =
      given.filter fun m => !default.has m.1 := by
    have hnone : (mergeMembers given default).filter (fun m => !default.has m.1) = [] := by
      rw [List.filter_eq_nil_iff, mergeMembers_eq_map]
      intro m hm
      obtain ⟨d, hd, rfl⟩ := List.mem_map.mp hm
      have hhas : default.has d.1 = true := Members.has_iff.mpr (List.mem_map_of_mem hd)
      simp [hhas]
    rw [fill, List.filter_append, hnone, List.nil_append, List.filter_filter]
    simp only [Bool.and_self]
  rw [fill, hfront, hrest]
  rfl

/-- A value that stands in the place of a default stands for itself there. -/
theorem mergeValue_mergeValue {default : Json} (h : Everywhere IsFormed default)
    (given : Option Json) :
    mergeValue (some (mergeValue given default)) default = mergeValue given default := by
  induction h generalizing given with
  | @intro v here _ ih =>
    cases v with
    | object members =>
      have hvalues : ∀ m ∈ members, ∀ given,
          mergeValue (some (mergeValue given m.2)) m.2 = mergeValue given m.2 :=
        fun m hm given => ih m.2 (List.mem_map_of_mem hm) given
      rw [mergeValue_object, mergeValue_object]
      exact congrArg Json.object (fill_fill here hvalues _)
    | list items =>
      -- Only a list takes the place of a list.
      cases given with
      | none => rfl
      | some v => cases v <;> rfl
    | _ => rfl

theorem keys_eq_of_filled (hfilled : fill given default = given) :
    default.keys ++ given.keys.filter (fun key => !default.has key) = given.keys := by
  rw [← keys_fill, hfilled]

/-- A filled section stays filled when a value is set that stands for itself. -/
theorem fill_put (hkeys : given.keys.Nodup) (hfilled : fill given default = given)
    (hvalue : ∀ v, default.get? key = some v → mergeValue (some value) v = value) :
    fill (given.put key value) default = given.put key value := by
  refine Members.eq_of_keys ?_ (Members.nodup_keys_put hkeys key value) fun other => ?_
  · -- A new key comes last, as no default stands under it.
    have hsame := keys_eq_of_filled hfilled
    rw [keys_fill, Members.keys_put]
    split
    · exact hsame
    · next hhas =>
      have hdefault : default.has key = false := by
        rw [Members.has_eq_false_iff]
        rw [Members.has_iff, ← hsame] at hhas
        exact fun hmem => hhas (List.mem_append_left _ hmem)
      rw [List.filter_append, ← List.append_assoc, hsame]
      simp [hdefault]
  · rw [get?_fill, Members.get?_put]
    by_cases ho : other = key
    · rw [ho, if_pos rfl]
      cases hdefault : default.get? key with
      | none => rfl
      | some v => exact congrArg some (hvalue v hdefault)
    · rw [if_neg ho, ← get?_fill, hfilled]

/-- A filled section stays filled when a member is taken away that has no default. -/
theorem fill_erase (hkeys : given.keys.Nodup) (hfilled : fill given default = given)
    (hkey : default.has key = false) : fill (given.erase key) default = given.erase key := by
  have hnodup : (given.erase key).keys.Nodup := by
    rw [Members.keys_erase]
    exact hkeys.filter _
  refine Members.eq_of_keys ?_ hnodup fun other => ?_
  · have hfront : default.keys.filter (· != key) = default.keys := by
      refine List.filter_eq_self.mpr fun k hk => ?_
      have hne : k ≠ key := fun he => Members.has_eq_false_iff.mp hkey (he ▸ hk)
      simpa using hne
    rw [keys_fill, Members.keys_erase, List.filter_comm]
    conv_rhs => rw [← keys_eq_of_filled hfilled, List.filter_append, hfront]
  · rw [get?_fill, Members.get?_erase]
    by_cases ho : other = key
    · rw [ho, if_pos rfl, Members.get?_of_not_has hkey]
      rfl
    · rw [if_neg ho, ← get?_fill, hfilled]

end Filled

/-! ### What holds of the values -/

section Everywhere

variable {p : Json → Prop}

theorem everywhere_fill (hp : IsKeyed p) {given default : Members}
    (hgiven : Everywhere p (.object given)) (hkeys : default.keys.Nodup)
    (hvalues : ∀ m ∈ default, ∀ given : Option Json, (∀ v, given = some v → Everywhere p v) →
      Everywhere p (mergeValue given m.2)) : Everywhere p (.object (fill given default)) := by
  obtain ⟨hnodup, hmembers⟩ := hp.everywhere_iff.mp hgiven
  refine hp.everywhere_iff.mpr ⟨nodup_keys_fill hnodup hkeys, fun m hm => ?_⟩
  rcases List.mem_append.mp hm with hfront | hrest
  · rw [mergeMembers_eq_map] at hfront
    obtain ⟨d, hd, rfl⟩ := List.mem_map.mp hfront
    exact hvalues d hd _ fun v hv => hp.everywhere_get? hgiven hv
  · exact hmembers m (List.mem_filter.mp hrest).1

/-- What holds everywhere in a default and in what is given for it holds everywhere in the value
that stands there. -/
theorem everywhere_mergeValue (hp : IsKeyed p) {default : Json} (hdefault : Everywhere p default)
    {given : Option Json} (hgiven : ∀ v, given = some v → Everywhere p v) :
    Everywhere p (mergeValue given default) := by
  induction hdefault generalizing given with
  | @intro v here inside ih =>
    cases v with
    | object members =>
      rw [mergeValue_object]
      refine everywhere_fill hp ?_ (hp.object.mp here) fun m hm given hgiven =>
        ih m.2 (List.mem_map_of_mem hm) hgiven
      cases given with
      | none => exact hp.everywhere_nil
      | some v =>
        cases v with
        | object members => exact hgiven _ rfl
        | _ => exact hp.everywhere_nil
    | list items =>
      have hdefault : Everywhere p (.list items) := .intro here inside
      cases given with
      | none => exact hdefault
      | some v =>
        cases v with
        | list items => exact hgiven _ rfl
        | _ => exact hdefault
    | _ =>
      cases given with
      | none => exact .intro here inside
      | some v => exact hgiven v rfl

theorem everywhere_merge (hp : IsKeyed p) (hdefaults : Everywhere p (.object defaults))
    {given : Members} (hgiven : Everywhere p (.object given)) :
    Everywhere p (.object (merge given)) := by
  obtain ⟨hkeys, hmembers⟩ := hp.everywhere_iff.mp hdefaults
  exact everywhere_fill hp hgiven hkeys fun m hm given h =>
    everywhere_mergeValue hp (hmembers m hm) h

end Everywhere

/-! ### The settings and their defaults -/

/-- The defaults of the section of the database. -/
def databaseDefaults : Members := [("path", .null), ("timeout_s", .real (.ofInt 5))]

theorem isRegular_defaults : Json.IsRegular (.object defaults) := by
  have hfive : Json.IsRegular (.real (.ofInt 5)) :=
    isRegular_of_flat rfl trivial readsBack_five trivial
  have hint {n : Int} (h : FitsWord n) : Json.IsRegular (.int n) :=
    isRegular_int (natAbs_lt_of_fitsWord h)
  have horigins :
      Json.IsRegular (.list [.text "http://localhost", .text "http://127.0.0.1"]) := by
    refine isRegular_list ?_
    simp only [List.mem_cons, List.not_mem_nil, or_false, forall_eq_or_imp, forall_eq]
    exact ⟨isRegular_text _, isRegular_text _⟩
  refine isRegular_object (by decide) ?_
  simp only [defaults, List.mem_cons, List.not_mem_nil, or_false, forall_eq_or_imp, forall_eq]
  refine ⟨⟨⟨_, rfl⟩, hint (by decide)⟩, ⟨⟨_, rfl⟩, isRegular_object (by decide) ?_⟩,
    ⟨⟨_, rfl⟩, isRegular_object (by decide) ?_⟩, ⟨_, rfl⟩, isRegular_object (by decide) ?_⟩ <;>
    simp only [List.mem_cons, List.not_mem_nil, or_false, forall_eq_or_imp, forall_eq]
  · exact ⟨⟨⟨_, rfl⟩, isRegular_null⟩, ⟨_, rfl⟩, hfive⟩
  · exact ⟨⟨⟨_, rfl⟩, isRegular_text _⟩, ⟨⟨_, rfl⟩, hint (by decide)⟩, ⟨_, rfl⟩, horigins⟩
  · exact ⟨⟨⟨_, rfl⟩, isRegular_text _⟩, ⟨_, rfl⟩, isRegular_bool _⟩

theorem merge_merge (given : Members) : merge (merge given) = merge given := by
  obtain ⟨hkeys, hvalues⟩ := isKeyed_isFormed.everywhere_iff.mp isRegular_defaults.formed
  exact fill_fill hkeys (fun m hm given => mergeValue_mergeValue (hvalues m hm) given) given

/-- In merged settings the section of the database is there, with its defaults. -/
theorem exists_database {settings : Members} (h : merge settings = settings) :
    ∃ database : Members, settings.get? "database" = some (.object database) ∧
      fill database databaseDefaults = database := by
  have hget := get?_fill settings defaults "database"
  have hdefault : defaults.get? "database" = some (.object databaseDefaults) := rfl
  rw [← merge_eq, h, hdefault, Option.map_some, mergeValue_object, Option.some_or] at hget
  obtain ⟨database, hdatabase⟩ : ∃ database, settings.get? "database" = some (.object database) :=
    ⟨_, hget⟩
  rw [hdatabase] at hget
  exact ⟨database, hdatabase, (Json.object.inj (Option.some.inj hget)).symm⟩

/-! ### The path of the database -/

section AdoptPath

variable {settings : Members}

/-- The path of the database moves, or nothing does. -/
theorem adoptPath_cases (settings : Members) : adoptPath settings = settings ∨
    ∃ path : LooseText, settings.get? "database_path" = some (.string path) ∧
      adoptPath settings = settings.put "database"
        (.object ((section? settings "database").put "path" (.string path))) := by
  unfold adoptPath
  dsimp only
  split
  · next path hpath =>
    split
    · exact .inr ⟨path, hpath, rfl⟩
    · exact .inl rfl
  · exact .inl rfl

theorem adoptPath_of_not_has (h : settings.has "database_path" = false) :
    adoptPath settings = settings := by
  rcases adoptPath_cases settings with hsame | ⟨path, hpath, -⟩
  · exact hsame
  · rw [Members.get?_of_not_has h] at hpath
    cases hpath

theorem get?_adoptPath {key : LooseText} (h : key ≠ "database") :
    (adoptPath settings).get? key = settings.get? key := by
  rcases adoptPath_cases settings with hsame | ⟨path, -, hput⟩
  · rw [hsame]
  · rw [hput, Members.get?_put, if_neg h]

variable {p : Json → Prop}

theorem everywhere_adoptPath (hp : IsKeyed p) (h : Everywhere p (.object settings)) :
    Everywhere p (.object (adoptPath settings)) := by
  rcases adoptPath_cases settings with hsame | ⟨path, hpath, hput⟩
  · rw [hsame]
    exact h
  · have hsection : Everywhere p (.object (section? settings "database")) := by
      unfold section?
      cases hget : settings.get? "database" with
      | none => exact hp.everywhere_nil
      | some v =>
        cases v with
        | object members => exact hp.everywhere_get? h hget
        | _ => exact hp.everywhere_nil
    rw [hput]
    exact hp.everywhere_put h (hp.everywhere_put hsection (hp.everywhere_get? h hpath))

theorem merge_adoptPath (hformed : Everywhere IsFormed (.object settings))
    (h : merge settings = settings) : merge (adoptPath settings) = adoptPath settings := by
  rcases adoptPath_cases settings with hsame | ⟨path, -, hput⟩
  · rw [hsame, h]
  · obtain ⟨database, hget, hfilled⟩ := exists_database h
    have hsection : section? settings "database" = database := by
      rw [section?, hget]
      rfl
    have hdatabase : database.keys.Nodup := (isKeyed_isFormed.everywhere_get? hformed hget).here
    have hpath : fill (database.put "path" (.string path)) databaseDefaults =
        database.put "path" (.string path) := by
      refine fill_put hdatabase hfilled fun v hv => ?_
      obtain rfl : Json.null = v := Option.some.inj hv
      rfl
    rw [hput, hsection, merge_eq]
    refine fill_put hformed.here h fun v hv => ?_
    obtain rfl : Json.object databaseDefaults = v := Option.some.inj hv
    rw [mergeValue_object]
    exact congrArg Json.object hpath

end AdoptPath

/-! ### Versions -/

theorem version_put_current (settings : Members) :
    version (settings.put "version" (.int currentVersion)) = .ok currentVersion := by
  rw [version, Members.get?_put, if_pos rfl]
  rfl

theorem version_congr {a b : Members} (h : a.get? "version" = b.get? "version") :
    version a = version b := by
  rw [version, version, h]

/-- The settings give a version that is no infinite number. -/
def HasFiniteVersion (settings : Members) : Prop :=
  ∀ x, settings.get? "version" = some (.real x) → x.isInfinite = false

theorem exists_version {settings : Members} (h : HasFiniteVersion settings) :
    ∃ v, version settings = .ok v := by
  have hfinite : ((settings.get? "version").getD .null).toInteger ≠ .error .infinite := by
    intro hinfinite
    obtain ⟨x, hx, hxi⟩ := toInteger_eq_infinite_iff.mp hinfinite
    have hget : settings.get? "version" = some (.real x) := by
      cases hget : settings.get? "version" with
      | none =>
        rw [hget] at hx
        cases hx
      | some v =>
        rw [hget] at hx
        exact congrArg some hx
    rw [h x hget] at hxi
    cases hxi
  unfold version
  split
  · exact ⟨_, rfl⟩
  · next hinfinite => exact absurd hinfinite hfinite
  · exact ⟨0, rfl⟩

/-! ### Normal settings -/

/-- Settings that stay as they are. -/
structure IsNormal (settings : Members) : Prop where
  merged : merge settings = settings
  moved : settings.has "database_path" = false
  current : ∃ v, version settings = .ok v ∧ currentVersion ≤ v
  workingDir : settings.has workingDirKey = true

theorem IsNormal.normalise {settings : Members} (h : IsNormal settings) (dir : String) :
    normalise settings dir = .ok settings := by
  obtain ⟨v, hv, hcurrent⟩ := h.current
  have hmigrate : migrate settings = .ok settings := by
    rw [migrate, adoptPath_of_not_has h.moved, Members.erase_of_not_has h.moved, hv]
    show (if v < currentVersion then _ else _) = _
    rw [if_neg (Int.not_lt.mpr hcurrent)]
    rfl
  rw [Settings.normalise, h.merged, hmigrate]
  show Except.ok (withWorkingDir settings dir) = _
  rw [withWorkingDir, if_pos h.workingDir]

/-- What bringing settings up to date leaves: the present version, or one that is not older. -/
theorem migrate_eq_ok {settings migrated : Members} (h : migrate settings = .ok migrated) :
    ∃ v, version ((adoptPath settings).erase "database_path") = .ok v ∧
      migrated = if v < currentVersion then
          ((adoptPath settings).erase "database_path").put "version" (.int currentVersion)
        else (adoptPath settings).erase "database_path" := by
  unfold migrate at h
  dsimp only at h
  cases hversion : version ((adoptPath settings).erase "database_path") with
  | error e =>
    rw [hversion] at h
    cases h
  | ok v =>
    rw [hversion] at h
    refine ⟨v, rfl, ?_⟩
    change (if v < currentVersion then _ else _) = _ at h
    split at h <;> cases h <;> simp_all

theorem normalise_eq_ok {given n : Members} {dir : String} (h : normalise given dir = .ok n) :
    ∃ migrated, migrate (merge given) = .ok migrated ∧ n = withWorkingDir migrated dir := by
  unfold normalise at h
  cases hmigrate : migrate (merge given) with
  | error e =>
    rw [hmigrate] at h
    cases h
  | ok migrated =>
    rw [hmigrate] at h
    cases h
    exact ⟨migrated, rfl, rfl⟩

section Normalise

variable {given n : Members} {dir : String}

theorem everywhere_currentVersion {p : Json → Prop} (hp : IsKeyed p)
    (hdefaults : Everywhere p (.object defaults)) : Everywhere p (.int currentVersion) := by
  have hget : defaults.get? "version" = some (.int currentVersion) := rfl
  exact hp.everywhere_get? hdefaults hget

/-- What holds everywhere in the defaults and in given settings holds in normal settings. -/
theorem everywhere_normalise {p : Json → Prop} (hp : IsKeyed p) (htext : ∀ s, p (.text s))
    (hdefaults : Everywhere p (.object defaults)) (hgiven : Everywhere p (.object given))
    (h : normalise given dir = .ok n) : Everywhere p (.object n) := by
  have hversion := everywhere_currentVersion hp hdefaults
  obtain ⟨migrated, hmigrate, rfl⟩ := normalise_eq_ok h
  have herased : Everywhere p (.object ((adoptPath (merge given)).erase "database_path")) :=
    hp.everywhere_erase (everywhere_adoptPath hp (everywhere_merge hp hdefaults hgiven))
  have hmigrated : Everywhere p (.object migrated) := by
    obtain ⟨v, -, rfl⟩ := migrate_eq_ok hmigrate
    split
    · exact hp.everywhere_put herased hversion
    · exact herased
  unfold withWorkingDir
  split
  · exact hmigrated
  · exact hp.everywhere_put hmigrated (everywhere_of_flat rfl (htext dir))

/-- Settings that were brought up to date, before they get their working directory. -/
structure IsMigrated (settings : Members) : Prop where
  formed : Everywhere IsFormed (.object settings)
  merged : merge settings = settings
  moved : settings.has "database_path" = false
  current : ∃ v, version settings = .ok v ∧ currentVersion ≤ v

theorem IsMigrated.withWorkingDir (h : IsMigrated given) (dir : String) :
    IsNormal (withWorkingDir given dir) := by
  unfold Settings.withWorkingDir
  split
  · next hhas => exact ⟨h.merged, h.moved, h.current, hhas⟩
  · next hhas =>
    have hhas : given.has workingDirKey = false := by simpa using hhas
    have hget (key : LooseText) (hkey : key ≠ workingDirKey) :
        (given.put workingDirKey (.text dir)).get? key = given.get? key := by
      rw [Members.get?_put, if_neg hkey]
    refine ⟨fill_put h.formed.here h.merged fun v hv => ?_, ?_, ?_, ?_⟩
    · cases hv
    · rw [Members.has_eq_false_iff, ← Members.get?_eq_none_iff, hget _ (by decide)]
      exact Members.get?_of_not_has h.moved
    · rw [version_congr (hget "version" (by decide))]
      exact h.current
    · rw [Members.has_iff, Members.keys_put, hhas]
      simp

theorem isMigrated_migrate (hgiven : Everywhere IsFormed (.object given))
    (hmerged : merge given = given) (h : migrate given = .ok n) : IsMigrated n := by
  obtain ⟨v, hv, rfl⟩ := migrate_eq_ok h
  have hadopted := everywhere_adoptPath isKeyed_isFormed hgiven
  have herased : Everywhere IsFormed (.object ((adoptPath given).erase "database_path")) :=
    isKeyed_isFormed.everywhere_erase hadopted
  have hfilled : fill ((adoptPath given).erase "database_path") defaults =
      (adoptPath given).erase "database_path" :=
    fill_erase hadopted.here (merge_adoptPath hgiven hmerged) rfl
  have hmoved : ((adoptPath given).erase "database_path").get? "database_path" = none := by
    rw [Members.get?_erase, if_pos rfl]
  split
  · have hversion := everywhere_currentVersion isKeyed_isFormed isRegular_defaults.formed
    refine ⟨isKeyed_isFormed.everywhere_put herased hversion,
      fill_put herased.here hfilled fun v hv => ?_, ?_, _, version_put_current _, le_rfl⟩
    · obtain rfl : Json.int currentVersion = v := Option.some.inj hv
      rfl
    · rw [Members.has_eq_false_iff, ← Members.get?_eq_none_iff, Members.get?_put,
        if_neg (by decide), hmoved]
  · next hcurrent =>
    exact ⟨herased, hfilled, Members.has_eq_false_iff.mpr (Members.get?_eq_none_iff.mp hmoved), v,
      hv, Int.not_lt.mp hcurrent⟩

/-- Settings are brought into the normal form, in which they stay. -/
theorem isNormal_normalise (hgiven : Everywhere IsFormed (.object given))
    (h : normalise given dir = .ok n) : IsNormal n := by
  obtain ⟨migrated, hmigrate, rfl⟩ := normalise_eq_ok h
  have hmerged := everywhere_merge isKeyed_isFormed isRegular_defaults.formed hgiven
  exact (isMigrated_migrate hmerged (merge_merge given) hmigrate).withWorkingDir dir

/-- When the version is looked at, the given one or its default is there. -/
theorem get?_version (given : Members) :
    ((adoptPath (merge given)).erase "database_path").get? "version" =
      some ((given.get? "version").getD (.int currentVersion)) := by
  rw [Members.get?_erase, if_neg (by decide), get?_adoptPath (by decide), merge_eq, get?_fill]
  rfl

/-- Settings with a version that is no infinite number are brought into the normal form. -/
theorem exists_normalise (h : HasFiniteVersion given) (dir : String) :
    ∃ n, normalise given dir = .ok n := by
  have hfinite : HasFiniteVersion ((adoptPath (merge given)).erase "database_path") := by
    intro x hx
    rw [get?_version] at hx
    cases hversion : given.get? "version" with
    | none =>
      rw [hversion] at hx
      cases hx
    | some v =>
      rw [hversion] at hx
      exact h x (hversion.trans hx)
  obtain ⟨v, hv⟩ := exists_version hfinite
  obtain ⟨migrated, hmigrated⟩ : ∃ migrated, migrate (merge given) = .ok migrated := by
    unfold migrate
    dsimp only
    rw [hv]
    by_cases hcurrent : v < currentVersion
    · exact ⟨_, if_pos hcurrent⟩
    · exact ⟨_, if_neg hcurrent⟩
  exact ⟨_, by rw [normalise, hmigrated]; rfl⟩

end Normalise

end Catalogue.Settings
