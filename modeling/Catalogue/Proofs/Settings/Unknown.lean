import Catalogue.Proofs.Settings.Defaults
import Catalogue.Proofs.Text.Order
import Catalogue.Settings.Schema
import Mathlib.Data.List.Nodup
import Mathlib.Data.List.Perm.Basic

/-! The unknown keys of settings, before and after they are merged with the defaults.  Every default
is covered by a rule, so that merging reports no key of a default; and what it replaces has no keys
to report. -/

namespace Catalogue.Settings

open Text

/-! ### Unknown keys -/

/-- The paths of the unknown keys at one member of an object. -/
def unknownAt (path : String) (rules : Schema) (key : LooseText) (value : Json) : List LooseText :=
  match ruleFor? rules key with
  | none => [key.prepend path]
  | some (name, rule) => unknownIn (path ++ name ++ ".") rule value

theorem unknownFrom_eq_flatMap (path : String) (rules : Schema) (members : Members) :
    unknownFrom path rules members =
      members.flatMap fun m => unknownAt path rules m.1 m.2 := by
  induction members with
  | nil => rw [unknownFrom, List.flatMap_nil]
  | cons m members ih =>
    rw [unknownFrom, ih, List.flatMap_cons]
    rfl

theorem unknownIn_anything (path : String) (value : Json) :
    unknownIn path .anything value = [] := by
  cases value <;> simp [unknownIn]

/-- A key is one of some names. -/
def isNamed (names : List String) (key : LooseText) : Bool :=
  names.any fun name => .sound name == key

theorem isNamed_iff {names : List String} {key : LooseText} :
    isNamed names key = true ↔ key ∈ names.map LooseText.sound := by
  simp [isNamed]

theorem unknownIn_keys (path : String) (allowed : List String) (value : Json) :
    unknownIn path (.keys allowed) value =
      ((Members.keys (value.members?.getD [])).filter fun key => !isNamed allowed key).map
        (LooseText.prepend path) := by
  cases value with
  | object members =>
    rw [unknownIn, Json.members?, Option.getD_some, Members.keys, List.filter_map, List.map_map]
    rfl
  | _ => simp [unknownIn, Json.members?, Members.keys]

/-! ### Rules and defaults -/

/-- A rule allows a default with all its members. -/
def Rule.covers (rule : Rule) (default : Json) : Bool :=
  match rule, default with
  | .anything, _ => true
  | .keys allowed, .object members => (Members.keys members).all (isNamed allowed)
  | _, _ => false

/-- Every default has a rule that covers it. -/
def covers (rules : Schema) (default : Members) : Bool :=
  default.all fun m =>
    match ruleFor? rules m.1 with
    | none => false
    | some (_, rule) => rule.covers m.2

theorem covers_defaults : covers schema defaults = true := by decide

/-- In the place of a default that a rule covers, the unknown keys are those of the given value. -/
theorem unknownIn_mergeValue {rule : Rule} {default : Json} (h : rule.covers default = true)
    (path : String) (given : Option Json) :
    unknownIn path rule (mergeValue given default) = given.elim [] (unknownIn path rule) := by
  cases rule with
  | anything => cases given <;> simp [unknownIn_anything]
  | nested rules => cases h
  | keys allowed =>
    cases default with
    | object members =>
      have hallowed : ∀ key ∈ Members.keys members, isNamed allowed key = true :=
        List.all_eq_true.mp h
      have hdefaults : (Members.keys members).filter (fun key => !isNamed allowed key) = [] := by
        rw [List.filter_eq_nil_iff]
        intro key hkey
        simp [hallowed key hkey]
      have hothers (keys : List LooseText) :
          (keys.filter fun key => !Members.has members key).filter
              (fun key => !isNamed allowed key) =
            keys.filter fun key => !isNamed allowed key := by
        rw [List.filter_filter]
        refine List.filter_congr fun key _ => ?_
        cases hhas : Members.has members key with
        | false => simp
        | true => simp [hallowed key (Members.has_iff.mp hhas)]
      rw [mergeValue_object, unknownIn_keys, Json.members?, Option.getD_some, keys_fill,
        List.filter_append, hdefaults, hothers, List.nil_append]
      cases given with
      | none => rfl
      | some value => rw [Option.elim_some, unknownIn_keys, Option.bind_some]
    | _ => cases h

theorem unknownAt_mergeValue {rules : Schema} {default : Members}
    (h : covers rules default = true) {m : LooseText × Json} (hm : m ∈ default) (path : String)
    (given : Option Json) : unknownAt path rules m.1 (mergeValue given m.2) =
      given.elim [] (unknownAt path rules m.1) := by
  have hrule := List.all_eq_true.mp h m hm
  unfold unknownAt
  cases hfor : ruleFor? rules m.1 with
  | none =>
    rw [hfor] at hrule
    cases hrule
  | some found =>
    rw [hfor] at hrule
    exact unknownIn_mergeValue hrule _ given

/-! ### Merging -/

section Merging

variable {given default : Members}

/-- The given members that have a default, in the order of the defaults. -/
def inPlace (given default : Members) : Members :=
  default.keys.filterMap fun key => (given.get? key).map fun value => (key, value)

theorem inPlace_perm (hgiven : given.keys.Nodup) (hdefault : default.keys.Nodup) :
    (inPlace given default).Perm (given.filter fun m => default.has m.1) := by
  have hnodup : (inPlace given default).Nodup := by
    refine List.Nodup.filterMap (fun a b m ha hb => ?_) hdefault
    obtain ⟨_, -, rfl⟩ := Option.map_eq_some_iff.mp ha
    obtain ⟨_, -, he⟩ := Option.map_eq_some_iff.mp hb
    exact (congrArg Prod.fst he).symm
  have hnodup' : given.Nodup := List.Nodup.of_map _ hgiven
  refine (List.perm_ext_iff_of_nodup hnodup (hnodup'.filter _)).mpr fun m => ?_
  rw [inPlace, List.mem_filterMap, List.mem_filter, Members.has_iff]
  constructor
  · rintro ⟨key, hkey, hm⟩
    obtain ⟨value, hvalue, rfl⟩ := Option.map_eq_some_iff.mp hm
    exact ⟨Members.mem_of_get? hvalue, hkey⟩
  · rintro ⟨hm, hkey⟩
    refine ⟨m.1, hkey, ?_⟩
    rw [Members.get?_of_mem hgiven hm]
    rfl

/-- Filling a section with its defaults leaves its unknown keys, apart from their order. -/
theorem unknownFrom_fill {rules : Schema} (hcovers : covers rules default = true)
    (hgiven : given.keys.Nodup) (hdefault : default.keys.Nodup) (path : String) :
    (unknownFrom path rules (fill given default)).Perm (unknownFrom path rules given) := by
  have hplaces : (mergeMembers given default).flatMap (fun m => unknownAt path rules m.1 m.2) =
      (inPlace given default).flatMap fun m => unknownAt path rules m.1 m.2 := by
    rw [mergeMembers_eq_map, List.flatMap_map, inPlace, List.filterMap_eq_flatMap_toList,
      List.flatMap_assoc, Members.keys, List.flatMap_map]
    refine List.flatMap_congr fun m hm => ?_
    rw [unknownAt_mergeValue hcovers hm]
    cases given.get? m.1 <;> simp
  rw [unknownFrom_eq_flatMap, unknownFrom_eq_flatMap, fill, List.flatMap_append, hplaces,
    ← List.flatMap_append]
  refine List.Perm.flatMap_right _ ?_
  exact ((inPlace_perm hgiven hdefault).append_right _).trans
    (List.filter_append_perm (fun m => default.has m.1) given)

end Merging

/-! ### Known keys -/

theorem unknownIn_keys_eq_nil {path : String} {allowed : List String} {value : Json} :
    unknownIn path (.keys allowed) value = [] ↔ ∀ members : Members, value = .object members →
      ∀ key ∈ members.keys, key ∈ allowed.map LooseText.sound := by
  rw [unknownIn_keys, List.map_eq_nil_iff, List.filter_eq_nil_iff]
  constructor
  · rintro h members rfl key hkey
    have hnamed := h key hkey
    rw [Bool.not_eq_true, Bool.not_eq_false'] at hnamed
    exact isNamed_iff.mp hnamed
  · intro h key hkey
    cases value with
    | object members =>
      rw [Bool.not_eq_true, Bool.not_eq_false']
      exact isNamed_iff.mpr (h members rfl key hkey)
    | _ => cases hkey

/-- The rules of a schema without rules for the members of sections' members. -/
def IsFlat (rules : Schema) : Prop :=
  (rules.map Prod.fst).Nodup ∧ ∀ r ∈ rules, r.2 = .anything ∨ ∃ allowed, r.2 = .keys allowed

theorem isFlat_schema : IsFlat schema := by
  refine ⟨by decide, ?_⟩
  simp [schema]

section Flat

variable {rules : Schema}

theorem ruleFor?_eq_some_iff (h : IsFlat rules) {key : LooseText} {r : String × Rule} :
    ruleFor? rules key = some r ↔ r ∈ rules ∧ .sound r.1 = key := by
  constructor
  · intro hfor
    have hname := List.find?_some hfor
    exact ⟨List.mem_of_find?_eq_some hfor, eq_of_beq hname⟩
  · rintro ⟨hmem, rfl⟩
    cases hfor : ruleFor? rules (.sound r.1) with
    | none =>
      have hother := List.find?_eq_none.mp hfor r hmem
      simp at hother
    | some found =>
      have hfound := List.find?_some hfor
      have hname : LooseText.sound found.1 = .sound r.1 := eq_of_beq hfound
      have hsame := List.inj_on_of_nodup_map h.1 (List.mem_of_find?_eq_some hfor) hmem
        (LooseText.sound.inj hname)
      rw [hsame]

/-- Nothing is unknown at a key that has a rule, where the rule allows all keys of its value. -/
theorem unknownAt_eq_nil_iff (h : IsFlat rules) {path : String} {key : LooseText} {value : Json} :
    unknownAt path rules key value = [] ↔ key ∈ rules.map (fun r => .sound r.1) ∧
      ∀ name allowed, (name, .keys allowed) ∈ rules → .sound name = key →
        ∀ members : Members, value = .object members →
          ∀ inner ∈ members.keys, inner ∈ allowed.map LooseText.sound := by
  unfold unknownAt
  cases hfor : ruleFor? rules key with
  | none =>
    have hkey : key ∉ rules.map fun r => LooseText.sound r.1 := by
      intro hmem
      obtain ⟨r, hr, hname⟩ := List.mem_map.mp hmem
      rw [(ruleFor?_eq_some_iff h).mpr ⟨hr, hname⟩] at hfor
      cases hfor
    simp [hkey]
  | some r =>
    obtain ⟨hr, hname⟩ := (ruleFor?_eq_some_iff h).mp hfor
    have hkey : key ∈ rules.map fun r => LooseText.sound r.1 := List.mem_map.mpr ⟨r, hr, hname⟩
    rw [and_iff_right hkey]
    have hunique {name : String} {rule : Rule} (hmem : (name, rule) ∈ rules)
        (he : LooseText.sound name = key) : r = (name, rule) := by
      have hother := (ruleFor?_eq_some_iff h).mpr ⟨hmem, he⟩
      exact Option.some.inj (hfor.symm.trans hother)
    obtain ⟨name, rule⟩ := r
    rcases h.2 _ hr with hrule | ⟨allowed, hrule⟩ <;> cases hrule
    · refine ⟨fun _ name' allowed hmem he => ?_, fun _ => unknownIn_anything _ value⟩
      cases hunique hmem he
    · refine unknownIn_keys_eq_nil.trans ⟨fun hallowed name' allowed' hmem he => ?_, fun hall => ?_⟩
      · cases hunique hmem he
        exact hallowed
      · exact hall name allowed hr hname

end Flat

/-- Merging neither adds to the unknown keys of settings nor hides one: the sorted list stays as it
is, whatever shapes the sections have.  It is empty where every key of the settings has a rule and
every key of a section is one that the rule of the section allows. -/
theorem unknownKeys_merge {given : Members} (h : given.keys.Nodup) :
    unknownKeys schema (merge given) = unknownKeys schema given ∧
    (unknownKeys schema given).Pairwise (fun a b => a.le b = true) ∧
    (unknownKeys schema given = [] ↔
      (∀ key ∈ given.keys, key ∈ schema.map fun r => LooseText.sound r.1) ∧
      ∀ name allowed, (name, .keys allowed) ∈ schema →
        ∀ members : Members, given.get? name = some (.object members) →
          ∀ key ∈ members.keys, key ∈ allowed.map LooseText.sound) := by
  have hdefaults : defaults.keys.Nodup := by decide
  refine ⟨?_, LooseText.pairwise_mergeSort_le _, ?_⟩
  · exact LooseText.mergeSort_le_congr (unknownFrom_fill covers_defaults h hdefaults "")
  · have hempty : unknownKeys schema given = [] ↔ unknownFrom "" schema given = [] := by
      rw [← List.length_eq_zero_iff, ← List.length_eq_zero_iff, unknownKeys, List.length_mergeSort]
    rw [hempty, unknownFrom_eq_flatMap, List.flatMap_eq_nil_iff]
    simp only [unknownAt_eq_nil_iff isFlat_schema]
    constructor
    · intro hall
      refine ⟨fun key hkey => ?_, fun name allowed hrule members hget => ?_⟩
      · obtain ⟨m, hm, rfl⟩ := List.mem_map.mp hkey
        exact (hall m hm).1
      · exact (hall _ (Members.mem_of_get? hget)).2 name allowed hrule rfl members rfl
    · rintro ⟨htop, hsections⟩ m hm
      refine ⟨htop m.1 (List.mem_map_of_mem hm), fun name allowed hrule hname members hvalue => ?_⟩
      refine hsections name allowed hrule members ?_
      rw [hname, Members.get?_of_mem h hm, hvalue]

/-- A section that is no object hides no key, and a key with a dot is reported as it is. -/
theorem unknownKeys_merge_sample :
    let given : Members :=
      [("logging.level", .text "DEBUG"), ("database", .text "archive.db"),
        ("api", .object [("port", .int 80), ("prot", .int 81)])]
    given.keys.Nodup ∧ unknownKeys schema (merge given) = unknownKeys schema given ∧
      unknownKeys schema given = [.sound "api.prot", .sound "logging.level"] := by
  intro given
  have h : given.keys.Nodup := by decide
  have hfound : unknownFrom "" schema given = [.sound "logging.level", .sound "api.prot"] := rfl
  refine ⟨h, (unknownKeys_merge h).1, ?_⟩
  rw [unknownKeys, hfound, LooseText.mergeSort_le_congr (.swap ..)]
  exact List.mergeSort_of_pairwise (by decide)

end Catalogue.Settings
