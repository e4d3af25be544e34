import Catalogue.Json.Basic
import Mathlib.Data.List.Basic

/-! Members of objects: the keys, and what stands under each, after a change. -/

namespace Catalogue.Members

open Text

/-- The keys of an object, in order. -/
def keys (members : Members) : List LooseText := members.map (·.1)

theorem has_iff {members : Members} {key : LooseText} :
    members.has key = true ↔ key ∈ members.keys := by
  simp [has, keys]

theorem put_of_not_has {members : Members} {key : LooseText} (h : members.has key = false)
    (value : Json) : members.put key value = members ++ [(key, value)] := by
  rw [put, if_neg (by simp [h])]

theorem has_eq_false_iff {members : Members} {key : LooseText} :
    members.has key = false ↔ key ∉ members.keys := by
  rw [← Bool.not_eq_true, has_iff]

theorem get?_nil (key : LooseText) : get? [] key = none := rfl

theorem get?_cons (m : LooseText × Json) (members : Members) (key : LooseText) :
    get? (m :: members) key = if key = m.1 then some m.2 else get? members key := by
  rw [get?, List.lookup_cons]
  by_cases h : key = m.1
  · simp [h]
  · rw [if_neg h, beq_eq_false_iff_ne.mpr h]
    rfl

theorem get?_append (a b : Members) (key : LooseText) :
    get? (a ++ b) key = (a.get? key).or (b.get? key) := List.lookup_append

theorem mem_of_get? {members : Members} {key : LooseText} {value : Json}
    (h : members.get? key = some value) : (key, value) ∈ members := by
  induction members with
  | nil => cases h
  | cons m members ih =>
    rw [get?_cons] at h
    split at h
    · next he =>
      cases h
      rw [he]
      exact List.mem_cons_self ..
    · exact List.mem_cons_of_mem _ (ih h)

theorem get?_eq_none_iff {members : Members} {key : LooseText} :
    members.get? key = none ↔ key ∉ members.keys := by
  induction members with
  | nil => simp [get?_nil, keys]
  | cons m members ih =>
    rw [get?_cons]
    by_cases h : key = m.1
    · simp [keys, h]
    · rw [if_neg h, ih]
      simp [keys, h]

theorem get?_of_not_has {members : Members} {key : LooseText} (h : members.has key = false) :
    members.get? key = none := get?_eq_none_iff.mpr (has_eq_false_iff.mp h)

/-- Where no key stands twice, a member stands under its key. -/
theorem get?_of_mem {members : Members} (hkeys : members.keys.Nodup) {m : LooseText × Json}
    (hm : m ∈ members) : members.get? m.1 = some m.2 := by
  induction members with
  | nil => cases hm
  | cons first members ih =>
    rw [keys, List.map_cons, List.nodup_cons] at hkeys
    rw [get?_cons]
    rcases List.mem_cons.mp hm with rfl | hm
    · rw [if_pos rfl]
    · have hne : m.1 ≠ first.1 := fun he => hkeys.1 (he ▸ List.mem_map_of_mem hm)
      rw [if_neg hne, ih hkeys.2 hm]

theorem get?_eq_some_iff {members : Members} (hkeys : members.keys.Nodup) {key : LooseText}
    {value : Json} : members.get? key = some value ↔ (key, value) ∈ members :=
  ⟨mem_of_get?, fun hm => get?_of_mem hkeys hm⟩

/-- Objects with the same keys in the same order, and the same under each, are the same. -/
theorem eq_of_keys {a b : Members} (hkeys : a.keys = b.keys) (hnodup : b.keys.Nodup)
    (hget : ∀ key, a.get? key = b.get? key) : a = b := by
  have hnodup' : a.keys.Nodup := hkeys ▸ hnodup
  have hlength : a.length = b.length := by simpa [keys] using congrArg List.length hkeys
  refine List.ext_getElem hlength fun i ha hb => ?_
  have hkey : a[i].1 = b[i].1 := by
    have := congrArg (·[i]?) hkeys
    simpa [keys, ha, hb] using this
  have hvalue := hget a[i].1
  rw [get?_of_mem hnodup' (List.getElem_mem ha), hkey,
    get?_of_mem hnodup (List.getElem_mem hb)] at hvalue
  exact Prod.ext hkey (Option.some.inj hvalue)

/-! ### Setting and taking away -/

theorem keys_put (members : Members) (key : LooseText) (value : Json) :
    (members.put key value).keys =
      if members.has key then members.keys else members.keys ++ [key] := by
  unfold put
  split
  · rw [keys, List.map_map]
    refine List.map_congr_left fun m _ => ?_
    rw [Function.comp_apply]
    split <;> rfl
  · rw [keys, List.map_append]
    rfl

theorem nodup_keys_put {members : Members} (h : members.keys.Nodup) (key : LooseText)
    (value : Json) : (members.put key value).keys.Nodup := by
  rw [keys_put]
  split
  · exact h
  · next hhas =>
    rw [has_iff] at hhas
    exact List.nodup_append.mpr ⟨h, by simp, fun a ha b hb he => hhas (by simp_all)⟩

theorem mem_put {members : Members} {key : LooseText} {value : Json} {m : LooseText × Json}
    (h : m ∈ members.put key value) : m ∈ members ∨ m = (key, value) := by
  unfold put at h
  split at h
  · obtain ⟨old, hold, rfl⟩ := List.mem_map.mp h
    by_cases he : old.1 = key
    · exact .inr (by simp [he])
    · exact .inl (by simpa [he] using hold)
  · simpa using h

theorem get?_map_replace (members : Members) (key : LooseText) (value : Json)
    (other : LooseText) :
    get? (members.map fun m => if m.1 == key then (m.1, value) else m) other =
      if other = key then (members.get? key).map fun _ => value else members.get? other := by
  induction members with
  | nil => simp [get?_nil]
  | cons m members ih =>
    rw [List.map_cons, get?_cons, get?_cons, get?_cons, ih]
    by_cases hm : m.1 = key
    · by_cases ho : other = key <;> simp [hm, ho]
    · by_cases ho : other = key
      · simp [ho, hm, Ne.symm hm]
      · simp [ho, hm]

theorem get?_put (members : Members) (key : LooseText) (value : Json) (other : LooseText) :
    (members.put key value).get? other =
      if other = key then some value else members.get? other := by
  unfold put
  split
  · next hhas =>
    obtain ⟨old, hold⟩ := Option.ne_none_iff_exists'.mp
      (mt get?_eq_none_iff.mp (not_not.mpr (has_iff.mp hhas)))
    rw [get?_map_replace, hold]
    rfl
  · next hhas =>
    rw [get?_append, get?_cons, get?_nil]
    by_cases ho : other = key
    · rw [ho, get?_of_not_has (Bool.not_eq_true _ ▸ hhas)]
      simp
    · rw [if_neg ho, if_neg ho, Option.or_none]

theorem keys_erase (members : Members) (key : LooseText) :
    (members.erase key).keys = members.keys.filter (· != key) := by
  rw [keys, erase, keys, List.filter_map]
  rfl

theorem get?_filter (members : Members) (kept : LooseText → Bool) (key : LooseText) :
    get? (members.filter fun m => kept m.1) key = if kept key then members.get? key else none := by
  induction members with
  | nil => simp [get?_nil]
  | cons m members ih =>
    rw [List.filter_cons, get?_cons]
    by_cases hm : kept m.1 = true
    · rw [if_pos hm, get?_cons, ih]
      by_cases hk : key = m.1
      · simp [hk, hm]
      · simp [hk]
    · rw [if_neg hm, ih]
      by_cases hk : key = m.1
      · simp [hk, hm]
      · simp [hk]

theorem get?_erase (members : Members) (key other : LooseText) :
    (members.erase key).get? other = if other = key then none else members.get? other := by
  have h := get?_filter members (· != key) other
  rw [erase, h]
  by_cases ho : other = key <;> simp [ho]

theorem erase_of_not_has {members : Members} {key : LooseText} (h : members.has key = false) :
    members.erase key = members := by
  rw [has_eq_false_iff] at h
  refine List.filter_eq_self.mpr fun m hm => ?_
  have hne : m.1 ≠ key := fun he => h (he ▸ List.mem_map_of_mem hm)
  simpa using hne

/-! ### Setting many -/

theorem putAll_cons (members : Members) (m : LooseText × Json) (others : Members) :
    members.putAll (m :: others) = (members.put m.1 m.2).putAll others := rfl

theorem get?_putAll (members : Members) {others : Members} (h : others.keys.Nodup)
    (key : LooseText) :
    (members.putAll others).get? key = (others.get? key).or (members.get? key) := by
  induction others generalizing members with
  | nil => rfl
  | cons m others ih =>
    rw [keys, List.map_cons, List.nodup_cons] at h
    rw [putAll_cons, ih _ h.2, get?_put, get?_cons]
    by_cases hk : key = m.1
    · have hnone : get? others key = none := get?_eq_none_iff.mpr (hk ▸ h.1)
      rw [hnone, if_pos hk, if_pos hk]
      rfl
    · rw [if_neg hk, if_neg hk]

/-- New keys come after the old ones, which keep their places. -/
theorem keys_putAll (members : Members) {others : Members} (h : others.keys.Nodup) :
    (members.putAll others).keys =
      members.keys ++ others.keys.filter fun key => !members.has key := by
  induction others generalizing members with
  | nil => simp [putAll, keys]
  | cons m others ih =>
    rw [keys, List.map_cons, List.nodup_cons] at h
    have hsame : (keys others).filter (fun key => !(members.put m.1 m.2).has key) =
        (keys others).filter fun key => !members.has key := by
      refine List.filter_congr fun key hkey => ?_
      have hne : key ≠ m.1 := fun he => h.1 (he ▸ hkey)
      rw [Bool.eq_iff_iff, Bool.not_eq_true', Bool.not_eq_true', has_eq_false_iff,
        has_eq_false_iff, keys_put]
      split <;> simp [hne]
    have hkeys : keys (m :: others) = m.1 :: keys others := rfl
    rw [putAll_cons, ih _ h.2, hsame, keys_put, hkeys, List.filter_cons]
    cases members.has m.1 <;> simp

end Catalogue.Members
