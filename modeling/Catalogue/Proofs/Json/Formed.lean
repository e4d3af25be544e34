import Catalogue.Proofs.Json.RoundTrip

/-! What is formed stays formed.  Every value that is read is formed: an object has no key twice,
for of two members with one name the last counts, and a whole number has no more digits than a
numeral may have.  A member that is set or taken away leaves an object formed. -/

namespace Catalogue.Json

open Number Text

/-! ### Objects -/

/-- Of an object, a property says that no key stands twice. -/
structure IsKeyed (p : Json → Prop) : Prop where
  object {members : Members} : p (.object members) ↔ members.keys.Nodup

theorem isKeyed_isFormed : IsKeyed IsFormed := ⟨Iff.rfl⟩

theorem isKeyed_and_hasText : IsKeyed fun v => IsFormed v ∧ HasText v :=
  ⟨⟨fun h => h.1, fun h => ⟨h, trivial⟩⟩⟩

namespace IsKeyed

variable {p : Json → Prop} {members others : Members} {key : LooseText} {value : Json}

theorem everywhere_iff (hp : IsKeyed p) : Everywhere p (.object members) ↔
    members.keys.Nodup ∧ ∀ m ∈ members, Everywhere p m.2 := by
  constructor
  · intro h
    exact ⟨hp.object.mp h.here, fun m hm => h.inside m.2 (List.mem_map_of_mem hm)⟩
  · rintro ⟨hkeys, hmembers⟩
    refine .intro (hp.object.mpr hkeys) fun w hw => ?_
    obtain ⟨m, hm, rfl⟩ := List.mem_map.mp hw
    exact hmembers m hm

theorem everywhere_nil (hp : IsKeyed p) : Everywhere p (.object []) :=
  hp.everywhere_iff.mpr ⟨by simp [Members.keys], by simp⟩

theorem everywhere_get? (hp : IsKeyed p) (h : Everywhere p (.object members))
    (hget : members.get? key = some value) : Everywhere p value :=
  (hp.everywhere_iff.mp h).2 _ (Members.mem_of_get? hget)

theorem everywhere_put (hp : IsKeyed p) (h : Everywhere p (.object members))
    (hvalue : Everywhere p value) : Everywhere p (.object (members.put key value)) := by
  obtain ⟨hkeys, hmembers⟩ := hp.everywhere_iff.mp h
  refine hp.everywhere_iff.mpr ⟨Members.nodup_keys_put hkeys key value, fun m hm => ?_⟩
  rcases Members.mem_put hm with hold | rfl
  · exact hmembers m hold
  · exact hvalue

theorem everywhere_erase (hp : IsKeyed p) (h : Everywhere p (.object members)) :
    Everywhere p (.object (members.erase key)) := by
  obtain ⟨hkeys, hmembers⟩ := hp.everywhere_iff.mp h
  refine hp.everywhere_iff.mpr ⟨?_, fun m hm => hmembers m (List.mem_filter.mp hm).1⟩
  rw [Members.keys_erase]
  exact hkeys.filter _

theorem everywhere_putAll (hp : IsKeyed p) (h : Everywhere p (.object members))
    (hothers : Everywhere p (.object others)) :
    Everywhere p (.object (members.putAll others)) := by
  have hvalues := (hp.everywhere_iff.mp hothers).2
  clear hothers
  induction others generalizing members with
  | nil => exact h
  | cons m others ih =>
    rw [Members.putAll_cons]
    exact ih (hp.everywhere_put h (hvalues m (List.mem_cons_self ..)))
      fun m' hm' => hvalues m' (List.mem_cons_of_mem _ hm')

end IsKeyed

/-! ### Reading -/

theorem digitsValue_lt (cs : List Char) : digitsValue cs < 10 ^ cs.length := by
  have hdigits : ∀ d ∈ cs.filterMap digitValue?, d < 10 := by
    intro d hd
    obtain ⟨c, -, hc⟩ := List.mem_filterMap.mp hd
    exact digitValue?_lt hc
  exact (ofDigits_lt hdigits).trans_le
    (Nat.pow_le_pow_right (by omega) (List.length_filterMap_le _ _))

theorem formed_of_numberOf {position : Nat} {negative : Bool} {whole fraction rest : List Char}
    {exponent : Option (Int × Nat)} {p : Parsed Json}
    (h : numberOf position negative whole fraction exponent rest = .ok p) :
    Everywhere IsFormed p.value := by
  unfold numberOf at h
  dsimp only at h
  split at h
  · cases h
  · split at h
    · split at h
      · cases h
      · next hlong =>
        cases h
        have hlt := digitsValue_lt whole
        have hle : 10 ^ whole.length ≤ 10 ^ digitLimit :=
          Nat.pow_le_pow_right (by omega) (Nat.not_lt.mp hlong)
        refine everywhere_of_flat (by split <;> rfl) ?_
        cases negative
        · simp only [Bool.false_eq_true, if_false, IsFormed]
          omega
        · simp only [if_true, IsFormed]
          omega
    · cases h
      exact everywhere_of_flat rfl trivial

theorem formed_of_readWord {position : Nat} {cs : List Char} {p : Parsed Json}
    (h : readWord position cs = .ok p) : Everywhere IsFormed p.value := by
  rcases readWord_cases h with ⟨n, hn, -, rfl⟩ | hnumber
  · simp only [names, List.mem_cons, List.not_mem_nil, or_false] at hn
    rcases hn with rfl | rfl | rfl | rfl | rfl | rfl <;> exact everywhere_of_flat rfl trivial
  · rw [readNumber_eq] at hnumber
    exact formed_of_numberOf hnumber

/-- What the three readers give in at most `fuel` steps is formed, where what stands before it
is. -/
structure ReadsFormed (halves : List (Nat × Half)) (fuel : Nat) : Prop where
  value {depth position : Nat} {cs : List Char} {p : Parsed Json} :
    readValue halves fuel depth position cs = .ok p → Everywhere IsFormed p.value
  items {depth position : Nat} {done : List Json} {cs : List Char} {p : Parsed Json} :
    (∀ item ∈ done, Everywhere IsFormed item) →
      readItems halves fuel depth done position cs = .ok p → Everywhere IsFormed p.value
  members {depth position : Nat} {done : Members} {cs : List Char} {p : Parsed Json} :
    Everywhere IsFormed (.object done) →
      readMembers halves fuel depth done position cs = .ok p → Everywhere IsFormed p.value

section Reading

variable {halves : List (Nat × Half)} {fuel : Nat}

theorem formed_of_readValue (ih : ReadsFormed halves fuel) {depth position : Nat}
    {cs : List Char} {p : Parsed Json}
    (h : readValue halves (fuel + 1) depth position cs = .ok p) : Everywhere IsFormed p.value := by
  rw [readValue.eq_def] at h
  dsimp only at h
  split at h
  · cases h
  · next rest =>
    cases htext : readText halves position (position + 1) [] [] rest with
    | error e =>
      rw [htext] at h
      cases h
    | ok text =>
      rw [htext] at h
      cases h
      exact everywhere_of_flat rfl trivial
  · split at h
    · cases h
    · cases h
      exact everywhere_of_flat rfl trivial
    · exact ih.items (by simp) h
  · split at h
    · cases h
    · cases h
      exact isKeyed_isFormed.everywhere_nil
    · exact ih.members isKeyed_isFormed.everywhere_nil h
  · exact formed_of_readWord h

theorem formed_of_readItems (ih : ReadsFormed halves fuel) {depth position : Nat}
    {done : List Json} {cs : List Char} {p : Parsed Json}
    (hdone : ∀ item ∈ done, Everywhere IsFormed item)
    (h : readItems halves (fuel + 1) depth done position cs = .ok p) :
    Everywhere IsFormed p.value := by
  rw [readItems] at h
  split at h
  · cases h
  next item hitem =>
  have hitems : ∀ i ∈ item.value :: done, Everywhere IsFormed i := by
    intro i hi
    rcases List.mem_cons.mp hi with rfl | hi
    · exact ih.value hitem
    · exact hdone i hi
  dsimp only at h
  split at h
  · cases h
    exact .intro trivial fun i hi => hitems i (List.mem_reverse.mp hi)
  · exact ih.items hitems h
  · cases h

theorem formed_of_readMembers (ih : ReadsFormed halves fuel) {depth position : Nat}
    {done : Members} {cs : List Char} {p : Parsed Json}
    (hdone : Everywhere IsFormed (.object done))
    (h : readMembers halves (fuel + 1) depth done position cs = .ok p) :
    Everywhere IsFormed p.value := by
  rw [readMembers.eq_def] at h
  dsimp only at h
  split at h
  · split at h
    · cases h
    next key _ =>
    split at h
    · split at h
      · cases h
      next value hvalue =>
      have hput : Everywhere IsFormed (.object (done.put key.value value.value)) :=
        isKeyed_isFormed.everywhere_put hdone (ih.value hvalue)
      split at h
      · cases h
        exact hput
      · exact ih.members hput h
      · cases h
    · cases h
  · cases h

theorem readsFormed (halves : List (Nat × Half)) (fuel : Nat) : ReadsFormed halves fuel := by
  induction fuel with
  | zero =>
    constructor <;> intros <;> simp_all [readValue, readItems, readMembers]
  | succ fuel ih =>
    exact ⟨formed_of_readValue ih, formed_of_readItems ih, formed_of_readMembers ih⟩

end Reading

theorem formed_of_parseWithin {depth : Nat} {w : LooseText} {v : Json}
    (h : parseWithin depth w = .ok v) : Everywhere IsFormed v := by
  unfold parseWithin at h
  dsimp only at h
  split at h
  · cases h
  · split at h
    · cases h
    · next p hread =>
      split at h
      · cases h
        exact (readsFormed _ _).value hread
      · cases h

end Catalogue.Json
