import Catalogue.Proofs.Filter.Compile

/-! Query texts with a number that is too long to be read.  Whatever else is wrong with a text is a
rejection; only an offset or a seed of more digits than a numeral may have is not, and only where no
segment before it is rejected. -/

namespace Catalogue.Filter

open Number Text

/-- A value of ASCII digits, more of them than are read. -/
def IsOverlong (value : String) : Prop :=
  4300 < value.toList.length ∧ ∀ c ∈ value.toList, isAsciiDigit c = true

/-- The first segment that gives no argument is an offset or a seed of `n` digits, too many. -/
def StopsAtNumeral (text : String) (n : Nat) : Prop :=
  ∃ before segment after key value, segments text = before ++ segment :: after ∧
    (∀ earlier ∈ before, ∃ argument, readSegment earlier = .ok argument) ∧
    readPair segment = .ok (key, value) ∧ key ∈ ["offset", "seed"] ∧ IsOverlong value ∧
    value.toList.length = n

variable {name value segment text : String} {fault : IntegerFault}

theorem readNatural_numeral_iff {limit : Nat} :
    readNatural name value limit = .error (.numeral fault) ↔
      IsOverlong value ∧ fault = .tooLong value.toList.length := by
  unfold readNatural IsOverlong
  dsimp only
  split
  · next hdigits =>
    refine iff_of_false (by simp) ?_
    rintro ⟨⟨hlong, hall⟩, -⟩
    rw [Bool.or_eq_true, List.isEmpty_iff, Bool.not_eq_true', List.all_eq_false] at hdigits
    rcases hdigits with hempty | ⟨c, hc, hother⟩
    · simp [hempty] at hlong
    · exact hother (hall c hc)
  · next hdigits =>
    have hall : ∀ c ∈ value.toList, isAsciiDigit c = true := by
      intro c hc
      simp only [Bool.or_eq_true, not_or, Bool.not_eq_true', Bool.not_eq_false] at hdigits
      exact List.all_eq_true.mp hdigits.2 c hc
    split
    · next hlong =>
      have hlong : 4300 < value.toList.length := hlong
      constructor
      · rintro h
        cases h
        exact ⟨⟨hlong, hall⟩, rfl⟩
      · rintro ⟨-, rfl⟩
        rfl
    · next hshort =>
      have hshort : ¬4300 < value.toList.length := hshort
      refine iff_of_false ?_ fun h => hshort h.1.1
      split <;> simp

theorem Key.argument_numeral_iff {key : Key} :
    key.argument name value = .error (.numeral fault) ↔
      (key = .offset ∨ key = .seed) ∧ IsOverlong value ∧ fault = .tooLong value.toList.length := by
  cases key with
  | offset | seed =>
    rw [Key.argument, map_eq_error, readNatural_numeral_iff]
    simp
  | kind | dated =>
    refine iff_of_false ?_ (by simp)
    rw [Key.argument]
    split
    · simp
    · simp
  | _ => exact iff_of_false (by simp [Key.argument]) (by simp)

theorem ofName?_directive_iff : Key.ofName? name = some .offset ∨ Key.ofName? name = some .seed ↔
    name ∈ ["offset", "seed"] := by
  constructor
  · rintro (h | h)
    · have hmem := mem_names_of_ofName? h
      simp only [Key.names, List.mem_cons, Prod.mk.injEq, reduceCtorEq, and_false, and_true,
        List.not_mem_nil, or_false, false_or] at hmem
      simp [hmem]
    · have hmem := mem_names_of_ofName? h
      simp only [Key.names, List.mem_cons, Prod.mk.injEq, reduceCtorEq, and_false, and_true,
        List.not_mem_nil, or_false, false_or] at hmem
      simp [hmem]
  · intro h
    rcases List.mem_pair.mp h with rfl | rfl
    · exact .inl rfl
    · exact .inr rfl

theorem readArgument_numeral_iff {pair : String × String} :
    readArgument pair = .error (.numeral fault) ↔
      pair.1 ∈ ["offset", "seed"] ∧ IsOverlong pair.2 ∧ fault = .tooLong pair.2.toList.length := by
  rw [← ofName?_directive_iff]
  unfold readArgument
  cases hkey : Key.ofName? pair.1 with
  | none => simp
  | some key => simpa using Key.argument_numeral_iff

/-- A segment without a pair is rejected. -/
theorem readPair_error {e : CompileError} (h : readPair segment = .error e) :
    ∃ cause, e = .rejected cause := by
  unfold readPair at h
  split at h
  · cases h
    exact ⟨_, rfl⟩
  · rcases bind_eq_error.mp h with hkey | ⟨key, -, h⟩
    · exact ⟨_, decodeText_error hkey⟩
    · rcases bind_eq_error.mp h with hvalue | ⟨value, -, h⟩
      · exact ⟨_, decodeText_error hvalue⟩
      · cases h

theorem readSegment_numeral_iff : readSegment segment = .error (.numeral fault) ↔
    ∃ key value, readPair segment = .ok (key, value) ∧ key ∈ ["offset", "seed"] ∧
      IsOverlong value ∧ fault = .tooLong value.toList.length := by
  unfold readSegment
  rw [bind_eq_error]
  constructor
  · rintro (h | ⟨⟨key, value⟩, hpair, h⟩)
    · obtain ⟨cause, hcause⟩ := readPair_error h
      cases hcause
    · exact ⟨key, value, hpair, readArgument_numeral_iff.mp h⟩
  · rintro ⟨key, value, hpair, h⟩
    exact .inr ⟨_, hpair, readArgument_numeral_iff.mpr h⟩

theorem compile_numeral_iff : compile text = .error (.numeral fault) ↔
    ∃ n, StopsAtNumeral text n ∧ fault = .tooLong n := by
  rw [compile_eq, map_eq_error, mapM_eq_error_iff]
  constructor
  · rintro ⟨before, segment, after, hsegments, hbefore, h⟩
    obtain ⟨key, value, hpair, hkey, hlong, hfault⟩ := readSegment_numeral_iff.mp h
    exact ⟨_, ⟨before, segment, after, key, value, hsegments, hbefore, hpair, hkey, hlong, rfl⟩,
      hfault⟩
  · rintro ⟨_, ⟨before, segment, after, key, value, hsegments, hbefore, hpair, hkey, hlong, rfl⟩,
      hfault⟩
    exact ⟨before, segment, after, hsegments, hbefore,
      readSegment_numeral_iff.mpr ⟨key, value, hpair, hkey, hlong, hfault⟩⟩

/-- A text is compiled or rejected exactly if it does not stop at a numeral. -/
theorem compiled_or_rejected_iff :
    ((∃ q, compile text = .ok q) ∨ ∃ cause, compile text = .error (.rejected cause)) ↔
      ¬∃ n, StopsAtNumeral text n := by
  cases h : compile text with
  | ok q =>
    refine iff_of_true (.inl ⟨q, rfl⟩) fun ⟨n, hn⟩ => ?_
    rw [compile_numeral_iff.mpr ⟨n, hn, rfl⟩] at h
    cases h
  | error e =>
    cases e with
    | rejected cause =>
      refine iff_of_true (.inr ⟨cause, rfl⟩) fun ⟨n, hn⟩ => ?_
      rw [compile_numeral_iff.mpr ⟨n, hn, rfl⟩] at h
      cases h
    | numeral fault =>
      obtain ⟨n, hn, -⟩ := compile_numeral_iff.mp h
      refine iff_of_false ?_ fun hnone => hnone ⟨n, hn⟩
      simp

/-- The text of a single directive with too many digits. -/
theorem stopsAtNumeral_single {key value : String} (hkey : key ∈ ["offset", "seed"])
    (h : IsOverlong value) : StopsAtNumeral (key ++ "=" ++ value) value.toList.length := by
  have hdigit {c : Char} (hc : isAsciiDigit c = false) : c ∉ value.toList := by
    intro hmem
    rw [h.2 c hmem] at hc
    cases hc
  have hplain : '=' ∉ key.toList ∧ '%' ∉ key.toList ∧ '&' ∉ key.toList := by
    rcases List.mem_pair.mp hkey with rfl | rfl
    · decide
    · decide
  have hpair : readPair (key ++ "=" ++ value) = .ok (key, value) :=
    readPair_plain hplain.1 hplain.2.1 (hdigit (by decide))
  have hsegments : segments (key ++ "=" ++ value) = [key ++ "=" ++ value] := by
    refine segments_single ?_ (by simp)
    have hvalue : '&' ∉ value.toList := hdigit (by decide)
    simp [String.toList_append, hplain.2.2, hvalue]
  exact ⟨[], _, [], key, value, hsegments, by simp, hpair, hkey, h, rfl⟩

end Catalogue.Filter
