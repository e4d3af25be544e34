import Catalogue.Number.Numeral
import Mathlib.Data.List.Induction
import Mathlib.Tactic.Ring

/-! Numbers and their decimal digits: the text of a number reads back as that number, and of two
texts of one length the one that comes first writes the smaller number. -/

namespace Catalogue.Number

open Text

/-- The character of a digit. -/
def digitChar (d : Nat) : Char := Char.ofNat (48 + d)

/-- The decimal digits of a number. -/
def digits (n : Nat) : List Nat := if n < 10 then [n] else digits (n / 10) ++ [n % 10]

/-- The decimal digits of a number, filled up with zeros in front to `width`. -/
def paddedDigits (width n : Nat) : List Nat :=
  List.replicate (width - (digits n).length) 0 ++ digits n

theorem digitValue?_digitChar {d : Nat} (h : d < 10) : digitValue? (digitChar d) = some d := by
  have hall : ∀ d < 10, digitValue? (digitChar d) = some d := by decide
  exact hall d h

theorem isAsciiDigit_digitChar {d : Nat} (h : d < 10) : isAsciiDigit (digitChar d) = true := by
  have hall : ∀ d < 10, isAsciiDigit (digitChar d) = true := by decide
  exact hall d h

theorem digitChar_lt_iff {d e : Nat} (hd : d < 10) (he : e < 10) :
    digitChar d < digitChar e ↔ d < e := by
  have hall : ∀ d < 10, ∀ e < 10, (digitChar d < digitChar e ↔ d < e) := by decide
  exact hall d hd e he

theorem digitChar_inj {d e : Nat} (hd : d < 10) (he : e < 10) (h : digitChar d = digitChar e) :
    d = e := by
  have := digitValue?_digitChar hd
  rw [h, digitValue?_digitChar he] at this
  simpa using this.symm

theorem digits_lt_ten (n : Nat) : ∀ d ∈ digits n, d < 10 := by
  induction n using digits.induct with
  | case1 n h =>
    rw [digits, if_pos h]
    simpa using h
  | case2 n h ih =>
    rw [digits, if_neg h]
    intro d hd
    rcases List.mem_append.mp hd with hd | hd
    · exact ih d hd
    · rw [List.mem_singleton.mp hd]
      exact Nat.mod_lt _ (by omega)

theorem digits_ne_nil (n : Nat) : digits n ≠ [] := by
  rw [digits]
  split <;> simp

theorem ofDigits_append_singleton (ds : List Nat) (d : Nat) :
    ofDigits (ds ++ [d]) = ofDigits ds * 10 + d := by
  simp [ofDigits]

theorem ofDigits_digits (n : Nat) : ofDigits (digits n) = n := by
  induction n using digits.induct with
  | case1 n h =>
    rw [digits, if_pos h]
    simp [ofDigits]
  | case2 n h ih =>
    rw [digits, if_neg h, ofDigits_append_singleton, ih]
    omega

theorem length_digits_le {n k : Nat} (hk : 0 < k) (h : n < 10 ^ k) : (digits n).length ≤ k := by
  induction n using digits.induct generalizing k with
  | case1 n hn =>
    rw [digits, if_pos hn]
    exact hk
  | case2 n hn ih =>
    rw [digits, if_neg hn, List.length_append, List.length_singleton]
    match k, hk with
    | 1, _ => omega
    | k + 2, _ =>
      have : n / 10 < 10 ^ (k + 1) := by
        rw [Nat.pow_succ] at h
        omega
      have := ih (by omega) this
      omega

theorem decimalFrom_eq (n : Nat) (done : List Char) :
    decimalFrom n done = (digits n).map digitChar ++ done := by
  induction n using digits.induct generalizing done with
  | case1 n h =>
    rw [decimalFrom, digits, if_pos h, if_pos h]
    rfl
  | case2 n h ih =>
    rw [decimalFrom, digits, if_neg h, if_neg h, ih]
    simp [digitChar]

theorem toList_natText (n : Nat) : (natText n).toList = (digits n).map digitChar := by
  rw [natText, String.toList_ofList, decimalFrom_eq, List.append_nil]

theorem toList_padded (width n : Nat) :
    (padded width n).toList = (paddedDigits width n).map digitChar := by
  simp [padded, paddedDigits, decimalFrom_eq, digitChar]

theorem ofDigits_replicate_zero (k : Nat) (ds : List Nat) :
    ofDigits (List.replicate k 0 ++ ds) = ofDigits ds := by
  induction k with
  | zero => rfl
  | succ k ih => simpa [ofDigits, List.replicate_succ] using ih

theorem ofDigits_paddedDigits (width n : Nat) : ofDigits (paddedDigits width n) = n := by
  rw [paddedDigits, ofDigits_replicate_zero, ofDigits_digits]

theorem paddedDigits_lt_ten (width n : Nat) : ∀ d ∈ paddedDigits width n, d < 10 := by
  intro d hd
  rcases List.mem_append.mp hd with hd | hd
  · rw [List.eq_of_mem_replicate hd]
    omega
  · exact digits_lt_ten n d hd

theorem length_paddedDigits {width n : Nat} (hw : 0 < width) (h : n < 10 ^ width) :
    (paddedDigits width n).length = width := by
  have := length_digits_le hw h
  simp only [paddedDigits, List.length_append, List.length_replicate]
  omega

theorem mapM_digitValue? {ds : List Nat} (h : ∀ d ∈ ds, d < 10) :
    (ds.map digitChar).mapM digitValue? = some ds := by
  induction ds with
  | nil => rfl
  | cons d ds ih =>
    simp only [List.mem_cons, forall_eq_or_imp] at h
    simp [digitValue?_digitChar h.1, ih h.2]

theorem digitsValue_map_digitChar {ds : List Nat} (h : ∀ d ∈ ds, d < 10) :
    digitsValue (ds.map digitChar) = ofDigits ds := by
  have : (ds.map digitChar).filterMap digitValue? = ds := by
    induction ds with
    | nil => rfl
    | cons d ds ih =>
      simp only [List.mem_cons, forall_eq_or_imp] at h
      simp [digitValue?_digitChar h.1, ih h.2]
  rw [digitsValue, this]

/-! ### Order -/

theorem ofDigits_append (ds es : List Nat) :
    ofDigits (ds ++ es) = ofDigits ds * 10 ^ es.length + ofDigits es := by
  induction es using List.reverseRecOn with
  | nil => simp [ofDigits]
  | append_singleton es e ih =>
    rw [← List.append_assoc, ofDigits_append_singleton, ofDigits_append_singleton, ih,
      List.length_append, List.length_singleton, Nat.pow_succ]
    ring

theorem ofDigits_cons (d : Nat) (ds : List Nat) :
    ofDigits (d :: ds) = d * 10 ^ ds.length + ofDigits ds := by
  rw [← List.singleton_append, ofDigits_append]
  simp [ofDigits]

theorem ofDigits_lt {ds : List Nat} (h : ∀ d ∈ ds, d < 10) : ofDigits ds < 10 ^ ds.length := by
  induction ds with
  | nil => simp [ofDigits]
  | cons d ds ih =>
    simp only [List.mem_cons, forall_eq_or_imp] at h
    have hds := ih h.2
    calc
      ofDigits (d :: ds) = d * 10 ^ ds.length + ofDigits ds := ofDigits_cons d ds
      _ < d * 10 ^ ds.length + 10 ^ ds.length := by omega
      _ = (d + 1) * 10 ^ ds.length := by ring
      _ ≤ 10 * 10 ^ ds.length := Nat.mul_le_mul_right _ h.1
      _ = 10 ^ (d :: ds).length := by rw [List.length_cons, Nat.pow_succ, Nat.mul_comm]

/-- Of two texts of as many digits the smaller one writes the smaller number. -/
theorem map_digitChar_lt_iff {ds es : List Nat} (hlen : ds.length = es.length)
    (hds : ∀ d ∈ ds, d < 10) (hes : ∀ e ∈ es, e < 10) :
    ds.map digitChar < es.map digitChar ↔ ofDigits ds < ofDigits es := by
  induction ds generalizing es with
  | nil =>
    rw [List.length_eq_zero_iff.mp hlen.symm]
    simp
  | cons d ds ih =>
    obtain ⟨e, es, rfl⟩ := List.exists_cons_of_length_eq_add_one hlen.symm
    simp only [List.mem_cons, forall_eq_or_imp] at hds hes
    simp only [List.length_cons, Nat.add_right_cancel_iff] at hlen
    rw [List.map_cons, List.map_cons, List.cons_lt_cons_iff, ih hlen hds.2 hes.2,
      digitChar_lt_iff hds.1 hes.1, ofDigits_cons, ofDigits_cons, hlen]
    have h1 := ofDigits_lt hds.2
    have h2 := ofDigits_lt hes.2
    rw [hlen] at h1
    constructor
    · rintro (h | ⟨h, hlt⟩)
      · have := Nat.mul_le_mul_right (10 ^ es.length) (show d + 1 ≤ e from h)
        rw [Nat.add_mul, Nat.one_mul] at this
        omega
      · rw [digitChar_inj hds.1 hes.1 h]
        omega
    · intro h
      rcases Nat.lt_trichotomy d e with hd | rfl | hd
      · exact Or.inl hd
      · exact Or.inr ⟨rfl, by omega⟩
      · have := Nat.mul_le_mul_right (10 ^ es.length) (show e + 1 ≤ d from hd)
        rw [Nat.add_mul, Nat.one_mul] at this
        omega

theorem map_digitChar_inj {ds es : List Nat} (hlen : ds.length = es.length)
    (hds : ∀ d ∈ ds, d < 10) (hes : ∀ e ∈ es, e < 10) :
    ds.map digitChar = es.map digitChar ↔ ofDigits ds = ofDigits es := by
  have h1 := map_digitChar_lt_iff hlen hds hes
  have h2 := map_digitChar_lt_iff hlen.symm hes hds
  constructor
  · intro h
    rw [h] at h1 h2
    simp only [List.lt_irrefl, false_iff] at h1 h2
    omega
  · intro h
    refine List.le_antisymm (List.not_lt.mp ?_) (List.not_lt.mp ?_)
    · rw [h2]
      omega
    · rw [h1]
      omega

end Catalogue.Number
