import Catalogue.Json.Parser
import Catalogue.Json.Printer
import Catalogue.Proofs.Number.Numeral
import Catalogue.Proofs.Text.Loose
import Mathlib.Data.List.Basic
import Mathlib.Data.List.TakeDrop
import Mathlib.Data.List.TakeWhile

/-! Texts, numbers and names in JSON text: each is read back from what is written for it, whatever
follows.  A number has to be followed by something that does not prolong it. -/

namespace Catalogue.Json

open Number Text

/-- What may follow a value: nothing, white space, a comma, or the end of a list or an object. -/
def Ends (rest : List Char) : Prop :=
  ∀ c ∈ rest.head?, isSpace c = true ∨ c = ',' ∨ c = ']' ∨ c = '\x7d'

/-- The characters of a number other than digits. -/
def numberMarks : List Char := ['-', '+', '.', 'e', 'E']

theorem isSpace_iff (c : Char) :
    isSpace c = true ↔ c = ' ' ∨ c = '\t' ∨ c = '\n' ∨ c = '\r' := by
  simp [isSpace, or_assoc]

theorem Ends.cases {rest : List Char} (h : Ends rest) :
    rest = [] ∨ ∃ c cs, rest = c :: cs ∧ isAsciiDigit c = false ∧ c ∉ numberMarks := by
  cases rest with
  | nil => exact .inl rfl
  | cons c cs =>
    refine .inr ⟨c, cs, rfl, ?_⟩
    have hc := h c (by simp)
    rw [isSpace_iff] at hc
    rcases hc with (rfl | rfl | rfl | rfl) | rfl | rfl | rfl <;> decide

theorem ends_nil : Ends [] := by simp [Ends]

theorem ends_cons {c : Char} {cs : List Char}
    (h : isSpace c = true ∨ c = ',' ∨ c = ']' ∨ c = '\x7d') : Ends (c :: cs) := by
  simpa [Ends] using h

/-! ### Parts of numbers -/

theorem takeDigits_cons_digit {c : Char} (h : isAsciiDigit c = true) (cs : List Char) :
    takeDigits (c :: cs) = (c :: (takeDigits cs).1, (takeDigits cs).2) := by
  simp [takeDigits, List.span_eq_takeWhile_dropWhile, h]

theorem takeDigits_cons_other {c : Char} (h : isAsciiDigit c = false) (cs : List Char) :
    takeDigits (c :: cs) = ([], c :: cs) := by
  simp [takeDigits, List.span_eq_takeWhile_dropWhile, h]

theorem Ends.takeDigits_eq {rest : List Char} (h : Ends rest) : takeDigits rest = ([], rest) := by
  rcases h.cases with rfl | ⟨c, cs, rfl, hc, -⟩
  · rfl
  · exact takeDigits_cons_other hc cs

theorem takeDigits_append (cs : List Char) {rest : List Char} (h : Ends rest) :
    takeDigits (cs ++ rest) = ((takeDigits cs).1, (takeDigits cs).2 ++ rest) := by
  induction cs with
  | nil => exact h.takeDigits_eq
  | cons c cs ih =>
    rw [List.cons_append]
    cases hc : isAsciiDigit c with
    | true => rw [takeDigits_cons_digit hc, takeDigits_cons_digit hc, ih]
    | false =>
      rw [takeDigits_cons_other hc, takeDigits_cons_other hc]
      rfl

theorem takeFraction_other {cs : List Char} (h : ∀ rest, cs ≠ '.' :: rest) :
    takeFraction cs = ([], cs) := by
  unfold takeFraction
  split
  · exact absurd rfl (h _)
  · rfl

theorem takeFraction_append (cs : List Char) {rest : List Char} (h : Ends rest) :
    takeFraction (cs ++ rest) = ((takeFraction cs).1, (takeFraction cs).2 ++ rest) := by
  by_cases hcs : ∃ digits, cs = '.' :: digits
  · obtain ⟨digits, rfl⟩ := hcs
    have hdigits := takeDigits_append digits h
    unfold takeFraction
    simp only [List.cons_append, hdigits]
    cases hd : takeDigits digits with
    | mk ds after => cases ds <;> rfl
  · simp only [not_exists] at hcs
    have hother : ∀ digits, cs ++ rest ≠ '.' :: digits := by
      intro digits he
      cases cs with
      | nil =>
        rcases h.cases with rfl | ⟨c, _, rfl, -, hmark⟩
        · cases he
        · cases he
          exact hmark (by decide)
      | cons c cs =>
        cases he
        exact hcs cs rfl
    rw [takeFraction_other hcs, takeFraction_other hother]

theorem takeExponent_other {cs : List Char} (h : ∀ c ∈ cs.head?, c ≠ 'e' ∧ c ≠ 'E') :
    takeExponent cs = (none, cs) := by
  cases cs with
  | nil => rfl
  | cons c cs =>
    have hc := h c (by simp)
    simp [takeExponent, hc.1, hc.2]

theorem takeSign_append (cs : List Char) {rest : List Char} (h : Ends rest) :
    takeSign (cs ++ rest) = ((takeSign cs).1, (takeSign cs).2 ++ rest) := by
  cases cs with
  | nil =>
    rcases h.cases with rfl | ⟨c, cs, rfl, -, hmark⟩
    · rfl
    · simp only [numberMarks, List.mem_cons, not_or] at hmark
      unfold takeSign
      split <;> simp_all
  | cons c cs =>
    unfold takeSign
    split <;> simp_all

theorem takeExponent_append (cs : List Char) {rest : List Char} (h : Ends rest) :
    takeExponent (cs ++ rest) = ((takeExponent cs).1, (takeExponent cs).2 ++ rest) := by
  cases cs with
  | nil =>
    refine takeExponent_other fun c hc => ?_
    rcases h.cases with rfl | ⟨d, _, rfl, -, hmark⟩
    · cases hc
    · cases hc
      simp only [numberMarks, List.mem_cons, not_or] at hmark
      exact ⟨hmark.2.2.2.1, hmark.2.2.2.2.1⟩
  | cons c cs =>
    by_cases hc : c = 'e' ∨ c = 'E'
    · have hsign := takeSign_append cs h
      have hdigits := takeDigits_append (takeSign cs).2 h
      unfold takeExponent
      simp only [List.cons_append, hc, if_true, hsign, hdigits]
      cases hd : takeDigits (takeSign cs).2 with
      | mk ds after =>
        cases ds with
        | nil => rfl
        | cons d ds =>
          -- The sign is one of `cs`, in which the digits stand too.
          have hhead : (cs ++ rest).head? = cs.head? := by
            cases cs with
            | nil => cases hd
            | cons => rfl
          simp only [hhead]
    · simp [takeExponent, hc]

/-! ### Numbers -/

/-- The minus at the front of a number. -/
def takeMinus (cs : List Char) : Bool × List Char :=
  match cs with
  | '-' :: rest => (true, rest)
  | _ => (false, cs)

/-- The whole part at the front of a number: nothing follows a zero. -/
def takeWhole (cs : List Char) : List Char × List Char :=
  match cs with
  | '0' :: rest => (['0'], rest)
  | _ => takeDigits cs

/-- The number with the given parts, in front of `rest`. -/
def numberOf (position : Nat) (negative : Bool) (whole fraction : List Char)
    (exponent : Option (Int × Nat)) (rest : List Char) : Reader Json :=
  let width := (if negative then 1 else 0) + whole.length
    + (if fraction.isEmpty then 0 else fraction.length + 1) + (exponent.elim 0 (·.2))
  if whole.isEmpty then .error (.malformed position)
  else if fraction.isEmpty && exponent.isNone then
    if digitLimit < whole.length then .error (.integerTooLong whole.length)
    else
      let size : Int := digitsValue whole
      .ok ⟨.int (if negative then -size else size), position + width, rest⟩
  else
    let x := Binary64.ofDecimal negative (digitsValue (whole ++ fraction))
      (exponent.elim 0 (·.1) - fraction.length)
    .ok ⟨.real x, position + width, rest⟩

theorem readNumber_eq (position : Nat) (cs : List Char) :
    readNumber position cs =
      numberOf position (takeMinus cs).1 (takeWhole (takeMinus cs).2).1
        (takeFraction (takeWhole (takeMinus cs).2).2).1
        (takeExponent (takeFraction (takeWhole (takeMinus cs).2).2).2).1
        (takeExponent (takeFraction (takeWhole (takeMinus cs).2).2).2).2 := rfl

/-- A number takes nothing of what follows it. -/
theorem numberOf_rest {position after : Nat} {negative : Bool}
    {whole fraction rest left : List Char} {exponent : Option (Int × Nat)} {v : Json}
    (h : numberOf position negative whole fraction exponent rest = .ok ⟨v, after, left⟩) :
    left = rest ∧ ∀ other,
      numberOf position negative whole fraction exponent other = .ok ⟨v, after, other⟩ := by
  unfold numberOf at h ⊢
  dsimp only at h ⊢
  split_ifs at h ⊢ <;> cases h <;> exact ⟨rfl, fun _ => rfl⟩

theorem takeMinus_append (cs : List Char) {rest : List Char} (h : Ends rest) :
    takeMinus (cs ++ rest) = ((takeMinus cs).1, (takeMinus cs).2 ++ rest) := by
  cases cs with
  | nil =>
    rcases h.cases with rfl | ⟨c, cs, rfl, -, hmark⟩
    · rfl
    · simp only [numberMarks, List.mem_cons, not_or] at hmark
      unfold takeMinus
      split <;> simp_all
  | cons c cs =>
    unfold takeMinus
    split <;> simp_all

theorem takeWhole_append (cs : List Char) {rest : List Char} (h : Ends rest) :
    takeWhole (cs ++ rest) = ((takeWhole cs).1, (takeWhole cs).2 ++ rest) := by
  by_cases hcs : ∃ digits, cs = '0' :: digits
  · obtain ⟨digits, rfl⟩ := hcs
    rfl
  · simp only [not_exists] at hcs
    have htake (ds : List Char) (hds : ∀ digits, ds ≠ '0' :: digits) :
        takeWhole ds = takeDigits ds := by
      unfold takeWhole
      split
      · exact absurd rfl (hds _)
      · rfl
    have hother : ∀ digits, cs ++ rest ≠ '0' :: digits := by
      intro digits he
      cases cs with
      | nil =>
        rcases h.cases with rfl | ⟨c, _, rfl, hdigit, -⟩
        · cases he
        · cases he
          cases hdigit
      | cons c cs =>
        cases he
        exact hcs cs rfl
    rw [htake _ hcs, htake _ hother, takeDigits_append _ h]

/-- What ends a value does not prolong a number. -/
theorem readNumber_append {position after : Nat} {cs rest : List Char} {v : Json}
    (h : readNumber position cs = .ok ⟨v, after, []⟩) (hrest : Ends rest) :
    readNumber position (cs ++ rest) = .ok ⟨v, after, rest⟩ := by
  rw [readNumber_eq] at h ⊢
  simp only [takeMinus_append cs hrest, takeWhole_append _ hrest, takeFraction_append _ hrest,
    takeExponent_append _ hrest]
  obtain ⟨hleft, hother⟩ := numberOf_rest h
  rw [← hleft, List.nil_append]
  exact hother rest

theorem takeDigits_map_digitChar {ds : List Nat} (h : ∀ d ∈ ds, d < 10) :
    takeDigits (ds.map digitChar) = (ds.map digitChar, []) := by
  induction ds with
  | nil => rfl
  | cons d ds ih =>
    simp only [List.mem_cons, forall_eq_or_imp] at h
    rw [List.map_cons, takeDigits_cons_digit (isAsciiDigit_digitChar h.1), ih h.2]

/-- The digits of a number other than zero do not start with a zero. -/
theorem head?_digits_ne_zero {n : Nat} (h : n ≠ 0) : (digits n).head? ≠ some 0 := by
  induction n using digits.induct with
  | case1 n hn =>
    rw [digits, if_pos hn]
    simpa using h
  | case2 n hn ih =>
    rw [digits, if_neg hn, List.head?_append_of_ne_nil _ (digits_ne_nil _)]
    exact ih (by omega)

theorem takeWhole_digits (n : Nat) :
    takeWhole ((digits n).map digitChar) = ((digits n).map digitChar, []) := by
  unfold takeWhole
  split
  · next rest he =>
    by_cases hn : n = 0
    · subst hn
      rw [digits, if_pos (by omega)] at he ⊢
      cases he
      rfl
    · -- The first digit would be zero.
      exfalso
      cases hd : digits n with
      | nil => exact digits_ne_nil n hd
      | cons d ds =>
        rw [hd, List.map_cons, List.cons.injEq] at he
        have hlt := digits_lt_ten n d (by rw [hd]; simp)
        obtain rfl : d = 0 := digitChar_inj hlt (by omega) he.1
        exact head?_digits_ne_zero hn (by rw [hd]; rfl)
  · exact takeDigits_map_digitChar (digits_lt_ten n)

theorem takeMinus_digits (n : Nat) :
    takeMinus ((digits n).map digitChar) = (false, (digits n).map digitChar) := by
  unfold takeMinus
  split
  · next rest he =>
    exfalso
    cases hd : digits n with
    | nil => exact digits_ne_nil n hd
    | cons d ds =>
      rw [hd, List.map_cons, List.cons.injEq] at he
      have hdigit := isAsciiDigit_digitChar (digits_lt_ten n d (by rw [hd]; simp))
      rw [he.1] at hdigit
      cases hdigit
  · rfl

theorem takeMinus_intText (n : Int) :
    takeMinus (intText n).toList = (decide (n < 0), (digits n.natAbs).map digitChar) := by
  unfold intText
  split
  · next hn =>
    rw [String.toList_append, toList_natText]
    simp [takeMinus, hn]
  · next hn =>
    rw [toList_natText, takeMinus_digits]
    simp [hn]

/-- A whole number within the limit is read back from its text. -/
theorem readNumber_intText (position : Nat) {n : Int} (h : n.natAbs < 10 ^ digitLimit) :
    ∃ after, readNumber position (intText n).toList = .ok ⟨.int n, after, []⟩ := by
  have hlength : ((digits n.natAbs).map digitChar).length ≤ digitLimit := by
    rw [List.length_map]
    exact length_digits_le (by decide) h
  have hne : ((digits n.natAbs).map digitChar).isEmpty = false := by
    simp [digits_ne_nil]
  have hvalue : digitsValue ((digits n.natAbs).map digitChar) = n.natAbs := by
    rw [digitsValue_map_digitChar (digits_lt_ten _), ofDigits_digits]
  have hsign : (if decide (n < 0) = true then -(n.natAbs : Int) else n.natAbs) = n := by
    by_cases hn : n < 0
    · simp only [hn, decide_true, if_true]
      omega
    · simp only [hn, decide_false, Bool.false_eq_true, if_false]
      omega
  rw [readNumber_eq, takeMinus_intText, takeWhole_digits]
  simp only [numberOf, takeFraction, takeExponent, hne, Nat.not_lt.mpr hlength, hvalue, hsign]
  exact ⟨_, rfl⟩

/-! ### Integers -/

theorem readInteger_ne_infinite (s : String) : readInteger s ≠ .error .infinite := by
  unfold readInteger
  dsimp only
  split
  · nofun
  · split
    · nofun
    · split <;> nofun

/-- Infinite numbers alone are too large for an integer. -/
theorem toInteger_eq_infinite_iff {v : Json} :
    v.toInteger = .error .infinite ↔ ∃ x, v = .real x ∧ x.isInfinite = true := by
  cases v with
  | real x =>
    have hnan (h : x.isInfinite = true) : x.isNaN = false := by
      unfold Binary64.isInfinite at h
      unfold Binary64.isNaN
      simp_all
    simp only [toInteger, Json.real.injEq, exists_eq_left']
    cases hx : x.isInfinite with
    | true => simp [hnan hx]
    | false => split <;> simp
  | string w =>
    cases w with
    | sound s => simpa [toInteger, readNumeral] using readInteger_ne_infinite s
    | torn => simp [toInteger, readNumeral]
  | _ => simp [toInteger]

/-! ### Words -/

/-- Characters that no word starts with: those that start a text, a list or an object or end a
list, white space, and the mark of the order of bytes. -/
def structural : List Char := ['"', '[', '\x7b', ']', ' ', '\t', '\n', '\r', '\uFEFF']

theorem isSpace_of_not_structural {c : Char} (h : c ∉ structural) : isSpace c = false := by
  rw [Bool.eq_false_iff, ne_eq, isSpace_iff]
  rintro (rfl | rfl | rfl | rfl) <;> exact h (by decide)

theorem not_structural_of_digit {c : Char} (h : isAsciiDigit c = true) : c ∉ structural := by
  intro hc
  simp only [structural, List.mem_cons, List.not_mem_nil, or_false] at hc
  rcases hc with rfl | rfl | rfl | rfl | rfl | rfl | rfl | rfl | rfl <;> cases h

/-- A number starts with a digit, or with a minus and a digit. -/
theorem starts_of_readNumber {position : Nat} {cs : List Char} {p : Parsed Json}
    (h : readNumber position cs = .ok p) :
    ∃ c rest, (cs = c :: rest ∨ cs = '-' :: c :: rest) ∧ isAsciiDigit c = true := by
  have hwhole : (takeWhole (takeMinus cs).2).1 ≠ [] := by
    intro he
    rw [readNumber_eq, numberOf, he] at h
    cases h
  have hdigit : ∃ c rest, (takeMinus cs).2 = c :: rest ∧ isAsciiDigit c = true := by
    cases hbody : (takeMinus cs).2 with
    | nil =>
      rw [hbody] at hwhole
      exact absurd rfl hwhole
    | cons c rest =>
      refine ⟨c, rest, rfl, ?_⟩
      rw [hbody] at hwhole
      unfold takeWhole at hwhole
      split at hwhole
      · next he =>
        cases he
        decide
      · cases hc : isAsciiDigit c with
        | true => rfl
        | false =>
          rw [takeDigits_cons_other hc] at hwhole
          exact absurd rfl hwhole
  obtain ⟨c, rest, hbody, hc⟩ := hdigit
  refine ⟨c, rest, ?_, hc⟩
  unfold takeMinus at hbody
  split at hbody
  · next rest' =>
    exact .inr (congrArg (List.cons '-') hbody)
  · exact .inl hbody

theorem readWord_of_digit (position : Nat) {c : Char} (h : isAsciiDigit c = true)
    (cs : List Char) : readWord position (c :: cs) = readNumber position (c :: cs) := by
  have hn : c ≠ 'n' := by rintro rfl; cases h
  have ht : c ≠ 't' := by rintro rfl; cases h
  have hf : c ≠ 'f' := by rintro rfl; cases h
  have hN : c ≠ 'N' := by rintro rfl; cases h
  have hI : c ≠ 'I' := by rintro rfl; cases h
  have hminus : c ≠ '-' := by rintro rfl; cases h
  simp [readWord, names, List.isPrefixOf, hn.symm, ht.symm, hf.symm, hN.symm, hI.symm,
    hminus.symm]

theorem readWord_of_minus (position : Nat) {c : Char} (h : isAsciiDigit c = true)
    (cs : List Char) :
    readWord position ('-' :: c :: cs) = readNumber position ('-' :: c :: cs) := by
  have hI : c ≠ 'I' := by rintro rfl; cases h
  simp [readWord, names, List.isPrefixOf, hI.symm]

theorem readWord_of_readNumber {position : Nat} {cs : List Char} {p : Parsed Json}
    (h : readNumber position cs = .ok p) : readWord position cs = .ok p := by
  obtain ⟨c, rest, rfl | rfl, hc⟩ := starts_of_readNumber h
  · rw [readWord_of_digit position hc, h]
  · rw [readWord_of_minus position hc, h]

/-- A word is a name or a number. -/
theorem readWord_cases {position : Nat} {cs : List Char} {p : Parsed Json}
    (h : readWord position cs = .ok p) :
    (∃ n ∈ names, n.1.toList <+: cs ∧ p = ⟨n.2, position + n.1.length, cs.drop n.1.length⟩) ∨
      readNumber position cs = .ok p := by
  unfold readWord at h
  split at h
  · next name value hfind =>
    have hname : name.toList <+: cs := by simpa using List.find?_some hfind
    exact .inl ⟨_, List.mem_of_find?_eq_some hfind, hname, (Except.ok.inj h).symm⟩
  · exact .inr h

theorem readWord_name (position : Nat) {n : String × Json} (h : n ∈ names) (rest : List Char) :
    readWord position (n.1.toList ++ rest) = .ok ⟨n.2, position + n.1.length, rest⟩ := by
  simp only [names, List.mem_cons, List.not_mem_nil, or_false] at h
  rcases h with rfl | rfl | rfl | rfl | rfl | rfl <;> rfl

/-- What ends a value does not prolong a word. -/
theorem readWord_append {position after : Nat} {cs rest : List Char} {v : Json}
    (h : readWord position cs = .ok ⟨v, after, []⟩) (hrest : Ends rest) :
    readWord position (cs ++ rest) = .ok ⟨v, after, rest⟩ := by
  rcases readWord_cases h with ⟨n, hn, hprefix, hp⟩ | hnumber
  · simp only [Parsed.mk.injEq] at hp
    obtain ⟨hv, hafter, hdrop⟩ := hp
    obtain ⟨tail, rfl⟩ := hprefix
    have htail : tail = [] := by
      rw [← String.length_toList, List.drop_left] at hdrop
      exact hdrop.symm
    rw [htail, List.append_nil, readWord_name position hn, hv, hafter]
  · exact readWord_of_readNumber (readNumber_append hnumber hrest)

theorem not_structural_of_name {n : String × Json} (h : n ∈ names) :
    ∃ c rest, n.1.toList = c :: rest ∧ c ∉ structural := by
  simp only [names, List.mem_cons, List.not_mem_nil, or_false] at h
  rcases h with rfl | rfl | rfl | rfl | rfl | rfl <;> exact ⟨_, _, rfl, by decide⟩

theorem not_structural_of_readWord {position : Nat} {cs : List Char} {p : Parsed Json}
    (h : readWord position cs = .ok p) : ∃ c rest, cs = c :: rest ∧ c ∉ structural := by
  rcases readWord_cases h with ⟨n, hn, ⟨tail, rfl⟩, -⟩ | hnumber
  · obtain ⟨c, cs, hcs, hc⟩ := not_structural_of_name hn
    exact ⟨c, cs ++ tail, by rw [hcs, List.cons_append], hc⟩
  · obtain ⟨c, rest, rfl | rfl, hc⟩ := starts_of_readNumber hnumber
    · exact ⟨c, rest, rfl, not_structural_of_digit hc⟩
    · exact ⟨'-', c :: rest, rfl, by decide⟩

/-! ### Places -/

/-- In `cs` there are `width` characters in front of `rest`, none of them white space. -/
def Follows (cs : List Char) (width : Nat) (rest : List Char) : Prop :=
  ∃ taken, cs = taken ++ rest ∧ taken.length = width ∧ ∀ c ∈ taken, isSpace c = false

theorem Follows.refl (cs : List Char) : Follows cs 0 cs := ⟨[], rfl, rfl, by simp⟩

theorem Follows.trans {cs mid rest : List Char} {m n : Nat} (h : Follows cs m mid)
    (h' : Follows mid n rest) : Follows cs (m + n) rest := by
  obtain ⟨taken, rfl, rfl, htaken⟩ := h
  obtain ⟨more, rfl, rfl, hmore⟩ := h'
  exact ⟨taken ++ more, by simp, by simp, List.forall_mem_append.mpr ⟨htaken, hmore⟩⟩

theorem follows_cons {c : Char} (h : isSpace c = false) (cs : List Char) :
    Follows (c :: cs) 1 cs := ⟨[c], rfl, rfl, by simpa using h⟩

theorem follows_digits (cs : List Char) :
    Follows cs (takeDigits cs).1.length (takeDigits cs).2 := by
  rw [takeDigits, List.span_eq_takeWhile_dropWhile]
  refine ⟨cs.takeWhile isAsciiDigit, List.takeWhile_append_dropWhile.symm, rfl, fun c hc => ?_⟩
  exact isSpace_of_not_structural (not_structural_of_digit (List.mem_takeWhile_imp hc))

theorem follows_minus (cs : List Char) :
    Follows cs (if (takeMinus cs).1 then 1 else 0) (takeMinus cs).2 := by
  unfold takeMinus
  split
  · exact follows_cons rfl _
  · exact .refl cs

theorem follows_whole (cs : List Char) : Follows cs (takeWhole cs).1.length (takeWhole cs).2 := by
  unfold takeWhole
  split
  · exact follows_cons rfl _
  · exact follows_digits cs

theorem follows_fraction (cs : List Char) :
    Follows cs (if (takeFraction cs).1.isEmpty then 0 else (takeFraction cs).1.length + 1)
      (takeFraction cs).2 := by
  unfold takeFraction
  split
  · next rest =>
    have hdigits := follows_digits rest
    cases hd : takeDigits rest with
    | mk ds after =>
      rw [hd] at hdigits
      cases ds with
      | nil => exact .refl _
      | cons d ds =>
        rw [Nat.add_comm]
        exact (follows_cons rfl rest).trans hdigits
  · exact .refl cs

theorem follows_sign (cs : List Char) :
    Follows cs (if cs.head? = some '-' ∨ cs.head? = some '+' then 1 else 0) (takeSign cs).2 := by
  cases cs with
  | nil => exact .refl []
  | cons c cs =>
    by_cases hsign : c = '-' ∨ c = '+'
    · have hspace : isSpace c = false := by rcases hsign with rfl | rfl <;> rfl
      have hbody : (takeSign (c :: cs)).2 = cs := by rcases hsign with rfl | rfl <;> rfl
      rw [if_pos (by simpa using hsign), hbody]
      exact follows_cons hspace cs
    · have hbody : (takeSign (c :: cs)).2 = c :: cs := by
        unfold takeSign
        split <;> simp_all
      rw [if_neg (by simpa using hsign), hbody]
      exact .refl _

theorem follows_exponent (cs : List Char) :
    Follows cs ((takeExponent cs).1.elim 0 (·.2)) (takeExponent cs).2 := by
  cases cs with
  | nil => exact .refl []
  | cons c cs =>
    by_cases hc : c = 'e' ∨ c = 'E'
    · have hmark : isSpace c = false := by rcases hc with rfl | rfl <;> rfl
      have hbody := (follows_sign cs).trans (follows_digits (takeSign cs).2)
      unfold takeExponent
      simp only [hc, if_true]
      cases hd : takeDigits (takeSign cs).2 with
      | mk ds after =>
        rw [hd] at hbody
        cases ds with
        | nil => exact .refl _
        | cons d ds =>
          have h := (follows_cons hmark cs).trans hbody
          rwa [← Nat.add_assoc] at h
    · rw [takeExponent, if_neg hc]
      exact .refl _

theorem numberOf_place {position : Nat} {negative : Bool} {whole fraction rest : List Char}
    {exponent : Option (Int × Nat)} {p : Parsed Json}
    (h : numberOf position negative whole fraction exponent rest = .ok p) :
    p.rest = rest ∧ p.position = position + ((if negative then 1 else 0) + whole.length +
      (if fraction.isEmpty then 0 else fraction.length + 1) + exponent.elim 0 (·.2)) := by
  unfold numberOf at h
  dsimp only at h
  split at h
  · cases h
  · split at h
    · split at h
      · cases h
      · cases h
        exact ⟨rfl, rfl⟩
    · cases h
      exact ⟨rfl, rfl⟩

/-- The place after a word is as far on as the word is long, and a word has no white space. -/
theorem follows_of_readWord {position : Nat} {cs : List Char} {p : Parsed Json}
    (h : readWord position cs = .ok p) :
    ∃ width, p.position = position + width ∧ Follows cs width p.rest := by
  rcases readWord_cases h with ⟨n, hn, ⟨tail, rfl⟩, rfl⟩ | hnumber
  · have hall : ∀ n ∈ names, n.1.toList.all (fun c => !isSpace c) = true := by decide
    have hspace : ∀ c ∈ n.1.toList, isSpace c = false := by simpa using hall n hn
    refine ⟨n.1.length, rfl, n.1.toList, ?_, String.length_toList, hspace⟩
    rw [← String.length_toList, List.drop_left]
  · rw [readNumber_eq] at hnumber
    obtain ⟨hrest, hplace⟩ := numberOf_place hnumber
    refine ⟨_, hplace, ?_⟩
    rw [hrest]
    exact (((follows_minus cs).trans (follows_whole _)).trans (follows_fraction _)).trans
      (follows_exponent _)

/-- A floating point number is read back from what is written for it. -/
def ReadsBack (x : Binary64) : Prop :=
  ∀ position, ∃ after, readWord position (realLiteral x).toList = .ok ⟨.real x, after, []⟩

theorem readsBack_five : ReadsBack (.ofInt 5) := by
  have htext : (realLiteral (.ofInt 5)).toList = ['5', '.', '0'] := by decide +kernel
  have hvalue : Binary64.ofDecimal false 50 (-1) = .ofInt 5 := by decide +kernel
  have hread (position : Nat) : readNumber position ['5', '.', '0'] =
      .ok ⟨.real (Binary64.ofDecimal false 50 (-1)), position + 3, []⟩ := rfl
  intro position
  rw [htext]
  refine ⟨position + 3, readWord_of_readNumber ?_⟩
  rw [hread, hvalue]

/-! ### Texts -/

theorem hexValue?_hexDigit {n : Nat} (h : n < 16) : hexValue? (hexDigit n) = some n := by
  have hall : ∀ n < 16, hexValue? (hexDigit n) = some n := by decide
  exact hall n h

theorem codeUnit?_hexPadded {n : Nat} (h : n < 65536) (rest : List Char) :
    codeUnit? (hexPadded 4 n ++ rest) = some n := by
  have hpadded : hexPadded 4 n = [hexDigit (n / 4096 % 16), hexDigit (n / 256 % 16),
      hexDigit (n / 16 % 16), hexDigit (n % 16)] := by
    simp [hexPadded, List.range_succ]
  rw [hpadded]
  simp only [codeUnit?, List.cons_append, hexValue?_hexDigit (Nat.mod_lt _ (by omega : 16 > 0)),
    bind, Option.bind, pure]
  congr 1
  omega

theorem escapedChar_cases (c : Char) :
    (∃ mark, escapedChar c = ['\\', mark] ∧ shortEscape? mark = some c ∧ mark ≠ 'u') ∨
      (c.toNat < 32 ∧ escapedChar c = '\\' :: 'u' :: hexPadded 4 c.toNat) ∨
      (escapedChar c = [c] ∧ c ≠ '"' ∧ c ≠ '\\' ∧ ¬c.toNat < 32) := by
  unfold escapedChar
  split_ifs with h1 h2 h3 h4 h5 h6 h7 h8
  · exact .inl ⟨'"', rfl, by rw [h1]; rfl, by decide⟩
  · exact .inl ⟨'\\', rfl, by rw [h2]; rfl, by decide⟩
  · exact .inl ⟨'n', rfl, by rw [h3]; rfl, by decide⟩
  · exact .inl ⟨'r', rfl, by rw [h4]; rfl, by decide⟩
  · exact .inl ⟨'t', rfl, by rw [h5]; rfl, by decide⟩
  · exact .inl ⟨'b', rfl, by rw [h6]; rfl, by decide⟩
  · exact .inl ⟨'f', rfl, by rw [h7]; rfl, by decide⟩
  · exact .inr (.inl ⟨h8, rfl⟩)
  · exact .inr (.inr ⟨rfl, h1, h2, h8⟩)

theorem escapedChar_ne_nil (c : Char) : escapedChar c ≠ [] := by
  rcases escapedChar_cases c with ⟨mark, he, -, -⟩ | ⟨-, he⟩ | ⟨he, -⟩ <;> simp [he]

theorem readEscape_short (start position : Nat) {mark c : Char} (h : shortEscape? mark = some c)
    (hu : mark ≠ 'u') (rest : List Char) :
    readEscape start position (mark :: rest) = .ok (.inl c, 1) := by
  unfold readEscape
  split
  · next he => cases he
  · next he =>
    cases he
    exact absurd rfl hu
  · next he =>
    cases he
    rw [h]

theorem readEscape_unit (start position : Nat) {n : Nat} (h : n < 32) {rest : List Char}
    (hrest : rest ≠ []) :
    readEscape start position ('u' :: (hexPadded 4 n ++ rest)) = .ok (.inl (Char.ofNat n), 5) := by
  have hdrop : (hexPadded 4 n ++ rest).drop 4 = rest := by
    simp [hexPadded, List.range_succ]
  have hempty : rest.isEmpty = false := by simpa using hrest
  rw [readEscape, hdrop, hempty, if_neg (by decide), codeUnit?_hexPadded (by omega)]
  simp only
  rw [if_neg (by omega)]
  have hhalf : Half.ofCode? n = none := by
    rw [Half.ofCode?, dif_neg (by omega)]
  simp [Escaped.ofUnit, hhalf]

/-- A character is read back from how it is written inside a text. -/
theorem readText_escapedChar {halves : List (Nat × Half)} (start : Nat) {position : Nat}
    (parts : List (String × Half)) (done : List Char) (c : Char) {rest : List Char}
    (hrest : rest ≠ []) (hhalf : halves.lookup position = none) :
    readText halves start position parts done (escapedChar c ++ rest) =
      readText halves start (position + (escapedChar c).length) parts (c :: done) rest := by
  rcases escapedChar_cases c with ⟨mark, he, hmark, hu⟩ | ⟨hc, he⟩ | ⟨he, hquote, hslash, hc⟩
  · rw [he, List.cons_append, List.singleton_append, readText,
      readEscape_short _ _ hmark hu]
    rfl
  · have hdrop : ('u' :: (hexPadded 4 c.toNat ++ rest)).drop 5 = rest := by
      simp [hexPadded, List.range_succ]
    have hlength : ('\\' :: 'u' :: hexPadded 4 c.toNat).length = 1 + 5 := by
      simp [hexPadded, List.range_succ]
    rw [he, hlength, List.cons_append, List.cons_append, readText, readEscape_unit _ _ hc hrest]
    simp only [hdrop, Char.ofNat_toNat, Nat.add_assoc]
  · have hnone : halfAt? halves position c = none := by
      rw [halfAt?, hhalf, ite_self]
    rw [he, List.singleton_append, readText.eq_def]
    split
    · next heq => cases heq
    · next heq =>
      cases heq
      exact absurd rfl hquote
    · next heq =>
      cases heq
      exact absurd rfl hslash
    · next heq =>
      cases heq
      rw [if_neg hc, hnone]
      rfl

/-- A half that stands in a text ends the part before it. -/
theorem readText_half {halves : List (Nat × Half)} {position : Nat} {half : Half} (start : Nat)
    (parts : List (String × Half)) (done rest : List Char)
    (hhalf : halves.lookup position = some half) :
    readText halves start position parts done ('\uFFFD' :: rest) =
      readText halves start (position + 1) ((String.ofList done.reverse, half) :: parts) []
        rest := by
  have hfound : halfAt? halves position '\uFFFD' = some half := by rw [halfAt?, if_pos rfl, hhalf]
  rw [readText.eq_def]
  simp [hfound]

/-- How a code point is written inside a text. -/
def escapedPoint : Point → List Point
  | .inl c => plain (escapedChar c)
  | .inr half => [.inr half]

/-- The code points of a text are read back up to the quote behind them. -/
theorem readText_points {halves : List (Nat × Half)} {total position : Nat} (start : Nat)
    (parts : List (String × Half)) (done : List Char) {ps rest : List Point}
    (h : Stands halves total position (ps.flatMap escapedPoint ++ .inl '"' :: rest)) :
    ∃ after, Stands halves total after rest ∧
      readText halves start position parts done
          (shownAll (ps.flatMap escapedPoint ++ .inl '"' :: rest)) =
        .ok ⟨.behind parts (.ofPoints done ps), after, shownAll rest⟩ := by
  induction ps generalizing position parts done with
  | nil =>
    refine ⟨position + 1, h.tail, ?_⟩
    rw [List.flatMap_nil, List.nil_append, shownAll_cons, shown_inl, readText]
    rfl
  | cons p ps ih =>
    rw [List.flatMap_cons, List.append_assoc] at h
    rw [List.flatMap_cons, List.append_assoc, shownAll_append]
    cases p with
    | inl c =>
      have hhalf : halves.lookup position = none := by
        obtain ⟨first, more, hfirst⟩ := List.exists_cons_of_ne_nil (escapedChar_ne_nil c)
        rw [escapedPoint, hfirst, plain_cons, List.cons_append] at h
        exact h.head
      have hrest := h.of_append
      rw [escapedPoint, length_plain] at hrest
      rw [escapedPoint, shownAll_plain, readText_escapedChar start parts done c (by simp) hhalf]
      exact ih parts (c :: done) hrest
    | inr half =>
      obtain ⟨after, hafter, hread⟩ := ih ((String.ofList done.reverse, half) :: parts) [] h.tail
      exact ⟨after, hafter, (readText_half start parts done _ h.head).trans hread⟩

end Catalogue.Json
