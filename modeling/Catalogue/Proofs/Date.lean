import Catalogue.Date
import Catalogue.Proofs.Number.Numeral
import Catalogue.Proofs.Text.Blank
import Catalogue.Proofs.Text.Pieces
import Mathlib.Logic.Relation

/-! Written dates: which texts give a date and which one, that a date reads back from its text, and
that the order of the texts is the order of the calendar, in which the days follow each other. -/

namespace Catalogue.Date

open Number Text

/-- The order of the calendar: `d` is the day `e` or a day before it. -/
instance : LE Date where
  le d e := d.year < e.year ∨ d.year = e.year ∧
    (d.month < e.month ∨ d.month = e.month ∧ d.day ≤ e.day)

theorem le_iff (d e : Date) : d ≤ e ↔ d.year < e.year ∨ d.year = e.year ∧
    (d.month < e.month ∨ d.month = e.month ∧ d.day ≤ e.day) := Iff.rfl

instance (d e : Date) : Decidable (d ≤ e) := decidable_of_iff _ (le_iff d e).symm

/-- The year has at most four digits, the month and the day at most two. -/
theorem fields_lt (d : Date) : d.year < 10 ^ 4 ∧ d.month < 10 ^ 2 ∧ d.day < 10 ^ 2 := by
  obtain ⟨⟨-, hy⟩, ⟨-, hm⟩, -, hd⟩ := d.isDay
  have : monthDays d.year d.month ≤ 31 := by
    unfold monthDays
    repeat' split
    all_goals omega
  omega

/-- The written form, character by character. -/
theorem toList_text (d : Date) :
    d.text.toList = (paddedDigits 4 d.year).map digitChar ++
      '-' :: ((paddedDigits 2 d.month).map digitChar ++
        '-' :: (paddedDigits 2 d.day).map digitChar) := by
  simp [text, String.toList_append, toList_padded]

/-! ### Reading back -/

theorem isBlank_digitChar {n : Nat} (h : n < 10) : isBlank (digitChar n) = false := by
  have hall : ∀ n < 10, isBlank (digitChar n) = false := by decide
  exact hall n h

theorem digitChar_ne_hyphen {n : Nat} (h : n < 10) : digitChar n ≠ '-' := by
  have hall : ∀ n < 10, digitChar n ≠ '-' := by decide
  exact hall n h

theorem trim_eq_self {s : String} (h : ∀ c ∈ s.toList, isBlank c = false) : trim s = s := by
  have htrim : trimBy isBlank ([] ++ s.toList ++ []) = s.toList :=
    trimBy_eq (by simp) h (by simp)
  rw [List.nil_append, List.append_nil] at htrim
  rw [trim, htrim, String.ofList_toList]

theorem text_not_blank (d : Date) : ∀ c ∈ d.text.toList, isBlank c = false := by
  have hdigits : ∀ width n, ∀ c ∈ (paddedDigits width n).map digitChar, isBlank c = false := by
    intro width n c hc
    obtain ⟨k, hk, rfl⟩ := List.mem_map.mp hc
    exact isBlank_digitChar (paddedDigits_lt_ten _ _ k hk)
  have hhyphen : isBlank '-' = false := by decide
  intro c hc
  simp only [toList_text, List.mem_append, List.mem_cons] at hc
  rcases hc with hc | rfl | hc | rfl | hc
  · exact hdigits _ _ c hc
  · exact hhyphen
  · exact hdigits _ _ c hc
  · exact hhyphen
  · exact hdigits _ _ c hc

theorem hyphen_not_mem_padded (width n : Nat) : '-' ∉ (padded width n).toList := by
  rw [toList_padded]
  intro h
  obtain ⟨k, hk, heq⟩ := List.mem_map.mp h
  exact digitChar_ne_hyphen (paddedDigits_lt_ten _ _ k hk) heq

theorem pieces_text (d : Date) :
    pieces '-' d.text = [padded 4 d.year, padded 2 d.month, padded 2 d.day] := by
  have hhyphen : "-" = String.singleton '-' := rfl
  rw [text, hhyphen, pieces_append, pieces_append, pieces_of_not_mem (hyphen_not_mem_padded _ _),
    pieces_of_not_mem (hyphen_not_mem_padded _ _), pieces_of_not_mem (hyphen_not_mem_padded _ _)]
  rfl

theorem field?_padded {width n : Nat} (hw : 0 < width) (h : n < 10 ^ width) :
    field? width (padded width n) = some n := by
  have hlen : (padded width n).toList.length = width := by
    rw [toList_padded, List.length_map, length_paddedDigits hw h]
  rw [field?]
  simp only [hlen]
  rw [if_pos ⟨hw, Nat.le_refl _⟩, toList_padded, mapM_digitValue? (paddedDigits_lt_ten _ _),
    Option.map_some, ofDigits_paddedDigits]

/-- A date reads back from its written form. -/
theorem parse?_text (d : Date) : parse? d.text = some d := by
  obtain ⟨hy, hm, hd⟩ := d.fields_lt
  rw [parse?, trim_eq_self d.text_not_blank, pieces_text]
  simp [field?_padded (by omega) hy, field?_padded (by omega) hm, field?_padded (by omega) hd,
    ofNumbers?, d.isDay]

/-! ### Texts that write a date -/

/-- The characters write a number in decimal digits of any script, at least one and at most `most`
of them. -/
structure IsField (most : Nat) (cs : List Char) (n : Nat) : Prop where
  nonempty : cs ≠ []
  short : cs.length ≤ most
  value : ∃ ds : List Nat, cs.map digitValue? = ds.map some ∧ ofDigits ds = n

/-- A text writes the numbers of a year, a month and a day, with hyphens between them and with
blanks around. -/
def Writes (s : String) (year month day : Nat) : Prop :=
  ∃ before y m d after : List Char, s.toList = before ++ (y ++ '-' :: (m ++ '-' :: d)) ++ after ∧
    (∀ c ∈ before, isBlank c = true) ∧ (∀ c ∈ after, isBlank c = true) ∧
    IsField 4 y year ∧ IsField 2 m month ∧ IsField 2 d day

section Reading

variable {s : String} {most n : Nat} {cs : List Char} {d : Date}

theorem mapM_digitValue?_eq_some_iff {ds : List Nat} :
    cs.mapM digitValue? = some ds ↔ cs.map digitValue? = ds.map some := by
  induction cs generalizing ds with
  | nil => cases ds <;> simp
  | cons c cs ih =>
    rw [List.mapM_cons, List.map_cons]
    cases digitValue? c with
    | none => cases ds <;> simp
    | some k =>
      cases ds with
      | nil => cases cs.mapM digitValue? <;> simp
      | cons e ds =>
        rw [List.map_cons, List.cons.injEq, ← ih]
        cases cs.mapM digitValue? <;> simp

theorem field?_eq_some_iff : field? most s = some n ↔ IsField most s.toList n := by
  unfold field?
  dsimp only
  constructor
  · intro h
    split at h
    · next hlength =>
      obtain ⟨ds, hds, rfl⟩ := Option.map_eq_some_iff.mp h
      refine ⟨?_, hlength.2, ds, mapM_digitValue?_eq_some_iff.mp hds, rfl⟩
      exact List.ne_nil_of_length_pos hlength.1
    · cases h
  · rintro ⟨hne, hshort, ds, hds, rfl⟩
    rw [if_pos ⟨List.length_pos_iff.mpr hne, hshort⟩, mapM_digitValue?_eq_some_iff.mpr hds]
    rfl

theorem isSome_digitValue? (h : IsField most cs n) : ∀ c ∈ cs, (digitValue? c).isSome = true := by
  obtain ⟨ds, hds, -⟩ := h.value
  intro c hc
  have hmem : digitValue? c ∈ ds.map some := hds ▸ List.mem_map_of_mem hc
  obtain ⟨k, -, hk⟩ := List.mem_map.mp hmem
  rw [← hk]
  rfl

/-- No digit of any script is a blank. -/
theorem isBlank_of_digitValue? {c : Char} (h : (digitValue? c).isSome = true) :
    isBlank c = false := by
  have hascii : ∀ b ∈ blankCodes, ¬(48 ≤ b ∧ b ≤ 57) := by decide
  have hother : ∀ b ∈ blankCodes, ∀ z ∈ digitZeros, ¬(z ≤ b ∧ b < z + 10) := by decide
  rw [Bool.eq_false_iff]
  intro hblank
  have hmem : c.toNat ∈ blankCodes := List.contains_iff_mem.mp hblank
  unfold digitValue? at h
  split at h
  · split at h
    · next hrange => exact hascii _ hmem hrange
    · cases h
  · rw [Option.isSome_map, List.find?_isSome] at h
    obtain ⟨z, hz, hrange⟩ := h
    rw [Bool.and_eq_true, decide_eq_true_eq, decide_eq_true_eq] at hrange
    exact hother _ hmem z hz hrange

theorem hyphen_not_mem (h : IsField most cs n) : '-' ∉ cs := by
  intro hmem
  have hhyphen := isSome_digitValue? h _ hmem
  revert hhyphen
  decide

theorem ofNumbers?_eq_some_iff {year month day : Nat} :
    ofNumbers? year month day = some d ↔ d.year = year ∧ d.month = month ∧ d.day = day := by
  unfold ofNumbers?
  constructor
  · intro h
    split at h
    · cases h
      exact ⟨rfl, rfl, rfl⟩
    · cases h
  · rintro ⟨rfl, rfl, rfl⟩
    rw [dif_pos d.isDay]

/-- Three fields with hyphens between them are the pieces of their text, and only theirs. -/
theorem pieces_eq_fields_iff {year month day : String} (hyear : '-' ∉ year.toList)
    (hmonth : '-' ∉ month.toList) (hday : '-' ∉ day.toList) :
    pieces '-' s = [year, month, day] ↔
      s.toList = year.toList ++ '-' :: (month.toList ++ '-' :: day.toList) := by
  have hjoin : (join (String.singleton '-') [year, month, day]).toList =
      year.toList ++ '-' :: (month.toList ++ '-' :: day.toList) := by
    simp [join]
  constructor
  · intro h
    rw [← hjoin, ← h, join_pieces]
  · intro h
    have hs : s = join (String.singleton '-') [year, month, day] :=
      String.toList_inj.mp (h.trans hjoin.symm)
    rw [hs, pieces_join '-' (by simp), List.flatMap_cons, List.flatMap_cons, List.flatMap_cons,
      pieces_of_not_mem hyear, pieces_of_not_mem hmonth, pieces_of_not_mem hday]
    rfl

/-- A text gives a date exactly where it writes the numbers of the date. -/
theorem parse?_eq_some_iff : parse? s = some d ↔ Writes s d.year d.month d.day := by
  constructor
  · intro h
    unfold parse? at h
    split at h
    · next year month day hpieces =>
      obtain ⟨y, hy, h⟩ := Option.bind_eq_some_iff.mp h
      obtain ⟨m, hm, h⟩ := Option.bind_eq_some_iff.mp h
      obtain ⟨k, hk, h⟩ := Option.bind_eq_some_iff.mp h
      obtain ⟨rfl, rfl, rfl⟩ := ofNumbers?_eq_some_iff.mp h
      rw [field?_eq_some_iff] at hy hm hk
      rw [pieces_eq_fields_iff (hyphen_not_mem hy) (hyphen_not_mem hm) (hyphen_not_mem hk), trim,
        String.toList_ofList] at hpieces
      obtain ⟨before, after, hs, hbefore, hafter⟩ := exists_trimBy isBlank s.toList
      rw [hpieces] at hs
      exact ⟨before, _, _, _, after, hs, hbefore, hafter, hy, hm, hk⟩
    · cases h
  · rintro ⟨before, y, m, k, after, hs, hbefore, hafter, hy, hm, hk⟩
    have hbody : ∀ c ∈ y ++ '-' :: (m ++ '-' :: k), isBlank c = false := by
      have hfield {most n : Nat} {cs : List Char} (hcs : IsField most cs n) :
          ∀ c ∈ cs, isBlank c = false :=
        fun c hc => isBlank_of_digitValue? (isSome_digitValue? hcs c hc)
      simp only [List.forall_mem_append, List.forall_mem_cons]
      exact ⟨hfield hy, rfl, hfield hm, rfl, hfield hk⟩
    have hpieces : pieces '-' (trim s) = [String.ofList y, String.ofList m, String.ofList k] := by
      rw [pieces_eq_fields_iff (by simpa using hyphen_not_mem hy) (by simpa using hyphen_not_mem hm)
        (by simpa using hyphen_not_mem hk)]
      simp only [trim, String.toList_ofList]
      rw [hs, trimBy_eq hbefore hbody hafter]
    have hfield {most n : Nat} {cs : List Char} (hcs : IsField most cs n) :
        field? most (String.ofList cs) = some n := by
      rw [field?_eq_some_iff, String.toList_ofList]
      exact hcs
    have hday : ofNumbers? d.year d.month d.day = some d :=
      ofNumbers?_eq_some_iff.mpr ⟨rfl, rfl, rfl⟩
    rw [parse?, hpieces]
    simp only [hfield hy, hfield hm, hfield hk]
    exact hday

end Reading

theorem length_text (d : Date) : d.text.length = 10 := by
  obtain ⟨hy, hm, hd⟩ := d.fields_lt
  rw [← String.length_toList, toList_text]
  simp [length_paddedDigits (by omega : 0 < 4) hy, length_paddedDigits (by omega : 0 < 2) hm,
    length_paddedDigits (by omega : 0 < 2) hd]

/-- A text gives a date exactly where, apart from blanks around it, it is one to four decimal
digits, a hyphen, one or two digits, a hyphen and one or two digits, of any scripts, and the numbers
that they write are those of the date.  A written date reads back, and the text that is written for
what is read has ten characters and reads back and is written as itself. -/
theorem reads_written_dates (s : String) :
    (∀ d : Date, parse? s = some d ↔ Writes s d.year d.month d.day) ∧
    ((parse? s).isSome = true ↔ ∃ year month day, Writes s year month day ∧
      IsDay year month day) ∧
    (∀ d : Date, parse? d.text = some d) ∧
    ∀ t ∈ (parse? s).map text, t.length = 10 ∧ (parse? t).map text = some t := by
  refine ⟨fun d => parse?_eq_some_iff, ?_, parse?_text, ?_⟩
  · rw [Option.isSome_iff_exists]
    constructor
    · rintro ⟨d, hd⟩
      exact ⟨d.year, d.month, d.day, parse?_eq_some_iff.mp hd, d.isDay⟩
    · rintro ⟨year, month, day, hwrites, hday⟩
      exact ⟨⟨year, month, day, hday⟩, parse?_eq_some_iff.mpr hwrites⟩
  · intro t ht
    obtain ⟨d, -, rfl⟩ := Option.map_eq_some_iff.mp ht
    rw [parse?_text]
    exact ⟨d.length_text, rfl⟩

/-- Digits of three scripts, none of them a zero in front, and blanks of two kinds. -/
theorem reads_written_dates_mixed :
    let s := "\u20031\u096F6\u096D-5-\u0663\n"
    Writes s 1967 5 3 ∧ parse? s = some ⟨1967, 5, 3, by decide⟩ ∧
      "1967-05-03" ∈ (parse? s).map text ∧ "1967-05-03".length = 10 ∧
      (parse? "1967-05-03").map text = some "1967-05-03" := by
  intro s
  obtain ⟨hdate, -, -, hwritten⟩ := reads_written_dates s
  have hs : parse? s = some ⟨1967, 5, 3, by decide⟩ := by decide +kernel
  have ht : "1967-05-03" ∈ (parse? s).map text := by
    rw [hs]
    decide +kernel
  exact ⟨(hdate _).mp hs, hs, ht, hwritten _ ht⟩

/-! ### Order -/

theorem append_lt_append_iff {as bs cs ds : List Char} (h : as.length = bs.length) :
    as ++ cs < bs ++ ds ↔ as < bs ∨ as = bs ∧ cs < ds := by
  induction as generalizing bs with
  | nil =>
    rw [List.length_eq_zero_iff.mp h.symm]
    simp
  | cons a as ih =>
    obtain ⟨b, bs, rfl⟩ := List.exists_cons_of_length_eq_add_one h.symm
    simp only [List.length_cons, Nat.add_right_cancel_iff] at h
    rw [List.cons_append, List.cons_append, List.cons_lt_cons_iff, List.cons_lt_cons_iff, ih h,
      List.cons.injEq]
    tauto

theorem padded_lt_iff {width m n : Nat} (hw : 0 < width) (hm : m < 10 ^ width)
    (hn : n < 10 ^ width) :
    (paddedDigits width m).map digitChar < (paddedDigits width n).map digitChar ↔ m < n := by
  rw [map_digitChar_lt_iff (by rw [length_paddedDigits hw hm, length_paddedDigits hw hn])
    (paddedDigits_lt_ten _ _) (paddedDigits_lt_ten _ _), ofDigits_paddedDigits,
    ofDigits_paddedDigits]

theorem padded_inj {width m n : Nat} (hw : 0 < width) (hm : m < 10 ^ width)
    (hn : n < 10 ^ width) :
    (paddedDigits width m).map digitChar = (paddedDigits width n).map digitChar ↔ m = n := by
  rw [map_digitChar_inj (by rw [length_paddedDigits hw hm, length_paddedDigits hw hn])
    (paddedDigits_lt_ten _ _) (paddedDigits_lt_ten _ _), ofDigits_paddedDigits,
    ofDigits_paddedDigits]

/-- The order of written dates is the order of the calendar. -/
theorem text_le_text_iff (d e : Date) : d.text ≤ e.text ↔ d ≤ e := by
  obtain ⟨hy, hm, hd⟩ := d.fields_lt
  obtain ⟨hy', hm', hd'⟩ := e.fields_lt
  have hlength {width m n : Nat} (hw : 0 < width) (hm : m < 10 ^ width) (hn : n < 10 ^ width) :
      ((paddedDigits width m).map digitChar).length =
        ((paddedDigits width n).map digitChar).length := by
    rw [List.length_map, List.length_map, length_paddedDigits hw hm, length_paddedDigits hw hn]
  have hlt : e.text < d.text ↔ e.year < d.year ∨ e.year = d.year ∧
      (e.month < d.month ∨ e.month = d.month ∧ e.day < d.day) := by
    change e.text.toList < d.text.toList ↔ _
    rw [toList_text, toList_text, append_lt_append_iff (hlength (by omega) hy' hy),
      padded_lt_iff (by omega) hy' hy, padded_inj (by omega) hy' hy, List.cons_lt_cons_iff,
      append_lt_append_iff (hlength (by omega) hm' hm), padded_lt_iff (by omega) hm' hm,
      padded_inj (by omega) hm' hm, List.cons_lt_cons_iff, padded_lt_iff (by omega) hd' hd]
    simp
  rw [← String.not_lt, hlt, le_iff]
  omega

theorem text_inj {d e : Date} : d.text = e.text ↔ d = e := by
  constructor
  · intro h
    have hparse : some d = some e := by rw [← parse?_text d, h, parse?_text]
    exact Option.some.inj hparse
  · rintro rfl
    rfl

/-- The day `e` follows the day `d`: in its month, as the first of the next month, or as the first
of the next year. -/
inductive IsNext (d e : Date) : Prop
  | day (hyear : e.year = d.year) (hmonth : e.month = d.month) (hday : e.day = d.day + 1)
  | month (hlast : d.day = monthDays d.year d.month) (hyear : e.year = d.year)
      (hmonth : e.month = d.month + 1) (hday : e.day = 1)
  | year (hlast : d.month = 12 ∧ d.day = 31) (hyear : e.year = d.year + 1)
      (hfirst : e.month = 1 ∧ e.day = 1)

/-- A number that grows from day to day. -/
def rank (d : Date) : Nat := d.year * 10000 + d.month * 100 + d.day

theorem rank_le_iff (d e : Date) : d.rank ≤ e.rank ↔ d ≤ e := by
  have := d.fields_lt
  have := e.fields_lt
  rw [le_iff, rank, rank]
  omega

theorem rank_lt_of_isNext {d e : Date} (h : IsNext d e) : d.rank < e.rank := by
  have := d.fields_lt
  unfold rank
  cases h with
  | day | month | year => omega

theorem eq_of_fields {d e : Date} (hyear : d.year = e.year) (hmonth : d.month = e.month)
    (hday : d.day = e.day) : d = e := by
  cases d
  cases e
  cases hyear
  cases hmonth
  cases hday
  rfl

theorem one_le_monthDays (year month : Nat) : 1 ≤ monthDays year month := by
  unfold monthDays
  repeat' split
  all_goals omega

theorem fields_of_ne {d e : Date} (h : d ≤ e) (hne : d ≠ e) : d.year < e.year ∨
    d.year = e.year ∧ (d.month < e.month ∨ d.month = e.month ∧ d.day < e.day) := by
  have : ¬(d.year = e.year ∧ d.month = e.month ∧ d.day = e.day) := by
    rintro ⟨hyear, hmonth, hday⟩
    exact hne (eq_of_fields hyear hmonth hday)
  rw [le_iff] at h
  omega

/-- Before a later day there is room for the day that follows. -/
theorem exists_isNext {d e : Date} (h : d ≤ e) (hne : d ≠ e) : ∃ f, IsNext d f ∧ f ≤ e := by
  obtain ⟨hyear, hmonth, hday⟩ := d.isDay
  obtain ⟨hyear', hmonth', hday'⟩ := e.isDay
  have hfields := fields_of_ne h hne
  by_cases hlast : d.day = monthDays d.year d.month
  · -- Behind the last day of a month, the two dates are not in the same month.
    have hmonths : d.year < e.year ∨ d.year = e.year ∧ d.month < e.month := by
      rcases hfields with hyears | ⟨hsame, hmonths | ⟨hsame', hdays⟩⟩
      · exact .inl hyears
      · exact .inr ⟨hsame, hmonths⟩
      · rw [← hsame, ← hsame'] at hday'
        omega
    by_cases hdecember : d.month = 12
    · rw [hdecember] at hlast
      refine ⟨⟨d.year + 1, 1, 1, by omega, by omega, by decide, one_le_monthDays _ _⟩,
        .year ⟨hdecember, hlast⟩ rfl ⟨rfl, rfl⟩, ?_⟩
      rw [le_iff]
      dsimp only
      omega
    · refine ⟨⟨d.year, d.month + 1, 1, hyear, by omega, by decide, one_le_monthDays _ _⟩,
        .month hlast rfl rfl rfl, ?_⟩
      rw [le_iff]
      dsimp only
      omega
  · refine ⟨⟨d.year, d.month, d.day + 1, hyear, hmonth, by omega, by omega⟩, .day rfl rfl rfl, ?_⟩
    rw [le_iff]
    dsimp only
    omega

/-- The calendar goes from day to day: the days from `d` on are those that come after it in turn. -/
theorem le_iff_reaches (d e : Date) : d ≤ e ↔ Relation.ReflTransGen IsNext d e := by
  constructor
  · intro h
    induction hgap : e.rank - d.rank using Nat.strong_induction_on generalizing d with
    | _ gap ih =>
      by_cases hne : d = e
      · rw [hne]
      · obtain ⟨f, hnext, hf⟩ := exists_isNext h hne
        have hless := rank_lt_of_isNext hnext
        have hbound := (rank_le_iff f e).mpr hf
        exact .head hnext (ih (e.rank - f.rank) (by omega) f hf rfl)
  · intro h
    rw [← rank_le_iff]
    induction h with
    | refl => exact Nat.le_refl _
    | tail _ hnext ih => exact ih.trans (rank_lt_of_isNext hnext).le

end Catalogue.Date
