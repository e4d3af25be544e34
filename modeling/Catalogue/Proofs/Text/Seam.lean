import Catalogue.Proofs.Results
import Catalogue.Proofs.Text.Percent
import Mathlib.Data.List.TakeWhile

/-! Seams in a raw text: places where a character of ASCII is written, by itself or escaped, over
which no escape and no sequence of bytes reaches.  What stands before a seam and what stands behind
it are decoded apart, and the whole is refused exactly where one of them is. -/

namespace Catalogue.Text.Percent

/-! ### Bytes -/

section Bytes

variable {high low : Char}

theorem escape?_eq_none (h : hexValue? high = none ∨ hexValue? low = none) :
    escape? high low = none := by
  rcases h with h | h
  · simp [escape?, h]
  · cases hhigh : hexValue? high <;> simp [escape?, h, hhigh]

/-- The bytes that are done stay in front. -/
theorem bytesFrom_append_done (front done : List UInt8) (raw : List Char) :
    bytesFrom (front ++ done) raw = done.reverse ++ bytesFrom front raw := by
  fun_induction bytesFrom front raw with
  | case1 front => simp [bytesFrom]
  | case2 front high low rest b hescape ih =>
    rw [bytesFrom_escape hescape, ← ih, List.cons_append]
  | case3 front high low rest hescape ih =>
    rw [bytesFrom_literal hescape, ← ih, List.cons_append]
  | case4 front c cs hplain ih =>
    rw [bytesFrom_plain fun high low rest hc hcs => (hplain high low rest hc hcs).elim, ← ih,
      List.cons_append]

theorem bytesFrom_eq (done : List UInt8) (raw : List Char) :
    bytesFrom done raw = done.reverse ++ bytes raw := bytesFrom_append_done [] done raw

theorem bytesFrom_append {s t : List Char} (ht : ∀ c ∈ t.head?, hexValue? c = none)
    (done : List UInt8) : bytesFrom done (s ++ t) = bytesFrom done s ++ bytes t := by
  fun_induction bytesFrom done s with
  | case1 done => exact bytesFrom_eq done t
  | case2 done high low rest b hescape ih => exact (bytesFrom_escape hescape done).trans ih
  | case3 done high low rest hescape ih => exact (bytesFrom_literal hescape done).trans ih
  | case4 done c cs hplain ih =>
    have hnone : ∀ high low rest, c = '%' → cs ++ t = high :: low :: rest →
        escape? high low = none := by
      intro high low rest hc hcs
      -- An escape would reach into the second part, which starts with no digit.
      apply escape?_eq_none
      match cs with
      | [] =>
        obtain rfl : t = high :: low :: rest := hcs
        exact .inl (ht high rfl)
      | [_] =>
        obtain ⟨rfl, rfl⟩ := List.cons.inj hcs
        exact .inr (ht low rfl)
      | _ :: _ :: _ => exact (hplain _ _ _ hc rfl).elim
    exact (bytesFrom_plain hnone done).trans ih

/-- Characters are read apart where the second ones start with no digit of an escape. -/
theorem bytes_append {s t : List Char} (ht : ∀ c ∈ t.head?, hexValue? c = none) :
    bytes (s ++ t) = bytes s ++ bytes t := bytesFrom_append ht []

end Bytes

/-- A character of ASCII is written, by itself or escaped, so that no escape reaches over it. -/
inductive Seam (c : Char) : List Char → Prop
  | plain (hpercent : c ≠ '%') (hdigit : hexValue? c = none) : Seam c [c]
  | escaped {code : List Char} (h : Escapes (String.utf8EncodeChar c) code) : Seam c code

section Seam

variable {c : Char} {seam : List Char}

theorem Seam.isAscii (h : Seam c seam) (hc : Text.isAscii c = true) :
    ∀ d ∈ seam, Text.isAscii d = true := by
  cases h with
  | plain => simpa using hc
  | escaped h => exact h.isAscii

theorem Seam.exists_cons (h : Seam c seam) : ∃ d more, seam = d :: more ∧ hexValue? d = none := by
  cases h with
  | plain _ hdigit => exact ⟨c, [], rfl, hdigit⟩
  | escaped h =>
    obtain ⟨more, rfl⟩ := h.head (by simp)
    exact ⟨'%', more, rfl, by decide⟩

theorem Seam.ne_nil (h : Seam c seam) : seam ≠ [] := by
  obtain ⟨d, more, rfl, -⟩ := h.exists_cons
  exact List.cons_ne_nil d more

/-- No escape reaches over a seam. -/
theorem Seam.bytes_append (h : Seam c seam) (hc : Text.isAscii c = true) (s t : List Char) :
    bytes (s ++ (seam ++ t)) = bytes s ++ .ofNat c.toNat :: bytes t := by
  have hstart : ∀ d ∈ (seam ++ t).head?, hexValue? d = none := by
    obtain ⟨d, more, rfl, hd⟩ := h.exists_cons
    simpa using hd
  have hseam : bytes (seam ++ t) = .ofNat c.toNat :: bytes t := by
    cases h with
    | plain hpercent =>
      rw [bytes, List.singleton_append, bytesFrom_cons hpercent, bytesFrom_eq]
      rfl
    | escaped h =>
      have hcode : c.toNat < 0x80 := by simpa [Text.isAscii] using hc
      rw [← Utf8.encodeChar_eq, Utf8.encodeChar_of_ascii hcode] at h
      rw [bytes, bytesFrom_escapes h, bytesFrom_eq]
      rfl
  rw [Percent.bytes_append hstart, hseam]

theorem Seam.decode_bytes_iff (h : Seam c seam) (hc : Text.isAscii c = true) {s t cs : List Char} :
    Utf8.decode (bytes (s ++ (seam ++ t))) = .ok cs ↔
      ∃ as bs, Utf8.decode (bytes s) = .ok as ∧ Utf8.decode (bytes t) = .ok bs ∧
        cs = as ++ c :: bs := by
  have hcode : c.toNat < 0x80 := by simpa [Text.isAscii] using hc
  have hbyte : (UInt8.ofNat c.toNat).toNat = c.toNat := Utf8.toNat_ofNat_of_lt (by omega)
  rw [h.bytes_append hc, Utf8.decode_append_cons_iff (by omega), hbyte, Char.ofNat_toNat]

end Seam

/-! ### Runs -/

/-- The characters that a raw text stands for. -/
def Decodes (raw cs : List Char) : Prop :=
  ∃ texts, (runs raw).mapM decodeRun = .ok texts ∧ texts.flatten = cs

theorem decode_eq_ok_iff {raw s : String} : decode raw = .ok s ↔ Decodes raw.toList s.toList := by
  rw [decode, bind_eq_ok]
  constructor
  · rintro ⟨texts, htexts, h⟩
    cases h
    exact ⟨texts, htexts, String.toList_ofList.symm⟩
  · rintro ⟨texts, htexts, h⟩
    refine ⟨texts, htexts, ?_⟩
    rw [h, String.ofList_toList]
    rfl

theorem decodes_append_iff {l m cs : List Char}
    (h : ∀ x ∈ l.getLast?, ∀ y ∈ m.head?, isAscii x ≠ isAscii y) :
    Decodes (l ++ m) cs ↔ ∃ as bs, Decodes l as ∧ Decodes m bs ∧ cs = as ++ bs := by
  have hruns : runs (l ++ m) = runs l ++ runs m := by
    apply List.splitBy_append
    intro x hx y hy
    simpa using h x hx y hy
  unfold Decodes
  rw [hruns, List.mapM_append]
  constructor
  · rintro ⟨texts, htexts, rfl⟩
    obtain ⟨front, hfront, htexts⟩ := bind_eq_ok.mp htexts
    obtain ⟨back, hback, htexts⟩ := bind_eq_ok.mp htexts
    cases htexts
    exact ⟨_, _, ⟨front, hfront, rfl⟩, ⟨back, hback, rfl⟩, List.flatten_append⟩
  · rintro ⟨_, _, ⟨front, hfront, rfl⟩, ⟨back, hback, rfl⟩, rfl⟩
    refine ⟨front ++ back, ?_, List.flatten_append⟩
    rw [hfront, hback]
    rfl

theorem decodes_nil_iff {cs : List Char} : Decodes [] cs ↔ cs = [] := by
  constructor
  · rintro ⟨texts, htexts, rfl⟩
    cases htexts
    rfl
  · rintro rfl
    exact ⟨[], rfl, rfl⟩

/-- Characters of ASCII are read as one run. -/
theorem decodes_ascii_iff {run cs : List Char} (h : ∀ c ∈ run, isAscii c = true) :
    Decodes run cs ↔ Utf8.decode (bytes run) = .ok cs := by
  by_cases hempty : run = []
  · subst hempty
    have hbytes : bytes [] = [] := by simp [bytes, bytesFrom]
    rw [decodes_nil_iff, hbytes, Utf8.decode_eq_ok_iff]
    cases cs with
    | nil => simp
    | cons c cs => simp [Utf8.encodeChar_eq]
  · have hchain : run.IsChain fun a b => (isAscii a == isAscii b) = true := by
      apply List.Pairwise.isChain
      apply List.pairwise_of_forall_mem_list
      intro a ha b hb
      rw [h a ha, h b hb]
      rfl
    have hruns : runs run = [run] := List.splitBy_of_isChain hempty hchain
    have hdecode : decodeRun run = Utf8.decode (bytes run) := by
      rw [decodeRun, if_pos (List.all_eq_true.mpr h)]
    unfold Decodes
    rw [hruns, ← hdecode, List.mapM_cons, List.mapM_nil]
    constructor
    · rintro ⟨texts, htexts, rfl⟩
      obtain ⟨text, htext, htexts⟩ := bind_eq_ok.mp htexts
      cases htexts
      rw [htext, List.flatten_singleton]
    · intro hrun
      rw [hrun]
      exact ⟨[cs], rfl, List.flatten_singleton⟩

theorem exists_first_run (t : List Char) : ∃ run back, t = run ++ back ∧
    (∀ x ∈ run, isAscii x = true) ∧ ∀ x ∈ back.head?, isAscii x = false := by
  refine ⟨t.takeWhile isAscii, t.dropWhile isAscii, List.takeWhile_append_dropWhile.symm,
    fun x hx => List.mem_takeWhile_imp hx, ?_⟩
  intro x hx
  have hnot := List.head?_dropWhile_not isAscii t
  rw [Option.mem_def.mp hx] at hnot
  simpa using hnot

theorem exists_last_run (s : List Char) : ∃ front run, s = front ++ run ∧
    (∀ x ∈ front.getLast?, isAscii x = false) ∧ ∀ x ∈ run, isAscii x = true := by
  obtain ⟨run, back, hs, hrun, hback⟩ := exists_first_run s.reverse
  refine ⟨back.reverse, run.reverse, ?_, ?_, ?_⟩
  · rw [← List.reverse_append, ← hs, List.reverse_reverse]
  · rwa [List.getLast?_reverse]
  · simpa using hrun

section Runs

variable {front run back cs : List Char}

/-- A run of ASCII is read apart from what stands before it. -/
theorem decodes_front_iff (hfront : ∀ x ∈ front.getLast?, isAscii x = false)
    (hrun : ∀ y ∈ run.head?, isAscii y = true) :
    Decodes (front ++ run) cs ↔
      ∃ as bs, Decodes front as ∧ Decodes run bs ∧ cs = as ++ bs := by
  apply decodes_append_iff
  intro x hx y hy
  rw [hfront x hx, hrun y hy]
  decide

theorem decodes_back_iff (hrun : ∀ x ∈ run, isAscii x = true)
    (hback : ∀ y ∈ back.head?, isAscii y = false) :
    Decodes (run ++ back) cs ↔
      ∃ as bs, Utf8.decode (bytes run) = .ok as ∧ Decodes back bs ∧ cs = as ++ bs := by
  simp only [← decodes_ascii_iff hrun]
  apply decodes_append_iff
  intro x hx y hy
  rw [hrun x (List.mem_of_mem_getLast? hx), hback y hy]
  decide

end Runs

/-- What stands before a seam and what stands behind it are read apart. -/
theorem decodes_seam_iff {c : Char} {seam : List Char} (h : Seam c seam)
    (hc : isAscii c = true) {s t cs : List Char} :
    Decodes (s ++ (seam ++ t)) cs ↔
      ∃ as bs, Decodes s as ∧ Decodes t bs ∧ cs = as ++ c :: bs := by
  -- The seam makes one run of the last one before it and the first one behind it.
  obtain ⟨front, run, rfl, hfront, hrun⟩ := exists_last_run s
  obtain ⟨run', back, rfl, hrun', hback⟩ := exists_first_run t
  have hmiddle : ∀ x ∈ run ++ (seam ++ run'), isAscii x = true := by
    simp only [List.forall_mem_append]
    exact ⟨hrun, h.isAscii hc, hrun'⟩
  have hstart : ∀ y ∈ (run ++ (seam ++ run') ++ back).head?, isAscii y = true := by
    intro y hy
    rw [List.head?_append_of_ne_nil _ (by simp [h.ne_nil])] at hy
    exact hmiddle y (List.mem_of_mem_head? hy)
  have hsplit : front ++ run ++ (seam ++ (run' ++ back)) =
      front ++ (run ++ (seam ++ run') ++ back) := by simp only [List.append_assoc]
  rw [hsplit, decodes_front_iff hfront hstart]
  simp only [decodes_front_iff hfront fun y hy => hrun y (List.mem_of_mem_head? hy),
    decodes_back_iff hmiddle hback, decodes_back_iff hrun' hback, decodes_ascii_iff hrun,
    h.decode_bytes_iff hc]
  constructor
  · rintro ⟨_, _, hfirst, ⟨_, _, ⟨_, _, hleft, hright, rfl⟩, hlast, rfl⟩, rfl⟩
    exact ⟨_, _, ⟨_, _, hfirst, hleft, rfl⟩, ⟨_, _, hright, hlast, rfl⟩, by simp⟩
  · rintro ⟨_, _, ⟨_, _, hfirst, hleft, rfl⟩, ⟨_, _, hright, hlast, rfl⟩, rfl⟩
    exact ⟨_, _, hfirst, ⟨_, _, ⟨_, _, hleft, hright, rfl⟩, hlast, rfl⟩, by simp⟩

/-- A text is decoded apart on both sides of a seam. -/
theorem decode_seam_iff {c : Char} {seam s t u : String} (h : Seam c seam.toList)
    (hc : isAscii c = true) :
    decode (s ++ seam ++ t) = .ok u ↔ ∃ a b, decode s = .ok a ∧ decode t = .ok b ∧
      u = a ++ String.singleton c ++ b := by
  rw [decode_eq_ok_iff, String.toList_append, String.toList_append, List.append_assoc,
    decodes_seam_iff h hc]
  constructor
  · rintro ⟨as, bs, has, hbs, hu⟩
    refine ⟨String.ofList as, String.ofList bs, ?_, ?_, ?_⟩
    · rwa [decode_eq_ok_iff, String.toList_ofList]
    · rwa [decode_eq_ok_iff, String.toList_ofList]
    · apply String.toList_inj.mp
      simp [hu]
  · rintro ⟨a, b, ha, hb, rfl⟩
    exact ⟨_, _, decode_eq_ok_iff.mp ha, decode_eq_ok_iff.mp hb, by simp⟩

end Catalogue.Text.Percent
