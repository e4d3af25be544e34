import Catalogue.Text.Wide
import Mathlib.Data.List.Basic

/-! UTF-8 there and back: the bytes of a text are read as that text, by the strict reader and by the
reader that looks at the first bytes for the encoding.  The strict reader reads nothing else, so the
bytes before and behind one of ASCII are read apart. -/

namespace Catalogue.Text

namespace Utf8

/-- A byte with a number below 256 has that number. -/
theorem toNat_ofNat_of_lt {n : Nat} (h : n < 256) : (UInt8.ofNat n).toNat = n := by
  rw [UInt8.toNat_ofNat']
  exact Nat.mod_eq_of_lt h

/-- The numbers of characters: those of surrogates and those past U+10FFFF are left out. -/
theorem toNat_cases (c : Char) :
    c.toNat < 0xD800 ∨ (0xDFFF < c.toNat ∧ c.toNat < 0x110000) := c.valid

theorem isContinuation_ofNat {n : Nat} (h : n < 64) :
    isContinuation (.ofNat (0x80 + n)) = true := by
  rw [isContinuation, toNat_ofNat_of_lt (by omega)]
  simp only [Bool.and_eq_true, decide_eq_true_eq]
  omega

theorem extend_ofNat (high : Nat) {n : Nat} (h : n < 64) :
    extend high (.ofNat (0x80 + n)) = high * 64 + n := by
  rw [extend, toNat_ofNat_of_lt (by omega)]
  omega

theorem maySecond_of_three {n : Nat} (h : 0x800 ≤ n) (h' : n < 0x10000)
    (hc : n < 0xD800 ∨ 0xDFFF < n) :
    maySecond (.ofNat (0xE0 + n / 4096)) (.ofNat (0x80 + n / 64 % 64)) = true := by
  rw [maySecond, isContinuation_ofNat (Nat.mod_lt _ (by omega)), toNat_ofNat_of_lt (by omega),
    toNat_ofNat_of_lt (by omega)]
  simp only [Bool.true_and, Bool.and_eq_true, Bool.or_eq_true, bne_iff_ne, decide_eq_true_eq]
  omega

theorem maySecond_of_four {n : Nat} (h : 0x10000 ≤ n) (h' : n < 0x110000) :
    maySecond (.ofNat (0xF0 + n / 262144)) (.ofNat (0x80 + n / 4096 % 64)) = true := by
  rw [maySecond, isContinuation_ofNat (Nat.mod_lt _ (by omega)), toNat_ofNat_of_lt (by omega),
    toNat_ofNat_of_lt (by omega)]
  simp only [Bool.true_and, Bool.and_eq_true, Bool.or_eq_true, bne_iff_ne, decide_eq_true_eq]
  omega

/-- The bytes of a character are read as that character. -/
theorem read_encodeChar (c : Char) (rest : List UInt8) :
    ∃ width, read (encodeChar c ++ rest) = .char c width rest := by
  have hc := toNat_cases c
  unfold encodeChar
  dsimp only
  split_ifs with h1 h2 h3
  · refine ⟨1, ?_⟩
    rw [List.singleton_append, read.eq_def]
    simp only [toNat_ofNat_of_lt (show c.toNat < 256 by omega), h1, if_true, Char.ofNat_toNat]
  · refine ⟨2, ?_⟩
    have hfirst : (UInt8.ofNat (0xC0 + c.toNat / 64)).toNat = 0xC0 + c.toNat / 64 :=
      toNat_ofNat_of_lt (by omega)
    have hvalue : (0xC0 + c.toNat / 64) % 32 * 64 + c.toNat % 64 = c.toNat := by omega
    rw [List.cons_append, List.singleton_append, read.eq_def]
    simp only [hfirst]
    rw [if_neg (by omega), if_neg (by omega), if_pos (by omega),
      if_pos (isContinuation_ofNat (Nat.mod_lt _ (by omega))),
      extend_ofNat _ (Nat.mod_lt _ (by omega)), hvalue, Char.ofNat_toNat]
  · refine ⟨3, ?_⟩
    have hfirst : (UInt8.ofNat (0xE0 + c.toNat / 4096)).toNat = 0xE0 + c.toNat / 4096 :=
      toNat_ofNat_of_lt (by omega)
    have hvalue : ((0xE0 + c.toNat / 4096) % 16 * 64 + c.toNat / 64 % 64) * 64 + c.toNat % 64 =
        c.toNat := by omega
    rw [List.cons_append, List.cons_append, List.singleton_append, read.eq_def]
    simp only [hfirst]
    rw [if_neg (by omega), if_neg (by omega), if_neg (by omega),
      maySecond_of_three (by omega) h3 (by omega),
      isContinuation_ofNat (Nat.mod_lt _ (by omega)), if_neg (by decide), if_neg (by decide),
      if_pos (by omega), extend_ofNat _ (Nat.mod_lt _ (by omega)),
      extend_ofNat _ (Nat.mod_lt _ (by omega)), hvalue, Char.ofNat_toNat]
  · refine ⟨4, ?_⟩
    have hfirst : (UInt8.ofNat (0xF0 + c.toNat / 262144)).toNat = 0xF0 + c.toNat / 262144 :=
      toNat_ofNat_of_lt (by omega)
    have hvalue : (((0xF0 + c.toNat / 262144) % 8 * 64 + c.toNat / 4096 % 64) * 64 +
        c.toNat / 64 % 64) * 64 + c.toNat % 64 = c.toNat := by omega
    rw [List.cons_append, List.cons_append, List.cons_append, List.singleton_append, read.eq_def]
    simp only [hfirst]
    rw [if_neg (by omega), if_neg (by omega), if_neg (by omega),
      maySecond_of_four (by omega) (by omega),
      isContinuation_ofNat (Nat.mod_lt _ (by omega)),
      isContinuation_ofNat (Nat.mod_lt _ (by omega)), if_neg (by decide), if_neg (by decide),
      if_neg (by omega), if_pos rfl, extend_ofNat _ (Nat.mod_lt _ (by omega)),
      extend_ofNat _ (Nat.mod_lt _ (by omega)), extend_ofNat _ (Nat.mod_lt _ (by omega)), hvalue,
      Char.ofNat_toNat]

theorem decodeFrom_flatMap (position : Nat) (done cs : List Char) :
    decodeFrom position done (cs.flatMap encodeChar) = .ok (done.reverse ++ cs) := by
  induction cs generalizing position done with
  | nil =>
    rw [List.flatMap_nil, decodeFrom]
    simp [read]
  | cons c cs ih =>
    obtain ⟨width, hread⟩ := read_encodeChar c (cs.flatMap encodeChar)
    rw [List.flatMap_cons, decodeFrom]
    split
    · next hfinished =>
      rw [hread] at hfinished
      cases hfinished
    · next d width rest hchar =>
      rw [hread] at hchar
      cases hchar
      rw [ih]
      simp
    · next fault width rest hfault =>
      rw [hread] at hfault
      cases hfault

/-- The bytes of a text are read as that text. -/
theorem decode_encode (s : String) : decode (encode s) = .ok s.toList := by
  rw [decode, encode, decodeFrom_flatMap]
  rfl

theorem encode_append (s t : String) : encode (s ++ t) = encode s ++ encode t := by
  simp [encode]

/-! ### What is read was written -/

theorem isContinuation_iff {b : UInt8} :
    isContinuation b = true ↔ 128 ≤ b.toNat ∧ b.toNat < 192 := by
  simp [isContinuation]

theorem maySecond_iff {a b : UInt8} : maySecond a b = true ↔ isContinuation b = true ∧
    (a.toNat = 0xE0 → 0xA0 ≤ b.toNat) ∧ (a.toNat = 0xED → b.toNat < 0xA0) ∧
    (a.toNat = 0xF0 → 0x90 ≤ b.toNat) ∧ (a.toNat = 0xF4 → b.toNat < 0x90) := by
  simp only [maySecond, Bool.and_eq_true, Bool.or_eq_true, bne_iff_ne, decide_eq_true_eq]
  tauto

theorem toNat_ofNat_char {n : Nat} (h : n < 0xD800 ∨ (0xDFFF < n ∧ n < 0x110000)) :
    (Char.ofNat n).toNat = n := by
  have hvalid : n.isValidChar := h
  rw [Char.ofNat, dif_pos hvalid]
  rfl

theorem ofNat_of_toNat_eq {n : Nat} {b : UInt8} (h : n = b.toNat) : UInt8.ofNat n = b := by
  rw [h, UInt8.ofNat_toNat]

section Read

variable {a b c d : UInt8}

theorem encodeChar_one (ha : a.toNat < 0x80) : encodeChar (Char.ofNat a.toNat) = [a] := by
  rw [encodeChar, toNat_ofNat_char (by omega), if_pos ha, UInt8.ofNat_toNat]

theorem encodeChar_two (ha : 0xC2 ≤ a.toNat ∧ a.toNat < 0xE0) (hb : isContinuation b = true) :
    encodeChar (Char.ofNat (extend (a.toNat % 32) b)) = [a, b] := by
  rw [isContinuation_iff] at hb
  unfold extend
  rw [encodeChar, toNat_ofNat_char (by omega), if_neg (by omega), if_pos (by omega),
    ofNat_of_toNat_eq (b := a) (by omega), ofNat_of_toNat_eq (b := b) (by omega)]

theorem encodeChar_three (ha : 0xE0 ≤ a.toNat ∧ a.toNat < 0xF0) (hb : maySecond a b = true)
    (hc : isContinuation c = true) :
    encodeChar (Char.ofNat (extend (extend (a.toNat % 16) b) c)) = [a, b, c] := by
  rw [maySecond_iff, isContinuation_iff] at hb
  rw [isContinuation_iff] at hc
  unfold extend
  rw [encodeChar, toNat_ofNat_char (by omega), if_neg (by omega), if_neg (by omega),
    if_pos (by omega), ofNat_of_toNat_eq (b := a) (by omega), ofNat_of_toNat_eq (b := b) (by omega),
    ofNat_of_toNat_eq (b := c) (by omega)]

theorem encodeChar_four (ha : 0xF0 ≤ a.toNat ∧ a.toNat ≤ 0xF4) (hb : maySecond a b = true)
    (hc : isContinuation c = true) (hd : isContinuation d = true) :
    encodeChar (Char.ofNat (extend (extend (extend (a.toNat % 8) b) c) d)) = [a, b, c, d] := by
  rw [maySecond_iff, isContinuation_iff] at hb
  rw [isContinuation_iff] at hc hd
  unfold extend
  rw [encodeChar, toNat_ofNat_char (by omega), if_neg (by omega), if_neg (by omega),
    if_neg (by omega), ofNat_of_toNat_eq (b := a) (by omega), ofNat_of_toNat_eq (b := b) (by omega),
    ofNat_of_toNat_eq (b := c) (by omega), ofNat_of_toNat_eq (b := d) (by omega)]

end Read

/-- What is read as a character are its bytes. -/
theorem eq_append_of_read {bytes rest : List UInt8} {c : Char} {width : Nat}
    (h : read bytes = .char c width rest) : bytes = encodeChar c ++ rest := by
  revert h
  fun_cases read bytes with
  | case2 a r ha =>
    intro h
    cases h
    rw [encodeChar_one ha, List.singleton_append]
  | case5 a hstart hvalid b r ha hb =>
    intro h
    cases h
    rw [encodeChar_two (by omega) hb]
    rfl
  | case10 a hstart hvalid b hlong hb c r hc ha =>
    intro h
    cases h
    rw [encodeChar_three (by omega) (by simpa using hb) (by simpa using hc)]
    rfl
  | case12 a hstart hvalid b hlong hb c hc hlonger d r hd =>
    intro h
    cases h
    rw [encodeChar_four (by omega) (by simpa using hb) (by simpa using hc) hd]
    rfl
  | _ =>
    intro h
    cases h

theorem eq_nil_of_read {bytes : List UInt8} (h : read bytes = .finished) : bytes = [] := by
  revert h
  fun_cases read bytes with
  | case1 => exact fun _ => rfl
  | _ =>
    intro h
    cases h

theorem decodeFrom_eq_ok_iff {position : Nat} {done cs : List Char} {bytes : List UInt8} :
    decodeFrom position done bytes = .ok cs ↔
      ∃ ds, bytes = ds.flatMap encodeChar ∧ cs = done.reverse ++ ds := by
  constructor
  · intro h
    fun_induction decodeFrom position done bytes with
    | case1 position done bytes hread =>
      cases h
      exact ⟨[], eq_nil_of_read hread, by simp⟩
    | case2 position done bytes c width rest hread ih =>
      obtain ⟨ds, rfl, rfl⟩ := ih h
      exact ⟨c :: ds, eq_append_of_read hread, by simp⟩
    | case3 => cases h
  · rintro ⟨ds, rfl, rfl⟩
    exact decodeFrom_flatMap position done ds

/-- Bytes are read as a text exactly where they are its bytes. -/
theorem decode_eq_ok_iff {bytes : List UInt8} {cs : List Char} :
    decode bytes = .ok cs ↔ bytes = cs.flatMap encodeChar := by
  rw [decode, decodeFrom_eq_ok_iff]
  simp

/-! ### Bytes of ASCII -/

section Ascii

variable {b : UInt8} {c : Char}

theorem encodeChar_of_ascii (h : c.toNat < 0x80) : encodeChar c = [.ofNat c.toNat] := by
  rw [encodeChar, if_pos h]

/-- No byte of another character is one of ASCII. -/
theorem le_of_mem_encodeChar (hc : 0x80 ≤ c.toNat) : ∀ b ∈ encodeChar c, 0x80 ≤ b.toNat := by
  have hvalid := toNat_cases c
  have hbyte {n : Nat} (hn : 0x80 ≤ n ∧ n < 0x100) : 0x80 ≤ (UInt8.ofNat n).toNat := by
    rw [toNat_ofNat_of_lt hn.2]
    exact hn.1
  unfold encodeChar
  dsimp only
  split_ifs with h1 h2 h3
  · omega
  all_goals
    intro b hb
    simp only [List.mem_cons, List.not_mem_nil, or_false] at hb
    rcases hb with rfl | rfl | rfl | rfl
    all_goals exact hbyte (by omega)

/-- Where a byte of ASCII stands among the bytes of a text, its character stands in the text. -/
theorem flatMap_eq_append_cons (hb : b.toNat < 0x80) {cs : List Char} {xs ys : List UInt8}
    (h : cs.flatMap encodeChar = xs ++ b :: ys) : ∃ as bs, xs = as.flatMap encodeChar ∧
      ys = bs.flatMap encodeChar ∧ cs = as ++ Char.ofNat b.toNat :: bs := by
  induction cs generalizing xs with
  | nil => simp at h
  | cons c cs ih =>
    by_cases hc : 0x80 ≤ c.toNat
    · rw [List.flatMap_cons] at h
      have hbehind : ∃ rest, xs = encodeChar c ++ rest ∧
          cs.flatMap encodeChar = rest ++ b :: ys := by
        rcases List.append_eq_append_iff.mp h with hbehind | ⟨rest, hchar, hrest⟩
        · exact hbehind
        · cases rest with
          | nil => exact ⟨[], by rw [hchar, List.append_nil, List.append_nil], hrest.symm⟩
          | cons first rest =>
            obtain ⟨rfl, -⟩ := List.cons.inj hrest
            have hfirst := le_of_mem_encodeChar hc b (by simp [hchar])
            omega
      obtain ⟨rest, rfl, hrest⟩ := hbehind
      obtain ⟨as, bs, rfl, rfl, rfl⟩ := ih hrest
      exact ⟨c :: as, bs, rfl, rfl, rfl⟩
    · rw [List.flatMap_cons, encodeChar_of_ascii (by omega), List.singleton_append] at h
      cases xs with
      | nil =>
        obtain ⟨rfl, rfl⟩ := List.cons.inj h
        rw [toNat_ofNat_of_lt (by omega), Char.ofNat_toNat]
        exact ⟨[], cs, rfl, rfl, rfl⟩
      | cons x xs =>
        obtain ⟨rfl, hrest⟩ := List.cons.inj h
        obtain ⟨as, bs, rfl, rfl, rfl⟩ := ih hrest
        refine ⟨c :: as, bs, ?_, rfl, rfl⟩
        rw [List.flatMap_cons, encodeChar_of_ascii (by omega), List.singleton_append]

/-- Bytes on both sides of one of ASCII are read apart. -/
theorem decode_append_cons_iff (hb : b.toNat < 0x80) {xs ys : List UInt8} {cs : List Char} :
    decode (xs ++ b :: ys) = .ok cs ↔ ∃ as bs, decode xs = .ok as ∧ decode ys = .ok bs ∧
      cs = as ++ Char.ofNat b.toNat :: bs := by
  simp only [decode_eq_ok_iff]
  constructor
  · intro h
    exact flatMap_eq_append_cons hb h.symm
  · rintro ⟨as, bs, rfl, rfl, rfl⟩
    rw [List.flatMap_append, List.flatMap_cons, encodeChar_one hb, List.singleton_append]

end Ascii

end Utf8

/-- A text that starts as an object with members does is taken for UTF-8 and read as itself. -/
theorem Wide.decode?_encode (cs : List Char) :
    Wide.decode? (Utf8.encode (String.ofList ('\x7b' :: '"' :: cs))) =
      some (.sound (String.ofList ('\x7b' :: '"' :: cs))) := by
  have hbytes : Utf8.encode (String.ofList ('\x7b' :: '"' :: cs)) =
      0x7B :: 0x22 :: cs.flatMap Utf8.encodeChar := by
    rw [Utf8.encode, String.toList_ofList, List.flatMap_cons, List.flatMap_cons]
    rfl
  have hdetect : Wide.detect (0x7B :: 0x22 :: cs.flatMap Utf8.encodeChar) = .utf8 := rfl
  have hmarkless : Wide.withoutMark (0x7B :: 0x22 :: cs.flatMap Utf8.encodeChar) =
      0x7B :: 0x22 :: cs.flatMap Utf8.encodeChar := rfl
  rw [hbytes, Wide.decode?, hdetect]
  simp only
  rw [hmarkless, ← hbytes, Utf8.decode_encode]
  simp [Except.toOption]

end Catalogue.Text
