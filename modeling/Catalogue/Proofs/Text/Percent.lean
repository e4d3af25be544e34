import Catalogue.Proofs.Text.Utf8
import Catalogue.Text.Percent
import Mathlib.Data.List.SplitBy

/-! Percent encoded writings of a text.  Each of its characters is written as itself or by the
escapes of all bytes of its UTF-8 form; whichever is chosen for each of them, and in whichever case
the digits are, decoding gives the text back. -/

namespace Catalogue.Text

/-- The bytes of a character are those that the core library gives it. -/
theorem Utf8.encodeChar_eq (c : Char) : encodeChar c = String.utf8EncodeChar c := by
  have hc := toNat_cases c
  show encodeChar c = if c.toNat ≤ 127 then _ else if c.toNat ≤ 2047 then _ else
    if c.toNat ≤ 65535 then _ else _
  unfold encodeChar
  dsimp only
  split_ifs <;> first | omega | skip
  · rfl
  · rw [show 0xC0 + c.toNat / 64 = c.toNat / 64 % 32 + 192 by omega,
      show 0x80 + c.toNat % 64 = c.toNat % 64 + 128 by omega]
    rfl
  · rw [show 0xE0 + c.toNat / 4096 = c.toNat / 4096 % 16 + 224 by omega,
      show 0x80 + c.toNat / 64 % 64 = c.toNat / 64 % 64 + 128 by omega,
      show 0x80 + c.toNat % 64 = c.toNat % 64 + 128 by omega]
    rfl
  · rw [show 0xF0 + c.toNat / 262144 = c.toNat / 262144 % 8 + 240 by omega,
      show 0x80 + c.toNat / 4096 % 64 = c.toNat / 4096 % 64 + 128 by omega,
      show 0x80 + c.toNat / 64 % 64 = c.toNat / 64 % 64 + 128 by omega,
      show 0x80 + c.toNat % 64 = c.toNat % 64 + 128 by omega]
    rfl

namespace Percent

/-- The digit of a number below sixteen, in upper or in lower case. -/
def IsDigit (n : Nat) (c : Char) : Prop := c = upperHexDigit n ∨ c = hexDigit n

/-- The escapes of some bytes. -/
inductive Escapes : List UInt8 → List Char → Prop
  | nil : Escapes [] []
  | cons {b : UInt8} {bytes : List UInt8} {high low : Char} {code : List Char}
      (hhigh : IsDigit (b.toNat / 16) high) (hlow : IsDigit (b.toNat % 16) low)
      (hcode : Escapes bytes code) : Escapes (b :: bytes) ('%' :: high :: low :: code)

/-- Some characters are written: those of which `free` holds may stand for themselves. -/
inductive Writes (free : Char → Prop) : List Char → List Char → Prop
  | nil : Writes free [] []
  | plain {c : Char} {cs raw : List Char} (hc : free c) (h : Writes free cs raw) :
      Writes free (c :: cs) (c :: raw)
  | escaped {c : Char} {cs code raw : List Char} (hcode : Escapes (String.utf8EncodeChar c) code)
      (h : Writes free cs raw) : Writes free (c :: cs) (code ++ raw)

theorem IsDigit.hexValue? {n : Nat} {c : Char} (h : IsDigit n c) (hn : n < 16) :
    hexValue? c = some n := by
  have hall : ∀ n < 16, Text.hexValue? (upperHexDigit n) = some n ∧
      Text.hexValue? (hexDigit n) = some n := by decide
  rcases h with rfl | rfl
  · exact (hall n hn).1
  · exact (hall n hn).2

theorem IsDigit.cases {n : Nat} {c : Char} (h : IsDigit n c) (hn : n < 16) :
    c ∈ "0123456789ABCDEFabcdef".toList := by
  have hall : ∀ n < 16, upperHexDigit n ∈ "0123456789ABCDEFabcdef".toList ∧
      hexDigit n ∈ "0123456789ABCDEFabcdef".toList := by decide
  rcases h with rfl | rfl
  · exact (hall n hn).1
  · exact (hall n hn).2

theorem Escapes.mem {bytes : List UInt8} {code : List Char} (h : Escapes bytes code) {c : Char}
    (hc : c ∈ code) : c ∈ "%0123456789ABCDEFabcdef".toList := by
  induction h with
  | nil => simp at hc
  | @cons b bytes high low code hhigh hlow _ ih =>
    have hb := b.toNat_lt
    have hdigit {n : Nat} {d : Char} (hn : n < 16) (hd : IsDigit n d) :
        d ∈ "%0123456789ABCDEFabcdef".toList := List.mem_cons_of_mem _ (hd.cases hn)
    simp only [List.mem_cons] at hc
    rcases hc with rfl | rfl | rfl | hc
    · decide
    · exact hdigit (by omega) hhigh
    · exact hdigit (by omega) hlow
    · exact ih hc

theorem Writes.not_mem {free : Char → Prop} {cs raw : List Char} (h : Writes free cs raw) {c : Char}
    (hfree : ¬free c) (hc : c ∉ "%0123456789ABCDEFabcdef".toList) : c ∉ raw := by
  induction h with
  | nil => simp
  | plain hd _ ih =>
    intro hmem
    rcases List.mem_cons.mp hmem with rfl | hmem
    · exact hfree hd
    · exact ih hmem
  | escaped hcode _ ih =>
    intro hmem
    rcases List.mem_append.mp hmem with hmem | hmem
    · exact hc (hcode.mem hmem)
    · exact ih hmem

theorem Escapes.isAscii {bytes : List UInt8} {code : List Char} (h : Escapes bytes code) :
    ∀ c ∈ code, isAscii c = true := by
  intro c hc
  have hall : "%0123456789ABCDEFabcdef".toList.all Text.isAscii = true := by decide
  exact List.all_eq_true.mp hall c (h.mem hc)

theorem Escapes.head {bytes : List UInt8} {code : List Char} (h : Escapes bytes code)
    (hne : bytes ≠ []) : ∃ rest, code = '%' :: rest := by
  cases h with
  | nil => exact absurd rfl hne
  | cons => exact ⟨_, rfl⟩

/-! ### Bytes -/

section Step

variable {b : UInt8} {c high low : Char} {cs : List Char}

theorem bytesFrom_escape (h : escape? high low = some b) (done : List UInt8) :
    bytesFrom done ('%' :: high :: low :: cs) = bytesFrom (b :: done) cs := by
  rw [bytesFrom]
  simp only [h]

theorem bytesFrom_literal (h : escape? high low = none) (done : List UInt8) :
    bytesFrom done ('%' :: high :: low :: cs) = bytesFrom (0x25 :: done) (high :: low :: cs) := by
  rw [bytesFrom]
  simp only [h]

/-- A character that starts no escape stands for itself. -/
theorem bytesFrom_plain (h : ∀ high low rest, c = '%' → cs = high :: low :: rest →
    escape? high low = none) (done : List UInt8) :
    bytesFrom done (c :: cs) = bytesFrom (.ofNat c.toNat :: done) cs := by
  rw [bytesFrom.eq_def]
  dsimp only
  split
  · next high low rest =>
    rw [h high low rest rfl rfl]
    rfl
  · rfl

theorem bytesFrom_cons (h : c ≠ '%') (done : List UInt8) (raw : List Char) :
    bytesFrom done (c :: raw) = bytesFrom (.ofNat c.toNat :: done) raw :=
  bytesFrom_plain (fun _ _ _ hc _ => (h hc).elim) done

end Step

theorem bytesFrom_escapes {bytes : List UInt8} {code : List Char} (h : Escapes bytes code)
    (done : List UInt8) (raw : List Char) :
    bytesFrom done (code ++ raw) = bytesFrom (bytes.reverse ++ done) raw := by
  induction h generalizing done with
  | nil => rfl
  | @cons b bytes high low code hhigh hlow _ ih =>
    have hb := b.toNat_lt
    have hvalue : b.toNat / 16 * 16 + b.toNat % 16 = b.toNat := by omega
    have hescape : escape? high low = some b := by
      rw [escape?, hhigh.hexValue? (by omega), hlow.hexValue? (by omega)]
      simp [hvalue]
    show bytesFrom done ('%' :: high :: low :: (code ++ raw)) = _
    rw [bytesFrom_escape hescape, ih]
    simp

/-- An ASCII run stands for the bytes of the characters that it writes. -/
theorem bytesFrom_writes {free : Char → Prop} (hfree : ¬free '%') {cs raw : List Char}
    (h : Writes free cs raw) (hascii : ∀ c ∈ raw, isAscii c = true) (done : List UInt8) :
    bytesFrom done raw = done.reverse ++ cs.flatMap Utf8.encodeChar := by
  induction h generalizing done with
  | nil => simp [bytesFrom]
  | @plain c cs raw hc _ ih =>
    have hcode : c.toNat < 128 := by simpa [isAscii] using hascii c (by simp)
    have hne : c ≠ '%' := by
      rintro rfl
      exact hfree hc
    rw [bytesFrom_cons hne, ih fun d hd => hascii d (List.mem_cons_of_mem _ hd), List.flatMap_cons,
      Utf8.encodeChar, if_pos hcode]
    simp
  | escaped hcode _ ih =>
    rw [bytesFrom_escapes hcode, ih fun d hd => hascii d (List.mem_append_right _ hd),
      List.flatMap_cons, Utf8.encodeChar_eq]
    simp

/-! ### Runs -/

/-- An ASCII run ends between two characters of the writing. -/
theorem Writes.split {free : Char → Prop} {cs run rest : List Char}
    (h : Writes free cs (run ++ rest)) (hrest : ∀ c ∈ rest.head?, isAscii c = false) :
    ∃ before after, cs = before ++ after ∧ Writes free before run ∧ Writes free after rest := by
  generalize hraw : run ++ rest = raw at h
  induction h generalizing run with
  | nil =>
    obtain ⟨rfl, rfl⟩ := List.append_eq_nil_iff.mp hraw
    exact ⟨[], [], rfl, .nil, .nil⟩
  | @plain c cs raw hc h ih =>
    cases run with
    | nil =>
      refine ⟨[], c :: cs, rfl, .nil, ?_⟩
      rw [show rest = c :: raw from hraw]
      exact .plain hc h
    | cons d run =>
      obtain ⟨rfl, htail⟩ := List.cons.inj hraw
      obtain ⟨before, after, rfl, hbefore, hafter⟩ := ih htail
      exact ⟨d :: before, after, rfl, .plain hc hbefore, hafter⟩
  | @escaped c cs code raw hcode h ih =>
    -- The rest starts with another character, so it does not start inside the escapes.
    have hinside : ∃ more, run = code ++ more ∧ raw = more ++ rest := by
      rcases List.append_eq_append_iff.mp hraw with ⟨inside, hcut, hrest'⟩ | ⟨more, hrun, hmore⟩
      · cases inside with
        | nil => exact ⟨[], by simpa using hcut.symm, by simpa using hrest'.symm⟩
        | cons d inside =>
          have hd : isAscii d = true := hcode.isAscii d (by simp [hcut])
          rw [hrest d (by simp [hrest'])] at hd
          cases hd
      · exact ⟨more, hrun, hmore⟩
    obtain ⟨more, rfl, rfl⟩ := hinside
    obtain ⟨before, after, rfl, hbefore, hafter⟩ := ih rfl
    exact ⟨c :: before, after, rfl, .escaped hcode hbefore, hafter⟩

/-- Characters that are not of ASCII stand for themselves. -/
theorem Writes.of_append {free : Char → Prop} {cs run rest : List Char}
    (h : Writes free cs (run ++ rest)) (hrun : ∀ c ∈ run, isAscii c = false) :
    ∃ after, cs = run ++ after ∧ Writes free after rest := by
  induction run generalizing cs with
  | nil => exact ⟨cs, rfl, h⟩
  | cons d run ih =>
    rw [List.cons_append] at h
    generalize hraw : d :: (run ++ rest) = raw at h
    cases h with
    | nil => cases hraw
    | plain hc h =>
      obtain ⟨rfl, rfl⟩ := List.cons.inj hraw
      obtain ⟨after, rfl, hafter⟩ := ih h fun c hc => hrun c (List.mem_cons_of_mem _ hc)
      exact ⟨after, rfl, hafter⟩
    | @escaped c cs code raw hcode h =>
      obtain ⟨more, rfl⟩ := hcode.head (by simp)
      have hd := hrun d (by simp)
      rw [(List.cons.inj hraw).1] at hd
      cases hd

/-- The characters of a run are of ASCII, all or none. -/
theorem isAscii_of_mem_runs {raw run : List Char} (h : run ∈ runs raw) :
    ∃ b, ∀ c ∈ run, isAscii c = b := by
  have hchain := List.isChain_of_mem_splitBy h
  clear h
  induction run with
  | nil => exact ⟨true, by simp⟩
  | cons first run ih =>
    obtain ⟨b, hb⟩ := ih hchain.tail
    cases run with
    | nil => exact ⟨isAscii first, by simp⟩
    | cons next run =>
      have hnext : isAscii first = isAscii next := by
        simpa using (List.isChain_cons_cons.mp hchain).1
      refine ⟨b, List.forall_mem_cons.mpr ⟨?_, hb⟩⟩
      rw [hnext, hb next (by simp)]

theorem decodeRun_of_writes {free : Char → Prop} (hfree : ¬free '%') {cs run : List Char}
    (h : Writes free cs run) (hrun : ∀ c ∈ run, isAscii c = true) : decodeRun run = .ok cs := by
  rw [decodeRun, if_pos (List.all_eq_true.mpr hrun), bytes, bytesFrom_writes hfree h hrun,
    Utf8.decode]
  exact Utf8.decodeFrom_flatMap 0 [] cs

theorem decodeRun_of_not_ascii {run : List Char} (h : ∀ c ∈ run, isAscii c = false) :
    decodeRun run = .ok run := by
  cases run with
  | nil =>
    have hempty : Writes (fun _ => False) [] [] := .nil
    exact decodeRun_of_writes id hempty (by simp)
  | cons c run => simp [decodeRun, h c]

/-- The runs of a writing decode to the characters that it writes. -/
theorem mapM_decodeRun_of_writes {free : Char → Prop} (hfree : ¬free '%') {cs : List Char}
    {rs : List (List Char)} (hsame : ∀ run ∈ rs, ∃ b, ∀ c ∈ run, isAscii c = b)
    (hchain : rs.IsChain fun run next =>
      ∃ hrun hnext, (isAscii (run.getLast hrun) == isAscii (next.head hnext)) = false)
    (h : Writes free cs rs.flatten) :
    ∃ texts, rs.mapM decodeRun = .ok texts ∧ texts.flatten = cs := by
  induction rs generalizing cs with
  | nil =>
    generalize hraw : ([] : List (List Char)).flatten = raw at h
    cases h with
    | nil => exact ⟨[], rfl, rfl⟩
    | plain => cases hraw
    | escaped hcode =>
      obtain ⟨more, rfl⟩ := hcode.head (by simp)
      cases hraw
  | cons run rs ih =>
    have hrest := fun other hother => hsame other (List.mem_cons_of_mem run hother)
    obtain ⟨b, hb⟩ := hsame run (by simp)
    have hstep : ∃ before after, cs = before ++ after ∧ decodeRun run = .ok before ∧
        Writes free after rs.flatten := by
      cases b with
      | false =>
        obtain ⟨after, rfl, hafter⟩ := h.of_append hb
        exact ⟨run, after, rfl, decodeRun_of_not_ascii hb, hafter⟩
      | true =>
        have hhead : ∀ c ∈ rs.flatten.head?, isAscii c = false := by
          cases rs with
          | nil => simp
          | cons next rs =>
            obtain ⟨hrun, hnext, hdiffer⟩ := (List.isChain_cons_cons.mp hchain).1
            rw [hb _ (List.getLast_mem hrun)] at hdiffer
            obtain ⟨d, next, rfl⟩ := List.exists_cons_of_ne_nil hnext
            simpa using hdiffer
        obtain ⟨before, after, rfl, hbefore, hafter⟩ := Writes.split h hhead
        exact ⟨before, after, rfl, decodeRun_of_writes hfree hbefore hb, hafter⟩
    obtain ⟨before, after, rfl, hrun, hafter⟩ := hstep
    obtain ⟨texts, htexts, rfl⟩ := ih hrest hchain.tail hafter
    refine ⟨before :: texts, ?_, rfl⟩
    rw [List.mapM_cons, hrun, htexts]
    rfl

/-- Decoding gives back the text that was written. -/
theorem decode_of_writes {free : Char → Prop} (hfree : ¬free '%') {s raw : String}
    (h : Writes free s.toList raw.toList) : decode raw = .ok s := by
  have hflat : (runs raw.toList).flatten = raw.toList := List.flatten_splitBy _ _
  have hchain := List.isChain_getLast_head_splitBy (fun a b => isAscii a == isAscii b) raw.toList
  rw [← hflat] at h
  obtain ⟨texts, htexts, hs⟩ :=
    mapM_decodeRun_of_writes hfree (fun _ hrun => isAscii_of_mem_runs hrun) hchain h
  rw [decode, htexts]
  show Except.ok (String.ofList texts.flatten) = _
  rw [hs, String.ofList_toList]

theorem Writes.self {free : Char → Prop} {cs : List Char} (h : ∀ c ∈ cs, free c) :
    Writes free cs cs := by
  induction cs with
  | nil => exact .nil
  | cons c cs ih => exact .plain (h c (by simp)) (ih fun d hd => h d (List.mem_cons_of_mem c hd))

/-- A text without a percent sign decodes to itself. -/
theorem decode_plain {s : String} (h : '%' ∉ s.toList) : decode s = .ok s := by
  have hself : Writes (· ≠ '%') s.toList s.toList := .self fun _ hc he => h (he ▸ hc)
  exact decode_of_writes (fun hne => hne rfl) hself

end Percent

end Catalogue.Text
