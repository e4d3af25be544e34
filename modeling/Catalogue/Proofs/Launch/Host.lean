import Catalogue.Launch.Host
import Catalogue.Proofs.Date
import Mathlib.Data.List.Infix
import Mathlib.Data.List.TakeWhile

/-! What a server is bound to.  Only a text that starts like an address of this machine is bound,
and such an address is bound to itself; but the rest of the text is not looked at, so a name that
starts with `127.` is bound as well. -/

namespace Catalogue.Launch

open Number Text

/-! ### The piece behind the last mark -/

/-- Cut at each mark, from the left, `cs` ends with the piece `last`. -/
inductive Leaves : List Char → List Char → Prop where
  | whole {cs : List Char} : ¬mappedMark <:+: cs → Leaves cs cs
  /-- The mark behind `front` is the first one. -/
  | cut {front rest last : List Char} : ¬mappedMark <:+: front ++ mappedMark.dropLast →
      Leaves rest last → Leaves (front ++ (mappedMark ++ rest)) last

theorem prefix_dropLast_append (front rest : List Char) :
    front ++ mappedMark.dropLast <+: front ++ (mappedMark ++ rest) :=
  (List.prefix_append_right_inj front).mpr
    ((List.dropLast_prefix mappedMark).trans (List.prefix_append _ _))

theorem exists_first_mark {cs : List Char} (h : mappedMark <:+: cs) :
    ∃ front rest, cs = front ++ (mappedMark ++ rest) ∧
      ¬mappedMark <:+: front ++ mappedMark.dropLast := by
  induction cs with
  | nil => exact absurd (List.eq_nil_of_infix_nil h) (by decide)
  | cons c cs ih =>
    by_cases hfront : mappedMark <+: c :: cs
    · obtain ⟨rest, hrest⟩ := hfront
      refine ⟨[], rest, hrest.symm, fun hi => ?_⟩
      have := hi.length_le
      simp only [List.nil_append, List.length_dropLast] at this
      exact absurd this (by decide)
    · obtain ⟨front, rest, rfl, hfirst⟩ := ih ((List.infix_cons_iff.mp h).resolve_left hfront)
      refine ⟨c :: front, rest, rfl, fun hi => ?_⟩
      rcases List.infix_cons_iff.mp hi with hp | hi
      · exact hfront (hp.trans (prefix_dropLast_append (c :: front) rest))
      · exact hfirst hi

/-- Every text ends with a piece. -/
theorem exists_leaves (cs : List Char) : ∃ last, Leaves cs last := by
  by_cases h : mappedMark <:+: cs
  · obtain ⟨front, rest, hcs, hfirst⟩ := exists_first_mark h
    have hshorter : rest.length < cs.length := by
      have : 0 < mappedMark.length := by decide
      simp only [hcs, List.length_append]
      omega
    obtain ⟨last, hlast⟩ := exists_leaves rest
    rw [hcs]
    exact ⟨last, .cut hfirst hlast⟩
  · exact ⟨cs, .whole h⟩
termination_by cs.length

theorem afterLastMark_mark (last rest : List Char) :
    afterLastMark last (mappedMark ++ rest) = afterLastMark rest rest := by
  have hmark : mappedMark ++ rest = ':' :: (mappedMark.tail ++ rest) := rfl
  have hdrop : (mappedMark.tail ++ rest).drop (mappedMark.length - 1) = rest := by
    rw [← List.length_tail, List.drop_left]
  rw [hmark, afterLastMark, ← hmark,
    if_pos (List.isPrefixOf_iff_prefix.mpr (List.prefix_append _ _)), hdrop]

theorem afterLastMark_step {c : Char} {cs : List Char} (h : ¬mappedMark <+: c :: cs)
    (last : List Char) : afterLastMark last (c :: cs) = afterLastMark last cs := by
  rw [afterLastMark, if_neg (mt List.isPrefixOf_iff_prefix.mp h)]

theorem afterLastMark_whole {cs : List Char} (h : ¬mappedMark <:+: cs) (last : List Char) :
    afterLastMark last cs = last := by
  induction cs with
  | nil => rw [afterLastMark]
  | cons c cs ih =>
    obtain ⟨hfront, hrest⟩ := not_or.mp (mt List.infix_cons_iff.mpr h)
    rw [afterLastMark_step hfront, ih hrest]

theorem afterLastMark_cut {front : List Char}
    (h : ¬mappedMark <:+: front ++ mappedMark.dropLast) (last rest : List Char) :
    afterLastMark last (front ++ (mappedMark ++ rest)) = afterLastMark rest rest := by
  induction front with
  | nil => exact afterLastMark_mark last rest
  | cons c front ih =>
    rw [List.cons_append] at h
    obtain ⟨hfront, hrest⟩ := not_or.mp (mt List.infix_cons_iff.mpr h)
    rw [List.cons_append, afterLastMark_step, ih hrest]
    -- A mark here would end before the last character of the mark behind `front`.
    intro hp
    refine hfront (List.prefix_of_prefix_length_le hp (prefix_dropLast_append (c :: front) rest) ?_)
    simp only [List.length_cons, List.length_append, List.length_dropLast]
    omega

theorem leaves_iff {cs last : List Char} : Leaves cs last ↔ afterLastMark cs cs = last := by
  have hgives {cs last : List Char} (h : Leaves cs last) : afterLastMark cs cs = last := by
    induction h with
    | whole h => exact afterLastMark_whole h _
    | cut h _ ih => rw [afterLastMark_cut h, ih]
  refine ⟨hgives, fun h => ?_⟩
  obtain ⟨other, hother⟩ := exists_leaves cs
  rwa [← h, hgives hother]

/-! ### Addresses -/

/-- The host of a candidate, without blanks around it and in small letters. -/
def hostOf (candidate : String) : String := toLower (trimmedHost candidate)

/-- The candidate gives the address: its host itself, or what is behind the marks where the host
starts with one. -/
inductive Addresses (candidate address : String) : Prop where
  | plain : ¬mappedMark <+: (hostOf candidate).toList → hostOf candidate = address →
      Addresses candidate address
  | mapped : mappedMark <+: (hostOf candidate).toList →
      Leaves (hostOf candidate).toList address.toList → Addresses candidate address

theorem unmapped_of_mark {host : String} (h : mappedMark <+: host.toList) :
    unmapped host = String.ofList (afterLastMark host.toList host.toList) := by
  obtain ⟨rest, hrest⟩ := h
  rw [unmapped, if_pos (List.isPrefixOf_iff_prefix.mpr ⟨rest, hrest⟩), ← hrest,
    afterLastMark_mark, afterLastMark_mark]

theorem unmapped_of_plain {host : String} (h : ¬mappedMark <+: host.toList) :
    unmapped host = host := by
  rw [unmapped, if_neg (mt List.isPrefixOf_iff_prefix.mp h)]

theorem addresses_iff {candidate address : String} :
    Addresses candidate address ↔ unmapped (hostOf candidate) = address := by
  by_cases h : mappedMark <+: (hostOf candidate).toList
  · rw [unmapped_of_mark h, ← String.toList_inj, String.toList_ofList, ← leaves_iff]
    constructor
    · rintro (⟨hplain, -⟩ | ⟨-, hleaves⟩)
      · exact absurd h hplain
      · exact hleaves
    · exact .mapped h
  · rw [unmapped_of_plain h]
    constructor
    · rintro (⟨-, haddress⟩ | ⟨hmark, -⟩)
      · exact haddress
      · exact absurd hmark h
    · exact .plain h

/-- An address of this machine: 127 and three numbers up to 255, in decimal without leading
zeros. -/
def IsLoopback (address : String) : Prop :=
  ∃ b c d : Nat, b ≤ 255 ∧ c ≤ 255 ∧ d ≤ 255 ∧
    address = "127." ++ natText b ++ "." ++ natText c ++ "." ++ natText d

/-- The characters of an address. -/
def isAddressChar (c : Char) : Bool := isAsciiDigit c || c == '.'

theorem isAddressChar_natText (n : Nat) : ∀ c ∈ (natText n).toList, isAddressChar c = true := by
  intro c hc
  rw [toList_natText] at hc
  obtain ⟨d, hd, rfl⟩ := List.mem_map.mp hc
  rw [isAddressChar, isAsciiDigit_digitChar (digits_lt_ten n d hd), Bool.true_or]

theorem IsLoopback.chars {address : String} (h : IsLoopback address) :
    ∀ c ∈ address.toList, isAddressChar c = true := by
  obtain ⟨b, c, d, -, -, -, rfl⟩ := h
  have hstart : ∀ c ∈ "127.".toList, isAddressChar c = true := List.all_eq_true.mp (by decide)
  have hpoint : ∀ c ∈ ".".toList, isAddressChar c = true := List.all_eq_true.mp (by decide)
  simp only [String.toList_append, List.forall_mem_append]
  exact ⟨⟨⟨⟨⟨hstart, isAddressChar_natText b⟩, hpoint⟩, isAddressChar_natText c⟩, hpoint⟩,
    isAddressChar_natText d⟩

theorem IsLoopback.exists_rest {address : String} (h : IsLoopback address) :
    ∃ rest, address = "127." ++ rest := by
  obtain ⟨b, c, d, -, -, -, rfl⟩ := h
  exact ⟨natText b ++ "." ++ natText c ++ "." ++ natText d, by simp only [String.append_assoc]⟩

theorem isLoopback_default : IsLoopback defaultHost :=
  ⟨0, 0, 1, by decide, by decide, by decide, by decide +kernel⟩

/-! ### What is bound -/

theorem bindHost?_eq (candidate : String) : bindHost? candidate =
    if hostOf candidate = "localhost" ∨ unmapped (hostOf candidate) = "::1" then some defaultHost
    else if (unmapped (hostOf candidate)).startsWith "127." then some (unmapped (hostOf candidate))
    else none := rfl

theorem startsWith_iff {address : String} :
    address.startsWith "127." = true ↔ ∃ rest, address = "127." ++ rest := by
  rw [String.startsWith_string_iff]
  constructor
  · rintro ⟨rest, hrest⟩
    have hlist : (String.ofList rest).toList = rest := String.toList_ofList
    refine ⟨String.ofList rest, String.toList_inj.mp ?_⟩
    rw [String.toList_append, hlist]
    exact hrest.symm
  · rintro ⟨rest, rfl⟩
    exact ⟨rest.toList, String.toList_append.symm⟩

theorem head?_of_rest {address : String} (h : ∃ rest, address = "127." ++ rest) :
    address.toList.head? = some '1' := by
  obtain ⟨rest, rfl⟩ := h
  rw [String.toList_append]
  rfl

/-- A name of this machine gives no address that starts with 127. -/
theorem not_addresses_of_name {candidate address : String}
    (h : hostOf candidate = "localhost" ∨ Addresses candidate "::1")
    (haddress : Addresses candidate address) : ¬∃ rest, address = "127." ++ rest := by
  intro hrest
  have hhead := head?_of_rest hrest
  rw [← addresses_iff.mp haddress] at hhead
  rcases h with h | h
  · have hname : unmapped "localhost" = "localhost" := by decide
    rw [h, hname] at hhead
    exact absurd hhead (by decide)
  · rw [addresses_iff.mp h] at hhead
    exact absurd hhead (by decide)

theorem bindHost?_eq_some_iff {candidate address : String} :
    bindHost? candidate = some address ↔
      (hostOf candidate = "localhost" ∨ Addresses candidate "::1") ∧ address = defaultHost ∨
      Addresses candidate address ∧ ∃ rest, address = "127." ++ rest := by
  have hnames : hostOf candidate = "localhost" ∨ Addresses candidate "::1" ↔
      hostOf candidate = "localhost" ∨ unmapped (hostOf candidate) = "::1" :=
    or_congr_right addresses_iff
  rw [bindHost?_eq]
  by_cases hname : hostOf candidate = "localhost" ∨ unmapped (hostOf candidate) = "::1"
  · rw [if_pos hname, Option.some.injEq]
    constructor
    · exact fun h => .inl ⟨hnames.mpr hname, h.symm⟩
    · rintro (⟨-, h⟩ | ⟨haddress, hrest⟩)
      · exact h.symm
      · exact absurd hrest (not_addresses_of_name (hnames.mpr hname) haddress)
  · rw [if_neg hname, ← startsWith_iff]
    by_cases hstart : (unmapped (hostOf candidate)).startsWith "127." = true
    · rw [if_pos hstart, Option.some.injEq]
      constructor
      · rintro rfl
        exact .inr ⟨addresses_iff.mpr rfl, hstart⟩
      · rintro (⟨h, -⟩ | ⟨h, -⟩)
        · exact absurd (hnames.mp h) hname
        · exact addresses_iff.mp h
    · rw [if_neg hstart]
      constructor
      · intro h
        cases h
      · rintro (⟨h, -⟩ | ⟨haddress, h⟩)
        · exact absurd (hnames.mp h) hname
        · rw [addresses_iff.mp haddress] at hstart
          exact absurd h hstart

theorem toNat_of_isAddressChar {c : Char} (h : isAddressChar c = true) :
    46 ≤ c.toNat ∧ c.toNat ≤ 57 := by
  rw [isAddressChar, Bool.or_eq_true, beq_iff_eq] at h
  rcases h with h | rfl
  · simp only [isAsciiDigit, Bool.and_eq_true, decide_eq_true_eq] at h
    omega
  · decide

theorem lowerFrom_eq_self {cs : List Char} (h : ∀ c ∈ cs, isAddressChar c = true)
    (before : List Char) : lowerFrom before cs = cs := by
  induction cs generalizing before with
  | nil => rfl
  | cons c cs ih =>
    obtain ⟨hc, hcs⟩ := List.forall_mem_cons.mp h
    have hcode := toNat_of_isAddressChar hc
    have hlower : c.toLower = c := by
      have hall : ∀ n < 58, (Char.ofNat n).toLower = Char.ofNat n := by decide
      have := hall c.toNat (by omega)
      rwa [Char.ofNat_toNat] at this
    rw [lowerFrom, ih hcs, if_pos (by omega), hlower, List.singleton_append]

theorem toLower_loopback {address : String} (h : IsLoopback address) :
    toLower address = address := by
  rw [toLower, lowerFrom_eq_self h.chars, String.ofList_toList]

theorem hostOf_loopback {address : String} (h : IsLoopback address) : hostOf address = address := by
  have hblank : ∀ c ∈ address.toList, isBlank c = false := by
    intro c hc
    have hcode := toNat_of_isAddressChar (h.chars c hc)
    have hall : ∀ n < 58, 46 ≤ n → blankCodes.contains n = false := by decide
    exact hall c.toNat (by omega) hcode.1
  have hne : address ≠ "" := by
    rintro rfl
    exact absurd (head?_of_rest h.exists_rest) (by decide)
  rw [hostOf, trimmedHost, Date.trim_eq_self hblank, if_neg hne, toLower_loopback h]

theorem hostOf_blank {candidate : String} (h : ∀ c ∈ candidate.toList, isBlank c = true) :
    hostOf candidate = defaultHost := by
  have htrim : trim candidate = "" := by
    rw [trim, trimBy, List.dropWhile_eq_nil_iff.mpr h]
    rfl
  rw [hostOf, trimmedHost, if_pos htrim, toLower_loopback isLoopback_default]

theorem addresses_of_hostOf {candidate address : String} (h : IsLoopback address)
    (hhost : hostOf candidate = address) : Addresses candidate address := by
  refine .plain ?_ hhost
  rintro ⟨rest, hrest⟩
  have hhead := head?_of_rest h.exists_rest
  rw [← hhost, ← hrest] at hhead
  exact absurd hhead (by rw [List.head?_append_of_ne_nil _ (by decide)]; decide)

theorem binds_of_hostOf {candidate address : String} (h : IsLoopback address)
    (hhost : hostOf candidate = address) : bindHost? candidate = some address :=
  bindHost?_eq_some_iff.mpr (.inr ⟨addresses_of_hostOf h hhost, h.exists_rest⟩)

/-- Nothing is bound but what starts with 127 and a point: the default, or the address that the
candidate gives.  An address of this machine is bound wherever the candidate does not give a text
that only starts like one; and every such address is bound to itself, as is the default where
nothing is given.  A candidate is refused where it is no name of this machine and gives no such
text. -/
theorem binds_loopback_iff (candidate : String) :
    (∀ address, bindHost? candidate = some address →
      (∃ rest, address = "127." ++ rest) ∧
        (address = defaultHost ∨ Addresses candidate address)) ∧
    ((∀ address, bindHost? candidate = some address → IsLoopback address) ↔
      ∀ rest, Addresses candidate ("127." ++ rest) → IsLoopback ("127." ++ rest)) ∧
    (bindHost? candidate = none ↔ hostOf candidate ≠ "localhost" ∧ ¬Addresses candidate "::1" ∧
      ∀ rest, ¬Addresses candidate ("127." ++ rest)) ∧
    (IsLoopback candidate → bindHost? candidate = some candidate) ∧
    ((∀ c ∈ candidate.toList, isBlank c = true) → bindHost? candidate = some defaultHost) := by
  refine ⟨fun address h => ?_, ⟨fun h rest hrest => ?_, fun h address haddress => ?_⟩, ?_,
    fun h => binds_of_hostOf h (hostOf_loopback h),
    fun h => binds_of_hostOf isLoopback_default (hostOf_blank h)⟩
  · rcases bindHost?_eq_some_iff.mp h with ⟨-, rfl⟩ | ⟨h, hrest⟩
    · exact ⟨isLoopback_default.exists_rest, .inl rfl⟩
    · exact ⟨hrest, .inr h⟩
  · exact h _ (bindHost?_eq_some_iff.mpr (.inr ⟨hrest, rest, rfl⟩))
  · rcases bindHost?_eq_some_iff.mp haddress with ⟨-, rfl⟩ | ⟨hgiven, rest, rfl⟩
    · exact isLoopback_default
    · exact h rest hgiven
  · rw [Option.eq_none_iff_forall_ne_some]
    constructor
    · intro h
      refine ⟨fun hname => ?_, fun hname => ?_, fun rest hrest => ?_⟩
      · exact h _ (bindHost?_eq_some_iff.mpr (.inl ⟨.inl hname, rfl⟩))
      · exact h _ (bindHost?_eq_some_iff.mpr (.inl ⟨.inr hname, rfl⟩))
      · exact h _ (bindHost?_eq_some_iff.mpr (.inr ⟨hrest, rest, rfl⟩))
    · rintro ⟨hlocal, hone, hrest⟩ address haddress
      rcases bindHost?_eq_some_iff.mp haddress with ⟨hname | hname, -⟩ | ⟨h, rest, rfl⟩
      · exact hlocal hname
      · exact hone hname
      · exact hrest rest h

/-- A name that starts with 127 and a point is bound. -/
theorem binds_name : bindHost? "127.example.org" = some "127.example.org" ∧
    ¬IsLoopback "127.example.org" := by
  constructor
  · decide +kernel
  · exact fun h => absurd (h.chars 'e' (by decide)) (by decide)

end Catalogue.Launch
